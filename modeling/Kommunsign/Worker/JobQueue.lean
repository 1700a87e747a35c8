import Mathlib.Data.List.Sort
import Mathlib.Logic.Function.Basic
import Kommunsign.Data.Rows
import Kommunsign.Infra.Moved
import Kommunsign.Infra.Run

/-!
# The durable jobs and their workers

`app.durable_jobs` with what the workers do to it. A worker goes through the tenants and claims
jobs of each in a transaction of its own, then runs all that it has claimed, and claims again only
when every one of them is settled. A worker can stop at any point, and a lease can run out while
its worker is still at work.

* `JobQueue`, `JobStep`, `JobQueue.step` — the queue, its workers, and what can happen
* `claimDurableJobs` — `app.claim_durable_jobs`
-/

namespace Kommunsign

open Infra

/-- `app.job_status`. -/
inductive JobStatus where
  | pending | leased | completed | dead_letter
  deriving DecidableEq, Repr

/-- `DurableJobType`. -/
inductive DurableJobType where
  | APPLICATION_NOTIFICATION | APPLICATION_DEADLINE | TENANT_PROVISION | TENANT_READINESS
  | TENANT_ACTIVATION | CERTIFICATE_MONITOR | DOCUMENT_SCAN | DOCUMENT_CANONICALIZE
  | IDENTITY_STATUS_POLL | SIGNATURE_CREATE | SIGNATURE_VALIDATE | PADES_CREATE | PADES_VALIDATE
  | TIC_EVIDENCE_COLLECT | EVIDENCE_PACKAGE_BUILD | EMAIL_SEND | WEBHOOK_DELIVER | REMINDER_SEND
  | CASE_EXPIRE | ARCHIVE_EXPORT | RETENTION_EXECUTE | PRIVACY_REQUEST_EXECUTE
  deriving DecidableEq, Repr

/-- A row of `app.durable_jobs`; of the payload only what the recovery looks for. -/
structure DurableJobRow where
  tenantId : Id
  id : Id
  jobType : DurableJobType
  provisioningRequestId : Option Id
  idempotencyKey : Text
  status : JobStatus
  availableAt : Time
  attempts : Nat
  maximumAttempts : Nat
  leaseOwner : Option Id
  leaseExpiresAt : Option Time
  createdAt : Time
  deriving DecidableEq

/-- The primary key. -/
def DurableJobRow.key (row : DurableJobRow) : Id × Id := (row.tenantId, row.id)

/-- What a worker keeps of a job that it has claimed. -/
structure ClaimedJob where
  key : Id × Id
  /-- Number of claims including the current lease. -/
  attempts : Nat
  maximumAttempts : Nat
  deriving DecidableEq

/-- A worker in its loop: the tenants still to visit, the jobs claimed so far, the jobs running. -/
structure WorkerState where
  limit : Nat
  leaseSeconds : Nat
  tenants : List Id
  claimed : List ClaimedJob
  running : List ClaimedJob
  deriving DecidableEq

def WorkerState.idle : WorkerState where
  limit := 0
  leaseSeconds := 0
  tenants := []
  claimed := []
  running := []

/-- The jobs, the time, and the workers by their identities. -/
structure JobQueue where
  jobs : List DurableJobRow
  now : Time
  workers : Id → WorkerState

def JobQueue.start (now : Time) : JobQueue where
  jobs := []
  now := now
  workers := fun _ => .idle

inductive JobStep where
  | tick (duration : Nat)
  | enqueue (tenantId : Id) (jobType : DurableJobType) (provisioningRequestId : Option Id)
      (idempotencyKey : Text) (maximumAttempts : Nat)
  /-- `recoverProvisioningJobs` for one request, when a worker starts. -/
  | recover (requestId : Id)
  /-- A worker begins its round with the tenants it has listed. -/
  | poll (worker : Id) (tenants : List Id) (limit leaseSeconds : Nat)
  /-- The next tenant's claim; rows that other transactions have locked are skipped. -/
  | claim (worker : Id) (locked : List Id)
  /-- The round is over, and what was claimed is run. -/
  | start (worker : Id)
  | heartbeat (worker : Id) (job : ClaimedJob)
  /-- The handler has succeeded; `answered` says whether the worker learns of its own commit. -/
  | complete (worker : Id) (job : ClaimedJob) (answered : Bool)
  /-- The handler has failed: `retry`, or `deadLetter` when it was permanent or the last attempt. -/
  | fail (worker : Id) (job : ClaimedJob) (permanent : Bool) (nextAvailableAt : Time)
  | crash (worker : Id)

/-! ## The statements -/

def milliseconds (seconds : Nat) : Nat := seconds * 1000

/-- Whether a job is a candidate of `app.claim_durable_jobs` at a time. -/
def DurableJobRow.claimable (now : Time) (row : DurableJobRow) : Bool :=
  decide (row.availableAt ≤ now) && decide (row.attempts < row.maximumAttempts) &&
    (row.status == .pending || row.status == .leased && row.leaseExpiresAt.any (· < now))

/-- `set status='leased', lease_owner=…, lease_expires_at=…, attempts=attempts+1`. -/
def DurableJobRow.lease (worker : Id) (expiresAt : Time) (row : DurableJobRow) : DurableJobRow :=
  { row with
    status := .leased
    leaseOwner := some worker
    leaseExpiresAt := some expiresAt
    attempts := row.attempts + 1 }

/-- `order by available_at, created_at`. -/
def claimOrder (a b : DurableJobRow) : Prop :=
  a.availableAt < b.availableAt ∨ a.availableAt = b.availableAt ∧ a.createdAt ≤ b.createdAt

instance : DecidableRel claimOrder := fun _ _ => by
  unfold claimOrder
  infer_instance

/-- The keys that a claim takes: `order by … for update skip locked limit …`. -/
def claimCandidates (jobs : List DurableJobRow) (now : Time) (tenantId limit : Nat)
    (locked : List Id) : List (Id × Id) :=
  (((jobs.filter fun row => row.tenantId == tenantId && row.claimable now &&
    !locked.contains row.id).insertionSort claimOrder).take limit).map (·.key)

/-- `app.claim_durable_jobs`. -/
def claimDurableJobs (jobs : List DurableJobRow) (now : Time) (worker tenantId limit : Nat)
    (leaseSeconds : Nat) (locked : List Id) : List DurableJobRow × List ClaimedJob :=
  let candidates := claimCandidates jobs now tenantId limit locked
  let leased := DurableJobRow.lease worker (now + milliseconds leaseSeconds)
  (assign (fun row => candidates.contains row.key) leased jobs,
    (jobs.filter fun row => candidates.contains row.key).map fun row =>
      ⟨row.key, row.attempts + 1, row.maximumAttempts⟩)

/-- `… where tenant_id=$1 and id=$2 and status='leased' and lease_owner=$3`. -/
def DurableJobRow.heldBy (worker : Id) (key : Id × Id) (row : DurableJobRow) : Bool :=
  row.key == key && row.status == .leased && row.leaseOwner == some worker

/-- The lease is given up with a status. -/
def DurableJobRow.release (status : JobStatus) (row : DurableJobRow) : DurableJobRow :=
  { row with status := status, leaseOwner := none, leaseExpiresAt := none }

def DurableJobRow.retry (nextAvailableAt : Time) (row : DurableJobRow) : DurableJobRow :=
  { row.release .pending with availableAt := nextAvailableAt }

/-- Whether a failed attempt is the end of the job. -/
def ClaimedJob.isDead (job : ClaimedJob) (permanent : Bool) : Bool :=
  permanent || decide (job.maximumAttempts ≤ job.attempts)

/-! ## Recovery -/

def platformJobTenantId : Id := 0

/-- `status='leased' and coalesce(lease_expires_at,now()+interval '1 minute')>now()`. -/
def DurableJobRow.leaseActive (now : Time) (row : DurableJobRow) : Bool :=
  row.status == .leased && decide (now < row.leaseExpiresAt.getD (now + milliseconds 60))

/-- The latest job of a provisioning request. -/
def provisioningJob? (jobs : List DurableJobRow) (requestId : Id) : Option DurableJobRow :=
  ((jobs.filter fun row => row.tenantId == platformJobTenantId &&
    row.jobType == .TENANT_PROVISION && row.provisioningRequestId == some requestId).insertionSort
    fun a b => b.createdAt < a.createdAt ∨ a.createdAt = b.createdAt ∧ b.id ≤ a.id).head?

/-- The statement that makes a job pending again. -/
def DurableJobRow.requeue (now : Time) (row : DurableJobRow) : DurableJobRow :=
  { row.release .pending with
    availableAt := now
    attempts := if row.status = .dead_letter then 0 else row.attempts }

/-- A job that is inserted now. -/
def newJob (jobs : List DurableJobRow) (now : Time) (tenantId : Id) (jobType : DurableJobType)
    (provisioningRequestId : Option Id) (idempotencyKey : Text) (maximumAttempts : Nat) :
    DurableJobRow where
  tenantId := tenantId
  id := freshKey (jobs.map (·.id))
  jobType := jobType
  provisioningRequestId := provisioningRequestId
  idempotencyKey := idempotencyKey
  status := .pending
  availableAt := now
  attempts := 0
  maximumAttempts := maximumAttempts
  leaseOwner := none
  leaseExpiresAt := none
  createdAt := now

def recoveryKey (requestId : Id) : Text :=
  "tenant-provision-recovery:".toList ++ (toString requestId).toList

/-- The transaction of `recoverProvisioningJobs` for one request. -/
def recoverProvisioningJob (jobs : List DurableJobRow) (now : Time) (requestId : Id) :
    List DurableJobRow :=
  match provisioningJob? jobs requestId with
  | some job =>
    if job.leaseActive now then jobs
    else assign (fun row => row.key == job.key) (DurableJobRow.requeue now) jobs
  | none =>
    jobs ++ [newJob jobs now platformJobTenantId .TENANT_PROVISION (some requestId)
      (recoveryKey requestId) 10]

/-! ## The system -/

namespace JobQueue

variable (q : JobQueue)

def setWorker (worker : Id) (state : WorkerState) : JobQueue :=
  { q with workers := Function.update q.workers worker state }

/-- A statement of a worker about a job that it runs. -/
def updateJob (worker : Id) (job : ClaimedJob) (f : DurableJobRow → DurableJobRow) : JobQueue :=
  { q with jobs := assign (DurableJobRow.heldBy worker job.key) f q.jobs }

/-- The worker is done with one of its jobs. -/
def finish (worker : Id) (job : ClaimedJob) : JobQueue :=
  q.setWorker worker { q.workers worker with running := (q.workers worker).running.erase job }

def step : JobStep → Option JobQueue
  | .tick duration => some { q with now := q.now + duration }
  | .enqueue tenantId jobType requestId idempotencyKey maximumAttempts =>
    -- every insert of the source names a positive maximum, or leaves it at the default
    if maximumAttempts = 0 then none
    else if q.jobs.any fun row => row.tenantId == tenantId && row.jobType == jobType &&
        row.idempotencyKey == idempotencyKey then some q
    else
      some { q with jobs := q.jobs ++
        [newJob q.jobs q.now tenantId jobType requestId idempotencyKey maximumAttempts] }
  | .recover requestId => some { q with jobs := recoverProvisioningJob q.jobs q.now requestId }
  | .poll worker tenants limit leaseSeconds =>
    let state := q.workers worker
    if tenants.Nodup ∧ 1 ≤ limit ∧ limit ≤ 1000 ∧ 5 ≤ leaseSeconds ∧ leaseSeconds ≤ 3600 ∧
        state.tenants = [] ∧ state.claimed = [] ∧ state.running = [] then
      some (q.setWorker worker ⟨limit, leaseSeconds, tenants, [], []⟩)
    else none
  | .claim worker locked =>
    let state := q.workers worker
    match state.tenants with
    | [] => none
    | tenantId :: tenants =>
      if state.limit ≤ state.claimed.length then none
      else
        let (jobs, claimed) := claimDurableJobs q.jobs q.now worker tenantId
          (state.limit - state.claimed.length) state.leaseSeconds locked
        some ({ q with jobs := jobs }.setWorker worker
          { state with tenants := tenants, claimed := state.claimed ++ claimed })
  | .start worker =>
    let state := q.workers worker
    if state.tenants = [] ∨ state.limit ≤ state.claimed.length then
      if state.running = [] then
        some (q.setWorker worker
          { state with tenants := [], claimed := [], running := state.claimed })
      else none
    else none
  | .heartbeat worker job =>
    if job ∈ (q.workers worker).running then
      some (q.updateJob worker job fun row =>
        { row with leaseExpiresAt := some (q.now + milliseconds 60) })
    else none
  | .complete worker job answered =>
    if job ∈ (q.workers worker).running then
      let q' := q.updateJob worker job (DurableJobRow.release .completed)
      some (if answered then q'.finish worker job else q')
    else none
  | .fail worker job permanent nextAvailableAt =>
    if job ∈ (q.workers worker).running then
      some ((if job.isDead permanent then
          q.updateJob worker job (DurableJobRow.release .dead_letter)
        else q.updateJob worker job (DurableJobRow.retry nextAvailableAt)).finish worker job)
    else none
  | .crash worker => some (q.setWorker worker .idle)

end JobQueue

/-! ## What a step does to a job -/

/-- What can become of one job in one step. -/
inductive JobMove (now : Time) : JobStep → DurableJobRow → DurableJobRow → Prop
  | stays (i : JobStep) (row : DurableJobRow) : JobMove now i row row
  | requeued {requestId : Id} {row : DurableJobRow} (h : row.leaseActive now = false) :
    JobMove now (.recover requestId) row (row.requeue now)
  | claimed {worker : Id} {locked : List Id} {row : DurableJobRow} (expiresAt : Time)
    (h : row.claimable now = true) (hlater : now ≤ expiresAt) :
    JobMove now (.claim worker locked) row (row.lease worker expiresAt)
  | extended {worker : Id} {job : ClaimedJob} {row : DurableJobRow} (expiresAt : Time)
    (h : row.heldBy worker job.key = true) (hlater : now ≤ expiresAt) :
    JobMove now (.heartbeat worker job) row { row with leaseExpiresAt := some expiresAt }
  | completed {worker : Id} {job : ClaimedJob} {answered : Bool} {row : DurableJobRow}
    (h : row.heldBy worker job.key = true) :
    JobMove now (.complete worker job answered) row (row.release .completed)
  | died {worker : Id} {job : ClaimedJob} {permanent : Bool} {nextAvailableAt : Time}
    {row : DurableJobRow} (h : row.heldBy worker job.key = true)
    (hdead : job.isDead permanent = true) :
    JobMove now (.fail worker job permanent nextAvailableAt) row (row.release .dead_letter)
  | retried {worker : Id} {job : ClaimedJob} {permanent : Bool} {nextAvailableAt : Time}
    {row : DurableJobRow} (h : row.heldBy worker job.key = true)
    (hdead : job.isDead permanent = false) :
    JobMove now (.fail worker job permanent nextAvailableAt) row (row.retry nextAvailableAt)

theorem JobMove.key {now : Time} {i : JobStep} {row row' : DurableJobRow}
    (h : JobMove now i row row') : row'.key = row.key := by
  cases h <;> rfl

/-- Every job is moved, and behind them are the new ones. -/
def MovedBy (now : Time) (i : JobStep) (jobs jobs' : List DurableJobRow) : Prop :=
  ∃ moved new, jobs' = moved ++ new ∧ Moved (JobMove now i) jobs moved ∧
    (new.map (·.key)).Nodup ∧ ∀ row ∈ new, row.status = .pending ∧ row.leaseOwner = none ∧
      row.attempts < row.maximumAttempts ∧ row.id ∉ jobs.map (·.id)

namespace MovedBy

variable {now : Time} {i : JobStep} {jobs jobs' : List DurableJobRow}

theorem of_moved (h : Moved (JobMove now i) jobs jobs') : MovedBy now i jobs jobs' :=
  ⟨jobs', [], (List.append_nil _).symm, h, List.nodup_nil,
    fun _ hrow => absurd hrow List.not_mem_nil⟩

theorem stays (now : Time) (i : JobStep) (jobs : List DurableJobRow) : MovedBy now i jobs jobs :=
  of_moved (Moved.refl (JobMove.stays i) jobs)

theorem assign {p : DurableJobRow → Bool} {f : DurableJobRow → DurableJobRow}
    (h : ∀ row ∈ jobs, p row = true → JobMove now i row (f row)) :
    MovedBy now i jobs (Infra.assign p f jobs) :=
  of_moved (Moved.assign (JobMove.stays i) h)

theorem insert {tenantId : Id} {jobType : DurableJobType} {requestId : Option Id}
    {idempotencyKey : Text} {maximumAttempts : Nat} (h : 0 < maximumAttempts) :
    MovedBy now i jobs
      (jobs ++ [newJob jobs now tenantId jobType requestId idempotencyKey maximumAttempts]) := by
  refine ⟨jobs, _, rfl, Moved.refl (JobMove.stays i) jobs, List.nodup_singleton _,
    fun row hrow => ?_⟩
  rw [List.mem_singleton.mp hrow]
  exact ⟨rfl, rfl, h, freshKey_not_mem _⟩

end MovedBy

theorem mem_claimCandidates {jobs : List DurableJobRow} {now : Time} {tenantId limit : Nat}
    {locked : List Id} {key : Id × Id} (h : key ∈ claimCandidates jobs now tenantId limit locked) :
    ∃ row ∈ jobs, row.key = key ∧ row.tenantId = tenantId ∧ row.claimable now = true := by
  obtain ⟨row, hrow, rfl⟩ := List.mem_map.mp h
  have hmem := (List.mem_insertionSort _).mp (List.mem_of_mem_take hrow)
  simp only [List.mem_filter, Bool.and_eq_true, beq_iff_eq] at hmem
  exact ⟨row, hmem.1, rfl, hmem.2.1.1, hmem.2.1.2⟩

theorem moved_of_step {q q' : JobQueue} {i : JobStep} (hkeys : (q.jobs.map (·.key)).Nodup)
    (h : q.step i = some q') : MovedBy q.now i q.jobs q'.jobs := by
  cases i with
  | tick duration =>
    cases h
    exact MovedBy.stays _ _ _
  | enqueue tenantId jobType requestId idempotencyKey maximumAttempts =>
    simp only [JobQueue.step] at h
    split at h
    · cases h
    next hpositive =>
    split at h
    · cases h
      exact MovedBy.stays _ _ _
    · cases h
      exact MovedBy.insert (Nat.pos_of_ne_zero hpositive)
  | recover requestId =>
    cases h
    show MovedBy q.now _ q.jobs (recoverProvisioningJob q.jobs q.now requestId)
    unfold recoverProvisioningJob
    split
    · next job hjob =>
      split
      · exact MovedBy.stays _ _ _
      · next hactive =>
        refine MovedBy.assign fun row hrow hkey => ?_
        -- the row of the statement is the one that was looked up
        have hmem := List.mem_of_mem_head? (Option.mem_def.mpr hjob)
        have hjobmem := (List.mem_filter.mp ((List.mem_insertionSort _).mp hmem)).1
        obtain rfl := eq_of_key_eq hkeys hrow hjobmem (by simpa using hkey)
        exact JobMove.requeued (by simpa using hactive)
    · exact MovedBy.insert (by decide)
  | poll worker tenants limit leaseSeconds =>
    simp only [JobQueue.step] at h
    split at h
    · cases h
      exact MovedBy.stays _ _ _
    · cases h
  | claim worker locked =>
    simp only [JobQueue.step] at h
    split at h
    · cases h
    · split at h
      · cases h
      · cases h
        refine MovedBy.assign fun row hrow hp => ?_
        obtain ⟨other, hother, hkey, -, hclaimable⟩ :=
          mem_claimCandidates (List.contains_iff_mem.mp hp)
        obtain rfl := eq_of_key_eq hkeys hrow hother hkey.symm
        exact JobMove.claimed _ hclaimable (Nat.le_add_right _ _)
  | start worker =>
    simp only [JobQueue.step] at h
    split at h
    · split at h
      · cases h
        exact MovedBy.stays _ _ _
      · cases h
    · cases h
  | heartbeat worker job =>
    simp only [JobQueue.step] at h
    split at h
    · cases h
      exact MovedBy.assign fun row _ hp => JobMove.extended _ hp (Nat.le_add_right _ _)
    · cases h
  | complete worker job answered =>
    simp only [JobQueue.step] at h
    split at h
    · cases h
      have hmoved : MovedBy q.now (.complete worker job answered) q.jobs
          (q.updateJob worker job (DurableJobRow.release .completed)).jobs :=
        MovedBy.assign fun row _ hp => JobMove.completed hp
      cases answered with
      | true => exact hmoved
      | false => exact hmoved
    · cases h
  | fail worker job permanent nextAvailableAt =>
    simp only [JobQueue.step] at h
    split at h
    · cases h
      by_cases hdead : job.isDead permanent = true
      · rw [if_pos hdead]
        exact MovedBy.assign fun row _ hp => JobMove.died hp hdead
      · rw [if_neg hdead]
        exact MovedBy.assign fun row _ hp => JobMove.retried hp (by simpa using hdead)
    · cases h
  | crash worker =>
    cases h
    exact MovedBy.stays _ _ _

end Kommunsign
