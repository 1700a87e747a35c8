import Kommunsign.Data.Texts
import Kommunsign.Worker.JobQueue

/-!
# One call of `claim`

The worker asks every tenant's jobs in turn, each in a transaction that is committed before its
rows are looked at, and turns the rows into jobs, which may throw.

* `QueuedJob`, `claimQueuedJobs` — the stored rows, and `app.claim_durable_jobs` on them
* `returnedJob` — a row as the job that the caller gets
-/

namespace Kommunsign

open Infra

/-! ## The rows -/

/-- A stored row. The date `none` is `-infinity`. -/
structure QueuedJob where
  tenantId : Id
  id : Id
  jobType : Text
  payload : Json
  idempotencyKey : Text
  status : JobStatus
  availableAt : Option Time
  attempts : Nat
  maximumAttempts : Nat
  leaseOwner : Option Text
  leaseExpiresAt : Option Time
  createdAt : Time
  deriving DecidableEq

def QueuedJob.key (row : QueuedJob) : Id × Id := (row.tenantId, row.id)

def QueuedJob.claimable (now : Time) (row : QueuedJob) : Bool :=
  row.availableAt.all (fun date => decide (date ≤ now)) &&
    decide (row.attempts < row.maximumAttempts) &&
    (row.status == .pending || row.status == .leased && row.leaseExpiresAt.any (· < now))

def QueuedJob.lease (workerId : Text) (expiresAt : Time) (row : QueuedJob) : QueuedJob :=
  { row with
    status := .leased
    leaseOwner := some workerId
    leaseExpiresAt := some expiresAt
    attempts := row.attempts + 1 }

/-- `order by available_at, created_at`. -/
def QueuedJob.claimOrder (a b : QueuedJob) : Bool :=
  match a.availableAt, b.availableAt with
  | none, none => decide (a.createdAt ≤ b.createdAt)
  | none, some _ => true
  | some _, none => false
  | some x, some y => decide (x < y) || x == y && decide (a.createdAt ≤ b.createdAt)

/-- The keys that a claim takes: `order by … for update skip locked limit …`. -/
def queuedCandidates (table : List QueuedJob) (now : Time) (tenantId limit : Nat)
    (locked : List Id) : List (Id × Id) :=
  (((table.filter fun row => row.tenantId == tenantId && row.claimable now &&
    !locked.contains row.id).insertionSort fun a b => a.claimOrder b = true).take limit).map (·.key)

/-- `app.claim_durable_jobs`: the table afterwards, and the rows returned. -/
def claimQueuedJobs (table : List QueuedJob) (now : Time) (workerId : Text) (tenantId limit : Nat)
    (leaseSeconds : Nat) (locked : List Id) : List QueuedJob × List QueuedJob :=
  let candidates := queuedCandidates table now tenantId limit locked
  let leased := QueuedJob.lease workerId (now + milliseconds leaseSeconds)
  (assign (fun row => candidates.contains row.key) leased table,
    (table.filter fun row => candidates.contains row.key).map leased)

/-- The rows whose attempts have been counted up, as they are afterwards. -/
def leasedRows (table table' : List QueuedJob) : List QueuedJob :=
  ((table.zip table').filter fun (before, after) => decide (before.attempts < after.attempts)).map
    (·.2)

theorem leasedRows_claimQueuedJobs {table : List QueuedJob} {now : Time} {workerId : Text}
    {tenantId limit leaseSeconds : Nat} {locked : List Id} :
    leasedRows table (claimQueuedJobs table now workerId tenantId limit leaseSeconds locked).1 =
      (claimQueuedJobs table now workerId tenantId limit leaseSeconds locked).2 := by
  unfold claimQueuedJobs
  dsimp only
  generalize queuedCandidates table now tenantId limit locked = candidates
  induction table with
  | nil => rfl
  | cons row rows ih =>
    unfold leasedRows assign at ih ⊢
    rw [List.map_cons, List.zip_cons_cons]
    by_cases hcandidate : candidates.contains row.key = true
    · have hkept : (row :: rows).filter (fun row => candidates.contains row.key) =
          row :: rows.filter fun row => candidates.contains row.key :=
        List.filter_cons_of_pos hcandidate
      rw [if_pos hcandidate, List.filter_cons_of_pos (by simp [QueuedJob.lease]), hkept,
        List.map_cons, List.map_cons, ih]
    · have hdropped : (row :: rows).filter (fun row => candidates.contains row.key) =
          rows.filter fun row => candidates.contains row.key :=
        List.filter_cons_of_neg hcandidate
      rw [if_neg hcandidate, List.filter_cons_of_neg (by simp), hdropped, ih]

/-! ## The jobs -/

def DurableJobType.name : DurableJobType → Text
  | .APPLICATION_NOTIFICATION => "APPLICATION_NOTIFICATION".toList
  | .APPLICATION_DEADLINE => "APPLICATION_DEADLINE".toList
  | .TENANT_PROVISION => "TENANT_PROVISION".toList
  | .TENANT_READINESS => "TENANT_READINESS".toList
  | .TENANT_ACTIVATION => "TENANT_ACTIVATION".toList
  | .CERTIFICATE_MONITOR => "CERTIFICATE_MONITOR".toList
  | .DOCUMENT_SCAN => "DOCUMENT_SCAN".toList
  | .DOCUMENT_CANONICALIZE => "DOCUMENT_CANONICALIZE".toList
  | .IDENTITY_STATUS_POLL => "IDENTITY_STATUS_POLL".toList
  | .SIGNATURE_CREATE => "SIGNATURE_CREATE".toList
  | .SIGNATURE_VALIDATE => "SIGNATURE_VALIDATE".toList
  | .PADES_CREATE => "PADES_CREATE".toList
  | .PADES_VALIDATE => "PADES_VALIDATE".toList
  | .TIC_EVIDENCE_COLLECT => "TIC_EVIDENCE_COLLECT".toList
  | .EVIDENCE_PACKAGE_BUILD => "EVIDENCE_PACKAGE_BUILD".toList
  | .EMAIL_SEND => "EMAIL_SEND".toList
  | .WEBHOOK_DELIVER => "WEBHOOK_DELIVER".toList
  | .REMINDER_SEND => "REMINDER_SEND".toList
  | .CASE_EXPIRE => "CASE_EXPIRE".toList
  | .ARCHIVE_EXPORT => "ARCHIVE_EXPORT".toList
  | .RETENTION_EXECUTE => "RETENTION_EXECUTE".toList
  | .PRIVACY_REQUEST_EXECUTE => "PRIVACY_REQUEST_EXECUTE".toList

def supportedTypes : List DurableJobType := [
  .APPLICATION_NOTIFICATION, .APPLICATION_DEADLINE, .TENANT_PROVISION, .TENANT_READINESS,
  .TENANT_ACTIVATION, .CERTIFICATE_MONITOR, .DOCUMENT_SCAN, .DOCUMENT_CANONICALIZE,
  .IDENTITY_STATUS_POLL, .SIGNATURE_CREATE, .SIGNATURE_VALIDATE, .PADES_CREATE, .PADES_VALIDATE,
  .TIC_EVIDENCE_COLLECT, .EVIDENCE_PACKAGE_BUILD, .EMAIL_SEND, .WEBHOOK_DELIVER, .REMINDER_SEND,
  .CASE_EXPIRE, .ARCHIVE_EXPORT, .RETENTION_EXECUTE, .PRIVACY_REQUEST_EXECUTE]

/-- Why a call throws, and for which row. -/
inductive ClaimFailure where
  | WORKER_ID_INVALID
  | WORKER_CLAIM_LIMIT_INVALID
  | WORKER_LEASE_SECONDS_INVALID
  /-- A transaction has failed, or the answer to its commit is lost. -/
  | database
  | WORKER_JOB_TYPE_UNSUPPORTED (key : Id × Id) (jobType : Text)
  /-- `RangeError: Invalid time value`. -/
  | invalidTimeValue (key : Id × Id)
  deriving DecidableEq

def ClaimFailure.row? : ClaimFailure → Option (Id × Id)
  | .WORKER_JOB_TYPE_UNSUPPORTED key _ | .invalidTimeValue key => some key
  | _ => none

/-- `DurableJob`, as the caller gets it. -/
structure ReturnedJob where
  id : Id
  tenantId : Id
  type : DurableJobType
  payload : Json
  idempotencyKey : Text
  availableAt : Text
  attempts : Nat
  maximumAttempts : Nat
  deriving DecidableEq

def durableJobType (row : QueuedJob) : Except ClaimFailure DurableJobType :=
  match supportedTypes.find? fun type => type.name == row.jobType with
  | some type => .ok type
  | none => .error (.WORKER_JOB_TYPE_UNSUPPORTED row.key row.jobType)

def returnedJob (row : QueuedJob) : Except ClaimFailure ReturnedJob := do
  let type ← durableJobType row
  match row.availableAt with
  | none => throw (.invalidTimeValue row.key)
  | some date => return {
      id := row.id
      tenantId := row.tenantId
      type := type
      payload := row.payload
      idempotencyKey := row.idempotencyKey
      availableAt := isoText date
      attempts := row.attempts
      maximumAttempts := row.maximumAttempts }

/-! ## The call -/

/-- What becomes of a tenant's transaction. -/
inductive VisitOutcome where
  /-- It is rolled back. -/
  | failed
  /-- It is committed; the rows that others have locked were skipped. -/
  | answered (locked : List Id)
  /-- It is committed, but the worker does not get the answer. -/
  | unanswered (locked : List Id)

/-- A tenant's turn: what others have done to the table since, the time, and what becomes of it. -/
structure Visit where
  others : List QueuedJob → List QueuedJob
  now : Time
  outcome : VisitOutcome

/-- The arguments of a call, the tenants it reads (or fails to), and their turns. -/
structure ClaimCall where
  workerId : Text
  limit : Nat
  leaseSeconds : Nat
  tenantIds : Option (List Id)
  visit : Nat → Visit

/-- The table at the end, the rows leased by the call on its way, and what the caller gets. -/
structure ClaimResult where
  table : List QueuedJob
  leased : List QueuedJob
  answer : Except ClaimFailure (List ReturnedJob)

/-- `[A-Za-z0-9._:-]`. -/
def isWorkerIdChar (c : Char) : Bool :=
  c.isAlphanum || c == '.' || c == '_' || c == ':' || c == '-'

def validateClaim (workerId : Text) (limit leaseSeconds : Nat) : Except ClaimFailure Unit := do
  if !(workerId.all isWorkerIdChar && decide (3 ≤ workerId.length ∧ workerId.length ≤ 200)) then
    throw .WORKER_ID_INVALID
  if limit < 1 ∨ 1000 < limit then throw .WORKER_CLAIM_LIMIT_INVALID
  if leaseSeconds < 5 ∨ 3600 < leaseSeconds then throw .WORKER_LEASE_SECONDS_INVALID

namespace ClaimCall

variable (call : ClaimCall)

/-- The statement of one tenant's turn, when that many jobs are claimed already. -/
def statement (table : List QueuedJob) (now : Time) (tenantId claimed : Nat) (locked : List Id) :
    List QueuedJob × List QueuedJob :=
  claimQueuedJobs table now call.workerId tenantId (call.limit - claimed) call.leaseSeconds locked

/-- The loop over the tenants, with the rows leased and the jobs claimed so far. -/
def visitTenants : List (Id × Visit) → List QueuedJob → List QueuedJob → List ReturnedJob →
    ClaimResult
  | [], table, leased, jobs => ⟨table, leased, .ok jobs⟩
  | (tenantId, visit) :: rest, table, leased, jobs =>
    if call.limit ≤ jobs.length then ⟨table, leased, .ok jobs⟩
    else
      let table := visit.others table
      match visit.outcome with
      | .failed => ⟨table, leased, .error .database⟩
      | .unanswered locked =>
        let (table', _) := call.statement table visit.now tenantId jobs.length locked
        ⟨table', leased ++ leasedRows table table', .error .database⟩
      | .answered locked =>
        let (table', claimed) := call.statement table visit.now tenantId jobs.length locked
        match claimed.mapM returnedJob with
        | .error failure => ⟨table', leased ++ leasedRows table table', .error failure⟩
        | .ok returned =>
          visitTenants rest table' (leased ++ leasedRows table table') (jobs ++ returned)

/-- The platform's own jobs come first, then those of each tenant. -/
def visits (tenantIds : List Id) : List (Id × Visit) :=
  (platformJobTenantId :: tenantIds).zipIdx.map fun (tenantId, index) =>
    (tenantId, call.visit index)

def claim (table : List QueuedJob) : ClaimResult :=
  match validateClaim call.workerId call.limit call.leaseSeconds with
  | .error failure => ⟨table, [], .error failure⟩
  | .ok () =>
    match call.tenantIds with
    | none => ⟨table, [], .error .database⟩
    | some tenantIds => call.visitTenants (call.visits tenantIds) table [] []

end ClaimCall

end Kommunsign
