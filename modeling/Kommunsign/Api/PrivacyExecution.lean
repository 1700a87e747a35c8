import Kommunsign.Worker.JobQueue
import Kommunsign.Worker.PrivacyRequests

/-!
# Queueing the execution of a rights request

`execute` of the repository of rights requests: the request is locked, whoever queues it becomes its
handler, and a job is inserted under a key that is the same for every call.

* `PrivacyDesk` — the data of the tenants and the durable jobs
* `execute` — the call
-/

namespace Kommunsign

open Infra

/-- `TenantContext`, as far as the call reads it. -/
structure CallerContext where
  tenantId : Id
  subjectId : UUID
  deriving DecidableEq

inductive PrivacyApiCode where
  | PRIVACY_REQUEST_NOT_FOUND | PRIVACY_REQUEST_CLOSED
  deriving DecidableEq

/-- What makes a call throw. -/
inductive PrivacyApiFault where
  | apiError (code : PrivacyApiCode) (message : String)
  | database (fault : PrivacyFault)
  deriving DecidableEq

/-- What `loadView` reads of a request; its times of receipt and delivery stay as they are stored. -/
structure ExecutionView where
  privacyRequestId : UUID
  state : PrivacyRequestState
  right : DataSubjectRight
  receivedAt : Int
  identityAssurance : Option AssuranceLevel
  deliveredAt : Option Int
  refusalGround : Option String
  coverage : List PrivacyCoverageRow
  deriving DecidableEq

/-- The data of each tenant, and the jobs of all. -/
structure PrivacyDesk where
  stores : Id → PersonalData
  queue : JobQueue

abbrev PrivacyDeskTx := Transaction PrivacyDesk PrivacyApiFault

section Call

variable {α : Type}

/-- Statements that only see the rows of one tenant. -/
def inTenant (tenantId : Id) (tx : PrivacyTx α) : PrivacyDeskTx α := fun desk =>
  match tx (desk.stores tenantId) with
  | .error fault => .error (.database fault)
  | .ok (a, stores) => .ok (a, { desk with stores := Function.update desk.stores tenantId stores })

def executionKey (privacyRequestId : UUID) : Text := "privacy:".toList ++ privacyRequestId.toList

/-- `on conflict (tenant_id,job_type,idempotency_key) do nothing`, whatever the status of the row. -/
def JobQueue.insertExecution (queue : JobQueue) (tenantId : Id) (privacyRequestId : UUID) :
    JobQueue :=
  if queue.jobs.any fun row => row.tenantId == tenantId &&
      row.jobType == .PRIVACY_REQUEST_EXECUTE &&
      row.idempotencyKey == executionKey privacyRequestId then queue
  else
    { queue with jobs := queue.jobs ++ [newJob queue.jobs queue.now tenantId
        .PRIVACY_REQUEST_EXECUTE none (executionKey privacyRequestId) 3] }

def loadView (privacyRequestId : UUID) (stores : PersonalData) : Option ExecutionView := do
  let row ← stores.requests.find? (·.id == privacyRequestId)
  return { privacyRequestId := row.id
           state := row.state
           right := row.rightRequested
           receivedAt := row.receivedAt
           identityAssurance := row.identityAssurance
           deliveredAt := row.deliveredAt
           refusalGround := row.refusalGround
           coverage := stores.coverage.filter (·.privacyRequestId == privacyRequestId) }

def notFound : PrivacyApiFault := .apiError .PRIVACY_REQUEST_NOT_FOUND "No such request"

/-- `execute` of `createPrivacyRepository`. -/
def execute (context : CallerContext) (privacyRequestId : UUID) : PrivacyDeskTx ExecutionView := do
  let desk ← Transaction.read
  let row ← Transaction.demand notFound
    ((desk.stores context.tenantId).requests.find? (·.id == privacyRequestId))
  if row.state = .DELIVERED ∨ row.state = .REFUSED then
    Transaction.fail (.apiError .PRIVACY_REQUEST_CLOSED "The request is already closed")
  let _ ← inTenant context.tenantId <|
    privacyRequests.update (·.id == privacyRequestId) fun request =>
      { request with handledBy := request.handledBy.or (some context.subjectId) }
  Transaction.rewrite fun desk =>
    { desk with queue := desk.queue.insertExecution context.tenantId privacyRequestId }
  inTenant context.tenantId <|
    appendPrivacyAudit "privacy.request_execution_queued" privacyRequestId
  let desk ← Transaction.read
  let view ← Transaction.demand notFound
    (loadView privacyRequestId (desk.stores context.tenantId))
  -- the deferred trigger of the updated row, when the transaction commits
  inTenant context.tenantId <| Transaction.check fun stores =>
    guarded (assertPrivacyCoverageComplete privacyRequestId stores)
  return view

end Call

/-! ## The system -/

inductive PrivacyDeskStep where
  /-- Requests are recorded and carried out: the data of a tenant changes. -/
  | work (tenantId : Id) (stores : PersonalData)
  /-- The workers, and the jobs of other types. -/
  | job (step : JobStep)
  | execute (context : CallerContext) (privacyRequestId : UUID)

/-- Whether the step inserts a job of a request; `execute` alone does. -/
def JobStep.insertsExecution : JobStep → Bool
  | .enqueue _ jobType _ _ _ => jobType == .PRIVACY_REQUEST_EXECUTE
  | _ => false

def PrivacyDesk.start (stores : Id → PersonalData) (now : Time) : PrivacyDesk where
  stores := stores
  queue := JobQueue.start now

def PrivacyDesk.step (desk : PrivacyDesk) : PrivacyDeskStep → Option PrivacyDesk
  | .work tenantId stores => some { desk with stores := Function.update desk.stores tenantId stores }
  | .job step =>
    if step.insertsExecution then none
    else (desk.queue.step step).map fun queue => { desk with queue := queue }
  | .execute context privacyRequestId => (execute context privacyRequestId).outcome desk

/-! ## The jobs of the requests -/

/-- The tenant and the key of a job that executes a request. -/
def DurableJobRow.execution? (row : DurableJobRow) : Option (Id × Text) :=
  if row.jobType = .PRIVACY_REQUEST_EXECUTE then some (row.tenantId, row.idempotencyKey) else none

theorem execution?_eq_some {row : DurableJobRow} {tenantId : Id} {key : Text} :
    row.execution? = some (tenantId, key) ↔
      row.tenantId = tenantId ∧ row.jobType = .PRIVACY_REQUEST_EXECUTE ∧
        row.idempotencyKey = key := by
  unfold DurableJobRow.execution?
  by_cases htype : row.jobType = .PRIVACY_REQUEST_EXECUTE
  · simp [htype]
  · simp [htype]

section Jobs

variable {tenantId : Id} {privacyRequestId : UUID} {queue : JobQueue}

theorem insertExecution_cases (queue : JobQueue) (tenantId : Id) (privacyRequestId : UUID) :
    ((∃ row ∈ queue.jobs, row.execution? = some (tenantId, executionKey privacyRequestId)) ∧
        queue.insertExecution tenantId privacyRequestId = queue) ∨
      (∀ row ∈ queue.jobs, row.execution? ≠ some (tenantId, executionKey privacyRequestId)) ∧
        queue.insertExecution tenantId privacyRequestId =
          { queue with
            jobs := queue.jobs ++ [newJob queue.jobs queue.now tenantId .PRIVACY_REQUEST_EXECUTE
              none (executionKey privacyRequestId) 3] } := by
  have hany : (queue.jobs.any fun row => row.tenantId == tenantId &&
      row.jobType == .PRIVACY_REQUEST_EXECUTE &&
      row.idempotencyKey == executionKey privacyRequestId) = true ↔
      ∃ row ∈ queue.jobs, row.execution? = some (tenantId, executionKey privacyRequestId) := by
    simp only [List.any_eq_true, Bool.and_eq_true, beq_iff_eq, execution?_eq_some, and_assoc]
  unfold JobQueue.insertExecution
  by_cases h : ∃ row ∈ queue.jobs, row.execution? = some (tenantId, executionKey privacyRequestId)
  · exact Or.inl ⟨h, if_pos (hany.mpr h)⟩
  · refine Or.inr ⟨fun row hrow hkey => h ⟨row, hrow, hkey⟩, if_neg fun hc => h (hany.mp hc)⟩

theorem filterMap_assign {ρ κ : Type} {p : ρ → Bool} {f : ρ → ρ} {g : ρ → Option κ}
    (h : ∀ row, g (f row) = g row) (rows : List ρ) :
    (assign p f rows).filterMap g = rows.filterMap g := by
  unfold assign
  rw [List.filterMap_map]
  refine List.filterMap_congr fun row _ => ?_
  rw [Function.comp_apply, apply_ite g, h, ite_self]

theorem filterMap_newJob {jobs : List DurableJobRow} {now : Time} {jobType : DurableJobType}
    {requestId : Option Id} {key : Text} {maximumAttempts : Nat}
    (h : jobType ≠ .PRIVACY_REQUEST_EXECUTE) :
    (jobs ++ [newJob jobs now tenantId jobType requestId key maximumAttempts]).filterMap
      DurableJobRow.execution? = jobs.filterMap DurableJobRow.execution? := by
  rw [List.filterMap_append]
  have hnone : DurableJobRow.execution?
      (newJob jobs now tenantId jobType requestId key maximumAttempts) = none := if_neg h
  simp [hnone]

theorem executions_of_jobStep {queue' : JobQueue} {i : JobStep}
    (hother : i.insertsExecution = false) (h : queue.step i = some queue') :
    queue'.jobs.filterMap DurableJobRow.execution? =
      queue.jobs.filterMap DurableJobRow.execution? := by
  cases i with
  | tick duration =>
    cases h
    rfl
  | enqueue tenantId jobType requestId idempotencyKey maximumAttempts =>
    simp only [JobQueue.step] at h
    split at h
    · cases h
    split at h
    · cases h
      rfl
    · cases h
      exact filterMap_newJob (by simpa [JobStep.insertsExecution] using hother)
  | recover requestId =>
    cases h
    show (recoverProvisioningJob queue.jobs queue.now requestId).filterMap _ = _
    unfold recoverProvisioningJob
    split
    · next job _ =>
      split
      · rfl
      · exact filterMap_assign (by intro row; rfl) _
    · exact filterMap_newJob (by decide)
  | poll worker tenants limit leaseSeconds =>
    simp only [JobQueue.step] at h
    split at h
    · cases h
      rfl
    · cases h
  | claim worker locked =>
    simp only [JobQueue.step] at h
    split at h
    · cases h
    split at h
    · cases h
    · cases h
      exact filterMap_assign (by intro row; rfl) _
  | start worker =>
    simp only [JobQueue.step] at h
    split at h
    · split at h
      · cases h
        rfl
      · cases h
    · cases h
  | heartbeat worker job =>
    simp only [JobQueue.step] at h
    split at h
    · cases h
      exact filterMap_assign (by intro row; rfl) _
    · cases h
  | complete worker job answered =>
    simp only [JobQueue.step] at h
    split at h
    · cases h
      have hkeys : ((queue.updateJob worker job (DurableJobRow.release .completed)).jobs.filterMap
          DurableJobRow.execution?) = queue.jobs.filterMap DurableJobRow.execution? :=
        filterMap_assign (by intro row; rfl) _
      cases answered with
      | true => exact hkeys
      | false => exact hkeys
    · cases h
  | fail worker job permanent nextAvailableAt =>
    simp only [JobQueue.step] at h
    split at h
    · cases h
      by_cases hdead : job.isDead permanent = true
      · rw [if_pos hdead]
        exact filterMap_assign (by intro row; rfl) _
      · rw [if_neg hdead]
        exact filterMap_assign (by intro row; rfl) _
    · cases h
  | crash worker =>
    cases h
    rfl

/-! ## The call -/

section

variable {α : Type} {tx : PrivacyTx α} {a : α} {desk desk' : PrivacyDesk}

theorem queue_of_inTenant (h : inTenant tenantId tx desk = .ok (a, desk')) :
    desk'.queue = desk.queue := by
  unfold inTenant at h
  split at h
  · cases h
  · cases h
    rfl

theorem queue_of_execute {context : CallerContext} {view : ExecutionView}
    (h : execute context privacyRequestId desk = .ok (view, desk')) :
    desk'.queue = desk.queue.insertExecution context.tenantId privacyRequestId := by
  unfold execute at h
  rw [Transaction.read_bind] at h
  obtain ⟨row, s₁, hrow, hrest⟩ := Transaction.bind_eq_ok.mp h
  obtain ⟨_, rfl⟩ := Transaction.demand_eq_ok.mp hrow
  by_cases hclosed : row.state = .DELIVERED ∨ row.state = .REFUSED
  · -- a closed request is refused
    simp only [if_pos hclosed] at hrest
    exact nomatch hrest
  simp only [if_neg hclosed] at hrest
  obtain ⟨_, s₂, hupdate, hrest⟩ := Transaction.bind_eq_ok.mp hrest
  obtain ⟨_, s₃, hinsert, hrest⟩ := Transaction.bind_eq_ok.mp hrest
  rw [Transaction.rewrite_eq_ok] at hinsert
  subst hinsert
  obtain ⟨_, s₄, haudit, hrest⟩ := Transaction.bind_eq_ok.mp hrest
  rw [Transaction.read_bind] at hrest
  obtain ⟨_, s₅, hview, hlast⟩ := Transaction.bind_eq_ok.mp hrest
  obtain ⟨_, rfl⟩ := Transaction.demand_eq_ok.mp hview
  obtain ⟨_, s₆, hcheck, hanswer⟩ := Transaction.bind_eq_ok.mp hlast
  obtain ⟨_, rfl⟩ := Transaction.pure_eq_ok.mp hanswer
  rw [queue_of_inTenant hcheck, queue_of_inTenant haudit]
  show s₂.queue.insertExecution _ _ = _
  rw [queue_of_inTenant hupdate]

end

end Jobs

end Kommunsign
