import Kommunsign.Infra.Run
import Kommunsign.Infra.Table

/-!
# Provisioning of one organization

`control.tenant_provisioning_requests` of one application with its steps. A run claims the request
and then goes through the steps, each of them in two transactions: the first marks it running, the
second does the work and marks it completed. A failure is marked in a transaction of its own, on
the request, on the application and on the step. Runs can overlap: a request that nothing was
written to for a quarter of an hour can be claimed again.

* `claimRequest`, `beginStep`, `workStep`, `finishRun` — the transactions of a run
* `markWaiting`, `markFailed` — what it does when it cannot go on
* `provisionAgain`, `retryProvisioning`, `requeue` — what others do to the request
* `Provisioning`, `provisioningAction` — the rows with the runs under way
-/

namespace Kommunsign

open Infra

/-- `control.provisioning_status` -/
inductive ProvisioningStatus where
  | requested | validated | queued | running | waiting_for_external_dependency | retry_scheduled
  | failed | partially_completed | completed | cancelled
  deriving DecidableEq, Repr

/-- `control.onboarding_application_status` -/
inductive ApplicationStatus where
  | draft | email_verification_pending | email_verified | submitted | under_initial_review
  | additional_information_requested | resubmitted | commercial_review | legal_review
  | security_review | technical_review | approved | rejected | withdrawn | expired | provisioning
  | provisioning_failed | onboarding | ready_for_acceptance_test | acceptance_test_failed
  | ready_for_activation | active | archived
  deriving DecidableEq, Repr

/-- The statuses that the application can go on to once it was approved. -/
def ApplicationStatus.next : ApplicationStatus → List ApplicationStatus
  | .approved => [.provisioning, .archived]
  | .rejected | .withdrawn | .expired => [.archived]
  | .provisioning => [.provisioning_failed, .onboarding]
  | .provisioning_failed => [.provisioning, .rejected, .archived]
  | .onboarding => [.ready_for_acceptance_test, .archived]
  | .ready_for_acceptance_test => [.acceptance_test_failed, .ready_for_activation]
  | .acceptance_test_failed => [.onboarding, .ready_for_acceptance_test, .archived]
  | .ready_for_activation => [.active, .onboarding, .archived]
  | .active => [.archived]
  | _ => []

/-- `set status = … where … and status = 'provisioning'` -/
def ApplicationStatus.leaveProvisioning (status next : ApplicationStatus) : ApplicationStatus :=
  if status = .provisioning then next else status

inductive ProvisioningStep where
  | reserve_tenant_slug | create_tenant | assign_data_plane | create_environment
  | create_default_domain | create_storage_namespaces | seed_policies | seed_roles
  | create_branding_draft | create_auth_draft | create_onboarding_checklist
  | enable_account_management
  deriving DecidableEq, Repr

/-- In the order of the run. -/
def provisioningSteps : List ProvisioningStep :=
  [.reserve_tenant_slug, .create_tenant, .assign_data_plane, .create_environment,
    .create_default_domain, .create_storage_namespaces, .seed_policies, .seed_roles,
    .create_branding_draft, .create_auth_draft, .create_onboarding_checklist,
    .enable_account_management]

inductive StepStatus where
  | pending | running | waiting | failed | completed | skipped
  deriving DecidableEq, Repr

/-- The step is not done again. -/
def StepStatus.done : StepStatus → Bool
  | .completed | .skipped => true
  | .pending | .running | .waiting | .failed => false

structure StepRow where
  stepKey : ProvisioningStep
  status : StepStatus
  resourceReference : Option String
  safeErrorCode : Option String
  deriving DecidableEq

structure ProvisioningRequest where
  status : ProvisioningStatus
  tenantId : Option String
  currentStep : Option ProvisioningStep
  blockingCode : Option String
  attempts : Nat
  updatedAt : Nat
  completedAt : Option Nat
  deriving DecidableEq

/-- A run between two of its transactions; `steps` are still to come. -/
inductive ProvisioningRun where
  | before (steps : List ProvisioningStep)
  | working (step : ProvisioningStep) (steps : List ProvisioningStep)
  | waits (step : ProvisioningStep) (code : String)
  | fails (step : Option ProvisioningStep) (code : String)
  deriving DecidableEq

/-- The rows, the runs, and from `applied` on what has happened. Times are in seconds. -/
structure Provisioning where
  now : Nat
  /-- `configuration.platformWildcardVerified`, or a shared deployment. -/
  domainReady : Bool
  request : ProvisioningRequest
  application : ApplicationStatus
  steps : List StepRow
  runs : List (Option ProvisioningRun)
  /-- The steps whose work was committed. -/
  applied : List ProvisioningStep
  /-- The request has been completed. -/
  everCompleted : Bool
  deriving DecidableEq

/-- The request is queued, with its steps. -/
def provisioningStart (now : Nat) (domainReady : Bool) : Provisioning where
  now := now
  domainReady := domainReady
  request := ⟨.queued, none, some .reserve_tenant_slug, none, 0, now, none⟩
  application := .provisioning
  steps := provisioningSteps.map fun step => ⟨step, .pending, none, none⟩
  runs := []
  applied := []
  everCompleted := false

namespace Provisioning

def setRun (s : Provisioning) (i : Nat) (r : Option ProvisioningRun) : Provisioning :=
  { s with runs := s.runs.set i r }

def stepRow (s : Provisioning) (step : ProvisioningStep) : Option StepRow :=
  s.steps.find? (·.stepKey == step)

/-- `update control.tenant_provisioning_steps set … where … and step_key = …` -/
def updateStep (s : Provisioning) (step : ProvisioningStep) (f : StepRow → StepRow) : Provisioning :=
  { s with steps := assign (·.stepKey == step) f s.steps }

/-! ## The transactions of a run -/

def QUARTER : Nat := 15 * 60

/-- A new run, or none when the request is completed, cancelled or running. -/
def claimRequest (s : Provisioning) : Provisioning :=
  if s.request.status = .cancelled ∨ s.request.status = .completed ∨
      s.request.status = .running ∧ s.now < s.request.updatedAt + QUARTER then s
  else { s with
    request := { s.request with
      status := .running
      attempts := s.request.attempts + 1
      blockingCode := none
      updatedAt := s.now }
    runs := s.runs ++ [some (.before provisioningSteps)] }

/-- The first transaction of `runStep`. -/
def beginStep (s : Provisioning) (i : Nat) (step : ProvisioningStep) (steps : List ProvisioningStep) :
    Provisioning :=
  match s.stepRow step with
  | none => s.setRun i (some (.fails none "PROVISIONING_STEP_MISSING"))
  | some row =>
    if row.status.done then s.setRun i (some (.before steps))
    else
      let started := s.updateStep step fun row =>
        { row with status := .running, safeErrorCode := none }
      { started with
        request := { s.request with currentStep := some step, updatedAt := s.now } }.setRun i
          (some (.working step steps))

/-- What the work of a step comes to. -/
inductive WorkOutcome where
  | done (reference : String)
  | dependencyMissing (code : String)
  | threw (code : String)
  deriving DecidableEq

/-- Only one of the steps looks for a data plane. -/
def WorkOutcome.possible (step : ProvisioningStep) : WorkOutcome → Bool
  | .dependencyMissing _ => step == .assign_data_plane
  | _ => true

/-- What the work of the step leaves on the request; the other rows are not looked at here. -/
def workRequest (s : Provisioning) (step : ProvisioningStep) (reference : String) :
    ProvisioningRequest :=
  if step = .reserve_tenant_slug ∧ s.request.tenantId = none then
    { s.request with tenantId := some reference, updatedAt := s.now }
  else s.request

/-- The work of a step that is not done; every step but the first needs the tenant. -/
def doWork (s : Provisioning) (i : Nat) (step : ProvisioningStep) (steps : List ProvisioningStep)
    (reference : String) : Provisioning :=
  if step ≠ .reserve_tenant_slug ∧ s.request.tenantId = none then
    s.setRun i (some (.fails (some step) "TENANT_ID_MISSING"))
  else
    let worked := s.updateStep step fun row => { row with
      status := .completed, resourceReference := some reference, safeErrorCode := none }
    { worked with
      request := s.workRequest step reference
      applied := s.applied ++ [step] }.setRun i (some (.before steps))

/-- The second transaction of `runStep`. -/
def workStep (s : Provisioning) (i : Nat) (step : ProvisioningStep) (steps : List ProvisioningStep)
    (outcome : WorkOutcome) : Provisioning :=
  match outcome with
  | .threw code => s.setRun i (some (.fails (some step) code))
  | .dependencyMissing code =>
    match s.stepRow step with
    | none => s.setRun i (some (.fails (some step) "PROVISIONING_STEP_MISSING"))
    | some row =>
      if row.status.done then s.setRun i (some (.before steps))
      else s.setRun i (some (.waits .assign_data_plane code))
  | .done reference =>
    match s.stepRow step with
    | none => s.setRun i (some (.fails (some step) "PROVISIONING_STEP_MISSING"))
    | some row =>
      if row.status.done then s.setRun i (some (.before steps))
      else s.doWork i step steps reference

/-- The end of a run that has gone through all its steps. -/
def finishRun (s : Provisioning) (i : Nat) : Provisioning :=
  if s.request.tenantId = none then s.setRun i (some (.fails none "TENANT_ID_MISSING"))
  else if s.domainReady = false then
    s.setRun i (some (.waits .create_default_domain
      "DEFAULT_TENANT_DOMAIN_EXTERNAL_VERIFICATION_REQUIRED"))
  else
    { s with
      request := { s.request with
        status := .completed
        currentStep := none
        blockingCode := none
        updatedAt := s.now
        completedAt := some s.now }
      application := s.application.leaveProvisioning .onboarding
      everCompleted := true }.setRun i none

def markWaiting (s : Provisioning) (i : Nat) (step : ProvisioningStep) (code : String) : Provisioning :=
  let marked := s.updateStep step fun row =>
    { row with status := .waiting, safeErrorCode := some code }
  { marked with
    request := { s.request with
      status := .waiting_for_external_dependency
      currentStep := some step
      blockingCode := some code
      updatedAt := s.now } }.setRun i none

/-- The step that a failure is marked on. -/
def failedStep (s : Provisioning) (explicitStep : Option ProvisioningStep) : Option ProvisioningStep :=
  explicitStep.or s.request.currentStep

def markFailed (s : Provisioning) (i : Nat) (explicitStep : Option ProvisioningStep) (code : String) :
    Provisioning :=
  let marked : Provisioning := match s.failedStep explicitStep with
    | none => s
    | some step => s.updateStep step fun row =>
        { row with status := .failed, safeErrorCode := some code }
  { marked with
    request := { s.request with
      status := .failed
      blockingCode := some code
      updatedAt := s.now }
    application := s.application.leaveProvisioning .provisioning_failed }.setRun i none

/-! ## Others -/

def retryable : List ProvisioningStatus :=
  [.failed, .partially_completed, .retry_scheduled, .waiting_for_external_dependency]

def queue (s : Provisioning) : Provisioning :=
  { s with request := { s.request with status := .queued, blockingCode := none, updatedAt := s.now } }

/-- `retryProvisioning` -/
def retryProvisioning (s : Provisioning) : Option Provisioning :=
  if s.request.status ∈ retryable then
    match s.application with
    | .approved | .provisioning_failed | .provisioning =>
      some ({ s with application := .provisioning } : Provisioning).queue
    | _ => none
  else none

/-- `provision`, of an application that has a request. -/
def provisionAgain (s : Provisioning) : Option Provisioning :=
  let application : ApplicationStatus :=
    if s.application = .approved then .provisioning else s.application
  if s.request.status = .completed then
    match application with
    | .provisioning_failed | .provisioning => some { s with application := .onboarding }
    | .onboarding | .ready_for_acceptance_test | .acceptance_test_failed | .ready_for_activation
    | .active => some { s with application := application }
    | _ => none
  else if s.request.status ∈ retryable then
    match application with
    | .provisioning_failed | .provisioning =>
      some ({ s with application := .provisioning } : Provisioning).queue
    | _ => none
  else if s.request.status = .cancelled then none
  else some { s with application := application }

/-- `recoverProvisioningJobs`, for a request that was recoverable when they were listed. -/
def requeue (s : Provisioning) : Provisioning :=
  if s.request.status = .completed then s else s.queue

end Provisioning

inductive ProvisioningAction where
  | tick (seconds : Nat)
  | claim
  | beginStep (i : Nat)
  | workStep (i : Nat) (outcome : Provisioning.WorkOutcome)
  | finish (i : Nat)
  /-- An exception outside of the work of a step. -/
  | throws (i : Nat) (code : String)
  | markWaiting (i : Nat)
  | markFailed (i : Nat)
  /-- The process of the run is gone, or a marking has failed. -/
  | crash (i : Nat)
  | retry
  | provision
  | requeue
  /-- Another transition of the application. -/
  | decide (status : ApplicationStatus)

/-- `none`: the action is refused, or the run is not where it could be taken. -/
def provisioningAction (s : Provisioning) : ProvisioningAction → Option Provisioning
  | .tick seconds => some { s with now := s.now + seconds }
  | .claim => some s.claimRequest
  | .beginStep i =>
    match s.runs[i]?.join with
    | some (.before (step :: steps)) => some (s.beginStep i step steps)
    | _ => none
  | .workStep i outcome =>
    match s.runs[i]?.join with
    | some (.working step steps) =>
      if outcome.possible step then some (s.workStep i step steps outcome) else none
    | _ => none
  | .finish i =>
    match s.runs[i]?.join with
    | some (.before []) => some (s.finishRun i)
    | _ => none
  | .throws i code =>
    match s.runs[i]?.join with
    | some (.before _) => some (s.setRun i (some (.fails none code)))
    | some (.waits .create_default_domain _) => some (s.setRun i (some (.fails none code)))
    | _ => none
  | .markWaiting i =>
    match s.runs[i]?.join with
    | some (.waits step code) => some (s.markWaiting i step code)
    | _ => none
  | .markFailed i =>
    match s.runs[i]?.join with
    | some (.fails step code) => some (s.markFailed i step code)
    | _ => none
  | .crash i => some (s.setRun i none)
  | .retry => s.retryProvisioning
  | .provision => s.provisionAgain
  | .requeue => some s.requeue
  | .decide status =>
    if status ∈ s.application.next ∧ status ≠ .provisioning_failed then
      some { s with application := status }
    else none

end Kommunsign
