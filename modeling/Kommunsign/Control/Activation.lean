import Kommunsign.Control.Provisioning
import Kommunsign.Data.Rows
import Kommunsign.Data.Texts

/-!
# Activation of the tenants of the platform

A tenant comes into being in `provisioning`, goes on to `onboarding`, and is activated on a request
that another platform user approves. Each operation of the repository is one transaction, and so is
the job `TENANT_ACTIVATION` of the worker. The status of a tenant is otherwise set by operators.

* `evaluateReadiness`, `latestReadiness` — the assessments
* `createActivationRequest`, `decideActivation` — the repository
-/

namespace Kommunsign

open Infra

/-- `control.tenant_status` -/
inductive TenantStatus where
  | provisioning | onboarding | active | paused | suspended | decommissioning | decommissioned
  deriving DecidableEq

/-- The `where` of the worker's update: `status in ('provisioning','onboarding')`. -/
def TenantStatus.isOnboarding : TenantStatus → Bool
  | .provisioning | .onboarding => true
  | _ => false

structure PlatformTenant where
  id : Id
  status : TenantStatus
  deriving DecidableEq

/-- A row of `control.onboarding_applications`. -/
structure OnboardingApplication where
  id : Id
  linkedTenantId : Id
  status : ApplicationStatus
  createdAt : Time
  deriving DecidableEq

/-! ## Readiness -/

inductive ReadinessSeverity where
  | blocking | warning
  deriving DecidableEq

structure ReadinessCheck where
  code : String
  passed : Bool
  severity : ReadinessSeverity
  deriving DecidableEq

inductive EnvironmentName where
  | test | production
  deriving DecidableEq

structure ReadinessResult where
  ready : Bool
  environment : EnvironmentName
  blockingChecks : List ReadinessCheck
  warningChecks : List ReadinessCheck
  completedChecks : List ReadinessCheck
  deriving DecidableEq

def evaluateReadiness (environment : EnvironmentName) (checks : List ReadinessCheck) :
    ReadinessResult :=
  let blockingChecks := checks.filter fun check => !check.passed && check.severity == .blocking
  let warningChecks := checks.filter fun check => !check.passed && check.severity == .warning
  let completedChecks := checks.filter (·.passed)
  ⟨blockingChecks.isEmpty, environment, blockingChecks, warningChecks, completedChecks⟩

/-- A row of `control.tenant_readiness_results`. -/
structure ReadinessRow where
  tenantId : Id
  result : ReadinessResult
  checkedAt : Time
  deriving DecidableEq

/-! ## Requests -/

inductive ActivationStatus where
  | requested | pending_approval | approved | rejected | activated | cancelled
  deriving DecidableEq

structure ActivationRequest where
  id : Id
  tenantId : Id
  applicationId : Id
  requestedBy : String
  status : ActivationStatus
  readinessSnapshot : ReadinessResult
  deriving DecidableEq

inductive ActivationDecision where
  | approve | reject
  deriving DecidableEq

/-- A row of `control.tenant_activation_approvals`. -/
structure ActivationApproval where
  activationRequestId : Id
  approverId : String
  decision : ActivationDecision
  reason : Text
  deriving DecidableEq

/-- `assertDistinctApprovers`: whether it returns. -/
def assertDistinctApprovers (initiatedBy approvedBy : String) : Bool :=
  initiatedBy != "" && approvedBy != "" && initiatedBy != approvedBy

/-- `cleanText`; `none` is `TEXT_VALUE_INVALID`. -/
def cleanText (value : Text) (min max : Nat) : Option Text :=
  let printable := (trim value).map fun c => if c.toNat < 32 ∨ c.toNat = 127 then ' ' else c
  -- a run of white space becomes one blank
  let result := printable.foldr (fun c rest =>
    if isTrimmed c then (if rest.head? = some ' ' then rest else ' ' :: rest) else c :: rest) []
  let length := (Json.utf16 result).length
  if length < min ∨ max < length then none else some result

/-! ## The rows -/

structure Onboarding where
  tenants : List PlatformTenant
  applications : List OnboardingApplication
  results : List ReadinessRow
  requests : List ActivationRequest
  approvals : List ActivationApproval
  deriving DecidableEq

namespace Onboarding

def tenantStatus (s : Onboarding) (tenantId : Id) : Option TenantStatus :=
  (s.tenants.find? (·.id == tenantId)).map (·.status)

def request (s : Onboarding) (requestId : Id) : Option ActivationRequest :=
  s.requests.find? (·.id == requestId)

/-- `order by checked_at desc limit 1`, of the assessments of production. -/
def latestReadiness (s : Onboarding) (tenantId : Id) : Option ReadinessResult :=
  (minBy (fun row => -(row.checkedAt : Int)) (s.results.filter fun row =>
    row.tenantId == tenantId && row.result.environment == .production)).map (·.result)

/-- `update control.platform_tenants set status = … where id = … and status in …` -/
def setTenant (s : Onboarding) (tenantId : Id) (condition : TenantStatus → Bool)
    (status : TenantStatus) : Onboarding :=
  { s with
    tenants := assign (fun tenant => tenant.id == tenantId && condition tenant.status)
      (fun tenant => { tenant with status := status }) s.tenants }

def setRequest (s : Onboarding) (requestId : Id) (status : ActivationStatus) : Onboarding :=
  { s with
    requests := assign (·.id == requestId)
      (fun request => { request with status := status }) s.requests }

def setApplication (s : Onboarding) (applicationId : Id) (source target : ApplicationStatus) :
    Onboarding :=
  { s with
    applications := assign
      (fun application => application.id == applicationId && application.status == source)
      (fun application => { application with status := target }) s.applications }

/-- `reserve_tenant_slug` of a provisioning: the tenant, and the link of its application. -/
def reserveTenant (s : Onboarding) (application : OnboardingApplication) : Option Onboarding :=
  if s.tenants.any (·.id == application.linkedTenantId) then none
  else some { s with
    tenants := s.tenants ++ [⟨application.linkedTenantId, .provisioning⟩]
    applications := s.applications ++ [application] }

/-- An assessment, by `runReadiness` or by the job `TENANT_READINESS`. -/
def recordReadiness (s : Onboarding) (tenantId : Id) (environment : EnvironmentName)
    (checks : List ReadinessCheck) (checkedAt : Time) : Option Onboarding :=
  if (s.tenantStatus tenantId).isNone then none
  else some { s with
    results := s.results ++ [⟨tenantId, evaluateReadiness environment checks, checkedAt⟩] }

def createActivationRequest (s : Onboarding) (requestId tenantId : Id) (subjectId : String) :
    Option Onboarding :=
  match s.latestReadiness tenantId with
  | none => none
  | some readiness =>
    if !readiness.ready then none
    else
      match minBy (fun application => -(application.createdAt : Int))
          (s.applications.filter (·.linkedTenantId == tenantId)) with
      | none => none
      | some application =>
        if s.requests.any (·.id == requestId) || (s.tenantStatus tenantId).isNone then none
        else some { s with requests := s.requests ++
          [⟨requestId, tenantId, application.id, subjectId, .pending_approval, readiness⟩] }

def decideActivation (s : Onboarding) (requestId : Id) (decision : ActivationDecision)
    (reason : Text) (subjectId : String) : Option Onboarding :=
  match s.request requestId with
  | none => none
  | some row =>
    if row.status ≠ .pending_approval ∨ !assertDistinctApprovers row.requestedBy subjectId then none
    else
      match cleanText reason 2 5000 with
      | none => none
      | some reason =>
        let s : Onboarding :=
          { s with approvals := s.approvals ++ [⟨requestId, subjectId, decision, reason⟩] }
        match decision with
        | .reject => some (s.setRequest requestId .rejected)
        | .approve =>
          some (((s.setRequest requestId .activated).setTenant row.tenantId
            (fun _ => true) .active).setApplication row.applicationId
              .ready_for_activation .active)

/-- `none`: the job fails for good, and its transaction with it. -/
def handleTenantActivation (s : Onboarding) (requestId tenantId : Id) : Option Onboarding :=
  match s.requests.find? fun row => row.id == requestId && row.tenantId == tenantId with
  | none => none
  | some row =>
    if row.status = .activated then some s
    else if row.status ≠ .approved then none
    else
      match s.latestReadiness tenantId with
      | none => none
      | some latest =>
        if !latest.ready then none
        else some ((s.setRequest requestId .activated).setTenant tenantId
          TenantStatus.isOnboarding .active)

end Onboarding

inductive OnboardingAction where
  | reserveTenant (application : OnboardingApplication)
  /-- The last transaction of a provisioning. -/
  | completeProvisioning (tenantId applicationId : Id)
  | moveApplication (applicationId : Id) (source target : ApplicationStatus)
  /-- An operator pauses, suspends or decommissions the tenant. -/
  | setStatus (tenantId : Id) (status : TenantStatus)
  | recordReadiness (tenantId : Id) (environment : EnvironmentName)
      (checks : List ReadinessCheck) (checkedAt : Time)
  | createActivationRequest (requestId tenantId : Id) (subjectId : String)
  | decideActivation (requestId : Id) (decision : ActivationDecision) (reason : Text)
      (subjectId : String)
  | handleTenantActivation (requestId tenantId : Id)
  deriving DecidableEq

def onboardingStep (s : Onboarding) : OnboardingAction → Option Onboarding
  | .reserveTenant application => s.reserveTenant application
  | .completeProvisioning tenantId applicationId =>
    some ((s.setTenant tenantId (· == .provisioning) .onboarding).setApplication applicationId
      .provisioning .onboarding)
  | .moveApplication applicationId source target =>
    if source.next.contains target then some (s.setApplication applicationId source target)
    else none
  | .setStatus tenantId status =>
    if [.paused, .suspended, .decommissioning, .decommissioned].contains status then
      some (s.setTenant tenantId (fun _ => true) status)
    else none
  | .recordReadiness tenantId environment checks checkedAt =>
    s.recordReadiness tenantId environment checks checkedAt
  | .createActivationRequest requestId tenantId subjectId =>
    s.createActivationRequest requestId tenantId subjectId
  | .decideActivation requestId decision reason subjectId =>
    s.decideActivation requestId decision reason subjectId
  | .handleTenantActivation requestId tenantId => s.handleTenantActivation requestId tenantId

/-- A platform without tenants. -/
def Onboarding.initial : Onboarding := ⟨[], [], [], [], []⟩

end Kommunsign
