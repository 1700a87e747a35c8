import Kommunsign.Data.Texts
import Kommunsign.Infra.Transaction

/-!
# Data subject rights requests

The lifecycle of a request: received, identity verified, in progress, fulfilled, delivered.

* `buildDataSubjectResponse` — the answer, which leaves no store unaccounted for
* `verifySubjectIdentity`, `beginHandling`, `fulfilRequest`, `deliverResponse`, `refuseRequest` — the
  operations
-/

namespace Kommunsign

open Infra

inductive DataSubjectRight where
  | ACCESS | RECTIFICATION | RESTRICTION | ERASURE | PORTABILITY
  deriving DecidableEq

def DataSubjectRight.text : DataSubjectRight → String
  | .ACCESS => "ACCESS"
  | .RECTIFICATION => "RECTIFICATION"
  | .RESTRICTION => "RESTRICTION"
  | .ERASURE => "ERASURE"
  | .PORTABILITY => "PORTABILITY"

inductive PersonalDataStore where
  | CONTROL | DATA | OBJECT_STORAGE | AUDIT_LOG | BACKUP
  deriving DecidableEq

def PersonalDataStore.text : PersonalDataStore → String
  | .CONTROL => "CONTROL"
  | .DATA => "DATA"
  | .OBJECT_STORAGE => "OBJECT_STORAGE"
  | .AUDIT_LOG => "AUDIT_LOG"
  | .BACKUP => "BACKUP"

def PERSONAL_DATA_STORES : List PersonalDataStore :=
  [.CONTROL, .DATA, .OBJECT_STORAGE, .AUDIT_LOG, .BACKUP]

def RESPONSE_DEADLINE_DAYS : Int := 30

inductive PrivacyRequestState where
  | RECEIVED | IDENTITY_VERIFIED | IN_PROGRESS | FULFILLED | DELIVERED | REFUSED
  deriving DecidableEq

def PrivacyRequestState.text : PrivacyRequestState → String
  | .RECEIVED => "RECEIVED"
  | .IDENTITY_VERIFIED => "IDENTITY_VERIFIED"
  | .IN_PROGRESS => "IN_PROGRESS"
  | .FULFILLED => "FULFILLED"
  | .DELIVERED => "DELIVERED"
  | .REFUSED => "REFUSED"

inductive PrivacyExecutionCode where
  | PRIVACY_STATE_INVALID
  | PRIVACY_IDENTITY_NOT_VERIFIED
  | PRIVACY_IDENTITY_ASSURANCE_TOO_LOW
  | PRIVACY_SUBJECT_MISMATCH
  | PRIVACY_TENANT_MISMATCH
  | PRIVACY_RESTRICTION_ACTIVE
  | PRIVACY_NOT_FULFILLED
  | PRIVACY_REFUSAL_NEEDS_GROUND
  deriving DecidableEq

def PrivacyExecutionCode.text : PrivacyExecutionCode → String
  | .PRIVACY_STATE_INVALID => "PRIVACY_STATE_INVALID"
  | .PRIVACY_IDENTITY_NOT_VERIFIED => "PRIVACY_IDENTITY_NOT_VERIFIED"
  | .PRIVACY_IDENTITY_ASSURANCE_TOO_LOW => "PRIVACY_IDENTITY_ASSURANCE_TOO_LOW"
  | .PRIVACY_SUBJECT_MISMATCH => "PRIVACY_SUBJECT_MISMATCH"
  | .PRIVACY_TENANT_MISMATCH => "PRIVACY_TENANT_MISMATCH"
  | .PRIVACY_RESTRICTION_ACTIVE => "PRIVACY_RESTRICTION_ACTIVE"
  | .PRIVACY_NOT_FULFILLED => "PRIVACY_NOT_FULFILLED"
  | .PRIVACY_REFUSAL_NEEDS_GROUND => "PRIVACY_REFUSAL_NEEDS_GROUND"

/-- What the functions of the package throw. -/
inductive PrivacyError where
  | executionError (code : PrivacyExecutionCode) (message : String)
  | requestError (code message : String)
  /-- The `RangeError` of `toISOString`. -/
  | invalidTimeValue
  deriving DecidableEq

inductive AssuranceLevel where
  | LOW | SUBSTANTIAL | HIGH
  deriving DecidableEq

def AssuranceLevel.text : AssuranceLevel → String
  | .LOW => "LOW"
  | .SUBSTANTIAL => "SUBSTANTIAL"
  | .HIGH => "HIGH"

structure StoreCoverage where
  store : PersonalDataStore
  recordCount : Int
  searched : Bool
  /-- The ground for leaving the store out. -/
  exemptionReason : Option String
  deriving DecidableEq

structure DataSubjectRequest where
  tenantId : UUID
  requestId : UUID
  right : DataSubjectRight
  receivedAt : IsoDateTime
  legalHoldActive : Bool
  deriving DecidableEq

structure DataSubjectResponse where
  requestId : UUID
  right : DataSubjectRight
  schemaVersion : Nat
  dueAt : IsoDateTime
  coverage : List StoreCoverage
  totalRecords : Int
  exemptedStores : List PersonalDataStore
  complete : Bool
  deriving DecidableEq

structure SubjectIdentityVerification where
  verified : Bool
  method : String
  assuranceLevel : AssuranceLevel
  subjectId : UUID
  verifiedAt : IsoDateTime
  deriving DecidableEq

structure PrivacyRequestJob where
  request : DataSubjectRequest
  state : PrivacyRequestState
  subjectId : UUID
  identity : Option SubjectIdentityVerification
  handledBy : Option UUID
  refusalGround : Option String
  response : Option DataSubjectResponse
  deriving DecidableEq

/-! ## The answer -/

/-- The loop over the coverage, with the stores that it has seen. -/
def checkCoverage (seen : List PersonalDataStore) : List StoreCoverage → Except PrivacyError Unit
  | [] => return ()
  | entry :: coverage => do
    if entry.store ∈ seen then
      throw (.requestError "PRIVACY_STORE_DUPLICATE" ("Duplicate coverage for " ++ entry.store.text))
    if entry.recordCount < 0 ∨ ¬isSafeInteger entry.recordCount then
      throw (.requestError "PRIVACY_RECORD_COUNT_INVALID"
        "Record count must be a non-negative integer")
    if entry.searched = false ∧ entry.exemptionReason.all isBlank then
      throw (.requestError "PRIVACY_STORE_NOT_SEARCHED"
        (entry.store.text ++ " är varken genomsökt eller undantaget med angiven grund"))
    checkCoverage (entry.store :: seen) coverage

def buildDataSubjectResponse (request : DataSubjectRequest) (coverage : List StoreCoverage) :
    Except PrivacyError DataSubjectResponse := do
  if request.right = .ERASURE ∧ request.legalHoldActive then
    throw (.requestError "PRIVACY_ERASURE_BLOCKED_BY_LEGAL_HOLD"
      "Radering kan inte utföras medan ärenden omfattas av legal hold")
  checkCoverage [] coverage
  let missing := PERSONAL_DATA_STORES.filter (· ∉ coverage.map (·.store))
  if 0 < missing.length then
    throw (.requestError "PRIVACY_COVERAGE_INCOMPLETE"
      ("Rättighetsbegäran saknar redovisning för: " ++ ", ".intercalate (missing.map (·.text))))
  let dueAt ← request.receivedAt.plusDays RESPONSE_DEADLINE_DAYS
    (.requestError "PRIVACY_TIMESTAMP_INVALID" "receivedAt is not a valid timestamp")
    .invalidTimeValue
  return {
    requestId := request.requestId
    right := request.right
    schemaVersion := 1
    dueAt := dueAt
    coverage := coverage
    totalRecords := (coverage.map (·.recordCount)).sum
    exemptedStores := (coverage.filter fun entry => entry.exemptionReason.any (· ≠ "")).map (·.store)
    complete := true }

/-- The ground that exempts a store from erasure. -/
def erasureExemption : PersonalDataStore → Option String
  | .AUDIT_LOG => some ("Åtkomstloggar bevaras enligt PUB-avtalet 7.5 och raderas först fem år " ++
      "efter loggningstillfället")
  | .BACKUP => some ("Säkerhetskopior punktraderas inte; uppgifterna försvinner när " ++
      "backupretentionen löper ut")
  | .CONTROL | .DATA | .OBJECT_STORAGE => none

/-! ## The operations -/

def assertPrivacyState (job : PrivacyRequestJob) (expected : PrivacyRequestState) :
    Except PrivacyError Unit := do
  if job.state ≠ expected then
    throw (.executionError .PRIVACY_STATE_INVALID
      ("Begäran är " ++ job.state.text ++ ", förväntade " ++ expected.text))

def HIGH_ASSURANCE_RIGHTS : List DataSubjectRight :=
  [.ACCESS, .ERASURE, .PORTABILITY, .RECTIFICATION]

def verifySubjectIdentity (job : PrivacyRequestJob) (identity : SubjectIdentityVerification) :
    Except PrivacyError PrivacyRequestJob := do
  assertPrivacyState job .RECEIVED
  if identity.verified = false then
    throw (.executionError .PRIVACY_IDENTITY_NOT_VERIFIED "Identiteten är inte verifierad")
  if identity.subjectId ≠ job.subjectId then
    throw (.executionError .PRIVACY_SUBJECT_MISMATCH
      "Den verifierade identiteten är inte den begäran avser")
  if job.request.right ∈ HIGH_ASSURANCE_RIGHTS ∧ identity.assuranceLevel ≠ .HIGH then
    throw (.executionError .PRIVACY_IDENTITY_ASSURANCE_TOO_LOW
      (job.request.right.text ++ " kräver stark identitet; " ++ identity.assuranceLevel.text ++
        " räcker inte"))
  return { job with state := .IDENTITY_VERIFIED, identity := some identity }

def beginHandling (job : PrivacyRequestJob) (handledBy tenantId : UUID) :
    Except PrivacyError PrivacyRequestJob := do
  assertPrivacyState job .IDENTITY_VERIFIED
  if tenantId ≠ job.request.tenantId then
    throw (.executionError .PRIVACY_TENANT_MISMATCH "Handläggaren tillhör en annan tenant")
  return { job with state := .IN_PROGRESS, handledBy := some handledBy }

def fulfilRequest (job : PrivacyRequestJob) (coverage : List StoreCoverage)
    (legalHoldActive restrictionActive : Bool) : Except PrivacyError PrivacyRequestJob := do
  assertPrivacyState job .IN_PROGRESS
  if job.identity = none then
    throw (.executionError .PRIVACY_IDENTITY_NOT_VERIFIED "Ingen verifierad identitet på ärendet")
  if job.request.right = .ERASURE ∧ restrictionActive then
    throw (.executionError .PRIVACY_RESTRICTION_ACTIVE
      "Behandlingen är begränsad enligt artikel 18; uppgifterna ska bevaras tills begränsningen hävs")
  let response ← buildDataSubjectResponse
    { job.request with legalHoldActive := legalHoldActive } coverage
  return { job with state := .FULFILLED, response := some response }

def deliverResponse (job : PrivacyRequestJob) : Except PrivacyError PrivacyRequestJob := do
  assertPrivacyState job .FULFILLED
  if ¬job.response.any (·.complete) then
    throw (.executionError .PRIVACY_NOT_FULFILLED "Ett ofullständigt svar får inte levereras")
  return { job with state := .DELIVERED }

def refuseRequest (job : PrivacyRequestJob) (ground : String) :
    Except PrivacyError PrivacyRequestJob := do
  if job.state = .DELIVERED then
    throw (.executionError .PRIVACY_STATE_INVALID
      "En levererad begäran kan inte avslås i efterhand")
  if isBlank ground then
    throw (.executionError .PRIVACY_REFUSAL_NEEDS_GROUND "Ett avslag kräver angiven rättslig grund")
  return { job with
    state := .REFUSED, refusalGround := some (String.ofList (trim ground.toList)) }

/-! ## What an answer covers -/

/-- The store has been searched, or left out with a ground. -/
def StoreCoverage.Accounted (entry : StoreCoverage) : Prop :=
  entry.searched = true ∨ ∃ reason ∈ entry.exemptionReason, isBlank reason = false

theorem checkCoverage_eq_ok {seen : List PersonalDataStore} {coverage : List StoreCoverage}
    (h : checkCoverage seen coverage = .ok ()) : (coverage.map (·.store)).Nodup ∧
      (∀ entry ∈ coverage, entry.store ∉ seen) ∧ ∀ entry ∈ coverage, entry.Accounted := by
  induction coverage generalizing seen with
  | nil => exact ⟨List.nodup_nil, nofun, nofun⟩
  | cons entry coverage ih =>
    rw [checkCoverage, except_guard_eq_ok, except_guard_eq_ok, except_guard_eq_ok] at h
    obtain ⟨hnew, -, haccounted, h⟩ := h
    obtain ⟨hnodup, hunseen, hrest⟩ := ih h
    refine ⟨?_, List.forall_mem_cons.mpr ⟨hnew, fun other hother hseen => ?_⟩,
      List.forall_mem_cons.mpr ⟨?_, hrest⟩⟩
    · rw [List.map_cons, List.nodup_cons]
      refine ⟨fun hmem => ?_, hnodup⟩
      obtain ⟨other, hother, hstore⟩ := List.mem_map.mp hmem
      exact hunseen other hother (hstore ▸ List.mem_cons_self)
    · exact hunseen other hother (List.mem_cons_of_mem _ hseen)
    · rw [not_and_or, Bool.not_eq_false] at haccounted
      rcases haccounted with hsearched | hground
      · exact Or.inl hsearched
      · cases hreason : entry.exemptionReason with
        | none =>
          rw [hreason] at hground
          exact absurd rfl hground
        | some reason =>
          rw [hreason] at hground
          exact Or.inr ⟨reason, hreason, Bool.not_eq_true _ ▸ hground⟩

theorem buildDataSubjectResponse_eq_ok {request : DataSubjectRequest}
    {coverage : List StoreCoverage} {response : DataSubjectResponse}
    (h : buildDataSubjectResponse request coverage = .ok response) :
    (request.right = .ERASURE → request.legalHoldActive = false) ∧
      (coverage.map (·.store)).Nodup ∧ (∀ store ∈ PERSONAL_DATA_STORES,
        store ∈ coverage.map (·.store)) ∧ (∀ entry ∈ coverage, entry.Accounted) ∧
      response.coverage = coverage ∧ response.complete = true := by
  rw [buildDataSubjectResponse, except_guard_eq_ok] at h
  obtain ⟨hhold, h⟩ := h
  obtain ⟨_, hcoverage, h⟩ := except_bind_eq_ok.mp h
  obtain ⟨hmissing, h⟩ := except_guard_eq_ok.mp h
  obtain ⟨dueAt, -, h⟩ := except_bind_eq_ok.mp h
  cases h
  obtain ⟨hnodup, -, haccounted⟩ := checkCoverage_eq_ok hcoverage
  refine ⟨fun hright => ?_, hnodup, fun store hstore => ?_, haccounted, rfl, rfl⟩
  · simpa [hright] using hhold
  · rw [Nat.not_lt, Nat.le_zero, List.length_eq_zero_iff, List.filter_eq_nil_iff] at hmissing
    simpa using hmissing store hstore

/-! ## When the operations succeed -/

section Operations

variable {job job' : PrivacyRequestJob}

theorem assertPrivacyState_eq_ok {expected : PrivacyRequestState} :
    assertPrivacyState job expected = .ok () ↔ job.state = expected := by
  rw [assertPrivacyState, except_guard_end_eq_ok, not_not, and_iff_left rfl]

/-- The identity is the one of the subject, and as strong as the right asks for. -/
structure SubjectIdentityVerification.Suffices (identity : SubjectIdentityVerification)
    (job : PrivacyRequestJob) : Prop where
  verified : identity.verified = true
  subject : identity.subjectId = job.subjectId
  assurance : job.request.right ∈ HIGH_ASSURANCE_RIGHTS → identity.assuranceLevel = .HIGH

theorem verifySubjectIdentity_eq_ok {identity : SubjectIdentityVerification}
    (h : verifySubjectIdentity job identity = .ok job') : job.state = .RECEIVED ∧
      identity.Suffices job ∧
      job' = { job with state := .IDENTITY_VERIFIED, identity := some identity } := by
  obtain ⟨_, hstate, h⟩ := except_bind_eq_ok.mp h
  obtain ⟨hverified, h⟩ := except_guard_eq_ok.mp h
  obtain ⟨hsubject, h⟩ := except_guard_eq_ok.mp h
  obtain ⟨hassurance, h⟩ := except_guard_eq_ok.mp h
  refine ⟨assertPrivacyState_eq_ok.mp hstate, ⟨?_, not_not.mp hsubject, fun hright => ?_⟩,
    (Except.ok.inj h).symm⟩
  · rwa [Bool.not_eq_false] at hverified
  · exact not_not.mp fun hlevel => hassurance ⟨hright, hlevel⟩

theorem beginHandling_eq_ok {handledBy tenantId : UUID}
    (h : beginHandling job handledBy tenantId = .ok job') : job.state = .IDENTITY_VERIFIED ∧
      tenantId = job.request.tenantId ∧
      job' = { job with state := .IN_PROGRESS, handledBy := some handledBy } := by
  obtain ⟨_, hstate, h⟩ := except_bind_eq_ok.mp h
  obtain ⟨htenant, h⟩ := except_guard_eq_ok.mp h
  exact ⟨assertPrivacyState_eq_ok.mp hstate, not_not.mp htenant, (Except.ok.inj h).symm⟩

theorem fulfilRequest_eq_ok {coverage : List StoreCoverage}
    {legalHoldActive restrictionActive : Bool}
    (h : fulfilRequest job coverage legalHoldActive restrictionActive = .ok job') :
    job.state = .IN_PROGRESS ∧ job.identity ≠ none ∧
      (job.request.right = .ERASURE → legalHoldActive = false ∧ restrictionActive = false) := by
  obtain ⟨_, hstate, h⟩ := except_bind_eq_ok.mp h
  obtain ⟨hidentity, h⟩ := except_guard_eq_ok.mp h
  obtain ⟨hrestriction, h⟩ := except_guard_eq_ok.mp h
  obtain ⟨_, hresponse, h⟩ := except_bind_eq_ok.mp h
  obtain ⟨hhold, -⟩ := buildDataSubjectResponse_eq_ok hresponse
  refine ⟨assertPrivacyState_eq_ok.mp hstate, hidentity, fun hright => ⟨hhold hright, ?_⟩⟩
  simpa [hright] using hrestriction

theorem response_of_fulfilRequest {coverage : List StoreCoverage}
    {legalHoldActive restrictionActive : Bool}
    (h : fulfilRequest job coverage legalHoldActive restrictionActive = .ok job') :
    ∃ response, job' = { job with state := .FULFILLED, response := some response } ∧
      response.coverage = coverage ∧ (coverage.map (·.store)).Nodup ∧
      (∀ store ∈ PERSONAL_DATA_STORES, store ∈ coverage.map (·.store)) ∧
      ∀ entry ∈ coverage, entry.Accounted := by
  obtain ⟨_, -, h⟩ := except_bind_eq_ok.mp h
  obtain ⟨-, h⟩ := except_guard_eq_ok.mp h
  obtain ⟨-, h⟩ := except_guard_eq_ok.mp h
  obtain ⟨response, hresponse, h⟩ := except_bind_eq_ok.mp h
  obtain ⟨-, hnodup, hall, haccounted, hcoverage, -⟩ := buildDataSubjectResponse_eq_ok hresponse
  exact ⟨response, (Except.ok.inj h).symm, hcoverage, hnodup, hall, haccounted⟩

theorem deliverResponse_eq_ok (h : deliverResponse job = .ok job') :
    job.state = .FULFILLED ∧ job' = { job with state := .DELIVERED } := by
  obtain ⟨_, hstate, h⟩ := except_bind_eq_ok.mp h
  obtain ⟨-, h⟩ := except_guard_eq_ok.mp h
  exact ⟨assertPrivacyState_eq_ok.mp hstate, (Except.ok.inj h).symm⟩

theorem isBlank_trim {text : String} (h : isBlank text = false) :
    isBlank (String.ofList (trim text.toList)) = false := by
  have hdrop (s : Text) : (s.dropWhile isTrimmed).all isTrimmed = true → s.all isTrimmed = true := by
    intro hall
    rw [← List.takeWhile_append_dropWhile (p := isTrimmed) (l := s), List.all_append, hall,
      Bool.and_true]
    exact List.all_takeWhile
  rw [← Bool.not_eq_true] at h ⊢
  intro hblank
  refine h (hdrop text.toList ?_)
  rw [isBlank, String.toList_ofList, trim, List.all_reverse] at hblank
  have hreversed := hdrop _ hblank
  rwa [List.all_reverse] at hreversed

theorem refuseRequest_eq_ok {ground : String} (h : refuseRequest job ground = .ok job') :
    job.state ≠ .DELIVERED ∧ ∃ trimmed, isBlank trimmed = false ∧
      job' = { job with state := .REFUSED, refusalGround := some trimmed } := by
  rw [refuseRequest, except_guard_eq_ok, except_guard_eq_ok] at h
  obtain ⟨hdelivered, hground, h⟩ := h
  exact ⟨hdelivered, _, isBlank_trim (Bool.not_eq_true _ ▸ hground), (Except.ok.inj h).symm⟩

end Operations

end Kommunsign
