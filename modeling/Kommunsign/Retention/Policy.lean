import Kommunsign.Data.Contracts
import Kommunsign.Infra.Transaction

/-!
# Retention decisions and reports

* `decideRetention` — what may happen to one case under one policy at a given time
* `buildGallringReport` — the report that a gallring leaves behind
-/

namespace Kommunsign

open Infra

inductive RetentionMode where
  | retain_forever | retain_for_period | archive_then_delete | delete_after_period | legal_hold
  deriving DecidableEq

def RetentionMode.text : RetentionMode → String
  | .retain_forever => "retain_forever"
  | .retain_for_period => "retain_for_period"
  | .archive_then_delete => "archive_then_delete"
  | .delete_after_period => "delete_after_period"
  | .legal_hold => "legal_hold"

inductive RetentionClass where
  | business_data | security_log | access_log
  deriving DecidableEq

def ACCESS_LOG_MINIMUM_RETENTION_DAYS : Int := 5 * 365

structure RetentionPolicy where
  policyKey : String
  version : Int
  retentionClass : RetentionClass
  mode : RetentionMode
  periodDays : Option Int
  active : Bool
  /-- The empty text counts as no reference. -/
  instructionReference : Option String
  deriving DecidableEq

structure RetentionSubject where
  tenantId : UUID
  caseId : UUID
  status : String
  closedAt : Option IsoDateTime
  legalHoldActive : Bool
  deriving DecidableEq

inductive RetentionAction where
  | RETAIN | ARCHIVE_THEN_DELETE | DELETE
  deriving DecidableEq

def RetentionAction.text : RetentionAction → String
  | .RETAIN => "RETAIN"
  | .ARCHIVE_THEN_DELETE => "ARCHIVE_THEN_DELETE"
  | .DELETE => "DELETE"

inductive RetentionReason where
  | LEGAL_HOLD
  | CASE_NOT_CLOSED
  | POLICY_INACTIVE
  | RETAIN_FOREVER
  | PERIOD_NOT_ELAPSED
  | MINIMUM_RETENTION_NOT_ELAPSED
  | DUE_FOR_DELETION
  | DUE_FOR_ARCHIVE_THEN_DELETION
  deriving DecidableEq

def RetentionReason.text : RetentionReason → String
  | .LEGAL_HOLD => "LEGAL_HOLD"
  | .CASE_NOT_CLOSED => "CASE_NOT_CLOSED"
  | .POLICY_INACTIVE => "POLICY_INACTIVE"
  | .RETAIN_FOREVER => "RETAIN_FOREVER"
  | .PERIOD_NOT_ELAPSED => "PERIOD_NOT_ELAPSED"
  | .MINIMUM_RETENTION_NOT_ELAPSED => "MINIMUM_RETENTION_NOT_ELAPSED"
  | .DUE_FOR_DELETION => "DUE_FOR_DELETION"
  | .DUE_FOR_ARCHIVE_THEN_DELETION => "DUE_FOR_ARCHIVE_THEN_DELETION"

structure RetentionDecision where
  action : RetentionAction
  reason : RetentionReason
  eligibleAt : Option IsoDateTime
  deriving DecidableEq

inductive GallringErrorCode where
  | GALLRING_STATE_INVALID
  | GALLRING_DECISION_STALE
  | GALLRING_APPROVAL_REQUIRED
  | GALLRING_APPROVER_NOT_PERMITTED
  | GALLRING_SELF_APPROVAL
  | GALLRING_TARGET_NOT_PLANNED
  | GALLRING_TARGET_DUPLICATE
  | GALLRING_TARGET_NOT_EXECUTED
  | GALLRING_NOT_VERIFIED
  | GALLRING_TENANT_MISMATCH
  deriving DecidableEq

/-- What the functions of the package throw. -/
inductive RetentionError where
  | policyError (code message : String)
  | executionError (code : GallringErrorCode) (message : String)
  /-- The `RangeError` of `toISOString`. -/
  | invalidTimeValue
  deriving DecidableEq

def TERMINAL_STATUSES : List String :=
  ["completed", "declined", "expired", "cancelled", "failed", "archived"]

/-! ## The decision -/

def RetentionMode.needsPeriod : RetentionMode → Bool
  | .retain_for_period | .delete_after_period | .archive_then_delete => true
  | .retain_forever | .legal_hold => false

def assertPolicyIsLawful (policy : RetentionPolicy) : Except RetentionError Unit := do
  if policy.version < 1 ∨ ¬isSafeInteger policy.version then
    throw (.policyError "RETENTION_VERSION_INVALID" "Policy version must be a positive integer")
  if policy.mode.needsPeriod then
    if ¬policy.periodDays.any (fun days => isSafeInteger days && 0 ≤ days) then
      throw (.policyError "RETENTION_PERIOD_REQUIRED"
        ("Mode " ++ policy.mode.text ++ " requires a non-negative periodDays"))
  else if policy.periodDays ≠ none then
    throw (.policyError "RETENTION_PERIOD_FORBIDDEN"
      ("Mode " ++ policy.mode.text ++ " must not carry periodDays"))
  let isLog : Bool := policy.retentionClass = .access_log ∨ policy.retentionClass = .security_log
  if isLog ∧ policy.mode = .archive_then_delete then
    throw (.policyError "RETENTION_LOG_MODE_INVALID"
      "Log retention classes are not archived through the case archive path")
  if policy.retentionClass = .access_log ∧
      policy.periodDays.any (· < ACCESS_LOG_MINIMUM_RETENTION_DAYS) ∧
      policy.instructionReference.all (· = "") then
    throw (.policyError "RETENTION_BELOW_PUB_FLOOR"
      ("Access log retention below " ++ toString ACCESS_LOG_MINIMUM_RETENTION_DAYS ++
        " days requires a documented Instruktion (PUB-avtalet 7.5)"))

def addDays (instant : IsoDateTime) (days : Int) : Except RetentionError IsoDateTime :=
  instant.plusDays days
    (.policyError "RETENTION_ANCHOR_INVALID" "Retention anchor is not a valid timestamp")
    .invalidTimeValue

def decideRetention (policy : RetentionPolicy) (subject : RetentionSubject) (now : Int) :
    Except RetentionError RetentionDecision := do
  assertPolicyIsLawful policy
  if subject.legalHoldActive ∨ policy.mode = .legal_hold then
    return ⟨.RETAIN, .LEGAL_HOLD, none⟩
  if policy.active = false then
    return ⟨.RETAIN, .POLICY_INACTIVE, none⟩
  if policy.mode = .retain_forever then
    return ⟨.RETAIN, .RETAIN_FOREVER, none⟩
  match subject.closedAt with
  | none => return ⟨.RETAIN, .CASE_NOT_CLOSED, none⟩
  | some closedAt =>
    if subject.status ∉ TERMINAL_STATUSES then
      return ⟨.RETAIN, .CASE_NOT_CLOSED, none⟩
    let eligibleAt ← addDays closedAt (policy.periodDays.getD 0)
    if eligibleAt.millis.any (now < ·) then
      return ⟨.RETAIN,
        if policy.mode = .retain_for_period then .MINIMUM_RETENTION_NOT_ELAPSED
        else .PERIOD_NOT_ELAPSED, some eligibleAt⟩
    -- A minimum retention that has elapsed never gallrar by itself.
    if policy.mode = .retain_for_period then
      return ⟨.RETAIN, .MINIMUM_RETENTION_NOT_ELAPSED, some eligibleAt⟩
    if policy.mode = .archive_then_delete then
      return ⟨.ARCHIVE_THEN_DELETE, .DUE_FOR_ARCHIVE_THEN_DELETION, some eligibleAt⟩
    return ⟨.DELETE, .DUE_FOR_DELETION, some eligibleAt⟩

/-! ## The report -/

inductive GallringTarget where
  | signature_case | documents | document_versions | object_storage | evidence_packages
  | derived_renders | search_index | cache | notifications
  deriving DecidableEq

def GallringTarget.text : GallringTarget → String
  | .signature_case => "signature_case"
  | .documents => "documents"
  | .document_versions => "document_versions"
  | .object_storage => "object_storage"
  | .evidence_packages => "evidence_packages"
  | .derived_renders => "derived_renders"
  | .search_index => "search_index"
  | .cache => "cache"
  | .notifications => "notifications"

structure GallringTargetOutcome where
  target : GallringTarget
  deletedCount : Int
  verified : Bool
  note : Option String
  deriving DecidableEq

structure GallringReportInput where
  tenantId : UUID
  jobId : UUID
  policyKey : String
  policyVersion : Int
  retentionClass : RetentionClass
  executedBy : UUID
  executedAt : IsoDateTime
  caseIds : List UUID
  outcomes : List GallringTargetOutcome
  deriving DecidableEq

structure GallringReport extends GallringReportInput where
  schemaVersion : Nat
  caseCount : Nat
  deletedTotal : Int
  complete : Bool
  unverifiedTargets : List GallringTarget
  deriving DecidableEq

/-- The loop over the outcomes, with the targets that it has seen. -/
def checkOutcomes (seen : List GallringTarget) :
    List GallringTargetOutcome → Except RetentionError Unit
  | [] => return ()
  | outcome :: outcomes => do
    if outcome.target ∈ seen then
      throw (.policyError "GALLRING_TARGET_DUPLICATE"
        ("Duplicate gallring target " ++ outcome.target.text))
    if outcome.deletedCount < 0 ∨ ¬isSafeInteger outcome.deletedCount then
      throw (.policyError "GALLRING_COUNT_INVALID" "Deleted count must be a non-negative integer")
    checkOutcomes (outcome.target :: seen) outcomes

def buildGallringReport (input : GallringReportInput) : Except RetentionError GallringReport := do
  if input.caseIds.length = 0 then
    throw (.policyError "GALLRING_REPORT_EMPTY" "A gallring report must cover at least one case")
  checkOutcomes [] input.outcomes
  let unverifiedTargets := (input.outcomes.filter fun outcome => !outcome.verified).map (·.target)
  return { input with
    schemaVersion := 1
    caseCount := input.caseIds.length
    deletedTotal := (input.outcomes.map (·.deletedCount)).sum
    complete := unverifiedTargets.length = 0
    unverifiedTargets := unverifiedTargets }

/-! ## What is decided to be destroyed -/

/-- The case is closed, its period has elapsed under an active policy, and nothing holds it. -/
structure DueAt (policy : RetentionPolicy) (subject : RetentionSubject) (now : Int) : Prop where
  released : subject.legalHoldActive = false
  active : policy.active = true
  closed : subject.status ∈ TERMINAL_STATUSES
  elapsed : ∃ closedAt : Int, subject.closedAt = some ⟨some closedAt⟩ ∧
    closedAt + policy.periodDays.getD 0 * 86400000 ≤ now

section Decision

variable {policy : RetentionPolicy} {subject : RetentionSubject} {now : Int}
  {decision : RetentionDecision}

theorem decideRetention_due (h : decideRetention policy subject now = .ok decision)
    (hdue : decision.action ≠ .RETAIN) :
    DueAt policy subject now ∧
      (decision.action = .ARCHIVE_THEN_DELETE ∧ policy.mode = .archive_then_delete ∨
        decision.action = .DELETE ∧ policy.mode = .delete_after_period) := by
  obtain ⟨_, -, h⟩ := except_bind_eq_ok.mp h
  -- Each of the earlier answers is to retain the case.
  rcases except_return_eq_ok.mp h with ⟨-, rfl⟩ | ⟨hhold, h⟩
  · exact absurd rfl hdue
  rcases except_return_eq_ok.mp h with ⟨-, rfl⟩ | ⟨hactive, h⟩
  · exact absurd rfl hdue
  rcases except_return_eq_ok.mp h with ⟨-, rfl⟩ | ⟨hforever, h⟩
  · exact absurd rfl hdue
  cases hclosedAt : subject.closedAt with
  | none =>
    rw [hclosedAt] at h
    cases h
    exact absurd rfl hdue
  | some closedAt =>
    rw [hclosedAt] at h
    rcases except_return_eq_ok.mp h with ⟨-, rfl⟩ | ⟨hclosed, h⟩
    · exact absurd rfl hdue
    obtain ⟨eligibleAt, hdays, h⟩ := except_bind_eq_ok.mp h
    obtain ⟨base, rfl, rfl⟩ := plusDays_eq_ok hdays
    rcases except_return_eq_ok.mp h with ⟨-, rfl⟩ | ⟨helapsed, h⟩
    · exact absurd rfl hdue
    rcases except_return_eq_ok.mp h with ⟨-, rfl⟩ | ⟨hperiod, h⟩
    · exact absurd rfl hdue
    obtain ⟨hreleased, hmode⟩ := not_or.mp hhold
    have helapsed : base + policy.periodDays.getD 0 * 86400000 ≤ now := by
      simpa using helapsed
    refine ⟨⟨by simpa using hreleased, by simpa using hactive, not_not.mp hclosed, base,
      hclosedAt, helapsed⟩, ?_⟩
    rcases except_return_eq_ok.mp h with ⟨harchive, rfl⟩ | ⟨harchive, h⟩
    · exact .inl ⟨rfl, harchive⟩
    · cases h
      refine .inr ⟨rfl, ?_⟩
      cases hm : policy.mode <;> simp_all

theorem decideRetention_of_elapsed (hlawful : assertPolicyIsLawful policy = .ok ())
    (hmode : policy.mode = .delete_after_period) (hactive : policy.active = true)
    (hreleased : subject.legalHoldActive = false) (hclosed : subject.status ∈ TERMINAL_STATUSES)
    {closedAt : Int} (hclosedAt : subject.closedAt = some ⟨some closedAt⟩)
    (hrange : (closedAt + policy.periodDays.getD 0 * 86400000).natAbs ≤ 8640000000000000)
    (helapsed : closedAt + policy.periodDays.getD 0 * 86400000 ≤ now) :
    ∃ eligibleAt, decideRetention policy subject now =
      .ok ⟨.DELETE, .DUE_FOR_DELETION, some eligibleAt⟩ := by
  refine ⟨⟨some (closedAt + policy.periodDays.getD 0 * 86400000)⟩, ?_⟩
  have hdays : addDays ⟨some closedAt⟩ (policy.periodDays.getD 0) =
      .ok ⟨some (closedAt + policy.periodDays.getD 0 * 86400000)⟩ := by
    rw [addDays, IsoDateTime.plusDays]
    dsimp only
    rw [if_pos hrange]
    rfl
  refine except_bind_eq_ok.mpr ⟨(), hlawful, ?_⟩
  rw [if_neg (by simp [hreleased, hmode]), if_neg (by simp [hactive]), if_neg (by simp [hmode]),
    hclosedAt]
  dsimp only
  rw [if_neg (not_not.mpr hclosed), hdays]
  simp [hmode, helapsed, bind, Except.bind, pure, Except.pure]

end Decision

/-! ## What a report says -/

theorem buildGallringReport_eq_ok {input : GallringReportInput} {report : GallringReport}
    (h : buildGallringReport input = .ok report) :
    report.toGallringReportInput = input ∧
      (report.complete = true ↔ ∀ outcome ∈ input.outcomes, outcome.verified = true) := by
  rw [buildGallringReport, except_guard_eq_ok] at h
  obtain ⟨_, -, h⟩ := except_bind_eq_ok.mp h.2
  cases h
  refine ⟨rfl, ?_⟩
  simp only [decide_eq_true_eq, List.length_map, List.length_eq_zero_iff, List.filter_eq_nil_iff,
    Bool.not_eq_true', Bool.not_eq_false]

theorem buildGallringReport_of_checked {input : GallringReportInput} (hcovers : input.caseIds ≠ [])
    (hchecked : checkOutcomes [] input.outcomes = .ok ()) :
    ∃ report, buildGallringReport input = .ok report ∧
      report.caseCount = input.caseIds.length ∧
      report.deletedTotal = (input.outcomes.map (·.deletedCount)).sum ∧
      report.complete = report.unverifiedTargets.isEmpty := by
  rw [buildGallringReport, if_neg fun h => hcovers (List.length_eq_zero_iff.mp h), hchecked]
  refine ⟨_, rfl, rfl, rfl, ?_⟩
  have hempty : ∀ targets : List GallringTarget, decide (targets.length = 0) = targets.isEmpty
    | [] => rfl
    | _ :: _ => rfl
  exact hempty _

end Kommunsign
