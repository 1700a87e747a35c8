import Mathlib.Data.List.Dedup
import Mathlib.Data.List.Sort
import Kommunsign.Retention.Policy

/-!
# The gallring executor

The lifecycle that carries a decision through to a verified, reported deletion: queue, plan,
approve, execute, verify, report.

* `selectDueCases` — the cases that reach the queue
* `planGallring`, `approveGallring`, `beginGallringExecution`, `verifyGallringExecution`,
  `completeGallring`, `abandonGallring` — the operations on a job
-/

namespace Kommunsign

open Infra

inductive GallringState where
  | QUEUED | PLANNED | APPROVED | EXECUTING | VERIFIED | REPORTED | ABANDONED
  deriving DecidableEq

def GallringState.text : GallringState → String
  | .QUEUED => "QUEUED"
  | .PLANNED => "PLANNED"
  | .APPROVED => "APPROVED"
  | .EXECUTING => "EXECUTING"
  | .VERIFIED => "VERIFIED"
  | .REPORTED => "REPORTED"
  | .ABANDONED => "ABANDONED"

/-- The states of the jobs that have been approved and not abandoned. -/
def GallringState.isApproved : GallringState → Bool
  | .APPROVED | .EXECUTING | .VERIFIED | .REPORTED => true
  | .QUEUED | .PLANNED | .ABANDONED => false

/-- The targets that always apply to a case. -/
def MANDATORY_CASE_TARGETS : List GallringTarget :=
  [.signature_case, .documents, .document_versions, .object_storage, .evidence_packages,
    .derived_renders, .search_index, .cache, .notifications]

structure GallringJob where
  tenantId : UUID
  jobId : UUID
  state : GallringState
  policyKey : String
  policyVersion : Int
  caseIds : List UUID
  queuedDecision : RetentionDecision
  queuedAt : IsoDateTime
  plannedTargets : List GallringTarget
  requestedBy : UUID
  approvedBy : Option UUID
  approvedAt : Option IsoDateTime
  deriving DecidableEq

structure GallringApprover where
  actorId : UUID
  tenantId : UUID
  hasRetentionExecutePermission : Bool
  isPlatformStaff : Bool
  deriving DecidableEq

def assertState (job : GallringJob) (expected : GallringState) : Except RetentionError Unit := do
  if job.state ≠ expected then
    throw (.executionError .GALLRING_STATE_INVALID
      ("Job is " ++ job.state.text ++ ", expected " ++ expected.text))

/-! ## Queue -/

def selectDueCases (policy : RetentionPolicy) (subjects : List RetentionSubject) (now : Int) :
    Except RetentionError (List (RetentionSubject × RetentionDecision)) := do
  let decided ← subjects.mapM fun subject => do
    return (subject, ← decideRetention policy subject now)
  return decided.filter fun entry => entry.2.action ≠ .RETAIN

/-! ## Plan and approval -/

def planGallring (job : GallringJob) (additionalTargets : List GallringTarget) :
    Except RetentionError GallringJob := do
  assertState job .QUEUED
  let planned := (MANDATORY_CASE_TARGETS ++ additionalTargets).dedup.insertionSort
    fun a b => a.text ≤ b.text
  return { job with state := .PLANNED, plannedTargets := planned }

def approveGallring (job : GallringJob) (approver : GallringApprover) (approvedAt : IsoDateTime) :
    Except RetentionError GallringJob := do
  assertState job .PLANNED
  if approver.tenantId ≠ job.tenantId then
    throw (.executionError .GALLRING_TENANT_MISMATCH "Approver belongs to another tenant")
  if approver.isPlatformStaff then
    throw (.executionError .GALLRING_APPROVER_NOT_PERMITTED
      "Gallring is reserved for the customer, not the supplier")
  if ¬approver.hasRetentionExecutePermission then
    throw (.executionError .GALLRING_APPROVER_NOT_PERMITTED "Approver lacks retention:execute")
  if approver.actorId = job.requestedBy then
    throw (.executionError .GALLRING_SELF_APPROVAL
      "Gallring must be approved by someone other than the requester")
  return { job with
    state := .APPROVED, approvedBy := some approver.actorId, approvedAt := some approvedAt }

/-! ## Execution -/

/-- The loop over the subjects. -/
def checkSubjects (job : GallringJob) (policy : RetentionPolicy) (now : Int) :
    List RetentionSubject → Except RetentionError Unit
  | [] => return ()
  | subject :: subjects => do
    if subject.tenantId ≠ job.tenantId then
      throw (.executionError .GALLRING_TENANT_MISMATCH "Subject belongs to another tenant")
    if subject.caseId ∉ job.caseIds then
      throw (.executionError .GALLRING_DECISION_STALE
        ("Case " ++ subject.caseId ++ " was not in the approved job"))
    let current ← decideRetention policy subject now
    if current.action = .RETAIN then
      throw (.executionError .GALLRING_DECISION_STALE
        ("Case " ++ subject.caseId ++ " is no longer due for gallring: " ++ current.reason.text))
    if current.action ≠ job.queuedDecision.action then
      throw (.executionError .GALLRING_DECISION_STALE
        ("Case " ++ subject.caseId ++ " decision changed from " ++
          job.queuedDecision.action.text ++ " to " ++ current.action.text))
    checkSubjects job policy now subjects

def beginGallringExecution (job : GallringJob) (policy : RetentionPolicy)
    (subjects : List RetentionSubject) (now : Int) : Except RetentionError GallringJob := do
  assertState job .APPROVED
  if subjects.length ≠ job.caseIds.length then
    throw (.executionError .GALLRING_DECISION_STALE
      "Subject set no longer matches the queued cases")
  checkSubjects job policy now subjects
  return { job with state := .EXECUTING }

/-- The loop that refuses two outcomes for one target. -/
def checkAddressed (addressed : List GallringTarget) :
    List GallringTargetOutcome → Except RetentionError Unit
  | [] => return ()
  | outcome :: outcomes => do
    if outcome.target ∈ addressed then
      throw (.executionError .GALLRING_TARGET_DUPLICATE
        ("Duplicate outcome reported for target " ++ outcome.target.text))
    checkAddressed (outcome.target :: addressed) outcomes

/-- The targets in a message. -/
def joinTargets (targets : List GallringTarget) : String :=
  ", ".intercalate (targets.map (·.text))

def verifyGallringExecution (job : GallringJob) (outcomes : List GallringTargetOutcome) :
    Except RetentionError GallringJob := do
  assertState job .EXECUTING
  checkAddressed [] outcomes
  let addressed := outcomes.map (·.target)
  let missing := job.plannedTargets.filter (· ∉ addressed)
  if 0 < missing.length then
    throw (.executionError .GALLRING_TARGET_NOT_EXECUTED
      ("Planned targets were never addressed: " ++ joinTargets missing))
  let unplanned := addressed.filter (· ∉ job.plannedTargets)
  if 0 < unplanned.length then
    throw (.executionError .GALLRING_TARGET_NOT_PLANNED
      ("Outcomes reported for unplanned targets: " ++ joinTargets unplanned))
  let unverified := (outcomes.filter fun outcome => !outcome.verified).map (·.target)
  if 0 < unverified.length then
    throw (.executionError .GALLRING_NOT_VERIFIED
      ("Deletion could not be verified for: " ++ joinTargets unverified))
  return { job with state := .VERIFIED }

/-! ## Completion -/

def completeGallring (job : GallringJob) (outcomes : List GallringTargetOutcome)
    (retentionClass : RetentionClass) (executedAt : IsoDateTime) :
    Except RetentionError (GallringJob × GallringReport) := do
  assertState job .VERIFIED
  match job.approvedBy with
  | none => throw (.executionError .GALLRING_APPROVAL_REQUIRED
      "A gallring report requires a recorded approver")
  | some approvedBy =>
    let report ← buildGallringReport
      { tenantId := job.tenantId
        jobId := job.jobId
        policyKey := job.policyKey
        policyVersion := job.policyVersion
        retentionClass := retentionClass
        executedBy := approvedBy
        executedAt := executedAt
        caseIds := job.caseIds
        outcomes := outcomes }
    if ¬report.complete then
      throw (.executionError .GALLRING_NOT_VERIFIED "Report is not complete")
    return ({ job with state := .REPORTED }, report)

def abandonGallring (job : GallringJob) (_reason : String) : Except RetentionError GallringJob := do
  if job.state = .REPORTED then
    throw (.executionError .GALLRING_STATE_INVALID "A reported gallring cannot be abandoned")
  return { job with state := .ABANDONED }

/-! ## When the operations succeed -/

section Operations

variable {job job' : GallringJob} {outcomes : List GallringTargetOutcome}

theorem assertState_eq_ok {expected : GallringState} :
    assertState job expected = .ok () ↔ job.state = expected := by
  rw [assertState, except_guard_end_eq_ok, not_not, and_iff_left rfl]

theorem planGallring_eq_ok {additionalTargets : List GallringTarget} :
    planGallring job additionalTargets = .ok job' ↔ job.state = .QUEUED ∧ job' = { job with
      state := .PLANNED
      plannedTargets := (MANDATORY_CASE_TARGETS ++ additionalTargets).dedup.insertionSort
        fun a b => a.text ≤ b.text } := by
  rw [planGallring, except_bind_eq_ok]
  constructor
  · rintro ⟨_, hstate, h⟩
    exact ⟨assertState_eq_ok.mp hstate, (Except.ok.inj h).symm⟩
  · rintro ⟨hstate, rfl⟩
    exact ⟨(), assertState_eq_ok.mpr hstate, rfl⟩

theorem mandatory_of_planGallring {additionalTargets : List GallringTarget}
    (h : planGallring job additionalTargets = .ok job') :
    MANDATORY_CASE_TARGETS ⊆ job'.plannedTargets := by
  obtain ⟨-, rfl⟩ := planGallring_eq_ok.mp h
  intro target htarget
  rw [List.mem_insertionSort, List.mem_dedup]
  exact List.mem_append_left _ htarget

/-- Someone of the customer, with the permission, who is not the one who asked. -/
structure GallringApprover.MayApprove (approver : GallringApprover) (job : GallringJob) : Prop where
  tenant : approver.tenantId = job.tenantId
  customer : approver.isPlatformStaff = false
  permitted : approver.hasRetentionExecutePermission = true
  distinct : approver.actorId ≠ job.requestedBy

theorem approveGallring_eq_ok {approver : GallringApprover} {approvedAt : IsoDateTime}
    (h : approveGallring job approver approvedAt = .ok job') :
    job.state = .PLANNED ∧ approver.MayApprove job ∧ job' = { job with
      state := .APPROVED, approvedBy := some approver.actorId, approvedAt := some approvedAt } := by
  obtain ⟨_, hstate, h⟩ := except_bind_eq_ok.mp h
  obtain ⟨htenant, h⟩ := except_guard_eq_ok.mp h
  obtain ⟨hstaff, h⟩ := except_guard_eq_ok.mp h
  obtain ⟨hpermitted, h⟩ := except_guard_eq_ok.mp h
  obtain ⟨hdistinct, h⟩ := except_guard_eq_ok.mp h
  exact ⟨assertState_eq_ok.mp hstate, ⟨not_not.mp htenant, Bool.not_eq_true _ ▸ hstaff,
    not_not.mp hpermitted, hdistinct⟩, (Except.ok.inj h).symm⟩

theorem checkSubjects_eq_ok {policy : RetentionPolicy} {now : Int}
    {subjects : List RetentionSubject} (h : checkSubjects job policy now subjects = .ok ()) :
    ∀ subject ∈ subjects, subject.tenantId = job.tenantId ∧ subject.caseId ∈ job.caseIds ∧
      ∃ decision, decideRetention policy subject now = .ok decision ∧
        decision.action ≠ .RETAIN ∧ decision.action = job.queuedDecision.action := by
  induction subjects with
  | nil => exact nofun
  | cons subject subjects ih =>
    rw [checkSubjects, except_guard_eq_ok, except_guard_eq_ok, except_bind_eq_ok, not_not,
      not_not] at h
    obtain ⟨htenant, hcase, decision, hdecision, h⟩ := h
    obtain ⟨hdue, h⟩ := except_guard_eq_ok.mp h
    obtain ⟨haction, h⟩ := except_guard_eq_ok.mp h
    exact List.forall_mem_cons.mpr
      ⟨⟨htenant, hcase, decision, hdecision, hdue, not_not.mp haction⟩, ih h⟩

theorem beginGallringExecution_eq_ok {policy : RetentionPolicy} {now : Int}
    {subjects : List RetentionSubject}
    (h : beginGallringExecution job policy subjects now = .ok job') :
    job.state = .APPROVED ∧ subjects.length = job.caseIds.length ∧
      (∀ subject ∈ subjects, subject.tenantId = job.tenantId ∧ subject.caseId ∈ job.caseIds ∧
        ∃ decision, decideRetention policy subject now = .ok decision ∧
          decision.action ≠ .RETAIN ∧ decision.action = job.queuedDecision.action) ∧
      job' = { job with state := .EXECUTING } := by
  obtain ⟨_, hstate, h⟩ := except_bind_eq_ok.mp h
  obtain ⟨hlength, h⟩ := except_guard_eq_ok.mp h
  obtain ⟨_, hsubjects, h⟩ := except_bind_eq_ok.mp h
  exact ⟨assertState_eq_ok.mp hstate, not_not.mp hlength, checkSubjects_eq_ok hsubjects,
    (Except.ok.inj h).symm⟩

theorem verifyGallringExecution_eq_ok (h : verifyGallringExecution job outcomes = .ok job') :
    job.state = .EXECUTING ∧
      (∀ target ∈ job.plannedTargets, ∃ outcome ∈ outcomes,
        outcome.target = target ∧ outcome.verified = true) ∧
      job' = { job with state := .VERIFIED } := by
  obtain ⟨_, hstate, h⟩ := except_bind_eq_ok.mp h
  obtain ⟨_, -, h⟩ := except_bind_eq_ok.mp h
  obtain ⟨hmissing, h⟩ := except_guard_eq_ok.mp h
  obtain ⟨-, h⟩ := except_guard_eq_ok.mp h
  obtain ⟨hunverified, h⟩ := except_guard_eq_ok.mp h
  refine ⟨assertState_eq_ok.mp hstate, fun target htarget => ?_, (Except.ok.inj h).symm⟩
  simp only [Nat.not_lt, Nat.le_zero, List.length_map, List.length_eq_zero_iff,
    List.filter_eq_nil_iff, decide_eq_true_eq, not_not, Bool.not_eq_true', Bool.not_eq_false]
    at hmissing hunverified
  obtain ⟨outcome, houtcome, rfl⟩ := List.mem_map.mp (hmissing target htarget)
  exact ⟨outcome, houtcome, rfl, hunverified outcome houtcome⟩

theorem completeGallring_eq_ok {retentionClass : RetentionClass} {executedAt : IsoDateTime}
    {report : GallringReport}
    (h : completeGallring job outcomes retentionClass executedAt = .ok (job', report)) :
    job.state = .VERIFIED ∧ job' = { job with state := .REPORTED } ∧
      report.caseIds = job.caseIds ∧ report.outcomes = outcomes ∧ report.complete = true := by
  obtain ⟨_, hstate, h⟩ := except_bind_eq_ok.mp h
  refine ⟨assertState_eq_ok.mp hstate, ?_⟩
  cases happroved : job.approvedBy with
  | none =>
    rw [happroved] at h
    exact nomatch h
  | some approvedBy =>
    rw [happroved] at h
    obtain ⟨built, hbuilt, h⟩ := except_bind_eq_ok.mp h
    obtain ⟨hcomplete, h⟩ := except_guard_eq_ok.mp h
    cases h
    obtain ⟨hinput, -⟩ := buildGallringReport_eq_ok hbuilt
    rw [hinput]
    exact ⟨rfl, rfl, rfl, not_not.mp hcomplete⟩

theorem abandonGallring_eq_ok {reason : String} (h : abandonGallring job reason = .ok job') :
    job' = { job with state := .ABANDONED } := by
  rw [abandonGallring, except_guard_eq_ok] at h
  exact (Except.ok.inj h.2).symm

/-! ## What makes them succeed -/

theorem abandonGallring_of_not_reported (reason : String) (h : job.state ≠ .REPORTED) :
    abandonGallring job reason = .ok { job with state := .ABANDONED } := by
  rw [abandonGallring, except_guard_eq_ok]
  exact ⟨h, rfl⟩

theorem beginGallringExecution_of_due {policy : RetentionPolicy} {now : Int}
    {subjects : List RetentionSubject} (hstate : job.state = .APPROVED)
    (hlength : subjects.length = job.caseIds.length)
    (hsubjects : ∀ subject ∈ subjects, subject.tenantId = job.tenantId ∧
      subject.caseId ∈ job.caseIds ∧ ∃ decision, decideRetention policy subject now = .ok decision ∧
        decision.action ≠ .RETAIN ∧ decision.action = job.queuedDecision.action) :
    beginGallringExecution job policy subjects now = .ok { job with state := .EXECUTING } := by
  have hcheck : ∀ rest : List RetentionSubject, (∀ subject ∈ rest, subject ∈ subjects) →
      checkSubjects job policy now rest = .ok () := by
    intro rest
    induction rest with
    | nil => exact fun _ => rfl
    | cons subject rest ih =>
      intro hrest
      obtain ⟨hfirst, hrest⟩ := List.forall_mem_cons.mp hrest
      obtain ⟨htenant, hcase, decision, hdecision, hdue, haction⟩ := hsubjects subject hfirst
      rw [checkSubjects, except_guard_eq_ok, except_guard_eq_ok, except_bind_eq_ok]
      refine ⟨not_not.mpr htenant, not_not.mpr hcase, decision, hdecision, ?_⟩
      rw [except_guard_eq_ok, except_guard_eq_ok]
      exact ⟨hdue, not_not.mpr haction, ih hrest⟩
  refine except_bind_eq_ok.mpr ⟨(), assertState_eq_ok.mpr hstate, ?_⟩
  rw [except_guard_eq_ok, except_bind_eq_ok]
  exact ⟨not_not.mpr hlength, (), hcheck subjects fun _ h => h, rfl⟩

theorem checkAddressed_of_distinct : ∀ {outcomes : List GallringTargetOutcome}
    {addressed : List GallringTarget}, (outcomes.map (·.target)).Nodup →
      (∀ outcome ∈ outcomes, outcome.target ∉ addressed) → checkAddressed addressed outcomes = .ok ()
  | [], _, _, _ => rfl
  | outcome :: outcomes, addressed, hdistinct, hnew => by
    rw [List.map_cons, List.nodup_cons] at hdistinct
    obtain ⟨hfirst, hrest⟩ := List.forall_mem_cons.mp hnew
    rw [checkAddressed, except_guard_eq_ok]
    refine ⟨hfirst, checkAddressed_of_distinct hdistinct.2 fun row hrow hmem => ?_⟩
    rcases List.mem_cons.mp hmem with he | hmem
    · exact hdistinct.1 (he ▸ List.mem_map_of_mem hrow)
    · exact hrest row hrow hmem

theorem verifyGallringExecution_of_verified (hstate : job.state = .EXECUTING)
    (hdistinct : (outcomes.map (·.target)).Nodup)
    (htargets : ∀ target, target ∈ outcomes.map (·.target) ↔ target ∈ job.plannedTargets)
    (hverified : ∀ outcome ∈ outcomes, outcome.verified = true) :
    verifyGallringExecution job outcomes = .ok { job with state := .VERIFIED } := by
  have hmissing : job.plannedTargets.filter (· ∉ outcomes.map (·.target)) = [] := by
    simpa [List.filter_eq_nil_iff] using fun target h => List.mem_map.mp ((htargets target).mpr h)
  have hunplanned : (outcomes.map (·.target)).filter (· ∉ job.plannedTargets) = [] := by
    refine List.filter_eq_nil_iff.mpr fun target h => ?_
    simpa using (htargets target).mp h
  have hunverified : outcomes.filter (fun outcome => !outcome.verified) = [] := by
    refine List.filter_eq_nil_iff.mpr fun outcome h => ?_
    rw [hverified outcome h]
    exact Bool.false_ne_true
  refine except_bind_eq_ok.mpr ⟨(), assertState_eq_ok.mpr hstate, ?_⟩
  refine except_bind_eq_ok.mpr
    ⟨(), checkAddressed_of_distinct hdistinct fun _ _ => List.not_mem_nil, ?_⟩
  dsimp only
  rw [hmissing, hunplanned, hunverified]
  rfl

theorem completeGallring_of_complete {retentionClass : RetentionClass} {executedAt : IsoDateTime}
    {report : GallringReport} {approvedBy : UUID} (hstate : job.state = .VERIFIED)
    (happroved : job.approvedBy = some approvedBy)
    (hreport : buildGallringReport ⟨job.tenantId, job.jobId, job.policyKey, job.policyVersion,
      retentionClass, approvedBy, executedAt, job.caseIds, outcomes⟩ = .ok report)
    (hcomplete : report.complete = true) :
    completeGallring job outcomes retentionClass executedAt =
      .ok ({ job with state := .REPORTED }, report) := by
  refine except_bind_eq_ok.mpr ⟨(), assertState_eq_ok.mpr hstate, ?_⟩
  rw [happroved]
  refine except_bind_eq_ok.mpr ⟨report, hreport, ?_⟩
  rw [if_neg (not_not.mpr hcomplete)]
  rfl

end Operations

end Kommunsign
