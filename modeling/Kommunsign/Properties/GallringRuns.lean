import Kommunsign.Infra.Run
import Kommunsign.Retention.Executor

/-!
# What a gallring destroys and reports

* `begin_covers_iff` — when an execution has looked at every case that it destroys
* `reportedInFull_throughout_iff` — the jobs that are never reported otherwise
* `reported_accountable` — the jobs that are reported
-/

namespace Kommunsign

open Infra

/-! ## The subjects of an execution -/

theorem forall_mem_iff_dedup_length {α : Type} [DecidableEq α] {xs ys : List α}
    (hsub : ∀ x ∈ xs, x ∈ ys) : (∀ y ∈ ys, y ∈ xs) ↔ xs.dedup.length = ys.dedup.length := by
  have hsubperm : xs.dedup.Subperm ys.dedup := by
    refine List.subperm_of_subset (List.nodup_dedup xs) fun x hx => ?_
    exact List.mem_dedup.mpr (hsub x (List.mem_dedup.mp hx))
  constructor
  · intro h
    refine le_antisymm hsubperm.length_le (List.subperm_of_subset (List.nodup_dedup ys) ?_).length_le
    exact fun y hy => List.mem_dedup.mpr (h y (List.mem_dedup.mp hy))
  · intro hlength y hy
    have hperm := hsubperm.perm_of_length_le hlength.ge
    exact List.mem_dedup.mp (hperm.mem_iff.mpr (List.mem_dedup.mpr hy))

def DecidedDue (policy : RetentionPolicy) (now : Int) (subject : RetentionSubject) : Prop :=
  subject.legalHoldActive = false ∧
    ∃ decision, decideRetention policy subject now = .ok decision ∧ decision.action ≠ .RETAIN

/--
An execution that begins has found every one of its cases due, exactly if the subjects name as
many different cases as the job. The code only compares how many there are of each.
-/
theorem begin_covers_iff {job job' : GallringJob} {policy : RetentionPolicy}
    {subjects : List RetentionSubject} {now : Int}
    (h : beginGallringExecution job policy subjects now = .ok job') :
    (∀ caseId ∈ job'.caseIds, ∃ subject ∈ subjects,
      subject.caseId = caseId ∧ DecidedDue policy now subject) ↔
    (subjects.map (·.caseId)).dedup.length = job.caseIds.dedup.length := by
  obtain ⟨-, -, hsubjects, rfl⟩ := beginGallringExecution_eq_ok h
  have hdue : ∀ subject ∈ subjects, DecidedDue policy now subject := by
    intro subject hsubject
    obtain ⟨-, -, decision, hdecision, hdue, -⟩ := hsubjects subject hsubject
    exact ⟨(decideRetention_due hdecision hdue).1.released, decision, hdecision, hdue⟩
  have hsub : ∀ caseId ∈ subjects.map (·.caseId), caseId ∈ job.caseIds := by
    intro caseId hcaseId
    obtain ⟨subject, hsubject, rfl⟩ := List.mem_map.mp hcaseId
    exact (hsubjects subject hsubject).2.1
  rw [← forall_mem_iff_dedup_length hsub]
  refine forall₂_congr fun caseId _ => ?_
  constructor
  · rintro ⟨subject, hsubject, rfl, -⟩
    exact List.mem_map_of_mem hsubject
  · intro hcaseId
    obtain ⟨subject, hsubject, rfl⟩ := List.mem_map.mp hcaseId
    exact ⟨subject, hsubject, rfl, hdue subject hsubject⟩

/-! ### A subject that is passed twice -/

def RetentionPolicy.sample : RetentionPolicy :=
  ⟨"case-default", 1, .business_data, .delete_after_period, some 30, true, none⟩

def RetentionSubject.sample (caseId : UUID) : RetentionSubject :=
  ⟨"tenant", caseId, "completed", some ⟨some 0⟩, false⟩

def GallringJob.sample (state : GallringState) : GallringJob where
  tenantId := "tenant"
  jobId := "job"
  state := state
  policyKey := "case-default"
  policyVersion := 1
  caseIds := ["case-1", "case-2"]
  queuedDecision := ⟨.DELETE, .DUE_FOR_DELETION, some ⟨some 2592000000⟩⟩
  queuedAt := ⟨some 3000000000⟩
  plannedTargets := []
  requestedBy := "requester"
  approvedBy := none
  approvedAt := none

theorem begin_covers_iff_each :
    beginGallringExecution (.sample .APPROVED) .sample
      (["case-2", "case-1"].map RetentionSubject.sample) 3000000000 = .ok (.sample .EXECUTING) ∧
    ∀ caseId ∈ ["case-1", "case-2"], ∃ subject ∈ ["case-2", "case-1"].map RetentionSubject.sample,
      subject.caseId = caseId ∧ DecidedDue .sample 3000000000 subject := by
  have hbegin : beginGallringExecution (.sample .APPROVED) .sample
      (["case-2", "case-1"].map RetentionSubject.sample) 3000000000 =
        .ok (.sample .EXECUTING) := by
    decide
  exact ⟨hbegin, (begin_covers_iff hbegin).mpr (by decide)⟩

/-- Nobody has looked at the second case, which may be held. -/
theorem not_covered_of_repeated_subject :
    beginGallringExecution (.sample .APPROVED) .sample
      (["case-1", "case-1"].map RetentionSubject.sample) 3000000000 = .ok (.sample .EXECUTING) ∧
    "case-2" ∈ (GallringJob.sample .EXECUTING).caseIds ∧
    ∀ subject ∈ ["case-1", "case-1"].map RetentionSubject.sample, subject.caseId ≠ "case-2" := by
  decide

/-! ## The operations on a job -/

structure GallringRun where
  job : GallringJob
  /-- What the execution produced, as its verification has seen it. -/
  executed : Option (List GallringTargetOutcome)
  report : Option GallringReport
  deriving DecidableEq

inductive GallringStep where
  | plan (additionalTargets : List GallringTarget)
  | approve (approver : GallringApprover) (approvedAt : IsoDateTime)
  | begin (policy : RetentionPolicy) (subjects : List RetentionSubject) (now : Int)
  | verify (outcomes : List GallringTargetOutcome)
  | complete (outcomes : List GallringTargetOutcome) (retentionClass : RetentionClass)
      (executedAt : IsoDateTime)
  | abandon (reason : String)
  deriving DecidableEq

def gallringStep (s : GallringRun) : GallringStep → Option GallringRun
  | .plan additionalTargets =>
    (planGallring s.job additionalTargets).toOption.map fun job => { s with job := job }
  | .approve approver approvedAt =>
    (approveGallring s.job approver approvedAt).toOption.map fun job => { s with job := job }
  | .begin policy subjects now =>
    (beginGallringExecution s.job policy subjects now).toOption.map fun job => { s with job := job }
  | .verify outcomes =>
    (verifyGallringExecution s.job outcomes).toOption.map fun job =>
      { s with job := job, executed := some outcomes }
  | .complete outcomes retentionClass executedAt =>
    (completeGallring s.job outcomes retentionClass executedAt).toOption.map fun (job, report) =>
      { s with job := job, report := some report }
  | .abandon reason =>
    (abandonGallring s.job reason).toOption.map fun job => { s with job := job }

def CoversPlan (job : GallringJob) (outcomes : List GallringTargetOutcome) : Prop :=
  ∀ target ∈ job.plannedTargets, ∃ outcome ∈ outcomes,
    outcome.target = target ∧ outcome.verified = true

/--
A reported job has a complete report of all its cases, with a verified outcome for every target of
the plan, and the outcomes in it are those that the execution produced.
-/
def ReportedInFull (s : GallringRun) : Prop :=
  s.job.state = .REPORTED → ∃ report ∈ s.report, ∃ executed ∈ s.executed,
    report.complete = true ∧ report.caseIds = s.job.caseIds ∧ CoversPlan s.job report.outcomes ∧
      ∀ outcome, outcome ∈ report.outcomes ↔ outcome ∈ executed

def ReportsExecution (s : GallringRun) : GallringStep → Prop
  | .complete outcomes _ _ =>
    ∀ executed ∈ s.executed, outcomes ⊆ executed ∧ executed ⊆ outcomes
  | _ => True

def GallringInv (s : GallringRun) : Prop :=
  s.job.state = .VERIFIED → ∃ executed ∈ s.executed, CoversPlan s.job executed

section Steps

variable {s s' : GallringRun} {i : GallringStep}

theorem gallringStep_cases (h : gallringStep s i = some s') :
    (∃ outcomes, i = .verify outcomes ∧ s'.job.state = .VERIFIED ∧
      s'.executed = some outcomes ∧ CoversPlan s'.job outcomes) ∨
    (∃ outcomes retentionClass executedAt report, i = .complete outcomes retentionClass executedAt ∧
      s.job.state = .VERIFIED ∧
      s' = { s with job := { s.job with state := .REPORTED }, report := some report } ∧
      report.complete = true ∧ report.caseIds = s.job.caseIds ∧ report.outcomes = outcomes) ∨
    (ReportsExecution s i ∧ s'.job.state ≠ .VERIFIED ∧ s'.job.state ≠ .REPORTED) := by
  cases i with
  | plan additionalTargets =>
    obtain ⟨job, hok, rfl⟩ := Option.map_eq_some_iff.mp h
    obtain ⟨-, rfl⟩ := planGallring_eq_ok.mp (toOption_eq_some.mp hok)
    exact .inr (.inr ⟨trivial, nofun, nofun⟩)
  | approve approver approvedAt =>
    obtain ⟨job, hok, rfl⟩ := Option.map_eq_some_iff.mp h
    obtain ⟨-, -, rfl⟩ := approveGallring_eq_ok (toOption_eq_some.mp hok)
    exact .inr (.inr ⟨trivial, nofun, nofun⟩)
  | begin policy subjects now =>
    obtain ⟨job, hok, rfl⟩ := Option.map_eq_some_iff.mp h
    obtain ⟨-, -, -, rfl⟩ := beginGallringExecution_eq_ok (toOption_eq_some.mp hok)
    exact .inr (.inr ⟨trivial, nofun, nofun⟩)
  | verify outcomes =>
    obtain ⟨job, hok, rfl⟩ := Option.map_eq_some_iff.mp h
    obtain ⟨-, hcovers, rfl⟩ := verifyGallringExecution_eq_ok (toOption_eq_some.mp hok)
    exact .inl ⟨outcomes, rfl, rfl, rfl, hcovers⟩
  | complete outcomes retentionClass executedAt =>
    obtain ⟨⟨job, report⟩, hok, rfl⟩ := Option.map_eq_some_iff.mp h
    obtain ⟨hstate, rfl, hcases, houtcomes, hcomplete⟩ :=
      completeGallring_eq_ok (toOption_eq_some.mp hok)
    exact .inr (.inl ⟨outcomes, retentionClass, executedAt, report, rfl, hstate, rfl, hcomplete,
      hcases, houtcomes⟩)
  | abandon reason =>
    obtain ⟨job, hok, rfl⟩ := Option.map_eq_some_iff.mp h
    obtain rfl := abandonGallring_eq_ok (toOption_eq_some.mp hok)
    exact .inr (.inr ⟨trivial, nofun, nofun⟩)

theorem gallringInv_of_step (h : gallringStep s i = some s') : GallringInv s' := by
  intro hverified
  rcases gallringStep_cases h with ⟨outcomes, -, -, hexecuted, hcovers⟩ |
    ⟨_, _, _, _, -, -, rfl, -⟩ | ⟨-, hstate, -⟩
  · exact ⟨outcomes, hexecuted, hcovers⟩
  · exact nomatch hverified
  · exact absurd hverified hstate

theorem reportedInFull_step_iff (hs : GallringInv s) (h : gallringStep s i = some s') :
    ReportedInFull s' ↔ ReportsExecution s i := by
  rcases gallringStep_cases h with ⟨outcomes, rfl, hstate, -⟩ |
    ⟨outcomes, _, _, report, rfl, hverified, rfl, hcomplete, hcases, houtcomes⟩ |
    ⟨hgiven, -, hstate⟩
  · exact iff_of_true (fun hreported => nomatch hstate.symm.trans hreported) trivial
  · obtain ⟨executed, hexecuted, hcovers⟩ := hs hverified
    constructor
    · intro hfull executed' hexecuted'
      obtain ⟨_, ⟨⟩, _, hmem, -, -, -, hsame⟩ := hfull rfl
      cases hmem.symm.trans hexecuted'
      rw [houtcomes] at hsame
      exact ⟨fun outcome => (hsame outcome).mp, fun outcome => (hsame outcome).mpr⟩
    · intro hgiven _
      obtain ⟨hsub, hsup⟩ := hgiven executed hexecuted
      refine ⟨report, rfl, executed, hexecuted, hcomplete, hcases, ?_, ?_⟩
      · intro target htarget
        obtain ⟨outcome, houtcome, hverified⟩ := hcovers target htarget
        exact ⟨outcome, houtcomes ▸ hsup houtcome, hverified⟩
      · rw [houtcomes]
        exact fun outcome => ⟨fun h => hsub h, fun h => hsup h⟩
  · exact iff_of_true (fun hreported => absurd hreported hstate) hgiven

end Steps

/--
From the queue on, a job is never reported otherwise than in full, exactly in the runs whose
completion is given what the verification was given.
-/
theorem reportedInFull_throughout_iff {job : GallringJob} {s : GallringRun}
    {steps : List GallringStep} (hjob : job.state = .QUEUED)
    (hr : run gallringStep ⟨job, none, none⟩ steps = some s) :
    Throughout gallringStep ReportedInFull ⟨job, none, none⟩ steps ↔
      Meets gallringStep ReportsExecution ⟨job, none, none⟩ steps := by
  have hinv : GallringInv ⟨job, none, none⟩ := fun h => nomatch hjob.symm.trans h
  have hfull : ReportedInFull ⟨job, none, none⟩ := fun h => nomatch hjob.symm.trans h
  exact throughout_iff_meets (fun _ _ _ _ h => gallringInv_of_step h)
    (fun _ _ _ hs _ h => reportedInFull_step_iff hs h) hinv hfull hr

/-! ### A completion without outcomes -/

def GallringStep.toVerified : List GallringStep :=
  [.plan [], .approve ⟨"approver", "tenant", true, false⟩ ⟨some 3000000000⟩,
    .begin .sample (["case-1", "case-2"].map RetentionSubject.sample) 3000000000,
    .verify (MANDATORY_CASE_TARGETS.map fun target => ⟨target, 2, true, none⟩)]

instance (s : GallringRun) : ∀ i, Decidable (ReportsExecution s i)
  | .complete outcomes _ _ => inferInstanceAs (Decidable (∀ executed ∈ s.executed,
      outcomes ⊆ executed ∧ executed ⊆ outcomes))
  | .plan _ | .approve _ _ | .begin _ _ _ | .verify _ | .abandon _ => isTrue trivial

theorem reportedInFull_throughout_iff_given :
    Throughout gallringStep ReportedInFull ⟨.sample .QUEUED, none, none⟩
      (GallringStep.toVerified ++ [.complete
        (MANDATORY_CASE_TARGETS.reverse.map fun target => ⟨target, 2, true, none⟩)
        .business_data ⟨some 3000000000⟩]) := by
  obtain ⟨s, hs⟩ : ∃ s, run gallringStep ⟨.sample .QUEUED, none, none⟩
      (GallringStep.toVerified ++ [.complete
        (MANDATORY_CASE_TARGETS.reverse.map fun target => ⟨target, 2, true, none⟩)
        .business_data ⟨some 3000000000⟩]) = some s :=
    Option.isSome_iff_exists.mp (by decide +kernel)
  exact (reportedInFull_throughout_iff rfl hs).mpr (by decide +kernel)

/-- The job is reported as complete, and its report has no outcome for any target. -/
theorem not_reportedInFull_of_no_outcomes :
    ∃ s ∈ run gallringStep ⟨.sample .QUEUED, none, none⟩
      (GallringStep.toVerified ++ [.complete [] .business_data ⟨some 3000000000⟩]),
    s.job.state = .REPORTED ∧ s.job.plannedTargets.length = 9 ∧
      ∃ report ∈ s.report, report.complete = true ∧ report.outcomes = [] := by
  decide +kernel

/-!
# The life of a gallring job

Whatever is called on a job, in whatever order and however often, and whether or not it succeeds, a
job that is reported in the end has gone the whole way, with a plan and with an approver who may
approve it.
-/

/-! ## What a job keeps -/

structure SameRequest (job job' : GallringJob) : Prop where
  tenantId : job'.tenantId = job.tenantId
  jobId : job'.jobId = job.jobId
  policyKey : job'.policyKey = job.policyKey
  policyVersion : job'.policyVersion = job.policyVersion
  caseIds : job'.caseIds = job.caseIds
  queuedDecision : job'.queuedDecision = job.queuedDecision
  queuedAt : job'.queuedAt = job.queuedAt
  requestedBy : job'.requestedBy = job.requestedBy

theorem SameRequest.refl (job : GallringJob) : SameRequest job job :=
  ⟨rfl, rfl, rfl, rfl, rfl, rfl, rfl, rfl⟩

theorem SameRequest.mayApprove {job job' : GallringJob} {approver : GallringApprover}
    (h : SameRequest job job') : approver.MayApprove job' ↔ approver.MayApprove job := by
  constructor
  · rintro ⟨htenant, hcustomer, hpermitted, hdistinct⟩
    exact ⟨htenant.trans h.tenantId, hcustomer, hpermitted, h.requestedBy ▸ hdistinct⟩
  · rintro ⟨htenant, hcustomer, hpermitted, hdistinct⟩
    exact ⟨htenant.trans h.tenantId.symm, hcustomer, hpermitted, h.requestedBy ▸ hdistinct⟩

def GallringState.isPlanned (state : GallringState) : Bool :=
  state == .PLANNED || state.isApproved

/-- What is kept of the job that was queued, by the calls that have been made. -/
structure Accountable (queued : GallringJob) (made : List GallringStep) (job : GallringJob) :
    Prop where
  request : SameRequest queued job
  planned : job.state.isPlanned = true → MANDATORY_CASE_TARGETS ⊆ job.plannedTargets
  approver : ∀ actorId ∈ job.approvedBy, ∃ approver approvedAt,
    .approve approver approvedAt ∈ made ∧ approver.actorId = actorId ∧ approver.MayApprove queued
  approved : job.state.isApproved = true → job.approvedBy.isSome = true

section Calls

variable {queued job : GallringJob} {made : List GallringStep} {s s' : GallringRun}
  {i : GallringStep}

theorem Accountable.after (h : Accountable queued made job) (i : GallringStep) :
    Accountable queued (made ++ [i]) job := by
  refine ⟨h.request, h.planned, fun actorId hactor => ?_, h.approved⟩
  obtain ⟨approver, approvedAt, hmade, hid, hmay⟩ := h.approver actorId hactor
  exact ⟨approver, approvedAt, List.mem_append_left _ hmade, hid, hmay⟩

theorem Accountable.move (h : Accountable queued made job) (state : GallringState)
    (hplanned : state.isPlanned = true → job.state.isPlanned = true)
    (happroved : state.isApproved = true → job.state.isApproved = true) :
    Accountable queued made { job with state := state } := by
  obtain ⟨⟨h₁, h₂, h₃, h₄, h₅, h₆, h₇, h₈⟩, htargets, happrover, hrecorded⟩ := h
  exact ⟨⟨h₁, h₂, h₃, h₄, h₅, h₆, h₇, h₈⟩, fun hstate => htargets (hplanned hstate), happrover,
    fun hstate => hrecorded (happroved hstate)⟩

theorem accountable_of_gallringStep (h : Accountable queued made s.job)
    (hstep : gallringStep s i = some s') : Accountable queued (made ++ [i]) s'.job := by
  cases i with
  | plan additionalTargets =>
    obtain ⟨job, hok, rfl⟩ := Option.map_eq_some_iff.mp hstep
    have htargets := mandatory_of_planGallring (toOption_eq_some.mp hok)
    obtain ⟨hqueued, rfl⟩ := planGallring_eq_ok.mp (toOption_eq_some.mp hok)
    have hsame : SameRequest queued s.job := h.request
    refine ⟨⟨hsame.1, hsame.2, hsame.3, hsame.4, hsame.5, hsame.6, hsame.7, hsame.8⟩,
      fun _ => htargets, (h.after _).approver, nofun⟩
  | approve approver approvedAt =>
    obtain ⟨job, hok, rfl⟩ := Option.map_eq_some_iff.mp hstep
    obtain ⟨hplanned, hmay, rfl⟩ := approveGallring_eq_ok (toOption_eq_some.mp hok)
    have hsame : SameRequest queued s.job := h.request
    refine ⟨⟨hsame.1, hsame.2, hsame.3, hsame.4, hsame.5, hsame.6, hsame.7, hsame.8⟩,
      fun _ => h.planned (by rw [hplanned]; rfl), fun actorId hactor => ?_, fun _ => rfl⟩
    obtain rfl : approver.actorId = actorId := Option.some.inj hactor
    exact ⟨approver, approvedAt, List.mem_append_right _ List.mem_cons_self, rfl,
      hsame.mayApprove.mp hmay⟩
  | begin policy subjects now =>
    obtain ⟨job, hok, rfl⟩ := Option.map_eq_some_iff.mp hstep
    obtain ⟨hstate, -, -, rfl⟩ := beginGallringExecution_eq_ok (toOption_eq_some.mp hok)
    exact (h.after _).move .EXECUTING (fun _ => by rw [hstate]; rfl) fun _ => by rw [hstate]; rfl
  | verify outcomes =>
    obtain ⟨job, hok, rfl⟩ := Option.map_eq_some_iff.mp hstep
    obtain ⟨hstate, -, rfl⟩ := verifyGallringExecution_eq_ok (toOption_eq_some.mp hok)
    exact (h.after _).move .VERIFIED (fun _ => by rw [hstate]; rfl) fun _ => by rw [hstate]; rfl
  | complete outcomes retentionClass executedAt =>
    obtain ⟨⟨job, report⟩, hok, rfl⟩ := Option.map_eq_some_iff.mp hstep
    obtain ⟨hstate, rfl, -⟩ := completeGallring_eq_ok (toOption_eq_some.mp hok)
    exact (h.after _).move .REPORTED (fun _ => by rw [hstate]; rfl) fun _ => by rw [hstate]; rfl
  | abandon reason =>
    obtain ⟨job, hok, rfl⟩ := Option.map_eq_some_iff.mp hstep
    obtain rfl := abandonGallring_eq_ok (toOption_eq_some.mp hok)
    exact (h.after _).move .ABANDONED nofun nofun

/-! ## The way of a job -/

def GallringState.way : GallringState → List GallringState
  | .QUEUED => [.QUEUED, .PLANNED, .APPROVED, .EXECUTING, .VERIFIED, .REPORTED]
  | .PLANNED => [.PLANNED, .APPROVED, .EXECUTING, .VERIFIED, .REPORTED]
  | .APPROVED => [.APPROVED, .EXECUTING, .VERIFIED, .REPORTED]
  | .EXECUTING => [.EXECUTING, .VERIFIED, .REPORTED]
  | .VERIFIED => [.VERIFIED, .REPORTED]
  | .REPORTED => [.REPORTED]
  | .ABANDONED => []

theorem state_of_gallringStep (h : gallringStep s i = some s') :
    (s'.job.state ≠ s.job.state ∧ s.job.state.way = s.job.state :: s'.job.state.way) ∨
      s'.job.state = .ABANDONED := by
  cases i with
  | plan additionalTargets =>
    obtain ⟨job, hok, rfl⟩ := Option.map_eq_some_iff.mp h
    obtain ⟨hstate, rfl⟩ := planGallring_eq_ok.mp (toOption_eq_some.mp hok)
    rw [hstate]
    exact Or.inl ⟨nofun, rfl⟩
  | approve approver approvedAt =>
    obtain ⟨job, hok, rfl⟩ := Option.map_eq_some_iff.mp h
    obtain ⟨hstate, -, rfl⟩ := approveGallring_eq_ok (toOption_eq_some.mp hok)
    rw [hstate]
    exact Or.inl ⟨nofun, rfl⟩
  | begin policy subjects now =>
    obtain ⟨job, hok, rfl⟩ := Option.map_eq_some_iff.mp h
    obtain ⟨hstate, -, -, rfl⟩ := beginGallringExecution_eq_ok (toOption_eq_some.mp hok)
    rw [hstate]
    exact Or.inl ⟨nofun, rfl⟩
  | verify outcomes =>
    obtain ⟨job, hok, rfl⟩ := Option.map_eq_some_iff.mp h
    obtain ⟨hstate, -, rfl⟩ := verifyGallringExecution_eq_ok (toOption_eq_some.mp hok)
    rw [hstate]
    exact Or.inl ⟨nofun, rfl⟩
  | complete outcomes retentionClass executedAt =>
    obtain ⟨⟨job, report⟩, hok, rfl⟩ := Option.map_eq_some_iff.mp h
    obtain ⟨hstate, rfl, -⟩ := completeGallring_eq_ok (toOption_eq_some.mp hok)
    rw [hstate]
    exact Or.inl ⟨nofun, rfl⟩
  | abandon reason =>
    obtain ⟨job, hok, rfl⟩ := Option.map_eq_some_iff.mp h
    obtain rfl := abandonGallring_eq_ok (toOption_eq_some.mp hok)
    exact Or.inr rfl

theorem state_of_gallringCall (s : GallringRun) (i : GallringStep) :
    (call gallringStep s i).job.state = s.job.state ∨
      ((call gallringStep s i).job.state ≠ s.job.state ∧
        s.job.state.way = s.job.state :: (call gallringStep s i).job.state.way) ∨
      (call gallringStep s i).job.state = .ABANDONED := by
  rcases call_cases gallringStep s i with hstep | hsame
  · exact Or.inr (state_of_gallringStep hstep)
  · exact Or.inl (congrArg (·.job.state) hsame)

theorem abandoned_of_gallringCall (s : GallringRun) (i : GallringStep)
    (h : s.job.state = .ABANDONED) : (call gallringStep s i).job.state = .ABANDONED := by
  rcases state_of_gallringCall s i with hsame | ⟨-, hway⟩ | habandoned
  · exact hsame.trans h
  · rw [h] at hway
    cases hway
  · exact habandoned

end Calls

structure LifeOfReported (queued reported : GallringJob) (made : List GallringStep)
    (states : List GallringState) : Prop where
  way : states.destutter (· ≠ ·) =
    [.QUEUED, .PLANNED, .APPROVED, .EXECUTING, .VERIFIED, .REPORTED]
  approver : ∃ approver approvedAt, .approve approver approvedAt ∈ made ∧
    reported.approvedBy = some approver.actorId ∧ approver.MayApprove queued
  targets : MANDATORY_CASE_TARGETS ⊆ reported.plannedTargets

/--
Whatever is called on a job that is queued and has no approver, what has been asked for stays the
same. If the job is reported in the end, it has gone through all the states in their order, somebody
has approved it who may do so, and its plan has every target that always applies.
-/
theorem reported_accountable {queued : GallringJob} (hqueued : queued.state = .QUEUED)
    (hnobody : queued.approvedBy = none) (made : List GallringStep) :
    SameRequest queued (calls gallringStep ⟨queued, none, none⟩ made).job ∧
      ((calls gallringStep ⟨queued, none, none⟩ made).job.state = .REPORTED →
        LifeOfReported queued (calls gallringStep ⟨queued, none, none⟩ made).job made
          (visited gallringStep (·.job.state) ⟨queued, none, none⟩ made)) := by
  have hstart : Accountable queued [] queued := by
    refine ⟨.refl queued, ?_, ?_, ?_⟩
    · rw [hqueued]
      exact nofun
    · rw [hnobody]
      exact nofun
    · rw [hqueued]
      exact nofun
  have hafter : Accountable queued made (calls gallringStep ⟨queued, none, none⟩ made).job := by
    refine calls_history (fun made (s : GallringRun) => Accountable queued made s.job) hstart ?_ made
    intro made s i h
    rcases call_cases gallringStep s i with hstep | hsame
    · exact accountable_of_gallringStep h hstep
    · rw [hsame]
      exact h.after i
  refine ⟨hafter.request, fun hreported => ⟨?_, ?_, hafter.planned (by rw [hreported]; rfl)⟩⟩
  · have hpath := visited_eq_path (fun s : GallringRun => s.job.state) GallringState.way
      (· = .ABANDONED) .REPORTED rfl nofun state_of_gallringCall
      abandoned_of_gallringCall ⟨queued, none, none⟩ made hreported
    rw [hpath, hqueued]
    rfl
  · obtain ⟨actorId, hactor⟩ := Option.isSome_iff_exists.mp (hafter.approved (by rw [hreported]; rfl))
    obtain ⟨approver, approvedAt, hmade, rfl, hmay⟩ := hafter.approver actorId hactor
    exact ⟨approver, approvedAt, hmade, hactor, hmay⟩

/-- A job that is reported after some calls that have failed. -/
theorem reported_accountable_sample :
    (calls gallringStep ⟨.sample .QUEUED, none, none⟩ (.verify [] :: GallringStep.toVerified ++
      [.plan [.cache], .complete [] .business_data ⟨some 3000000000⟩, .abandon "late"])).job.state =
        .REPORTED ∧
    ∃ approver approvedAt, .approve approver approvedAt ∈ GallringStep.toVerified ∧
      approver.MayApprove (.sample .QUEUED) := by
  have hreported : (calls gallringStep ⟨.sample .QUEUED, none, none⟩ (.verify [] ::
      GallringStep.toVerified ++ [.plan [.cache], .complete [] .business_data ⟨some 3000000000⟩,
        .abandon "late"])).job.state = .REPORTED := by decide +kernel
  obtain ⟨approver, approvedAt, hmade, -, hmay⟩ :=
    ((reported_accountable rfl rfl _).2 hreported).approver
  refine ⟨hreported, approver, approvedAt, ?_, hmay⟩
  simpa using hmade

end Kommunsign
