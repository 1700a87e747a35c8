import Kommunsign.Infra.Run
import Kommunsign.Worker.RetentionRuns

/-!
# What the execution of a gallring destroys

The job moves an approved run to `EXECUTING` without deciding on its cases again, and it reports
whatever the outcomes are. The executor of the library does neither.

* `LawfulExecution` — only cases that are still due are destroyed, as the executor of the library
  does it
* `executions_lawful` — the same over every run of the system
-/

namespace Kommunsign

open Infra

/-! ## Lawful executions -/

/-- The run as the executor has it, which only looks at the action of the decision. -/
def GallringJobRow.toJob (job : GallringJobRow) (tenantId : UUID) : GallringJob where
  tenantId := tenantId
  jobId := job.id
  state := job.state
  policyKey := job.policyKey
  policyVersion := job.policyVersion
  caseIds := job.caseIds
  queuedDecision := ⟨job.queuedDecision.action, .DUE_FOR_DELETION, none⟩
  queuedAt := ⟨some job.requestedAt⟩
  plannedTargets := job.plannedTargets
  requestedBy := job.requestedBy
  approvedBy := job.approvedBy
  approvedAt := job.approvedAt.map fun approvedAt => ⟨some approvedAt⟩

def RetentionData.subjects (data : RetentionData) (caseIds : List UUID) : List RetentionSubject :=
  caseIds.filterMap fun caseId => (data.cases.find? (·.id == caseId)).map data.subject

def RetentionData.archived (data : RetentionData) (caseId : UUID) : Bool :=
  data.archiveExports.any fun exported => exported.completed && exported.signatureCaseId == caseId

/-- What is decided about the case now is still what the run has been approved for. -/
def RetentionData.StillDue (data : RetentionData) (job : GallringJobRow) (caseId : UUID) : Prop :=
  ∃ policy found decision, data.loadPolicy job.policyKey = some policy ∧
    data.cases.find? (·.id == caseId) = some found ∧
    decideRetention policy (data.subject found) data.clock = .ok decision ∧
    decision.action ≠ .RETAIN ∧ decision.action = job.queuedDecision.action ∧
    (policy.mode = .archive_then_delete → data.archived caseId = true)

structure DestroysOnly (permitted : UUID → Prop) (data data' : RetentionData) : Prop where
  documents : ∀ document ∈ data.documents, document ∉ data'.documents →
    permitted document.signatureCaseId
  versions : ∀ version ∈ data.versions, version ∉ data'.versions →
    ∃ caseId, permitted caseId ∧ version ∈ data.versionsOf caseId
  messages : ∀ message ∈ data.messages, message ∉ data'.messages →
    ∃ caseId, permitted caseId ∧ message.signatureCaseId = some caseId
  objects : ∀ key ∈ data.objects, key ∉ data'.objects →
    ∃ caseId, permitted caseId ∧ key ∈ data.caseObjectKeys caseId

/-- The executor begins the run, with the policy and the cases as they are. -/
def BeginsInExecutor (data : RetentionData) (job : GallringJobRow) (begun : GallringJob) : Prop :=
  ∃ policy, data.loadPolicy job.policyKey = some policy ∧
    beginGallringExecution (job.toJob data.tenantId) policy (data.subjects job.caseIds) data.clock =
      .ok begun

inductive ExecutorPath (data data' : RetentionData) (job : GallringJobRow) : GallringJob → Prop
  | begun {begun : GallringJob} (hbegin : BeginsInExecutor data job begun) :
      ExecutorPath data data' job begun
  | reported {begun verified reported : GallringJob} {outcomes : List GallringTargetOutcome}
      {report : GallringReport} {key : StoredKey} (hbegin : BeginsInExecutor data job begun)
      (hverify : verifyGallringExecution begun outcomes = .ok verified)
      (hcomplete : completeGallring verified outcomes job.retentionClass ⟨some data.clock⟩ =
        .ok (reported, report))
      (hstored : ⟨job.id, report, key⟩ ∈ data'.reports) : ExecutorPath data data' job reported
  | abandoned {abandoned : GallringJob} {reason : String}
      (habandon : abandonGallring (job.toJob data.tenantId) reason = .ok abandoned) :
      ExecutorPath data data' job abandoned

structure LawfulExecution (data : RetentionData) (gallringJobId : UUID) (data' : RetentionData) :
    Prop where
  destroys : DestroysOnly (fun caseId => ∃ job ∈ data.jobs, job.id = gallringJobId ∧
    caseId ∈ job.caseIds ∧ data.StillDue job caseId) data data'
  refines : ∀ job ∈ data.jobs, ∀ job' ∈ data'.jobs, job'.id = job.id →
    job' = job ∨ ExecutorPath data data' job (job'.toJob data.tenantId)
  verified : ∀ job ∈ data'.jobs, job.state = .REPORTED → job ∉ data.jobs →
    ∃ stored ∈ data'.reports, stored.gallringJobId = job.id ∧
      ∀ outcome ∈ stored.report.outcomes, outcome.verified = true

/-! ## When an execution is lawful -/

structure ElapsedUnder (data : RetentionData) (policy : RetentionPolicy) (found : RetentionCase)
    (completedAt : Int) : Prop where
  lawful : assertPolicyIsLawful policy = .ok ()
  mode : policy.mode = .delete_after_period
  active : policy.active = true
  closed : found.status ∈ TERMINAL_STATUSES
  completed : found.completedAt = some completedAt
  range : (completedAt + policy.periodDays.getD 0 * 86400000).natAbs ≤ 8640000000000000
  elapsed : completedAt + policy.periodDays.getD 0 * 86400000 ≤ data.clock

def RetentionData.DueForDeletion (data : RetentionData) (policyKey : String) (caseId : UUID) :
    Prop :=
  ∃ policy found completedAt, data.loadPolicy policyKey = some policy ∧
    data.cases.find? (·.id == caseId) = some found ∧ ElapsedUnder data policy found completedAt

/-- The run that an execution begins with has only such cases, and no object of them resists. -/
def ExecutesDueCases (env : RetentionEnvironment) (data : RetentionData) (gallringJobId : UUID) :
    Prop :=
  ∀ job ∈ data.jobs, job.id = gallringJobId → Begins env data job →
    ∀ caseId ∈ job.caseIds, data.DueForDeletion job.policyKey caseId ∧
      ∀ key ∈ data.caseObjectKeys caseId, env.refuses key = false

section Lawful

variable {env : RetentionEnvironment} {data data' : RetentionData} {job : GallringJobRow}
  {gallringJobId : UUID}

theorem decision_of_due {caseId : UUID} (hreleased : data.held caseId = false)
    (hdue : data.DueForDeletion job.policyKey caseId) :
    ∃ policy found eligibleAt, data.loadPolicy job.policyKey = some policy ∧
      data.cases.find? (·.id == caseId) = some found ∧ policy.mode = .delete_after_period ∧
      decideRetention policy (data.subject found) data.clock =
        .ok ⟨.DELETE, .DUE_FOR_DELETION, some eligibleAt⟩ := by
  obtain ⟨policy, found, completedAt, hpolicy, hfind, helapsed⟩ := hdue
  obtain ⟨-, rfl⟩ := exists_of_find?_key hfind
  have hclosedAt : (data.subject found).closedAt = some ⟨some completedAt⟩ := by
    rw [RetentionData.subject, helapsed.completed]
    rfl
  obtain ⟨eligibleAt, hdecision⟩ := decideRetention_of_elapsed helapsed.lawful helapsed.mode
    helapsed.active hreleased helapsed.closed hclosedAt helapsed.range helapsed.elapsed
  exact ⟨policy, found, eligibleAt, hpolicy, hfind, helapsed.mode, hdecision⟩

theorem stillDue_of_due {caseId : UUID} (haction : job.queuedDecision.action = .DELETE)
    (hreleased : data.held caseId = false)
    (hdue : data.DueForDeletion job.policyKey caseId) : data.StillDue job caseId := by
  obtain ⟨policy, found, eligibleAt, hpolicy, hfind, hmode, hdecision⟩ :=
    decision_of_due hreleased hdue
  refine ⟨policy, found, _, hpolicy, hfind, hdecision, nofun, haction.symm, fun h => ?_⟩
  rw [hmode] at h
  cases h

theorem beginsInExecutor_of_due (hjobOk : JobOk job) (happroved : job.state = .APPROVED)
    (hreleased : ∀ caseId ∈ job.caseIds, data.held caseId = false)
    (hdue : ∀ caseId ∈ job.caseIds, data.DueForDeletion job.policyKey caseId) :
    BeginsInExecutor data job
      (({ job with state := .EXECUTING } : GallringJobRow).toJob data.tenantId) := by
  obtain ⟨first, hfirst⟩ := List.exists_mem_of_ne_nil _ hjobOk.covers
  obtain ⟨policy, -, -, hpolicy, -⟩ := decision_of_due (hreleased first hfirst) (hdue first hfirst)
  -- Every case has a subject, and the executor decides on it as it has been approved.
  have hsubject : ∀ caseId ∈ job.caseIds, ∃ found, data.cases.find? (·.id == caseId) = some found ∧
      ∃ decision, decideRetention policy (data.subject found) data.clock = .ok decision ∧
        decision.action = .DELETE := by
    intro caseId hcase
    obtain ⟨policy', found, eligibleAt, hpolicy', hfind, -, hdecision⟩ :=
      decision_of_due (hreleased caseId hcase) (hdue caseId hcase)
    obtain rfl := Option.some.inj (hpolicy.symm.trans hpolicy')
    exact ⟨found, hfind, _, hdecision, rfl⟩
  have hlength : ∀ caseIds : List UUID, (∀ caseId ∈ caseIds, caseId ∈ job.caseIds) →
      (data.subjects caseIds).length = caseIds.length := by
    intro caseIds
    induction caseIds with
    | nil => exact fun _ => rfl
    | cons caseId caseIds ih =>
      intro hmem
      obtain ⟨hcase, hrest⟩ := List.forall_mem_cons.mp hmem
      obtain ⟨found, hfind, -⟩ := hsubject caseId hcase
      have hih := ih hrest
      rw [RetentionData.subjects] at hih ⊢
      rw [List.filterMap_cons, hfind, Option.map_some]
      dsimp only
      rw [List.length_cons, List.length_cons, hih]
  refine ⟨policy, hpolicy, beginGallringExecution_of_due happroved (hlength _ fun _ h => h) ?_⟩
  intro subject hmem
  obtain ⟨caseId, hcase, hsome⟩ := List.mem_filterMap.mp hmem
  obtain ⟨found, hfind, decision, hdecision, hdelete⟩ := hsubject caseId hcase
  rw [hfind, Option.map_some, Option.some.injEq] at hsome
  obtain ⟨-, rfl⟩ := exists_of_find?_key hfind
  subst hsome
  refine ⟨rfl, hcase, decision, hdecision, ?_, ?_⟩
  · rw [hdelete]
    exact nofun
  · rw [hdelete]
    exact hjobOk.action.symm

theorem destroysOnly_of_erases {permitted : UUID → Prop} {left : RetentionData}
    (herases : ErasesOnly permitted (data.begun job.id) left) (hobjects : left.objects ⊆ data'.objects)
    (hframe : data' = { left with
      jobs := data'.jobs, reports := data'.reports, objects := data'.objects }) :
    DestroysOnly permitted data data' := by
  have hdocuments : data'.documents = left.documents := by rw [hframe]
  have hversions : data'.versions = left.versions := by rw [hframe]
  have hmessages : data'.messages = data.messages := by
    rw [hframe, herases.frame]
    rfl
  refine ⟨fun document hmem hgone => ?_, fun version hmem hgone => ?_,
    fun message hmem hgone => ?_, fun key hmem hgone => ?_⟩
  · rw [hdocuments] at hgone
    exact herases.permittedDocuments document hmem hgone
  · rw [hversions] at hgone
    exact herases.permittedVersions version hmem hgone
  · rw [hmessages] at hgone
    exact absurd hmem hgone
  · exact herases.permittedObjects key hmem fun h => hgone (hobjects h)

theorem outcomes_verified {outcomes : List GallringTargetOutcome} {left : RetentionData}
    (hrefuses : ∀ caseId ∈ job.caseIds, ∀ key ∈ data.caseObjectKeys caseId, env.refuses key = false)
    (herased : eraseCases env [] job.caseIds (data.begun job.id) = (.ok outcomes, left)) :
    ∀ outcome ∈ outcomes, outcome.verified = true := by
  obtain ⟨counted, -, rfl, hcounted⟩ := eraseCases_eq_ok herased
  refine allOutcomes_verified fun counts hcounts => ?_
  obtain ⟨caseId, hcase, found, hfound, rfl⟩ := hcounted counts hcounts
  refine List.countP_eq_zero.mpr fun key hkey => ?_
  rw [hrefuses caseId hcase key (hfound.caseObjectKeys_subset hkey)]
  exact Bool.false_ne_true

theorem outcomes_targets {outcomes : List GallringTargetOutcome} {left : RetentionData}
    (hjobOk : JobOk job)
    (herased : eraseCases env [] job.caseIds (data.begun job.id) = (.ok outcomes, left))
    (target : GallringTarget) :
    target ∈ outcomes.map (·.target) ↔ target ∈ job.plannedTargets := by
  obtain ⟨counted, hlength, rfl, -⟩ := eraseCases_eq_ok herased
  have hne : counted ≠ [] := by
    rintro rfl
    exact hjobOk.covers (List.length_eq_zero_iff.mp hlength.symm)
  rw [hjobOk.targets]
  exact allOutcomes_targets hne target

theorem executorPath_of_reported {outcomes : List GallringTargetOutcome} {left : RetentionData}
    {report : GallringReport} {key : StoredKey} (hjobOk : JobOk job)
    (happroved : job.state = .APPROVED)
    (hbegin : BeginsInExecutor data job
      (({ job with state := .EXECUTING } : GallringJobRow).toJob data.tenantId))
    (herases : ErasesOnly (· ∈ job.caseIds) (data.begun job.id) left)
    (herased : eraseCases env [] job.caseIds (data.begun job.id) = (.ok outcomes, left))
    (hverified : ∀ outcome ∈ outcomes, outcome.verified = true)
    (hreport : buildGallringReport (job.reportInput left (mergeOutcomes outcomes)) = .ok report)
    (hstored : ⟨job.id, report, key⟩ ∈ data'.reports) :
    ExecutorPath data data' job
      (({ job with state := .REPORTED } : GallringJobRow).toJob data.tenantId) := by
  have hmerges := mergeOutcomes_merges outcomes
  have hall := hmerges.verified.mpr hverified
  obtain ⟨approvedBy, happrovedBy⟩ := Option.isSome_iff_exists.mp (hjobOk.approved happroved)
  have hinput : job.reportInput left (mergeOutcomes outcomes) =
      ⟨data.tenantId, job.id, job.policyKey, job.policyVersion, job.retentionClass, approvedBy,
        ⟨some data.clock⟩, job.caseIds, mergeOutcomes outcomes⟩ := by
    rw [GallringJobRow.reportInput, herases.frame, happrovedBy]
    rfl
  have hcomplete : report.complete = true := (buildGallringReport_eq_ok hreport).2.mpr hall
  rw [hinput] at hreport
  refine .reported hbegin (verifyGallringExecution_of_verified rfl hmerges.distinct
    (fun target => ?_) hall) (completeGallring_of_complete rfl happrovedBy hreport hcomplete)
    hstored
  rw [hmerges.targets]
  exact outcomes_targets hjobOk herased target

theorem refines_of_assign {f : GallringJobRow → GallringJobRow} (hok : RunsOk data)
    (hjob : job ∈ data.jobs) (hjobs : data'.jobs = (data.assignJob job.id f).jobs)
    (hid : (f job).id = job.id)
    (hpath : ExecutorPath data data' job ((f job).toJob data.tenantId)) :
    ∀ first ∈ data.jobs, ∀ job' ∈ data'.jobs, job'.id = first.id →
      job' = first ∨ ExecutorPath data data' first (job'.toJob data.tenantId) := by
  intro first hfirst job' hjob' hsame
  rw [hjobs] at hjob'
  rcases (mem_assignJob hok.ids hjob).mp hjob' with rfl | ⟨hold, -⟩
  · obtain rfl := eq_of_key_eq hok.ids hfirst hjob (hsame.symm.trans hid)
    exact .inr hpath
  · exact .inl (eq_of_key_eq hok.ids hold hfirst hsame)

theorem eq_of_becomes_reported {f : GallringJobRow → GallringJobRow} (hok : RunsOk data)
    (hjob : job ∈ data.jobs) (hjobs : data'.jobs = (data.assignJob job.id f).jobs)
    {job' : GallringJobRow} (hjob' : job' ∈ data'.jobs) (hnew : job' ∉ data.jobs) :
    job' = f job := by
  rw [hjobs] at hjob'
  rcases (mem_assignJob hok.ids hjob).mp hjob' with rfl | ⟨hold, -⟩
  · rfl
  · exact absurd hold hnew

theorem lawfulExecution_of_due (hok : RunsOk data)
    (hdue : ExecutesDueCases env data gallringJobId) :
    LawfulExecution data gallringJobId (handleRetentionExecute env gallringJobId data).2 := by
  have hleaves := handleRetentionExecute_leaves hok env gallringJobId
  generalize (handleRetentionExecute env gallringJobId data).2 = data' at hleaves
  cases hleaves with
  | unchanged =>
    refine ⟨⟨fun _ h h' => absurd h h', fun _ h h' => absurd h h', fun _ h h' => absurd h h',
      fun _ h h' => absurd h h'⟩, fun job hjob job' hjob' hid => ?_, fun _ h _ h' => absurd h h'⟩
    exact .inl (eq_of_key_eq hok.ids hjob' hjob hid)
  | @abandoned job hjob hid happroved =>
    refine ⟨⟨fun _ h h' => absurd h h', fun _ h h' => absurd h h', fun _ h h' => absurd h h',
      fun _ h h' => absurd h h'⟩, refines_of_assign hok hjob rfl rfl (.abandoned
        (abandonGallring_of_not_reported "LEGAL_HOLD_ACTIVE" ?_)), ?_⟩
    · show job.state ≠ .REPORTED
      rw [happroved]
      exact nofun
    · intro job' hjob' hstate hnew
      obtain rfl := eq_of_becomes_reported hok hjob rfl hjob' hnew
      cases hstate
  | @begun job _ hjob hid hbegins hleaves =>
    have hjobOk := hok.jobs job hjob
    have hcases := hdue job hjob hid hbegins
    have hbegin := beginsInExecutor_of_due hjobOk hbegins.approved hbegins.released
      fun caseId hcase => (hcases caseId hcase).1
    have hpermits : ∀ caseId ∈ job.caseIds, ∃ job ∈ data.jobs, job.id = gallringJobId ∧
        caseId ∈ job.caseIds ∧ data.StillDue job caseId := fun caseId hcase =>
      ⟨job, hjob, hid, hcase, stillDue_of_due hjobOk.action (hbegins.released caseId hcase)
        (hcases caseId hcase).1⟩
    cases hleaves with
    | @interrupted left key herases =>
      have hjobs := interrupted_jobs key herases
      refine ⟨?_, refines_of_assign hok hjob hjobs rfl (.begun hbegin), ?_⟩
      · cases key with
        | none => exact destroysOnly_of_erases (herases.mono hpermits) (fun _ h => h) rfl
        | some key =>
          exact destroysOnly_of_erases (herases.mono hpermits) (fun _ => List.mem_insert_of_mem) rfl
      · intro job' hjob' hstate hnew
        obtain rfl := eq_of_becomes_reported hok hjob hjobs hjob' hnew
        cases hstate
    | @reported left outcomes report key herases herased hreport =>
      have hverified := outcomes_verified (fun caseId hcase => (hcases caseId hcase).2) herased
      have hstored : ⟨job.id, report, key⟩ ∈
          ((left.storing key).reportedWith ⟨job.id, report, key⟩).reports :=
        List.mem_append_right _ (List.mem_singleton_self _)
      have hjobs := reported_jobs report key herases
      refine ⟨destroysOnly_of_erases (herases.mono hpermits) (fun _ => List.mem_insert_of_mem) rfl,
        refines_of_assign hok hjob hjobs rfl (executorPath_of_reported hjobOk hbegins.approved
          hbegin herases herased hverified hreport hstored), ?_⟩
      intro job' hjob' hstate hnew
      obtain rfl := eq_of_becomes_reported hok hjob hjobs hjob' hnew
      refine ⟨_, hstored, rfl, ?_⟩
      have hinput := (buildGallringReport_eq_ok hreport).1
      show ∀ outcome ∈ report.outcomes, outcome.verified = true
      rw [hinput]
      exact (mergeOutcomes_merges outcomes).verified.mpr hverified

end Lawful

/-! ## Over the runs of the system -/

def DueStep (data : RetentionData) : RetentionStep → Prop
  | .execute env gallringJobId => ExecutesDueCases env data gallringJobId
  | .surroundings _ | .queue .. | .approve .. => True

def LawfulStep (data : RetentionData) : RetentionStep → Prop
  | .execute env gallringJobId =>
    LawfulExecution data gallringJobId (handleRetentionExecute env gallringJobId data).2
  | .surroundings _ | .queue .. | .approve .. => True

/--
If every run that an execution begins with has only cases that are due for deletion then, and no
object of them resists, every execution destroys only what is still decided to be destroyed, and
leads its run where the executor leads it.
-/
theorem executions_lawful {data : RetentionData} {steps : List RetentionStep}
    (hnone : NoRuns data) (hdue : Meets retentionStep DueStep data steps) :
    Meets retentionStep LawfulStep data steps := by
  have hkeeps : ∀ data step data', RunsOk data → DueStep data step →
      retentionStep data step = some data' → RunsOk data' :=
    fun _ _ _ hok _ h => hok.step h
  refine meets_of_meets hkeeps (fun data step hok h => ?_) hnone.runsOk hdue
  cases step with
  | execute env gallringJobId => exact lawfulExecution_of_due hok h
  | surroundings next => trivial
  | queue subjectId policyKey caseIds gallringJobId => trivial
  | approve subjectId gallringJobId => trivial

def retainedCase : RetentionData where
  tenantId := "tenant"
  clock := 31 * 86400000
  policies := [⟨"cases", 1,
    ⟨"cases", 1, .business_data, .delete_after_period, some 30, true, none⟩, true⟩]
  cases := [⟨"case", "completed", some 0⟩]
  legalHolds := []
  archiveExports := []
  jobs := []
  reports := []
  executions := []
  documents := [⟨"document", "case"⟩]
  versions := [⟨"version", "document", .ready, "source.pdf", none⟩]
  packages := []
  packageFiles := []
  processorReports := []
  versionReferences := []
  messages := []
  objects := ["source.pdf"]

def approvedRun : GallringJobRow where
  id := "run"
  state := .APPROVED
  policyKey := "cases"
  policyVersion := 1
  retentionClass := .business_data
  caseIds := ["case"]
  queuedDecision := ⟨.DELETE, "RETENTION_PERIOD_ELAPSED", 31 * 86400000⟩
  plannedTargets := MANDATORY_CASE_TARGETS
  requestedBy := "requester"
  requestedAt := 31 * 86400000
  approvedBy := some "approver"
  approvedAt := some (31 * 86400000)
  abandonedReason := none

def queueAndApprove : List RetentionStep :=
  [.queue "requester" "cases" ["case"] "run", .approve "approver" "run"]

def approvedCase : RetentionData :=
  { retainedCase with jobs := [approvedRun], executions := ["run"] }

theorem run_queueAndApprove : run retentionStep retainedCase queueAndApprove = some approvedCase := by
  decide +kernel

def everythingPasses : RetentionEnvironment := ⟨fun _ => .passes, true, true⟩

theorem executions_lawful_retainedCase : Meets retentionStep LawfulStep retainedCase
    (queueAndApprove ++ [.execute everythingPasses "run"]) := by
  refine executions_lawful ⟨rfl, rfl⟩ ⟨trivial, fun s₁ h₁ => ⟨trivial, fun s₂ h₂ => ⟨?_, ?_⟩⟩⟩
  · have hrun : run retentionStep retainedCase queueAndApprove = some s₂ :=
      run_cons_eq_some.mpr ⟨s₁, h₁, run_cons_eq_some.mpr ⟨s₂, h₂, rfl⟩⟩
    obtain rfl := Option.some.inj (run_queueAndApprove.symm.trans hrun)
    intro job hjob _ _ caseId hcase
    obtain rfl := List.mem_singleton.mp hjob
    obtain rfl := List.mem_singleton.mp hcase
    refine ⟨⟨⟨"cases", 1, .business_data, .delete_after_period, some 30, true, none⟩,
      ⟨"case", "completed", some 0⟩, 0, rfl, rfl, ?_⟩, fun _ _ => rfl⟩
    exact ⟨by decide, rfl, rfl, by decide, rfl, by decide, by decide⟩
  · exact fun _ _ => trivial

/-- After the approval, a new version of the policy retains the cases for ever. -/
def retainsForEver : RetentionData :=
  { retainedCase with policies := [⟨"cases", 1,
      ⟨"cases", 1, .business_data, .delete_after_period, some 30, true, none⟩, false⟩,
    ⟨"cases", 2, ⟨"cases", 2, .business_data, .retain_forever, none, true, none⟩, true⟩] }

/-- The execution does not ask the policy, and destroys the document of the case. -/
theorem destroys_retained_case : ∃ data steps, NoRuns data ∧
    (run retentionStep data steps).isSome = true ∧ ¬Meets retentionStep LawfulStep data steps := by
  refine ⟨retainedCase, queueAndApprove ++
    [.surroundings retainsForEver, .execute everythingPasses "run"], ⟨rfl, rfl⟩, by decide +kernel, ?_⟩
  intro h
  obtain ⟨-, h⟩ := (meets_append h run_queueAndApprove).2
  obtain ⟨hlawful, -⟩ := h { retainsForEver with jobs := [approvedRun], executions := ["run"] } rfl
  obtain ⟨caseId, ⟨job, hjob, -, -, hdue⟩, -⟩ :=
    hlawful.destroys.objects "source.pdf" (by decide) (by decide +kernel)
  obtain rfl := List.mem_singleton.mp hjob
  obtain ⟨policy, found, decision, hpolicy, hfind, hdecision, haction, -⟩ := hdue
  have hloaded : retainsForEver.loadPolicy "cases" = some policy := hpolicy
  have hretains : (retainsForEver.loadPolicy "cases").map RetentionPolicy.mode =
      some .retain_forever := by
    decide +kernel
  rw [hloaded, Option.map_some, Option.some.injEq] at hretains
  rcases (decideRetention_due hdecision haction).2 with ⟨-, hmode⟩ | ⟨-, hmode⟩
  · rw [hretains] at hmode
    cases hmode
  · rw [hretains] at hmode
    cases hmode

end Kommunsign
