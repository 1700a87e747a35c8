import Kommunsign.Infra.Run
import Kommunsign.Worker.RetentionRuns

/-!
# What the database lets pass of the runs of a gallring

Besides the repository and its job, statements write the rows of the runs in any way that the
constraints and the trigger of `app.gallring_jobs` let pass.

* `guardedGallringJobs` — the table of the runs with all of its guards
* `GallringRecords` — the runs of a tenant, and what has come of them so far
* `gallringWrite` — an operation on the runs, or a statement on their table
-/

namespace Kommunsign

open Infra

/-! ## The guards -/

/-- The constraints of `app.gallring_jobs` on a row, beside the other rows. -/
def gallringRowConstraints (others : List GallringJobRow) (new : GallringJobRow) : Checks :=
  violates (others.any fun job => job.id == new.id) "gallring_jobs_pkey" ++
  violates (new.policyVersion ≤ 0) "gallring_jobs_policy_version_check" ++
  violates new.caseIds.isEmpty "gallring_jobs_case_ids_check" ++
  violates (new.approvedBy == some new.requestedBy) "gallring_jobs_distinct_approver" ++
  violates (new.approvedBy.isSome != new.approvedAt.isSome) "gallring_jobs_approval_complete" ++
  violates (new.state.isActive && others.any fun job =>
    job.state.isActive && job.caseIds.head? == new.caseIds.head?) "gallring_jobs_active_case_idx"

/-- The reports refer to the runs by their ids. -/
def gallringReportsReference (data : RetentionData) (old : GallringJobRow) : Checks :=
  violates (data.reports.any fun report => report.gallringJobId == old.id)
    "gallring_reports_tenant_id_gallring_job_id_fkey"

def guardedGallringJobs : Table RetentionData RetentionFault GallringJobRow where
  rows := RetentionData.jobs
  put rows data := { data with jobs := rows }
  onInsert data new := retentionGuard (gallringRowConstraints data.jobs new)
  onUpdate data old new := retentionGuard (
    assertGallringTransition data old new ++
    gallringRowConstraints (data.jobs.filter fun job => job.id != old.id) new ++
    if new.id = old.id then [] else gallringReportsReference data old)
  onDelete data old := retentionGuard (gallringReportsReference data old)

/-! ## The runs of a tenant -/

/-- What a run is to destroy, and under which version of which policy. -/
structure GallringTerms where
  gallringJobId : UUID
  policyKey : String
  policyVersion : Int
  retentionClass : RetentionClass
  caseIds : List UUID
  plannedTargets : List GallringTarget
  deriving DecidableEq

def GallringJobRow.terms (job : GallringJobRow) : GallringTerms where
  gallringJobId := job.id
  policyKey := job.policyKey
  policyVersion := job.policyVersion
  retentionClass := job.retentionClass
  caseIds := job.caseIds
  plannedTargets := job.plannedTargets

structure GallringRecords where
  data : RetentionData
  /-- The states in which runs have been inserted. -/
  started : List GallringState
  /-- The terms that runs had when they became `APPROVED`. -/
  approved : List GallringTerms
  /-- The terms of the runs that the job has taken up. -/
  executed : List GallringTerms

/-- The states of the rows that have been added at the end. -/
def startedStates (before after : List GallringJobRow) : List GallringState :=
  (after.drop before.length).map (·.state)

/-- The terms of the rows that have become `APPROVED`. -/
def approvedTerms (before after : List GallringJobRow) : List GallringTerms :=
  (before.zip after).filterMap fun (old, new) =>
    if old.state ≠ .APPROVED ∧ new.state = .APPROVED then some new.terms else none

/-- The terms of the run that the job goes on with. -/
def takenUp (data : RetentionData) : RetentionStep → List GallringTerms
  | .execute _ gallringJobId =>
    ((data.jobs.find? (·.id == gallringJobId)).filter (·.state == .APPROVED)).toList.map (·.terms)
  | .surroundings _ | .queue .. | .approve .. => []

def GallringRecords.after (s : GallringRecords) (data : RetentionData)
    (executed : List GallringTerms) : GallringRecords where
  data := data
  started := s.started ++ startedStates s.data.jobs data.jobs
  approved := s.approved ++ approvedTerms s.data.jobs data.jobs
  executed := s.executed ++ executed

inductive GallringWrite where
  | operation (step : RetentionStep)
  | insert (row : GallringJobRow)
  | update (gallringJobId : UUID) (f : GallringJobRow → GallringJobRow)

def gallringWrite (s : GallringRecords) : GallringWrite → Option GallringRecords
  | .operation step => do
    let data ← retentionStep s.data step
    return s.after data (takenUp s.data step)
  | .insert row => do
    let data ← (guardedGallringJobs.insert row).outcome s.data
    return s.after data []
  | .update gallringJobId f => do
    let data ← (guardedGallringJobs.update (·.id == gallringJobId) f).outcome s.data
    return s.after data []

/-! ## What an execution leaves of the rows -/

/-- The run has been approved, or has been given up. -/
def GallringState.isDecided : GallringState → Bool
  | .QUEUED | .PLANNED => false
  | .APPROVED | .EXECUTING | .VERIFIED | .REPORTED | .ABANDONED => true

/-- A row that has gone on with its run. -/
structure KeepsRun (old new : GallringJobRow) : Prop where
  terms : new.terms = old.terms
  decided : old.state.isDecided = true → new.state.isDecided = true
  approved : new.state.isApproved = true → old.state.isApproved = true
  active : new.state.isActive = true → old.state.isActive = true

theorem KeepsRun.refl (job : GallringJobRow) : KeepsRun job job := ⟨rfl, id, id, id⟩

theorem KeepsRun.trans {a b c : GallringJobRow} (h : KeepsRun a b) (h' : KeepsRun b c) :
    KeepsRun a c :=
  ⟨h'.terms.trans h.terms, h'.decided ∘ h.decided, h.approved ∘ h'.approved, h.active ∘ h'.active⟩

/-- Every row goes on with its run. -/
def KeepsRuns (data data' : RetentionData) : Prop := List.Forall₂ KeepsRun data.jobs data'.jobs

theorem keepsRuns_of_jobs_eq {data data' : RetentionData} (h : data'.jobs = data.jobs) :
    KeepsRuns data data' := by
  rw [KeepsRuns, h]
  exact List.forall₂_same.mpr fun job _ => .refl job

theorem KeepsRuns.refl (data : RetentionData) : KeepsRuns data data := keepsRuns_of_jobs_eq rfl

theorem forall₂_keepsRun_trans : ∀ {as bs cs : List GallringJobRow},
    List.Forall₂ KeepsRun as bs → List.Forall₂ KeepsRun bs cs → List.Forall₂ KeepsRun as cs
  | _, _, _, .nil, .nil => .nil
  | _, _, _, .cons h hs, .cons h' hs' => .cons (h.trans h') (forall₂_keepsRun_trans hs hs')

theorem KeepsRuns.trans {data data₁ data' : RetentionData} (h : KeepsRuns data data₁)
    (h' : KeepsRuns data₁ data') : KeepsRuns data data' := forall₂_keepsRun_trans h h'

theorem keeps_of_allowed {old new : GallringState}
    (hnew : new ≠ .QUEUED ∧ new ≠ .PLANNED ∧ new ≠ .APPROVED)
    (hallowed : new = old ∨ new ∈ old.allowed) :
    (old.isDecided = true → new.isDecided = true) ∧
      (new.isApproved = true → old.isApproved = true) ∧
      (new.isActive = true → old.isActive = true) := by
  revert hnew hallowed
  cases old <;> cases new <;> decide

theorem allowed_of_onUpdate {data : RetentionData} {old new : GallringJobRow}
    (h : refuse (assertGallringTransition data old new) = .ok ()) :
    new.state = old.state ∨ new.state ∈ old.state.allowed := by
  simp only [assertGallringTransition, refuse_append, refuse_raises, Bool.and_eq_false_imp,
    bne_iff_ne, ne_eq, decide_eq_false_iff_not, not_not] at h
  by_cases hsame : new.state = old.state
  · exact Or.inl hsame
  · exact Or.inr (h.1.1.1.1 hsame)

section Execution

variable {env : RetentionEnvironment}

theorem within_moveRun (gallringJobId : UUID) (state : GallringState)
    (hstate : state ≠ .QUEUED ∧ state ≠ .PLANNED ∧ state ≠ .APPROVED)
    (reason : GallringJobRow → Option String) (data : RetentionData) :
    Transaction.Within KeepsRuns (gallringJobs.update (·.id == gallringJobId) fun job =>
      { job with state := state, abandonedReason := reason job }) data := by
  intro n data' h
  obtain ⟨hguards, rfl, -⟩ := Table.update_eq_ok.mp h
  refine forall₂_assign .refl fun job hjob hid => ?_
  have hguard := hguards job hjob hid
  simp only [gallringJobs, retentionGuard_eq_ok, refuse_append] at hguard
  obtain ⟨hdecided, happroved, hactive⟩ :=
    keeps_of_allowed hstate (allowed_of_onUpdate hguard.1.1)
  exact ⟨rfl, hdecided, happroved, hactive⟩

theorem within_startExecution (gallringJobId : UUID) (data : RetentionData) :
    Transaction.Within KeepsRuns (startExecution gallringJobId) data := by
  unfold startExecution
  refine .bind (fun _ _ _ => .trans) ?_ fun _ _ _ => .pure .refl _
  exact within_moveRun gallringJobId .EXECUTING (by decide) (·.abandonedReason) data

theorem within_abandonJob (gallringJobId : UUID) (reason : String) (data : RetentionData) :
    Transaction.Within KeepsRuns (abandonJob gallringJobId reason) data := by
  unfold abandonJob
  refine .bind (fun _ _ _ => .trans) ?_ fun _ _ _ => .pure .refl _
  exact within_moveRun gallringJobId .ABANDONED (by decide) (fun _ => some reason) data

theorem within_moveToExecuting (gallringJobId : UUID) :
    Process.Within KeepsRuns (moveToExecuting env gallringJobId) := by
  refine .recover .trans (within_stage .refl (within_startExecution gallringJobId))
    fun fault y hy => ?_
  by_cases hheld : fault = .database (.raised legalHoldMessage)
  · rw [if_pos hheld] at hy
    obtain rfl := Option.some.inj hy
    exact .bind .trans (within_stage .refl (within_abandonJob gallringJobId _))
      fun _ => .raise .refl _
  · rw [if_neg hheld] at hy
    cases hy

theorem within_insertReport (report : StoredReport) (data : RetentionData) :
    Transaction.Within KeepsRuns (insertReport report) data := by
  unfold insertReport
  refine .bind (fun _ _ _ => .trans) (.read .refl) fun _ _ _ => .ite (fun _ => .pure .refl _)
    fun _ _ data' h => ?_
  obtain ⟨-, rfl⟩ := Table.insert_eq_ok.mp h
  exact .refl _

theorem within_recordReport (report : StoredReport) (data : RetentionData) :
    Transaction.Within KeepsRuns (recordReport report) data := by
  unfold recordReport
  refine .bind (fun _ _ _ => .trans) ?_ fun _ data₁ _ => ?_
  · exact within_moveRun report.gallringJobId .VERIFIED (by decide) (·.abandonedReason) data
  refine .bind (fun _ _ _ => .trans) (within_insertReport report data₁) fun _ data₂ _ => ?_
  refine .bind (fun _ _ _ => .trans) ?_ fun _ _ _ => .pure .refl _
  exact within_moveRun report.gallringJobId .REPORTED (by decide) (·.abandonedReason) data₂

theorem within_reportGallring (gallring : GallringJobRow)
    (outcomes : List GallringTargetOutcome) :
    Process.Within KeepsRuns (reportGallring env gallring outcomes) := by
  unfold reportGallring
  refine .bind .trans (fun data => .refl data) fun data => ?_
  refine .bind .trans (.ofExcept .refl _) fun report => ?_
  refine .bind .trans (fun data => ?_) fun _ => within_stage .refl (within_recordReport _)
  -- storing the report does not touch the rows
  cases hput : env.outcome .putReport with
  | passes =>
    rw [call_of_passes hput]
    exact .refl data
  | fails =>
    rw [call_of_fails hput]
    exact .refl data
  | crashes =>
    rw [call_of_crashes hput]
    exact .refl data

theorem within_eraseCases (outcomes : List GallringTargetOutcome) (caseIds : List UUID) :
    Process.Within KeepsRuns (eraseCases env outcomes caseIds) := by
  intro data
  have herases : ErasesOnly (fun _ => True) data (eraseCases env outcomes caseIds data).2 :=
    eraseCases_erasesOnly fun _ _ => trivial
  exact keepsRuns_of_jobs_eq herases.jobs

theorem keepsRuns_execution (gallringJobId : UUID) (data : RetentionData) :
    KeepsRuns data (handleRetentionExecute env gallringJobId data).2 := by
  rcases handleRetentionExecute_cases env data gallringJobId with h | ⟨job, -, -, -, -, -, h⟩
  · rw [h]
    exact .refl data
  · rw [h]
    unfold executeGallring
    have hrest : Process.Within KeepsRuns (do
        let outcomes ← eraseCases env [] job.caseIds
        reportGallring env job (mergeOutcomes outcomes)) :=
      .bind .trans (within_eraseCases [] job.caseIds) fun outcomes => within_reportGallring job _
    exact Process.Within.bind .trans (within_moveToExecuting job.id) (fun _ => hrest) data

end Execution

end Kommunsign
