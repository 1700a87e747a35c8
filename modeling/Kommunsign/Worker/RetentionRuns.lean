import Kommunsign.Worker.RetentionErasure

/-!
# What the execution of a gallring leaves

* `JobOk`, `RunsOk` — what holds of the rows of the runs and their reports
* `ExecutionLeaves` — all that an execution can leave
-/

namespace Kommunsign

open Infra

/-! ## The rows of the runs -/

/-- What every row of a run satisfies. -/
structure JobOk (job : GallringJobRow) : Prop where
  covers : job.caseIds ≠ []
  targets : job.plannedTargets = MANDATORY_CASE_TARGETS
  action : job.queuedDecision.action = .DELETE
  distinct : job.approvedBy ≠ some job.requestedBy
  complete : job.approvedBy.isSome = job.approvedAt.isSome
  approved : job.state = .APPROVED → job.approvedBy.isSome = true

/-- What holds of the runs and of their reports. -/
structure RunsOk (data : RetentionData) : Prop where
  ids : (data.jobs.map (·.id)).Nodup
  jobs : ∀ job ∈ data.jobs, JobOk job
  reported : ∀ report ∈ data.reports, ∃ job ∈ data.jobs,
    job.id = report.gallringJobId ∧ job.state = .REPORTED

/-- The runs after one of them has changed. -/
def RetentionData.assignJob (data : RetentionData) (gallringJobId : UUID)
    (f : GallringJobRow → GallringJobRow) : RetentionData :=
  { data with jobs := assign (·.id == gallringJobId) f data.jobs }

section Jobs

variable {data data' : RetentionData} {job : GallringJobRow} {f : GallringJobRow → GallringJobRow}
  {n : Nat}

theorem RunsOk.find? (hok : RunsOk data) (hjob : job ∈ data.jobs) :
    data.jobs.find? (·.id == job.id) = some job := find?_of_mem hok.ids hjob

theorem updateJob_eq_ok (hids : (data.jobs.map (·.id)).Nodup) (hjob : job ∈ data.jobs) :
    gallringJobs.update (·.id == job.id) f data = .ok (n, data') ↔
      gallringJobs.onUpdate data job (f job) = .ok () ∧ data' = data.assignJob job.id f ∧
        n = data.jobs.countP (·.id == job.id) := by
  rw [Table.update_eq_ok]
  refine and_congr_left' ⟨fun h => h job hjob (beq_self_eq_true _), fun h row hrow hid => ?_⟩
  rw [eq_of_key_eq hids hrow hjob (beq_iff_eq.mp hid)]
  exact h

theorem updateJob_eq_error (hids : (data.jobs.map (·.id)).Nodup) (hjob : job ∈ data.jobs)
    {fault : RetentionFault} (h : gallringJobs.onUpdate data job (f job) = .error fault) :
    gallringJobs.update (·.id == job.id) f data = .error fault := by
  cases hu : gallringJobs.update (·.id == job.id) f data with
  | ok r =>
    obtain ⟨n, data'⟩ := r
    cases ((updateJob_eq_ok hids hjob).mp hu).1.symm.trans h
  | error fault' =>
    obtain ⟨row, hrow, hid, he⟩ := Table.exists_of_update_error hu
    rw [eq_of_key_eq hids hrow hjob (beq_iff_eq.mp hid)] at he
    exact congrArg _ (Except.error.inj (he.symm.trans h))

theorem mem_assignJob (hids : (data.jobs.map (·.id)).Nodup) (hjob : job ∈ data.jobs)
    {row : GallringJobRow} : row ∈ (data.assignJob job.id f).jobs ↔
      row = f job ∨ row ∈ data.jobs ∧ row.id ≠ job.id := mem_assign_key hids hjob

theorem RunsOk.assignJob (hok : RunsOk data) (hjob : job ∈ data.jobs) (hid : (f job).id = job.id)
    (hjobOk : JobOk (f job)) (hstate : job.state = .REPORTED → (f job).state = .REPORTED) :
    RunsOk (data.assignJob job.id f) := by
  refine ⟨?_, fun row hrow => ?_, fun report hreport => ?_⟩
  · show ((assign (·.id == job.id) f data.jobs).map (·.id)).Nodup
    rw [map_assign fun row hrow hrowid => ?_]
    · exact hok.ids
    · rw [eq_of_key_eq hok.ids hrow hjob (beq_iff_eq.mp hrowid)]
      exact hid
  · rcases (mem_assignJob hok.ids hjob).mp hrow with rfl | ⟨hrow, -⟩
    · exact hjobOk
    · exact hok.jobs row hrow
  · obtain ⟨row, hrow, hrowid, hrowstate⟩ := hok.reported report hreport
    by_cases hne : row.id = job.id
    · obtain rfl := eq_of_key_eq hok.ids hrow hjob hne
      exact ⟨f row, (mem_assignJob hok.ids hjob).mpr (.inl rfl), hid.trans hrowid,
        hstate hrowstate⟩
    · exact ⟨row, (mem_assignJob hok.ids hjob).mpr (.inr ⟨hrow, hne⟩), hrowid, hrowstate⟩

theorem onUpdate_move_eq_ok (hok : JobOk job) {state : GallringState} (reason : Option String)
    (hallowed : state ∈ job.state.allowed) (happroved : state ≠ .APPROVED) :
    gallringJobs.onUpdate data job { job with state := state, abandonedReason := reason } = .ok () ↔
      (state = .EXECUTING → ∀ caseId ∈ job.caseIds, data.held caseId = false) ∧
      (state = .REPORTED → ∃ report ∈ data.reports, report.gallringJobId = job.id) := by
  have hdistinct : (job.approvedBy == some job.requestedBy) = false := by simpa using hok.distinct
  have htargets : job.plannedTargets.isEmpty = false := by rw [hok.targets]; rfl
  simp only [gallringJobs, retentionGuard_eq_ok, assertGallringTransition, refuse_append,
    refuse_raises, refuse_violates, hdistinct, htargets, hok.complete, bne_self_eq_false,
    Bool.and_false, and_true, Bool.and_eq_false_imp, Bool.and_eq_true, bne_iff_ne, ne_eq,
    decide_eq_false_iff_not, not_not, beq_iff_eq, List.any_eq_false, Bool.not_eq_false',
    List.any_eq_true, Bool.not_eq_true, happroved, and_false, false_imp_iff]
  have hne : state ≠ job.state := by
    rintro rfl
    revert hallowed
    cases job.state <;> decide
  constructor
  · rintro ⟨⟨-, hheld⟩, hreported⟩
    exact ⟨fun he => hheld ⟨hne, he⟩, fun hr => hreported ⟨hne, hr⟩⟩
  · rintro ⟨hheld, hreported⟩
    exact ⟨⟨fun _ => hallowed, fun h => hheld h.2⟩, fun h => hreported h.2⟩

theorem onUpdate_executing_held (hstate : job.state = .APPROVED)
    (hheld : ∃ caseId ∈ job.caseIds, data.held caseId = true) :
    gallringJobs.onUpdate data job { job with state := .EXECUTING } =
      .error (.database (.raised legalHoldMessage)) := by
  simp [gallringJobs, retentionGuard, assertGallringTransition, raises, refuse, hstate, hheld,
    GallringState.allowed]

/-! ## The move to `EXECUTING` -/

/-- The job has got as far as the cases of the run. -/
structure Begins (env : RetentionEnvironment) (data : RetentionData) (job : GallringJobRow) :
    Prop where
  putsObjects : env.putsObjects = true
  deletesObjects : env.deletesObjects = true
  load : env.outcome .load = .passes
  approved : job.state = .APPROVED
  begin : env.outcome .begin = .passes
  released : ∀ caseId ∈ job.caseIds, data.held caseId = false

/-- The run as it is executed. -/
def RetentionData.begun (data : RetentionData) (gallringJobId : UUID) : RetentionData :=
  data.assignJob gallringJobId fun job => { job with state := .EXECUTING }

def RetentionData.abandoned (data : RetentionData) (gallringJobId : UUID) : RetentionData :=
  data.assignJob gallringJobId fun job => { job with
    state := .ABANDONED, abandonedReason := some "LEGAL_HOLD_ACTIVE" }

variable {env : RetentionEnvironment}

theorem moveToExecuting_of_released (hok : RunsOk data) (hjob : job ∈ data.jobs)
    (hstate : job.state = .APPROVED) (hbegin : env.outcome .begin = .passes)
    (hreleased : ∀ caseId ∈ job.caseIds, data.held caseId = false) :
    moveToExecuting env job.id data = (.ok (), data.begun job.id) := by
  have hupdate : gallringJobs.onUpdate data job { job with state := .EXECUTING } = .ok () :=
    (onUpdate_move_eq_ok (hok.jobs job hjob) job.abandonedReason (by rw [hstate]; decide)
      (by decide)).mpr ⟨fun _ => hreleased, nofun⟩
  refine Process.recover_of_ok ?_
  rw [transaction_of_passes hbegin, Process.commit_eq_ok, startExecution, Transaction.bind_eq_ok]
  exact ⟨_, _, (updateJob_eq_ok hok.ids hjob).mpr ⟨hupdate, rfl, rfl⟩, rfl⟩

theorem moveToExecuting_of_not (hok : RunsOk data) (hjob : job ∈ data.jobs)
    (hstate : job.state = .APPROVED) (hnot : ¬(env.outcome .begin = .passes ∧
      ∀ caseId ∈ job.caseIds, data.held caseId = false)) :
    ∃ fault, moveToExecuting env job.id data = (.error fault, data) ∨
      moveToExecuting env job.id data = (.error fault, data.abandoned job.id) := by
  by_cases hbegin : env.outcome .begin = .passes
  · have hheld : ∃ caseId ∈ job.caseIds, data.held caseId = true := by
      by_contra hnone
      exact hnot ⟨hbegin, fun caseId hcase => Bool.eq_false_iff.mpr fun h =>
        hnone ⟨caseId, hcase, h⟩⟩
    have hupdate := updateJob_eq_error (f := fun job => { job with state := .EXECUTING }) hok.ids
      hjob (onUpdate_executing_held hstate hheld)
    have hstart : env.transaction .begin (startExecution job.id) data =
        (.error (.database (.raised legalHoldMessage)), data) := by
      rw [transaction_of_passes hbegin]
      refine Process.commit_of_error ?_
      simp only [startExecution, bind, hupdate]
    -- The hold is what the handler of the job looks for.
    rw [moveToExecuting, Process.recover_of_handled hstart (if_pos rfl)]
    by_cases habandon : env.outcome .abandon = .passes
    · have hmove : gallringJobs.onUpdate data job { job with
          state := .ABANDONED, abandonedReason := some "LEGAL_HOLD_ACTIVE" } = .ok () :=
        (onUpdate_move_eq_ok (hok.jobs job hjob) _ (by rw [hstate]; decide) (by decide)).mpr
          ⟨nofun, nofun⟩
      have habandoned : env.transaction .abandon (abandonJob job.id "LEGAL_HOLD_ACTIVE") data =
          (.ok (), data.abandoned job.id) := by
        rw [transaction_of_passes habandon, Process.commit_eq_ok, abandonJob,
          Transaction.bind_eq_ok]
        exact ⟨_, _, (updateJob_eq_ok hok.ids hjob).mpr ⟨hmove, rfl, rfl⟩, rfl⟩
      exact ⟨_, .inr (Process.bind_of_ok habandoned)⟩
    · rcases transaction_of_not_passes habandon with hfault | hfault
      · exact ⟨_, .inl (Process.bind_of_error hfault)⟩
      · exact ⟨_, .inl (Process.bind_of_error hfault)⟩
  · rcases transaction_of_not_passes hbegin with hfault | hfault
    · exact ⟨_, .inl (Process.recover_of_unhandled hfault (if_neg (by decide)))⟩
    · exact ⟨_, .inl (Process.recover_of_unhandled hfault (if_neg (by decide)))⟩

end Jobs

/-! ## The report -/

section Report

variable {env : RetentionEnvironment} {data data' : RetentionData} {job : GallringJobRow}
  {report : GallringReport} {stored : StoredReport} {outcomes : List GallringTargetOutcome}

/-- The columns take the report. -/
structure ReportFits (report : GallringReport) : Prop where
  covers : report.caseCount ≠ 0
  nonneg : 0 ≤ report.deletedTotal
  bounded : report.deletedTotal ≤ 2147483647
  consistent : report.complete = report.unverifiedTargets.isEmpty

def RetentionData.storing (data : RetentionData) (key : StoredKey) : RetentionData :=
  { data with objects := data.objects.insert key }

def RetentionData.recording (data : RetentionData) (stored : StoredReport) : RetentionData :=
  { data with reports := data.reports ++ [stored] }

/-- The data with the report of a run that is over. -/
def RetentionData.reportedWith (data : RetentionData) (stored : StoredReport) : RetentionData :=
  (data.recording stored).assignJob stored.gallringJobId fun job => { job with state := .REPORTED }

theorem insertReport_eq_ok
    (hnew : ∀ report ∈ data.reports, report.gallringJobId ≠ stored.gallringJobId) :
    insertReport stored data = .ok ((), data') ↔
      ReportFits stored.report ∧ data' = data.recording stored := by
  have hany : data.reports.any (·.gallringJobId == stored.gallringJobId) = false := by
    simpa using hnew
  have hguard : gallringReports.onInsert data stored = .ok () ↔ ReportFits stored.report := by
    simp only [gallringReports, retentionGuard_eq_ok, refuse_append, refuse_violates,
      beq_eq_false_iff_ne, decide_eq_false_iff_not, not_lt, bne_eq_false_iff_eq]
    exact ⟨fun h => ⟨h.1.1.1, h.1.1.2, h.1.2, h.2⟩, fun h =>
      ⟨⟨⟨h.covers, h.nonneg⟩, h.bounded⟩, h.consistent⟩⟩
  rw [insertReport, Transaction.read_bind, hany, if_neg Bool.false_ne_true, Table.insert_eq_ok,
    hguard]
  rfl

/-- The run between the two updates of the last transaction. -/
def RetentionData.verified (data : RetentionData) (gallringJobId : UUID) : RetentionData :=
  data.assignJob gallringJobId fun job => { job with state := .VERIFIED }

theorem recordReport_eq_ok (hok : RunsOk data) (hjob : job ∈ data.jobs)
    (hstate : job.state = .EXECUTING) (hid : stored.gallringJobId = job.id) :
    recordReport stored data = .ok ((), data') ↔
      ReportFits stored.report ∧ data' = data.reportedWith stored := by
  have hjobOk := hok.jobs job hjob
  have hverifiedOk : JobOk { job with state := .VERIFIED } :=
    ⟨hjobOk.covers, hjobOk.targets, hjobOk.action, hjobOk.distinct, hjobOk.complete, nofun⟩
  -- The first update, and the run as it is then.
  have hverify : gallringJobs.onUpdate data job { job with state := .VERIFIED } = .ok () :=
    (onUpdate_move_eq_ok hjobOk job.abandonedReason (by rw [hstate]; decide) (by decide)).mpr
      ⟨nofun, nofun⟩
  have hfirst : gallringJobs.update (·.id == job.id) (fun job => { job with state := .VERIFIED })
      data = .ok (data.jobs.countP (·.id == job.id), data.verified job.id) :=
    (updateJob_eq_ok hok.ids hjob).mpr ⟨hverify, rfl, rfl⟩
  have hok₁ : RunsOk (data.verified job.id) :=
    hok.assignJob hjob rfl hverifiedOk (by rw [hstate]; nofun)
  have hjob₁ : { job with state := .VERIFIED } ∈ (data.verified job.id).jobs :=
    (mem_assignJob hok.ids hjob).mpr (.inl rfl)
  have hnew : ∀ report ∈ (data.verified job.id).reports,
      report.gallringJobId ≠ stored.gallringJobId := by
    intro report hreport he
    obtain ⟨other, hother, hotherId, hreported⟩ := hok.reported report hreport
    obtain rfl := eq_of_key_eq hok.ids hother hjob (hotherId.trans (he.trans hid))
    rw [hstate] at hreported
    cases hreported
  -- The last update finds the report.
  have hids₂ : (((data.verified job.id).recording stored).jobs.map (·.id)).Nodup := hok₁.ids
  have hjob₂ : { job with state := .VERIFIED } ∈ ((data.verified job.id).recording stored).jobs :=
    hjob₁
  have hreport : gallringJobs.onUpdate ((data.verified job.id).recording stored)
      { job with state := .VERIFIED } { job with state := .REPORTED } = .ok () :=
    (onUpdate_move_eq_ok hverifiedOk job.abandonedReason
      (show GallringState.REPORTED ∈ GallringState.allowed .VERIFIED by decide) (by decide)).mpr
      ⟨nofun, fun _ => ⟨stored, List.mem_append_right _ (List.mem_singleton_self _), hid⟩⟩
  have hsame : ((data.verified job.id).recording stored).assignJob job.id
      (fun job => { job with state := .REPORTED }) = data.reportedWith stored := by
    rw [RetentionData.reportedWith, hid]
    exact congrArg (fun jobs => { data with jobs := jobs, reports := data.reports ++ [stored] })
      (assign_assign (p := (·.id == job.id)) (f := fun job => { job with state := .VERIFIED })
        fun _ _ h => h)
  have hlast : gallringJobs.update (·.id == job.id) (fun job => { job with state := .REPORTED })
      ((data.verified job.id).recording stored) =
        .ok (((data.verified job.id).recording stored).jobs.countP (·.id == job.id),
          data.reportedWith stored) := by
    rw [← hsame]
    exact (updateJob_eq_ok hids₂ hjob₂).mpr ⟨hreport, rfl, rfl⟩
  rw [recordReport, hid, Transaction.bind_eq_ok]
  constructor
  · rintro ⟨_, data₁, hdata₁, h⟩
    cases hfirst.symm.trans hdata₁
    obtain ⟨_, data₂, hinsert, h⟩ := Transaction.bind_eq_ok.mp h
    obtain ⟨hfits, rfl⟩ := (insertReport_eq_ok hnew).mp hinsert
    obtain ⟨_, data₃, hdata₃, h⟩ := Transaction.bind_eq_ok.mp h
    cases hlast.symm.trans hdata₃
    cases h
    exact ⟨hfits, rfl⟩
  · rintro ⟨hfits, rfl⟩
    exact ⟨_, _, hfirst, Transaction.bind_eq_ok.mpr
      ⟨(), _, (insertReport_eq_ok hnew).mpr ⟨hfits, rfl⟩, Transaction.bind_eq_ok.mpr
        ⟨_, _, hlast, rfl⟩⟩⟩

theorem reportGallring_leaves (env : RetentionEnvironment)
    (outcomes : List GallringTargetOutcome) (hok : RunsOk data) (hjob : job ∈ data.jobs)
    (hstate : job.state = .EXECUTING) {gallring : GallringJobRow} (hid : gallring.id = job.id) :
    (reportGallring env gallring outcomes data).2 = data ∨
    (reportGallring env gallring outcomes data).2 = data.storing (data.reportKey gallring.id) ∨
    ∃ report, buildGallringReport (gallring.reportInput data outcomes) = .ok report ∧
      (reportGallring env gallring outcomes data).2 =
        (data.storing (data.reportKey gallring.id)).reportedWith
          ⟨gallring.id, report, data.reportKey gallring.id⟩ := by
  rw [reportGallring, Process.state_bind]
  cases hbuild : buildGallringReport (gallring.reportInput data outcomes) with
  | error e => exact .inl (congrArg Prod.snd (Process.ofExcept_bind_of_error rfl))
  | ok report =>
    have hbuilt : (Except.ok report : Except RetentionError GallringReport).mapError
        RetentionFault.retention = .ok report := rfl
    rw [Process.ofExcept_bind_of_ok hbuilt]
    cases hput : env.outcome .putReport with
    | fails => exact .inl (by rw [Process.bind_of_error (call_of_fails hput)])
    | crashes => exact .inl (by rw [Process.bind_of_error (call_of_crashes hput)])
    | passes =>
      rw [Process.bind_of_ok (call_of_passes hput)]
      by_cases hpasses : env.outcome .report = .passes
      · rw [transaction_of_passes hpasses]
        have hstored : RunsOk (data.storing (data.reportKey gallring.id)) :=
          ⟨hok.ids, hok.jobs, hok.reported⟩
        cases hrecord : recordReport ⟨gallring.id, report, data.reportKey gallring.id⟩
            (data.storing (data.reportKey gallring.id)) with
        | error fault => exact .inr (.inl (by
            exact congrArg Prod.snd (Process.commit_of_error hrecord)))
        | ok r =>
          obtain ⟨u, data'⟩ := r
          obtain ⟨-, rfl⟩ := (recordReport_eq_ok hstored hjob hstate hid).mp hrecord
          exact .inr (.inr ⟨report, rfl, congrArg Prod.snd (Process.commit_of_ok hrecord)⟩)
      · rcases transaction_of_not_passes hpasses with hfault | hfault
        · exact .inr (.inl (congrArg Prod.snd hfault))
        · exact .inr (.inl (congrArg Prod.snd hfault))

theorem reportGallring_of_passes (hok : RunsOk data) (hjob : job ∈ data.jobs)
    (hstate : job.state = .EXECUTING) {gallring : GallringJobRow} (hid : gallring.id = job.id)
    (hput : env.outcome .putReport = .passes) (hreport : env.outcome .report = .passes)
    (hbuild : buildGallringReport (gallring.reportInput data outcomes) = .ok report)
    (hfits : ReportFits report) :
    (reportGallring env gallring outcomes data).2 =
      (data.storing (data.reportKey gallring.id)).reportedWith
        ⟨gallring.id, report, data.reportKey gallring.id⟩ := by
  have hbuilt : (buildGallringReport (gallring.reportInput data outcomes)).mapError
      RetentionFault.retention = .ok report := by
    rw [hbuild]
    rfl
  have hstored : RunsOk (data.storing (data.reportKey gallring.id)) :=
    ⟨hok.ids, hok.jobs, hok.reported⟩
  rw [reportGallring, Process.state_bind, Process.ofExcept_bind_of_ok hbuilt,
    Process.bind_of_ok (call_of_passes hput), transaction_of_passes hreport]
  exact congrArg Prod.snd (Process.commit_of_ok
    ((recordReport_eq_ok hstored hjob hstate hid).mpr ⟨hfits, rfl⟩))

end Report

/-! ## The execution -/

/-- All that an execution can leave of a run that it has begun. -/
inductive BegunLeaves (env : RetentionEnvironment) (data : RetentionData) (job : GallringJobRow) :
    RetentionData → Prop where
  /-- The run is `EXECUTING`, and stays so. -/
  | interrupted {left : RetentionData} (key : Option StoredKey)
      (herases : ErasesOnly (· ∈ job.caseIds) (data.begun job.id) left) :
      BegunLeaves env data job (key.elim left left.storing)
  | reported {left : RetentionData} {outcomes : List GallringTargetOutcome}
      {report : GallringReport} (key : StoredKey)
      (herases : ErasesOnly (· ∈ job.caseIds) (data.begun job.id) left)
      (herased : eraseCases env [] job.caseIds (data.begun job.id) = (.ok outcomes, left))
      (hreport : buildGallringReport (job.reportInput left (mergeOutcomes outcomes)) = .ok report) :
      BegunLeaves env data job ((left.storing key).reportedWith ⟨job.id, report, key⟩)

/-- All that an execution can leave. -/
inductive ExecutionLeaves (env : RetentionEnvironment) (data : RetentionData)
    (gallringJobId : UUID) : RetentionData → Prop where
  | unchanged : ExecutionLeaves env data gallringJobId data
  | abandoned {job : GallringJobRow} (hjob : job ∈ data.jobs) (hid : job.id = gallringJobId)
      (happroved : job.state = .APPROVED) :
      ExecutionLeaves env data gallringJobId (data.abandoned job.id)
  | begun {job : GallringJobRow} {data' : RetentionData} (hjob : job ∈ data.jobs)
      (hid : job.id = gallringJobId) (hbegins : Begins env data job)
      (hleaves : BegunLeaves env data job data') : ExecutionLeaves env data gallringJobId data'

section Execution

variable {env : RetentionEnvironment} {data data' : RetentionData} {job : GallringJobRow}
  {gallringJobId : UUID}

theorem RunsOk.begun (hok : RunsOk data) (hjob : job ∈ data.jobs)
    (happroved : job.state = .APPROVED) : RunsOk (data.begun job.id) := by
  have hjobOk := hok.jobs job hjob
  exact hok.assignJob hjob rfl ⟨hjobOk.covers, hjobOk.targets, hjobOk.action, hjobOk.distinct,
    hjobOk.complete, nofun⟩ (by rw [happroved]; nofun)

theorem mem_begun (hok : RunsOk data) (hjob : job ∈ data.jobs) :
    { job with state := .EXECUTING } ∈ (data.begun job.id).jobs :=
  (mem_assignJob hok.ids hjob).mpr (.inl rfl)

theorem ErasesOnly.runsOk {permitted : UUID → Prop} (h : ErasesOnly permitted data data')
    (hok : RunsOk data) : RunsOk data' := by
  rw [h.frame]
  exact ⟨hok.ids, hok.jobs, hok.reported⟩

theorem interrupted_jobs {permitted : UUID → Prop} {left : RetentionData} (key : Option StoredKey)
    (herases : ErasesOnly permitted (data.begun job.id) left) :
    (key.elim left left.storing).jobs = (data.begun job.id).jobs := by
  cases key with
  | none => exact herases.jobs
  | some key => exact herases.jobs

theorem reported_jobs {permitted : UUID → Prop} {left : RetentionData} (report : GallringReport)
    (key : StoredKey) (herases : ErasesOnly permitted (data.begun job.id) left) :
    ((left.storing key).reportedWith ⟨job.id, report, key⟩).jobs =
      (data.assignJob job.id fun job => { job with state := .REPORTED }).jobs := by
  show assign _ _ left.jobs = _
  rw [herases.jobs]
  exact assign_assign fun _ _ h => h

theorem executeGallring_leaves (hok : RunsOk data) (hjob : job ∈ data.jobs)
    (hbegins : Begins env data job) : BegunLeaves env data job (executeGallring env job data).2 := by
  have hmove := moveToExecuting_of_released hok hjob hbegins.approved hbegins.begin hbegins.released
  have herases : ErasesOnly (· ∈ job.caseIds) (data.begun job.id)
      (eraseCases env [] job.caseIds (data.begun job.id)).2 :=
    eraseCases_erasesOnly fun _ h => h
  rw [executeGallring, Process.bind_of_ok hmove]
  rcases herased : eraseCases env [] job.caseIds (data.begun job.id) with ⟨r, left⟩
  rw [herased] at herases
  cases r with
  | error fault =>
    rw [Process.bind_of_error herased]
    exact .interrupted none herases
  | ok outcomes =>
    rw [Process.bind_of_ok herased]
    have hleft : RunsOk left := herases.runsOk (hok.begun hjob hbegins.approved)
    have hmem : { job with state := .EXECUTING } ∈ left.jobs := by
      have hjobs : left.jobs = (data.begun job.id).jobs := herases.jobs
      rw [hjobs]
      exact mem_begun hok hjob
    have hsame : job.id = ({ job with state := .EXECUTING } : GallringJobRow).id := rfl
    rcases reportGallring_leaves env (mergeOutcomes outcomes) hleft hmem rfl hsame with
      h | h | ⟨report, hreport, h⟩
    · rw [h]
      exact .interrupted none herases
    · rw [h]
      exact .interrupted (some _) herases
    · rw [h]
      exact .reported _ herases herased hreport

theorem executeGallring_of_not (hok : RunsOk data) (hjob : job ∈ data.jobs)
    (happroved : job.state = .APPROVED) (hnot : ¬(env.outcome .begin = .passes ∧
      ∀ caseId ∈ job.caseIds, data.held caseId = false)) :
    (executeGallring env job data).2 = data ∨
      (executeGallring env job data).2 = data.abandoned job.id := by
  obtain ⟨fault, h | h⟩ := moveToExecuting_of_not hok hjob happroved hnot
  · exact .inl (congrArg Prod.snd (Process.bind_of_error h))
  · exact .inr (congrArg Prod.snd (Process.bind_of_error h))

theorem handleRetentionExecute_cases (env : RetentionEnvironment) (data : RetentionData)
    (gallringJobId : UUID) :
    (handleRetentionExecute env gallringJobId data).2 = data ∨
    ∃ job, data.jobs.find? (·.id == gallringJobId) = some job ∧ env.putsObjects = true ∧
      env.deletesObjects = true ∧ env.outcome .load = .passes ∧ job.state = .APPROVED ∧
      handleRetentionExecute env gallringJobId data = executeGallring env job data := by
  unfold handleRetentionExecute
  by_cases hputs : env.putsObjects = true
  swap
  · rw [if_pos hputs]
    exact .inl rfl
  by_cases hdeletes : env.deletesObjects = true
  swap
  · rw [if_neg (not_not.mpr hputs), if_pos hdeletes]
    exact .inl rfl
  rw [if_neg (not_not.mpr hputs), if_neg (not_not.mpr hdeletes)]
  by_cases hload : env.outcome .load = .passes
  swap
  · rcases transaction_of_not_passes hload with hfault | hfault
    · exact .inl (congrArg Prod.snd (Process.bind_of_error hfault))
    · exact .inl (congrArg Prod.snd (Process.bind_of_error hfault))
  have hloaded : env.transaction .load (do
      let data ← Transaction.read
      return data.jobs.find? (·.id == gallringJobId)) data =
        (.ok (data.jobs.find? (·.id == gallringJobId)), data) := by
    rw [transaction_of_passes hload]
    rfl
  rw [Process.bind_of_ok hloaded]
  cases hfind : data.jobs.find? (·.id == gallringJobId) with
  | none => exact .inl rfl
  | some job =>
    dsimp only
    by_cases hover : job.state = .REPORTED ∨ job.state = .ABANDONED
    · rw [if_pos hover]
      exact .inl rfl
    rw [if_neg hover]
    by_cases happroved : job.state = .APPROVED
    · rw [if_neg (not_not.mpr happroved)]
      exact .inr ⟨job, rfl, hputs, hdeletes, hload, happroved, rfl⟩
    · rw [if_pos happroved]
      exact .inl rfl

theorem handleRetentionExecute_of_not_approved
    (hnot : ∀ job ∈ data.jobs, job.id = gallringJobId → job.state ≠ .APPROVED) :
    (handleRetentionExecute env gallringJobId data).2 = data := by
  rcases handleRetentionExecute_cases env data gallringJobId with h | ⟨job, hfind, h⟩
  · exact h
  · obtain ⟨hjob, hid⟩ := exists_of_find?_key hfind
    exact absurd h.2.2.2.1 (hnot job hjob hid)

theorem handleRetentionExecute_of_begins (hok : RunsOk data) (hjob : job ∈ data.jobs)
    (hbegins : Begins env data job) :
    handleRetentionExecute env job.id data = executeGallring env job data := by
  have hloaded : env.transaction .load (do
      let data ← Transaction.read
      return data.jobs.find? (·.id == job.id)) data = (.ok (some job), data) := by
    rw [transaction_of_passes hbegins.load, Process.commit_eq_ok, Transaction.read_bind,
      hok.find? hjob]
    rfl
  rw [handleRetentionExecute, if_neg (not_not.mpr hbegins.putsObjects),
    if_neg (not_not.mpr hbegins.deletesObjects), Process.bind_of_ok hloaded]
  dsimp only
  rw [if_neg (by rw [hbegins.approved]; decide), if_neg (not_not.mpr hbegins.approved)]

theorem handleRetentionExecute_leaves (hok : RunsOk data) (env : RetentionEnvironment)
    (gallringJobId : UUID) : ExecutionLeaves env data gallringJobId
      (handleRetentionExecute env gallringJobId data).2 := by
  rcases handleRetentionExecute_cases env data gallringJobId with
    h | ⟨job, hfind, hputs, hdeletes, hload, happroved, h⟩
  · rw [h]
    exact .unchanged
  obtain ⟨hjob, rfl⟩ := exists_of_find?_key hfind
  rw [h]
  by_cases hbegins : env.outcome .begin = .passes ∧
      ∀ caseId ∈ job.caseIds, data.held caseId = false
  · have hbegins : Begins env data job :=
      ⟨hputs, hdeletes, hload, happroved, hbegins.1, hbegins.2⟩
    exact .begun hjob rfl hbegins (executeGallring_leaves hok hjob hbegins)
  · rcases executeGallring_of_not hok hjob happroved hbegins with h | h
    · rw [h]
      exact .unchanged
    · rw [h]
      exact .abandoned hjob rfl happroved

/-! ## The runs over the steps of the system -/

theorem RunsOk.storing (hok : RunsOk data) (key : StoredKey) : RunsOk (data.storing key) :=
  ⟨hok.ids, hok.jobs, hok.reported⟩

theorem RunsOk.reportedWith {stored : StoredReport} (hok : RunsOk data) (hjob : job ∈ data.jobs)
    (hid : stored.gallringJobId = job.id) : RunsOk (data.reportedWith stored) := by
  have hjobOk := hok.jobs job hjob
  have hassigned : RunsOk (data.assignJob job.id fun job => { job with state := .REPORTED }) :=
    hok.assignJob hjob rfl ⟨hjobOk.covers, hjobOk.targets, hjobOk.action, hjobOk.distinct,
      hjobOk.complete, nofun⟩ fun _ => rfl
  rw [RetentionData.reportedWith, hid]
  refine ⟨hassigned.ids, hassigned.jobs, fun report hreport => ?_⟩
  rcases List.mem_append.mp hreport with hold | hnew
  · exact hassigned.reported report hold
  · obtain rfl := List.mem_singleton.mp hnew
    exact ⟨{ job with state := .REPORTED }, (mem_assignJob hok.ids hjob).mpr (.inl rfl), hid.symm,
      rfl⟩

theorem RunsOk.execution (hok : RunsOk data) (h : ExecutionLeaves env data gallringJobId data') :
    RunsOk data' := by
  cases h with
  | unchanged => exact hok
  | abandoned hjob hid happroved =>
    have hjobOk := hok.jobs _ hjob
    exact hok.assignJob hjob rfl ⟨hjobOk.covers, hjobOk.targets, hjobOk.action, hjobOk.distinct,
      hjobOk.complete, nofun⟩ (by rw [happroved]; nofun)
  | @begun job _ hjob hid hbegins hleaves =>
    cases hleaves with
    | interrupted key herases =>
      have hleft := herases.runsOk (hok.begun hjob hbegins.approved)
      cases key with
      | none => exact hleft
      | some key => exact hleft.storing key
    | @reported left outcomes report key herases herased hreport =>
      have hmem : { job with state := .EXECUTING } ∈ (left.storing key).jobs := by
        show _ ∈ left.jobs
        rw [herases.jobs]
        exact mem_begun hok hjob
      have hleft := (herases.runsOk (hok.begun hjob hbegins.approved)).storing key
      exact hleft.reportedWith hmem rfl

theorem requireDue_state {policy : RetentionPolicy} {caseId : UUID} {u : Unit}
    (h : requireDue policy caseId data = .ok (u, data')) : data' = data := by
  rw [requireDue, Transaction.read_bind] at h
  cases hfind : data.cases.find? (·.id == caseId) with
  | none =>
    rw [hfind] at h
    exact (Transaction.fail_eq_ok.mp h).elim
  | some found =>
    rw [hfind] at h
    dsimp only at h
    by_cases hopen : found.completedAt.isNone = true
    · rw [if_pos hopen] at h
      exact (Transaction.fail_eq_ok.mp h).elim
    rw [if_neg hopen] at h
    cases hdecide : decideRetention policy (data.subject found) data.clock with
    | error e =>
      rw [hdecide] at h
      exact (Transaction.fail_eq_ok.mp h).elim
    | ok decision =>
      rw [hdecide] at h
      dsimp only at h
      by_cases hretain : decision.action = .RETAIN
      · rw [if_pos hretain] at h
        exact (Transaction.fail_eq_ok.mp h).elim
      · rw [if_neg hretain] at h
        exact (Transaction.pure_eq_ok.mp h).2

theorem forEach_requireDue {policy : RetentionPolicy} :
    ∀ {caseIds : List UUID} {data data' : RetentionData} {u : Unit},
      Transaction.forEach (requireDue policy) caseIds data = .ok (u, data') → data' = data
  | [], _, _, _, h => (Transaction.pure_eq_ok.mp h).2
  | _ :: _, _, _, _, h => by
    obtain ⟨_, data₁, hcase, hrest⟩ := Transaction.bind_eq_ok.mp h
    exact (forEach_requireDue hrest).trans (requireDue_state hcase)

/-- The run that is queued. -/
def RetentionData.plannedRun (data : RetentionData) (policy : RetentionPolicy)
    (subjectId : UUID) (policyKey : String) (caseIds : List UUID) (gallringJobId : UUID) :
    GallringJobRow where
  id := gallringJobId
  state := .PLANNED
  policyKey := policyKey
  policyVersion := policy.version
  retentionClass := policy.retentionClass
  caseIds := caseIds
  queuedDecision := ⟨.DELETE, "RETENTION_PERIOD_ELAPSED", data.clock⟩
  plannedTargets := MANDATORY_CASE_TARGETS
  requestedBy := subjectId
  requestedAt := data.clock
  approvedBy := none
  approvedAt := none
  abandonedReason := none

theorem queueGallring_eq_some {subjectId : UUID} {policyKey : String} {caseIds : List UUID}
    (h : (queueGallring subjectId policyKey caseIds gallringJobId).outcome data = some data') :
    caseIds ≠ [] ∧ ∃ policy,
      gallringJobs.onInsert data
        (data.plannedRun policy subjectId policyKey caseIds gallringJobId) = .ok () ∧
      data' = { data with
        jobs := data.jobs ++ [data.plannedRun policy subjectId policyKey caseIds gallringJobId] } := by
  obtain ⟨_, h⟩ := Transaction.outcome_eq_some.mp h
  rw [queueGallring, Transaction.read_bind] at h
  by_cases hempty : caseIds.length = 0
  · rw [if_pos hempty] at h
    exact (Transaction.fail_eq_ok.mp h).elim
  rw [if_neg hempty] at h
  obtain ⟨policy, data₁, hpolicy, h⟩ := Transaction.bind_eq_ok.mp h
  obtain ⟨-, rfl⟩ := Transaction.demand_eq_ok.mp hpolicy
  obtain ⟨_, data₂, hdue, h⟩ := Transaction.bind_eq_ok.mp h
  obtain rfl := forEach_requireDue hdue
  exact ⟨fun h => hempty (congrArg List.length h), policy, Table.insert_eq_ok.mp h⟩

theorem fresh_of_onInsert {row : GallringJobRow} (h : gallringJobs.onInsert data row = .ok ()) :
    ∀ job ∈ data.jobs, job.id ≠ row.id := by
  simp only [gallringJobs, retentionGuard_eq_ok, refuse_append, refuse_violates,
    List.any_eq_false, beq_iff_eq] at h
  exact h.1.1

theorem RunsOk.queue {subjectId : UUID} {policyKey : String} {caseIds : List UUID}
    (hok : RunsOk data)
    (h : (queueGallring subjectId policyKey caseIds gallringJobId).outcome data = some data') :
    RunsOk data' := by
  obtain ⟨hcovers, policy, hinsert, rfl⟩ := queueGallring_eq_some h
  refine ⟨nodup_concat_key hok.ids (fresh_of_onInsert hinsert), fun job hjob => ?_,
    fun report hreport => ?_⟩
  · rcases List.mem_append.mp hjob with hold | hfresh
    · exact hok.jobs job hold
    · obtain rfl := List.mem_singleton.mp hfresh
      exact ⟨hcovers, rfl, rfl, nofun, rfl, nofun⟩
  · obtain ⟨job, hjob, hreported⟩ := hok.reported report hreport
    exact ⟨job, List.mem_append_left _ hjob, hreported⟩

/-- The run as it is approved. -/
def GallringJobRow.approvedAs (job : GallringJobRow) (subjectId : UUID) (clock : Int) :
    GallringJobRow :=
  { job with state := .APPROVED, approvedBy := some subjectId, approvedAt := some clock }

theorem approveGallringJob_eq_some {subjectId : UUID} (hids : (data.jobs.map (·.id)).Nodup)
    (h : (approveGallringJob subjectId gallringJobId).outcome data = some data') :
    ∃ job ∈ data.jobs, job.id = gallringJobId ∧ job.state = .PLANNED ∧
      job.requestedBy ≠ subjectId ∧
      data' = { data.assignJob gallringJobId (·.approvedAs subjectId data.clock) with
        executions := data.executions.insert gallringJobId } := by
  obtain ⟨_, h⟩ := Transaction.outcome_eq_some.mp h
  rw [approveGallringJob, Transaction.read_bind] at h
  obtain ⟨job, data₁, hfind, h⟩ := Transaction.bind_eq_ok.mp h
  obtain ⟨hfind, rfl⟩ := Transaction.demand_eq_ok.mp hfind
  obtain ⟨hjob, rfl⟩ := exists_of_find?_key hfind
  by_cases hstate : job.state = .PLANNED
  swap
  · rw [if_pos hstate] at h
    exact (Transaction.fail_eq_ok.mp h).elim
  rw [if_neg (not_not.mpr hstate)] at h
  by_cases hself : job.requestedBy = subjectId
  · rw [if_pos hself] at h
    exact (Transaction.fail_eq_ok.mp h).elim
  rw [if_neg hself] at h
  obtain ⟨_, data₂, hupdate, h⟩ := Transaction.bind_eq_ok.mp h
  obtain ⟨-, rfl, -⟩ := (updateJob_eq_ok hids hjob).mp hupdate
  exact ⟨job, hjob, rfl, hstate, hself, Transaction.rewrite_eq_ok.mp h⟩

theorem RunsOk.approve {subjectId : UUID} (hok : RunsOk data)
    (h : (approveGallringJob subjectId gallringJobId).outcome data = some data') :
    RunsOk data' := by
  obtain ⟨job, hjob, rfl, hstate, hself, rfl⟩ := approveGallringJob_eq_some hok.ids h
  have hjobOk := hok.jobs job hjob
  have happroved := hok.assignJob (f := (·.approvedAs subjectId data.clock)) hjob rfl
    ⟨hjobOk.covers, hjobOk.targets, hjobOk.action, fun h => hself (Option.some.inj h).symm, rfl,
      fun _ => rfl⟩ (by rw [hstate]; nofun)
  exact ⟨happroved.ids, happroved.jobs, happroved.reported⟩

end Execution

theorem RunsOk.step {data data' : RetentionData} {step : RetentionStep} (hok : RunsOk data)
    (h : retentionStep data step = some data') : RunsOk data' := by
  cases step with
  | surroundings next =>
    cases h
    exact ⟨hok.ids, hok.jobs, hok.reported⟩
  | queue subjectId policyKey caseIds gallringJobId =>
    rw [retentionStep] at h
    exact hok.queue h
  | approve subjectId gallringJobId =>
    rw [retentionStep] at h
    exact hok.approve h
  | execute env gallringJobId =>
    rw [retentionStep] at h
    split at h
    · cases h
      exact hok.execution (handleRetentionExecute_leaves hok env gallringJobId)
    · cases h

/-- No run has been queued yet. -/
structure NoRuns (data : RetentionData) : Prop where
  jobs : data.jobs = []
  reports : data.reports = []

theorem NoRuns.runsOk {data : RetentionData} (h : NoRuns data) : RunsOk data := by
  refine ⟨?_, fun job hjob => ?_, fun report hreport => ?_⟩
  · rw [h.jobs]
    exact List.nodup_nil
  · rw [h.jobs] at hjob
    exact absurd hjob List.not_mem_nil
  · rw [h.reports] at hreport
    exact absurd hreport List.not_mem_nil

end Kommunsign
