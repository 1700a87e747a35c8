import Kommunsign.Properties.GallringExecution

/-!
# Retrying an interrupted gallring

The job only goes on with a run that is `APPROVED`, and moves it to `EXECUTING` before it destroys
anything. An attempt that ends after that leaves a run that no retry takes up again.

* `Resumable` — nothing is destroyed, or a retry can still report it
* `GetsThrough`, `StopsUntouched` — the attempts that get through, and those that destroy nothing
* `attempts_resumable` — such attempts leave every run resumable
-/

namespace Kommunsign

open Infra

/-! ## Resumable runs -/

def attempt (gallringJobId : UUID) (data : RetentionData) (env : RetentionEnvironment) :
    Option RetentionData :=
  retentionStep data (.execute env gallringJobId)

structure Untouched (data data' : RetentionData) : Prop where
  documents : data'.documents = data.documents
  versions : data'.versions = data.versions
  messages : data'.messages = data.messages
  objects : data.objects ⊆ data'.objects

def Covered (gallringJobId : UUID) (data data' : RetentionData) : Prop :=
  ∃ job ∈ data'.jobs, job.id = gallringJobId ∧ job.state = .REPORTED ∧
    ∃ stored ∈ data'.reports, stored.gallringJobId = gallringJobId ∧
      (∀ target ∈ job.plannedTargets, target ∈ stored.report.outcomes.map (·.target)) ∧
      DestroysOnly (· ∈ stored.report.caseIds) data data'

def Resumable (gallringJobId : UUID) (data data' : RetentionData) : Prop :=
  Untouched data data' ∨
    ∃ envs data'', run (attempt gallringJobId) data' envs = some data'' ∧
      Covered gallringJobId data data''

/-! ## Attempts that leave a run resumable -/

/-- Nothing stops the attempt, and its counts fit into the columns of the report. -/
structure GetsThrough (env : RetentionEnvironment) (data : RetentionData) (job : GallringJobRow) :
    Prop where
  cases : ∀ caseId ∈ job.caseIds, CaseErasable env data caseId
  putReport : env.outcome .putReport = .passes
  report : env.outcome .report = .passes
  fits : job.caseIds.length * data.volume ≤ 2147483647

def KeepsObjects (env : RetentionEnvironment) (data : RetentionData) (caseId : UUID) : Prop :=
  ∀ key ∈ attempted env (data.caseObjectKeys caseId), key ∈ data.objects → env.deletes key = false

/-- The attempt is stopped before there is anything of a case that it destroys. -/
def StopsUntouched (env : RetentionEnvironment) (data : RetentionData) : List UUID → Prop
  | [] => True
  | caseId :: caseIds =>
    env.outcome (.keys caseId) ≠ .passes ∨
    KeepsObjects env data caseId ∧
      ((∃ key ∈ data.caseObjectKeys caseId, env.outcome (.deleteObject key) = .crashes) ∨
        env.outcome (.rows caseId) ≠ .passes ∨ ¬RowsErasable data caseId ∨
        data.documentIds caseId = [] ∧ StopsUntouched env data caseIds)

def EndsCleanly (gallringJobId : UUID) (data : RetentionData) (env : RetentionEnvironment) :
    Prop :=
  ∀ job ∈ data.jobs, job.id = gallringJobId → Begins env data job →
    GetsThrough env data job ∨ StopsUntouched env data job.caseIds

section Attempts

variable {env : RetentionEnvironment} {data data' : RetentionData} {job : GallringJobRow}
  {gallringJobId caseId : UUID} {outcomes : List GallringTargetOutcome}

/-! ### An attempt that destroys nothing -/

theorem withoutObjects_of_kept (h : KeepsObjects env data caseId) :
    data.withoutObjects env (data.caseObjectKeys caseId) = data := by
  have hobjects : data.objects.filter (fun key =>
      ¬(key ∈ attempted env (data.caseObjectKeys caseId) ∧ env.deletes key = true)) =
        data.objects := by
    refine List.filter_eq_self.mpr fun key hkey => decide_eq_true ?_
    rintro ⟨hattempted, hdeletes⟩
    rw [h key hattempted hkey] at hdeletes
    cases hdeletes
  rw [RetentionData.withoutObjects, hobjects]

theorem withoutRows_of_none (h : data.documentIds caseId = []) :
    data.withoutRows caseId = data := by
  have hversions : data.versions.filter (fun version =>
      version.documentId ∉ data.documentIds caseId) = data.versions := by
    refine List.filter_eq_self.mpr fun version _ => decide_eq_true ?_
    rw [h]
    exact List.not_mem_nil
  have hdocuments : data.documents.filter (fun document => document.signatureCaseId ≠ caseId) =
      data.documents := by
    refine List.filter_eq_self.mpr fun document hdocument => decide_eq_true fun hcase => ?_
    have hmem : document.id ∈ data.documentIds caseId :=
      List.mem_map_of_mem (List.mem_filter.mpr ⟨hdocument, beq_iff_eq.mpr hcase⟩)
    rw [h] at hmem
    exact absurd hmem List.not_mem_nil
  rw [RetentionData.withoutRows, hversions, hdocuments]

theorem eraseCase_of_kept (hkept : KeepsObjects env data caseId)
    (hrows : (∀ key ∈ data.caseObjectKeys caseId, env.outcome (.deleteObject key) ≠ .crashes) →
      env.outcome (.rows caseId) = .passes → RowsErasable data caseId →
      data.documentIds caseId = []) : (eraseCase env caseId data).2 = data := by
  by_cases hkeys : env.outcome (.keys caseId) = .passes
  swap
  · rcases transaction_of_not_passes hkeys with hfault | hfault
    · exact congrArg Prod.snd (Process.bind_of_error hfault)
    · exact congrArg Prod.snd (Process.bind_of_error hfault)
  rw [eraseCase, Process.bind_of_ok (keys_of_passes hkeys)]
  have hobjects : (deleteObjects env ⟨0, 0⟩ (data.caseObjectKeys caseId) data).2 = data := by
    rw [deleteObjects_state, withoutObjects_of_kept hkept]
  refine Process.bind_post (Q := fun left => left = data) hobjects fun storage hstorage => ?_
  rw [hobjects]
  refine Process.bind_state ?_ fun rows => rfl
  by_cases hpasses : env.outcome (.rows caseId) = .passes
  swap
  · rcases transaction_of_not_passes hpasses with hfault | hfault
    · exact congrArg Prod.snd hfault
    · exact congrArg Prod.snd hfault
  rw [transaction_of_passes hpasses]
  cases herase : eraseRows caseId data with
  | error fault => exact congrArg Prod.snd (Process.commit_of_error herase)
  | ok r =>
    obtain ⟨rows, left⟩ := r
    obtain ⟨herasable, rfl, -⟩ := eraseRows_eq_ok.mp herase
    refine (congrArg Prod.snd (Process.commit_of_ok herase)).trans (withoutRows_of_none ?_)
    exact hrows (deleteObjects_counts.mp hstorage).1 hpasses herasable

theorem eraseCases_of_untouched : ∀ {caseIds : List UUID} {outcomes : List GallringTargetOutcome},
    StopsUntouched env data caseIds → (eraseCases env outcomes caseIds data).2 = data
  | [], _, _ => rfl
  | caseId :: caseIds, outcomes, h => by
    rw [eraseCases]
    rcases h with hkeys | ⟨hkept, hstops⟩
    · -- The attempt does not even learn the keys.
      rcases transaction_of_not_passes hkeys with hfault | hfault
      · exact congrArg Prod.snd (Process.bind_of_error (Process.bind_of_error hfault))
      · exact congrArg Prod.snd (Process.bind_of_error (Process.bind_of_error hfault))
    have hcase : (eraseCase env caseId data).2 = data := by
      refine eraseCase_of_kept hkept fun huncrashed hpasses herasable => ?_
      rcases hstops with ⟨key, hkey, hcrashes⟩ | hrows | hvetoed | ⟨hnone, -⟩
      · exact absurd hcrashes (huncrashed key hkey)
      · exact absurd hpasses hrows
      · exact absurd herasable hvetoed
      · exact hnone
    refine Process.bind_post (Q := fun left => left = data) hcase fun more hmore => ?_
    rw [hcase]
    -- It goes on only if nothing has stopped it here.
    have hgoes : eraseCase env caseId data = (.ok more, data) := Prod.ext hmore hcase
    obtain ⟨herasable, -, -⟩ := eraseCase_eq_ok.mp hgoes
    rcases hstops with ⟨key, hkey, hcrashes⟩ | hrows | hvetoed | ⟨-, hrest⟩
    · exact absurd hcrashes (herasable.uncrashed key hkey)
    · exact absurd herasable.rows hrows
    · exact absurd herasable.erasable hvetoed
    · exact eraseCases_of_untouched hrest

theorem stopsUntouched_begun : ∀ {caseIds : List UUID},
    StopsUntouched env data caseIds → StopsUntouched env (data.begun gallringJobId) caseIds
  | [], _ => trivial
  | _ :: _, .inl hkeys => .inl hkeys
  | _ :: _, .inr ⟨hkept, .inl hcrashes⟩ => .inr ⟨hkept, .inl hcrashes⟩
  | _ :: _, .inr ⟨hkept, .inr (.inl hrows)⟩ => .inr ⟨hkept, .inr (.inl hrows)⟩
  | _ :: _, .inr ⟨hkept, .inr (.inr (.inl hvetoed))⟩ =>
    .inr ⟨hkept, .inr (.inr (.inl fun h =>
      hvetoed ⟨h.messages, h.unlocked, h.unreferenced⟩))⟩
  | _ :: _, .inr ⟨hkept, .inr (.inr (.inr ⟨hnone, hrest⟩))⟩ =>
    .inr ⟨hkept, .inr (.inr (.inr ⟨hnone, stopsUntouched_begun hrest⟩))⟩

theorem untouched_of_stops (hok : RunsOk data) (hjob : job ∈ data.jobs)
    (hbegins : Begins env data job) (hstops : StopsUntouched env data job.caseIds) :
    Untouched data (handleRetentionExecute env job.id data).2 := by
  have hmove := moveToExecuting_of_released hok hjob hbegins.approved hbegins.begin hbegins.released
  have herase : (eraseCases env [] job.caseIds (data.begun job.id)).2 = data.begun job.id :=
    eraseCases_of_untouched (stopsUntouched_begun hstops)
  rw [handleRetentionExecute_of_begins hok hjob hbegins, executeGallring, Process.bind_of_ok hmove]
  refine Process.bind_post (Q := Untouched data) ?_ fun outcomes _ => ?_
  · rw [herase]
    exact ⟨rfl, rfl, rfl, fun _ h => h⟩
  · rw [herase]
    have hsame : job.id = ({ job with state := .EXECUTING } : GallringJobRow).id := rfl
    rcases reportGallring_leaves env (mergeOutcomes outcomes) (hok.begun hjob hbegins.approved)
      (mem_begun hok hjob) rfl hsame with h | h | ⟨report, -, h⟩
    · rw [h]
      exact ⟨rfl, rfl, rfl, fun _ h => h⟩
    · rw [h]
      exact ⟨rfl, rfl, rfl, fun _ => List.mem_insert_of_mem⟩
    · rw [h]
      exact ⟨rfl, rfl, rfl, fun _ => List.mem_insert_of_mem⟩

/-! ### An attempt that gets through -/

theorem caseErasable_begun (h : CaseErasable env data caseId) :
    CaseErasable env (data.begun gallringJobId) caseId :=
  ⟨h.keys, h.uncrashed, h.rows, h.erasable.messages, h.erasable.unlocked, h.erasable.unreferenced⟩

theorem report_of_merges {merged : List GallringTargetOutcome} {input : GallringReportInput}
    (houtcomes : input.outcomes = merged) (hcovers : input.caseIds ≠ [])
    (hmerges : Merges outcomes merged) (hcounts : ∀ outcome ∈ outcomes, 0 ≤ outcome.deletedCount)
    (hfits : (outcomes.map (·.deletedCount)).sum ≤ 2147483647) :
    ∃ report, buildGallringReport input = .ok report ∧ ReportFits report := by
  have hcheck : checkOutcomes [] input.outcomes = .ok () := by
    rw [houtcomes]
    exact checkOutcomes_of_merges hmerges hcounts (by omega)
  have hnonneg : 0 ≤ (merged.map (·.deletedCount)).sum := by
    refine List.sum_nonneg fun count hcount => ?_
    obtain ⟨outcome, houtcome, rfl⟩ := List.mem_map.mp hcount
    exact hmerges.counts hcounts outcome houtcome
  obtain ⟨report, hbuild, hcases, htotal, hcomplete⟩ := buildGallringReport_of_checked hcovers hcheck
  rw [houtcomes] at htotal
  refine ⟨report, hbuild, ?_, ?_, ?_, hcomplete⟩
  · rw [hcases]
    exact fun h => hcovers (List.length_eq_zero_iff.mp h)
  · rw [htotal]
    exact hnonneg
  · rw [htotal, hmerges.total]
    exact hfits

theorem covered_of_getsThrough (hok : RunsOk data) (hjob : job ∈ data.jobs)
    (hbegins : Begins env data job) (hthrough : GetsThrough env data job) :
    Covered job.id data (handleRetentionExecute env job.id data).2 := by
  have hjobOk := hok.jobs job hjob
  have hmove := moveToExecuting_of_released hok hjob hbegins.approved hbegins.begin hbegins.released
  have hcases : ∀ caseId ∈ job.caseIds, CaseErasable env (data.begun job.id) caseId :=
    fun caseId hcase => caseErasable_begun (hthrough.cases caseId hcase)
  obtain ⟨outcomes, left, herased⟩ := eraseCases_of_erasable [] hcases
  have herases : ErasesOnly (· ∈ job.caseIds) (data.begun job.id)
      (eraseCases env [] job.caseIds (data.begun job.id)).2 :=
    eraseCases_erasesOnly fun _ h => h
  rw [herased] at herases
  -- What is counted fits, so the report is built.
  have hmerges := mergeOutcomes_merges outcomes
  have hreport : ∃ report, buildGallringReport (job.reportInput left (mergeOutcomes outcomes)) =
      .ok report ∧ ReportFits report := by
    obtain ⟨counted, hlength, rfl, hcounted⟩ := eraseCases_eq_ok herased
    refine report_of_merges rfl hjobOk.covers hmerges allOutcomes_counts ?_
    have hle : ∀ counts ∈ counted, countedTotal counts ≤ data.volume := by
      intro counts hmem
      obtain ⟨caseId, -, found, hfound, rfl⟩ := hcounted counts hmem
      exact countedTotal_le.trans hfound.volume_le
    have hsum := sum_allOutcomes_le hle
    have hfits := hthrough.fits
    rw [hlength] at hsum
    exact hsum.trans (by exact_mod_cast hfits)
  obtain ⟨report, hbuild, hfits⟩ := hreport
  have hmem : { job with state := .EXECUTING } ∈ left.jobs := by
    have hjobs : left.jobs = (data.begun job.id).jobs := herases.jobs
    rw [hjobs]
    exact mem_begun hok hjob
  have hsame : job.id = ({ job with state := .EXECUTING } : GallringJobRow).id := rfl
  have hleft : RunsOk left := herases.runsOk (hok.begun hjob hbegins.approved)
  have hafter := reportGallring_of_passes hleft hmem rfl hsame hthrough.putReport hthrough.report
    hbuild hfits
  rw [handleRetentionExecute_of_begins hok hjob hbegins, executeGallring, Process.bind_of_ok hmove,
    Process.bind_of_ok herased, hafter]
  have hinput := (buildGallringReport_eq_ok hbuild).1
  refine ⟨{ job with state := .REPORTED }, ?_, rfl, rfl, _,
    List.mem_append_right _ (List.mem_singleton_self _), rfl, fun target htarget => ?_, ?_⟩
  · exact (mem_assignJob hleft.ids hmem).mpr (.inl rfl)
  · show target ∈ report.outcomes.map (·.target)
    rw [hinput]
    exact (hmerges.targets target).mpr ((outcomes_targets hjobOk herased target).mpr htarget)
  · show DestroysOnly (· ∈ report.caseIds) data _
    rw [hinput]
    exact destroysOnly_of_erases herases (fun _ => List.mem_insert_of_mem) rfl

/-! ### Any number of attempts -/

theorem attempts_of_not_approved
    (hnot : ∀ job ∈ data.jobs, job.id = gallringJobId → job.state ≠ .APPROVED) :
    ∀ {envs : List RetentionEnvironment}, run (attempt gallringJobId) data envs = some data' →
      data' = data
  | [], h => (Option.some.inj h).symm
  | env :: envs, h => by
    obtain ⟨data₁, hfirst, hrest⟩ := run_cons_eq_some.mp h
    rw [attempt, retentionStep] at hfirst
    split at hfirst
    · obtain rfl := Option.some.inj hfirst
      rw [handleRetentionExecute_of_not_approved hnot] at hrest
      exact attempts_of_not_approved hnot hrest
    · cases hfirst

theorem not_approved_of_begins (hok : RunsOk data) (hjob : job ∈ data.jobs)
    (hbegins : Begins env data job) :
    ∀ job' ∈ (handleRetentionExecute env job.id data).2.jobs, job'.id = job.id →
      job'.state ≠ .APPROVED := by
  have hleaves := executeGallring_leaves hok hjob hbegins
  rw [handleRetentionExecute_of_begins hok hjob hbegins]
  generalize (executeGallring env job data).2 = data' at hleaves
  have hassigned : ∀ {f : GallringJobRow → GallringJobRow},
      data'.jobs = (data.assignJob job.id f).jobs → (f job).state ≠ .APPROVED →
        ∀ job' ∈ data'.jobs, job'.id = job.id → job'.state ≠ .APPROVED := by
    intro f hjobs hstate job' hjob' hid
    rw [hjobs] at hjob'
    rcases (mem_assignJob hok.ids hjob).mp hjob' with rfl | ⟨-, hne⟩
    · exact hstate
    · exact absurd hid hne
  cases hleaves with
  | interrupted key herases => exact hassigned (interrupted_jobs key herases) nofun
  | reported key herases herased hreport => exact hassigned (reported_jobs _ key herases) nofun

/-- What holds after any number of attempts: there has been none yet, or there is no further one. -/
structure AfterAttempts (gallringJobId : UUID) (data data' : RetentionData) : Prop where
  runs : RunsOk data'
  settled : data' = data ∨
    (∀ job ∈ data'.jobs, job.id = gallringJobId → job.state ≠ .APPROVED) ∧
      Resumable gallringJobId data data'

theorem afterAttempts_step {left left' : RetentionData}
    (hinv : AfterAttempts gallringJobId data left) (hends : EndsCleanly gallringJobId left env)
    (hattempt : attempt gallringJobId left env = some left') :
    AfterAttempts gallringJobId data left' := by
  refine ⟨hinv.runs.step hattempt, ?_⟩
  rw [attempt, retentionStep] at hattempt
  split at hattempt
  swap
  · cases hattempt
  obtain rfl := Option.some.inj hattempt
  rcases hinv.settled with rfl | ⟨hover, hresumable⟩
  swap
  · rw [handleRetentionExecute_of_not_approved hover]
    exact .inr ⟨hover, hresumable⟩
  have hleaves := handleRetentionExecute_leaves hinv.runs env gallringJobId
  generalize hdata' : (handleRetentionExecute env gallringJobId left).2 = data' at hleaves
  cases hleaves with
  | unchanged => exact .inl rfl
  | @abandoned job hjob hid happroved =>
    refine .inr ⟨fun job' hjob' hid' => ?_, .inl ⟨rfl, rfl, rfl, fun _ h => h⟩⟩
    rcases (mem_assignJob hinv.runs.ids hjob).mp hjob' with rfl | ⟨-, hne⟩
    · intro happroved
      cases happroved
    · exact absurd (hid'.trans hid.symm) hne
  | @begun job _ hjob hid hbegins hleaves =>
    subst hid
    rw [← hdata']
    refine .inr ⟨not_approved_of_begins hinv.runs hjob hbegins, ?_⟩
    rcases hends job hjob rfl hbegins with hthrough | hstops
    · exact .inr ⟨[], _, rfl, covered_of_getsThrough hinv.runs hjob hbegins hthrough⟩
    · exact .inl (untouched_of_stops hinv.runs hjob hbegins hstops)

end Attempts

/--
If every attempt at a run that begins gets through, or is stopped before there is anything that it
destroys, the run stays resumable after any number of attempts.
-/
theorem attempts_resumable {start data data' : RetentionData} {steps : List RetentionStep}
    {envs : List RetentionEnvironment} {gallringJobId : UUID} (hnone : NoRuns start)
    (hreach : run retentionStep start steps = some data)
    (hends : Meets (attempt gallringJobId) (EndsCleanly gallringJobId) data envs)
    (hattempts : run (attempt gallringJobId) data envs = some data') :
    Resumable gallringJobId data data' := by
  have hok : RunsOk data := run_invariant (fun _ _ _ hok h => hok.step h) hnone.runsOk hreach
  have hstart : AfterAttempts gallringJobId data data := ⟨hok, .inl rfl⟩
  have hafter := run_invariant_of_meets (fun _ _ _ hinv hends h => afterAttempts_step hinv hends h)
    hstart hends hattempts
  rcases hafter.settled with rfl | ⟨-, hresumable⟩
  · exact .inl ⟨rfl, rfl, rfl, fun _ h => h⟩
  · exact hresumable

def loadFails : RetentionEnvironment :=
  ⟨fun stage => if stage = .load then .fails else .passes, true, true⟩

theorem attempts_resumable_retainedCase : ∃ data',
    run (attempt "run") approvedCase [loadFails, everythingPasses] = some data' ∧
      Resumable "run" approvedCase data' := by
  obtain ⟨data', hattempts⟩ := Option.isSome_iff_exists.mp
    (show (run (attempt "run") approvedCase [loadFails, everythingPasses]).isSome = true by
      decide +kernel)
  have hends : Meets (attempt "run") (EndsCleanly "run") approvedCase
      [loadFails, everythingPasses] := by
    refine ⟨?_, fun s₁ h₁ => ⟨?_, fun _ _ => trivial⟩⟩
    · intro job _ _ hbegins
      have hload : StageOutcome.fails = .passes := hbegins.load
      cases hload
    · have hsame : attempt "run" approvedCase loadFails = some approvedCase := by decide +kernel
      obtain rfl := Option.some.inj (hsame.symm.trans h₁)
      intro job hjob _ _
      obtain rfl := List.mem_singleton.mp hjob
      refine .inl ⟨fun caseId hcase => ?_, rfl, rfl, by decide⟩
      obtain rfl := List.mem_singleton.mp hcase
      exact ⟨rfl, fun _ _ => nofun, rfl, by decide, by decide, by decide⟩
  exact ⟨data', hattempts, attempts_resumable ⟨rfl, rfl⟩ run_queueAndApprove hends hattempts⟩

def crashesBeforeRows : RetentionEnvironment :=
  ⟨fun stage => if stage = .rows "case" then .crashes else .passes, true, true⟩

/-- The run stays `EXECUTING` for ever, with the document destroyed and no report. -/
theorem interrupted_run_is_stuck : ∃ start steps data envs data', NoRuns start ∧
    run retentionStep start steps = some data ∧ run (attempt "run") data envs = some data' ∧
      ¬Resumable "run" data data' := by
  obtain ⟨data', hattempts⟩ := Option.isSome_iff_exists.mp
    (show (run (attempt "run") approvedCase [crashesBeforeRows]).isSome = true by decide +kernel)
  have hobjects : (run (attempt "run") approvedCase [crashesBeforeRows]).map (·.objects) =
      some [] := by
    decide +kernel
  have hjobs : (run (attempt "run") approvedCase [crashesBeforeRows]).map (·.jobs) =
      some [{ approvedRun with state := .EXECUTING }] := by
    decide +kernel
  rw [hattempts, Option.map_some, Option.some.injEq] at hobjects hjobs
  refine ⟨retainedCase, queueAndApprove, approvedCase, [crashesBeforeRows], data', ⟨rfl, rfl⟩,
    run_queueAndApprove, hattempts, ?_⟩
  rintro (huntouched | ⟨envs, data'', hretries, job, hjob, -, hreported, -⟩)
  · have hgone : "source.pdf" ∈ data'.objects := huntouched.objects (by decide)
    rw [hobjects] at hgone
    exact absurd hgone List.not_mem_nil
  · have hstuck : data'' = data' := by
      refine attempts_of_not_approved (fun job hjob _ => ?_) hretries
      rw [hjobs] at hjob
      obtain rfl := List.mem_singleton.mp hjob
      exact nofun
    rw [hstuck, hjobs] at hjob
    obtain rfl := List.mem_singleton.mp hjob
    cases hreported

end Kommunsign
