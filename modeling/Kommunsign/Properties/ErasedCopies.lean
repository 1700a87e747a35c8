import Mathlib.Data.List.TakeWhile
import Kommunsign.Properties.GallringExecution
import Kommunsign.Worker.CaseObjects

/-!
# The copies that a gallring leaves

The report of a run says that the objects of its cases are deleted. The job knows them only from
the rows that are there, and only from five sources; and it erases the rows of a case also when an
object of it could not be deleted, so that the next run no longer finds the key.

* `LeavesNoCopy` — a run that reports its objects as deleted leaves none of them
* `leavesNoCopy_iff` — over every run of the system
-/

namespace Kommunsign

open Infra

/-! ## What is left in storage -/

section Erasure

variable {env : RetentionEnvironment} {data data' : RetentionData} {caseId : UUID}
  {version : RetainedVersion} {key : StoredKey}

theorem versionsOf_withoutRows (other : UUID) (hversion : version ∈ data.versionsOf caseId) :
    version ∈ data.versionsOf other ∨ version ∈ (data.withoutRows other).versionsOf caseId := by
  obtain ⟨hmem, hdocument⟩ := List.mem_filter.mp hversion
  by_cases hgone : version.documentId ∈ data.documentIds other
  · exact .inl (List.mem_filter.mpr ⟨hmem, decide_eq_true hgone⟩)
  · refine .inr (List.mem_filter.mpr ⟨List.mem_filter.mpr ⟨hmem, decide_eq_true hgone⟩,
      decide_eq_true ?_⟩)
    obtain ⟨document, hrow, hid⟩ := List.mem_map.mp (of_decide_eq_true hdocument)
    obtain ⟨hrow, hcase⟩ := List.mem_filter.mp hrow
    have hother : document.signatureCaseId ≠ other := by
      intro he
      refine hgone ?_
      rw [← hid]
      exact List.mem_map_of_mem (List.mem_filter.mpr ⟨hrow, beq_iff_eq.mpr he⟩)
    rw [← hid]
    exact List.mem_map_of_mem (List.mem_filter.mpr
      ⟨List.mem_filter.mpr ⟨hrow, decide_eq_true hother⟩, hcase⟩)

theorem caseObjectKeys_withoutRows (other : UUID) (hkey : key ∈ data.caseObjectKeys caseId) :
    key ∈ data.caseObjectKeys other ∨ key ∈ (data.withoutRows other).caseObjectKeys caseId := by
  simp only [RetentionData.caseObjectKeys, List.append_assoc, List.mem_append] at hkey ⊢
  rcases hkey with hsource | hcanonical | hpackage | hfile | hreport
  · obtain ⟨version, hversion, rfl⟩ := List.mem_map.mp hsource
    rcases versionsOf_withoutRows other hversion with h | h
    · exact .inl (.inl (List.mem_map_of_mem h))
    · exact .inr (.inl (List.mem_map_of_mem h))
  · obtain ⟨version, hversion, hkey⟩ := List.mem_filterMap.mp hcanonical
    rcases versionsOf_withoutRows other hversion with h | h
    · exact .inl (.inr (.inl (List.mem_filterMap.mpr ⟨version, h, hkey⟩)))
    · exact .inr (.inr (.inl (List.mem_filterMap.mpr ⟨version, h, hkey⟩)))
  · exact .inr (.inr (.inr (.inl hpackage)))
  · exact .inr (.inr (.inr (.inr (.inl hfile))))
  · obtain ⟨report, hrow, rfl⟩ := List.mem_map.mp hreport
    obtain ⟨hmem, hids⟩ := List.mem_filter.mp hrow
    obtain ⟨version, hversion, hid⟩ := List.mem_map.mp (of_decide_eq_true hids)
    rcases versionsOf_withoutRows other hversion with h | h
    · refine .inl (.inr (.inr (.inr (.inr (List.mem_map_of_mem (List.mem_filter.mpr ⟨hmem, ?_⟩))))))
      exact decide_eq_true (hid ▸ List.mem_map_of_mem h)
    · refine .inr (.inr (.inr (.inr (.inr (List.mem_map_of_mem (List.mem_filter.mpr ⟨hmem, ?_⟩))))))
      exact decide_eq_true (hid ▸ List.mem_map_of_mem h)

theorem mem_withoutObjects {keys : List StoredKey}
    (huncrashed : ∀ key ∈ keys, env.outcome (.deleteObject key) ≠ .crashes)
    (hrefuses : keys.countP env.refuses = 0) :
    key ∈ (data.withoutObjects env keys).objects ↔ key ∈ data.objects ∧ key ∉ keys := by
  have hattempted : attempted env keys = keys :=
    List.takeWhile_eq_self_iff.mpr fun key hkey => decide_eq_true (huncrashed key hkey)
  have hdeletes : ∀ key ∈ keys, env.deletes key = true := by
    intro key hkey
    have hnot := List.countP_eq_zero.mp hrefuses key hkey
    have huncrashed := huncrashed key hkey
    simp only [RetentionEnvironment.refuses, decide_eq_true_eq] at hnot
    refine decide_eq_true ?_
    cases houtcome : env.outcome (.deleteObject key) with
    | passes => rfl
    | fails => exact absurd houtcome hnot
    | crashes => exact absurd houtcome huncrashed
  rw [RetentionData.withoutObjects, hattempted, List.mem_filter, decide_eq_true_eq]
  refine and_congr_right fun _ => not_congr ⟨fun h => h.1, fun h => ⟨h, hdeletes key h⟩⟩

/-- The outcomes say that the storage has deleted every object that it has been asked to. -/
def ObjectsVerified (outcomes : List GallringTargetOutcome) : Prop :=
  ∀ outcome ∈ outcomes, outcome.target = .object_storage → outcome.verified = true

theorem failed_eq_zero {storage : StorageCounts} {rows : RowCounts}
    (h : ObjectsVerified (caseOutcomes storage rows)) : storage.failed = 0 := by
  have hverified := h _ List.mem_cons_self rfl
  exact beq_iff_eq.mp hverified

theorem eraseCases_objects : ∀ {caseIds : List UUID} {outcomes all : List GallringTargetOutcome}
    {data data' : RetentionData}, eraseCases env outcomes caseIds data = (.ok all, data') →
      ObjectsVerified all →
        (key ∈ data'.objects ↔ key ∈ data.objects ∧
          ∀ caseId ∈ caseIds, key ∉ data.caseObjectKeys caseId)
  | [], _, _, data, _, h, _ => by
    cases h
    exact ⟨fun h => ⟨h, fun _ h => absurd h List.not_mem_nil⟩, fun h => h.1⟩
  | caseId :: caseIds, outcomes, all, data, data', h, hverified => by
    obtain ⟨more, data₁, hcase, hrest⟩ := Process.bind_eq_ok.mp h
    obtain ⟨herasable, rfl, rfl⟩ := eraseCase_eq_ok.mp hcase
    -- The outcomes of the first case are among all of them.
    have hfirst : ObjectsVerified
        (caseOutcomes (data.counts env caseId).1 (data.counts env caseId).2) := by
      obtain ⟨counted, -, rfl, -⟩ := eraseCases_eq_ok hrest
      intro outcome houtcome
      exact hverified outcome (List.mem_append_left _ (List.mem_append_right _ houtcome))
    have hobjects : ∀ key, key ∈ (data.withoutObjects env (data.caseObjectKeys caseId)).objects ↔
        key ∈ data.objects ∧ key ∉ data.caseObjectKeys caseId :=
      fun _ => mem_withoutObjects herasable.uncrashed (failed_eq_zero hfirst)
    rw [eraseCases_objects hrest hverified, List.forall_mem_cons, ← and_assoc]
    show (key ∈ (data.withoutObjects env (data.caseObjectKeys caseId)).objects ∧
      ∀ other ∈ caseIds, key ∉ (data.withoutRows caseId).caseObjectKeys other) ↔ _
    rw [hobjects]
    have hrows : ErasesOnly (fun _ => True) data (data.withoutRows caseId) := .withoutRows trivial
    refine and_congr_right fun hfirst => forall₂_congr fun other _ => not_congr ⟨?_, fun hkey => ?_⟩
    · exact fun hkey => hrows.caseObjectKeys_subset hkey
    · exact (caseObjectKeys_withoutRows caseId hkey).resolve_left hfirst.2

theorem eraseCases_unreferenced : ∀ {caseIds : List UUID}
    {outcomes all : List GallringTargetOutcome} {data data' : RetentionData},
      eraseCases env outcomes caseIds data = (.ok all, data') → ∀ caseId ∈ caseIds,
        ∀ version ∈ data.versionsOf caseId, version.id ∉ data.versionReferences
  | [], _, _, _, _, _ => fun _ h => absurd h List.not_mem_nil
  | caseId :: caseIds, outcomes, all, data, data', h => by
    obtain ⟨more, data₁, hcase, hrest⟩ := Process.bind_eq_ok.mp h
    obtain ⟨herasable, rfl, -⟩ := eraseCase_eq_ok.mp hcase
    have hfirst : ∀ version ∈ data.versionsOf caseId, version.id ∉ data.versionReferences :=
      fun version hversion hmem =>
        (herasable.erasable.unreferenced version hversion).1 version.id hmem rfl
    refine List.forall_mem_cons.mpr ⟨hfirst, fun other hother version hversion => ?_⟩
    rcases versionsOf_withoutRows caseId hversion with hshared | hleft
    · exact hfirst version hshared
    · exact eraseCases_unreferenced hrest other hother version hleft

end Erasure

/-! ## A run that is reported -/

section Report

variable {env : RetentionEnvironment} {data : RetentionData} {job : GallringJobRow}
  {gallringJobId : UUID} {stored : StoredReport}

def ReportedAs (env : RetentionEnvironment) (data : RetentionData) (job : GallringJobRow)
    (stored : StoredReport) (data' : RetentionData) : Prop :=
  ∃ outcomes left, eraseCases env [] job.caseIds (data.begun job.id) = (.ok outcomes, left) ∧
    buildGallringReport (job.reportInput left (mergeOutcomes outcomes)) = .ok stored.report ∧
    data'.objects = left.objects.insert (data.reportKey job.id)

theorem executeGallring_reported (hok : RunsOk data) (hjob : job ∈ data.jobs)
    (happroved : job.state = .APPROVED)
    (hstored : stored ∈ (executeGallring env job data).2.reports) (hnew : stored ∉ data.reports) :
    ReportedAs env data job stored (executeGallring env job data).2 := by
  by_cases hbegins : env.outcome .begin = .passes ∧ ∀ caseId ∈ job.caseIds, data.held caseId = false
  swap
  · rcases executeGallring_of_not hok hjob happroved hbegins with h | h
    · rw [h] at hstored
      exact absurd hstored hnew
    · rw [h] at hstored
      exact absurd hstored hnew
  have hmove := moveToExecuting_of_released hok hjob happroved hbegins.1 hbegins.2
  have hleaves : ErasesOnly (· ∈ job.caseIds) (data.begun job.id)
      (eraseCases env [] job.caseIds (data.begun job.id)).2 :=
    eraseCases_erasesOnly fun _ h => h
  rw [executeGallring, Process.bind_of_ok hmove] at hstored ⊢
  rcases herased : eraseCases env [] job.caseIds (data.begun job.id) with ⟨r, left⟩
  rw [herased] at hleaves
  have herases : ErasesOnly (· ∈ job.caseIds) (data.begun job.id) left := hleaves
  have hreports : left.reports = data.reports := by
    rw [herases.frame]
    rfl
  cases r with
  | error fault =>
    rw [Process.bind_of_error herased] at hstored
    rw [hreports] at hstored
    exact absurd hstored hnew
  | ok outcomes =>
    rw [Process.bind_of_ok herased] at hstored ⊢
    have hleft : RunsOk left := herases.runsOk (hok.begun hjob happroved)
    have hmem : { job with state := .EXECUTING } ∈ left.jobs := by
      have hjobs : left.jobs = (data.begun job.id).jobs := herases.jobs
      rw [hjobs]
      exact mem_begun hok hjob
    have htenant : left.reportKey job.id = data.reportKey job.id := by
      rw [RetentionData.reportKey, herases.frame]
      rfl
    rcases reportGallring_leaves env (mergeOutcomes outcomes) hleft hmem rfl
        (show job.id = ({ job with state := .EXECUTING } : GallringJobRow).id from rfl) with
      h | h | ⟨report, hreport, h⟩
    · rw [h, hreports] at hstored
      exact absurd hstored hnew
    · rw [h] at hstored
      exact absurd (hreports ▸ hstored) hnew
    · rw [h] at hstored ⊢
      rcases List.mem_append.mp hstored with hold | hfresh
      · exact absurd (hreports ▸ hold) hnew
      · obtain rfl := List.mem_singleton.mp hfresh
        refine ⟨outcomes, left, herased, hreport, ?_⟩
        rw [← htenant]
        rfl

theorem reportedAs_of_new (hok : RunsOk data)
    (hstored : stored ∈ (handleRetentionExecute env gallringJobId data).2.reports)
    (hnew : stored ∉ data.reports) : ∃ job ∈ data.jobs, job.id = gallringJobId ∧
      ReportedAs env data job stored (handleRetentionExecute env gallringJobId data).2 := by
  rcases handleRetentionExecute_cases env data gallringJobId with
    h | ⟨job, hfind, -, -, -, happroved, h⟩
  · rw [h] at hstored
    exact absurd hstored hnew
  · obtain ⟨hjob, rfl⟩ := exists_of_find?_key hfind
    rw [h] at hstored ⊢
    exact ⟨job, hjob, rfl, executeGallring_reported hok hjob happroved hstored hnew⟩

/-- The report says that the objects of the run are deleted, and that this is verified. -/
def StoredReport.SaysObjectsDeleted (stored : StoredReport) : Prop :=
  ∃ outcome ∈ stored.report.outcomes, outcome.target = .object_storage ∧ outcome.verified = true

instance (stored : StoredReport) : Decidable stored.SaysObjectsDeleted :=
  inferInstanceAs (Decidable (∃ outcome ∈ stored.report.outcomes,
    outcome.target = .object_storage ∧ outcome.verified = true))

def GallringJobRow.Finds (job : GallringJobRow) (data : RetentionData) (key : StoredKey) : Prop :=
  ∃ caseId ∈ job.caseIds, key ∈ data.caseObjectKeys caseId

theorem ReportedAs.mem_objects {data' : RetentionData} {key : StoredKey}
    (h : ReportedAs env data job stored data') (hclaims : stored.SaysObjectsDeleted) :
    key ∈ data'.objects ↔
      key = data.reportKey job.id ∨ key ∈ data.objects ∧ ¬job.Finds data key := by
  obtain ⟨outcomes, left, herased, hreport, hobjects⟩ := h
  obtain ⟨row, hrow, htarget, hverified⟩ := hclaims
  have hmerged : stored.report.outcomes = mergeOutcomes outcomes := by
    rw [(buildGallringReport_eq_ok hreport).1]
    rfl
  rw [hmerged] at hrow
  have hall : ObjectsVerified outcomes := fun outcome houtcome hsame =>
    mergeOutcomes_vouches outcomes row hrow hverified outcome houtcome (hsame.trans htarget.symm)
  rw [hobjects, List.mem_insert_iff, eraseCases_objects herased hall]
  refine or_congr_right (and_congr_right fun _ => ?_)
  constructor
  · rintro hnone ⟨caseId, hcase, hkey⟩
    exact hnone caseId hcase hkey
  · exact fun hnone caseId hcase hkey => hnone ⟨caseId, hcase, hkey⟩

theorem ReportedAs.caseIds {data' : RetentionData} (h : ReportedAs env data job stored data') :
    stored.report.caseIds = job.caseIds := by
  obtain ⟨outcomes, left, -, hreport, -⟩ := h
  rw [(buildGallringReport_eq_ok hreport).1]
  rfl

theorem ReportedAs.unreferenced {data' : RetentionData} (h : ReportedAs env data job stored data') :
    ∀ caseId ∈ job.caseIds, ∀ version ∈ data.versionsOf caseId,
      version.id ∉ data.versionReferences := by
  obtain ⟨outcomes, left, herased, -, -⟩ := h
  -- The move to `EXECUTING` has not changed what is known of the cases.
  have hbegun := eraseCases_unreferenced herased
  exact hbegun

end Report

/-! ## No copy is left -/

def Recorded (history : History CaseStore) (caseId : UUID) (key : StoredKey) : Prop :=
  ∃ store ∈ history.states, store.Names caseId key

/-- What a step should do: what is reported as deleted is gone, whichever row has named it. -/
def LeavesNoCopy (history : History CaseStore) : CaseStep → Prop
  | .gallring (.execute env gallringJobId) =>
    ∀ stored ∈ (handleRetentionExecute env gallringJobId history.now.data).2.reports,
      stored ∉ history.now.data.reports → stored.SaysObjectsDeleted →
        ∀ caseId ∈ stored.report.caseIds, ∀ key, Recorded history caseId key →
          key ∉ (handleRetentionExecute env gallringJobId history.now.data).2.objects
  | .surroundings _ | .gallring (.surroundings _) | .gallring (.queue ..)
  | .gallring (.approve ..) => True

/-- What else has named an object of the cases, the job finds in its sources, or it is gone. -/
structure FoundInSources (history : History CaseStore) (job : GallringJobRow) : Prop where
  /-- What a row has named that may be gone by now. -/
  gone : ∀ caseId ∈ job.caseIds, ∀ store ∈ history.earlier, ∀ key, store.Names caseId key →
    key ∈ history.now.data.objects → job.Finds history.now.data key
  /-- What a row of the further tables of a case names. -/
  records : ∀ record ∈ history.now.records, record.signatureCaseId ∈ job.caseIds →
    ∀ key ∈ record.objectKeys, key ∈ history.now.data.objects → job.Finds history.now.data key
  /-- The report of the run is no object of a case. -/
  report : ∀ caseId ∈ job.caseIds, ¬Recorded history caseId (history.now.data.reportKey job.id)

/-- The execution stores a report of its run that says that the objects are deleted. -/
def SaysDeleted (history : History CaseStore) (env : RetentionEnvironment) (gallringJobId : UUID) :
    Prop :=
  ∃ stored ∈ (handleRetentionExecute env gallringJobId history.now.data).2.reports,
    stored ∉ history.now.data.reports ∧ stored.SaysObjectsDeleted

def FoundStep (history : History CaseStore) : CaseStep → Prop
  | .gallring (.execute env gallringJobId) => SaysDeleted history env gallringJobId →
    ∀ job ∈ history.now.data.jobs, job.id = gallringJobId → FoundInSources history job
  | .surroundings _ | .gallring (.surroundings _) | .gallring (.queue ..)
  | .gallring (.approve ..) => True

section Copies

variable {history : History CaseStore} {env : RetentionEnvironment} {job : GallringJobRow}
  {gallringJobId : UUID} {stored : StoredReport} {data' : RetentionData}

theorem FoundInSources.leavesNone (hfound : FoundInSources history job)
    (hreported : ReportedAs env history.now.data job stored data')
    (hclaims : stored.SaysObjectsDeleted) {caseId : UUID} (hcase : caseId ∈ job.caseIds)
    {key : StoredKey} (hrecorded : Recorded history caseId key) : key ∉ data'.objects := by
  rw [hreported.mem_objects hclaims]
  rintro (rfl | ⟨hthere, hmissed⟩)
  · exact hfound.report caseId hcase hrecorded
  obtain ⟨store, hstore, hnames⟩ := hrecorded
  rcases List.mem_cons.mp hstore with rfl | hearlier
  · cases hnames with
    | source hkey => exact hmissed ⟨caseId, hcase, hkey⟩
    | record hrecord hof hkey =>
      exact hmissed (hfound.records _ hrecord (hof ▸ hcase) key hkey hthere)
    | evidence hversion hrow hkey =>
      exact hreported.unreferenced caseId hcase _ hversion
        (CaseStore.referenced_of_evidence hrow)
  · exact hmissed (hfound.gone caseId hcase store hearlier key hnames hthere)

theorem foundInSources_of_leavesNone (hreported : ReportedAs env history.now.data job stored data')
    (hclaims : stored.SaysObjectsDeleted) (hnone : ∀ caseId ∈ job.caseIds, ∀ key,
      Recorded history caseId key → key ∉ data'.objects) : FoundInSources history job := by
  have hfinds : ∀ caseId ∈ job.caseIds, ∀ key, Recorded history caseId key →
      key ∈ history.now.data.objects → job.Finds history.now.data key := by
    intro caseId hcase key hrecorded hthere
    by_contra hmissed
    exact hnone caseId hcase key hrecorded
      ((hreported.mem_objects hclaims).mpr (.inr ⟨hthere, hmissed⟩))
  refine ⟨fun caseId hcase store hearlier key hnames => ?_, fun record hrecord hcase key hkey => ?_,
    fun caseId hcase hrecorded => ?_⟩
  · exact hfinds caseId hcase key ⟨store, List.mem_cons_of_mem _ hearlier, hnames⟩
  · exact hfinds _ hcase key ⟨history.now, List.mem_cons_self, .record hrecord rfl hkey⟩
  · exact hnone caseId hcase _ hrecorded ((hreported.mem_objects hclaims).mpr (.inl rfl))

theorem leavesNoCopy_step_iff (hok : RunsOk history.now.data) (step : CaseStep) :
    LeavesNoCopy history step ↔ FoundStep history step := by
  match step with
  | .surroundings _ | .gallring (.surroundings _) | .gallring (.queue ..)
  | .gallring (.approve ..) => exact Iff.rfl
  | .gallring (.execute env gallringJobId) =>
    constructor
    · rintro h ⟨stored, hstored, hnew, hclaims⟩ job hjob hid
      obtain ⟨job', hjob', hid', hreported⟩ := reportedAs_of_new hok hstored hnew
      obtain rfl := eq_of_key_eq hok.ids hjob' hjob (hid'.trans hid.symm)
      refine foundInSources_of_leavesNone hreported hclaims fun caseId hcase => ?_
      exact h stored hstored hnew hclaims caseId (hreported.caseIds ▸ hcase)
    · intro h stored hstored hnew hclaims caseId hcase key hrecorded
      obtain ⟨job, hjob, hid, hreported⟩ := reportedAs_of_new hok hstored hnew
      rw [hreported.caseIds] at hcase
      exact (h ⟨stored, hstored, hnew, hclaims⟩ job hjob hid).leavesNone hreported hclaims hcase
        hrecorded

end Copies

/-! ## Over the runs of the system -/

/--
In every run of the system, the executions leave no copy of what they report as deleted if and only
if, in each of them, what a row that is gone has named, and what the further tables of a case name,
is found in the sources or no longer there, and nothing of a case is stored as the report.
-/
theorem leavesNoCopy_iff {store : CaseStore} {steps : List CaseStep} {history : History CaseStore}
    (hnone : NoRuns store.data)
    (hrun : run (History.step caseStep) (History.begin store) steps = some history) :
    Meets (History.step caseStep) LeavesNoCopy (History.begin store) steps ↔
      Meets (History.step caseStep) FoundStep (History.begin store) steps := by
  have hkeeps : ∀ (store : CaseStore) step store', RunsOk store.data →
      caseStep store step = some store' → RunsOk store'.data :=
    fun _ _ _ hok h => caseStep_runsOk hok h
  have hstep : ∀ (history : History CaseStore) step, RunsOk history.now.data →
      (LeavesNoCopy history step ↔ FoundStep history step) :=
    fun _ step hok => leavesNoCopy_step_iff hok step
  exact History.meets_iff_meets hkeeps hstep hnone.runsOk hrun

/-- The execution reports the objects of the case as deleted, and leaves this one. -/
def LeavesReported (env : RetentionEnvironment) (gallringJobId caseId : UUID) (key : StoredKey)
    (data : RetentionData) : Prop :=
  (∃ stored ∈ (handleRetentionExecute env gallringJobId data).2.reports,
    stored ∉ data.reports ∧ stored.SaysObjectsDeleted ∧ caseId ∈ stored.report.caseIds) ∧
  key ∈ (handleRetentionExecute env gallringJobId data).2.objects

instance (env : RetentionEnvironment) (gallringJobId caseId : UUID) (key : StoredKey)
    (data : RetentionData) : Decidable (LeavesReported env gallringJobId caseId key data) :=
  inferInstanceAs (Decidable ((∃ stored ∈ (handleRetentionExecute env gallringJobId data).2.reports,
    _ ∧ _) ∧ _))

theorem not_leavesNoCopy_of_left {store : CaseStore} {steps : List CaseStep}
    {env : RetentionEnvironment} {gallringJobId caseId : UUID} {key : StoredKey}
    (hnames : store.Names caseId key)
    (hleft : (run (History.step caseStep) (History.begin store) steps).any (fun history =>
      LeavesReported env gallringJobId caseId key history.now.data) = true) :
    ¬Meets (History.step caseStep) LeavesNoCopy (History.begin store)
      (steps ++ [.gallring (.execute env gallringJobId)]) := by
  obtain ⟨history, hrun, hholds⟩ := (Option.any_eq_true _ _).mp hleft
  obtain ⟨⟨stored, hstored, hnew, hclaims, hcase⟩, hkey⟩ := of_decide_eq_true hholds
  intro h
  obtain ⟨hlast, -⟩ := (meets_append h hrun).2
  have hrecorded : Recorded history caseId key :=
    ⟨store, History.states_subset hrun List.mem_cons_self, hnames⟩
  exact hlast stored hstored hnew hclaims caseId hcase key hrecorded hkey

def retainedStore : CaseStore := ⟨retainedCase, [], [], nofun⟩

def executeRun : List CaseStep :=
  queueAndApprove.map .gallring ++ [.gallring (.execute everythingPasses "run")]

def HoldsDocumentOnly (store : CaseStore) : Prop :=
  store.evidence = [] ∧ store.records = [] ∧ store.data.caseObjectKeys "case" = ["source.pdf"]

instance (store : CaseStore) : Decidable (HoldsDocumentOnly store) :=
  inferInstanceAs (Decidable (_ ∧ _ ∧ _))

theorem HoldsDocumentOnly.eq_of_names {store : CaseStore} {key : StoredKey}
    (h : HoldsDocumentOnly store) (hnames : store.Names "case" key) : key = "source.pdf" := by
  obtain ⟨hevidence, hrecords, hkeys⟩ := h
  cases hnames with
  | source hkey =>
    rw [hkeys] at hkey
    exact List.mem_singleton.mp hkey
  | record hrecord _ _ =>
    rw [hrecords] at hrecord
    exact absurd hrecord List.not_mem_nil
  | evidence _ hrow _ =>
    rw [hevidence] at hrow
    cases hrow with
    | version hmem _ _ => exact absurd hmem List.not_mem_nil
    | evidence _ hmem _ _ => exact absurd hmem List.not_mem_nil

theorem leavesNoCopy_iff_retainedStore :
    Meets (History.step caseStep) LeavesNoCopy (History.begin retainedStore) executeRun := by
  have hrun : (run (History.step caseStep) (History.begin retainedStore) executeRun).isSome =
      true := by
    decide +kernel
  obtain ⟨history, hhistory⟩ := Option.isSome_iff_exists.mp hrun
  refine (leavesNoCopy_iff ⟨rfl, rfl⟩ hhistory).mpr
    ⟨trivial, fun s₁ h₁ => ⟨trivial, fun s₂ h₂ => ⟨?_, fun _ _ => trivial⟩⟩⟩
  intro _ job hjob _
  have hbefore : run (History.step caseStep) (History.begin retainedStore)
      (queueAndApprove.map .gallring) = some s₂ :=
    run_cons_eq_some.mpr ⟨s₁, h₁, run_cons_eq_some.mpr ⟨s₂, h₂, rfl⟩⟩
  -- Until the execution the case has the document only, and no report is stored in its place.
  have hall : (run (History.step caseStep) (History.begin retainedStore)
      (queueAndApprove.map .gallring)).all (fun history =>
        history.states.all (fun store => HoldsDocumentOnly store) &&
          history.now.data.jobs.all fun job => job.caseIds = ["case"] ∧
            history.now.data.reportKey job.id ≠ "source.pdf") = true := by
    decide +kernel
  rw [hbefore, Option.all_some, Bool.and_eq_true, List.all_eq_true, List.all_eq_true] at hall
  have hholds : ∀ store ∈ s₂.states, HoldsDocumentOnly store :=
    fun store hstore => of_decide_eq_true (hall.1 store hstore)
  obtain ⟨hcases, hreport⟩ := of_decide_eq_true (hall.2 job hjob)
  have hfinds : job.Finds s₂.now.data "source.pdf" := by
    refine ⟨"case", ?_, ?_⟩
    · rw [hcases]
      exact List.mem_singleton_self _
    · rw [(hholds s₂.now List.mem_cons_self).2.2]
      exact List.mem_singleton_self _
  refine ⟨fun caseId hcase store hearlier key hnames _ => ?_, fun record hrecord => ?_,
    fun caseId hcase hrecorded => ?_⟩
  · rw [hcases] at hcase
    obtain rfl := List.mem_singleton.mp hcase
    rw [(hholds store (List.mem_cons_of_mem _ hearlier)).eq_of_names hnames]
    exact hfinds
  · rw [(hholds s₂.now List.mem_cons_self).2.1] at hrecord
    exact absurd hrecord List.not_mem_nil
  · rw [hcases] at hcase
    obtain rfl := List.mem_singleton.mp hcase
    obtain ⟨store, hstore, hnames⟩ := hrecorded
    exact hreport ((hholds store hstore).eq_of_names hnames)

def refusesDocument : RetentionEnvironment :=
  ⟨fun stage => if stage = .deleteObject "source.pdf" then .fails else .passes, true, true⟩

/-- A run that could not delete the document, and a second run over the same case. -/
def executeAgain : List CaseStep :=
  queueAndApprove.map .gallring ++ [.gallring (.execute refusesDocument "run"),
    .gallring (.queue "requester" "cases" ["case"] "again"),
    .gallring (.approve "approver" "again")]

/-- The first run erases the row that names the document, and the second reports it as deleted. -/
theorem not_leavesNoCopy_of_refused : ∃ store steps, NoRuns store.data ∧
    (run (History.step caseStep) (History.begin store) steps).isSome = true ∧
    ¬Meets (History.step caseStep) LeavesNoCopy (History.begin store) steps := by
  refine ⟨retainedStore, executeAgain ++ [.gallring (.execute everythingPasses "again")],
    ⟨rfl, rfl⟩, by decide +kernel, ?_⟩
  have hnames : retainedStore.Names "case" "source.pdf" := .source (by decide)
  refine not_leavesNoCopy_of_left hnames ?_
  decide +kernel

end Kommunsign
