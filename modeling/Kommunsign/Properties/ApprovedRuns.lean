import Kommunsign.Worker.GallringGuards

/-!
# What a gallring executes is what has been approved

The trigger on `app.gallring_jobs` only looks at the state that an update gives to a run, and the
index on the active runs only sees the first of their cases.

* `WritesApproved` — the writes after which all of this still holds
* `approvedRuns_throughout_iff` — in a run of writes it holds throughout if and only if each is one
* `not_approvedRuns_second_case` — a case in two active runs
-/

namespace Kommunsign

open Infra

/-- Every execution, every approval and every active run is as it should be. -/
structure ApprovedRuns (s : GallringRecords) : Prop where
  started : ∀ state ∈ s.started, state.isDecided = false
  executed : ∀ terms ∈ s.executed, terms ∈ s.approved
  kept : ∀ terms ∈ s.approved, ∃ job ∈ s.data.jobs,
    job.terms = terms ∧ job.state.isDecided = true
  approvals : ∀ job ∈ s.data.jobs, job.state.isApproved = true → job.terms ∈ s.approved
  apart : ∀ a ∈ s.data.jobs, ∀ b ∈ s.data.jobs, a.id ≠ b.id → a.state.isActive = true →
    b.state.isActive = true → a.caseIds.Disjoint b.caseIds

def SharesOnlyFirst (caseIds otherIds : List UUID) : Prop :=
  ∀ caseId ∈ caseIds, caseId ∈ otherIds → caseIds.head? = otherIds.head?

def ApartFromActive (data : RetentionData) (gallringJobId : UUID) (caseIds : List UUID) : Prop :=
  ∀ other ∈ data.jobs, other.id ≠ gallringJobId → other.state.isActive = true →
    SharesOnlyFirst caseIds other.caseIds

def WritesApproved (s : GallringRecords) : GallringWrite → Prop
  | .operation (.queue _ _ caseIds gallringJobId) => ApartFromActive s.data gallringJobId caseIds
  | .operation (.surroundings _) | .operation (.approve ..) | .operation (.execute ..) => True
  | .insert row =>
    row.state.isDecided = false ∧ ApartFromActive s.data row.id row.caseIds
  | .update gallringJobId f => ∀ job ∈ s.data.jobs, job.id = gallringJobId →
    (job.terms ∈ s.approved → (f job).terms = job.terms) ∧
      ((f job).state.isActive = true → ApartFromActive s.data gallringJobId (f job).caseIds)

theorem disjoint_iff_sharesOnlyFirst {caseIds otherIds : List UUID}
    (hheads : caseIds.head? ≠ otherIds.head?) :
    caseIds.Disjoint otherIds ↔ SharesOnlyFirst caseIds otherIds :=
  ⟨fun h _ hcase hother => absurd hother (h hcase), fun h _ hcase hother =>
    hheads (h _ hcase hother)⟩

theorem isActive_of_not_decided {state : GallringState} (h : state.isDecided = false) :
    state.isActive = true := by
  cases state with
  | QUEUED => rfl
  | PLANNED => rfl
  | APPROVED | EXECUTING | VERIFIED | REPORTED | ABANDONED => cases h

theorem isDecided_of_isApproved {state : GallringState} (h : state.isApproved = true) :
    state.isDecided = true := by
  revert h
  cases state <;> decide

/-! ## Rows that are added -/

section Rows

variable {s : GallringRecords} {data : RetentionData} {row : GallringJobRow}
  {before after : List GallringJobRow}

theorem approvedTerms_append : ∀ {jobs rows : List GallringJobRow},
    approvedTerms jobs (jobs ++ rows) = []
  | [], _ => rfl
  | job :: jobs, rows => by
    have hstays : ¬(job.state ≠ .APPROVED ∧ job.state = .APPROVED) := fun h => h.1 h.2
    rw [approvedTerms, List.cons_append, List.zip_cons_cons, List.filterMap_cons]
    dsimp only
    rw [if_neg hstays]
    exact approvedTerms_append

theorem startedStates_append : startedStates before (before ++ [row]) = [row.state] := by
  rw [startedStates, List.drop_left]
  rfl

theorem approvedRuns_append_iff (h : ApprovedRuns s) (hdata : data.jobs = s.data.jobs ++ [row])
    (hfresh : ∀ job ∈ s.data.jobs, job.id ≠ row.id)
    (hheads : row.state.isActive = true → ∀ job ∈ s.data.jobs, job.state.isActive = true →
      job.caseIds.head? ≠ row.caseIds.head?) :
    ApprovedRuns (s.after data []) ↔
      row.state.isDecided = false ∧ ApartFromActive s.data row.id row.caseIds := by
  have happroved : (s.after data []).approved = s.approved := by
    rw [GallringRecords.after, hdata, approvedTerms_append, List.append_nil]
  have hstarted : (s.after data []).started = s.started ++ [row.state] := by
    rw [GallringRecords.after, hdata, startedStates_append]
  have hjobs : (s.after data []).data.jobs = s.data.jobs ++ [row] := hdata
  have hmem : ∀ {job}, job ∈ (s.after data []).data.jobs ↔ job ∈ s.data.jobs ∨ job = row := by
    intro job
    rw [hjobs, List.mem_append, List.mem_singleton]
  constructor
  · intro h'
    have hnew : row.state.isDecided = false := by
      refine h'.started row.state ?_
      rw [hstarted]
      exact List.mem_append_right _ (List.mem_singleton_self _)
    refine ⟨hnew, fun other hother hid hactive => ?_⟩
    have hrow := isActive_of_not_decided hnew
    refine (disjoint_iff_sharesOnlyFirst (hheads hrow other hother hactive).symm).mp ?_
    exact h'.apart row (hmem.mpr (Or.inr rfl)) other (hmem.mpr (Or.inl hother)) hid.symm hrow
      hactive
  · rintro ⟨hnew, hapart⟩
    have hrow := isActive_of_not_decided hnew
    have hdisjoint : ∀ other ∈ s.data.jobs, other.state.isActive = true →
        row.caseIds.Disjoint other.caseIds := fun other hother hactive =>
      (disjoint_iff_sharesOnlyFirst (hheads hrow other hother hactive).symm).mpr
        (hapart other hother (hfresh other hother) hactive)
    refine ⟨?_, ?_, ?_, ?_, ?_⟩
    · rw [hstarted]
      intro state hstate
      rcases List.mem_append.mp hstate with hold | hlast
      · exact h.started state hold
      · rw [List.mem_singleton.mp hlast]
        exact hnew
    · rw [happroved]
      intro terms hterms
      exact h.executed terms ((List.mem_append.mp hterms).resolve_right List.not_mem_nil)
    · rw [happroved]
      intro terms hterms
      obtain ⟨job, hjob, hkept⟩ := h.kept terms hterms
      exact ⟨job, hmem.mpr (Or.inl hjob), hkept⟩
    · rw [happroved]
      intro job hjob hstate
      rcases hmem.mp hjob with hold | rfl
      · exact h.approvals job hold hstate
      · rw [isDecided_of_isApproved hstate] at hnew
        cases hnew
    · intro a ha b hb hne hactive hactive'
      rcases hmem.mp ha with ha | rfl
      · rcases hmem.mp hb with hb | rfl
        · exact h.apart a ha b hb hne hactive hactive'
        · exact (hdisjoint a ha hactive).symm
      · rcases hmem.mp hb with hb | rfl
        · exact hdisjoint b hb hactive'
        · exact absurd rfl hne

/-! ## Rows that are changed -/

structure KeepsApproval (approved : List GallringTerms) (old new : GallringJobRow) : Prop where
  terms : old.terms ∈ approved → new.terms = old.terms
  decided : old.state.isDecided = true → new.state.isDecided = true
  approved : new.state.isApproved = true →
    old.state.isApproved = true ∨ old.state ≠ .APPROVED ∧ new.state = .APPROVED

theorem mem_approvedTerms {terms : GallringTerms} : terms ∈ approvedTerms before after ↔
    ∃ old new, (old, new) ∈ before.zip after ∧ old.state ≠ .APPROVED ∧ new.state = .APPROVED ∧
      new.terms = terms := by
  simp only [approvedTerms, List.mem_filterMap, Prod.exists, Option.ite_none_right_eq_some,
    Option.some.injEq, and_assoc]

theorem startedStates_of_length (h : before.length = after.length) :
    startedStates before after = [] := by
  rw [startedStates, List.drop_eq_nil_of_le h.ge, List.map_nil]

theorem approvedRuns_of_keepsApproval (h : ApprovedRuns s) {executed : List GallringTerms}
    (hexecuted : ∀ terms ∈ executed, terms ∈ s.approved)
    (hkeeps : List.Forall₂ (KeepsApproval s.approved) s.data.jobs data.jobs)
    (hapart : ∀ a ∈ data.jobs, ∀ b ∈ data.jobs, a.id ≠ b.id → a.state.isActive = true →
      b.state.isActive = true → a.caseIds.Disjoint b.caseIds) :
    ApprovedRuns (s.after data executed) := by
  obtain ⟨hlength, hpairs⟩ := List.forall₂_iff_zip.mp hkeeps
  have hnew : ∀ terms, terms ∈ approvedTerms s.data.jobs data.jobs →
      terms ∈ (s.after data executed).approved := fun terms hterms =>
    List.mem_append_right _ hterms
  refine ⟨?_, ?_, ?_, ?_, hapart⟩
  · intro state hstate
    rw [GallringRecords.after, startedStates_of_length hlength, List.append_nil] at hstate
    exact h.started state hstate
  · intro terms hterms
    rcases List.mem_append.mp hterms with hold | hterms
    · exact List.mem_append_left _ (h.executed terms hold)
    · exact List.mem_append_left _ (hexecuted terms hterms)
  · intro terms hterms
    rcases List.mem_append.mp hterms with hold | hterms
    · obtain ⟨old, hmem, rfl, hdecided⟩ := h.kept terms hold
      rw [← List.map_fst_zip hlength.le] at hmem
      obtain ⟨⟨_, new⟩, hpair, rfl⟩ := List.mem_map.mp hmem
      have hkept := hpairs hpair
      exact ⟨new, (List.of_mem_zip hpair).2, hkept.terms hold, hkept.decided hdecided⟩
    · obtain ⟨old, new, hpair, -, hstate, rfl⟩ := mem_approvedTerms.mp hterms
      refine ⟨new, (List.of_mem_zip hpair).2, rfl, ?_⟩
      rw [hstate]
      rfl
  · intro new hmem hstate
    have hmem : new ∈ data.jobs := hmem
    rw [← List.map_snd_zip hlength.ge] at hmem
    obtain ⟨⟨old, new⟩, hpair, rfl⟩ := List.mem_map.mp hmem
    have hkept := hpairs hpair
    rcases hkept.approved hstate with hold | ⟨hold, hstate⟩
    · have hterms := h.approvals old (List.of_mem_zip hpair).1 hold
      rw [hkept.terms hterms]
      exact List.mem_append_left _ hterms
    · exact hnew _ (mem_approvedTerms.mpr ⟨old, new, hpair, hold, hstate, rfl⟩)

theorem keepsApproval_of_keepsRun {approved : List GallringTerms} {old new : GallringJobRow}
    (h : KeepsRun old new) : KeepsApproval approved old new :=
  ⟨fun _ => h.terms, h.decided, fun hstate => Or.inl (h.approved hstate)⟩

theorem approvedRuns_of_keepsRuns (h : ApprovedRuns s) (hkeeps : KeepsRuns s.data data)
    {executed : List GallringTerms} (hexecuted : ∀ terms ∈ executed, terms ∈ s.approved) :
    ApprovedRuns (s.after data executed) := by
  refine approvedRuns_of_keepsApproval h hexecuted
    (hkeeps.imp fun _ _ => keepsApproval_of_keepsRun) ?_
  -- every active row was there before, with the same cases
  have hbefore : ∀ new ∈ data.jobs, new.state.isActive = true → ∃ old ∈ s.data.jobs,
      old.id = new.id ∧ old.caseIds = new.caseIds ∧ old.state.isActive = true := by
    intro new hnew hactive
    obtain ⟨hlength, hpairs⟩ := List.forall₂_iff_zip.mp hkeeps
    rw [← List.map_snd_zip hlength.ge] at hnew
    obtain ⟨⟨old, _⟩, hpair, rfl⟩ := List.mem_map.mp hnew
    have hkept := hpairs hpair
    exact ⟨old, (List.of_mem_zip hpair).1, (congrArg (·.gallringJobId) hkept.terms).symm,
      (congrArg (·.caseIds) hkept.terms).symm, hkept.active hactive⟩
  intro a ha b hb hne hactive hactive'
  obtain ⟨olda, holda, haid, hacases, haactive⟩ := hbefore a ha hactive
  obtain ⟨oldb, holdb, hbid, hbcases, hbactive⟩ := hbefore b hb hactive'
  rw [← hacases, ← hbcases]
  exact h.apart olda holda oldb holdb (by rwa [haid, hbid]) haactive hbactive

end Rows

/-! ## The writes -/

section Writes

variable {s s' : GallringRecords} {data data' : RetentionData} {row : GallringJobRow}
  {gallringJobId : UUID}

theorem heads_of_onInsert (h : gallringJobs.onInsert data row = .ok ()) :
    row.state.isActive = true → ∀ job ∈ data.jobs, job.state.isActive = true →
      job.caseIds.head? ≠ row.caseIds.head? := by
  simp only [gallringJobs, retentionGuard_eq_ok, refuse_append, refuse_violates,
    Bool.and_eq_false_imp, List.any_eq_false, Bool.and_eq_true, not_and, beq_iff_eq] at h
  exact fun hactive job hjob hother => h.2 hactive job hjob hother

theorem of_gallringRowConstraints {others : List GallringJobRow}
    (h : refuse (gallringRowConstraints others row) = .ok ()) :
    (∀ job ∈ others, job.id ≠ row.id) ∧ (row.state.isActive = true → ∀ job ∈ others,
      job.state.isActive = true → job.caseIds.head? ≠ row.caseIds.head?) := by
  simp only [gallringRowConstraints, refuse_append, refuse_violates, Bool.and_eq_false_imp,
    List.any_eq_false, Bool.and_eq_true, not_and, beq_iff_eq] at h
  exact ⟨h.1.1.1.1.1, fun hactive job hjob hother => h.2 hactive job hjob hother⟩

theorem apart_of_assign {f : GallringJobRow → GallringJobRow} {job : GallringJobRow}
    (hids : (data.jobs.map (·.id)).Nodup) (hjob : job ∈ data.jobs)
    (hold : ∀ a ∈ data.jobs, ∀ b ∈ data.jobs, a.id ≠ b.id → a.state.isActive = true →
      b.state.isActive = true → a.caseIds.Disjoint b.caseIds)
    (hnew : (f job).state.isActive = true → ∀ other ∈ data.jobs, other.id ≠ job.id →
      other.state.isActive = true → (f job).caseIds.Disjoint other.caseIds) :
    ∀ a ∈ (data.assignJob job.id f).jobs, ∀ b ∈ (data.assignJob job.id f).jobs, a.id ≠ b.id →
      a.state.isActive = true → b.state.isActive = true → a.caseIds.Disjoint b.caseIds := by
  intro a ha b hb hne hactive hactive'
  rcases (mem_assignJob hids hjob).mp ha with rfl | ⟨ha, haid⟩
  · rcases (mem_assignJob hids hjob).mp hb with rfl | ⟨hb, hbid⟩
    · exact absurd rfl hne
    · exact hnew hactive b hb hbid hactive'
  · rcases (mem_assignJob hids hjob).mp hb with rfl | ⟨hb, hbid⟩
    · exact (hnew hactive' a ha haid hactive).symm
    · exact hold a ha b hb hne hactive hactive'

theorem approvedRuns_of_approve (h : ApprovedRuns s) (hids : (s.data.jobs.map (·.id)).Nodup)
    {subjectId : UUID}
    (hstep : (approveGallringJob subjectId gallringJobId).outcome s.data = some data) :
    ApprovedRuns (s.after data []) := by
  obtain ⟨job, hjob, rfl, hstate, -, rfl⟩ := approveGallringJob_eq_some hids hstep
  have hactive : job.state.isActive = true := by
    rw [hstate]
    rfl
  refine approvedRuns_of_keepsApproval h (fun _ hterms => absurd hterms List.not_mem_nil) ?_ ?_
  · refine forall₂_assign (fun row => keepsApproval_of_keepsRun (.refl row)) fun row hrow hid => ?_
    obtain rfl := eq_of_key_eq hids hrow hjob (beq_iff_eq.mp hid)
    refine ⟨fun _ => rfl, fun _ => rfl, fun _ => Or.inr ⟨?_, rfl⟩⟩
    rw [hstate]
    nofun
  · exact apart_of_assign hids hjob h.apart fun _ other hother hid hactive' =>
      h.apart job hjob other hother (Ne.symm hid) hactive hactive'

theorem approvedRuns_update_iff (h : ApprovedRuns s) (hids : (s.data.jobs.map (·.id)).Nodup)
    {f : GallringJobRow → GallringJobRow} {job : GallringJobRow} (hjob : job ∈ s.data.jobs)
    (hguard : guardedGallringJobs.onUpdate s.data job (f job) = .ok ()) :
    ApprovedRuns (s.after (s.data.assignJob job.id f) []) ↔
      (job.terms ∈ s.approved → (f job).terms = job.terms) ∧
        ((f job).state.isActive = true →
          ApartFromActive s.data job.id (f job).caseIds) := by
  simp only [guardedGallringJobs, retentionGuard_eq_ok, refuse_append] at hguard
  have hallowed := allowed_of_onUpdate hguard.1.1
  obtain ⟨hfresh, hheads⟩ := of_gallringRowConstraints hguard.1.2
  have hothers : ∀ other ∈ s.data.jobs, other.id ≠ job.id →
      other ∈ s.data.jobs.filter fun row => row.id != job.id := fun other hother hid =>
    List.mem_filter.mpr ⟨hother, bne_iff_ne.mpr hid⟩
  have hdisjoint : (f job).state.isActive = true → ∀ other ∈ s.data.jobs, other.id ≠ job.id →
      other.state.isActive = true →
        ((f job).caseIds.Disjoint other.caseIds ↔
          SharesOnlyFirst (f job).caseIds other.caseIds) := fun hactive other hother hid hactive' =>
    disjoint_iff_sharesOnlyFirst (hheads hactive other (hothers other hother hid) hactive').symm
  constructor
  · intro h'
    refine ⟨fun hterms => ?_, fun hactive other hother hid hactive' => ?_⟩
    · obtain ⟨kept, hkept, hsame, -⟩ := h'.kept job.terms (List.mem_append_left _ hterms)
      rcases (mem_assignJob hids hjob).mp hkept with rfl | ⟨-, hid⟩
      · exact hsame
      · exact absurd (congrArg (·.gallringJobId) hsame) hid
    · refine (hdisjoint hactive other hother hid hactive').mp (h'.apart (f job) ?_ other ?_ ?_
        hactive hactive')
      · exact (mem_assignJob hids hjob).mpr (Or.inl rfl)
      · exact (mem_assignJob hids hjob).mpr (Or.inr ⟨hother, hid⟩)
      · exact (hfresh other (hothers other hother hid)).symm
  · rintro ⟨hterms, hapart⟩
    refine approvedRuns_of_keepsApproval h (fun _ hterms => absurd hterms List.not_mem_nil) ?_ ?_
    · refine forall₂_assign (fun row => keepsApproval_of_keepsRun (.refl row))
        fun row hrow hid => ?_
      obtain rfl := eq_of_key_eq hids hrow hjob (beq_iff_eq.mp hid)
      refine ⟨hterms, ?_, ?_⟩
      all_goals
        revert hallowed
        cases row.state <;> cases (f row).state <;> decide
    · exact apart_of_assign hids hjob h.apart fun hactive other hother hid hactive' =>
        (hdisjoint hactive other hother hid hactive').mpr (hapart hactive other hother hid hactive')

/-! ### The primary key -/

theorem map_id_of_keepsRun : ∀ {before after : List GallringJobRow},
    List.Forall₂ KeepsRun before after → after.map (·.id) = before.map (·.id)
  | _, _, .nil => rfl
  | old :: _, new :: _, .cons hrow hrows => by
    have hid : new.id = old.id := congrArg (·.gallringJobId) hrow.terms
    rw [List.map_cons, List.map_cons, hid, map_id_of_keepsRun hrows]

theorem ids_of_keepsRuns (h : KeepsRuns data data') :
    data'.jobs.map (·.id) = data.jobs.map (·.id) := map_id_of_keepsRun h

/-! ### One write -/

theorem takenUp_approved (h : ApprovedRuns s) (step : RetentionStep) :
    ∀ terms ∈ takenUp s.data step, terms ∈ s.approved := by
  cases step with
  | execute env gallringJobId =>
    intro terms hterms
    obtain ⟨job, hjob, rfl⟩ := List.mem_map.mp hterms
    obtain ⟨hfind, hstate⟩ := Option.filter_eq_some_iff.mp (Option.mem_toList.mp hjob)
    refine h.approvals job (exists_of_find?_key hfind).1 ?_
    rw [beq_iff_eq.mp hstate]
    rfl
  | surroundings next => exact fun _ hterms => absurd hterms List.not_mem_nil
  | queue subjectId policyKey caseIds gallringJobId =>
    exact fun _ hterms => absurd hterms List.not_mem_nil
  | approve subjectId gallringJobId => exact fun _ hterms => absurd hterms List.not_mem_nil

theorem gallringWrite_spec {write : GallringWrite} (hids : (s.data.jobs.map (·.id)).Nodup)
    (h : gallringWrite s write = some s') : (s'.data.jobs.map (·.id)).Nodup ∧
      (ApprovedRuns s → (ApprovedRuns s' ↔ WritesApproved s write)) := by
  cases write with
  | operation step =>
    obtain ⟨data, hstep, h⟩ := Option.bind_eq_some_iff.mp h
    obtain rfl := Option.some.inj h
    cases step with
    | surroundings next =>
      have hjobs : data.jobs = s.data.jobs := by
        cases hstep
        rfl
      refine ⟨by rwa [← hjobs] at hids, fun h => iff_of_true ?_ trivial⟩
      exact approvedRuns_of_keepsRuns h (keepsRuns_of_jobs_eq hjobs) (takenUp_approved h _)
    | queue subjectId policyKey caseIds gallringJobId =>
      obtain ⟨-, policy, hinsert, rfl⟩ := queueGallring_eq_some hstep
      have hfresh := fresh_of_onInsert hinsert
      refine ⟨nodup_concat_key hids hfresh, fun h => ?_⟩
      refine (approvedRuns_append_iff h rfl hfresh (heads_of_onInsert hinsert)).trans ?_
      exact and_iff_right rfl
    | approve subjectId gallringJobId =>
      refine ⟨?_, fun h => iff_of_true (approvedRuns_of_approve h hids hstep) trivial⟩
      obtain ⟨job, hjob, rfl, -, -, rfl⟩ := approveGallringJob_eq_some hids hstep
      exact nodup_assign_key hids hjob fun _ _ hid => hid
    | execute env gallringJobId =>
      have hkeeps : KeepsRuns s.data data := by
        rw [retentionStep] at hstep
        split at hstep
        · obtain rfl := Option.some.inj hstep
          exact keepsRuns_execution gallringJobId s.data
        · cases hstep
      refine ⟨?_, fun h => iff_of_true ?_ trivial⟩
      · rw [← ids_of_keepsRuns hkeeps] at hids
        exact hids
      · exact approvedRuns_of_keepsRuns h hkeeps (takenUp_approved h _)
  | insert row =>
    obtain ⟨data, hinsert, h⟩ := Option.bind_eq_some_iff.mp h
    obtain rfl := Option.some.inj h
    obtain ⟨_, hinsert⟩ := Transaction.outcome_eq_some.mp hinsert
    obtain ⟨hguard, rfl⟩ := Table.insert_eq_ok.mp hinsert
    obtain ⟨hfresh, hheads⟩ := of_gallringRowConstraints (retentionGuard_eq_ok.mp hguard)
    exact ⟨nodup_concat_key hids hfresh, fun h => approvedRuns_append_iff h rfl hfresh hheads⟩
  | update gallringJobId f =>
    obtain ⟨data, hupdate, h⟩ := Option.bind_eq_some_iff.mp h
    obtain rfl := Option.some.inj h
    rcases Table.update_key_cases hupdate with ⟨hnone, rfl⟩ | ⟨job, hjob, rfl, hguard, rfl⟩
    · refine ⟨hids, fun h => iff_of_true ?_ fun job hjob hid => absurd hid (hnone job hjob)⟩
      exact approvedRuns_of_keepsRuns h (keepsRuns_of_jobs_eq rfl)
        fun _ hterms => absurd hterms List.not_mem_nil
    · refine ⟨nodup_assign_key hids hjob fun other hother hid => ?_, fun h => ?_⟩
      · have hchecks := hguard
        simp only [guardedGallringJobs, retentionGuard_eq_ok, refuse_append] at hchecks
        exact (of_gallringRowConstraints hchecks.1.2).1 other
          (List.mem_filter.mpr ⟨hother, bne_iff_ne.mpr hid⟩)
      · refine (approvedRuns_update_iff h hids hjob hguard).trans ⟨fun hkeeps row hrow hid => ?_,
          fun hkeeps => hkeeps job hjob rfl⟩
        obtain rfl := eq_of_key_eq hids hrow hjob hid
        exact hkeeps

end Writes

/-! ## Runs of writes -/

def RetentionData.records (data : RetentionData) : GallringRecords := ⟨data, [], [], []⟩

theorem approvedRuns_of_none {data : RetentionData} (hnone : data.jobs = []) :
    ApprovedRuns data.records := by
  refine ⟨nofun, nofun, nofun, ?_, ?_⟩
  · intro job hjob
    exact absurd (hnone ▸ hjob : job ∈ []) List.not_mem_nil
  · intro a ha
    exact absurd (hnone ▸ ha : a ∈ []) List.not_mem_nil

/--
Whatever is done to the runs of a tenant that has none: what is executed is always what has been
approved, and no two active runs share a case, if and only if no run starts as decided, no update
changes the terms that have been approved, and runs that become active share a case with an active
one only where their first cases are the same.
-/
theorem approvedRuns_throughout_iff {data : RetentionData} (hnone : data.jobs = [])
    {writes : List GallringWrite} {s : GallringRecords}
    (h : run gallringWrite data.records writes = some s) :
    Throughout gallringWrite ApprovedRuns data.records writes ↔
      Meets gallringWrite WritesApproved data.records writes := by
  have hids : (data.records.data.jobs.map (·.id)).Nodup := by
    show (data.jobs.map (·.id)).Nodup
    rw [hnone]
    exact List.nodup_nil
  refine throughout_iff_meets (fun s write s' hids h => (gallringWrite_spec hids h).1)
    (fun s write s' hids hruns h => (gallringWrite_spec hids h).2 hruns) hids
    (approvedRuns_of_none hnone) h

def closedCases : RetentionData where
  tenantId := "tenant"
  clock := 31 * 86400000
  policies := [⟨"cases", 1,
    ⟨"cases", 1, .business_data, .delete_after_period, some 30, true, none⟩, true⟩]
  cases := [⟨"case-1", "completed", some 0⟩, ⟨"case-2", "completed", some 0⟩]
  legalHolds := []
  archiveExports := []
  jobs := []
  reports := []
  executions := []
  documents := []
  versions := []
  packages := []
  packageFiles := []
  processorReports := []
  versionReferences := []
  messages := []
  objects := []

theorem approvedRuns_throughout_single : Throughout gallringWrite ApprovedRuns closedCases.records
    [.operation (.queue "requester" "cases" ["case-1", "case-2"] "run")] := by
  obtain ⟨s, hs⟩ := Option.isSome_iff_exists.mp
    (show (run gallringWrite closedCases.records
      [.operation (.queue "requester" "cases" ["case-1", "case-2"] "run")]).isSome = true by
        decide +kernel)
  refine (approvedRuns_throughout_iff rfl hs).mpr ⟨?_, fun _ _ => trivial⟩
  exact fun other hother => absurd hother List.not_mem_nil

def queuedTwice : List GallringWrite :=
  [.operation (.queue "requester" "cases" ["case-1", "case-2"] "run-1"),
    .operation (.queue "requester" "cases" ["case-2"] "run-2")]

/-- Two runs over the second case are active, as the index only sees the first one. -/
theorem not_approvedRuns_second_case : ¬∀ (data : RetentionData) (writes : List GallringWrite)
    (s : GallringRecords), data.jobs = [] → run gallringWrite data.records writes = some s →
      Throughout gallringWrite ApprovedRuns data.records writes := by
  intro hall
  have hrun : (run gallringWrite closedCases.records queuedTwice).map
      (fun s => s.data.jobs.map fun job => (job.id, job.state, job.caseIds)) =
      some [("run-1", .PLANNED, ["case-1", "case-2"]), ("run-2", .PLANNED, ["case-2"])] := by
    decide +kernel
  obtain ⟨s, hs, hjobs⟩ := Option.map_eq_some_iff.mp hrun
  have hruns : ApprovedRuns s := (hall _ _ s rfl hs).last hs
  have hmem : ∀ row : UUID × GallringState × List UUID,
      row ∈ s.data.jobs.map (fun job => (job.id, job.state, job.caseIds)) →
        ∃ job ∈ s.data.jobs, job.id = row.1 ∧ job.state = row.2.1 ∧ job.caseIds = row.2.2 := by
    intro row hrow
    obtain ⟨job, hjob, rfl⟩ := List.mem_map.mp hrow
    exact ⟨job, hjob, rfl, rfl, rfl⟩
  rw [hjobs] at hmem
  obtain ⟨a, ha, haid, hastate, hacases⟩ := hmem _ (List.mem_cons_self)
  obtain ⟨b, hb, hbid, hbstate, hbcases⟩ := hmem _ (List.mem_cons_of_mem _ List.mem_cons_self)
  have hapart := hruns.apart a ha b hb (by rw [haid, hbid]; decide) (by rw [hastate]; rfl)
    (by rw [hbstate]; rfl)
  rw [hacases, hbcases] at hapart
  exact hapart (List.mem_cons_of_mem _ List.mem_cons_self) List.mem_cons_self

end Kommunsign
