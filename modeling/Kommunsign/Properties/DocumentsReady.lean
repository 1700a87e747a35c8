import Kommunsign.Worker.DocumentPreparation

/-!
# The last document that becomes ready takes the case along

* `case_ready_with_last_document` — a run keeps the promise exactly when no conversion of an office
  document is the last one
* `office_document_last` — a case of one office document, which stays in preparation

Two conversions may overlap without seeing each other's version. What saves them is the head of the
chain: the second waits for it until the first has committed, and looks at the case only then.
-/

namespace Kommunsign

open Infra

/-! ## What the statements leave -/

theorem setVersion_keys {id : Id} {statuses : List DocumentStatus}
    {f : PreparedVersion → PreparedVersion} (hf : ∀ v, (f v).id = v.id)
    (versions : List PreparedVersion) :
    (setVersion id statuses f versions).map (·.id) = versions.map (·.id) :=
  map_assign fun v _ _ => hf v

theorem mem_setVersion_of_ne {id : Id} {statuses : List DocumentStatus}
    {f : PreparedVersion → PreparedVersion} {versions : List PreparedVersion} {v : PreparedVersion}
    (hv : v ∈ versions) (hne : v.id ≠ id) : v ∈ setVersion id statuses f versions :=
  mem_assign.mpr ⟨v, hv, by simp [hne]⟩

theorem exists_setVersion_of_not_ready {id : Id} {statuses : List DocumentStatus}
    {status : DocumentStatus} (hstatus : status ≠ .ready) {versions : List PreparedVersion}
    {v : PreparedVersion} (hv : v ∈ versions) (hready : v.status ≠ .ready) :
    ∃ v' ∈ setVersion id statuses ({ · with status := status }) versions,
      v'.id = v.id ∧ v'.status ≠ .ready := by
  by_cases hmatch : (v.id == id && statuses.contains v.status) = true
  · exact ⟨{ v with status := status }, mem_assign.mpr ⟨v, hv, (if_pos hmatch).symm⟩, rfl, hstatus⟩
  · exact ⟨v, mem_assign.mpr ⟨v, hv, (if_neg hmatch).symm⟩, rfl, hready⟩

theorem readyVersion_id (handler : CanonicalizeHandler) (v : PreparedVersion) :
    (readyVersion handler v).id = v.id := by
  cases handler <;> rfl

theorem readyVersion_status (handler : CanonicalizeHandler) (v : PreparedVersion) :
    (readyVersion handler v).status = .ready := by
  cases handler <;> rfl

/-! ## What every reachable state keeps -/

structure Preparation.Orderly (s : Preparation) : Prop where
  keys : (s.rows.versions.map (·.id)).Nodup
  marked : ∀ (i : Nat) (job : Conversion), s.conversions[i]?.join = some job → job.marked = true →
    ∃ v ∈ s.rows.versions, v.id = job.versionId ∧ v.status = .canonicalizing
  alone : ∀ (i j : Nat) (a b : Conversion),
    s.conversions[i]?.join = some a → s.conversions[j]?.join = some b →
    a.marked = true → b.marked = true → a.versionId = b.versionId → i = j
  head : ∀ (i : Nat) (job : Conversion), s.conversions[i]?.join = some job →
    job.atHead = true → s.chainHead = some i
  readied : ∀ (i : Nat) (job : Conversion), s.conversions[i]?.join = some job →
    job.readied = true → s.rows.status = .preparing
  looked : ∀ (i : Nat) (handler : CanonicalizeHandler) (id : Id) (marked : Bool),
    s.conversions[i]?.join = some ⟨handler, id, .looked marked false⟩ →
    s.rows.status = .preparing →
    ∃ v ∈ s.rows.versions, v.status ≠ .ready ∧ (marked = true → v.id ≠ id)

theorem orderly_initial : Preparation.initial.Orderly where
  keys := List.nodup_nil
  marked := by simp [Preparation.initial]
  alone := by simp [Preparation.initial]
  head := by simp [Preparation.initial]
  readied := by simp [Preparation.initial]
  looked := by simp [Preparation.initial]

theorem versionKept_of_marked {s : Preparation} {i : Nat} {job : Conversion}
    (hjob : s.conversions[i]?.join = some job) (hmarked : job.marked = true) :
    s.versionKept job.versionId = true := by
  refine List.any_eq_true.mpr ⟨some job, mem_of_slot hjob, ?_⟩
  simp [hmarked]

theorem caseKept_of_readied {s : Preparation} {i : Nat} {job : Conversion}
    (hjob : s.conversions[i]?.join = some job) (hreadied : job.readied = true) :
    s.caseKept = true :=
  List.any_eq_true.mpr ⟨some job, mem_of_slot hjob, by simpa using hreadied⟩

/--
What another transaction may do to the rows: it leaves those that are kept, and what it makes of the
case has something left that is not ready.
-/
structure Harmless (s : Preparation) (rows : CaseDocuments) : Prop where
  keys : (rows.versions.map (·.id)).Nodup
  kept : ∀ v ∈ s.rows.versions, s.versionKept v.id = true → v ∈ rows.versions
  caseKept : s.caseKept = true → rows.status = s.rows.status
  unready : rows.status = .preparing →
    (s.rows.status = .preparing ∧ ∀ v ∈ s.rows.versions, v.status ≠ .ready →
      ∃ v' ∈ rows.versions, v'.id = v.id ∧ v'.status ≠ .ready) ∨
    ∃ v' ∈ rows.versions, v'.status ≠ .ready ∧ ∀ v ∈ s.rows.versions, v.id ≠ v'.id

theorem Preparation.Orderly.harmless {s : Preparation} (hs : s.Orderly) {rows : CaseDocuments}
    (h : Harmless s rows) : Preparation.Orderly { s with rows := rows } where
  keys := h.keys
  marked i job hjob hmarked := by
    obtain ⟨v, hv, hid, hstatus⟩ := hs.marked i job hjob hmarked
    have hkept : s.versionKept v.id = true := by
      rw [hid]
      exact versionKept_of_marked hjob hmarked
    exact ⟨v, h.kept v hv hkept, hid, hstatus⟩
  alone := hs.alone
  head := hs.head
  readied i job hjob hreadied := by
    dsimp only
    rw [h.caseKept (caseKept_of_readied hjob hreadied)]
    exact hs.readied i job hjob hreadied
  looked i handler id marked hjob hstatus := by
    rcases h.unready hstatus with ⟨hpreparing, hold⟩ | ⟨v', hv', hready, hfresh⟩
    · obtain ⟨v, hv, hvready, hne⟩ := hs.looked i handler id marked hjob hpreparing
      obtain ⟨v', hv', hid, hready⟩ := hold v hv hvready
      refine ⟨v', hv', hready, fun hmarked => ?_⟩
      rw [hid]
      exact hne hmarked
    · refine ⟨v', hv', hready, fun hmarked hid => ?_⟩
      -- the version of the conversion is an old one
      obtain ⟨v, hv, hvid, -⟩ := hs.marked i _ hjob hmarked
      exact hfresh v hv (hvid.trans hid.symm)

/-! ## The steps of the other transactions -/

theorem harmless_setVersion {s : Preparation} (hs : s.Orderly) {id : Id}
    {statuses : List DocumentStatus} {status : DocumentStatus} (hstatus : status ≠ .ready)
    (hkept : s.versionKept id = false) :
    Harmless s { s.rows with
      versions := setVersion id statuses ({ · with status := status }) s.rows.versions } where
  keys := by
    dsimp only
    rw [setVersion_keys (by intro v; rfl)]
    exact hs.keys
  kept v hv hvkept := by
    refine mem_setVersion_of_ne hv fun hid => ?_
    rw [hid, hkept] at hvkept
    cases hvkept
  caseKept _ := rfl
  unready h := .inl ⟨h, fun _ hv hready => exists_setVersion_of_not_ready hstatus hv hready⟩

theorem setVersion_eq_some {s s' : Preparation} {id : Id} {statuses : List DocumentStatus}
    {status : DocumentStatus} (h : s.setVersion id statuses status = some s') :
    s.versionKept id = false ∧ s' = { s with rows := { s.rows with
      versions := setVersion id statuses ({ · with status := status }) s.rows.versions } } := by
  unfold Preparation.setVersion at h
  split at h
  · exact nomatch h
  · rename_i hkept
    exact ⟨by simpa using hkept, (Option.some.inj h).symm⟩

theorem harmless_addDocument {s : Preparation} (hs : s.Orderly) {id : Id} (mimeType : String)
    (hnew : ∀ v ∈ s.rows.versions, v.id ≠ id) (hcase : s.caseKept = false) :
    Harmless s {
      status := if s.rows.status = .draft then .preparing else s.rows.status
      versions := s.rows.versions ++ [⟨id, mimeType, .quarantined⟩] } where
  keys := by
    rw [List.map_append, List.nodup_append]
    refine ⟨hs.keys, by simp, ?_⟩
    intro a ha b hb hab
    obtain ⟨v, hv, rfl⟩ := List.mem_map.mp ha
    rw [List.map_singleton, List.mem_singleton] at hb
    exact hnew v hv (hab.trans hb)
  kept v hv _ := List.mem_append_left _ hv
  caseKept h := by
    rw [hcase] at h
    cases h
  unready _ := .inr ⟨⟨id, mimeType, .quarantined⟩, by simp, by simp, hnew⟩

theorem not_versionKept_of_ready {s : Preparation} (hs : s.Orderly)
    (hready : ∀ v ∈ s.rows.versions, v.status = .ready) (id : Id) : s.versionKept id = false := by
  refine Bool.eq_false_iff.mpr fun hkept => ?_
  obtain ⟨slot, hslot, hjob⟩ := List.any_eq_true.mp hkept
  cases slot with
  | none => exact nomatch hjob
  | some job =>
  obtain ⟨i, hi⟩ := List.mem_iff_getElem?.mp hslot
  rw [Option.any_some, Bool.and_eq_true] at hjob
  obtain ⟨v, hv, -, hstatus⟩ := hs.marked i job (Option.join_eq_some_iff.mpr hi) hjob.1
  rw [hready v hv] at hstatus
  cases hstatus

theorem harmless_send {s : Preparation} (hs : s.Orderly)
    (hready : ∀ v ∈ s.rows.versions, v.status = .ready) (hcase : s.caseKept = false) :
    Harmless s ⟨.sent, s.rows.versions.map ({ · with status := .locked })⟩ where
  keys := by
    rw [List.map_map]
    exact hs.keys
  kept v _ hkept := by
    rw [not_versionKept_of_ready hs hready] at hkept
    cases hkept
  caseKept h := by
    rw [hcase] at h
    cases h
  unready h := nomatch h

theorem harmless_moveCase {s : Preparation} (hs : s.Orderly) {status : CaseStatus}
    (hstatus : status ≠ .preparing) (hcase : s.caseKept = false) :
    Harmless s { s.rows with status := status } where
  keys := hs.keys
  kept _ hv _ := hv
  caseKept h := by
    rw [hcase] at h
    cases h
  unready h := absurd h hstatus

/-! ## The steps of a conversion -/

theorem Preparation.Orderly.dispatch {s : Preparation} (hs : s.Orderly)
    (handler : CanonicalizeHandler) (id : Id) :
    Preparation.Orderly { s with
      conversions := s.conversions ++ [some ⟨handler, id, .converting⟩] } := by
  -- the new conversion keeps nothing yet
  have hold : ∀ (i : Nat) (job : Conversion),
      (s.conversions ++ [some ⟨handler, id, .converting⟩])[i]?.join = some job →
      job.progress ≠ .converting → s.conversions[i]?.join = some job := by
    intro i job hjob hprogress
    rcases slot_append hjob with hjob | ⟨-, hjob⟩
    · exact hjob
    · rw [Option.join_eq_some_iff, List.getElem?_singleton] at hjob
      split at hjob
      · cases hjob
        exact absurd rfl hprogress
      · exact nomatch hjob
  have hmarked : ∀ job : Conversion, job.marked = true → job.progress ≠ .converting := by
    intro job h hprogress
    simp [Conversion.marked, hprogress] at h
  exact {
    keys := hs.keys
    marked := fun i job hjob h => hs.marked i job (hold i job hjob (hmarked job h)) h
    alone := fun i j a b hi hj ha hb =>
      hs.alone i j a b (hold i a hi (hmarked a ha)) (hold j b hj (hmarked b hb)) ha hb
    head := fun i job hjob h => hs.head i job (hold i job hjob fun hprogress => by
      simp [Conversion.atHead, hprogress] at h) h
    readied := fun i job hjob h => hs.readied i job (hold i job hjob fun hprogress => by
      simp [Conversion.readied, hprogress] at h) h
    looked := fun i handler id marked hjob =>
      hs.looked i handler id marked (hold i _ hjob (by simp)) }

/--
A conversion goes on: what its new progress says holds, and the head of the chain is its own if it
has come that far.
-/
theorem Preparation.Orderly.proceed {s : Preparation} (hs : s.Orderly) {i : Nat}
    (job : Conversion) {chainHead : Option Nat}
    (hmarked : job.marked = true →
      ∃ v ∈ s.rows.versions, v.id = job.versionId ∧ v.status = .canonicalizing)
    (halone : job.marked = true → ∀ (j : Nat) (b : Conversion), j ≠ i →
      s.conversions[j]?.join = some b → b.marked = true → b.versionId ≠ job.versionId)
    (hhead : job.atHead = true → chainHead = some i)
    (hchain : ∀ j, j ≠ i → s.chainHead = some j → chainHead = some j)
    (hreadied : job.readied = true → s.rows.status = .preparing)
    (hlooked : ∀ marked, job.progress = .looked marked false → s.rows.status = .preparing →
      ∃ v ∈ s.rows.versions, v.status ≠ .ready ∧ (marked = true → v.id ≠ job.versionId)) :
    Preparation.Orderly { s.setJob i (some job) with chainHead := chainHead } where
  keys := hs.keys
  marked j b hb h := by
    rcases slot_set hb with ⟨-, hset⟩ | ⟨-, hb⟩
    · cases hset
      exact hmarked h
    · exact hs.marked j b hb h
  alone j k a b ha hb hma hmb hid := by
    rcases slot_set ha with ⟨rfl, hset⟩ | ⟨hj, hold⟩
    · cases hset
      rcases slot_set hb with ⟨rfl, -⟩ | ⟨hk, hb⟩
      · rfl
      · exact absurd hid.symm (halone hma k b hk hb hmb)
    · rcases slot_set hb with ⟨rfl, hset⟩ | ⟨-, hb⟩
      · cases hset
        exact absurd hid (halone hmb j a hj hold hma)
      · exact hs.alone j k a b hold hb hma hmb hid
  head j b hb h := by
    rcases slot_set hb with ⟨rfl, hset⟩ | ⟨hj, hb⟩
    · cases hset
      exact hhead h
    · exact hchain j hj (hs.head j b hb h)
  readied j b hb h := by
    rcases slot_set hb with ⟨-, hset⟩ | ⟨-, hb⟩
    · cases hset
      exact hreadied h
    · exact hs.readied j b hb h
  looked j handler id marked hb hstatus := by
    rcases slot_set hb with ⟨-, hset⟩ | ⟨-, hb⟩
    · cases hset
      exact hlooked marked rfl hstatus
    · exact hs.looked j handler id marked hb hstatus

theorem Conversion.versions_keys (job : Conversion) (rows : CaseDocuments) :
    (job.versions rows).map (·.id) = rows.versions.map (·.id) := by
  unfold Conversion.versions
  split
  · exact setVersion_keys (readyVersion_id job.handler) rows.versions
  · rfl

theorem Conversion.mem_versions_of_ne {job : Conversion} {rows : CaseDocuments}
    {v : PreparedVersion} (hv : v ∈ rows.versions)
    (hne : job.marked = true → v.id ≠ job.versionId) : v ∈ job.versions rows := by
  unfold Conversion.versions
  split
  · rename_i hmarked
    exact mem_setVersion_of_ne hv (hne hmarked)
  · exact hv

theorem Preparation.Orderly.endJob {s : Preparation} (hs : s.Orderly) {i : Nat} {job : Conversion}
    (hjob : s.conversions[i]?.join = some job) (hhead : job.atHead = true) :
    (s.endJob i (job.rows s.rows)).Orderly := by
  have hlast : s.chainHead = some i := hs.head i job hjob hhead
  have hbehind : ∀ (j : Nat) (b : Conversion), (s.conversions.set i none)[j]?.join = some b →
      j ≠ i ∧ s.conversions[j]?.join = some b ∧ b.atHead = false := by
    intro j b hb
    rcases slot_set hb with ⟨-, hb⟩ | ⟨hj, hb⟩
    · exact nomatch hb
    · refine ⟨hj, hb, Bool.eq_false_iff.mpr fun h => ?_⟩
      exact hj (Option.some.inj ((hs.head j b hb h).symm.trans hlast))
  exact {
    keys := by
      show ((job.versions s.rows).map (·.id)).Nodup
      rw [Conversion.versions_keys]
      exact hs.keys
    marked := by
      intro j b hb h
      obtain ⟨hj, hb, -⟩ := hbehind j b hb
      obtain ⟨v, hv, hid, hstatus⟩ := hs.marked j b hb h
      refine ⟨v, Conversion.mem_versions_of_ne hv fun hmarked heq => ?_, hid, hstatus⟩
      exact hj (hs.alone j i b job hb hjob h hmarked (hid.symm.trans heq))
    alone := by
      intro j k a b ha hb
      exact hs.alone j k a b (hbehind j a ha).2.1 (hbehind k b hb).2.1
    head := by
      intro j b hb h
      rw [(hbehind j b hb).2.2] at h
      cases h
    readied := by
      intro j b hb h
      obtain ⟨-, -, hb⟩ := hbehind j b hb
      cases hprogress : b.progress <;>
        simp [Conversion.readied, Conversion.atHead, hprogress] at h hb
    looked := by
      intro j handler id marked hb
      obtain ⟨-, -, hb⟩ := hbehind j _ hb
      cases hb }

theorem Preparation.Orderly.abandon {s : Preparation} (hs : s.Orderly) (i : Nat) :
    (s.endJob i s.rows).Orderly := by
  have hold : ∀ (j : Nat) (b : Conversion), (s.conversions.set i none)[j]?.join = some b →
      j ≠ i ∧ s.conversions[j]?.join = some b := by
    intro j b hb
    rcases slot_set hb with ⟨-, hb⟩ | ⟨hj, hb⟩
    · exact nomatch hb
    · exact ⟨hj, hb⟩
  exact {
    keys := hs.keys
    marked := fun j b hb => hs.marked j b (hold j b hb).2
    alone := fun j k a b ha hb => hs.alone j k a b (hold j a ha).2 (hold k b hb).2
    head := by
      intro j b hb h
      obtain ⟨hj, hb⟩ := hold j b hb
      show (if s.chainHead = some i then none else s.chainHead) = some j
      have hhead := hs.head j b hb h
      rw [hhead, if_neg fun h => hj (Option.some.inj h)]
    readied := fun j b hb => hs.readied j b (hold j b hb).2
    looked := fun j handler id marked hb => hs.looked j handler id marked (hold j _ hb).2 }

theorem exists_version_of_any {versions : List PreparedVersion} {id : Id}
    (h : (versions.any fun v => v.id == id && v.status == .canonicalizing) = true) :
    ∃ v ∈ versions, v.id = id ∧ v.status = .canonicalizing := by
  obtain ⟨v, hv, h⟩ := List.any_eq_true.mp h
  rw [Bool.and_eq_true, beq_iff_eq, beq_iff_eq] at h
  exact ⟨v, hv, h⟩

theorem Preparation.Orderly.exists_unready {s : Preparation} (hs : s.Orderly) {i : Nat}
    {job : Conversion} (hjob : s.conversions[i]?.join = some job)
    (hpreparing : s.rows.status = .preparing)
    (h : Kommunsign.readied s.rows.status (job.versions s.rows) = false) :
    ∃ v ∈ s.rows.versions, v.status ≠ .ready ∧ (job.marked = true → v.id ≠ job.versionId) := by
  rw [Kommunsign.readied, hpreparing, beq_self_eq_true, Bool.true_and,
    Bool.not_eq_false', List.any_eq_true] at h
  obtain ⟨v, hv, hready⟩ := h
  rw [bne_iff_ne] at hready
  unfold Conversion.versions at hv
  split at hv
  · rename_i hmarked
    obtain ⟨old, hold, rfl⟩ := mem_assign.mp hv
    by_cases hmatch : (old.id == job.versionId && [DocumentStatus.canonicalizing].contains
        old.status) = true
    · rw [if_pos hmatch, readyVersion_status] at hready
      exact absurd rfl hready
    · rw [if_neg hmatch] at hready
      refine ⟨old, hold, hready, fun _ hid => hmatch ?_⟩
      -- the row of its own version is still being converted
      obtain ⟨own, hown, hownid, hstatus⟩ := hs.marked i job hjob hmarked
      obtain rfl : old = own := eq_of_key_eq hs.keys hold hown (hid.trans hownid.symm)
      simp [hid, hstatus]
  · rename_i hmarked
    exact ⟨v, hv, hready, fun h => absurd h hmarked⟩

theorem orderly_step (s : Preparation) (a : PreparationAction) (s' : Preparation)
    (hs : s.Orderly) (h : preparationStep s a = some s') : s'.Orderly := by
  cases a with
  | addDocument id mimeType =>
    simp only [preparationStep] at h
    split at h
    · exact nomatch h
    · rename_i hguard
      simp only [Bool.or_eq_true, not_or, Bool.not_eq_true] at hguard
      cases h
      refine hs.harmless (harmless_addDocument hs mimeType (fun v hv hid => ?_) hguard.1.1)
      have hany := List.any_eq_false.mp hguard.2 v hv
      exact hany (beq_iff_eq.mpr hid)
  | scanning id =>
    obtain ⟨hkept, rfl⟩ := setVersion_eq_some h
    exact hs.harmless (harmless_setVersion hs (by decide) hkept)
  | scanPassed id =>
    obtain ⟨hkept, rfl⟩ := setVersion_eq_some h
    exact hs.harmless (harmless_setVersion hs (by decide) hkept)
  | rejectDocument id =>
    obtain ⟨hkept, rfl⟩ := setVersion_eq_some h
    exact hs.harmless (harmless_setVersion hs (by decide) hkept)
  | send =>
    simp only [preparationStep] at h
    split at h
    · exact nomatch h
    · rename_i hguard
      simp only [Bool.or_eq_true, not_or, Bool.not_eq_true] at hguard
      cases h
      refine hs.harmless (harmless_send hs (fun v hv => ?_) hguard.1.1)
      simpa using List.any_eq_false.mp hguard.2 v hv
  | moveCase status =>
    simp only [preparationStep] at h
    split at h
    · exact nomatch h
    · rename_i hguard
      simp only [Bool.or_eq_true, not_or, Bool.not_eq_true] at hguard
      cases h
      refine hs.harmless (harmless_moveCase hs (fun hstatus => ?_) hguard.1.1)
      rw [hstatus] at hguard
      exact absurd hguard.2 (by decide)
  | dispatch id =>
    simp only [preparationStep] at h
    split at h
    · exact nomatch h
    · rename_i v _
      split at h
      · cases h
        exact hs.dispatch _ id
      · exact nomatch h
  | update i =>
    simp only [preparationStep] at h
    split at h
    · rename_i handler id hjob
      split at h
      · exact nomatch h
      · rename_i hkept
        cases h
        refine hs.proceed ⟨handler, id, .updated _⟩ (fun hmarked => ?_) ?_ (fun h => nomatch h)
          (fun _ _ h => h) (fun h => nomatch h) (fun _ h => nomatch h)
        · exact exists_version_of_any hmarked
        · -- nobody keeps the row it updates
          intro _ j b _ hb hbmarked hid
          refine hkept ?_
          have := versionKept_of_marked hb hbmarked
          rwa [hid] at this
    · exact nomatch h
  | append i =>
    simp only [preparationStep] at h
    split at h
    · rename_i handler id marked hjob
      split at h
      · exact nomatch h
      · rename_i hfree
        cases h
        have hnone : s.chainHead = none := by simpa using hfree
        have hown := hs.marked i _ hjob
        have halone := fun j b hb => hs.alone j i b _ hb hjob
        refine hs.proceed ⟨handler, id, .appended marked⟩ hown
          (fun hmarked j b hj hb hbmarked hid => ?_) (fun _ => rfl) (fun j _ h => ?_)
          (fun h => nomatch h) (fun _ h => nomatch h)
        · exact hj (halone j b hb hbmarked hmarked hid)
        · rw [hnone] at h
          cases h
    · exact nomatch h
  | look i =>
    simp only [preparationStep] at h
    split at h
    · rename_i id marked hjob
      cases h
      have hhead : s.chainHead = some i := hs.head i _ hjob rfl
      have hown := hs.marked i _ hjob
      have halone := fun j b hb => hs.alone j i b _ hb hjob
      refine hs.proceed ⟨.handleDocumentCanonicalize, id, .looked marked _⟩ hown
        (fun hmarked j b hj hb hbmarked hid => ?_) (fun _ => hhead) (fun _ _ h => h)
        (fun hreadied => ?_) (fun m hprogress hpreparing => ?_)
      · exact hj (halone j b hb hbmarked hmarked hid)
      · have hboth : (s.rows.status == .preparing && _) = true := hreadied
        rw [Bool.and_eq_true, beq_iff_eq] at hboth
        exact hboth.1
      · injection hprogress with hm hreadied
        subst hm
        exact hs.exists_unready hjob hpreparing hreadied
    · exact nomatch h
  | commit i =>
    simp only [preparationStep] at h
    split at h
    · rename_i id marked readied hjob
      cases h
      exact hs.endJob hjob rfl
    · rename_i id marked hjob
      cases h
      exact hs.endJob hjob rfl
    · exact nomatch h
  | abandon i =>
    simp only [preparationStep] at h
    split at h
    · cases h
      exact hs.abandon i
    · exact nomatch h

/-! ## The promise -/

/-- Every document of the case has reached `ready`. -/
def CaseDocuments.AllReady (rows : CaseDocuments) : Prop := ∀ v ∈ rows.versions, v.status = .ready

instance (rows : CaseDocuments) : Decidable rows.AllReady :=
  inferInstanceAs (Decidable (∀ v ∈ rows.versions, v.status = .ready))

/-- The step with which the last document of a case in preparation becomes ready moves the case. -/
def MovesCase (s : Preparation) (a : PreparationAction) : Prop :=
  ∀ s', preparationStep s a = some s' → s.rows.status = .preparing → ¬s.rows.AllReady →
    s'.rows.AllReady → s'.rows.status = .ready

/--
When a conversion of an office document commits in a case in preparation, another document is not
ready yet.
-/
def OfficeNotLast (s : Preparation) : PreparationAction → Prop
  | .commit i => ∀ id,
    s.conversions[i]?.join = some ⟨.handleOfficeCanonicalize, id, .appended true⟩ →
    s.rows.status = .preparing → ∃ v ∈ s.rows.versions, v.id ≠ id ∧ v.status ≠ .ready
  | _ => True

theorem movesCase_setVersion {s : Preparation} {id : Id} {statuses : List DocumentStatus}
    {status : DocumentStatus} (hstatus : status ≠ .ready) {a : PreparationAction}
    (ha : preparationStep s a = s.setVersion id statuses status) : MovesCase s a := by
  intro s' h _ hbefore hafter
  rw [ha] at h
  obtain ⟨-, rfl⟩ := setVersion_eq_some h
  -- what was not ready is not ready after it either
  exfalso
  refine hbefore fun v hv => ?_
  by_contra hready
  obtain ⟨v', hv', -, hready'⟩ := exists_setVersion_of_not_ready hstatus hv hready
  exact hready' (hafter v' hv')

theorem movesCase_of_versions {s : Preparation} {a : PreparationAction}
    (h : ∀ s', preparationStep s a = some s' → s'.rows.versions = s.rows.versions) :
    MovesCase s a := by
  intro s' hs' _ hbefore hafter
  refine absurd (fun v hv => ?_) hbefore
  exact hafter v ((h s' hs').symm ▸ hv)

theorem movesCase_commit_document {s : Preparation} (hs : s.Orderly) {i : Nat} {id : Id}
    {marked readied : Bool}
    (hjob : s.conversions[i]?.join =
      some ⟨.handleDocumentCanonicalize, id, .looked marked readied⟩) :
    MovesCase s (.commit i) := by
  intro s' h hpreparing _ hafter
  simp only [preparationStep, hjob] at h
  cases h
  cases readied with
  | true => rfl
  | false =>
    exfalso
    obtain ⟨v, hv, hready, hne⟩ :=
      hs.looked i .handleDocumentCanonicalize id marked hjob hpreparing
    exact hready (hafter v (Conversion.mem_versions_of_ne hv hne))

theorem movesCase_commit_office_iff {s : Preparation} (hs : s.Orderly) {i : Nat} {id : Id}
    {marked : Bool}
    (hjob : s.conversions[i]?.join = some ⟨.handleOfficeCanonicalize, id, .appended marked⟩) :
    MovesCase s (.commit i) ↔ OfficeNotLast s (.commit i) := by
  have hstep : preparationStep s (.commit i) = some (s.endJob i
      (Conversion.rows ⟨.handleOfficeCanonicalize, id, .appended marked⟩ s.rows)) := by
    simp only [preparationStep, hjob]
  constructor
  · intro h id' hjob' hpreparing
    rw [hjob] at hjob'
    cases hjob'
    by_contra hother
    -- its own document was the only one that was not ready
    have hbefore : ¬s.rows.AllReady := by
      intro hall
      obtain ⟨v, hv, -, hstatus⟩ := hs.marked i _ hjob rfl
      rw [hall v hv] at hstatus
      cases hstatus
    have hmoved := h _ hstep hpreparing hbefore fun v hv => ?_
    · have hstay : s.rows.status = .ready := hmoved
      rw [hpreparing] at hstay
      cases hstay
    · obtain ⟨old, hold, rfl⟩ := mem_assign.mp hv
      by_cases hmatch : (old.id == id && [DocumentStatus.canonicalizing].contains old.status) = true
      · rw [if_pos hmatch, readyVersion_status]
      · rw [if_neg hmatch]
        by_contra hready
        have hid : old.id = id := by
          by_contra hne
          exact hother ⟨old, hold, hne, hready⟩
        obtain ⟨own, hown, hownid, hstatus⟩ := hs.marked i _ hjob rfl
        obtain rfl : old = own := eq_of_key_eq hs.keys hold hown (hid.trans hownid.symm)
        exact hmatch (by simp [hid, hstatus])
  · intro h s' hs' hpreparing hbefore hafter
    rw [hstep] at hs'
    cases hs'
    exfalso
    cases marked with
    | false => exact hbefore hafter
    | true =>
      obtain ⟨v, hv, hne, hready⟩ := h id hjob hpreparing
      let job : Conversion := ⟨.handleOfficeCanonicalize, id, .appended true⟩
      have hleft : v ∈ job.versions s.rows := Conversion.mem_versions_of_ne hv fun _ => hne
      exact hready (hafter v hleft)

theorem movesCase_iff (s : Preparation) (a : PreparationAction) (s' : Preparation)
    (hs : s.Orderly) (h : preparationStep s a = some s') : MovesCase s a ↔ OfficeNotLast s a := by
  have htrivial (hmoves : MovesCase s a) (hnot : OfficeNotLast s a) :
      MovesCase s a ↔ OfficeNotLast s a := ⟨fun _ => hnot, fun _ => hmoves⟩
  cases a with
  | addDocument id mimeType =>
    refine htrivial (fun s₁ hs₁ _ _ hafter => ?_) trivial
    simp only [preparationStep] at hs₁
    split at hs₁
    · exact nomatch hs₁
    · cases hs₁
      -- the new document is in quarantine
      exact nomatch hafter ⟨id, mimeType, .quarantined⟩ (by simp)
  | scanning id => exact htrivial (movesCase_setVersion (by decide) rfl) trivial
  | scanPassed id => exact htrivial (movesCase_setVersion (by decide) rfl) trivial
  | rejectDocument id => exact htrivial (movesCase_setVersion (by decide) rfl) trivial
  | send =>
    refine htrivial (fun s₁ hs₁ hpreparing _ _ => ?_) trivial
    simp only [preparationStep, hpreparing] at hs₁
    split at hs₁
    · exact nomatch hs₁
    · rename_i hguard
      exact absurd (by simp) hguard
  | moveCase status =>
    refine htrivial (movesCase_of_versions fun s₁ hs₁ => ?_) trivial
    simp only [preparationStep] at hs₁
    split at hs₁
    · exact nomatch hs₁
    · cases hs₁
      rfl
  | dispatch id =>
    refine htrivial (movesCase_of_versions fun s₁ hs₁ => ?_) trivial
    simp only [preparationStep] at hs₁
    split at hs₁
    · exact nomatch hs₁
    · split at hs₁
      · cases hs₁
        rfl
      · exact nomatch hs₁
  | update i =>
    refine htrivial (movesCase_of_versions fun s₁ hs₁ => ?_) trivial
    simp only [preparationStep] at hs₁
    split at hs₁
    · split at hs₁
      · exact nomatch hs₁
      · cases hs₁
        rfl
    · exact nomatch hs₁
  | append i =>
    refine htrivial (movesCase_of_versions fun s₁ hs₁ => ?_) trivial
    simp only [preparationStep] at hs₁
    split at hs₁
    · split at hs₁
      · exact nomatch hs₁
      · cases hs₁
        rfl
    · exact nomatch hs₁
  | look i =>
    refine htrivial (movesCase_of_versions fun s₁ hs₁ => ?_) trivial
    simp only [preparationStep] at hs₁
    split at hs₁
    · cases hs₁
      rfl
    · exact nomatch hs₁
  | commit i =>
    simp only [preparationStep] at h
    split at h
    · rename_i id marked readied hjob
      refine htrivial (movesCase_commit_document hs hjob) fun id' hjob' => ?_
      rw [hjob] at hjob'
      cases hjob'
    · rename_i id marked hjob
      exact movesCase_commit_office_iff hs hjob
    · exact nomatch h
  | abandon i =>
    refine htrivial (movesCase_of_versions fun s₁ hs₁ => ?_) trivial
    simp only [preparationStep] at hs₁
    split at hs₁
    · cases hs₁
      rfl
    · exact nomatch hs₁

/--
However the scans and conversions of a case follow and overlap one another, the last document that
becomes ready takes the case along, exactly when no conversion of an office document is the last.
-/
theorem case_ready_with_last_document {actions : List PreparationAction} {s : Preparation}
    (hr : run preparationStep .initial actions = some s) :
    Meets preparationStep MovesCase .initial actions ↔
      Meets preparationStep OfficeNotLast .initial actions :=
  meets_iff_meets (fun s a s' hs _ h => orderly_step s a s' hs h) movesCase_iff orderly_initial hr

def docx : String := "application/vnd.openxmlformats-officedocument.wordprocessingml.document"

/-- An office document and a PDF in one case, converted at the same time, the PDF last. -/
def officeThenPdf : List PreparationAction :=
  [.addDocument 1 docx, .addDocument 2 "application/pdf", .scanning 1, .scanning 2, .scanPassed 1,
    .scanPassed 2, .dispatch 1, .dispatch 2, .update 1, .update 0, .append 0, .commit 0, .append 1,
    .look 1, .commit 1]

theorem case_ready_with_last_document_pdf :
    Meets preparationStep MovesCase .initial officeThenPdf ↔
      Meets preparationStep OfficeNotLast .initial officeThenPdf := by
  have h : (run preparationStep .initial officeThenPdf).map (·.rows.status) = some .ready := by
    decide +kernel
  obtain ⟨s, hr, -⟩ := Option.map_eq_some_iff.mp h
  exact case_ready_with_last_document hr

/-- The only document of a case is an office document: the case stays in preparation. -/
theorem office_document_last :
    ¬∀ actions s, run preparationStep .initial actions = some s →
      Meets preparationStep MovesCase .initial actions := by
  intro h
  let before : List PreparationAction :=
    [.addDocument 1 docx, .scanning 1, .scanPassed 1, .dispatch 1, .update 0, .append 0]
  let s : Preparation := ⟨⟨.preparing, [⟨1, docx, .canonicalizing⟩]⟩,
    [some ⟨.handleOfficeCanonicalize, 1, .appended true⟩], some 0⟩
  let s' : Preparation := ⟨⟨.preparing, [⟨1, "application/pdf", .ready⟩]⟩, [none], none⟩
  have hbefore : run preparationStep .initial before = some s := by decide +kernel
  have hcommit : run preparationStep s [.commit 0] = some s' := by decide +kernel
  have hmeets := h (before ++ [.commit 0]) s' (run_append.mpr ⟨s, hbefore, hcommit⟩)
  -- the last step makes everything ready and leaves the case
  have hlast : MovesCase s (.commit 0) := (meets_append hmeets hbefore).2.1
  have hready : s'.rows.status = .ready :=
    hlast s' (by decide +kernel) rfl (by decide) (by decide)
  revert hready
  decide

end Kommunsign
