import Kommunsign.Workflow.Bindings

/-!
# The documents of a case that has been sent

A send locks every version of every document of its case. Nothing adds a document or a version to a
case afterwards, and what is locked keeps its digest.

* `Db.listedDocuments` — the names and digests of the versions of a case
* `Locked`, `locked_of_reachable` — a case with an intent has versions, all of them locked
-/

namespace Kommunsign

open Infra

/-- The name and the digest of every version of the documents of a case. -/
def Db.listedDocuments (db : Db) (signatureCaseId : Id) : List (Text × Option Digest) :=
  (db.caseVersions signatureCaseId).map fun dv => (dv.1.displayName, dv.2.sha256)

/-- What is locked of a version, with its digest. -/
def DocumentVersion.IsLocked (v : DocumentVersion) : Prop :=
  v.status.isFrozen = true ∧ v.sha256.isSome = true

structure Locked (s : Sys) : Prop where
  nonempty : ∀ si ∈ s.db.intents, s.db.caseVersions si.signatureCaseId ≠ []
  versions : ∀ si ∈ s.db.intents, ∀ dv ∈ s.db.caseVersions si.signatureCaseId, dv.2.IsLocked

/-! ## The versions of a case -/

section

variable {db : Db} {c : Id}

theorem mem_caseVersions {d : Document} {v : DocumentVersion} : (d, v) ∈ db.caseVersions c ↔
    d ∈ db.documents ∧ d.signatureCaseId = c ∧ v ∈ db.versions ∧ v.documentId = d.id := by
  simp only [Db.caseVersions, List.mem_flatMap, List.mem_filter, List.mem_map, beq_iff_eq,
    Prod.mk.injEq]
  constructor
  · rintro ⟨d', ⟨hd, hcase⟩, v', ⟨hv, hof⟩, rfl, rfl⟩
    exact ⟨hd, hcase, hv, hof⟩
  · rintro ⟨hd, hcase, hv, hof⟩
    exact ⟨d, ⟨hd, hcase⟩, v, ⟨hv, hof⟩, rfl, rfl⟩

theorem mem_listedDocuments {name : Text} {sha256 : Option Digest} :
    (name, sha256) ∈ db.listedDocuments c ↔
      ∃ d v, (d, v) ∈ db.caseVersions c ∧ d.displayName = name ∧ v.sha256 = sha256 := by
  simp only [Db.listedDocuments, List.mem_map, Prod.exists, Prod.mk.injEq]

end

section Steps

variable {s s' : Sys} {i : Step}

theorem caseVersions_before_step (hstep : Sys.step s i = some s') {c : Id}
    (hc : (s.db.case? c).isSome = true) {d : Document} {v' : DocumentVersion}
    (hv' : (d, v') ∈ s'.db.caseVersions c) :
    ∃ v, (d, v) ∈ s.db.caseVersions c ∧ VersionMove v v' := by
  obtain ⟨hd, hcase, hmem, hof⟩ := mem_caseVersions.mp hv'
  rcases intake_or_leaves hstep with ⟨intake, rfl, haccepted, rfl⟩ | hleaves
  · obtain ⟨row, hrow⟩ := Option.isSome_iff_exists.mp hc
    obtain ⟨hrow, hid⟩ := exists_of_find?_key hrow
    have hready := haccepted.ready
    simp only [Intake.isReady, Bool.and_eq_true, List.all_eq_true, beq_iff_eq] at hready
    -- the documents of the intake are of its own case, which is another one
    have hold : d ∈ s.db.documents := by
      refine (List.mem_append.mp hd).resolve_right fun hnew => haccepted.newCase row hrow ?_
      rw [hid, ← hcase, hready.1.1.2 d hnew]
    refine ⟨v', mem_caseVersions.mpr ⟨hold, hcase, ?_, hof⟩, VersionMove.refl v'⟩
    refine (List.mem_append.mp hmem).resolve_right fun hnew => ?_
    obtain ⟨-, hany⟩ := hready.1.2 v' hnew
    obtain ⟨d', hd', hid'⟩ := List.any_eq_true.mp hany
    obtain ⟨before, after, heq⟩ := List.append_of_mem hd'
    refine haccepted.documents before d' after heq d (List.mem_append_left _ hold) ?_
    rw [← hof, beq_iff_eq.mp hid']
  · rw [hleaves.documents] at hd
    obtain ⟨v, hv, hmove⟩ := hleaves.versions.exists_before hmem
    have hdocument : v'.documentId = v.documentId := by
      rw [hmove.row]
    exact ⟨v, mem_caseVersions.mpr ⟨hd, hcase, hv, hdocument.symm.trans hof⟩, hmove⟩

theorem caseVersions_of_step (hstep : Sys.step s i = some s') {c : Id} {d : Document}
    {v : DocumentVersion} (hv : (d, v) ∈ s.db.caseVersions c) :
    ∃ v', (d, v') ∈ s'.db.caseVersions c ∧ VersionMove v v' := by
  obtain ⟨hd, hcase, hmem, hof⟩ := mem_caseVersions.mp hv
  rcases intake_or_leaves hstep with ⟨intake, rfl, -, rfl⟩ | hleaves
  · exact ⟨v, mem_caseVersions.mpr ⟨List.mem_append_left _ hd, hcase, List.mem_append_left _ hmem,
      hof⟩, VersionMove.refl v⟩
  · obtain ⟨v', hv', hmove⟩ := hleaves.versions.exists_after hmem
    have hdocument : v'.documentId = v.documentId := by
      rw [hmove.row]
    refine ⟨v', mem_caseVersions.mpr ⟨?_, hcase, hv', hdocument.trans hof⟩, hmove⟩
    rw [hleaves.documents]
    exact hd

theorem listedDocuments_of_step (hstep : Sys.step s i = some s') {c : Id}
    (hc : (s.db.case? c).isSome = true) {entry : Text × Option Digest} :
    entry ∈ s'.db.listedDocuments c ↔ entry ∈ s.db.listedDocuments c := by
  obtain ⟨name, sha256⟩ := entry
  rw [mem_listedDocuments, mem_listedDocuments]
  constructor
  · rintro ⟨d, v', hv', hname, hsha⟩
    obtain ⟨v, hv, hmove⟩ := caseVersions_before_step hstep hc hv'
    refine ⟨d, v, hv, hname, ?_⟩
    rw [← hsha, hmove.row]
  · rintro ⟨d, v, hv, hname, hsha⟩
    obtain ⟨v', hv', hmove⟩ := caseVersions_of_step hstep hv
    refine ⟨d, v', hv', hname, ?_⟩
    rw [hmove.row]
    exact hsha

theorem IsLocked.of_move {v v' : DocumentVersion} (h : v.IsLocked) (hmove : VersionMove v v') :
    v'.IsLocked := by
  obtain ⟨hfrozen, hsha⟩ := h
  refine ⟨?_, ?_⟩
  · rcases hmove.status with hsame | ⟨-, hlocked⟩
    · rw [hsame, hfrozen]
    · rw [hlocked]
      rfl
  · rw [hmove.row]
    exact hsha

theorem isLocked_of_send {c : Id} {nonce : Id → Text} (hbound : Bound s)
    (hstep : Sys.step s (.send c nonce) = some s') {d : Document} {v' : DocumentVersion}
    (hv' : (d, v') ∈ s'.db.caseVersions c) : v'.IsLocked := by
  obtain ⟨row, prepared, hrow, rfl, hsendable, -, -, -, hversions, hdocuments⟩ := rows_of_send hstep
  obtain ⟨hd, hcase, hmem, hof⟩ := mem_caseVersions.mp hv'
  rw [hdocuments] at hd
  rw [hversions, Db.withLockedVersions] at hmem
  obtain ⟨v, hv, rfl⟩ := mem_assign.mp hmem
  have hdocument : v.documentId = d.id := by
    rw [← hof]
    split <;> rfl
  have hsigning : (d, v) ∈ s.db.signingDocuments row.id := by
    rw [Db.signingDocuments, (List.perm_insertionSort _ _).mem_iff]
    exact mem_caseVersions.mpr ⟨hd, hcase, hv, hdocument⟩
  obtain ⟨hsha, hready⟩ := hsendable.documents (d, v) hsigning
  have hfound : s.db.document? v.documentId = some d := by
    rw [hdocument]
    exact find?_of_mem hbound.documentsKeyed hd
  rw [if_pos (by rw [hfound, hready]; simp [hcase])]
  exact ⟨rfl, hsha⟩

theorem locked_of_step (h : Locked s) (hprepared : Prepared s) (hbound : Bound s)
    (hstep : Sys.step s i = some s') : Locked s' := by
  have hkept (si : SigningIntent) (hsi : si ∈ s.db.intents) :
      s'.db.caseVersions si.signatureCaseId ≠ [] ∧
        ∀ dv ∈ s'.db.caseVersions si.signatureCaseId, dv.2.IsLocked := by
    obtain ⟨c, _, hc, -⟩ := hprepared.sent si hsi
    refine ⟨?_, fun ⟨d, v'⟩ hv' => ?_⟩
    · obtain ⟨⟨d, v⟩, hv⟩ := List.exists_mem_of_ne_nil _ (h.nonempty si hsi)
      obtain ⟨v', hv', -⟩ := caseVersions_of_step hstep hv
      exact List.ne_nil_of_mem hv'
    · obtain ⟨v, hv, hmove⟩ :=
        caseVersions_before_step hstep (Option.isSome_iff_exists.mpr ⟨c, hc⟩) hv'
      exact IsLocked.of_move (h.versions si hsi (d, v) hv) hmove
  have hafter : ∀ si' ∈ s'.db.intents, s'.db.caseVersions si'.signatureCaseId ≠ [] ∧
      ∀ dv ∈ s'.db.caseVersions si'.signatureCaseId, dv.2.IsLocked := by
    intro si' hsi'
    by_cases hsend : ∃ c nonce, i = .send c nonce
    · obtain ⟨c, nonce, rfl⟩ := hsend
      obtain ⟨row, prepared, -, rfl, hsendable, hfor, hintents, -⟩ := rows_of_send hstep
      rw [hintents] at hsi'
      rcases List.mem_append.mp hsi' with hold | hnew
      · exact hkept si' hold
      · obtain ⟨signer, -, hprepares⟩ := exists_left_of_forall₂ hfor hnew
        rw [hprepares.signatureCaseId]
        refine ⟨?_, fun ⟨d, v'⟩ hv' => isLocked_of_send hbound hstep hv'⟩
        obtain ⟨⟨d, v⟩, hdv, -⟩ := hsendable.signable
        rw [Db.signingDocuments, (List.perm_insertionSort _ _).mem_iff] at hdv
        obtain ⟨v', hv', -⟩ := caseVersions_of_step hstep hdv
        exact List.ne_nil_of_mem hv'
    · obtain ⟨si, hsi, hchange⟩ :=
        (intents_moved hstep fun c nonce heq => hsend ⟨c, nonce, heq⟩).exists_before hsi'
      rw [hchange.toIntentMove.signatureCaseId]
      exact hkept si hsi
  exact ⟨fun si hsi => (hafter si hsi).1, fun si hsi => (hafter si hsi).2⟩

end Steps

theorem locked_of_reachable {s : Sys} (h : s.Reachable) : Locked s := by
  refine h.induction (fun _ _ _ _ => ⟨fun _ hsi => absurd hsi List.not_mem_nil,
    fun _ hsi => absurd hsi List.not_mem_nil⟩) ?_
  intro s i s' hreachable hlocked hstep
  exact locked_of_step hlocked (prepared_of_reachable hreachable) (bound_of_reachable hreachable)
    hstep

end Kommunsign
