import Kommunsign.Api.PublicVerification

/-!
# What is published of a package, and what it seals

The public view counts and lists the rows of the case as they are when somebody asks, while the
package keeps what was there when it was loaded. The package of a signer has no documents in it.

* `publishesSealed_iff` — these are the packages for which the view agrees
* `signerPackage_not_published` — the package of a signer, published with the case's documents
-/

namespace Kommunsign

open Infra

structure Agrees (p : ReadyPackage) (view : PublicVerificationView) : Prop where
  documents : ∀ entry, entry ∈ view.documents ↔
    ∃ row ∈ p.contents.documents, entry = (row.displayName, some row.sha256)
  signerCount : view.signerCount = p.contents.covered.length
  signedAt : view.signedAt = p.contents.createdAt

def PublishesSealed (collate : Text → Text → Bool) (r : Registry) (p : ReadyPackage) : Prop :=
  ∃ view, r.publicVerification collate p.verificationId = .ok (some view) ∧ Agrees p view

def Registry.signedIds (r : Registry) (signatureCaseId : Id) : List Id :=
  (r.signedSigners signatureCaseId).map (·.id)

/--
The package is the case's own. As many signers have signed without being covered as are covered
without having signed, and no verification of the case, accepted or not, is later than all that the
package has.
-/
structure CoversCase (r : Registry) (p : ReadyPackage) : Prop where
  ofCase : p.contents.signerId = none
  signers : ((r.signedIds p.contents.signatureCaseId).filter (· ∉ p.contents.covered)).length =
    (p.contents.covered.filter (· ∉ r.signedIds p.contents.signatureCaseId)).length
  latest : ∀ a ∈ r.caseArtifacts p.contents.signatureCaseId,
    ∃ row ∈ p.contents.signers, a.verifiedAt ≤ row.verifiedAt

/-- What has been loaded is still what the tables say of a case that has been sent. -/
structure Registered (r : Registry) (load : EvidenceLoad) : Prop where
  sent : ∃ si ∈ r.db.intents, si.signatureCaseId = load.signatureCaseId
  documents : load.signerId = none → ∀ entry, entry ∈ r.db.listedDocuments load.signatureCaseId ↔
    ∃ row ∈ load.documents, entry = (row.displayName, some row.sha256)
  noDocuments : load.signerId ≠ none → load.documents = []
  nonempty : load.signers ≠ []
  signers : ∀ row ∈ load.signers, ∃ a ∈ r.caseArtifacts load.signatureCaseId,
    a.verifiedAt = row.verifiedAt

structure RegistrySound (r : Registry) : Prop where
  reachable : r.sys.Reachable
  loads : ∀ load ∈ r.loads, Registered r load
  packages : ∀ p ∈ r.packages, Registered r p.contents
  keyed : (r.packages.map (·.verificationId)).Nodup
  tokens : ∀ p ∈ r.packages, isVerificationId p.verificationId = true

/-! ## Numbers and times -/

section Lists

variable {α : Type} [DecidableEq α]

theorem length_eq_iff_of_nodup {xs ys : List α} (hx : xs.Nodup) (hy : ys.Nodup) :
    xs.length = ys.length ↔
      (xs.filter (· ∉ ys)).length = (ys.filter (· ∉ xs)).length := by
  have hcommon : (xs.filter (· ∈ ys)).Perm (ys.filter (· ∈ xs)) := by
    rw [List.perm_ext_iff_of_nodup (hx.filter _) (hy.filter _)]
    intro a
    simp only [List.mem_filter, decide_eq_true_eq, and_comm]
  have hlength := hcommon.length_eq
  have hxs := List.length_eq_length_filter_add (l := xs) (fun a => decide (a ∈ ys))
  have hys := List.length_eq_length_filter_add (l := ys) (fun a => decide (a ∈ xs))
  simp only [decide_not]
  omega

end Lists

theorem max?_getD_spec {times : List Time} (h : times ≠ []) :
    times.max?.getD 0 ∈ times ∧ ∀ time ∈ times, time ≤ times.max?.getD 0 := by
  cases hmax : times.max? with
  | none => exact absurd (List.max?_eq_none_iff.mp hmax) h
  | some m => exact List.max?_eq_some_iff.mp hmax

theorem max?_getD_eq_iff {part times : List Time} (hpart : part ≠ []) (hsub : part ⊆ times) :
    times.max?.getD 0 = part.max?.getD 0 ↔ ∀ time ∈ times, ∃ time' ∈ part, time ≤ time' := by
  have htimes : times ≠ [] := by
    obtain ⟨time, htime⟩ := List.exists_mem_of_ne_nil _ hpart
    exact List.ne_nil_of_mem (hsub htime)
  obtain ⟨hmem, hmax⟩ := max?_getD_spec hpart
  obtain ⟨hmem', hmax'⟩ := max?_getD_spec htimes
  constructor
  · intro heq time htime
    exact ⟨_, hmem, heq ▸ hmax' time htime⟩
  · intro hall
    obtain ⟨time, htime, hle⟩ := hall _ hmem'
    exact Nat.le_antisymm (hle.trans (hmax time htime)) (hmax' _ (hsub hmem))

/-! ## Steps -/

section Steps

variable {r r' : Registry} {i : RegistryStep} {load : EvidenceLoad}

theorem reachable_of_registryStep (h : r.sys.Reachable) (hstep : r.step i = some r') :
    r'.sys.Reachable := by
  rcases sys_of_step hstep with hsame | ⟨j, hj⟩
  · rw [hsame]
    exact h
  · exact h.of_step hj

theorem artifacts_of_registryStep (hstep : r.step i = some r') : r.artifacts ⊆ r'.artifacts := by
  cases i with
  | workflow i =>
    obtain ⟨sys, -, -, rfl⟩ := step_workflow hstep
    exact List.Subset.refl _
  | verify index result =>
    obtain ⟨sys, -, rfl⟩ := step_verify hstep
    exact List.subset_append_left _ _
  | load c signerId =>
    obtain ⟨load, -, rfl⟩ := step_load hstep
    exact List.Subset.refl _
  | build index token packageSha256 =>
    obtain ⟨load, sys, -, -, rfl | ⟨-, rfl⟩⟩ := step_build hstep <;> exact List.Subset.refl _

theorem caseArtifacts_of_registryStep (hstep : r.step i = some r') {c : Id} {a : VerifiedArtifact}
    (ha : a ∈ r.caseArtifacts c) : a ∈ r'.caseArtifacts c := by
  obtain ⟨hmem, si, hsi, hcase⟩ := mem_caseArtifacts.mp ha
  refine mem_caseArtifacts.mpr ⟨artifacts_of_registryStep hstep hmem, ?_⟩
  unfold Registry.db at hsi ⊢
  rcases sys_of_step hstep with hsame | ⟨j, hj⟩
  · rw [hsame]
    exact ⟨si, hsi, hcase⟩
  · obtain ⟨si', hsi', hchange⟩ := intent?_of_step hj hsi
    exact ⟨si', hsi', hchange.toIntentMove.signatureCaseId.trans hcase⟩

theorem Registered.of_step (h : Registered r load) (hreachable : r.sys.Reachable)
    (hstep : r.step i = some r') : Registered r' load where
  sent := by
    obtain ⟨si, hsi, hcase⟩ := h.sent
    unfold Registry.db at hsi ⊢
    rcases sys_of_step hstep with hsame | ⟨j, hj⟩
    · rw [hsame]
      exact ⟨si, hsi, hcase⟩
    · have hfound := find?_of_mem (prepared_of_reachable hreachable).keyed hsi
      obtain ⟨si', hsi', hchange⟩ := intent?_of_step hj hfound
      exact ⟨si', List.mem_of_find?_eq_some hsi',
        hchange.toIntentMove.signatureCaseId.trans hcase⟩
  documents := by
    intro hown entry
    rw [← h.documents hown entry]
    unfold Registry.db
    rcases sys_of_step hstep with hsame | ⟨j, hj⟩
    · rw [hsame]
    · obtain ⟨si, hsi, hcase⟩ := h.sent
      obtain ⟨c, -, hc, -⟩ := (prepared_of_reachable hreachable).sent si hsi
      rw [hcase] at hc
      exact listedDocuments_of_step hj (Option.isSome_iff_exists.mpr ⟨c, hc⟩)
  noDocuments := h.noDocuments
  nonempty := h.nonempty
  signers := by
    intro row hrow
    obtain ⟨a, ha, htime⟩ := h.signers row hrow
    exact ⟨a, caseArtifacts_of_registryStep hstep ha, htime⟩

theorem registered_of_load {c : Id} {signerId : Option Id} (hreachable : r.sys.Reachable)
    (h : loadEvidence r c signerId = .ok load) : Registered r load := by
  obtain ⟨rfl, rfl, hsigners, hnonempty, hdocuments, hnone⟩ := loadEvidence_eq_ok h
  have hprepared := prepared_of_reachable hreachable
  have hstanding := standing_of_reachable hreachable
  -- a verified signer has an intent, which is of the case
  have hverified (row : EvidenceSignerRow) (hrow : row ∈ load.signers) :
      ∃ si ∈ r.db.intents, si.signatureCaseId = load.signatureCaseId ∧
        ∃ a ∈ r.artifacts, a.signingIntentId = si.id ∧ a.verifiedAt = row.verifiedAt := by
    rw [hsigners] at hrow
    obtain ⟨s, hs, hcase, -, si, hsi, hsigner, a, ha⟩ := mem_evidenceSigners hrow
    obtain ⟨_, signer, -, -, hfound, hsame⟩ := hprepared.sent si hsi
    have hfound' := find?_of_mem hstanding.signersKeyed hs
    rw [Db.signer?, hsigner] at hfound
    obtain rfl := Option.some.inj (hfound.symm.trans hfound')
    exact ⟨si, hsi, hsame.symm.trans hcase, a, ha⟩
  obtain ⟨row, hrow⟩ := List.exists_mem_of_ne_nil _ hnonempty
  obtain ⟨si, hsi, hcase, -⟩ := hverified row hrow
  refine ⟨⟨si, hsi, hcase⟩, ?_, hnone, hnonempty, ?_⟩
  · rintro hown ⟨name, sha256⟩
    rw [mem_listedDocuments]
    have hlocked := (locked_of_reachable hreachable).versions si hsi
    rw [hcase] at hlocked
    constructor
    · rintro ⟨d, v, hdv, rfl, rfl⟩
      obtain ⟨document, hdocument, hread⟩ := exists_right_of_forall₂ (hdocuments hown)
        (mem_evidenceVersions.mpr ⟨hdv, (hlocked (d, v) hdv).1⟩)
      obtain ⟨hname, hsha⟩ := documentRow_eq_ok hread
      exact ⟨document, hdocument, by rw [hname, hsha]⟩
    · rintro ⟨document, hdocument, heq⟩
      obtain ⟨⟨d, v⟩, hdv, hread⟩ := exists_left_of_forall₂ (hdocuments hown) hdocument
      obtain ⟨hname, hsha⟩ := documentRow_eq_ok hread
      obtain ⟨rfl, rfl⟩ := Prod.mk.inj heq
      exact ⟨d, v, (mem_evidenceVersions.mp hdv).1, hname.symm, hsha⟩
  · intro row hrow
    obtain ⟨si, hsi, hcase, a, ha, hintent, htime⟩ := hverified row hrow
    refine ⟨a, mem_caseArtifacts.mpr ⟨ha, si, ?_, hcase⟩, htime⟩
    rw [hintent]
    exact find?_of_mem hprepared.keyed hsi

theorem registrySound_of_step (h : RegistrySound r) (hstep : r.step i = some r') :
    RegistrySound r' := by
  have hreachable := reachable_of_registryStep h.reachable hstep
  have hloads (load : EvidenceLoad) (hload : load ∈ r.loads) : Registered r' load :=
    (h.loads load hload).of_step h.reachable hstep
  have hpackages (p : ReadyPackage) (hp : p ∈ r.packages) : Registered r' p.contents :=
    (h.packages p hp).of_step h.reachable hstep
  cases i with
  | workflow i =>
    obtain ⟨sys, -, -, rfl⟩ := step_workflow hstep
    exact ⟨hreachable, hloads, hpackages, h.keyed, h.tokens⟩
  | verify index result =>
    obtain ⟨sys, -, rfl⟩ := step_verify hstep
    exact ⟨hreachable, hloads, hpackages, h.keyed, h.tokens⟩
  | load c signerId =>
    obtain ⟨load, hload, rfl⟩ := step_load hstep
    refine ⟨hreachable, fun load' hmem => ?_, hpackages, h.keyed, h.tokens⟩
    rcases List.mem_append.mp hmem with hold | hnew
    · exact hloads load' hold
    · rw [List.mem_singleton.mp hnew]
      exact (registered_of_load h.reachable hload).of_step h.reachable hstep
  | build index token packageSha256 =>
    obtain ⟨load, sys, hload, -, rfl | ⟨hfresh, rfl⟩⟩ := step_build hstep
    · exact ⟨hreachable, fun load hmem => hloads load (List.mem_of_mem_eraseIdx hmem), hpackages,
        h.keyed, h.tokens⟩
    · refine ⟨hreachable, fun load hmem => hloads load (List.mem_of_mem_eraseIdx hmem),
        fun p hp => ?_, ?_, fun p hp => ?_⟩
      · rcases List.mem_append.mp hp with hold | hnew
        · exact hpackages p hold
        · rw [List.mem_singleton.mp hnew]
          exact hloads load (List.mem_of_getElem? hload)
      · rw [List.map_append, List.nodup_append]
        refine ⟨h.keyed, List.nodup_singleton _, fun id hid id' hid' heq => ?_⟩
        obtain ⟨p, hp, rfl⟩ := List.mem_map.mp hid
        exact hfresh p hp (heq.trans (List.mem_singleton.mp hid'))
      · rcases List.mem_append.mp hp with hold | hnew
        · exact h.tokens p hold
        · rw [List.mem_singleton.mp hnew]
          exact isVerificationId_randomToken token

end Steps

theorem registrySound_of_run {tenantId : Text} {organizationName : Option Text} {rollout : Bool}
    {clock : Time} {steps : List RegistryStep} {r : Registry}
    (h : run Registry.step (Registry.start tenantId organizationName rollout clock) steps = some r) :
    RegistrySound r := by
  refine run_invariant (fun _ _ _ hsound hstep => registrySound_of_step hsound hstep) ?_ h
  exact ⟨⟨tenantId, organizationName, rollout, clock, [], rfl⟩,
    fun load hload => absurd hload List.not_mem_nil, fun p hp => absurd hp List.not_mem_nil,
    List.nodup_nil, fun p hp => absurd hp List.not_mem_nil⟩

/-! ## The view -/

section View

variable (collate : Text → Text → Bool) {r : Registry} {p : ReadyPackage}

theorem publicVerification_of_mem (h : RegistrySound r) (hp : p ∈ r.packages) :
    ∃ view, r.publicVerification collate p.verificationId = .ok (some view) ∧
      view.documents = r.publicDocuments collate p.contents.signatureCaseId ∧
      view.signerCount = (r.signedSigners p.contents.signatureCaseId).length ∧
      view.signedAt = ((r.caseArtifacts p.contents.signatureCaseId).map
        (·.verifiedAt)).max?.getD 0 := by
  have hresolved : r.resolvePublicVerification p.verificationId = some p :=
    find?_of_mem h.keyed hp
  obtain ⟨si, hsi, hcase⟩ := (h.packages p hp).sent
  obtain ⟨c, -, hc, -⟩ := (prepared_of_reachable h.reachable).sent si hsi
  rw [hcase] at hc
  have hid : c.id = p.contents.signatureCaseId := (exists_of_find?_key hc).2
  have hfound : orFail "NOT_FOUND" (r.db.case? p.contents.signatureCaseId) = .ok c :=
    orFail_eq_ok.mpr hc
  rw [Registry.publicVerification, h.tokens p hp]
  simp only [Bool.not_true, Bool.false_eq_true, if_false, hresolved, hfound]
  exact ⟨_, rfl, by rw [hid], by rw [hid], by rw [hid]⟩

theorem documents_agree_iff (h : RegistrySound r) (hp : p ∈ r.packages) :
    (∀ entry, entry ∈ r.publicDocuments collate p.contents.signatureCaseId ↔
      ∃ row ∈ p.contents.documents, entry = (row.displayName, some row.sha256)) ↔
        p.contents.signerId = none := by
  have hregistered := h.packages p hp
  simp only [mem_publicDocuments]
  constructor
  · intro hagree
    by_contra hsigner
    -- the case has a version, and the package of a signer has none
    obtain ⟨si, hsi, hcase⟩ := hregistered.sent
    have hsome := (locked_of_reachable h.reachable).nonempty si hsi
    rw [hcase] at hsome
    obtain ⟨⟨d, v⟩, hdv⟩ := List.exists_mem_of_ne_nil _ hsome
    obtain ⟨row, hrow, -⟩ :=
      (hagree (d.displayName, v.sha256)).mp (mem_listedDocuments.mpr ⟨d, v, hdv, rfl, rfl⟩)
    rw [hregistered.noDocuments hsigner] at hrow
    exact absurd hrow List.not_mem_nil
  · exact hregistered.documents

theorem signerCount_agrees_iff (h : RegistrySound r) :
    (r.signedSigners p.contents.signatureCaseId).length = p.contents.covered.length ↔
      ((r.signedIds p.contents.signatureCaseId).filter (· ∉ p.contents.covered)).length =
        (p.contents.covered.filter (· ∉ r.signedIds p.contents.signatureCaseId)).length := by
  have hsigned : (r.signedIds p.contents.signatureCaseId).Nodup :=
    (standing_of_reachable h.reachable).signersKeyed.sublist (List.filter_sublist.map _)
  have hcovered : p.contents.covered.Nodup := List.nodup_dedup _
  rw [← length_eq_iff_of_nodup hsigned hcovered, Registry.signedIds, List.length_map]

theorem signedAt_agrees_iff (h : RegistrySound r) (hp : p ∈ r.packages) :
    ((r.caseArtifacts p.contents.signatureCaseId).map (·.verifiedAt)).max?.getD 0 =
        p.contents.createdAt ↔
      ∀ a ∈ r.caseArtifacts p.contents.signatureCaseId,
        ∃ row ∈ p.contents.signers, a.verifiedAt ≤ row.verifiedAt := by
  have hregistered := h.packages p hp
  have hnonempty : p.contents.signers.map (·.verifiedAt) ≠ [] := fun hnil =>
    hregistered.nonempty (List.map_eq_nil_iff.mp hnil)
  rw [EvidenceLoad.createdAt, max?_getD_eq_iff hnonempty]
  · simp only [List.mem_map, exists_exists_and_eq_and, forall_exists_index, and_imp,
      forall_apply_eq_imp_iff₂]
  · -- what the package has is of the case
    intro time htime
    obtain ⟨row, hrow, rfl⟩ := List.mem_map.mp htime
    obtain ⟨a, ha, htime⟩ := hregistered.signers row hrow
    exact List.mem_map.mpr ⟨a, ha, htime⟩

end View

/-- What is published of a package is what it seals exactly when it covers its case. -/
theorem publishesSealed_iff {collate : Text → Text → Bool} {tenantId : Text}
    {organizationName : Option Text} {rollout : Bool} {clock : Time} {steps : List RegistryStep}
    {r : Registry} {p : ReadyPackage}
    (h : run Registry.step (Registry.start tenantId organizationName rollout clock) steps = some r)
    (hp : p ∈ r.packages) : PublishesSealed collate r p ↔ CoversCase r p := by
  have hsound := registrySound_of_run h
  obtain ⟨view, hview, hdocuments, hcount, htime⟩ :=
    publicVerification_of_mem collate hsound hp
  constructor
  · rintro ⟨view', hview', hagrees⟩
    obtain rfl := Option.some.inj (Except.ok.inj (hview.symm.trans hview'))
    refine ⟨(documents_agree_iff collate hsound hp).mp ?_, (signerCount_agrees_iff hsound).mp ?_,
      (signedAt_agrees_iff hsound hp).mp ?_⟩
    · rw [← hdocuments]
      exact hagrees.documents
    · rw [← hcount]
      exact hagrees.signerCount
    · rw [← htime]
      exact hagrees.signedAt
  · rintro ⟨hcase, hsigners, hlatest⟩
    refine ⟨view, hview, ?_, ?_, ?_⟩
    · rw [hdocuments]
      exact (documents_agree_iff collate hsound hp).mpr hcase
    · rw [hcount]
      exact (signerCount_agrees_iff hsound).mpr hsigners
    · rw [htime]
      exact (signedAt_agrees_iff hsound hp).mpr hlatest

/-! ## Two packages of a case -/

/-- A case with one signer is signed; its package and that of the signer can be built. -/
def RegistryStep.signedCase : List RegistryStep :=
  [.workflow (.prepareCase (Intake.sample 1 [(1, true)])), .workflow (.send 1 idText)] ++
    (Step.identify 0 0).dropLast.map .workflow ++
    [.verify 0 ⟨true, "engine".toList, "1".toList, 5000⟩] ++
    (Step.sign 0 1 100 200 ++ Step.validate ⟨0, 1, 1, 0, .signed 0 0⟩).map .workflow

/-- The package of a cancelled case that its only signer has signed is published as it is. -/
theorem publishesSealed_signedCase : ∃ r ∈ run Registry.step (Registry.start "1".toList none true 0)
      (RegistryStep.signedCase ++ [.workflow (.cancel 1), .load 1 none, .build 0 5 77]),
    ∃ p ∈ r.packages, (PublishesSealed (fun _ _ => true) r p ↔ CoversCase r p) ∧
      p.contents.documents = [⟨"Avtal.pdf".toList, 100⟩] := by
  obtain ⟨r, hr, p, hp, hdocuments⟩ : ∃ r ∈ run Registry.step
      (Registry.start "1".toList none true 0)
      (RegistryStep.signedCase ++ [.workflow (.cancel 1), .load 1 none, .build 0 5 77]),
      ∃ p ∈ r.packages, p.contents.documents = [⟨"Avtal.pdf".toList, 100⟩] := by decide +kernel
  exact ⟨r, hr, p, hp, publishesSealed_iff hr hp, hdocuments⟩

/-- The package of a signer has no documents, and is published with those of the case. -/
theorem signerPackage_not_published : ¬∀ (r : Registry) (steps : List RegistryStep),
    run Registry.step (Registry.start "1".toList none true 0) steps = some r →
      ∀ p ∈ r.packages, PublishesSealed (fun _ _ => true) r p := by
  intro hall
  obtain ⟨r, hr, p, hp, hnone, hlisted⟩ : ∃ r ∈ run Registry.step
      (Registry.start "1".toList none true 0)
      (RegistryStep.signedCase ++ [.load 1 (some 0), .build 0 5 77]), ∃ p ∈ r.packages,
        p.contents.documents = [] ∧
        ("Avtal.pdf".toList, some 100) ∈ r.db.listedDocuments p.contents.signatureCaseId := by
    decide +kernel
  obtain ⟨view, hview, hagrees⟩ := hall r _ hr p hp
  obtain ⟨view', hview', hdocuments, -⟩ :=
    publicVerification_of_mem (fun _ _ => true) (registrySound_of_run hr) hp
  obtain rfl := Option.some.inj (Except.ok.inj (hview'.symm.trans hview))
  obtain ⟨row, hrow, -⟩ := (hagrees.documents ("Avtal.pdf".toList, some 100)).mp <| by
    rw [hdocuments]
    exact mem_publicDocuments.mpr hlisted
  rw [hnone] at hrow
  exact absurd hrow List.not_mem_nil

end Kommunsign
