import Kommunsign.Data.RowOperations

/-!
# A signed signer keeps the evidence that made it signed

`app.assert_signer_signature_evidence` looks at the evidence once, when a signer becomes `signed`.
What it has seen stays true only as far as the tables it has read are frozen from then on.

* `KeepsSignedEvidence` — the row operations that leave the evidence of signed signers alone
* `signedEvidence_of_run` — `SignedEvidence` holds in every state such operations reach
* `not_signedEvidence_of_intentDocument` — the list of an intent's documents can still grow
-/

namespace Kommunsign

open Infra

/--
A signer's validated signature over a document version, for one intent: a validated attempt whose
identity transaction belongs to the intent, its artifact at the level of the policy or above, and
a validation run that the policy accepts.
-/
def Db.ValidatedSignature (db : Db) (policy : Json) (signerId signingIntentId : Id)
    (documentVersionId : Id) : Prop :=
  ∃ attempt ∈ db.attempts, ∃ identity ∈ db.identityTransactions, ∃ artifact ∈ db.artifacts,
    ∃ run ∈ db.validationRuns,
      (attempt.status = .validated ∧ attempt.signerId = signerId ∧
        attempt.documentVersionId = documentVersionId) ∧
      (identity.id = attempt.identityTransactionId ∧
        identity.signingIntentId = some signingIntentId) ∧
      (artifact.signatureAttemptId = attempt.id ∧
        rankGe (padesLevelRank (some artifact.format.format))
          (padesLevelRank (some (requiredLevelText policy))) = true) ∧
      run.signatureArtifactId = artifact.id ∧ acceptsIndication policy run.indication = true

instance (db : Db) (policy : Json) (signerId signingIntentId documentVersionId : Id) :
    Decidable (db.ValidatedSignature policy signerId signingIntentId documentVersionId) := by
  unfold Db.ValidatedSignature
  infer_instance

/--
Every signed signer of an `ELECTRONIC_SIGNATURE` case has a validated signature for every signable
document of its verified intent.
-/
def SignedEvidence (db : Db) : Prop :=
  ∀ signer ∈ db.signers, signer.status = .signed →
    ∀ c ∈ db.cases, c.id = signer.signatureCaseId → c.decisionMode = .ELECTRONIC_SIGNATURE →
      ∀ intent ∈ db.verifiedIntent? signer.id, ∀ d ∈ db.signableDocuments intent.id,
        db.ValidatedSignature c.policySnapshot signer.id intent.id d.documentVersionId

instance (db : Db) : Decidable (SignedEvidence db) := by
  unfold SignedEvidence
  infer_instance

/-! ## Operations that leave the evidence alone -/

def Db.IsSigned (db : Db) (signerId : Id) : Prop :=
  ∃ s ∈ db.signers, s.id = signerId ∧ s.status = .signed

/-- Every validated attempt of a signer on a document of its intent was made for that intent. -/
def Db.SignsItsIntent (db : Db) (signerId : Id) : Prop :=
  ∀ intent ∈ db.verifiedIntent? signerId,
    ∀ d ∈ db.signableDocuments intent.id, ∀ attempt ∈ db.attempts,
      attempt.signerId = signerId → attempt.documentVersionId = d.documentVersionId →
        attempt.status = .validated → ∃ identity ∈ db.identityTransactions,
          identity.id = attempt.identityTransactionId ∧ identity.signingIntentId = some intent.id

/--
The operations that no trigger checks against signers who have signed, kept away from them.

A signer becomes signed on attempts of its own intent, and for a signer who has signed: the policy
of the case stays, no further intent becomes verified, the verified intent gets no further
signable document, a validated attempt keeps what it names, and its identity transaction keeps its
intent.
-/
def KeepsSignedEvidence (db : Db) : RowOp → Prop
  | .update _ .cases row =>
    ∀ c ∈ db.cases, c.id = row.id → c.toCasePolicy ≠ row.toCasePolicy →
      ∀ s ∈ db.signers, s.signatureCaseId = c.id → s.status ≠ .signed
  | .update _ .signers row =>
    row.status = .signed → ∀ s ∈ db.signers, s.id = row.id → s.status ≠ .signed →
      db.SignsItsIntent row.id
  | .insert _ .intents row => row.status.isVerified = true → ¬db.IsSigned row.signerId
  | .update _ .intents row =>
    ∀ intent ∈ db.intents, intent.id = row.id → intent.status.isVerified = false →
      row.status.isVerified = true → ¬db.IsSigned row.signerId
  | .insert _ .intentDocuments row =>
    row.documentRole = .signable → ∀ s ∈ db.signers, s.status = .signed →
      ∀ intent ∈ db.verifiedIntent? s.id, row.signingIntentId ≠ intent.id
  | .update _ .attempts row =>
    ∀ attempt ∈ db.attempts, attempt.id = row.id → attempt.status = .validated →
      db.IsSigned attempt.signerId → row.toAttemptBinding = attempt.toAttemptBinding
  | .update _ .identityTransactions row =>
    ∀ identity ∈ db.identityTransactions, identity.id = row.id →
      identity.signingIntentId ≠ row.signingIntentId → ∀ attempt ∈ db.attempts,
        attempt.identityTransactionId = identity.id → attempt.status = .validated →
          ¬db.IsSigned attempt.signerId
  | _ => True

instance (db : Db) (op : RowOp) : Decidable (KeepsSignedEvidence db op) := by
  unfold KeepsSignedEvidence Db.SignsItsIntent Db.IsSigned
  split <;> infer_instance

/-! ## Frames -/

section Frame

variable {db db' : Db}

theorem Db.ValidatedSignature.mono {policy : Json} {signerId intentId documentVersionId : Id}
    (h : db.ValidatedSignature policy signerId intentId documentVersionId)
    (hattempt : ∀ a ∈ db.attempts, a.status = .validated → a.signerId = signerId →
      (∃ f ∈ db.artifacts, f.signatureAttemptId = a.id) → ∃ a' ∈ db'.attempts,
        a'.id = a.id ∧ a'.status = .validated ∧ a'.toAttemptBinding = a.toAttemptBinding)
    (hidentity : ∀ a ∈ db.attempts, a.status = .validated → a.signerId = signerId →
      ∀ t ∈ db.identityTransactions, t.id = a.identityTransactionId →
        ∃ t' ∈ db'.identityTransactions, t'.id = t.id ∧ t'.signingIntentId = t.signingIntentId)
    (hartifact : ∀ a ∈ db.artifacts, a ∈ db'.artifacts)
    (hrun : ∀ r ∈ db.validationRuns, r ∈ db'.validationRuns) :
    db'.ValidatedSignature policy signerId intentId documentVersionId := by
  obtain ⟨attempt, ha, identity, hi, artifact, hf, run, hr, ⟨hs, hsig, hdoc⟩, ⟨hid, hint⟩,
    ⟨hfa, hrank⟩, hra, hacc⟩ := h
  obtain ⟨attempt', ha', haid, has, hab⟩ := hattempt attempt ha hs hsig ⟨artifact, hf, hfa⟩
  obtain ⟨identity', hi', hiid, hiint⟩ := hidentity attempt ha hs hsig identity hi hid
  have hsigner : attempt'.signerId = attempt.signerId := congrArg (·.signerId) hab
  have hversion : attempt'.documentVersionId = attempt.documentVersionId :=
    congrArg (·.documentVersionId) hab
  have htx : attempt'.identityTransactionId = attempt.identityTransactionId :=
    congrArg (·.identityTransactionId) hab
  exact ⟨attempt', ha', identity', hi', artifact, hartifact _ hf, run, hrun _ hr,
    ⟨has, hsigner.trans hsig, hversion.trans hdoc⟩, ⟨by rw [hiid, hid, htx], hiint.trans hint⟩,
    ⟨by rw [hfa, haid], hrank⟩, hra, hacc⟩

/-- What `SignedEvidence` reads, kept for the signers who have signed. -/
structure EvidenceKept (db db' : Db) : Prop where
  signers : ∀ s' ∈ db'.signers, s'.status = .signed → ∃ s ∈ db.signers, s.id = s'.id ∧
    s.signatureCaseId = s'.signatureCaseId ∧ s.status = .signed
  cases : ∀ s ∈ db.signers, s.status = .signed → ∀ c' ∈ db'.cases, c'.id = s.signatureCaseId →
    ∃ c ∈ db.cases, c.id = c'.id ∧ c.toCasePolicy = c'.toCasePolicy
  intents : ∀ s ∈ db.signers, s.status = .signed →
    (db'.verifiedIntent? s.id).map (·.id) = (db.verifiedIntent? s.id).map (·.id)
  documents : ∀ s ∈ db.signers, s.status = .signed → ∀ intent,
    db.verifiedIntent? s.id = some intent → ∀ d ∈ db'.signableDocuments intent.id,
      d ∈ db.signableDocuments intent.id
  validated : ∀ s ∈ db.signers, s.status = .signed → ∀ policy intentId documentVersionId,
    db.ValidatedSignature policy s.id intentId documentVersionId →
      db'.ValidatedSignature policy s.id intentId documentVersionId

theorem EvidenceKept.of_validated (hcases : db'.cases = db.cases)
    (hsigners : db'.signers = db.signers) (hintents : db'.intents = db.intents)
    (hdocuments : db'.intentDocuments = db.intentDocuments)
    (hvalidated : ∀ s ∈ db.signers, s.status = .signed → ∀ policy intentId documentVersionId,
      db.ValidatedSignature policy s.id intentId documentVersionId →
        db'.ValidatedSignature policy s.id intentId documentVersionId) :
    EvidenceKept db db' where
  signers s hs hsigned := ⟨s, hsigners ▸ hs, rfl, rfl, hsigned⟩
  cases _ _ _ c hc _ := ⟨c, hcases ▸ hc, rfl, rfl⟩
  intents _ _ _ := by rw [Db.verifiedIntent?, hintents, Db.verifiedIntent?]
  documents _ _ _ _ _ _ hd := by
    rw [Db.signableDocuments, hdocuments] at hd
    exact hd
  validated := hvalidated

theorem EvidenceKept.of_cases {rows : List SignatureCase}
    (h : ∀ s ∈ db.signers, s.status = .signed → ∀ c' ∈ rows, c'.id = s.signatureCaseId →
      ∃ c ∈ db.cases, c.id = c'.id ∧ c.toCasePolicy = c'.toCasePolicy) :
    EvidenceKept db { db with cases := rows } where
  signers s hs hsigned := ⟨s, hs, rfl, rfl, hsigned⟩
  cases := h
  intents _ _ _ := rfl
  documents _ _ _ _ _ _ hd := hd
  validated _ _ _ _ _ _ hv := hv

theorem EvidenceKept.of_signers {rows : List Signer}
    (h : ∀ s' ∈ rows, s'.status = .signed → ∃ s ∈ db.signers, s.id = s'.id ∧
      s.signatureCaseId = s'.signatureCaseId ∧ s.status = .signed) :
    EvidenceKept db { db with signers := rows } where
  signers := h
  cases _ _ _ c hc _ := ⟨c, hc, rfl, rfl⟩
  intents _ _ _ := rfl
  documents _ _ _ _ _ _ hd := hd
  validated _ _ _ _ _ _ hv := hv

theorem EvidenceKept.of_intents {rows : List SigningIntent}
    (h : ∀ s ∈ db.signers, s.status = .signed →
      (Db.verifiedIntent? { db with intents := rows } s.id).map (·.id) =
        (db.verifiedIntent? s.id).map (·.id)) :
    EvidenceKept db { db with intents := rows } where
  signers s hs hsigned := ⟨s, hs, rfl, rfl, hsigned⟩
  cases _ _ _ c hc _ := ⟨c, hc, rfl, rfl⟩
  intents := h
  documents _ _ _ _ _ _ hd := hd
  validated _ _ _ _ _ _ hv := hv

theorem EvidenceKept.of_intentDocuments {rows : List SigningIntentDocument}
    (h : ∀ s ∈ db.signers, s.status = .signed → ∀ intent, db.verifiedIntent? s.id = some intent →
      ∀ d ∈ Db.signableDocuments { db with intentDocuments := rows } intent.id,
        d ∈ db.signableDocuments intent.id) :
    EvidenceKept db { db with intentDocuments := rows } where
  signers s hs hsigned := ⟨s, hs, rfl, rfl, hsigned⟩
  cases _ _ _ c hc _ := ⟨c, hc, rfl, rfl⟩
  intents _ _ _ := rfl
  documents := h
  validated _ _ _ _ _ _ hv := hv

theorem SignedEvidence.of_kept (h : SignedEvidence db) (hk : EvidenceKept db db') :
    SignedEvidence db' := by
  intro s' hs' hsigned' c' hc' hcase hmode intent' hintent' d hd
  obtain ⟨s, hs, hid, hsc, hsigned⟩ := hk.signers s' hs' hsigned'
  obtain ⟨c, hc, hcid, hpolicy⟩ := hk.cases s hs hsigned c' hc' (hcase.trans hsc.symm)
  have hmap := hk.intents s hs hsigned
  rw [hid, hintent'] at hmap
  obtain ⟨intent, hintent, hiid⟩ := Option.map_eq_some_iff.mp hmap.symm
  have hiid : intent.id = intent'.id := hiid
  have hd' := hk.documents s hs hsigned intent (hid ▸ hintent) d (hiid ▸ hd)
  have hdecision : c.decisionMode = .ELECTRONIC_SIGNATURE :=
    (congrArg (·.decisionMode) hpolicy).trans hmode
  have hsnapshot : c.policySnapshot = c'.policySnapshot := congrArg (·.policySnapshot) hpolicy
  have hv := h s hs hsigned c hc (by rw [hcid, hcase, hsc]) hdecision intent (hid ▸ hintent) d hd'
  rw [← hid, ← hsnapshot, ← hiid]
  exact hk.validated s hs hsigned _ _ _ hv

/-- The invariant: signed signers have their evidence, and cases are found by their key. -/
structure EvidenceInv (db : Db) : Prop where
  casesKeyed : (db.cases.map (·.id)).Nodup
  signersHaveCase : ∀ s ∈ db.signers, ∃ c ∈ db.cases, c.id = s.signatureCaseId
  signed : SignedEvidence db

theorem EvidenceInv.of_kept (h : EvidenceInv db) (hk : EvidenceKept db db')
    (hcases : db'.cases = db.cases) (hsigners : db'.signers = db.signers) : EvidenceInv db' where
  casesKeyed := hcases ▸ h.casesKeyed
  signersHaveCase := by
    rw [hcases, hsigners]
    exact h.signersHaveCase
  signed := h.signed.of_kept hk

end Frame

/-! ## Cases and signers -/

section Step

variable {db : Db} {actor : ActorKind}

theorem EvidenceInv.insert_case (h : EvidenceInv db) {row : SignatureCase}
    (hok : (Tables.cases actor).onInsert db row = .ok ()) :
    EvidenceInv { db with cases := db.cases ++ [row] } := by
  have hnew : ∀ c ∈ db.cases, c.id ≠ row.id := by
    simp only [Tables.cases, refuse_append, refuse_violates, List.any_eq_false, beq_iff_eq] at hok
    exact hok.1.1
  refine ⟨?_, fun s hs => ?_, h.signed.of_kept (.of_cases fun s hs _ c' hc' hid => ?_)⟩
  · rw [List.map_append, List.map_singleton]
    refine List.nodup_append.mpr ⟨h.casesKeyed, List.nodup_singleton _, fun a ha b hb => ?_⟩
    obtain ⟨c, hc, rfl⟩ := List.mem_map.mp ha
    rw [List.mem_singleton.mp hb]
    exact hnew c hc
  · obtain ⟨c, hc, hid⟩ := h.signersHaveCase s hs
    exact ⟨c, List.mem_append_left _ hc, hid⟩
  · rcases List.mem_append.mp hc' with hold | hrow
    · exact ⟨c', hold, rfl, rfl⟩
    · obtain ⟨c, hc, hcid⟩ := h.signersHaveCase s hs
      rw [List.mem_singleton.mp hrow] at hid
      exact absurd (hcid.trans hid.symm) (hnew c hc)

theorem EvidenceInv.update_case (h : EvidenceInv db) {row : SignatureCase}
    (hc : KeepsSignedEvidence db (.update actor .cases row)) :
    EvidenceInv { db with cases := assign (fun c => c.id == row.id) (fun _ => row) db.cases } := by
  have hkey : (assign (fun c => c.id == row.id) (fun _ => row) db.cases).map (·.id) =
      db.cases.map (·.id) := map_assign fun c _ hp => (eq_of_beq hp).symm
  refine ⟨hkey ▸ h.casesKeyed, fun s hs => ?_, h.signed.of_kept
    (.of_cases fun s hs hsigned c' hc' hid => ?_)⟩
  · obtain ⟨c, hc, hid⟩ := h.signersHaveCase s hs
    have hmem := List.mem_map_of_mem (f := (·.id)) hc
    rw [← hkey, hid] at hmem
    exact List.mem_map.mp hmem
  · rcases mem_assign_const hc' with ⟨hold, -⟩ | ⟨rfl, c, hcm, hp⟩
    · exact ⟨c', hold, rfl, rfl⟩
    · have hp : c.id = c'.id := eq_of_beq hp
      refine ⟨c, hcm, hp, ?_⟩
      by_contra hne
      exact hc c hcm hp hne s hs (by rw [hp, hid]) hsigned

theorem EvidenceInv.delete_case (h : EvidenceInv db) {k : Id}
    (hok : ∀ c ∈ db.cases, c.id = k → (Tables.cases actor).onDelete db c = .ok ()) :
    EvidenceInv { db with cases := db.cases.filter fun c => !(c.id == k) } := by
  have hkept : ∀ s ∈ db.signers, ∀ c ∈ db.cases, c.id = s.signatureCaseId → ¬c.id = k := by
    intro s hs c hc hid hk
    have hrefused := hok c hc hk
    simp only [Tables.cases, refuse_append, refuse_violates, List.any_eq_false, beq_iff_eq]
      at hrefused
    exact hrefused.1.1 s hs hid.symm
  refine ⟨h.casesKeyed.sublist ((List.filter_sublist).map _), fun s hs => ?_, h.signed.of_kept
    (.of_cases fun s hs hsigned c' hc' _ => ⟨c', (List.mem_filter.mp hc').1, rfl, rfl⟩)⟩
  obtain ⟨c, hc, hid⟩ := h.signersHaveCase s hs
  exact ⟨c, List.mem_filter.mpr ⟨hc, by simpa using hkept s hs c hc hid⟩, hid⟩

theorem validatedSignature_of_guard {s row : Signer}
    (hok : refuse (assertSignerSignatureEvidence db s row) = .ok ()) (hsigned : row.status = .signed)
    (hs : s.status ≠ .signed) (hown : db.SignsItsIntent row.id) {c : SignatureCase}
    (hc : db.case? row.signatureCaseId = some c) (hmode : c.decisionMode = .ELECTRONIC_SIGNATURE)
    {intent : SigningIntent} (hintent : db.verifiedIntent? row.id = some intent)
    {d : SigningIntentDocument} (hd : d ∈ db.signableDocuments intent.id) :
    db.ValidatedSignature c.policySnapshot row.id intent.id d.documentVersionId := by
  have hchecks : ¬(row.status ≠ .signed ∨ s.status = .signed) := by simp [hsigned, hs]
  rw [assertSignerSignatureEvidence, if_neg hchecks, hc] at hok
  simp only [hmode, ne_eq, not_true_eq_false, if_false, hintent, refuse_append, refuse_raises,
    List.any_eq_false, Bool.not_eq_true', Bool.not_eq_false] at hok
  have hvalidated := hok.2 d hd
  simp only [Db.hasValidatedSignature, List.any_eq_true, Bool.and_eq_true, beq_iff_eq] at hvalidated
  obtain ⟨attempt, ha, ⟨⟨hsigner, hversion⟩, hstatus⟩, artifact, hf, ⟨hfa, hrank⟩, run, hr, hra,
    hacc⟩ := hvalidated
  obtain ⟨identity, hi, hid, hint⟩ := hown intent hintent d hd attempt ha hsigner hversion hstatus
  exact ⟨attempt, ha, identity, hi, artifact, hf, run, hr, ⟨hstatus, hsigner, hversion⟩,
    ⟨hid, hint⟩, ⟨hfa, hrank⟩, hra, hacc⟩

theorem exists_case_of_signerConstraints {row : Signer}
    (h : refuse (Tables.signerConstraints db row) = .ok ()) :
    ∃ c, db.case? row.signatureCaseId = some c := by
  simp only [Tables.signerConstraints, refuse_append, refuse_violates] at h
  exact Option.isSome_iff_exists.mp (by simpa using h.1.1)

theorem case?_eq_some {id : Id} {c : SignatureCase} (h : db.case? id = some c) :
    c ∈ db.cases ∧ c.id = id :=
  exists_of_find?_key h

theorem EvidenceInv.insert_signer (h : EvidenceInv db) {row : Signer}
    (hok : (Tables.signers actor).onInsert db row = .ok ()) :
    EvidenceInv { db with signers := db.signers ++ [row] } := by
  simp only [Tables.signers, refuse_append, refuse_raises] at hok
  obtain ⟨⟨⟨-, hconstraints⟩, -⟩, hstatus⟩ := hok
  refine ⟨h.casesKeyed, fun s hs => ?_, h.signed.of_kept (.of_signers fun s hs hsigned => ?_)⟩
  · rcases List.mem_append.mp hs with hold | hrow
    · exact h.signersHaveCase s hold
    · obtain ⟨c, hc⟩ := exists_case_of_signerConstraints hconstraints
      rw [List.mem_singleton.mp hrow]
      exact ⟨c, case?_eq_some hc⟩
  · rcases List.mem_append.mp hs with hold | hrow
    · exact ⟨s, hold, rfl, rfl, hsigned⟩
    · rw [List.mem_singleton.mp hrow] at hsigned
      exact absurd hsigned (by simpa using hstatus)

theorem EvidenceInv.update_signer (h : EvidenceInv db) {row : Signer}
    (hc : KeepsSignedEvidence db (.update actor .signers row))
    (hok : ∀ s ∈ db.signers, s.id = row.id → (Tables.signers actor).onUpdate db s row = .ok ()) :
    EvidenceInv { db with signers := assign (fun s => s.id == row.id) (fun _ => row) db.signers } := by
  have hguards : ∀ s ∈ db.signers, s.id = row.id →
      (∃ c, db.case? row.signatureCaseId = some c) ∧
        (s.status = .signed → s.signatureCaseId = row.signatureCaseId) ∧
        refuse (assertSignerSignatureEvidence db s row) = .ok () := by
    intro s hs hid
    have hupdate := hok s hs hid
    simp only [Tables.signers, refuse_append] at hupdate
    obtain ⟨⟨⟨hcons, -⟩, hbinding⟩, hevidence⟩ := hupdate
    refine ⟨exists_case_of_signerConstraints hcons.1.1, fun hsigned => ?_, hevidence⟩
    simp only [protectSignerBinding, refuse_raises, hsigned] at hbinding
    have hbinding : row.toSignerBinding = s.toSignerBinding := by simpa using hbinding
    exact (congrArg (·.signatureCaseId) hbinding).symm
  refine ⟨h.casesKeyed, fun s' hs' => ?_, ?_⟩
  · rcases mem_assign_const hs' with ⟨hold, -⟩ | ⟨rfl, s, hs, hp⟩
    · exact h.signersHaveCase s' hold
    · obtain ⟨c, hc⟩ := (hguards s hs (eq_of_beq hp)).1
      exact ⟨c, case?_eq_some hc⟩
  · intro s' hs' hsigned' c hcm hcase hmode intent hintent d hd
    rcases mem_assign_const hs' with ⟨hold, -⟩ | ⟨rfl, s, hs, hp⟩
    · exact h.signed s' hold hsigned' c hcm hcase hmode intent hintent d hd
    · have hid : s.id = s'.id := eq_of_beq hp
      obtain ⟨-, hsame, hevidence⟩ := hguards s hs hid
      by_cases hs0 : s.status = .signed
      · have hv := h.signed s hs hs0 c hcm (hcase.trans (hsame hs0).symm) hmode intent
          (hid ▸ hintent) d hd
        rw [← hid]
        exact hv
      · have hfound : db.case? s'.signatureCaseId = some c := by
          rw [← hcase]
          exact find?_of_mem h.casesKeyed hcm
        exact validatedSignature_of_guard hevidence hsigned' hs0 (hc hsigned' s hs hid hs0) hfound
          hmode hintent hd

theorem EvidenceInv.delete_signer (h : EvidenceInv db) {k : Id} :
    EvidenceInv { db with signers := db.signers.filter fun s => !(s.id == k) } :=
  ⟨h.casesKeyed, fun s hs => h.signersHaveCase s (List.mem_filter.mp hs).1, h.signed.of_kept
    (.of_signers fun s hs hsigned => ⟨s, (List.mem_filter.mp hs).1, rfl, rfl, hsigned⟩)⟩

/-! ## Intents -/

theorem EvidenceInv.insert_intent (h : EvidenceInv db) {row : SigningIntent}
    (hc : KeepsSignedEvidence db (.insert actor .intents row)) :
    EvidenceInv { db with intents := db.intents ++ [row] } := by
  refine h.of_kept (.of_intents fun s hs hsigned => ?_) rfl rfl
  have hother : (row.signerId == s.id && row.status.isVerified) = false := by
    rw [Bool.and_eq_false_iff]
    by_cases hv : row.status.isVerified = true
    · exact Or.inl (beq_false_of_ne fun he => hc hv ⟨s, hs, he.symm, hsigned⟩)
    · exact Or.inr (by simpa using hv)
  simp only [Db.verifiedIntent?, List.filter_append, List.filter_cons, hother, List.filter_nil,
    List.append_nil, Bool.false_eq_true, if_false]

theorem EvidenceInv.update_intent (h : EvidenceInv db) {row : SigningIntent}
    (hc : KeepsSignedEvidence db (.update actor .intents row))
    (hok : ∀ i ∈ db.intents, i.id = row.id → Tables.intents.onUpdate db i row = .ok ()) :
    EvidenceInv { db with intents := assign (fun i => i.id == row.id) (fun _ => row) db.intents } := by
  have hguards : ∀ i ∈ db.intents, i.id = row.id → row.toIntentPayload = i.toIntentPayload ∧
      (i.status.isVerified = true → row.status.isVerified = true) := by
    intro i hi hid
    have hupdate := hok i hi hid
    simp only [Tables.intents, protectSigningIntent, refuse_append, refuse_raises,
      refuse_assertTransition, decide_eq_false_iff_not, not_not] at hupdate
    obtain ⟨⟨hpayload, hstatus⟩, -⟩ := hupdate
    refine ⟨hpayload, fun hv => ?_⟩
    rcases hstatus with hsame | hallowed
    · exact hsame ▸ hv
    · exact IntentStatus.isVerified_of_allowed hv hallowed
  refine h.of_kept (.of_intents fun s hs hsigned => ?_) rfl rfl
  have hselect : ∀ i ∈ db.intents, (i.id == row.id) = true →
      (row.signerId == s.id && row.status.isVerified) =
        (i.signerId == s.id && i.status.isVerified) := by
    intro i hi hp
    have hid : i.id = row.id := eq_of_beq hp
    obtain ⟨hpayload, hkept⟩ := hguards i hi hid
    have hsigner : row.signerId = i.signerId := congrArg (·.signerId) hpayload
    rw [hsigner]
    cases hold : i.status.isVerified with
    | true => rw [hkept hold]
    | false =>
      by_cases hv : row.status.isVerified = true
      · have hne : i.signerId ≠ s.id := fun he =>
          hc i hi hid hold hv ⟨s, hs, (hsigner.trans he).symm, hsigned⟩
        rw [beq_false_of_ne hne, Bool.false_and, Bool.false_and]
      · rw [Bool.eq_false_iff.mpr hv]
  have hcreated : ∀ i ∈ db.intents.filter (fun i => i.signerId == s.id && i.status.isVerified),
      -((if i.id == row.id then row else i).createdAt : Int) = -(i.createdAt : Int) := by
    intro i hi
    split
    · next hp =>
      have hpayload := (hguards i (List.mem_filter.mp hi).1 (eq_of_beq hp)).1
      rw [show row.createdAt = i.createdAt from congrArg (·.createdAt) hpayload]
    · rfl
  unfold Db.verifiedIntent?
  rw [filter_assign hselect, assign, minBy_map hcreated, Option.map_map]
  congr 1
  funext i
  by_cases hp : (i.id == row.id) = true
  · rw [Function.comp_apply, if_pos hp]
    exact (eq_of_beq hp).symm
  · rw [Function.comp_apply, if_neg hp]

theorem EvidenceInv.insert_intentDocument (h : EvidenceInv db) {row : SigningIntentDocument}
    (hc : KeepsSignedEvidence db (.insert actor .intentDocuments row)) :
    EvidenceInv { db with intentDocuments := db.intentDocuments ++ [row] } := by
  refine h.of_kept (.of_intentDocuments fun s hs hsigned intent hintent d hd => ?_) rfl rfl
  rw [Db.signableDocuments, List.filter_append] at hd
  rcases List.mem_append.mp hd with hold | hrow
  · exact hold
  · exfalso
    obtain ⟨hmem, hsel⟩ := List.mem_filter.mp hrow
    rw [List.mem_singleton.mp hmem, Bool.and_eq_true, beq_iff_eq, beq_iff_eq] at hsel
    exact hc hsel.2 s hs hsigned intent hintent hsel.1

/-! ## Identity transactions and attempts -/

theorem EvidenceInv.insert_identity (h : EvidenceInv db) {row : IdentityTransaction} :
    EvidenceInv { db with identityTransactions := db.identityTransactions ++ [row] } := by
  refine h.of_kept (.of_validated rfl rfl rfl rfl fun _ _ _ _ _ _ hv => ?_) rfl rfl
  exact hv.mono (fun a ha hs _ _ => ⟨a, ha, rfl, hs, rfl⟩)
    (fun _ _ _ _ t ht _ => ⟨t, List.mem_append_left _ ht, rfl, rfl⟩) (fun _ ha => ha)
    fun _ hr => hr

theorem EvidenceInv.update_identity (h : EvidenceInv db) {row : IdentityTransaction}
    (hc : KeepsSignedEvidence db (.update actor .identityTransactions row)) :
    EvidenceInv { db with
      identityTransactions :=
        assign (fun t => t.id == row.id) (fun _ => row) db.identityTransactions } := by
  refine h.of_kept (.of_validated rfl rfl rfl rfl fun s hs hsigned _ _ _ hv => ?_) rfl rfl
  refine hv.mono (fun a ha hstatus _ _ => ⟨a, ha, rfl, hstatus, rfl⟩)
    (fun a ha hstatus hsigner t ht htx => ?_) (fun _ ha => ha) fun _ hr => hr
  refine ⟨if t.id == row.id then row else t, mem_assign.mpr ⟨t, ht, rfl⟩, ?_⟩
  split
  · next hp =>
    have hid : t.id = row.id := eq_of_beq hp
    refine ⟨hid.symm, ?_⟩
    by_contra hne
    exact hc t ht hid (Ne.symm hne) a ha htx.symm hstatus ⟨s, hs, hsigner.symm, hsigned⟩
  · exact ⟨rfl, rfl⟩

theorem EvidenceInv.delete_identity (h : EvidenceInv db) {k : Id}
    (hok : ∀ t ∈ db.identityTransactions, t.id = k →
      Tables.identityTransactions.onDelete db t = .ok ()) :
    EvidenceInv { db with
      identityTransactions := db.identityTransactions.filter fun t => !(t.id == k) } := by
  refine h.of_kept (.of_validated rfl rfl rfl rfl fun s hs hsigned _ _ _ hv => ?_) rfl rfl
  refine hv.mono (fun a ha hstatus _ _ => ⟨a, ha, rfl, hstatus, rfl⟩) (fun a ha _ _ t ht htx => ?_)
    (fun _ ha => ha) fun _ hr => hr
  refine ⟨t, List.mem_filter.mpr ⟨ht, ?_⟩, rfl, rfl⟩
  have hne : t.id ≠ k := by
    intro hk
    have hdelete := hok t ht hk
    simp only [Tables.identityTransactions, refuse_append, refuse_violates, List.any_eq_false,
      beq_iff_eq] at hdelete
    exact hdelete.2 a ha htx.symm
  simpa using hne

theorem EvidenceInv.insert_attempt (h : EvidenceInv db) {row : SignatureAttempt} :
    EvidenceInv { db with attempts := db.attempts ++ [row] } := by
  refine h.of_kept (.of_validated rfl rfl rfl rfl fun _ _ _ _ _ _ hv => ?_) rfl rfl
  exact hv.mono (fun a ha hs _ _ => ⟨a, List.mem_append_left _ ha, rfl, hs, rfl⟩)
    (fun _ _ _ _ t ht _ => ⟨t, ht, rfl, rfl⟩) (fun _ ha => ha) fun _ hr => hr

theorem EvidenceInv.update_attempt (h : EvidenceInv db) {row : SignatureAttempt}
    (hc : KeepsSignedEvidence db (.update actor .attempts row))
    (hok : ∀ a ∈ db.attempts, a.id = row.id → (Tables.attempts actor).onUpdate db a row = .ok ()) :
    EvidenceInv { db with
      attempts := assign (fun a => a.id == row.id) (fun _ => row) db.attempts } := by
  refine h.of_kept (.of_validated rfl rfl rfl rfl fun s hs hsigned _ _ _ hv => ?_) rfl rfl
  refine hv.mono (fun a ha hstatus hsigner _ => ?_) (fun _ _ _ _ t ht _ => ⟨t, ht, rfl, rfl⟩)
    (fun _ ha => ha) fun _ hr => hr
  refine ⟨if a.id == row.id then row else a, mem_assign.mpr ⟨a, ha, rfl⟩, ?_⟩
  split
  · next hp =>
    have hid : a.id = row.id := eq_of_beq hp
    have hupdate := hok a ha hid
    simp only [Tables.attempts, refuse_append, refuse_assertTransition, hstatus,
      AttemptStatus.allowed_of_validated, List.not_mem_nil, or_false] at hupdate
    exact ⟨hid.symm, hupdate.1.1.2, hc a ha hid hstatus ⟨s, hs, hsigner.symm, hsigned⟩⟩
  · exact ⟨rfl, hstatus, rfl⟩

theorem EvidenceInv.delete_attempt (h : EvidenceInv db) {k : Id}
    (hok : ∀ a ∈ db.attempts, a.id = k → (Tables.attempts actor).onDelete db a = .ok ()) :
    EvidenceInv { db with attempts := db.attempts.filter fun a => !(a.id == k) } := by
  refine h.of_kept (.of_validated rfl rfl rfl rfl fun s hs hsigned _ _ _ hv => ?_) rfl rfl
  refine hv.mono (fun a ha hstatus _ hartifact => ?_) (fun _ _ _ _ t ht _ => ⟨t, ht, rfl, rfl⟩)
    (fun _ ha => ha) fun _ hr => hr
  obtain ⟨f, hf, hfa⟩ := hartifact
  refine ⟨a, List.mem_filter.mpr ⟨ha, ?_⟩, rfl, hstatus, rfl⟩
  have hne : a.id ≠ k := by
    intro hk
    have hdelete := hok a ha hk
    simp only [Tables.attempts, refuse_violates, List.any_eq_false, beq_iff_eq] at hdelete
    exact hdelete f hf hfa
  simpa using hne

theorem EvidenceInv.append (h : EvidenceInv db) (artifacts : List SignatureArtifact)
    (evidence : List SignatureEvidence) (runs : List ValidationRun) :
    EvidenceInv { db with
      artifacts := db.artifacts ++ artifacts
      evidence := db.evidence ++ evidence
      validationRuns := db.validationRuns ++ runs } := by
  refine h.of_kept (.of_validated rfl rfl rfl rfl fun _ _ _ _ _ _ hv => ?_) rfl rfl
  exact hv.mono (fun a ha hs _ _ => ⟨a, ha, rfl, hs, rfl⟩)
    (fun _ _ _ _ t ht _ => ⟨t, ht, rfl, rfl⟩) (fun _ ha => List.mem_append_left _ ha)
    fun _ hr => List.mem_append_left _ hr

/-! ## Steps and runs -/

theorem no_row_of_appendOnly {ρ : Type} {rows : List ρ} {p : ρ → Prop} {message : String}
    (hok : ∀ row ∈ rows, p row → appendOnly message = .ok ()) : ∀ row ∈ rows, ¬p row := by
  intro row hrow hp
  have hrefused := hok row hrow hp
  cases hrefused

theorem EvidenceInv.insert (h : EvidenceInv db) {t : TableName} {row : t.Row}
    (hc : KeepsSignedEvidence db (.insert actor t row))
    (hok : (t.table actor).onInsert db row = .ok ()) :
    EvidenceInv ((t.table actor).put ((t.table actor).rows db ++ [row]) db) := by
  cases t with
  | cases => exact h.insert_case hok
  | signers => exact h.insert_signer hok
  | intents => exact h.insert_intent hc
  | intentDocuments => exact h.insert_intentDocument hc
  | identityTransactions => exact h.insert_identity
  | attempts => exact h.insert_attempt
  | validationRuns =>
    have happend := h.append [] [] [row]
    rw [List.append_nil, List.append_nil] at happend
    exact happend
  | documents | versions | invitations | identityArtifacts | evidence =>
    exact h.of_kept (.of_validated rfl rfl rfl rfl fun _ _ _ _ _ _ hv => hv) rfl rfl

theorem EvidenceInv.update (h : EvidenceInv db) {t : TableName} {row : t.Row}
    (hc : KeepsSignedEvidence db (.update actor t row))
    (hok : ∀ old ∈ (t.table actor).rows db, t.key old = t.key row →
      (t.table actor).onUpdate db old row = .ok ()) :
    EvidenceInv ((t.table actor).put
      (assign (fun old => t.key old == t.key row) (fun _ => row) ((t.table actor).rows db)) db) := by
  cases t with
  | cases => exact h.update_case hc
  | signers => exact h.update_signer hc hok
  | intents => exact h.update_intent hc hok
  | identityTransactions => exact h.update_identity hc
  | attempts => exact h.update_attempt hc hok
  | intentDocuments | validationRuns =>
    rw [assign_eq_self fun old hold =>
      beq_false_of_ne (no_row_of_appendOnly hok old hold)]
    exact h
  | documents | versions | invitations | identityArtifacts | evidence =>
    exact h.of_kept (.of_validated rfl rfl rfl rfl fun _ _ _ _ _ _ hv => hv) rfl rfl

theorem EvidenceInv.delete (h : EvidenceInv db) {t : TableName} {k : Id}
    (hok : ∀ old ∈ (t.table actor).rows db, t.key old = k →
      (t.table actor).onDelete db old = .ok ()) :
    EvidenceInv ((t.table actor).put
      (((t.table actor).rows db).filter fun old => !(t.key old == k)) db) := by
  cases t with
  | cases => exact h.delete_case hok
  | signers => exact h.delete_signer
  | identityTransactions => exact h.delete_identity hok
  | attempts => exact h.delete_attempt hok
  | intents | intentDocuments | validationRuns =>
    rw [List.filter_eq_self.mpr fun old hold => by
      simpa using no_row_of_appendOnly hok old hold]
    exact h
  | documents | versions | invitations | identityArtifacts | evidence =>
    exact h.of_kept (.of_validated rfl rfl rfl rfl fun _ _ _ _ _ _ hv => hv) rfl rfl

theorem EvidenceInv.step {db' : Db} {op : RowOp} (h : EvidenceInv db)
    (hc : KeepsSignedEvidence db op) (hs : dataStep db op = some db') : EvidenceInv db' := by
  cases op with
  | insert actor t row =>
    obtain ⟨hok, rfl⟩ := dataStep_insert.mp hs
    exact h.insert hc hok
  | update actor t row =>
    obtain ⟨hok, rfl⟩ := dataStep_update.mp hs
    exact h.update hc hok
  | delete actor t k =>
    obtain ⟨hok, rfl⟩ := dataStep_delete.mp hs
    exact h.delete hok
  | sign actor artifact kinds =>
    obtain ⟨-, -, rfl⟩ := dataStep_sign hs
    have happend := h.append [artifact] (kinds.map fun kind => ⟨kind, artifact.id⟩) []
    rw [List.append_nil] at happend
    exact happend

theorem EvidenceInv.empty : EvidenceInv Db.empty where
  casesKeyed := List.nodup_nil
  signersHaveCase := by simp [Db.empty]
  signed := by simp [SignedEvidence, Db.empty]

end Step

/--
In every state of a run whose operations leave the evidence of signed signers alone, every signed
signer has a validated signature for every signable document of its verified intent.
-/
theorem signedEvidence_of_run {ops : List RowOp} {db : Db}
    (hm : Meets dataStep KeepsSignedEvidence Db.empty ops)
    (hr : run dataStep Db.empty ops = some db) : SignedEvidence db :=
  (run_invariant_of_meets (fun _ _ _ h hc hs => EvidenceInv.step h hc hs) EvidenceInv.empty hm
    hr).signed

/-! ## Two runs -/

namespace SignedEvidence

/-- A case with one document, its signer in the middle of signing, and the verified intent. -/
def preparedOps : List RowOp := [
  .insert .client .cases
    { id := 1, decisionMode := .ELECTRONIC_SIGNATURE, policyId := 1, policyVersion := 1,
      policySnapshot := .obj [("requiredPadesLevel".toList, Json.lit "B")], status := .sent,
      externalReference := none, expiresAt := none },
  .insert .client .documents
    { id := 1, signatureCaseId := 1, displayName := "Avtal".toList, documentRole := .signable,
      createdAt := 0 },
  .insert .worker .versions
    { id := 1, documentId := 1, version := 1, canonicalObjectKey := some (.canonical 1),
      mimeType := "application/pdf".toList, byteSize := 1, sha256 := some 10, lockedAt := some 0,
      status := .locked },
  .insert .client .signers
    { id := 1, signatureCaseId := 1, expectedIdentifier := none, signingOrder := 1,
      required := true, email := none, identifierBindingMode := none,
      identifierBindingExceptionCode := none, hardBouncedAt := none, complainedAt := none,
      status := .signing },
  .insert .worker .intents
    { id := 1, signatureCaseId := 1, signerId := 1, sequenceGroup := 1, visibleText := [],
      nonVisiblePayload := [], identifierBindingMode := .STRICT_PREBOUND, issuedAt := 0,
      expiresAt := 1, createdAt := 0, status := .verified },
  .insert .worker .intentDocuments
    { signingIntentId := 1, documentVersionId := 1, ordinal := 1, documentSha256 := 10,
      documentRole := .signable }]

/-- The signer's identity, the attempt with its artifact and run, and the signed status. -/
def signingOps : List RowOp := [
  .insert .worker .identityTransactions
    { id := 1, signerId := 1, documentVersionId := 1, provider := .TIC_BANKID,
      providerReference := 1, startedAt := 0, signingIntentId := some 1,
      evidenceSha256 := some 30, status := .verified },
  .insert .worker .identityArtifacts
    { provider := .TIC_BANKID, identityTransactionId := 1, signingIntentId := 1, pass := true },
  .insert .trustedService .attempts
    { id := 1, signerId := 1, documentVersionId := 1, identityTransactionId := 1,
      documentSha256 := 10, provider := .TIC_BANKID, attemptNumber := 1, status := .signed },
  .sign .trustedService
    { id := 1, signatureAttemptId := 1, format := .B, signedDocumentObjectKey := .signed 1 1,
      signedDocumentSha256 := 20, inputRevisionSha256 := 10 }
    [.signatureCertificate, .certificateChain],
  .insert .trustedService .validationRuns
    { signatureArtifactId := 1, indication := .TOTAL_PASSED, trustListSnapshotObjectKey := none },
  .update .trustedService .attempts
    { id := 1, signerId := 1, documentVersionId := 1, identityTransactionId := 1,
      documentSha256 := 10, provider := .TIC_BANKID, attemptNumber := 1, status := .validated },
  .update .trustedService .signers
    { id := 1, signatureCaseId := 1, expectedIdentifier := none, signingOrder := 1,
      required := true, email := none, identifierBindingMode := none,
      identifierBindingExceptionCode := none, hardBouncedAt := none, complainedAt := none,
      status := .signed }]

/-- A second document that the signer never signed, added to the intent afterwards. -/
def laterOps : List RowOp := [
  .insert .client .documents
    { id := 2, signatureCaseId := 1, displayName := "Bilaga".toList, documentRole := .signable,
      createdAt := 5 },
  .insert .worker .versions
    { id := 2, documentId := 2, version := 1, canonicalObjectKey := some (.canonical 2),
      mimeType := "application/pdf".toList, byteSize := 1, sha256 := some 11, lockedAt := some 5,
      status := .locked },
  .insert .worker .intentDocuments
    { signingIntentId := 1, documentVersionId := 2, ordinal := 2, documentSha256 := 11,
      documentRole := .signable }]

end SignedEvidence

/-- A signer who signs in a run of such operations. -/
theorem signedEvidence_of_run_signing :
    ∃ db, run dataStep Db.empty (SignedEvidence.preparedOps ++ SignedEvidence.signingOps) =
      some db ∧ (∃ s ∈ db.signers, s.status = .signed) ∧ SignedEvidence db := by
  obtain ⟨db, hdb⟩ : ∃ db, run dataStep Db.empty
      (SignedEvidence.preparedOps ++ SignedEvidence.signingOps) = some db :=
    Option.isSome_iff_exists.mp (by decide +kernel)
  have hsigned : ∀ db' ∈ run dataStep Db.empty
      (SignedEvidence.preparedOps ++ SignedEvidence.signingOps),
        ∃ s ∈ db'.signers, s.status = .signed := by decide +kernel
  exact ⟨db, hdb, hsigned db hdb, signedEvidence_of_run (by decide +kernel) hdb⟩

/--
Not every run keeps the evidence: no trigger stands against a further document of an intent that a
signer has already signed.
-/
theorem not_signedEvidence_of_intentDocument :
    ¬∀ ops db, run dataStep Db.empty ops = some db → SignedEvidence db := by
  intro h
  have hgrown : ∃ db, run dataStep Db.empty (SignedEvidence.preparedOps ++
      SignedEvidence.signingOps ++ SignedEvidence.laterOps) = some db :=
    Option.isSome_iff_exists.mp (by decide +kernel)
  have hunsigned : ∀ db ∈ run dataStep Db.empty (SignedEvidence.preparedOps ++
      SignedEvidence.signingOps ++ SignedEvidence.laterOps), ¬SignedEvidence db := by
    decide +kernel
  obtain ⟨db, hdb⟩ := hgrown
  exact hunsigned db hdb (h _ db hdb)

end Kommunsign
