import Kommunsign.Properties.SignedEvidence
import Kommunsign.Workflow.Standing

/-!
# Completing a case whose signers have signed

`app.assert_signer_signature_evidence` asks a signer for a signature on every signable document of
the verified intent; an attachment is bound by the intent and not signed. The guard of the case,
`app.assert_case_completion_evidence`, asks every required signer for a signature on the latest
version of every document of the case, whatever its role.

* `assertCaseCompletionEvidence_iff_allSigned` — the case is accepted in exactly these cases
* `PackagesOpenCase` — the package of a case is built while the case is open
* `throughout_completionAnnounced_iff` — a run keeps the one exactly when its steps meet the other
-/

namespace Kommunsign

open Infra

section CaseCompletion

/-- The signer guard accepts the row as `signed`. -/
def AcceptedAsSigned (db : Db) (s : Signer) : Prop :=
  s.status = .signed ∧ refuse (assertSignerSignatureEvidence db { s with status := .signing } s) = .ok ()

instance (db : Db) (s : Signer) : Decidable (AcceptedAsSigned db s) :=
  inferInstanceAs (Decidable (_ ∧ _))

/-- An electronic signature case whose required signers have all signed, with its package. -/
structure ReadyToComplete (db : Db) (c : SignatureCase) : Prop where
  found : db.case? c.id = some c
  electronic : c.decisionMode = .ELECTRONIC_SIGNATURE
  incomplete : c.status ≠ .completed
  signed : ∀ s ∈ db.requiredSigners c.id, AcceptedAsSigned db s
  package : ⟨c.id, none⟩ ∈ db.evidencePackages

def CompletionAccepted (db : Db) (c : SignatureCase) : Prop :=
  refuse (assertCaseCompletionEvidence db c { c with status := .completed }) = .ok ()

/-- The signer's verified intent has the version among the documents to be signed. -/
def Db.SignableByIntent (db : Db) (signerId documentVersionId : Id) : Prop :=
  ∃ intent, db.verifiedIntent? signerId = some intent ∧
    ∃ d ∈ db.signableDocuments intent.id, d.documentVersionId = documentVersionId

/--
There is a required signer and a document, and the latest version of every document is one that
each required signer had to sign, or happens to have signed.
-/
structure AllSigned (db : Db) (c : SignatureCase) : Prop where
  required : db.requiredSigners c.id ≠ []
  documents : ∃ d ∈ db.documents, d.signatureCaseId = c.id
  signable : ∀ s ∈ db.requiredSigners c.id, ∀ v ∈ db.latestVersions c.id,
    db.SignableByIntent s.id v ∨ db.hasValidatedSignature c.policySnapshot s.id v = true

variable {db : Db} {c : SignatureCase}

theorem exists_intent_of_accepted {s : Signer} (hfound : db.case? s.signatureCaseId = some c)
    (helectronic : c.decisionMode = .ELECTRONIC_SIGNATURE) (h : AcceptedAsSigned db s) :
    ∃ intent, db.verifiedIntent? s.id = some intent ∧ ∀ d ∈ db.signableDocuments intent.id,
      db.hasValidatedSignature c.policySnapshot s.id d.documentVersionId = true := by
  obtain ⟨hsigned, hok⟩ := h
  unfold assertSignerSignatureEvidence at hok
  rw [if_neg (by simp [hsigned]), hfound] at hok
  dsimp only at hok
  rw [if_neg (by simp [helectronic])] at hok
  cases hintent : db.verifiedIntent? s.id with
  | none => simp [hintent] at hok
  | some intent =>
    rw [hintent, refuse_append, refuse_raises, refuse_raises, List.any_eq_false] at hok
    exact ⟨intent, rfl, fun d hd => by simpa using hok.2 d hd⟩

theorem mem_requiredSigners {s : Signer} {signatureCaseId : Id} :
    s ∈ db.requiredSigners signatureCaseId ↔
      s ∈ db.signers ∧ s.signatureCaseId = signatureCaseId ∧ s.required = true := by
  rw [Db.requiredSigners, List.mem_filter, Bool.and_eq_true, beq_iff_eq]

theorem completionAccepted_iff (helectronic : c.decisionMode = .ELECTRONIC_SIGNATURE)
    (hincomplete : c.status ≠ .completed) : CompletionAccepted db c ↔
      db.requiredSigners c.id ≠ [] ∧ (∀ s ∈ db.requiredSigners c.id, s.status = .signed) ∧
        (∃ d ∈ db.documents, d.signatureCaseId = c.id) ∧
        ∀ s ∈ db.requiredSigners c.id, ∀ v ∈ db.latestVersions c.id,
          db.hasValidatedSignature c.policySnapshot s.id v = true := by
  unfold CompletionAccepted assertCaseCompletionEvidence
  have hcompletes : (CaseStatus.completed == CaseStatus.completed && c.status != .completed) = true := by
    simpa using hincomplete
  simp only [hcompletes, helectronic, Bool.true_and, refuse_append, refuse_raises]
  simp [and_assoc]

/-- Where every required signer is accepted, the case is accepted exactly if all is signed. -/
theorem assertCaseCompletionEvidence_iff_allSigned (h : ReadyToComplete db c) :
    CompletionAccepted db c ↔ AllSigned db c := by
  rw [completionAccepted_iff h.electronic h.incomplete]
  constructor
  · rintro ⟨hrequired, -, hdocuments, hvalidated⟩
    exact ⟨hrequired, hdocuments, fun s hs v hv => Or.inr (hvalidated s hs v hv)⟩
  · rintro ⟨hrequired, hdocuments, hsignable⟩
    refine ⟨hrequired, fun s hs => (h.signed s hs).1, hdocuments, fun s hs v hv => ?_⟩
    rcases hsignable s hs v hv with ⟨intent, hintent, d, hd, rfl⟩ | hvalidated
    · -- the version is one that the signer guard has already asked for
      have hcase : db.case? s.signatureCaseId = some c := by
        rw [(mem_requiredSigners.mp hs).2.1]
        exact h.found
      obtain ⟨intent', hintent', hall⟩ := exists_intent_of_accepted hcase h.electronic (h.signed s hs)
      obtain rfl := Option.some.inj (hintent.symm.trans hintent')
      exact hall d hd
    · exact hvalidated

namespace CaseCompletion

def attachmentOps : List RowOp := [
  .insert .client .documents
    { id := 2, signatureCaseId := 1, displayName := "Bilaga".toList, documentRole := .attachment,
      createdAt := 0 },
  .insert .worker .versions
    { id := 2, documentId := 2, version := 1, canonicalObjectKey := some (.canonical 2),
      mimeType := "application/pdf".toList, byteSize := 1, sha256 := some 11, lockedAt := some 0,
      status := .locked },
  .insert .worker .intentDocuments
    { signingIntentId := 1, documentVersionId := 2, ordinal := 2, documentSha256 := 11,
      documentRole := .attachment }]

def packaged (ops : List RowOp) : Option Db :=
  (run dataStep Db.empty ops).map fun db => { db with evidencePackages := [⟨1, none⟩] }

theorem ready {c : SignatureCase} (hfound : db.case? 1 = some c)
    (h : c.decisionMode = .ELECTRONIC_SIGNATURE ∧ c.status ≠ .completed ∧
      (∀ s ∈ db.requiredSigners 1, AcceptedAsSigned db s) ∧ ⟨1, none⟩ ∈ db.evidencePackages) :
    ReadyToComplete db c := by
  have hid : c.id = 1 := (case?_eq_some hfound).2
  obtain ⟨helectronic, hincomplete, hsigned, hpackage⟩ := h
  exact ⟨hid ▸ hfound, helectronic, hincomplete, hid ▸ hsigned, hid ▸ hpackage⟩

end CaseCompletion

/-- A case with the one document that its signer has signed. -/
theorem assertCaseCompletionEvidence_iff_allSigned_oneDocument :
    ∃ db c, ReadyToComplete db c ∧ (CompletionAccepted db c ↔ AllSigned db c) := by
  have hready : ∀ db ∈ CaseCompletion.packaged (SignedEvidence.preparedOps ++ SignedEvidence.signingOps),
      (db.case? 1).isSome = true ∧ ∀ c ∈ db.case? 1, c.decisionMode = .ELECTRONIC_SIGNATURE ∧
        c.status ≠ .completed ∧ (∀ s ∈ db.requiredSigners 1, AcceptedAsSigned db s) ∧
        ⟨1, none⟩ ∈ db.evidencePackages := by decide +kernel
  obtain ⟨db, hdb⟩ : ∃ db, CaseCompletion.packaged
      (SignedEvidence.preparedOps ++ SignedEvidence.signingOps) = some db :=
    Option.isSome_iff_exists.mp (by decide +kernel)
  obtain ⟨hsome, hcase⟩ := hready db hdb
  obtain ⟨c, hc⟩ := Option.isSome_iff_exists.mp hsome
  have h := CaseCompletion.ready hc (hcase c hc)
  exact ⟨db, c, h, assertCaseCompletionEvidence_iff_allSigned h⟩

/-- With an attachment beside the signed document, the guard of the case refuses its completion. -/
theorem not_completionAccepted_of_attachment :
    ¬∀ db c, ReadyToComplete db c → CompletionAccepted db c := by
  intro hall
  have hready : ∀ db ∈ CaseCompletion.packaged (SignedEvidence.preparedOps ++
      CaseCompletion.attachmentOps ++ SignedEvidence.signingOps),
      (db.case? 1).isSome = true ∧ ∀ c ∈ db.case? 1, (c.decisionMode = .ELECTRONIC_SIGNATURE ∧
        c.status ≠ .completed ∧ (∀ s ∈ db.requiredSigners 1, AcceptedAsSigned db s) ∧
        ⟨1, none⟩ ∈ db.evidencePackages) ∧
        refuse (assertCaseCompletionEvidence db c { c with status := .completed }) ≠ .ok () := by
    decide +kernel
  obtain ⟨db, hdb⟩ : ∃ db, CaseCompletion.packaged (SignedEvidence.preparedOps ++
      CaseCompletion.attachmentOps ++ SignedEvidence.signingOps) = some db :=
    Option.isSome_iff_exists.mp (by decide +kernel)
  obtain ⟨hsome, hcase⟩ := hready db hdb
  obtain ⟨c, hc⟩ := Option.isSome_iff_exists.mp hsome
  obtain ⟨h, hrefused⟩ := hcase c hc
  exact hrefused (hall db c (CaseCompletion.ready hc h))

end CaseCompletion

/-!
# The announcement of a completed case

`handleEvidencePackageBuild` completes the case where it is open, and announces `case.completed`
whatever that update has changed. A case that has ended in another way is announced as completed
as soon as its package is built.
-/

/-- `case.completed` is announced for completed cases only, at most once on each channel. -/
structure CompletionAnnounced (s : Sys) : Prop where
  completed : ∀ channel c, ⟨channel, .case_completed, c⟩ ∈ s.db.events →
    (s.db.case? c).map (·.status) = some .completed
  once : ∀ channel c, s.db.events.count ⟨channel, .case_completed, c⟩ ≤ 1

/-- A package that is built for the first time is that of an open case, or of a completed one. -/
def PackagesOpenCase (s : Sys) : Step → Prop
  | .buildPackage c none => ⟨c, none⟩ ∈ s.db.evidencePackages ∨
      ∃ row, s.db.case? c = some row ∧ (row.status.isOpen = true ∨ row.status = .completed)
  | _ => True

def AnnouncedPackaged (s : Sys) : Prop :=
  ∀ channel c, ⟨channel, .case_completed, c⟩ ∈ s.db.events → ⟨c, none⟩ ∈ s.db.evidencePackages

section Steps

variable {s s' : Sys} {i : Step} {channel : Channel} {c : Id}

theorem count_case_completed (hstep : Sys.step s i = some s') (hbuild : i ≠ .buildPackage c none) :
    s'.db.events.count ⟨channel, .case_completed, c⟩ =
      s.db.events.count ⟨channel, .case_completed, c⟩ := by
  rcases intake_or_leaves hstep with ⟨intake, rfl, -, rfl⟩ | hleaves
  · rfl
  · rcases hleaves.events ⟨channel, .case_completed, c⟩ rfl with hsame | hannounced
    · exact hsame
    · cases i with
      | buildPackage c' signerId =>
        cases signerId with
        | some signerId => cases hannounced
        | none =>
          obtain ⟨-, rfl⟩ := hannounced
          exact absurd rfl hbuild
      | commitValidation index => cases hannounced.1
      | tick | prepareCase | send | cancel | expire | remind | delivery | markOpened | decline
      | startSession | recordSession | sessionStatus | cancelSession | pollIdentity
      | completeSession | collectEvidence | failIdentity | readEvidence | recordVerification
      | startCreate | markSigning | skipDocument | loadRevision | commitSignature | dropCreate
      | readValidate => cases hannounced

theorem mem_case_completed (hstep : Sys.step s i = some s') (hbuild : i ≠ .buildPackage c none) :
    ⟨channel, .case_completed, c⟩ ∈ s'.db.events ↔ ⟨channel, .case_completed, c⟩ ∈ s.db.events := by
  rw [← List.count_pos_iff, ← List.count_pos_iff, count_case_completed hstep hbuild]

theorem evidencePackages_subset (hstep : Sys.step s i = some s') :
    s.db.evidencePackages ⊆ s'.db.evidencePackages := by
  rcases intake_or_leaves hstep with ⟨intake, rfl, -, rfl⟩ | hleaves
  · exact List.Subset.refl _
  · exact hleaves.evidencePackages

theorem step_buildPackage (hstep : Sys.step s (.buildPackage c none) = some s') :
    (⟨c, none⟩ ∈ s.db.evidencePackages ∧ s' = s) ∨
      (⟨c, none⟩ ∉ s.db.evidencePackages ∧ s' = { s with db := s.db.withCasePackage c }) := by
  obtain ⟨-, db, hok, rfl⟩ := Sys.work_eq_some.mp hstep
  rcases buildEvidencePackage_eq hok with ⟨hbuilt, rfl⟩ | ⟨hnew, rfl⟩
  · exact Or.inl ⟨hbuilt, rfl⟩
  · exact Or.inr ⟨hnew, rfl⟩

theorem mem_withCasePackage {db : Db} :
    ⟨channel, .case_completed, c⟩ ∈ (db.withCasePackage c).events := by
  refine List.mem_append_right _ ?_
  cases channel <;> simp

theorem count_withCasePackage {db : Db} : (db.withCasePackage c).events.count
    ⟨channel, .case_completed, c⟩ = db.events.count ⟨channel, .case_completed, c⟩ + 1 := by
  rw [Db.withCasePackage, List.count_append]
  cases channel <;> simp

theorem case?_withCasePackage {db : Db} : ((db.withCasePackage c).case? c).map (·.status) =
    some .completed ↔
      ∃ row, db.case? c = some row ∧ (row.status.isOpen = true ∨ row.status = .completed) := by
  have hfind : (db.withCasePackage c).case? c = (db.case? c).map fun row =>
      if (row.id == c && row.status.isOpen) = true then { row with status := .completed } else row :=
    find?_assign (fun row : SignatureCase => row.id) fun _ _ _ => rfl
  rw [hfind, Option.map_map, Option.map_eq_some_iff]
  refine exists_congr fun row => and_congr_right fun hrow => ?_
  have hid : row.id = c := (case?_eq_some hrow).2
  by_cases hopen : row.status.isOpen = true
  · simp [hid, hopen]
  · simp [hopen]

theorem announcedPackaged_of_step (h : AnnouncedPackaged s) (hstep : Sys.step s i = some s') :
    AnnouncedPackaged s' := by
  intro channel c hmem
  by_cases hbuild : i = .buildPackage c none
  · subst hbuild
    rcases step_buildPackage hstep with ⟨hbuilt, rfl⟩ | ⟨-, rfl⟩
    · exact hbuilt
    · exact List.mem_append_right _ (List.mem_singleton.mpr rfl)
  · exact evidencePackages_subset hstep (h channel c ((mem_case_completed hstep hbuild).mp hmem))

theorem completed_of_step (h : CompletionAnnounced s) (hstep : Sys.step s i = some s')
    (hbuild : i ≠ .buildPackage c none) (hmem : ⟨channel, .case_completed, c⟩ ∈ s'.db.events) :
    (s'.db.case? c).map (·.status) = some .completed := by
  have hcompleted := h.completed channel c ((mem_case_completed hstep hbuild).mp hmem)
  obtain ⟨row, hrow, hstatus⟩ := Option.map_eq_some_iff.mp hcompleted
  obtain ⟨row', hrow', hsame⟩ := case?_of_isEnded hstep hrow (by rw [hstatus]; rfl)
  rw [hrow', Option.map_some, hsame, hstatus]

theorem completionAnnounced_step_iff (hpackaged : AnnouncedPackaged s) (h : CompletionAnnounced s)
    (hstep : Sys.step s i = some s') : CompletionAnnounced s' ↔ PackagesOpenCase s i := by
  by_cases hbuild : ∃ c, i = .buildPackage c none
  · obtain ⟨c, rfl⟩ := hbuild
    rcases step_buildPackage hstep with ⟨hbuilt, rfl⟩ | ⟨hnew, rfl⟩
    · exact iff_of_true h (Or.inl hbuilt)
    · -- nothing was announced before, so that only the row of the case decides
      have hother : ∀ c', c' ≠ c → (.buildPackage c none : Step) ≠ .buildPackage c' none := by
        rintro c' hne heq
        cases heq
        exact hne rfl
      have hsilent : ∀ channel, ⟨channel, .case_completed, c⟩ ∉ s.db.events :=
        fun channel hmem => hnew (hpackaged channel c hmem)
      constructor
      · intro h'
        have hcompleted := h'.completed .audit c mem_withCasePackage
        exact Or.inr (case?_withCasePackage.mp hcompleted)
      · rintro (hbuilt | hopen)
        · exact absurd hbuilt hnew
        · refine ⟨fun channel c' hmem => ?_, fun channel c' => ?_⟩
          · by_cases hc : c' = c
            · subst hc
              exact case?_withCasePackage.mpr hopen
            · exact completed_of_step h hstep (hother c' hc) hmem
          · by_cases hc : c' = c
            · subst hc
              have hzero := List.count_eq_zero_of_not_mem (hsilent channel)
              have hcount : (s.db.withCasePackage c').events.count ⟨channel, .case_completed, c'⟩ =
                  0 + 1 := by
                rw [count_withCasePackage, hzero]
              exact hcount.le
            · rw [count_case_completed hstep (hother c' hc)]
              exact h.once channel c'
  · have hother : ∀ c, i ≠ .buildPackage c none := fun c heq => hbuild ⟨c, heq⟩
    refine iff_of_true ⟨fun channel c hmem => ?_, fun channel c => ?_⟩ ?_
    · exact completed_of_step h hstep (hother c) hmem
    · rw [count_case_completed hstep (hother c)]
      exact h.once channel c
    · unfold PackagesOpenCase
      split
      · next c => exact absurd rfl (hother c)
      · trivial

end Steps

/-! ## Runs -/

/--
From a state in which no case is announced as completed yet, the announcements stay right in every
state of a run exactly when every package of a case is built while the case is open.
-/
theorem throughout_completionAnnounced_iff {s s' : Sys} {steps : List Step}
    (hstart : ∀ event ∈ s.db.events, event.eventType ≠ .case_completed)
    (hrun : run Sys.step s steps = some s') :
    Throughout Sys.step CompletionAnnounced s steps ↔ Meets Sys.step PackagesOpenCase s steps := by
  have hnone : ∀ channel c, ⟨channel, .case_completed, c⟩ ∉ s.db.events :=
    fun channel c hmem => hstart _ hmem rfl
  have hpackaged : AnnouncedPackaged s := fun channel c hmem => absurd hmem (hnone channel c)
  have hannounced : CompletionAnnounced s := by
    refine ⟨fun channel c hmem => absurd hmem (hnone channel c), fun channel c => ?_⟩
    rw [List.count_eq_zero_of_not_mem (hnone channel c)]
    exact Nat.zero_le 1
  exact throughout_iff_meets (fun _ _ _ hinv hstep => announcedPackaged_of_step hinv hstep)
    (fun _ _ _ hinv h hstep => completionAnnounced_step_iff hinv h hstep) hpackaged hannounced hrun

namespace CompletionEvents

/-- A case in progress whose signer has signed its document, with the job for its package. -/
def inProgress : Option Sys :=
  (run dataStep Db.empty (SignedEvidence.preparedOps ++ SignedEvidence.signingOps)).map fun db =>
    { Sys.start "1".toList none true 0 with db := { db with
        cases := db.cases.map fun c => { c with status := .in_progress }
        jobs := [.casePackage 1]
        events := [] } }

end CompletionEvents

/-- A case in progress is completed and announced. -/
theorem throughout_completionAnnounced_iff_inProgress : ∃ s s' : Sys, ∃ steps,
    run Sys.step s steps = some s' ∧ ⟨.audit, .case_completed, 1⟩ ∈ s'.db.events ∧
      (Throughout Sys.step CompletionAnnounced s steps ↔ Meets Sys.step PackagesOpenCase s steps) := by
  obtain ⟨s, hs, hstart, s', hs', hannounced⟩ : ∃ s ∈ CompletionEvents.inProgress,
      (∀ event ∈ s.db.events, event.eventType ≠ .case_completed) ∧
        ∃ s' ∈ run Sys.step s [.buildPackage 1 none],
          ⟨.audit, .case_completed, 1⟩ ∈ s'.db.events := by decide +kernel
  exact ⟨s, s', [.buildPackage 1 none], hs', hannounced,
    throughout_completionAnnounced_iff hstart hs'⟩

/-- The signer signs, the case is cancelled, and its package is built and announced as completed. -/
theorem not_completionAnnounced_of_cancelled : ¬∀ s : Sys, s.Reachable → CompletionAnnounced s := by
  intro hall
  obtain ⟨s, hs, hannounced, hcancelled⟩ : ∃ s ∈ Sys.after
      (.prepareCase (Intake.sample 1 [(1, true)]) :: .send 1 idText :: Step.identify 0 0 ++
        Step.sign 0 1 100 200 ++ Step.validate ⟨0, 1, 1, 0, .signed 0 0⟩ ++
        [.cancel 1, .buildPackage 1 none]),
      ⟨.audit, .case_completed, 1⟩ ∈ s.db.events ∧
        (s.db.case? 1).map (·.status) = some .cancelled := by decide +kernel
  have hcompleted := (hall s (Sys.reachable_of_after hs)).completed .audit 1 hannounced
  rw [hcancelled] at hcompleted
  cases hcompleted

end Kommunsign
