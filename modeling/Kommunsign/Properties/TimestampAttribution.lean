import Kommunsign.Properties.ValidationGate

/-!
# Whose evidence a validation report speaks of

A document carries the signatures of all who have signed it so far, and the report is on the whole
document: paths are trusted when all of them are, but a timestamp is there when any signature has
one. The worker takes the report for one on the newest signature.

* `speaksOfOwn_iff` — exactly when the gate is told of nothing that is not the signature's own
* `earlier_timestamp_admits` — a bare signature, admitted for the timestamp of another
-/

namespace Kommunsign

open Infra

def SignatureValidation.hasVerifiedTimestamp (signature : SignatureValidation) : Bool :=
  signature.timeValidationResults.any fun times => times.any (·.verified)

def SignatureValidation.supports (signature : SignatureValidation) : EvidenceKind → Bool
  | .signatureCertificate | .certificateChain => signature.status == .SUCCESS
  | .signatureTimestamp => signature.hasVerifiedTimestamp
  | .ocspEvidence => signature.revocationChecked
  | .archiveTimestamp | .crlEvidence => false

/--
When the gate is asked about the signature, every reference that it is handed stands for evidence
of the signature, and it admits nothing for a timestamp that the signature does not have.
-/
structure SpeaksOfOwn (own : SignatureValidation) (run : PadesValidateRun) : Prop where
  recorded : run.report.pass = true →
    ∀ reference ∈ (admissionEvidence run.payload.signatureArtifactId run.signedDocumentSha256
      run.report).references, own.supports reference.kind = true
  admitted : run.report.pass = true → ∀ admittedLevel, run.admission = .ok admittedLevel →
    PadesLevel.T.rank ≤ admittedLevel.rank ∨ requiresTimestamp run.policy = true →
      own.hasVerifiedTimestamp = true

def SignedDocumentValidation.passes (result : SignedDocumentValidation) : Bool :=
  result.isSigned && PadesValidator.signerIdentity result && PadesValidator.allTrusted result &&
    result.isValidSignatureSignsWholeDocument && PadesValidator.allAdes result &&
    result.isCompleteSuccess

/-- The document's only timestamps are the signature's own, or it has a verified one as well. -/
def OwnTimestamp (own : SignatureValidation) (result : SignedDocumentValidation) : Prop :=
  (∃ signature ∈ result.signatureValidationResults,
    PadesValidator.hasTimestamp signature = true) → own.hasVerifiedTimestamp = true

/-- The library looks the certificates up when it is told to, or does not report success. -/
def LooksUpRevocation (libraries : ValidationLibraries) (result : SignedDocumentValidation) :
    Prop :=
  libraries.isRevocationCheckingActive = true →
    ∀ signature ∈ result.signatureValidationResults, signature.status = .SUCCESS →
      signature.revocationChecked = true

section Report

variable {libraries : ValidationLibraries} {validatedAt : Time} {request : PadesValidationRequest}
  {result : SignedDocumentValidation}

theorem pass_iff_passes (h : PadesValidator.ValidatedAs libraries request result) :
    (PadesValidator.validate libraries validatedAt request).result = .PASS ↔
      result.passes = true := by
  have hchecks : PadesValidator.allPassed (PadesValidator.checksOf libraries result) =
      (result.isSigned && (PadesValidator.signerIdentity result &&
        (PadesValidator.allTrusted result && (result.isValidSignatureSignsWholeDocument &&
          (PadesValidator.allAdes result && true))))) := rfl
  rw [PadesValidator.pass_iff, PadesValidator.validate_eq h]
  dsimp only
  rw [PadesValidator.indicationOf_eq_passed, hchecks]
  simp only [SignedDocumentValidation.passes, Bool.and_eq_true, Option.any_some, and_assoc,
    and_true]

theorem success_of_passes (h : result.passes = true) {signature : SignatureValidation}
    (hmem : signature ∈ result.signatureValidationResults) : signature.status = .SUCCESS := by
  simp only [SignedDocumentValidation.passes, PadesValidator.allTrusted, Bool.and_eq_true,
    List.all_eq_true, beq_iff_eq] at h
  exact h.1.1.1.2.2 signature hmem

end Report

theorem timestamp_of_admission {run : PadesValidateRun} {admittedLevel : PadesLevel}
    (h : run.admission = .ok admittedLevel)
    (hneeds : PadesLevel.T.rank ≤ admittedLevel.rank ∨ requiresTimestamp run.policy = true) :
    run.report.levelEvidence.hasSignatureTimestamp = true := by
  unfold PadesValidateRun.admission at h
  cases hlevel : run.requiredLevel with
  | none =>
    rw [hlevel] at h
    cases h
  | some level =>
    rw [hlevel] at h
    obtain ⟨-, -, hrequired, -, rfl⟩ := padesAdmission_eq_ok.mp h
    rcases hneeds with hrank | hpolicy
    · by_contra hnone
      unfold LevelEvidence.gateLevel at hrank
      rw [if_neg hnone] at hrank
      exact absurd hrank (by decide)
    · exact hrequired hpolicy

/-- The gate is told of nothing but the signature's own evidence, unless the document passes for
its other signatures and only they have a timestamp. -/
theorem speaksOfOwn_iff (libraries : ValidationLibraries) (validatedAt : Time)
    (request : PadesValidationRequest) (result : SignedDocumentValidation)
    (own : SignatureValidation) (db : Db) (payload : PadesValidatePayload) (run : PadesValidateRun)
    (hresult : PadesValidator.ValidatedAs libraries request result)
    (hown : own ∈ result.signatureValidationResults)
    (hrevocation : LooksUpRevocation libraries result)
    (hread : readPadesValidate db payload
      (PadesValidator.validate libraries validatedAt request).toReport = .ok (some run)) :
    SpeaksOfOwn own run ↔ (result.passes = true → OwnTimestamp own result) := by
  obtain ⟨_, _, _, _, -, -, -, -, -, -, heq⟩ := readPadesValidate_eq hread
  have hrun : run.report =
      (PadesValidator.validate libraries validatedAt request).toReport := by rw [heq]
  have hpass : run.report.pass = true ↔ result.passes = true := by
    rw [hrun]
    exact beq_iff_eq.trans (pass_iff_passes hresult)
  have hevidence : run.report.levelEvidence = PadesValidator.levelEvidence libraries result := by
    rw [hrun, PadesValidator.validate_eq hresult]
    rfl
  have htimestamp : run.report.levelEvidence.hasSignatureTimestamp = true ↔
      ∃ signature ∈ result.signatureValidationResults,
        PadesValidator.hasTimestamp signature = true := by
    rw [hevidence]
    exact List.any_eq_true
  constructor
  · intro h hpasses hany
    -- the timestamp of the document is the reference to the signature's own
    exact h.recorded (hpass.mpr hpasses) ⟨.signatureTimestamp, run.payload.signatureArtifactId⟩
      (mem_references.mpr ⟨rfl, htimestamp.mpr hany⟩)
  · intro h
    refine ⟨fun hp reference hmem => ?_, fun hp admittedLevel hadmitted hneeds => ?_⟩
    · have hpasses := hpass.mp hp
      have hsuccess := success_of_passes hpasses hown
      obtain ⟨-, hkind⟩ := mem_references.mp hmem
      cases hk : reference.kind with
      | signatureCertificate => exact beq_iff_eq.mpr hsuccess
      | certificateChain => exact beq_iff_eq.mpr hsuccess
      | signatureTimestamp =>
        rw [hk] at hkind
        exact h hpasses (htimestamp.mp hkind)
      | ocspEvidence =>
        rw [hk, hevidence] at hkind
        exact hrevocation hkind own hown hsuccess
      | archiveTimestamp =>
        rw [hk, hevidence] at hkind
        cases hkind
      | crlEvidence =>
        rw [hk] at hkind
        exact absurd hkind not_false
    · refine h (hpass.mp hp) (htimestamp.mp ?_)
      exact timestamp_of_admission hadmitted hneeds

/-! ## A bare signature after one with a timestamp -/

namespace OwnTimestamp

def timestamped : SignatureValidation :=
  ⟨.SUCCESS, false, true, some [⟨true⟩], some "CN=A".toList, false⟩

def bare : SignatureValidation := ⟨.SUCCESS, true, true, none, some "CN=B".toList, false⟩

def answer (signatures : List SignatureValidation) : SignedDocumentValidation :=
  ⟨true, signatures.length, signatures.length, true, true, signatures⟩

/-- The policy asks for a timestamp, and the attempt is that of the newest signature. -/
def db : Db :=
  { Inconclusive.db with
    cases := [{ Sessions.signatureCase with
      policySnapshot := Json.object [("requiredPadesLevel", Json.lit "B"),
        ("requiresTimestamp", .bool true)] }] }

def report (signatures : List SignatureValidation) : PadesReport :=
  (PadesValidator.validate (Inconclusive.libraries (answer signatures)) 0
    Inconclusive.request).toReport

theorem validatedAs (signatures : List SignatureValidation) :
    PadesValidator.ValidatedAs (Inconclusive.libraries (answer signatures)) Inconclusive.request
      (answer signatures) := ⟨_, _, rfl, rfl, rfl, rfl⟩

end OwnTimestamp

/-- The second signature has no timestamp, and is admitted at level T for that of the first. -/
theorem earlier_timestamp_admits : ∃ run,
    readPadesValidate OwnTimestamp.db Inconclusive.payload
        (OwnTimestamp.report [OwnTimestamp.timestamped, OwnTimestamp.bare]) = .ok (some run) ∧
      run.admits = true ∧ run.admission = .ok .T ∧ ¬SpeaksOfOwn OwnTimestamp.bare run := by
  obtain ⟨run, hread, hfacts⟩ : ∃ run, readPadesValidate OwnTimestamp.db Inconclusive.payload
      (OwnTimestamp.report [OwnTimestamp.timestamped, OwnTimestamp.bare]) = .ok (some run) ∧
        run.report.pass = true ∧ run.admits = true ∧ run.admission = .ok .T := by
    refine ⟨_, rfl, ?_⟩
    decide +kernel
  obtain ⟨hpass, hadmits, hadmission⟩ := hfacts
  refine ⟨run, hread, hadmits, hadmission, fun h => ?_⟩
  exact absurd (h.admitted hpass _ hadmission (Or.inl le_rfl)) (by decide)

/-- The first signature, when it was the newest one. -/
theorem speaksOfOwn_iff_first : ∃ run,
    readPadesValidate OwnTimestamp.db Inconclusive.payload
        (OwnTimestamp.report [OwnTimestamp.timestamped]) = .ok (some run) ∧
      SpeaksOfOwn OwnTimestamp.timestamped run := by
  obtain ⟨run, hread⟩ : ∃ run, readPadesValidate OwnTimestamp.db Inconclusive.payload
      (OwnTimestamp.report [OwnTimestamp.timestamped]) = .ok (some run) := ⟨_, rfl⟩
  refine ⟨run, hread, ?_⟩
  refine (speaksOfOwn_iff _ 0 Inconclusive.request _ OwnTimestamp.timestamped OwnTimestamp.db
    Inconclusive.payload run (OwnTimestamp.validatedAs [OwnTimestamp.timestamped])
    (List.mem_singleton.mpr rfl) (by exact nofun) hread).mpr fun _ _ => ?_
  decide

end Kommunsign
