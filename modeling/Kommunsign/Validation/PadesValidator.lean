import Kommunsign.Api.EvidencePayload
import Kommunsign.Worker.PadesValidate

/-!
# `PadesValidator` of the validation service

The service has the library verify all signatures of a document. Most of what it says of them is
folded into one report on the document, and this is what the worker decides on.

* `PadesValidator.validate` — the report on a request, with what fails before there is an answer
* `conclude` — the indication and the result, from the mandatory checks and the library's answer
-/

namespace Kommunsign

open Infra

/-! ## What the library answers -/

/-- A `TimeValidationResult`: a timestamp that was found, whether or not it was verified. -/
structure TimeValidationResult where
  verified : Bool
  deriving DecidableEq

inductive SignatureStatus where
  | SUCCESS
  | other (name : Text)
  deriving DecidableEq

/-- The read fields of an `ExtendedPdfSigValResult`, and what was looked up for it. -/
structure SignatureValidation where
  status : SignatureStatus
  isCoversDocument : Bool
  isEtsiAdes : Bool
  timeValidationResults : Option (List TimeValidationResult)
  signerSubject : Option Text
  /-- The certificates of the signature were looked up among the revoked ones. -/
  revocationChecked : Bool
  deriving DecidableEq

/-- A `SignedDocumentValidationResult`. -/
structure SignedDocumentValidation where
  isSigned : Bool
  signatureCount : Nat
  validSignatureCount : Nat
  isValidSignatureSignsWholeDocument : Bool
  isCompleteSuccess : Bool
  signatureValidationResults : List SignatureValidation
  deriving DecidableEq

/-- The libraries: a certificate is its bytes, and `none` is an exception. -/
structure ValidationLibraries where
  decodeBase64 : Text → Option (List UInt8)
  sha256Hex : List UInt8 → Text
  generateCertificate : List UInt8 → Option (List UInt8)
  extendedResultValidation : List (List UInt8) → List UInt8 → Option SignedDocumentValidation
  isRevocationCheckingActive : Bool

structure PadesValidationRequest where
  pdfBase64 : Text
  expectedDocumentSha256 : Text
  trustAnchorsBase64 : List Text
  policyVersion : Text
  digest : isSha256 expectedDocumentSha256 = true
  anchors : trustAnchorsBase64 ≠ []

/-! ## The report -/

structure PadesValidationCheck where
  code : Text
  passed : Bool
  mandatory : Bool
  detail : Option Text
  deriving DecidableEq

/-- The fields of an entry on a signature that are not certificates. -/
structure PadesSignatureSummary where
  status : SignatureStatus
  coversDocument : Bool
  etsiAdes : Bool
  timestampCount : Nat
  signerSubject : Option Text
  deriving DecidableEq

inductive ValidationOutcome where
  | PASS
  | FAIL
  deriving DecidableEq

/-- What the report says of the signatures, once there are any to speak of. -/
structure PadesSignatures where
  signatureCount : Nat
  validSignatureCount : Nat
  signsWholeDocument : Bool
  signatures : List PadesSignatureSummary
  deriving DecidableEq

structure PadesValidationReport where
  policyVersion : Text
  validatedAt : Time
  levelEvidence : LevelEvidence
  signatures : Option PadesSignatures
  checks : List PadesValidationCheck
  indication : Indication
  result : ValidationOutcome
  deriving DecidableEq

/-- What the worker makes of the report. -/
def PadesValidationReport.toReport (report : PadesValidationReport) : PadesReport where
  pass := report.result == .PASS
  indication := report.indication
  levelEvidence := report.levelEvidence
  validatedAt := report.validatedAt

namespace PadesValidator

/-- The detail is there when the check has failed. -/
def check (code : String) (passed : Bool) (detail : String) : PadesValidationCheck :=
  ⟨code.toList, passed, true, if passed then none else some detail.toList⟩

def informational (code : String) (passed : Bool) (detail : String) : PadesValidationCheck :=
  ⟨code.toList, passed, false, if passed then none else some detail.toList⟩

def emptyLevelEvidence : LevelEvidence := ⟨false, false, false, false⟩

/-- The report before anything was checked. -/
def start (policyVersion : Text) (now : Time) : PadesValidationReport :=
  ⟨policyVersion, now, emptyLevelEvidence, none, [], .TOTAL_FAILED, .FAIL⟩

def fail (report : PadesValidationReport) (checks : List PadesValidationCheck)
    (code detail : String) : PadesValidationReport :=
  { report with
    checks := checks ++ [check code false detail]
    indication := .TOTAL_FAILED
    result := .FAIL }

def allPassed (checks : List PadesValidationCheck) : Bool :=
  (checks.filter (·.mandatory)).all (·.passed)

def indicationOf (checks : List PadesValidationCheck)
    (result : Option SignedDocumentValidation) : Indication :=
  if allPassed checks && result.any (·.isCompleteSuccess) then .TOTAL_PASSED
  else if result.any fun result => decide (0 < result.validSignatureCount) then .INDETERMINATE
  else .TOTAL_FAILED

def conclude (report : PadesValidationReport) (checks : List PadesValidationCheck)
    (result : Option SignedDocumentValidation) : PadesValidationReport :=
  { report with
    checks := checks
    indication := indicationOf checks result
    result := if indicationOf checks result = .TOTAL_PASSED then .PASS else .FAIL }

/-! ## The signatures -/

def hasTimestamp (signature : SignatureValidation) : Bool :=
  signature.timeValidationResults.any fun times => !times.isEmpty

def summary (signature : SignatureValidation) : PadesSignatureSummary where
  status := signature.status
  coversDocument := signature.isCoversDocument
  etsiAdes := signature.isEtsiAdes
  timestampCount := (signature.timeValidationResults.getD []).length
  signerSubject := signature.signerSubject

/-- Every signature has succeeded, and there is one. -/
def allTrusted (result : SignedDocumentValidation) : Bool :=
  decide (0 < result.signatureCount) &&
    result.signatureValidationResults.all fun signature => signature.status == .SUCCESS

def allAdes (result : SignedDocumentValidation) : Bool :=
  decide (0 < result.signatureCount) &&
    result.signatureValidationResults.all fun signature => signature.isEtsiAdes

/-- Some signature has a timestamp. -/
def anyTimestamp (result : SignedDocumentValidation) : Bool :=
  result.signatureValidationResults.any hasTimestamp

def signerIdentity (result : SignedDocumentValidation) : Bool :=
  (result.signatureValidationResults.map summary).any fun entry => entry.signerSubject.isSome

def levelEvidence (libraries : ValidationLibraries) (result : SignedDocumentValidation) :
    LevelEvidence where
  hasTrustedCertificatePath := allTrusted result
  hasSignatureTimestamp := anyTimestamp result
  hasRevocationEvidence := libraries.isRevocationCheckingActive
  hasArchiveTimestamp := false

/-- The checks of a document whose bytes are the expected ones. -/
def checksOf (libraries : ValidationLibraries) (result : SignedDocumentValidation) :
    List PadesValidationCheck := [
  check "DOCUMENT_INTEGRITY" true "submitted bytes do not match the expected document hash",
  check "SIGNATURE_PARSED" result.isSigned "no signature was found in the document",
  check "SIGNER_IDENTITY_PRESENT" (signerIdentity result) "no signer certificate was recoverable",
  check "CERTIFICATE_PATH_TRUSTED" (allTrusted result)
    "at least one signature did not chain to a configured trust anchor",
  check "SIGNATURE_COVERS_DOCUMENT" result.isValidSignatureSignsWholeDocument
    "the newest valid signature does not cover the whole document",
  check "ETSI_ADES_PROFILE" (allAdes result) "at least one signature is not an ETSI AdES signature",
  informational "SIGNATURE_TIMESTAMP_PRESENT" (anyTimestamp result)
    "no signature timestamp is present",
  informational "REVOCATION_CHECKED" libraries.isRevocationCheckingActive
    "revocation checking is not active in this validator configuration"]

def signaturesOf (result : SignedDocumentValidation) : PadesSignatures where
  signatureCount := result.signatureCount
  validSignatureCount := result.validSignatureCount
  signsWholeDocument := result.isValidSignatureSignsWholeDocument
  signatures := result.signatureValidationResults.map summary

def decodeCertificates (libraries : ValidationLibraries) (base64Certificates : List Text) :
    Option (List (List UInt8)) :=
  base64Certificates.mapM fun encoded => do
    let bytes ← libraries.decodeBase64 encoded
    libraries.generateCertificate bytes

/-! ## `validate` -/

def validate (libraries : ValidationLibraries) (now : Time) (request : PadesValidationRequest) :
    PadesValidationReport :=
  let report := start request.policyVersion now
  match libraries.decodeBase64 request.pdfBase64 with
  | none => fail report [] "PDF_DECODE" "the submitted document is not valid base64"
  | some pdf =>
    let integrity := libraries.sha256Hex pdf == request.expectedDocumentSha256
    let checks := [check "DOCUMENT_INTEGRITY" integrity
      "submitted bytes do not match the expected document hash"]
    if !integrity then conclude report checks none
    else
      match decodeCertificates libraries request.trustAnchorsBase64 with
      | none => fail report checks "TRUST_ANCHOR_DECODE"
          "a configured trust anchor is not a valid X.509 certificate"
      | some trustAnchors =>
        match libraries.extendedResultValidation trustAnchors pdf with
        | none => fail report checks "SIGNATURE_PARSED"
            "the document could not be parsed as a signed PDF"
        | some result =>
          conclude {
            report with
              signatures := some (signaturesOf result)
              levelEvidence := levelEvidence libraries result }
            (checksOf libraries result) (some result)

/-- The library has answered on the document of the request, whose bytes are the expected ones. -/
def ValidatedAs (libraries : ValidationLibraries) (request : PadesValidationRequest)
    (result : SignedDocumentValidation) : Prop :=
  ∃ pdf trustAnchors, libraries.decodeBase64 request.pdfBase64 = some pdf ∧
    libraries.sha256Hex pdf = request.expectedDocumentSha256 ∧
    decodeCertificates libraries request.trustAnchorsBase64 = some trustAnchors ∧
    libraries.extendedResultValidation trustAnchors pdf = some result

/-! ## What the report says -/

section Report

variable {libraries : ValidationLibraries} {now : Time} {request : PadesValidationRequest}
  {result : SignedDocumentValidation} {report : PadesValidationReport}
  {checks : List PadesValidationCheck}

theorem validate_eq (h : ValidatedAs libraries request result) :
    validate libraries now request = {
      policyVersion := request.policyVersion
      validatedAt := now
      levelEvidence := levelEvidence libraries result
      signatures := some (signaturesOf result)
      checks := checksOf libraries result
      indication := indicationOf (checksOf libraries result) (some result)
      result := if indicationOf (checksOf libraries result) (some result) = .TOTAL_PASSED
        then .PASS else .FAIL } := by
  obtain ⟨pdf, trustAnchors, hpdf, hsha256, hanchors, hanswer⟩ := h
  unfold validate
  rw [hpdf]
  dsimp only
  rw [hsha256, beq_self_eq_true, Bool.not_true, if_neg Bool.false_ne_true, hanchors]
  dsimp only
  rw [hanswer]
  rfl

theorem validate_cases (libraries : ValidationLibraries) (now : Time)
    (request : PadesValidationRequest) :
    (∃ result, ValidatedAs libraries request result) ∨
      (validate libraries now request).indication = .TOTAL_FAILED ∧
        (validate libraries now request).result = .FAIL ∧
        (validate libraries now request).levelEvidence = emptyLevelEvidence := by
  unfold validate
  cases hpdf : libraries.decodeBase64 request.pdfBase64 with
  | none => exact Or.inr ⟨rfl, rfl, rfl⟩
  | some pdf =>
    dsimp only
    by_cases hsha256 : libraries.sha256Hex pdf = request.expectedDocumentSha256
    · rw [hsha256, beq_self_eq_true, Bool.not_true, if_neg Bool.false_ne_true]
      cases hanchors : decodeCertificates libraries request.trustAnchorsBase64 with
      | none => exact Or.inr ⟨rfl, rfl, rfl⟩
      | some trustAnchors =>
        dsimp only
        cases hanswer : libraries.extendedResultValidation trustAnchors pdf with
        | none => exact Or.inr ⟨rfl, rfl, rfl⟩
        | some result =>
          exact Or.inl ⟨result, pdf, trustAnchors, hpdf, hsha256, hanchors, hanswer⟩
    · -- the check on the integrity has failed, and it is mandatory
      rw [beq_eq_false_iff_ne.mpr hsha256, Bool.not_false, if_pos rfl]
      exact Or.inr ⟨rfl, rfl, rfl⟩

theorem pass_iff : (validate libraries now request).result = .PASS ↔
    (validate libraries now request).indication = .TOTAL_PASSED := by
  rcases validate_cases libraries now request with ⟨result, h⟩ | ⟨hindication, hresult, -⟩
  · rw [validate_eq h]
    dsimp only
    split
    · next hpassed => exact iff_of_true rfl hpassed
    · next hnot => exact iff_of_false nofun hnot
  · rw [hindication, hresult]
    exact iff_of_false nofun nofun

theorem indicationOf_eq_passed {answer : Option SignedDocumentValidation} :
    indicationOf checks answer = .TOTAL_PASSED ↔
      allPassed checks = true ∧ answer.any (·.isCompleteSuccess) = true := by
  unfold indicationOf
  rw [← Bool.and_eq_true]
  split
  · next hpassed => exact iff_of_true rfl hpassed
  · next hnot =>
    refine iff_of_false ?_ hnot
    split <;> exact nofun

theorem validatedAs_of_pass (h : (validate libraries now request).result = .PASS) :
    ∃ result, ValidatedAs libraries request result ∧
      allPassed (checksOf libraries result) = true ∧ result.isCompleteSuccess = true := by
  rcases validate_cases libraries now request with ⟨result, hresult⟩ | ⟨-, hresult, -⟩
  · have hindication := pass_iff.mp h
    rw [validate_eq hresult] at hindication
    exact ⟨result, hresult, indicationOf_eq_passed.mp hindication⟩
  · rw [hresult] at h
    cases h

end Report

end PadesValidator

end Kommunsign
