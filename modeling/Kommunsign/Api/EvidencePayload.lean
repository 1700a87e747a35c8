import Kommunsign.Data.Guards
import Kommunsign.Data.Texts

/-!
# `bankIdEvidencePayload`

What a BankID signature carries beside the visible text: the intent, the policy and the documents,
as canonical JSON. The adapter builds it from the input of `startSignature`.

* `StartIdentitySignature` — the input of `startSignature`
* `bankIdEvidencePayload`, `bankIdEvidenceText` — the payload and its text
-/

namespace Kommunsign

open Infra

structure SigningIntentDocumentSnapshot where
  ordinal : Int
  documentId : Text
  documentVersionId : Text
  displayName : Text
  mimeType : Text
  profile : Text
  byteSize : Int
  sha256 : Text
  deriving DecidableEq

/-- The fields that reach the payload. The binding mode is a column that may be null. -/
structure StartIdentitySignature where
  tenantId : Text
  signatureCaseId : Text
  signingIntentId : Text
  signerId : Text
  signaturePolicyId : Text
  signaturePolicyVersion : Nat
  identifierBindingMode : Option BindingMode
  identifierBindingExceptionCode : Option Text
  expectedPersonalNumber : Option Text
  documents : List SigningIntentDocumentSnapshot
  visibleText : Text
  issuedAt : Text
  expiresAt : Text
  nonce : Text
  deriving DecidableEq

def BindingMode.name : BindingMode → Text
  | .STRICT_PREBOUND => "STRICT_PREBOUND".toList
  | .BANKID_DISCOVERED => "BANKID_DISCOVERED".toList

/-- `/^[0-9a-f]{64}$/`. -/
def isSha256 (s : Text) : Bool :=
  s.length == 64 && s.all fun c => c.isDigit || ('a' ≤ c && c ≤ 'f')

/-- `/^\d{12}$/`. -/
def isPersonalNumber (s : Text) : Bool := s.length == 12 && s.all Char.isDigit

/-- `Number.isSafeInteger(n)` of a value that is at least one. -/
def isByteSize (n : Int) : Bool := 1 ≤ n && n ≤ 9007199254740991

/-- A text, or `null`. -/
def textOrNull : Option Text → Json
  | none => .null
  | some s => .str s

/-- The fields of a document in the payload. -/
def evidenceDocument (document : SigningIntentDocumentSnapshot) : List (String × Json) :=
  [("ordinal", .num document.ordinal),
   ("documentId", .str document.documentId),
   ("documentVersionId", .str document.documentVersionId),
   ("displayName", .str document.displayName),
   ("mimeType", .str document.mimeType),
   ("profile", .str document.profile),
   ("byteSize", .num document.byteSize),
   ("sha256", .str document.sha256)]

/-- The documents from the given ordinal on, each checked before the next one. -/
def evidenceDocuments : Nat → List SigningIntentDocumentSnapshot → Except Failure (List Json)
  | _, [] => .ok []
  | ordinal, document :: documents => do
    refuse [
      (document.ordinal != ordinal, .thrown "SIGNING_INTENT_DOCUMENT_ORDINAL_INVALID"),
      (!isSha256 document.sha256, .thrown "DOCUMENT_SHA256_INVALID"),
      (!isByteSize document.byteSize, .thrown "DOCUMENT_BYTE_SIZE_INVALID")]
    let rest ← evidenceDocuments (ordinal + 1) documents
    return Json.object (evidenceDocument document) :: rest

def bankIdEvidencePayload (input : StartIdentitySignature) : Except Failure Json := do
  let documents ← evidenceDocuments 1
    (input.documents.insertionSort fun left right => left.ordinal ≤ right.ordinal)
  refuse [
    (documents.isEmpty, .thrown "SIGNING_INTENT_DOCUMENTS_REQUIRED"),
    (input.identifierBindingMode == some .STRICT_PREBOUND &&
      !isPersonalNumber (input.expectedPersonalNumber.getD []), .thrown "PERSONAL_NUMBER_REQUIRED"),
    (input.identifierBindingMode == some .BANKID_DISCOVERED &&
      (input.identifierBindingExceptionCode.getD []).isEmpty,
      .thrown "PERSONAL_NUMBER_EXCEPTION_NOT_ALLOWED")]
  return Json.object [
    ("schema", Json.lit "kommunsign.bankid-evidence.v2"),
    ("tenantId", .str input.tenantId),
    ("signatureCaseId", .str input.signatureCaseId),
    ("signingIntentId", .str input.signingIntentId),
    ("signerId", .str input.signerId),
    ("identifierBindingMode", textOrNull (input.identifierBindingMode.map (·.name))),
    ("identifierBindingExceptionCode", textOrNull input.identifierBindingExceptionCode),
    ("signaturePolicyId", .str input.signaturePolicyId),
    ("signaturePolicyVersion", .num input.signaturePolicyVersion),
    ("documents", .arr documents),
    ("nonce", .str input.nonce),
    ("issuedAt", .str input.issuedAt),
    ("expiresAt", .str input.expiresAt)]

def canonicalJson (value : Json) : Text := (Json.canonical value).render

def bankIdEvidenceText (input : StartIdentitySignature) : Except Failure Text := do
  return canonicalJson (← bankIdEvidencePayload input)

end Kommunsign
