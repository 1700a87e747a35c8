import Kommunsign.Crypto.CanonicalJson
import Kommunsign.Infra.Bytes

/-!
# The manifest of a signing intent

The builder on everything that it can be given, with what it refuses.

* `buildSigningIntentManifest` — the documents of one consent, sorted and checked
* `signingIntentManifestBytes` — the bytes that are hashed
-/

namespace Kommunsign.SigningEngine

open Infra CanonicalJson

def SIGNING_INTENT_MANIFEST_SCHEMA : Units := unitsOf "kommunsign.signing-intent-manifest.v1"

@[ext]
structure SigningIntentManifestDocument where
  ordinal : Number
  documentVersionId : Units
  documentSha256 : Units
  displayName : Units
  mimeType : Units
  profile : Units
  byteSize : Number
  deriving DecidableEq

@[ext]
structure SigningIntentManifest where
  schema : Units
  tenantId : Units
  signatureCaseId : Units
  signingIntentId : Units
  signerId : Units
  documents : List SigningIntentManifestDocument
  deriving DecidableEq

/-- What the manifest is built from. -/
structure SigningIntentManifestInput where
  tenantId : Units
  signatureCaseId : Units
  signingIntentId : Units
  signerId : Units
  documents : List SigningIntentManifestDocument

structure SigningIntentManifestError where
  code : String
  message : String
  deriving DecidableEq

/-- The sort keeps the order of two documents unless `left.ordinal - right.ordinal` is positive. The
order that an ordinal which is no number leads to is the engine's own: the list is refused anyway. -/
def ordinalLe (left right : SigningIntentManifestDocument) : Prop :=
  left.ordinal.exceeds right.ordinal = false

instance : DecidableRel ordinalLe := fun _ _ => inferInstanceAs (Decidable (_ = _))

/-- `[0-9a-f]` -/
def isLowerHexUnit (u : CodeUnit) : Bool :=
  (decide (unit '0'.toNat ≤ u) && decide (u ≤ unit '9'.toNat)) ||
    (decide (unit 'a'.toNat ≤ u) && decide (u ≤ unit 'f'.toNat))

/-- `/^[0-9a-f]{64}$/` -/
def isSha256Hex (text : Units) : Bool := decide (text.length = 64) && text.all isLowerHexUnit

def isPositive (x : Number) : Bool := x.exceeds .zero

/-- The body of the loop, at the document that stands at `index`. -/
def checkManifestDocument (index : Nat) (document : SigningIntentManifestDocument) :
    Except SigningIntentManifestError Unit := do
  if document.ordinal.value? ≠ some ((index + 1 : Nat) : ℚ) then
    throw ⟨"MANIFEST_ORDINALS_NOT_CONTIGUOUS",
      "document ordinals must be contiguous and start at 1"⟩
  if isSha256Hex document.documentSha256 = false then
    throw ⟨"MANIFEST_DOCUMENT_HASH_INVALID",
      "each document must carry a lowercase SHA-256 hex digest"⟩
  if document.byteSize.isSafeInteger = false ∨ isPositive document.byteSize = false then
    throw ⟨"MANIFEST_DOCUMENT_SIZE_INVALID", "each document must carry a positive byte size"⟩

/-- The loop over `documents.entries()`. -/
def checkManifestDocuments : Nat → List SigningIntentManifestDocument →
    Except SigningIntentManifestError Unit
  | _, [] => .ok ()
  | index, document :: documents => do
    checkManifestDocument index document
    checkManifestDocuments (index + 1) documents

def buildSigningIntentManifest (input : SigningIntentManifestInput) :
    Except SigningIntentManifestError SigningIntentManifest := do
  if input.documents.length = 0 then
    throw ⟨"MANIFEST_EMPTY", "a signing intent must cover at least one document"⟩
  let documents := input.documents.insertionSort ordinalLe
  checkManifestDocuments 0 documents
  let seen := (documents.map (·.documentVersionId)).dedup
  if seen.length ≠ documents.length then
    throw ⟨"MANIFEST_DOCUMENT_DUPLICATED",
      "a document version may appear only once in a signing intent"⟩
  return {
    schema := SIGNING_INTENT_MANIFEST_SCHEMA
    tenantId := input.tenantId
    signatureCaseId := input.signatureCaseId
    signingIntentId := input.signingIntentId
    signerId := input.signerId
    documents := documents }

/-! ## As a value -/

namespace SigningIntentManifestDocument

def toJsValue (document : SigningIntentManifestDocument) : JsValue :=
  .object [(unitsOf "ordinal", .number document.ordinal),
    (unitsOf "documentVersionId", .string document.documentVersionId),
    (unitsOf "documentSha256", .string document.documentSha256),
    (unitsOf "displayName", .string document.displayName),
    (unitsOf "mimeType", .string document.mimeType),
    (unitsOf "profile", .string document.profile),
    (unitsOf "byteSize", .number document.byteSize)]

theorem keyed_toJsValue (document : SigningIntentManifestDocument) : document.toJsValue.Keyed := by
  refine ⟨?_, ?_⟩
  · show [unitsOf "ordinal", unitsOf "documentVersionId", unitsOf "documentSha256",
      unitsOf "displayName", unitsOf "mimeType", unitsOf "profile", unitsOf "byteSize"].Nodup
    decide
  · simp [JsValue.MembersKeyed, JsValue.Keyed]

end SigningIntentManifestDocument

namespace SigningIntentManifest

def toJsValue (manifest : SigningIntentManifest) : JsValue :=
  .object [(unitsOf "schema", .string manifest.schema),
    (unitsOf "tenantId", .string manifest.tenantId),
    (unitsOf "signatureCaseId", .string manifest.signatureCaseId),
    (unitsOf "signingIntentId", .string manifest.signingIntentId),
    (unitsOf "signerId", .string manifest.signerId),
    (unitsOf "documents", .array (manifest.documents.map (·.toJsValue)))]

theorem keyed_toJsValue (manifest : SigningIntentManifest) : manifest.toJsValue.Keyed := by
  refine ⟨?_, ?_⟩
  · show [unitsOf "schema", unitsOf "tenantId", unitsOf "signatureCaseId",
      unitsOf "signingIntentId", unitsOf "signerId", unitsOf "documents"].Nodup
    decide
  · simp only [JsValue.MembersKeyed, JsValue.Keyed, true_and, and_true]
    rw [JsValue.itemsKeyed_iff, List.forall_mem_map]
    exact fun document _ => document.keyed_toJsValue

def toCanonicalJsonValue (manifest : SigningIntentManifest) : CanonicalJsonValue :=
  ⟨manifest.toJsValue, manifest.keyed_toJsValue⟩

end SigningIntentManifest

/-- The bytes of the canonical text. -/
def signingIntentManifestBytes (manifest : SigningIntentManifest) :
    Except TypeError (List UInt8) :=
  (CanonicalJson.canonicalJson manifest.toCanonicalJsonValue).map utf8

end Kommunsign.SigningEngine
