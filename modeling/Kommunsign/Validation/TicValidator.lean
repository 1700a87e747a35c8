import Mathlib.Data.List.Infix
import Kommunsign.Federation.Validators
import Kommunsign.Infra.Bytes

/-!
# Validation of BankID evidence

The validator checks the one signature of the document with the key of the certificate that the
document carries. The data and the personal number are then looked for in the text of the whole
document, whether the signature covers it or not.

* `uniqueIds`, `evidenceReferencesAllowed` — what is checked of identifiers and references
* `containsExactOrBase64`, `extractPersonalNumber` — what is looked for in the text
-/

namespace Kommunsign

open Infra

/-! ## Identifiers and references -/

/-- `List.of("Id","ID","id")` -/
def evidenceIdAttributes : List String := ["Id", "ID", "id"]

/-- `registerUniqueIds` -/
def uniqueIds (document : Xml) : Bool :=
  let ids := (document.identifiers evidenceIdAttributes).map (·.1)
  ids.all (fun id => !javaIsBlank id) && decide ids.Nodup

/-- The element that a reference is to. -/
def referenceTarget (document : Xml) (reference : Option String) : Option Xml :=
  (referenceId reference).bind (document.byId evidenceIdAttributes)

/-- `validateReferences`: ten at most, each to an element of the document. -/
def evidenceReferencesAllowed (document : Xml) (signature : XmlSignature) : Bool :=
  decide (signature.references ≠ []) && decide (signature.references.length ≤ 10) &&
  signature.references.all fun reference => (referenceTarget document reference).isSome

/-! ## Texts -/

def base64Alphabet : List Char := [
  'A', 'B', 'C', 'D', 'E', 'F', 'G', 'H', 'I', 'J', 'K', 'L', 'M', 'N', 'O', 'P',
  'Q', 'R', 'S', 'T', 'U', 'V', 'W', 'X', 'Y', 'Z', 'a', 'b', 'c', 'd', 'e', 'f',
  'g', 'h', 'i', 'j', 'k', 'l', 'm', 'n', 'o', 'p', 'q', 'r', 's', 't', 'u', 'v',
  'w', 'x', 'y', 'z', '0', '1', '2', '3', '4', '5', '6', '7', '8', '9', '+', '/']

def base64Char (n : Nat) : Char := base64Alphabet[n]?.getD '='

/-- `Base64.getEncoder()` -/
def base64Encode : List UInt8 → List Char
  | [] => []
  | [a] => [base64Char (a.toNat / 4), base64Char (a.toNat % 4 * 16), '=', '=']
  | [a, b] => [base64Char (a.toNat / 4), base64Char (a.toNat % 4 * 16 + b.toNat / 16),
      base64Char (b.toNat % 16 * 4), '=']
  | a :: b :: c :: rest =>
    base64Char (a.toNat / 4) :: base64Char (a.toNat % 4 * 16 + b.toNat / 16) ::
      base64Char (b.toNat % 16 * 4 + c.toNat / 64) :: base64Char (c.toNat % 64) ::
        base64Encode rest

/-- `\s` -/
def isSpace (c : Char) : Bool := c ∈ [' ', '\t', '\n', '\x0b', '\x0c', '\r']

/-- `replaceAll("\\s","")` -/
def withoutSpaces (text : List Char) : List Char := text.filter fun c => !isSpace c

/-- The Base64 of the UTF-8 of a text. -/
def encoded (text : String) : List Char := base64Encode (utf8 text.toList)

def containsExactOrBase64 (allText expected : String) : Bool :=
  decide (expected.toList <:+: allText.toList) ||
    decide (encoded expected <:+: withoutSpaces allText.toList)

/-- The first twelve digits that stand alone, after the digits `run` that have just been read. -/
def firstTwelve (run : List Char) : List Char → Option (List Char)
  | [] => if run.length = 12 then some run else none
  | c :: rest =>
    if c.isDigit then firstTwelve (run ++ [c]) rest
    else if run.length = 12 then some run
    else firstTwelve [] rest

/-- `PERSONAL_NUMBER` -/
def personalNumberIn (text : String) : Option String :=
  (firstTwelve [] text.toList).map String.ofList

def extractPersonalNumber (subject : String) (document : Xml) : Option String :=
  (personalNumberIn subject).or (personalNumberIn document.textContent)

/-! ## The report -/

def isDerSequence : List UInt8 → Bool
  | tag :: first :: rest =>
    tag == 0x30 &&
    if first < 128 then first.toNat == rest.length
    else
      let count := first.toNat % 128
      decide (1 ≤ count ∧ count ≤ 4 ∧ count ≤ rest.length) &&
        (rest.take count).foldl (fun length byte => length * 256 + byte.toNat) 0 ==
          rest.length - count
  | _ => false

/-- What the libraries say of the signature of a document, and of a certificate now. -/
structure XmlSecurity where
  signatures : XmlSignatures
  subject : String → String
  timeValid : String → Bool

/-- The request without its evidence; `ocspResponse` is what its Base64 stands for. -/
structure TicBankIdValidationRequest where
  ocspResponse : List UInt8
  ocspResponse_size : 0 < ocspResponse.length ∧ ocspResponse.length ≤ 750000
  expectedVisibleData : String
  expectedNonVisibleData : String
  expectedPersonalNumber : Option String
  personalNumber_digits : ∀ number ∈ expectedPersonalNumber,
    number.length = 12 ∧ number.toList.all Char.isDigit = true

structure TicEvidenceReport where
  pass : Bool
  personalNumber : Option String
  displayName : Option String
  deriving DecidableEq

/-- The certificate of a signature that passes the checks. -/
def verifiedCertificate (security : XmlSecurity) (document : Xml) : Option String := do
  let element ← oneSignature document
  let signature ← security.signatures document element
  let certificate ← signature.certificate
  if uniqueIds document && evidenceReferencesAllowed document signature && signature.valid &&
      security.timeValid certificate then
    some certificate
  else none

/-- The report after the signature has been checked. -/
def evidenceReport (security : XmlSecurity) (request : TicBankIdValidationRequest) (document : Xml)
    (certificate : String) : TicEvidenceReport :=
  if containsExactOrBase64 document.textContent request.expectedVisibleData &&
      containsExactOrBase64 document.textContent request.expectedNonVisibleData then
    match extractPersonalNumber (security.subject certificate) document with
    | none => ⟨false, none, none⟩
    | some number =>
      if request.expectedPersonalNumber.any (· != number) then ⟨false, some number, none⟩
      else ⟨isDerSequence request.ocspResponse, some number, some (security.subject certificate)⟩
  else ⟨false, none, none⟩

/-- `none`: the evidence is no XML that the parser accepts. -/
def validateTic (security : XmlSecurity) (request : TicBankIdValidationRequest)
    (evidence : Option Xml) : TicEvidenceReport :=
  match evidence.bind fun document => (verifiedCertificate security document).map (document, ·) with
  | none => ⟨false, none, none⟩
  | some (document, certificate) => evidenceReport security request document certificate

end Kommunsign
