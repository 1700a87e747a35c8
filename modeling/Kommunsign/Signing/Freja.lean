import Kommunsign.Infra.Transaction

/-!
# Freja responses

What decides whether a response whose signature is genuine may complete a signing intent. The nonce
is consumed between the bindings and the other checks.

* `verifyFrejaSignatureClaims`, `verifyEvidence` — the checks, with the ledger of nonces
* `FrejaDesk.step` — the calls of one provider, one after the other
-/

namespace Kommunsign.Freja

open Infra

inductive FrejaMethod where
  | FREJA_EID | FREJA_PLUS | FREJA_ORGID
  deriving DecidableEq

inductive FrejaRegistrationLevel where
  | BASIC | EXTENDED | PLUS
  deriving DecidableEq

def FrejaRegistrationLevel.name : FrejaRegistrationLevel → String
  | .BASIC => "BASIC"
  | .EXTENDED => "EXTENDED"
  | .PLUS => "PLUS"

def FREJA_REGISTRATION_LEVELS : List FrejaRegistrationLevel := [.BASIC, .EXTENDED, .PLUS]

inductive FrejaSubjectType where
  | INFERRED | PHONE | EMAIL | SSN | UPI
  deriving DecidableEq

inductive DocumentClassification where
  | PUBLIC | INTERNAL | CONFIDENTIAL | HIGHLY_CONFIDENTIAL
  deriving DecidableEq

inductive FrejaRejectionCode where
  | FREJA_WRONG_PROVIDER
  | FREJA_SIGNATURE_NOT_VERIFIED
  | FREJA_ALGORITHM_NOT_ALLOWED
  | FREJA_ISSUER_MISMATCH
  | FREJA_AUDIENCE_MISMATCH
  | FREJA_TRANSACTION_MISMATCH
  | FREJA_INTENT_MISMATCH
  | FREJA_DOCUMENT_MISMATCH
  | FREJA_NONCE_MISMATCH
  | FREJA_NONCE_REPLAYED
  | FREJA_RESPONSE_EXPIRED
  | FREJA_ISSUED_IN_FUTURE
  | FREJA_REGISTRATION_LEVEL_TOO_LOW
  | FREJA_SUBJECT_TYPE_NOT_ALLOWED
  | FREJA_ORGANISATION_IDENTITY_MISSING
  | FREJA_ORGANISATION_MISMATCH
  | FREJA_STATUS_NOT_APPROVED
  deriving DecidableEq

/-- A `FrejaVerificationError`, or what the verifier or the lookup throws. -/
inductive FrejaFailure where
  | verification (code : FrejaRejectionCode) (message : String)
  | other (message : String)
  deriving DecidableEq

structure FrejaSignatureClaims where
  signatureVerified : Bool
  algorithm : String
  issuer : String
  audience : String
  transactionReference : String
  signRef : String
  nonce : String
  issuedAt : String
  expiresAt : String
  status : String
  subjectType : FrejaSubjectType
  subject : String
  personalNumber : Option String
  displayName : Option String
  registrationLevel : FrejaRegistrationLevel
  signedDataSha256 : String
  organisationId : Option String

structure FrejaConfig where
  method : FrejaMethod
  issuer : String
  audience : String
  minimumRegistrationLevel : FrejaRegistrationLevel
  allowedAlgorithms : List String
  maximumResponseAgeSeconds : Int
  expectedOrganisationId : Option String

/-- What is stored for a provider reference; the rest of a `FrejaExpectation` is configured. -/
structure FrejaExpectation where
  transactionReference : String
  signRef : String
  nonce : String
  signedDataSha256 : String
  documentClassification : DocumentClassification

/-- A string that is not empty. -/
def truthy (s : Option String) : Option String := s.filter (· ≠ "")

def registrationLevelAtLeast (actual required : FrejaRegistrationLevel) : Bool :=
  decide (FREJA_REGISTRATION_LEVELS.idxOf required ≤ FREJA_REGISTRATION_LEVELS.idxOf actual)

/-- `InMemoryFrejaNonceLedger.consume`; `none` is for a nonce that has been seen. -/
def consume (nonce : String) (seen : List String) : Option (List String) :=
  if nonce ∈ seen then none else some (nonce :: seen)

section

-- `String.prototype.toUpperCase`, and `Date.parse` without the times that are not a number.
variable (toUpperCase : String → String) (parseDate : String → Option Int)

def parseInstant (value : String) (code : FrejaRejectionCode) : Except FrejaFailure Int :=
  match parseDate value with
  | none => throw (.verification code ("Invalid timestamp " ++ value))
  | some time => return time

variable (config : FrejaConfig) (claims : FrejaSignatureClaims) (expectation : FrejaExpectation)

/-- The checks before the nonce is consumed. -/
def checkBindings : Except FrejaFailure Unit := do
  if claims.signatureVerified = false then
    throw (.verification .FREJA_SIGNATURE_NOT_VERIFIED "Freja JWS signature was not verified")
  if claims.algorithm ∉ config.allowedAlgorithms then
    throw (.verification .FREJA_ALGORITHM_NOT_ALLOWED
      ("Algorithm " ++ claims.algorithm ++ " is not allowed"))
  if claims.issuer ≠ config.issuer then
    throw (.verification .FREJA_ISSUER_MISMATCH "Freja response issuer does not match")
  if claims.audience ≠ config.audience then
    throw (.verification .FREJA_AUDIENCE_MISMATCH
      "Freja response audience does not match this relying party")
  if toUpperCase claims.status ≠ "APPROVED" then
    throw (.verification .FREJA_STATUS_NOT_APPROVED ("Freja reported status " ++ claims.status))
  if claims.transactionReference ≠ expectation.transactionReference then
    throw (.verification .FREJA_TRANSACTION_MISMATCH
      "Freja response belongs to another transaction")
  if claims.signRef ≠ expectation.signRef then
    throw (.verification .FREJA_INTENT_MISMATCH "Freja response belongs to another signing intent")
  if claims.signedDataSha256 ≠ expectation.signedDataSha256 then
    throw (.verification .FREJA_DOCUMENT_MISMATCH "Freja signed different data than the intent")
  if claims.nonce ≠ expectation.nonce then
    throw (.verification .FREJA_NONCE_MISMATCH "Freja response nonce does not match the request")

def assertFrejaSubjectType : Except FrejaFailure Unit := do
  if claims.subjectType = .INFERRED ∧ (expectation.documentClassification = .CONFIDENTIAL ∨
      expectation.documentClassification = .HIGHLY_CONFIDENTIAL) then
    throw (.verification .FREJA_SUBJECT_TYPE_NOT_ALLOWED
      "INFERRED Freja subject is forbidden for person-bound sensitive documents")

def checkOrganisation : Except FrejaFailure Unit := do
  if config.method = .FREJA_ORGID then
    match truthy claims.organisationId with
    | none =>
      throw (.verification .FREJA_ORGANISATION_IDENTITY_MISSING
        "Freja OrgID response carries no organisation identity")
    | some organisationId =>
      if (truthy config.expectedOrganisationId).any (organisationId ≠ ·) then
        throw (.verification .FREJA_ORGANISATION_MISMATCH
          "Freja organisation identity belongs to another organisation")

/-- The checks after it. -/
def checkUse (now : Int) : Except FrejaFailure Unit := do
  let issuedAt ← parseInstant parseDate claims.issuedAt .FREJA_ISSUED_IN_FUTURE
  let expiresAt ← parseInstant parseDate claims.expiresAt .FREJA_RESPONSE_EXPIRED
  if issuedAt > now then
    throw (.verification .FREJA_ISSUED_IN_FUTURE "Freja response is issued in the future")
  if expiresAt ≤ now then
    throw (.verification .FREJA_RESPONSE_EXPIRED "Freja response has expired")
  if now - issuedAt > config.maximumResponseAgeSeconds * 1000 then
    throw (.verification .FREJA_RESPONSE_EXPIRED "Freja response is older than the accepted window")
  if registrationLevelAtLeast claims.registrationLevel config.minimumRegistrationLevel = false then
    throw (.verification .FREJA_REGISTRATION_LEVEL_TOO_LOW
      ("Registration level " ++ claims.registrationLevel.name ++ " is below the required " ++
        config.minimumRegistrationLevel.name))
  assertFrejaSubjectType claims expectation
  checkOrganisation config claims

/-- The ledger is what it is after the checks, whatever they come to. -/
def verifyFrejaSignatureClaims (now : Int) (nonces : List String) :
    Except FrejaFailure Unit × List String :=
  match checkBindings toUpperCase config claims expectation with
  | .error failure => (.error failure, nonces)
  | .ok () =>
    match consume claims.nonce nonces with
    | none =>
      (.error (.verification .FREJA_NONCE_REPLAYED "Freja response nonce has already been used"), nonces)
    | some nonces => (checkUse parseDate config claims expectation now, nonces)

/-! ## The provider -/

/-- `jws` is the string of the payload, if it has one. -/
structure IdentityEvidence where
  provider : String
  jws : Option String
  providerReference : String
  deriving DecidableEq

structure VerifiedIdentityEvidence where
  providerReference : String
  subject : String
  personalNumber : Option String
  displayName : Option String
  assuranceLevel : String
  signedPayloadSha256 : String
  subjectType : FrejaSubjectType
  registrationLevel : FrejaRegistrationLevel
  organisationId : Option String
  verifiedAt : Int
  originalEvidence : IdentityEvidence
  deriving DecidableEq

def frejaAssuranceLevel : FrejaRegistrationLevel → String
  | .BASIC => "LOW"
  | .EXTENDED => "SUBSTANTIAL"
  | .PLUS => "HIGH"

def toVerifiedIdentityEvidence (evidence : IdentityEvidence) (verifiedAt : Int) :
    VerifiedIdentityEvidence where
  providerReference := claims.transactionReference
  subject := claims.subject
  personalNumber := truthy claims.personalNumber
  displayName := truthy claims.displayName
  assuranceLevel := frejaAssuranceLevel claims.registrationLevel
  signedPayloadSha256 := claims.signedDataSha256
  subjectType := claims.subjectType
  registrationLevel := claims.registrationLevel
  organisationId := truthy claims.organisationId
  verifiedAt
  originalEvidence := evidence

/-- A call of `verifyEvidence`: what the verifier and the lookup answer in it, and the clock, which
is read twice. -/
structure FrejaCall where
  evidence : IdentityEvidence
  verifyJws : String → Except FrejaFailure FrejaSignatureClaims
  expectationFor : String → Except FrejaFailure FrejaExpectation
  now : Int
  verifiedAt : Int

def FrejaCall.verified (call : FrejaCall) : Except FrejaFailure FrejaSignatureClaims := do
  if call.evidence.provider ≠ "FREJA_DIRECT" then
    throw (.verification .FREJA_WRONG_PROVIDER "Evidence does not come from Freja")
  match call.evidence.jws with
  | none =>
    throw (.verification .FREJA_SIGNATURE_NOT_VERIFIED "Freja evidence carries no compact JWS")
  | some jws => call.verifyJws jws

def verifyEvidence (call : FrejaCall) (nonces : List String) :
    Except FrejaFailure VerifiedIdentityEvidence × List String :=
  match call.verified with
  | .error failure => (.error failure, nonces)
  | .ok claims =>
    match call.expectationFor call.evidence.providerReference with
    | .error failure => (.error failure, nonces)
    | .ok bound =>
      match verifyFrejaSignatureClaims toUpperCase parseDate config claims bound call.now nonces with
      | (.error failure, nonces) => (.error failure, nonces)
      | (.ok (), nonces) => (.ok (toVerifiedIdentityEvidence claims call.evidence call.verifiedAt), nonces)

/-- A provider with its ledger, and the nonces of the responses that it has accepted. -/
structure FrejaDesk where
  nonces : List String
  accepted : List String
  deriving DecidableEq

def FrejaDesk.step (desk : FrejaDesk) (call : FrejaCall) : Option FrejaDesk :=
  match verifyEvidence toUpperCase parseDate config call desk.nonces with
  | (.error _, nonces) => some { desk with nonces }
  | (.ok _, nonces) =>
    some ⟨nonces, desk.accepted ++ (call.verified.toOption.map (·.nonce)).toList⟩

end

end Kommunsign.Freja
