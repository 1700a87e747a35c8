import Kommunsign.Data.Texts
import Kommunsign.Infra.Run
import Kommunsign.Worker.PrivacyRequests

/-!
# Who writes blind indexes, and under which purpose

An identifier is stored encrypted, with a blind index to find it by. The index is keyed with the
purpose it was made for; the code that stores a row and the code that records a request choose their
purposes on their own.

* `blindIndex` — the index of a value for a purpose
* `insertOrUpdateSigner`, `verifySigner`, `provisionTenantUser`, `encryptEmail` — the writers
-/

namespace Kommunsign

open Infra

/--
`material` of an index. `fold` is `normalize('NFKC')` and `toLocaleLowerCase('en-US')`, `hmac` the
keyed hash.
-/
structure BlindIndexing where
  fold : Text → Text
  hmac : Text → BlindIndex

def BlindIndexing.blindIndex (indexing : BlindIndexing) (value : Text) (purpose : String) :
    BlindIndex :=
  indexing.hmac (purpose.toList ++ '\x00' :: indexing.fold (trim value))

/-- What `decideIdentifierBinding` returns. -/
inductive IdentifierBindingDecision where
  | STRICT_PREBOUND (normalizedPersonalNumber : Text)
  | BANKID_DISCOVERED (code : String) (reason : Option Text)
  deriving DecidableEq

def IdentifierBindingDecision.mode : IdentifierBindingDecision → BindingMode
  | .STRICT_PREBOUND _ => .STRICT_PREBOUND
  | .BANKID_DISCOVERED _ _ => .BANKID_DISCOVERED

def IdentifierBindingDecision.normalizedPersonalNumber : IdentifierBindingDecision → Option Text
  | .STRICT_PREBOUND number => some number
  | .BANKID_DISCOVERED _ _ => none

def IdentifierBindingDecision.exceptionCode : IdentifierBindingDecision → Option String
  | .STRICT_PREBOUND _ => none
  | .BANKID_DISCOVERED code _ => some code

def IdentifierBindingDecision.reason : IdentifierBindingDecision → Option Text
  | .STRICT_PREBOUND _ => none
  | .BANKID_DISCOVERED _ reason => reason

/-- What is stored of a signer that was entered. -/
structure SignerEntry where
  email : Text
  decision : IdentifierBindingDecision
  actorId : UUID
  now : Int
  deriving DecidableEq

section

variable (indexing : BlindIndexing)

/-- An encrypted column stands for what it decrypts to. -/
def ciphertext (value : Text) : String := String.ofList value

/-- The columns that `insertOrUpdateSigner` writes; `lower` is `toLowerCase`. -/
def enterSigner (lower : Text → Text) (entry : SignerEntry) (signer : SubjectSigner) :
    SubjectSigner :=
  let email := lower (trim entry.email)
  let number := entry.decision.normalizedPersonalNumber
  { signer with
    emailCiphertext := some (ciphertext email)
    emailBlindIndex := some (indexing.blindIndex email "signer.email")
    expectedIdentifierCiphertext := number.map ciphertext
    expectedIdentifierBlindIndex :=
      number.map (indexing.blindIndex · "signer.expected_personal_number")
    expectedIdentifierType := number.map fun _ => "SSN"
    identifierBindingMode := some entry.decision.mode
    exceptionCode := entry.decision.exceptionCode
    exceptionReasonCiphertext := entry.decision.reason.map ciphertext
    exceptionApprovedBy := entry.decision.exceptionCode.map fun _ => entry.actorId
    exceptionAt := entry.decision.exceptionCode.map fun _ => entry.now }

/-- A signer before anything is entered. -/
def newSigner (id signatureCaseId : UUID) : SubjectSigner :=
  ⟨id, signatureCaseId, .pending, none, none, none, none, none, none, none, none, none, none, none,
    none⟩

/-- `handleSignatureValidate` stores the number of the verified identity. -/
def verifySigner (personalNumber : Text) (signer : SubjectSigner) : SubjectSigner :=
  { signer with
    status := .identity_verified
    verifiedIdentifierCiphertext := some (ciphertext personalNumber)
    verifiedIdentifierBlindIndex :=
      some (indexing.blindIndex personalNumber "signer.verified_personal_number") }

/-- The index that `provisionTenantUser` gives a user. -/
def provisionedUserIndex (email : Text) : Option BlindIndex :=
  some (indexing.blindIndex email "tenant.user_email")

/-- `encryptEmail` of the SCIM repository; a user need not have an address. -/
def scimUserIndex (email : Option Text) : Option BlindIndex :=
  email.map (indexing.blindIndex · "user.email")

/-- A request as it is received. -/
structure RecordPrivacyRequestInput where
  right : DataSubjectRight
  subjectIdentifier : Text
  identityMethod : String
  identityAssurance : AssuranceLevel
  deriving DecidableEq

/-- `record`: at most one request of a subject for a right is open. -/
def recordPrivacyRequest (input : RecordPrivacyRequestInput) (id : UUID) (now : Int)
    (stores : PersonalData) : PersonalData :=
  let index := indexing.blindIndex input.subjectIdentifier "privacy.subject_identifier"
  if stores.requests.any fun request => request.subjectIdentifierBlindIndex == index &&
      request.rightRequested == input.right && request.state != .DELIVERED &&
      request.state != .REFUSED then stores
  else { stores with requests := stores.requests ++
    [⟨id, .RECEIVED, input.right, index, none, now, some now, some input.identityMethod,
      some input.identityAssurance, none, none, none⟩] }

inductive SubjectAction where
  | addSigner (id signatureCaseId : UUID) (entry : SignerEntry)
  | updateSigner (id : UUID) (entry : SignerEntry)
  /-- Any operation that moves the signer. -/
  | moveSigner (id : UUID) (status : SignerStatus)
  | verifySigner (id : UUID) (personalNumber : Text)
  /-- `provisionTenantUser` finds the user in the place or makes a new one. -/
  | provisionUser (place : Option Nat) (email : Text)
  | createScimUser (email : Option Text)
  | saveScimUser (place : Nat) (email : Option Text)
  | recordRequest (input : RecordPrivacyRequestInput) (id : UUID) (now : Int)
  | setHolds (holds : List LegalHold)
  /-- The `update` of an erasure. -/
  | erase (subject : BlindIndex)

/-- `update app.signers set … where …` -/
def PersonalData.updateSigners (stores : PersonalData) (p : SubjectSigner → Bool)
    (f : SubjectSigner → SubjectSigner) : PersonalData :=
  { stores with signers := assign p f stores.signers }

/-- `none`: the row is there already, or its guards refuse. -/
def subjectStep (lower : Text → Text) (stores : PersonalData) :
    SubjectAction → Option PersonalData
  | .addSigner id signatureCaseId entry =>
    if stores.signers.any (·.id == id) then none
    else some { stores with signers :=
      stores.signers ++ [enterSigner indexing lower entry (newSigner id signatureCaseId)] }
  | .updateSigner id entry =>
    some (stores.updateSigners (fun signer => signer.id == id && signer.status == .pending)
      (enterSigner indexing lower entry))
  | .moveSigner id status =>
    some (stores.updateSigners
      (fun signer => signer.id == id && signer.status.allowed.contains status)
      ({ · with status := status }))
  | .verifySigner id personalNumber =>
    some (stores.updateSigners
      (fun signer => signer.id == id && signer.status == .identity_started)
      (verifySigner indexing personalNumber))
  | .provisionUser place email =>
    match place with
    | none => some { stores with users := stores.users ++ [provisionedUserIndex indexing email] }
    | some i => some { stores with users := stores.users.set i (provisionedUserIndex indexing email) }
  | .createScimUser email =>
    some { stores with users := stores.users ++ [scimUserIndex indexing email] }
  | .saveScimUser i email =>
    some { stores with users := stores.users.set i (scimUserIndex indexing email) }
  | .recordRequest input id now => some (recordPrivacyRequest indexing input id now stores)
  | .setHolds holds => some { stores with legalHolds := holds }
  | .erase subject =>
    match subjectSigners.update (·.matches subject) SubjectSigner.erased stores with
    | .error _ => none
    | .ok (_, stores') => some stores'

end

/-- A new tenant. -/
def PersonalData.empty : PersonalData := ⟨[], [], [], [], [], [], [], [], [], [], [], []⟩

end Kommunsign
