import Kommunsign.Data.Guards
import Kommunsign.Infra.Process
import Kommunsign.Privacy.Requests

/-!
# PRIVACY_REQUEST_EXECUTE

The job that carries a data subject rights request out: it walks the request up to `IN_PROGRESS`,
reads the holds, goes through the stores, lets the library build the answer and writes it down.
Going through the stores is also where an erasure happens.

* `searchData`, `searchObjectStorage`, `gatherCoverage` — the stores
* `handlePrivacyRequestExecute` — the job
-/

namespace Kommunsign

open Infra

abbrev BlindIndex := Nat

/-! ## The stores -/

structure PrivacyRequestRow where
  id : UUID
  state : PrivacyRequestState
  rightRequested : DataSubjectRight
  subjectIdentifierBlindIndex : BlindIndex
  subjectUserId : Option UUID
  receivedAt : Int
  identityVerifiedAt : Option Int
  identityMethod : Option String
  identityAssurance : Option AssuranceLevel
  handledBy : Option UUID
  refusalGround : Option String
  deliveredAt : Option Int
  deriving DecidableEq

inductive CoverageAction where
  | EXPORTED | RECTIFIED | RESTRICTED | DELETED | CRYPTO_ERASED | EXEMPTED
  deriving DecidableEq

structure PrivacyCoverageRow where
  privacyRequestId : UUID
  coverage : StoreCoverage
  actionTaken : CoverageAction
  deriving DecidableEq

structure PrivacyResponseRow where
  privacyRequestId : UUID
  response : DataSubjectResponse
  deriving DecidableEq

/-- The columns of `app.signers` that an erasure and its guards look at. -/
structure SubjectSigner where
  id : UUID
  signatureCaseId : UUID
  status : SignerStatus
  emailCiphertext : Option String
  emailBlindIndex : Option BlindIndex
  expectedIdentifierCiphertext : Option String
  expectedIdentifierBlindIndex : Option BlindIndex
  expectedIdentifierType : Option String
  verifiedIdentifierCiphertext : Option String
  verifiedIdentifierBlindIndex : Option BlindIndex
  identifierBindingMode : Option BindingMode
  exceptionCode : Option String
  exceptionReasonCiphertext : Option String
  exceptionApprovedBy : Option UUID
  exceptionAt : Option Int
  deriving DecidableEq

structure SubjectIntent where
  id : UUID
  signerId : UUID
  deriving DecidableEq

structure TicIdentityArtifact where
  signingIntentId : UUID
  collectResponseObjectKey : Option StoredKey
  signatureXmlObjectKey : Option StoredKey
  ocspResponseObjectKey : Option StoredKey
  verificationReportObjectKey : Option StoredKey
  deriving DecidableEq

structure PrivacyAuditEvent where
  eventType : String
  resourceId : UUID
  deriving DecidableEq

/-- What there is of a tenant in the databases and in object storage. -/
structure PersonalData where
  requests : List PrivacyRequestRow
  coverage : List PrivacyCoverageRow
  responses : List PrivacyResponseRow
  signers : List SubjectSigner
  users : List (Option BlindIndex)
  onboardingApplications : List (Option BlindIndex)
  onboardingContacts : List (Option BlindIndex)
  legalHolds : List LegalHold
  intents : List SubjectIntent
  identityArtifacts : List TicIdentityArtifact
  auditEvents : List PrivacyAuditEvent
  objects : List StoredKey
  deriving DecidableEq

/-- The transactions of the job and its calls to object storage. -/
inductive PrivacyStage where
  | load | holds | control | data | objects | deleteObject (key : StoredKey) | auditLog | deliver
  | refuse
  deriving DecidableEq

inductive PrivacyFault where
  | privacyError (e : PrivacyError)
  | permanent (code : String)
  | database (failure : Failure)
  | unavailable (stage : PrivacyStage)
  deriving DecidableEq

/-- What the job runs in: which of its transactions and calls fail. -/
structure PrivacyEnvironment where
  fails : PrivacyStage → Bool
  /-- The object storage can delete objects. -/
  deletesObjects : Bool

abbrev PrivacyTx := Transaction PersonalData PrivacyFault
abbrev PrivacyProcess := Process PersonalData PrivacyFault

/-- A transaction of the job. -/
def PrivacyEnvironment.transaction {α : Type} (env : PrivacyEnvironment) (stage : PrivacyStage)
    (tx : PrivacyTx α) : PrivacyProcess α :=
  if env.fails stage then Process.raise (.unavailable stage) else Process.commit tx

/-! ## The guards -/

/-- A guard as a failure of the job. -/
def guarded (checks : Checks) : Except PrivacyFault Unit :=
  match refuse checks with
  | .error failure => .error (.database failure)
  | .ok () => .ok ()

def PrivacyRequestState.allowed : PrivacyRequestState → List PrivacyRequestState
  | .RECEIVED => [.IDENTITY_VERIFIED, .REFUSED]
  | .IDENTITY_VERIFIED => [.IN_PROGRESS, .REFUSED]
  | .IN_PROGRESS => [.FULFILLED, .REFUSED]
  | .FULFILLED => [.DELIVERED, .REFUSED]
  | .DELIVERED | .REFUSED => []

/-- `app.assert_privacy_identity_verified`. -/
def assertPrivacyIdentityVerified (new : PrivacyRequestRow) : Checks :=
  let identified : Bool := new.state ∈
    [PrivacyRequestState.IDENTITY_VERIFIED, .IN_PROGRESS, .FULFILLED, .DELIVERED]
  raises (identified && (new.identityVerifiedAt.isNone || new.identityMethod.isNone ||
    new.identityAssurance.isNone)) "PRIVACY_IDENTITY_NOT_VERIFIED" ++
  raises (identified && new.rightRequested ∈ HIGH_ASSURANCE_RIGHTS &&
    new.identityAssurance.any (· ≠ .HIGH))
    ("PRIVACY_IDENTITY_ASSURANCE_TOO_LOW: " ++ new.rightRequested.text ++ " requires HIGH, got " ++
      (new.identityAssurance.map (·.text)).getD "")

/-- `app.assert_privacy_erasure_not_held`. -/
def assertPrivacyErasureNotHeld (stores : PersonalData) (new : PrivacyRequestRow) : Checks :=
  raises (new.state == .FULFILLED && new.rightRequested == .ERASURE &&
    stores.legalHolds.any fun hold => hold.releasedAt.isNone && stores.signers.any fun signer =>
      signer.signatureCaseId == hold.signatureCaseId &&
        signer.verifiedIdentifierBlindIndex == some new.subjectIdentifierBlindIndex)
    "PRIVACY_ERASURE_BLOCKED_BY_LEGAL_HOLD"

/-- `app.assert_privacy_request_transition`. -/
def assertPrivacyRequestTransition (old new : PrivacyRequestRow) : Checks :=
  raises (new.state != old.state && new.state ∉ old.state.allowed)
    ("PRIVACY_STATE_TRANSITION_INVALID: " ++ old.state.text ++ " -> " ++ new.state.text)

def privacyRequests : Table PersonalData PrivacyFault PrivacyRequestRow where
  rows := PersonalData.requests
  put rows stores := { stores with requests := rows }
  onInsert _ _ := .ok ()
  onUpdate stores old new := guarded (
    assertPrivacyIdentityVerified new ++
    assertPrivacyErasureNotHeld stores new ++
    assertPrivacyRequestTransition old new ++
    violates (new.state == .REFUSED && new.refusalGround.all isBlank)
      "privacy_requests_refusal_needs_ground" ++
    violates (new.state == .DELIVERED && new.deliveredAt.isNone)
      "privacy_requests_delivered_has_timestamp")
  onDelete _ _ := .ok ()

/-- `app.protect_signer_binding`, for the columns that an erasure clears. -/
def protectSubjectBinding (old new : SubjectSigner) : Checks :=
  raises (old.status != .pending &&
    (new.expectedIdentifierCiphertext != old.expectedIdentifierCiphertext ||
      new.expectedIdentifierBlindIndex != old.expectedIdentifierBlindIndex))
    "invited signer identity and ordering binding are immutable"

/-- `signers_identifier_binding_consistent`; a type that is missing does not violate it. -/
def SubjectSigner.bindingConsistent (signer : SubjectSigner) : Bool :=
  match signer.identifierBindingMode with
  | none => true
  | some .STRICT_PREBOUND =>
    signer.expectedIdentifierCiphertext.isSome && signer.expectedIdentifierBlindIndex.isSome &&
      signer.expectedIdentifierType.all (· == "SSN") && signer.exceptionCode.isNone &&
      signer.exceptionReasonCiphertext.isNone && signer.exceptionApprovedBy.isNone &&
      signer.exceptionAt.isNone
  | some .BANKID_DISCOVERED =>
    signer.expectedIdentifierCiphertext.isNone && signer.expectedIdentifierBlindIndex.isNone &&
      signer.exceptionCode.isSome && signer.exceptionApprovedBy.isSome &&
      signer.exceptionAt.isSome &&
      (signer.exceptionCode != some "OTHER" || signer.exceptionReasonCiphertext.isSome)

def subjectSigners : Table PersonalData PrivacyFault SubjectSigner where
  rows := PersonalData.signers
  put rows stores := { stores with signers := rows }
  onInsert _ _ := .ok ()
  onUpdate _ old new := guarded (
    protectSubjectBinding old new ++
    violates (!new.bindingConsistent) "signers_identifier_binding_consistent")
  onDelete _ _ := .ok ()

/-! ## The library's part -/

/-- `toISOString` throws for what is no date. -/
def toISOString (millis : Int) : Except PrivacyError IsoDateTime :=
  if millis.natAbs ≤ 8640000000000000 then return ⟨some millis⟩ else throw .invalidTimeValue

def PrivacyRequestRow.job (row : PrivacyRequestRow) (tenantId : UUID) :
    Except PrivacyError PrivacyRequestJob := do
  let receivedAt ← toISOString row.receivedAt
  return {
    request :=
      { tenantId := tenantId
        requestId := row.id
        right := row.rightRequested
        receivedAt := receivedAt
        legalHoldActive := false }
    state := row.state
    subjectId := row.subjectUserId.getD row.id
    identity := none
    handledBy := row.handledBy
    refusalGround := none
    response := none }

/-- The first step: a job that is `RECEIVED` needs the identity of the row. -/
def verifyReceived (job : PrivacyRequestJob) (row : PrivacyRequestRow) :
    Except PrivacyError PrivacyRequestJob :=
  if job.state = .RECEIVED then
    match row.identityVerifiedAt, row.identityMethod, row.identityAssurance with
    | some verifiedAt, some method, some assurance => do
      if method = "" then
        throw (.executionError .PRIVACY_IDENTITY_NOT_VERIFIED "Identiteten är inte styrkt")
      let verifiedAt ← toISOString verifiedAt
      verifySubjectIdentity job
        { verified := true
          method := method
          assuranceLevel := assurance
          subjectId := job.subjectId
          verifiedAt := verifiedAt }
    | _, _, _ =>
      throw (.executionError .PRIVACY_IDENTITY_NOT_VERIFIED "Identiteten är inte styrkt")
  else
    pure job

/-- Walks the job up to `IN_PROGRESS`. -/
def advanceToInProgress (job : PrivacyRequestJob) (row : PrivacyRequestRow) (tenantId : UUID) :
    Except PrivacyError PrivacyRequestJob := do
  let verified ← verifyReceived job row
  if verified.state = .IDENTITY_VERIFIED then
    match row.handledBy with
    | none =>
      throw (.executionError .PRIVACY_STATE_INVALID "Ingen handläggare är tilldelad begäran")
    | some handledBy => beginHandling verified handledBy tenantId
  else
    pure verified

/-- The job of the row, in progress. -/
def PrivacyRequestRow.inProgress (row : PrivacyRequestRow) (tenantId : UUID) :
    Except PrivacyError PrivacyRequestJob := do
  let job ← row.job tenantId
  advanceToInProgress job row tenantId

/-! ## Going through the stores -/

def SubjectSigner.matches (signer : SubjectSigner) (subject : BlindIndex) : Bool :=
  signer.emailBlindIndex == some subject ||
    signer.expectedIdentifierBlindIndex == some subject ||
    signer.verifiedIdentifierBlindIndex == some subject

def SubjectSigner.erased (signer : SubjectSigner) : SubjectSigner :=
  { signer with
    emailCiphertext := none, emailBlindIndex := none
    expectedIdentifierCiphertext := none, expectedIdentifierBlindIndex := none
    verifiedIdentifierCiphertext := none, verifiedIdentifierBlindIndex := none }

def PersonalData.legalHoldActive (stores : PersonalData) (subject : BlindIndex) : Bool :=
  stores.legalHolds.any fun hold => hold.releasedAt.isNone && stores.signers.any fun signer =>
    signer.signatureCaseId == hold.signatureCaseId && signer.matches subject

def PersonalData.restrictionActive (stores : PersonalData) (subject : BlindIndex)
    (privacyRequestId : UUID) : Bool :=
  stores.requests.any fun request => request.id != privacyRequestId &&
    request.rightRequested == .RESTRICTION && request.subjectIdentifierBlindIndex == subject &&
    request.state == .DELIVERED

def TicIdentityArtifact.objectKeys (artifacts : TicIdentityArtifact) : List StoredKey :=
  [artifacts.collectResponseObjectKey, artifacts.signatureXmlObjectKey,
    artifacts.ocspResponseObjectKey, artifacts.verificationReportObjectKey].reduceOption

/-- The object keys of the identity evidence of the matching signers. -/
def PersonalData.identityObjectKeys (stores : PersonalData) (subject : BlindIndex) :
    List StoredKey :=
  ((stores.signers.filter (·.matches subject)).flatMap fun signer =>
    (stores.intents.filter (·.signerId == signer.id)).flatMap fun intent =>
      (stores.identityArtifacts.filter (·.signingIntentId == intent.id)).flatMap
        TicIdentityArtifact.objectKeys).dedup

section Stores

variable (env : PrivacyEnvironment)

def searchControl (subject : BlindIndex) : PrivacyProcess StoreCoverage :=
  env.transaction .control do
    let stores ← Transaction.read
    return ⟨.CONTROL, stores.onboardingApplications.count (some subject) +
      stores.onboardingContacts.count (some subject), true, none⟩

def searchData (subject : BlindIndex) (right : DataSubjectRight) : PrivacyProcess StoreCoverage :=
  env.transaction .data do
    let stores ← Transaction.read
    let recordCount := stores.signers.countP (·.matches subject) + stores.users.count (some subject)
    if right ≠ .ERASURE ∨ recordCount = 0 then
      return ⟨.DATA, recordCount, true, none⟩
    else
      let _ ← subjectSigners.update (·.matches subject) SubjectSigner.erased
      return ⟨.DATA, recordCount, true, none⟩

def deleteObject (key : StoredKey) : PrivacyProcess Unit :=
  if env.fails (.deleteObject key) then
    Process.raise (.unavailable (.deleteObject key))
  else
    Process.perform fun stores => { stores with objects := stores.objects.filter (· ≠ key) }

def searchObjectStorage (subject : BlindIndex) (right : DataSubjectRight) :
    PrivacyProcess StoreCoverage := do
  let keys ← env.transaction .objects do
    let stores ← Transaction.read
    return stores.identityObjectKeys subject
  if right ≠ .ERASURE then
    return ⟨.OBJECT_STORAGE, keys.length, true, none⟩
  else if ¬env.deletesObjects then
    return ⟨.OBJECT_STORAGE, 0, false, some ("Objektlagringen saknar raderingsfunktion i denna " ++
      "miljö; inga objekt kunde adresseras")⟩
  else
    Process.forEach (deleteObject env) keys
    return ⟨.OBJECT_STORAGE, keys.length, true, none⟩

def searchAuditLog (privacyRequestId : UUID) (right : DataSubjectRight) :
    PrivacyProcess StoreCoverage :=
  env.transaction .auditLog do
    let stores ← Transaction.read
    return ⟨.AUDIT_LOG, stores.auditEvents.countP (·.resourceId == privacyRequestId), true,
      if right = .ERASURE then
        some ((erasureExemption .AUDIT_LOG).getD "Åtkomstloggar bevaras enligt PUB-avtalet 7.5")
      else none⟩

/-- A backup set is never searched. -/
def backupCoverage : StoreCoverage :=
  ⟨.BACKUP, 0, false, some ((erasureExemption .BACKUP).getD ("Säkerhetskopior kan inte " ++
    "punktsökas; uppgifterna försvinner när backupretentionen löper ut"))⟩

def gatherCoverage (row : PrivacyRequestRow) : PrivacyProcess (List StoreCoverage) := do
  let control ← searchControl env row.subjectIdentifierBlindIndex
  let data ← searchData env row.subjectIdentifierBlindIndex row.rightRequested
  let objects ← searchObjectStorage env row.subjectIdentifierBlindIndex row.rightRequested
  let auditLog ← searchAuditLog env row.id row.rightRequested
  return [control, data, objects, auditLog, backupCoverage]

end Stores

/-! ## The job -/

/-- What was done to a store. -/
def actionFor (right : DataSubjectRight) (entry : StoreCoverage) : CoverageAction :=
  if entry.searched = false then .EXEMPTED
  else if entry.exemptionReason.any (· ≠ "") then .EXEMPTED
  else match right with
    | .ACCESS | .PORTABILITY => .EXPORTED
    | .RECTIFICATION => .RECTIFIED
    | .RESTRICTION => .RESTRICTED
    | .ERASURE => if entry.store = .OBJECT_STORAGE then .CRYPTO_ERASED else .DELETED

def appendPrivacyAudit (eventType : String) (privacyRequestId : UUID) : PrivacyTx Unit :=
  Transaction.rewrite fun stores =>
    { stores with auditEvents := stores.auditEvents ++ [⟨eventType, privacyRequestId⟩] }

/-- `on conflict do nothing`; a coverage row is either searched or exempted. -/
def insertCoverage (privacyRequestId : UUID) (right : DataSubjectRight) (entry : StoreCoverage) :
    PrivacyTx Unit := do
  let stores ← Transaction.read
  if stores.coverage.any fun row =>
      row.privacyRequestId == privacyRequestId && row.coverage.store == entry.store then
    pure ()
  else
    Transaction.check fun _ => guarded (
      violates (!entry.searched && entry.exemptionReason.all isBlank)
        "privacy_coverage_searched_or_exempted" ++
      violates (!entry.searched && entry.recordCount != 0)
        "privacy_coverage_unsearched_has_no_records")
    Transaction.rewrite fun stores => { stores with
      coverage := stores.coverage ++ [⟨privacyRequestId, entry, actionFor right entry⟩] }

/-- The state of the request, as the deferred triggers read it. -/
def PersonalData.requestState? (stores : PersonalData) (privacyRequestId : UUID) :
    Option PrivacyRequestState :=
  (stores.requests.find? (·.id == privacyRequestId)).map (·.state)

def PrivacyRequestState.isAnswered : PrivacyRequestState → Bool
  | .FULFILLED | .DELIVERED => true
  | .RECEIVED | .IDENTITY_VERIFIED | .IN_PROGRESS | .REFUSED => false

/-- `app.assert_privacy_coverage_complete`, deferred. -/
def assertPrivacyCoverageComplete (privacyRequestId : UUID) (stores : PersonalData) : Checks :=
  raises ((stores.requestState? privacyRequestId).any (·.isAnswered) &&
    PERSONAL_DATA_STORES.any fun store => !stores.coverage.any fun row =>
      row.privacyRequestId == privacyRequestId && row.coverage.store == store)
    "PRIVACY_COVERAGE_INCOMPLETE"

/-- `app.assert_privacy_response_consistent`, deferred. -/
def assertPrivacyResponseConsistent (privacyRequestId : UUID) (response : DataSubjectResponse)
    (stores : PersonalData) : Checks :=
  raises (stores.requestState? privacyRequestId).isNone "PRIVACY_REQUEST_NOT_FOUND" ++
  raises ((stores.requestState? privacyRequestId).any (!·.isAnswered))
    "PRIVACY_RESPONSE_BEFORE_FULFILMENT" ++
  raises (((stores.coverage.filter (·.privacyRequestId == privacyRequestId)).map
    (·.coverage.recordCount)).sum != response.totalRecords) "PRIVACY_RESPONSE_TOTAL_MISMATCH"

/-- Moves the request on, if it is in the state `old`. -/
def advanceRequest (privacyRequestId : UUID) (old : PrivacyRequestState)
    (f : PrivacyRequestRow → PrivacyRequestRow) : PrivacyTx Nat :=
  privacyRequests.update (fun request => request.id == privacyRequestId && request.state == old) f

/-- `on conflict do nothing`; the answer is whether there was none yet. -/
def insertResponse (privacyRequestId : UUID) (response : DataSubjectResponse) : PrivacyTx Bool := do
  let stores ← Transaction.read
  if stores.responses.any (·.privacyRequestId == privacyRequestId) then
    return false
  else
    Transaction.rewrite fun stores =>
      { stores with responses := stores.responses ++ [⟨privacyRequestId, response⟩] }
    return true

/-- The deferred triggers of the rows that the transaction has touched. -/
def checkAnswer (privacyRequestId : UUID) (response : DataSubjectResponse)
    (updated inserted : Bool) : PrivacyTx Unit :=
  Transaction.check fun stores => guarded (
    (if updated then assertPrivacyCoverageComplete privacyRequestId stores else []) ++
    (if inserted then assertPrivacyResponseConsistent privacyRequestId response stores else []))

/-- The transaction that writes the answer down. -/
def recordResponse (now : Int) (row : PrivacyRequestRow) (coverage : List StoreCoverage)
    (response : DataSubjectResponse) : PrivacyTx Unit := do
  let fulfilled ← advanceRequest row.id .IN_PROGRESS fun request =>
    { request with state := .FULFILLED }
  Transaction.forEach (insertCoverage row.id row.rightRequested) coverage
  let inserted ← insertResponse row.id response
  let delivered ← advanceRequest row.id .FULFILLED fun request =>
    { request with state := .DELIVERED, deliveredAt := some now }
  appendPrivacyAudit "privacy.request_delivered" row.id
  checkAnswer row.id response (0 < fulfilled + delivered) inserted

section Job

variable (env : PrivacyEnvironment)

def recordRefusal (privacyRequestId : UUID) (code message : String) : PrivacyProcess Unit :=
  env.transaction .refuse do
    let _ ← privacyRequests.update
      (fun request => request.id == privacyRequestId && request.state != .DELIVERED &&
        request.state != .REFUSED)
      fun request => { request with
        state := .REFUSED, refusalGround := some (code ++ ": " ++ message) }
    appendPrivacyAudit "privacy.request_refused" privacyRequestId

/-- An error of the library refuses the request; every other one ends the job. -/
def refuseFor (privacyRequestId : UUID) : PrivacyError → PrivacyProcess Unit
  | .executionError code message => recordRefusal env privacyRequestId code.text message
  | .requestError code message => recordRefusal env privacyRequestId code message
  | .invalidTimeValue => Process.raise (.privacyError .invalidTimeValue)

/-- What the job does with an answer of the library. -/
def concludeRequest (now : Int) (row : PrivacyRequestRow) (coverage : List StoreCoverage)
    (fulfilled : PrivacyRequestJob) : PrivacyProcess Unit :=
  match deliverResponse fulfilled with
  | .error e => Process.raise (.privacyError e)
  | .ok delivered =>
    match delivered.response with
    | none => Process.raise (.permanent "PRIVACY_RESPONSE_MISSING")
    | some response => env.transaction .deliver (recordResponse now row coverage response)

/-- The library decides whether the stores that have been gone through fulfil the request. -/
def answerRequest (now : Int) (row : PrivacyRequestRow) (job : PrivacyRequestJob)
    (legalHoldActive restrictionActive : Bool) (coverage : List StoreCoverage) :
    PrivacyProcess Unit :=
  match fulfilRequest job coverage legalHoldActive restrictionActive with
  | .error e => refuseFor env row.id e
  | .ok fulfilled => concludeRequest env now row coverage fulfilled

/-- An erasure that is held is refused before anything is searched. -/
def refuseHeld (row : PrivacyRequestRow) (job : PrivacyRequestJob)
    (legalHoldActive restrictionActive : Bool) : PrivacyProcess Unit :=
  match fulfilRequest job [] legalHoldActive restrictionActive with
  | .error e => refuseFor env row.id e
  | .ok _ => Process.raise (.permanent "PRIVACY_HOLD_NOT_ENFORCED")

/-- A request that is in progress. -/
def executeRequest (now : Int) (row : PrivacyRequestRow) (job : PrivacyRequestJob) :
    PrivacyProcess Unit := do
  let (legalHoldActive, restrictionActive) ← env.transaction .holds do
    let stores ← Transaction.read
    return (stores.legalHoldActive row.subjectIdentifierBlindIndex,
      stores.restrictionActive row.subjectIdentifierBlindIndex row.id)
  if row.rightRequested = .ERASURE ∧ (legalHoldActive ∨ restrictionActive) then
    refuseHeld env row job legalHoldActive restrictionActive
  else
    let coverage ← gatherCoverage env row
    answerRequest env now row job legalHoldActive restrictionActive coverage

def handlePrivacyRequestExecute (tenantId privacyRequestId : UUID) (now : Int) :
    PrivacyProcess Unit := do
  let loaded ← env.transaction .load do
    let stores ← Transaction.read
    return stores.requests.find? (·.id == privacyRequestId)
  match loaded with
  | none => Process.raise (.permanent "PRIVACY_REQUEST_NOT_FOUND")
  | some row =>
    if row.state = .DELIVERED ∨ row.state = .REFUSED then
      pure ()
    else
      match row.inProgress tenantId with
      | .error e => refuseFor env row.id e
      | .ok job => executeRequest env now row job

end Job

end Kommunsign
