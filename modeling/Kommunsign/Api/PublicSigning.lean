import Kommunsign.Api.EvidencePayload
import Kommunsign.Worker.PadesCreate

/-!
# What the holder of an invitation can do

The public endpoints know nothing but the token of an invitation. Starting BankID is two
transactions with the call to the provider between them: the first reads what the provider is
asked to have signed, the second records the session.

* `resolveInvitation`, `validInvitation` — when a token still opens anything
* `startInput` — the provider's input, from the joined rows of an intent
-/

namespace Kommunsign

open Infra

/-- The token's invitation and its signer. -/
structure InvitationResolution where
  invitationId : Id
  signerId : Id
  deriving DecidableEq

/-- `app.resolve_public_invitation`, by the invitation whose token it is. -/
def resolveInvitation (db : Db) (now : Time) (invitationId : Id) :
    Except Failure InvitationResolution :=
  match db.invitation? invitationId with
  | none => .error (.thrown "INVITATION_INVALID")
  | some i =>
    if i.revokedAt.isNone && now < i.expiresAt && i.usedAt.isNone then .ok ⟨i.id, i.signerId⟩
    else .error (.thrown "INVITATION_INVALID")

def validInvitation (db : Db) (now : Time) (resolved : InvitationResolution) :
    Except Failure SignerInvitation :=
  match db.invitation? resolved.invitationId with
  | none => .error (.thrown "INVITATION_INVALID")
  | some i =>
    if i.revokedAt.isSome || i.usedAt.isSome then .error (.thrown "INVITATION_REVOKED")
    else if i.expiresAt ≤ now then .error (.thrown "INVITATION_EXPIRED")
    else .ok i

/-! ## Starting BankID -/

/-- A string property of an object. -/
def stringField (value : Json) (name : String) : Option Text :=
  match value.field name with
  | some (.str s) => some s
  | _ => none

def numberField (value : Json) (name : String) : Option Int :=
  match value.field name with
  | some (.num n) => some n
  | _ => none

/-- An object as the snapshot that the source takes it for. -/
def readSnapshot (value : Json) : Option SigningIntentDocumentSnapshot := do
  some {
    ordinal := ← numberField value "ordinal"
    documentId := ← stringField value "documentId"
    documentVersionId := ← stringField value "documentVersionId"
    displayName := ← stringField value "displayName"
    mimeType := ← stringField value "mimeType"
    profile := ← stringField value "profile"
    byteSize := ← numberField value "byteSize"
    sha256 := ← stringField value "sha256" }

/-- `JSON.parse(row.non_visible_payload) as {nonce; documents}`. -/
def readPayload (text : Text) : Option (Text × List SigningIntentDocumentSnapshot) := do
  let payload ← Json.parse text
  let nonce ← stringField payload "nonce"
  match payload.field "documents" with
  | some (.arr documents) => some (nonce, ← documents.mapM readSnapshot)
  | _ => none

/-- The provider's input for an intent that is joined with its case and its signer. -/
def startInput (tenantId : Text) (si : SigningIntent) (c : SignatureCase) (s : Signer) :
    Except Failure StartIdentitySignature := do
  let (nonce, documents) ← orFail "SyntaxError" (readPayload si.nonVisiblePayload)
  let expected ←
    if s.identifierBindingMode = some .STRICT_PREBOUND then
      some <$> orFail "PERSONAL_NUMBER_REQUIRED" s.expectedIdentifier
    else pure none
  return {
    tenantId := tenantId
    signatureCaseId := idText si.signatureCaseId
    signingIntentId := idText si.id
    signerId := idText si.signerId
    signaturePolicyId := idText c.policyId
    signaturePolicyVersion := c.policyVersion
    identifierBindingMode := s.identifierBindingMode
    identifierBindingExceptionCode := none
    expectedPersonalNumber := expected
    documents := documents
    visibleText := si.visibleText
    issuedAt := isoText si.issuedAt
    expiresAt := isoText si.expiresAt
    nonce := nonce }

/-- `order by sid.ordinal limit 1` among the documents of the intent that are to be signed. -/
def Db.firstDocumentVersionId (db : Db) (signingIntentId : Id) : Option Id :=
  (minBy (fun sid => (sid.ordinal : Int)) (db.signableDocuments signingIntentId)).map
    (·.documentVersionId)

/-- The intent that a signer can start: `status='prepared' order by si.created_at desc limit 1`. -/
def Db.startableIntent? (db : Db) (signerId : Id) : Option SigningIntent :=
  minBy (fun si => -(si.createdAt : Int))
    (db.intents.filter fun si => si.signerId == signerId && si.status == .prepared &&
      (db.case? si.signatureCaseId).isSome && (db.signer? si.signerId).isSome)

/-- What `loadStartInput` hands to the second half of `startBankId`. -/
structure StartInput where
  signingIntentId : Id
  signerId : Id
  firstDocumentVersionId : Option Id
  providerInput : StartIdentitySignature
  deriving DecidableEq

def loadStartInput (db : Db) (now : Time) (resolved : InvitationResolution) :
    Except Failure StartInput := do
  let _ ← validInvitation db now resolved
  refuse [
    (!db.ticBankIdRolloutEnabled, .thrown "TIC_NOT_CONFIGURED"),
    (db.signingTurnBlocked resolved.signerId, .thrown "SIGNING_ORDER_BLOCKED")]
  let (si, c, s) ← orFail "SIGNING_INTENT_NOT_READY" do
    let si ← db.startableIntent? resolved.signerId
    let c ← db.case? si.signatureCaseId
    let s ← db.signer? si.signerId
    some (si, c, s)
  let providerInput ← startInput db.tenantId si c s
  return {
    signingIntentId := si.id
    signerId := si.signerId
    firstDocumentVersionId := db.firstDocumentVersionId si.id
    providerInput := providerInput }

theorem loadStartInput_eq_ok {db : Db} {now : Time} {resolved : InvitationResolution}
    {si : SigningIntent} {start : StartInput} (hsi : db.startableIntent? resolved.signerId = some si)
    (h : loadStartInput db now resolved = .ok start) :
    ∃ c s, db.case? si.signatureCaseId = some c ∧ db.signer? si.signerId = some s ∧
      startInput db.tenantId si c s = .ok start.providerInput ∧
      start.signingIntentId = si.id ∧ start.signerId = si.signerId ∧
      start.firstDocumentVersionId = db.firstDocumentVersionId si.id := by
  obtain ⟨_, -, h⟩ := except_bind_eq_ok.mp h
  obtain ⟨_, -, h⟩ := except_bind_eq_ok.mp h
  obtain ⟨⟨si', c, s⟩, hrows, h⟩ := except_bind_eq_ok.mp h
  obtain ⟨input, hinput, h⟩ := except_bind_eq_ok.mp h
  obtain rfl := Except.ok.inj h
  simp only [orFail_eq_ok, hsi, Option.bind_eq_bind, Option.bind_some, Option.bind_eq_some_iff,
    Option.some.injEq, Prod.mk.injEq] at hrows
  obtain ⟨c', hc, s', hs, rfl, rfl, rfl⟩ := hrows
  exact ⟨c', s', hc, hs, hinput, rfl, rfl, rfl⟩

/-- The first half of `startBankId`, up to and with the text that the provider is sent. -/
def startSession (db : Db) (now : Time) (invitationId : Id) : Except Failure (StartInput × Text) :=
  do
  let resolved ← resolveInvitation db now invitationId
  let start ← loadStartInput db now resolved
  return (start, ← bankIdEvidenceText start.providerInput)

/-- The session that the second half records, under the provider's reference. -/
def sessionRow (db : Db) (now : Time) (start : StartInput) (documentVersionId : Id)
    (providerReference : Nat) : IdentityTransaction where
  id := freshKey (db.identityTransactions.map (·.id))
  signerId := start.signerId
  documentVersionId := documentVersionId
  provider := .TIC_BANKID
  providerReference := providerReference
  startedAt := now
  signingIntentId := some start.signingIntentId
  evidenceSha256 := none
  status := .pending

/-- The second half of `startBankId`. -/
def recordSession (now : Time) (providerReference : Nat) (start : StartInput) : Tx Unit := do
  let db ← Transaction.read
  Transaction.require ((db.intent? start.signingIntentId).any fun si => si.status == .prepared)
    (.thrown "TIC_START_RACE_LOST")
  let documentVersionId ← Transaction.demand (.constraint "document_version_id")
    start.firstDocumentVersionId
  let session := sessionRow db now start documentVersionId providerReference
  Tables.identityTransactions.insert session
  let _ ← Tables.intents.update (fun si => si.id == start.signingIntentId) fun si =>
    { si with status := .provider_started }
  let _ ← (Tables.signers .trustedService).update
    (fun s => s.id == start.signerId && (s.status == .invited || s.status == .opened))
    fun s => { s with status := .identity_started }
  outbox .bankid_session_started session.id

/-! ## The other endpoints -/

/-- A transaction that reads the state and then does something with what it read. -/
def reading {α : Type} (read : Db → Except Failure α) (next : α → Tx Unit) : Tx Unit := do
  let db ← Transaction.read
  match read db with
  | .error e => Transaction.fail e
  | .ok a => next a

def openInvitation (db : Db) (now : Time) (invitationId : Id) : Except Failure SignerInvitation :=
  do validInvitation db now (← resolveInvitation db now invitationId)

def markOpened (now : Time) (invitationId : Id) : Tx Unit :=
  reading (openInvitation · now invitationId) fun row => do
    let _ ← Tables.invitations.update (fun i => i.id == invitationId) fun i =>
      { i with firstOpenedAt := some (i.firstOpenedAt.getD now) }
    let _ ← (Tables.signers .trustedService).update (fun s => s.id == row.signerId) fun s =>
      { s with status := if s.status = .invited then .opened else s.status }
    outbox .invitation_opened invitationId

/-- `IdentityStatus` of the provider. -/
inductive ProviderStatus where
  | PENDING
  | USER_ACTION_REQUIRED
  | COMPLETED
  | CANCELLED
  | EXPIRED
  | FAILED
  deriving DecidableEq, Repr

/-- The status that `bankIdStatus` writes. -/
def polledStatus (databaseStatus : IdentityStatus) : ProviderStatus → IdentityStatus
  | .USER_ACTION_REQUIRED => .pending
  | .CANCELLED => .cancelled
  | .EXPIRED => .expired
  | .FAILED => .failed
  | .PENDING | .COMPLETED => databaseStatus

/--
The second transaction of `bankIdStatus`. The source writes back the status it read in the first
one; where that is no longer the row's, the transition trigger refuses it.
-/
def recordSessionStatus (identityTransactionId : Id) (status : ProviderStatus) : Tx Unit := do
  let _ ← Tables.identityTransactions.update (fun t => t.id == identityTransactionId) fun t =>
    { t with status := polledStatus t.status status }
  if status = .COMPLETED then
    enqueue (.ticEvidenceCollect identityTransactionId)
    outbox .bankid_session_completed identityTransactionId

/-- The second transaction of `cancelBankId`. -/
def cancelSession (identityTransactionId : Id) : Tx Unit := do
  let db ← Transaction.read
  let signingIntentId := (db.identityTransaction? identityTransactionId).bind (·.signingIntentId)
  let _ ← Tables.identityTransactions.update
    (fun t => t.id == identityTransactionId && t.status.isWaiting) fun t =>
      { t with status := .cancelled }
  let _ ← Tables.intents.update
    (fun si => some si.id == signingIntentId && si.status == .provider_started) fun si =>
      { si with status := .cancelled }

/-- `update app.signature_cases set status=… where status in ('sent','in_progress','partially_signed')`. -/
def endOpenCase (actor : ActorKind) (signatureCaseId : Id) (status : CaseStatus) : Tx Nat :=
  (Tables.cases actor).update (fun c => c.id == signatureCaseId && c.status.isOpen) fun c =>
    { c with status := status }

def decline (now : Time) (invitationId : Id) : Tx Unit :=
  reading (openInvitation · now invitationId) fun invitation => do
    let db ← Transaction.read
    let row ← Transaction.demand (.thrown "INVITATION_INVALID") (db.signer? invitation.signerId)
    let _ ← (Tables.signers .trustedService).update (fun s => s.id == invitation.signerId &&
        (s.status == .invited || s.status == .opened || s.status == .identity_started))
      fun s => { s with status := .declined }
    let _ ← Tables.invitations.update (fun i => i.id == invitationId) fun i =>
      { i with usedAt := some now }
    if row.required then
      let _ ← endOpenCase .trustedService row.signatureCaseId .declined
    outbox .signer_declined invitation.signerId

/-! ## What the transactions leave -/

section Spec

variable {db db' : Db} {now : Time} {u : Unit}

theorem recordSession_eq {reference : Nat} {start : StartInput}
    (h : recordSession now reference start db = .ok (u, db')) :
    ∃ documentVersionId, start.firstDocumentVersionId = some documentVersionId ∧
      Tables.identityTransactions.onInsert db
        (sessionRow db now start documentVersionId reference) = .ok () ∧
      db'.identityTransactions =
        db.identityTransactions ++ [sessionRow db now start documentVersionId reference] ∧
      db'.intents = assign (fun si => si.id == start.signingIntentId)
        (fun si => { si with status := .provider_started }) db.intents ∧
      db'.signers = assign
        (fun s => s.id == start.signerId && (s.status == .invited || s.status == .opened))
        (fun s => { s with status := .identity_started }) db.signers := by
  rw [recordSession, Transaction.read_bind] at h
  simp only [Transaction.bind_eq_ok] at h
  obtain ⟨_, db₁, hrequire, documentVersionId, db₂, hdemand, _, db₃, hinsert, _, db₄, hintents, _,
    db₅, hsigners, houtbox⟩ := h
  obtain ⟨-, rfl⟩ := Transaction.require_eq_ok.mp hrequire
  obtain ⟨hfirst, rfl⟩ := Transaction.demand_eq_ok.mp hdemand
  obtain ⟨hok, rfl⟩ := Table.insert_eq_ok.mp hinsert
  obtain ⟨-, rfl, -⟩ := Table.update_eq_ok.mp hintents
  obtain ⟨-, rfl, -⟩ := Table.update_eq_ok.mp hsigners
  obtain rfl := Transaction.rewrite_eq_ok.mp houtbox
  exact ⟨documentVersionId, hfirst, hok, rfl, rfl, rfl⟩

theorem reading_eq_ok {α : Type} {read : Db → Except Failure α} {next : α → Tx Unit}
    (h : reading read next db = .ok (u, db')) : ∃ a, read db = .ok a ∧ next a db = .ok (u, db') := by
  rw [reading, Transaction.read_bind] at h
  cases hread : read db with
  | error failure =>
    rw [hread] at h
    cases h
  | ok a =>
    rw [hread] at h
    exact ⟨a, rfl, h⟩

theorem within_reading {α : Type} {R : Db → Db → Prop} {read : Db → Except Failure α}
    {next : α → Tx Unit} (h : ∀ a, read db = .ok a → Transaction.Within R (next a) db) :
    Transaction.Within R (reading read next) db := by
  intro u db' hok
  obtain ⟨a, hread, hnext⟩ := reading_eq_ok hok
  exact h a hread u db' hnext

end Spec

end Kommunsign
