import Kommunsign.Api.EvidencePayload
import Kommunsign.Worker.Cases

/-!
# `send`

Sending a case locks its documents and prepares one signing intent for each signer: the visible
text, the payload that the signature will carry, and the documents it covers. The signers of the
first group are invited. It is one transaction.

* `Db.signingDocuments` — the documents of the case in the order in which they are numbered
* `sendPayload` — the payload of an intent, before it is written as canonical JSON
-/

namespace Kommunsign

open Infra

/-! ## The documents -/

/-- The versions of the documents of a case, each with its document. -/
def Db.caseVersions (db : Db) (signatureCaseId : Id) : List (Document × DocumentVersion) :=
  (db.documents.filter fun d => d.signatureCaseId == signatureCaseId).flatMap fun d =>
    (db.versions.filter fun v => v.documentId == d.id).map fun v => (d, v)

/-- `order by d.document_role desc, d.created_at, d.id, v.version desc`. -/
def sendOrder (a b : Document × DocumentVersion) : Bool :=
  if a.1.documentRole ≠ b.1.documentRole then a.1.documentRole = .signable
  else if a.1.createdAt ≠ b.1.createdAt then a.1.createdAt < b.1.createdAt
  else if a.1.id ≠ b.1.id then a.1.id < b.1.id
  else b.2.version ≤ a.2.version

def Db.signingDocuments (db : Db) (signatureCaseId : Id) : List (Document × DocumentVersion) :=
  (db.caseVersions signatureCaseId).insertionSort fun a b => sendOrder a b = true

/-- A row of `SigningDocumentRow` whose digest is there. -/
structure SigningDocumentRow where
  documentId : Id
  documentVersionId : Id
  displayName : Text
  sha256 : Digest
  byteSize : Nat
  documentRole : DocumentRole
  deriving DecidableEq

def signingDocumentRow (dv : Document × DocumentVersion) : Option SigningDocumentRow :=
  dv.2.sha256.map fun sha256 => {
    documentId := dv.1.id
    documentVersionId := dv.2.id
    displayName := dv.1.displayName
    sha256 := sha256
    byteSize := dv.2.byteSize
    documentRole := dv.1.documentRole }

/-! ## The intent -/

def DocumentRole.name : DocumentRole → Text
  | .signable => "signable".toList
  | .attachment => "attachment".toList

def sendSnapshot (row : SigningDocumentRow) (ordinal : Nat) : SigningIntentDocumentSnapshot where
  ordinal := ordinal
  documentId := idText row.documentId
  documentVersionId := idText row.documentVersionId
  displayName := row.displayName
  mimeType := "application/pdf".toList
  profile := "PDF/A-2b".toList
  byteSize := row.byteSize
  sha256 := sha256Text row.sha256

/-- A snapshot in the payload: the fields of the snapshot, and the role of the document. -/
def sendDocument (row : SigningDocumentRow) (ordinal : Nat) : Json :=
  Json.object (evidenceDocument (sendSnapshot row ordinal) ++ [("role", .str row.documentRole.name)])

/-- The rows with the ordinals they get. -/
def numbered (rows : List SigningDocumentRow) : List (SigningDocumentRow × Nat) := rows.zipIdx 1

def visibleLine (row : SigningDocumentRow) : Text :=
  let sha256 := sha256Text row.sha256
  "+ ".toList ++ row.displayName ++ " — SHA-256: ".toList ++ sha256.take 8 ++ "…".toList ++
    sha256.drop 60

def buildBankIdVisibleText (c : SignatureCase) (organizationName : Option Text)
    (rows : List SigningDocumentRow) : Text :=
  List.intercalate ['\n'] (
    ["# Elektronisk underskrift".toList, [],
      "Jag undertecknar följande handlingar i Kommunsign:".toList, []] ++
    rows.map visibleLine ++
    [[], "Ärende: ".toList ++ c.externalReference.getD (idText c.id),
      "Organisation: ".toList ++ organizationName.getD "Kommunsign-tenant".toList,
      "Antal handlingar: ".toList ++ idText rows.length, [],
      ("Jag bekräftar att jag har granskat handlingarna och avser att underteckna dem " ++
        "elektroniskt.").toList])

/-- What an intent is prepared from, beside the documents. -/
structure IntentSource where
  tenantId : Text
  signingIntentId : Id
  signer : Signer
  identifierBindingMode : BindingMode
  nonce : Text
  issuedAt : Time

/-- An intent, and the invitation to it, expire an hour after the case is sent. -/
def IntentSource.expiresAt (source : IntentSource) : Time := source.issuedAt + 3600000

/-- The members of the payload, as `send` lays them out. -/
def sendMembers (c : SignatureCase) (rows : List SigningDocumentRow) (source : IntentSource) :
    List (String × Json) :=
  [("schema", Json.lit "kommunsign.bankid-evidence.v2"),
   ("tenantId", .str source.tenantId),
   ("signatureCaseId", .str (idText c.id)),
   ("signingIntentId", .str (idText source.signingIntentId)),
   ("signerId", .str (idText source.signer.id)),
   ("identifierBindingMode", .str source.identifierBindingMode.name),
   ("identifierBindingExceptionCode", textOrNull source.signer.identifierBindingExceptionCode),
   ("signaturePolicyId", .str (idText c.policyId)),
   ("signaturePolicyVersion", .num c.policyVersion),
   ("documents", .arr ((numbered rows).map fun r => sendDocument r.1 r.2)),
   ("nonce", .str source.nonce),
   ("issuedAt", .str (isoText source.issuedAt)),
   ("expiresAt", .str (isoText source.expiresAt))]

def sendPayload (c : SignatureCase) (rows : List SigningDocumentRow) (source : IntentSource) :
    Json :=
  Json.object (sendMembers c rows source)

def preparedIntent (organizationName : Option Text) (c : SignatureCase)
    (rows : List SigningDocumentRow) (source : IntentSource) : SigningIntent where
  id := source.signingIntentId
  signatureCaseId := c.id
  signerId := source.signer.id
  sequenceGroup := source.signer.signingOrder
  visibleText := buildBankIdVisibleText c organizationName rows
  nonVisiblePayload := canonicalJson (sendPayload c rows source)
  identifierBindingMode := source.identifierBindingMode
  issuedAt := source.issuedAt
  expiresAt := source.expiresAt
  createdAt := source.issuedAt
  status := .prepared

def intentDocument (signingIntentId : Id) (row : SigningDocumentRow) (ordinal : Nat) :
    SigningIntentDocument where
  signingIntentId := signingIntentId
  documentVersionId := row.documentVersionId
  ordinal := ordinal
  documentSha256 := row.sha256
  documentRole := row.documentRole

/-! ## The transaction -/

/-- The invitation of a signer of the first group. -/
def inviteFirst (now expiresAt : Time) (signerId : Id) : Tx Unit := do
  let db ← Transaction.read
  let invitation := newInvitation db now signerId expiresAt
  Tables.invitations.insert invitation
  let _ ← (Tables.signers .client).update (fun s => s.id == signerId) fun s =>
    { s with status := .invited }
  outbox .invitation_created invitation.id

/-- What an intent is prepared from in a state. -/
def intentSource (db : Db) (now : Time) (nonce : Id → Text) (signer : Signer)
    (mode : BindingMode) : IntentSource where
  tenantId := db.tenantId
  signingIntentId := freshKey (db.intents.map (·.id))
  signer := signer
  identifierBindingMode := mode
  nonce := nonce signer.id
  issuedAt := now

/-- What is written for one signer; `nonce` is the random token of each signer. -/
def sendSigner (now : Time) (nonce : Id → Text) (c : SignatureCase)
    (rows : List SigningDocumentRow) (firstGroup : Nat) (signer : Signer) : Tx Unit := do
  let mode ← Transaction.demand (.thrown "CASE_SEND_EVIDENCE_INCOMPLETE")
    signer.identifierBindingMode
  let db ← Transaction.read
  let source := intentSource db now nonce signer mode
  Tables.intents.insert (preparedIntent db.organizationName c rows source)
  Transaction.forEach (fun r => Tables.intentDocuments.insert
    (intentDocument source.signingIntentId r.1 r.2)) (numbered rows)
  if signer.signingOrder = firstGroup then inviteFirst now source.expiresAt signer.id

def Db.signersInOrder (db : Db) (signatureCaseId : Id) : List Signer :=
  (db.signers.filter fun s => s.signatureCaseId == signatureCaseId).insertionSort fun a b =>
    a.signingOrder < b.signingOrder ∨ a.signingOrder = b.signingOrder ∧ a.id ≤ b.id

/-- `update app.document_versions set status='locked' …` of the ready versions of a case. -/
def lockVersions (now : Time) (signatureCaseId : Id) : Tx Nat := do
  let db ← Transaction.read
  (Tables.versions .client).update (fun v => v.status == .ready &&
      (db.document? v.documentId).any fun d => d.signatureCaseId == signatureCaseId)
    fun v => { v with status := .locked, lockedAt := some now }

/-- What `send` refuses before its first write, in the order in which it looks. -/
def sendChecks (db : Db) (c : SignatureCase) : Checks :=
  let documents := db.signingDocuments c.id
  let signers := db.signersInOrder c.id
  [(c.status != .ready, .thrown "CASE_NOT_SENDABLE"),
   (!documents.any fun d => d.1.documentRole != .attachment,
     .thrown "CASE_SEND_REQUIRES_A_SIGNABLE_DOCUMENT"),
   (20 < documents.length || documents.any fun d =>
     d.2.sha256.isNone || d.2.mimeType != "application/pdf".toList, .thrown "DOCUMENT_NOT_READY"),
   (documents.any fun d => d.2.status != .ready, .thrown "DOCUMENT_NOT_READY"),
   (!signers.any (·.required) ||
     signers.any fun s => s.email.isNone || s.identifierBindingMode.isNone,
     .thrown "CASE_SEND_EVIDENCE_INCOMPLETE")]

def Db.sendRows (db : Db) (signatureCaseId : Id) : List SigningDocumentRow :=
  (db.signingDocuments signatureCaseId).filterMap signingDocumentRow

def firstGroup (signers : List Signer) : Nat := (signers.map (·.signingOrder)).min?.getD 0

/-- `transitionCase`: `before` comes first, then the case gets its new status. -/
def transitionCase (signatureCaseId : Id) (status : CaseStatus) (eventType : EventType)
    (before : SignatureCase → Tx Unit) : Tx Unit := do
  let db ← Transaction.read
  let c ← Transaction.demand (.thrown "NOT_FOUND") (db.case? signatureCaseId)
  before c
  let _ ← (Tables.cases .client).update (fun c => c.id == signatureCaseId) fun c =>
    { c with status := status }
  outbox eventType signatureCaseId

/-- What `send` does before the case becomes `sent`. -/
def prepareIntents (now : Time) (nonce : Id → Text) (c : SignatureCase) : Tx Unit := do
  let db ← Transaction.read
  Transaction.check fun db => refuse (sendChecks db c)
  let _ ← lockVersions now c.id
  let signers := db.signersInOrder c.id
  Transaction.forEach (sendSigner now nonce c (db.sendRows c.id) (firstGroup signers)) signers
  outbox .document_locked c.id

def send (now : Time) (nonce : Id → Text) (signatureCaseId : Id) : Tx Unit :=
  transitionCase signatureCaseId .sent .signature_case_sent (prepareIntents now nonce)

def cancel (signatureCaseId : Id) : Tx Unit :=
  transitionCase signatureCaseId .cancelled .signature_case_cancelled fun _ => pure ()

/-! ## What the transaction leaves -/

/-- An intent with its documents. -/
def Db.withIntent (db : Db) (intent : SigningIntent) (documents : List SigningIntentDocument) :
    Db :=
  { db with
    intents := db.intents ++ [intent]
    intentDocuments := db.intentDocuments ++ documents }

/-- The documents that come with the intents, intent by intent. -/
def coveredDocuments (rows : List SigningDocumentRow) (prepared : List SigningIntent) :
    List SigningIntentDocument :=
  prepared.flatMap fun si => (numbered rows).map fun r => intentDocument si.id r.1 r.2

/-- The intent is one that a send prepares for the signer. -/
def PreparedFor (c : SignatureCase) (rows : List SigningDocumentRow) (signer : Signer)
    (si : SigningIntent) : Prop :=
  ∃ organizationName source, source.signer = signer ∧ si = preparedIntent organizationName c rows source

/-- What the loop over the signers adds: an intent for each, with all the documents. -/
structure Prepares (c : SignatureCase) (rows : List SigningDocumentRow) (signers : List Signer)
    (prepared : List SigningIntent) (db db' : Db) : Prop where
  intents : db'.intents = db.intents ++ prepared
  intentDocuments : db'.intentDocuments = db.intentDocuments ++ coveredDocuments rows prepared
  prepared : List.Forall₂ (PreparedFor c rows) signers prepared
  keyed : (db.intents.map (·.id)).Nodup → (db'.intents.map (·.id)).Nodup
  versions : db'.versions = db.versions
  documents : db'.documents = db.documents
  cases : db'.cases = db.cases

/-- The invitation that `inviteFirst` inserts, with its signer invited. -/
def Db.withFirstInvitation (db : Db) (now expiresAt : Time) (signerId : Id) : Db :=
  { db with
    invitations := db.invitations ++ [newInvitation db now signerId expiresAt]
    signers := assign (fun s => s.id == signerId) (fun s => { s with status := .invited }) db.signers
    events := db.events ++
      [⟨.outbox, .invitation_created, (newInvitation db now signerId expiresAt).id⟩] }

section Spec

variable {db db' : Db} {now : Time} {nonce : Id → Text} {c : SignatureCase}
  {rows : List SigningDocumentRow} {u : Unit}

theorem inviteFirst_eq {expiresAt : Time} {signerId : Id}
    (h : inviteFirst now expiresAt signerId db = .ok (u, db')) :
    (Tables.invitations.onInsert db (newInvitation db now signerId expiresAt) = .ok ()) ∧
      (∀ s ∈ db.signers, s.id = signerId → (Tables.signers .client).onUpdate
        { db with invitations := db.invitations ++ [newInvitation db now signerId expiresAt] }
        s { s with status := .invited } = .ok ()) ∧
      db' = db.withFirstInvitation now expiresAt signerId := by
  rw [inviteFirst, Transaction.read_bind] at h
  simp only [Transaction.bind_eq_ok] at h
  obtain ⟨_, db₁, h₁, _, db₂, h₂, h₃⟩ := h
  obtain ⟨hinsert, rfl⟩ := Table.insert_eq_ok.mp h₁
  obtain ⟨hupdate, rfl, -⟩ := Table.update_eq_ok.mp h₂
  obtain rfl := Transaction.rewrite_eq_ok.mp h₃
  exact ⟨hinsert, fun s hs he => hupdate s hs (by simpa using he), rfl⟩

theorem sendSigner_eq {firstGroup : Nat} {signer : Signer}
    (h : sendSigner now nonce c rows firstGroup signer db = .ok (u, db')) :
    ∃ mode, signer.identifierBindingMode = some mode ∧
      let source := intentSource db now nonce signer mode
      let intent := preparedIntent db.organizationName c rows source
      let documents := (numbered rows).map fun r => intentDocument intent.id r.1 r.2
      let db₁ := db.withIntent intent documents
      Tables.intents.onInsert db intent = .ok () ∧
        (∀ before r after, numbered rows = before ++ r :: after → Tables.intentDocuments.onInsert
          (db.withIntent intent (before.map fun r => intentDocument intent.id r.1 r.2))
          (intentDocument intent.id r.1 r.2) = .ok ()) ∧
        (signer.signingOrder = firstGroup ∧
            inviteFirst now source.expiresAt signer.id db₁ = .ok ((), db') ∨
          signer.signingOrder ≠ firstGroup ∧ db' = db₁) := by
  obtain ⟨mode, s₁, h₁, hrest⟩ := Transaction.bind_eq_ok.mp h
  obtain ⟨hmode, hs₁⟩ := Transaction.demand_eq_ok.mp h₁
  rw [hs₁, Transaction.read_bind] at hrest
  simp only [Transaction.bind_eq_ok] at hrest
  obtain ⟨_, db₁, h₁, _, db₂, h₂, h₃⟩ := hrest
  obtain ⟨hintent, rfl⟩ := Table.insert_eq_ok.mp h₁
  obtain ⟨rfl, hdocuments⟩ :=
    Table.forEach_insert (fun _ _ => rfl) (fun _ _ _ => rfl) (fun _ => rfl) h₂
  refine ⟨mode, hmode, hintent, hdocuments, ?_⟩
  by_cases hfirst : signer.signingOrder = firstGroup
  · rw [if_pos hfirst] at h₃
    exact Or.inl ⟨hfirst, h₃⟩
  · rw [if_neg hfirst] at h₃
    exact Or.inr ⟨hfirst, (Transaction.pure_eq_ok.mp h₃).2⟩

/-- What `send` has found in the case it accepts. -/
structure Sendable (db : Db) (c : SignatureCase) : Prop where
  ready : c.status = .ready
  signable : ∃ d ∈ db.signingDocuments c.id, d.1.documentRole = .signable
  documents : ∀ d ∈ db.signingDocuments c.id, d.2.sha256.isSome = true ∧ d.2.status = .ready
  signers : db.signersInOrder c.id ≠ []

theorem sendable_of_sendChecks (h : refuse (sendChecks db c) = .ok ()) : Sendable db c := by
  simp only [sendChecks, refuse_cons, refuse_nil, and_true, Bool.not_eq_false', Bool.or_eq_false_iff,
    List.any_eq_true, List.any_eq_false, bne_iff_ne, bne_eq_false_iff_eq, ne_eq, not_not] at h
  obtain ⟨hready, ⟨d, hd, hrole⟩, ⟨-, hsha⟩, hstatus, ⟨s, hs, -⟩, -⟩ := h
  refine ⟨hready, ⟨d, hd, ?_⟩, fun d hd => ⟨?_, hstatus d hd⟩, List.ne_nil_of_mem hs⟩
  · cases hr : d.1.documentRole with
    | signable => rfl
    | attachment => exact absurd hr hrole
  · have hd := hsha d hd
    rw [Bool.not_eq_true, Bool.or_eq_false_iff, Option.isNone_eq_false_iff] at hd
    exact hd.1

theorem transitionCase_eq {signatureCaseId : Id} {status : CaseStatus} {eventType : EventType}
    {before : SignatureCase → Tx Unit}
    (h : transitionCase signatureCaseId status eventType before db = .ok (u, db')) :
    ∃ c, db.case? signatureCaseId = some c ∧ c.id = signatureCaseId ∧
      ∃ db₁, before c db = .ok ((), db₁) ∧
      (∀ c ∈ db₁.cases, c.id = signatureCaseId →
        (Tables.cases .client).onUpdate db₁ c { c with status := status } = .ok ()) ∧
      db' = { db₁ with
        cases := assign (fun c => c.id == signatureCaseId) (fun c => { c with status := status })
          db₁.cases
        events := db₁.events ++ [⟨.outbox, eventType, signatureCaseId⟩] } := by
  rw [transitionCase, Transaction.read_bind] at h
  simp only [Transaction.bind_eq_ok] at h
  obtain ⟨c, s₁, hc, _, db₁, hbefore, n, db₂, hupdate, hevent⟩ := h
  obtain ⟨hc, hs₁⟩ := Transaction.demand_eq_ok.mp hc
  rw [hs₁] at hbefore
  obtain ⟨hok, rfl, -⟩ := Table.update_eq_ok.mp hupdate
  obtain rfl := Transaction.rewrite_eq_ok.mp hevent
  have hid : c.id = signatureCaseId := by
    rw [Db.case?] at hc
    exact (exists_of_find?_key hc).2
  exact ⟨c, hc, hid, db₁, hbefore, fun c hc he => hok c hc (by simpa using he), rfl⟩

theorem prepareIntents_eq (h : prepareIntents now nonce c db = .ok (u, db')) :
    Sendable db c ∧ ∃ n db₁ db₂, lockVersions now c.id db = .ok (n, db₁) ∧
      Transaction.forEach (sendSigner now nonce c (db.sendRows c.id)
        (firstGroup (db.signersInOrder c.id))) (db.signersInOrder c.id) db₁ = .ok ((), db₂) ∧
      db' = { db₂ with events := db₂.events ++ [⟨.outbox, .document_locked, c.id⟩] } := by
  rw [prepareIntents, Transaction.read_bind] at h
  simp only [Transaction.bind_eq_ok] at h
  obtain ⟨_, s₁, hchecks, n, db₁, hlock, _, db₂, hloop, hevent⟩ := h
  obtain ⟨hchecks, rfl⟩ := Transaction.check_eq_ok.mp hchecks
  exact ⟨sendable_of_sendChecks hchecks, n, db₁, db₂, hlock, hloop,
    Transaction.rewrite_eq_ok.mp hevent⟩

theorem PreparedFor.signerId {signer : Signer} {si : SigningIntent} (h : PreparedFor c rows signer si) :
    si.signerId = signer.id := by
  obtain ⟨_, source, rfl, rfl⟩ := h
  rfl

theorem PreparedFor.signatureCaseId {signer : Signer} {si : SigningIntent}
    (h : PreparedFor c rows signer si) : si.signatureCaseId = c.id := by
  obtain ⟨_, source, rfl, rfl⟩ := h
  rfl

theorem map_signerId_of_preparedFor {signers : List Signer} {prepared : List SigningIntent}
    (h : List.Forall₂ (PreparedFor c rows) signers prepared) :
    prepared.map (·.signerId) = signers.map (·.id) := by
  induction h with
  | nil => rfl
  | cons hsi _ ih => rw [List.map_cons, List.map_cons, ih, hsi.signerId]

theorem prepares_of_sendSigner {group : Nat} {signer : Signer}
    (h : sendSigner now nonce c rows group signer db = .ok (u, db')) :
    ∃ si, Prepares c rows [signer] [si] db db' := by
  obtain ⟨mode, -, -, -, hinvite⟩ := sendSigner_eq h
  have hprepares : Prepares c rows [signer]
      [preparedIntent db.organizationName c rows (intentSource db now nonce signer mode)] db
      (db.withIntent (preparedIntent db.organizationName c rows (intentSource db now nonce signer mode))
        ((numbered rows).map fun r =>
          intentDocument (intentSource db now nonce signer mode).signingIntentId r.1 r.2)) :=
    { intents := rfl
      intentDocuments := by simp [Db.withIntent, coveredDocuments, preparedIntent]
      prepared := List.Forall₂.cons ⟨_, _, rfl, rfl⟩ List.Forall₂.nil
      keyed := fun hkeys => by
        rw [Db.withIntent, List.map_append, List.nodup_append]
        refine ⟨hkeys, List.nodup_singleton _, fun k hk k' hk' heq => ?_⟩
        rw [List.mem_singleton.mp hk'] at heq
        exact freshKey_not_mem _ (heq ▸ hk)
      versions := rfl
      documents := rfl
      cases := rfl }
  rcases hinvite with ⟨-, hinvite⟩ | ⟨-, rfl⟩
  · obtain ⟨-, -, rfl⟩ := inviteFirst_eq hinvite
    exact ⟨_, { hprepares with }⟩
  · exact ⟨_, hprepares⟩

theorem prepares_of_forEach {group : Nat} : ∀ {signers : List Signer} {db : Db},
    Transaction.forEach (sendSigner now nonce c rows group) signers db = .ok (u, db') →
      ∃ prepared, Prepares c rows signers prepared db db'
  | [], db, h => by
    obtain ⟨-, rfl⟩ := Transaction.pure_eq_ok.mp h
    exact ⟨[], (List.append_nil _).symm, (List.append_nil _).symm, List.Forall₂.nil, id, rfl, rfl,
      rfl⟩
  | signer :: signers, db, h => by
    obtain ⟨_, db₁, h₁, h₂⟩ := Transaction.bind_eq_ok.mp h
    obtain ⟨si, hfirst⟩ := prepares_of_sendSigner h₁
    obtain ⟨prepared, hrest⟩ := prepares_of_forEach h₂
    refine ⟨si :: prepared, ?_, ?_, ?_, hrest.keyed ∘ hfirst.keyed,
      hrest.versions.trans hfirst.versions, hrest.documents.trans hfirst.documents,
      hrest.cases.trans hfirst.cases⟩
    · rw [hrest.intents, hfirst.intents, List.append_assoc, List.singleton_append]
    · rw [hrest.intentDocuments, hfirst.intentDocuments, List.append_assoc]
      simp [coveredDocuments]
    · cases hfirst.prepared with
      | cons hsi _ => exact List.Forall₂.cons hsi hrest.prepared

/-- The versions of the case that are ready, locked. -/
def Db.withLockedVersions (db : Db) (now : Time) (signatureCaseId : Id) : Db :=
  { db with
    versions := assign (fun v => v.status == .ready &&
        (db.document? v.documentId).any fun d => d.signatureCaseId == signatureCaseId)
      (fun v => { v with status := .locked, lockedAt := some now }) db.versions }

theorem lockVersions_eq {signatureCaseId : Id} {n : Nat}
    (h : lockVersions now signatureCaseId db = .ok (n, db')) :
    db' = db.withLockedVersions now signatureCaseId := by
  rw [lockVersions, Transaction.read_bind] at h
  exact (Table.update_eq_ok.mp h).2.1

theorem send_eq {signatureCaseId : Id} (h : send now nonce signatureCaseId db = .ok (u, db')) :
    ∃ c prepared db₁, db.case? signatureCaseId = some c ∧ c.id = signatureCaseId ∧ Sendable db c ∧
      Transaction.forEach (sendSigner now nonce c (db.sendRows c.id)
        (firstGroup (db.signersInOrder c.id))) (db.signersInOrder c.id)
          (db.withLockedVersions now c.id) = .ok ((), db₁) ∧
      Prepares c (db.sendRows c.id) (db.signersInOrder c.id) prepared
        (db.withLockedVersions now c.id) db₁ ∧
      db' = { db₁ with
        cases := assign (fun c => c.id == signatureCaseId) (fun c => { c with status := .sent })
          db₁.cases
        events := db₁.events ++ [⟨.outbox, .document_locked, c.id⟩] ++
          [⟨.outbox, .signature_case_sent, signatureCaseId⟩] } := by
  obtain ⟨c, hc, hid, db₁, hbefore, -, rfl⟩ := transitionCase_eq h
  obtain ⟨hsendable, n, db₂, db₃, hlock, hloop, rfl⟩ := prepareIntents_eq hbefore
  obtain rfl := lockVersions_eq hlock
  obtain ⟨prepared, hprepares⟩ := prepares_of_forEach hloop
  exact ⟨c, prepared, db₃, hc, hid, hsendable, hloop, hprepares, rfl⟩

theorem Sendable.sendRows_ne_nil (h : Sendable db c) : db.sendRows c.id ≠ [] := by
  obtain ⟨d, hd, -⟩ := h.signable
  obtain ⟨sha256, hsha⟩ := Option.isSome_iff_exists.mp (h.documents d hd).1
  have hrow : signingDocumentRow d = some ⟨d.1.id, d.2.id, d.1.displayName, sha256, d.2.byteSize,
      d.1.documentRole⟩ := by
    rw [signingDocumentRow, hsha, Option.map_some]
  exact List.ne_nil_of_mem (List.mem_filterMap.mpr ⟨d, hd, hrow⟩)

end Spec

end Kommunsign
