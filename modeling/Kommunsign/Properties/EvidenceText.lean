import Kommunsign.Api.PublicSigning
import Kommunsign.Api.Send
import Kommunsign.Infra.JsonRoundtrip
import Kommunsign.Infra.Moved

/-!
# The payload at `send` and the payload at the start of BankID

`send` stores the payload of an intent with a `role` in every document. Starting BankID lays the
payload out once more, from the stored one and the rows it is joined with: the documents lose
their role, and the exception code of a signer without a prebound identifier is not handed on.
The provider is therefore never asked to have the stored payload signed.

* `StartSendsPayload` — starting the intent does not fail and sends what is stored
* `not_startSendsPayload_of_send` — every case that `send` accepts has prepared such intents
-/

namespace Kommunsign

open Infra

/--
Joined with the rows of a case and a signer, the intent can be started, and the text for the
provider is the stored payload.
-/
def StartSendsPayload (tenantId : Text) (c : SignatureCase) (s : Signer) (si : SigningIntent) :
    Prop :=
  ∃ input, startInput tenantId si c s = .ok input ∧
    bankIdEvidenceText input = .ok si.nonVisiblePayload

def Starts (db : Db) (now : Time) (invitationId : Id) (si : SigningIntent) : Prop :=
  ∃ resolved, resolveInvitation db now invitationId = .ok resolved ∧
    db.startableIntent? resolved.signerId = some si

theorem startsSendsPayload_of_startSession {db : Db} {now : Time} {invitationId : Id}
    {si : SigningIntent} {start : StartInput} (hstarts : Starts db now invitationId si)
    (h : startSession db now invitationId = .ok (start, si.nonVisiblePayload)) :
    ∃ c s, StartSendsPayload db.tenantId c s si := by
  obtain ⟨resolved, hresolved, hsi⟩ := hstarts
  obtain ⟨resolved', hresolved', h⟩ := except_bind_eq_ok.mp h
  obtain rfl : resolved = resolved' := by
    rw [hresolved'] at hresolved
    exact (Except.ok.inj hresolved).symm
  obtain ⟨start', hload, h⟩ := except_bind_eq_ok.mp h
  obtain ⟨text, htext, h⟩ := except_bind_eq_ok.mp h
  obtain ⟨rfl, rfl⟩ := Prod.mk.inj (Except.ok.inj h)
  obtain ⟨c, s, -, -, hinput, -⟩ := loadStartInput_eq_ok hsi hload
  exact ⟨c, s, _, hinput, htext⟩

/-! ## What each of the two lays out -/

theorem bankIdEvidenceText_eq_ok {input : StartIdentitySignature} {text : Text}
    (h : bankIdEvidenceText input = .ok text) :
    ∃ payload, bankIdEvidencePayload input = .ok payload ∧ canonicalJson payload = text := by
  obtain ⟨payload, hp, h⟩ := except_bind_eq_ok.mp h
  exact ⟨payload, hp, Except.ok.inj h⟩

theorem evidenceDocuments_eq_ok : ∀ {documents : List SigningIntentDocumentSnapshot}
    {ordinal : Nat} {items : List Json}, evidenceDocuments ordinal documents = .ok items →
      ∀ item ∈ items, ∃ document, item = Json.object (evidenceDocument document)
  | [], _, _, h, item, hi => by
    cases h
    exact absurd hi List.not_mem_nil
  | document :: documents, ordinal, items, h, item, hi => by
    obtain ⟨_, -, h⟩ := except_bind_eq_ok.mp h
    obtain ⟨rest, hrest, h⟩ := except_bind_eq_ok.mp h
    cases Except.ok.inj h
    rcases List.mem_cons.mp hi with rfl | hi
    · exact ⟨document, rfl⟩
    · exact evidenceDocuments_eq_ok hrest item hi

theorem bankIdEvidencePayload_eq_ok {input : StartIdentitySignature} {payload : Json}
    (h : bankIdEvidencePayload input = .ok payload) :
    ∃ members documents, payload = Json.object members ∧
      (∀ value, ("documents", value) ∈ members → value = .arr documents) ∧
      ∀ item ∈ documents, ∃ document, item = Json.object (evidenceDocument document) := by
  obtain ⟨documents, hdocuments, h⟩ := except_bind_eq_ok.mp h
  obtain ⟨_, -, h⟩ := except_bind_eq_ok.mp h
  cases Except.ok.inj h
  exact ⟨_, documents, rfl, by simp, evidenceDocuments_eq_ok hdocuments⟩

/-! ## They never agree -/

variable {c : SignatureCase} {rows : List SigningDocumentRow} {source : IntentSource}

theorem canonical_sendDocument_ne (row : SigningDocumentRow) (ordinal : Nat)
    (document : SigningIntentDocumentSnapshot) :
    Json.canonical (sendDocument row ordinal) ≠
      Json.canonical (Json.object (evidenceDocument document)) := by
  intro h
  have hrole : ("role", Json.str row.documentRole.name) ∈
      evidenceDocument (sendSnapshot row ordinal) ++ [("role", .str row.documentRole.name)] :=
    List.mem_append_right _ List.mem_cons_self
  obtain ⟨value, hvalue, -⟩ := Json.exists_mem_of_canonical_object_eq h hrole
  simp [evidenceDocument] at hvalue

theorem canonicalJson_sendPayload_ne {input : StartIdentitySignature} {payload : Json}
    (hrows : rows ≠ []) (hpayload : bankIdEvidencePayload input = .ok payload) :
    canonicalJson payload ≠ canonicalJson (sendPayload c rows source) := by
  intro h
  obtain ⟨members, documents, rfl, hdocuments, hitems⟩ := bankIdEvidencePayload_eq_ok hpayload
  -- The documents of both are under one name, so they agree one by one.
  have hcanonical := (Json.eq_of_canonical_render_eq h).symm
  have hstored : ("documents", Json.arr ((numbered rows).map fun r => sendDocument r.1 r.2)) ∈
      sendMembers c rows source := by
    simp [sendMembers]
  obtain ⟨value, hvalue, hcanonical⟩ := Json.exists_mem_of_canonical_object_eq hcanonical hstored
  obtain rfl := hdocuments value hvalue
  have hall := Json.forall₂_of_canonical_eq hcanonical
  -- The first document of the stored payload has a role.
  obtain ⟨row, rest, rfl⟩ := List.exists_cons_of_ne_nil hrows
  rw [numbered, List.zipIdx_cons, List.map_cons] at hall
  cases hall with
  | cons hfirst _ =>
    obtain ⟨document, rfl⟩ := hitems _ List.mem_cons_self
    exact canonical_sendDocument_ne row 1 document hfirst.symm

theorem not_startSendsPayload {organizationName : Option Text} (hrows : rows ≠ [])
    (tenantId : Text) (c' : SignatureCase) (s : Signer) :
    ¬StartSendsPayload tenantId c' s (preparedIntent organizationName c rows source) := by
  rintro ⟨input, -, htext⟩
  obtain ⟨payload, hpayload, heq⟩ := bankIdEvidenceText_eq_ok htext
  exact canonicalJson_sendPayload_ne hrows hpayload heq

/--
Whatever case is accepted, it has intents, and none of them can be started on its stored payload,
whichever case and signer rows it is joined with.
-/
theorem not_startSendsPayload_of_send {db db' : Db} {now : Time} {nonce : Id → Text}
    {signatureCaseId : Id} (h : (send now nonce signatureCaseId).outcome db = some db') :
    ∃ prepared, prepared ≠ [] ∧ db'.intents = db.intents ++ prepared ∧
      ∀ si ∈ prepared, (∀ tenantId c s, ¬StartSendsPayload tenantId c s si) ∧
        ∀ db₁ now₁ invitationId start, Starts db₁ now₁ invitationId si →
          startSession db₁ now₁ invitationId ≠ .ok (start, si.nonVisiblePayload) := by
  obtain ⟨_, h⟩ := Transaction.outcome_eq_some.mp h
  obtain ⟨c, prepared, db₁, -, -, hsendable, -, hprepares, rfl⟩ := send_eq h
  have hall := hprepares.prepared
  have hnever : ∀ si ∈ prepared, ∀ tenantId c s, ¬StartSendsPayload tenantId c s si := by
    intro si hsi tenantId c' s
    -- Every prepared intent is the one of some signer.
    obtain ⟨_, -, organizationName, source, -, rfl⟩ := exists_left_of_forall₂ hall hsi
    exact not_startSendsPayload hsendable.sendRows_ne_nil tenantId c' s
  refine ⟨prepared, ?_, hprepares.intents, fun si hsi => ⟨hnever si hsi, ?_⟩⟩
  · rintro rfl
    exact hsendable.signers (List.forall₂_nil_right_iff.mp hall)
  · intro db₁ now₁ invitationId start hstarts hstart
    obtain ⟨c, s, hsends⟩ := startsSendsPayload_of_startSession hstarts hstart
    exact hnever si hsi db₁.tenantId c s hsends

/-! ## A case with a signer of each kind -/

/-- A case that is ready, with a document to sign, an attachment and two signers. -/
def readyCase : Db :=
  { Db.empty with
    tenantId := "1".toList
    ticBankIdRolloutEnabled := true
    cases := [{
      id := 1
      status := .ready
      externalReference := none
      expiresAt := none
      decisionMode := .ELECTRONIC_SIGNATURE
      policyId := 1
      policyVersion := 1
      policySnapshot := Json.object [("requiredPadesLevel", Json.lit "B")] }]
    documents := [
      ⟨1, 1, "Avtal.pdf".toList, .signable, 0⟩,
      ⟨2, 1, "Bilaga.pdf".toList, .attachment, 0⟩]
    versions := [readyVersion 1, readyVersion 2]
    signers := [
      readySigner 1 .STRICT_PREBOUND (some "191212121212".toList) none,
      readySigner 2 .BANKID_DISCOVERED none (some "NO_PERSONAL_NUMBER".toList)] }
where
  readyVersion (id : Id) : DocumentVersion := {
    id := id
    documentId := id
    version := 1
    canonicalObjectKey := some (.canonical id)
    mimeType := "application/pdf".toList
    byteSize := 1000
    sha256 := some (100 + id)
    lockedAt := none
    status := .ready }
  readySigner (id : Id) (mode : BindingMode) (expected exception : Option Text) : Signer := {
    id := id
    signatureCaseId := 1
    expectedIdentifier := expected
    signingOrder := 1
    required := true
    email := some "a@b.se".toList
    identifierBindingMode := some mode
    identifierBindingExceptionCode := exception
    hardBouncedAt := none
    complainedAt := none
    status := .pending }

def readyNonce (signerId : Id) : Text := idText signerId

theorem not_startSendsPayload_of_send_readyCase : ∃ prepared : List SigningIntent,
    prepared ≠ [] ∧ ∀ si ∈ prepared, ∀ tenantId c s, ¬StartSendsPayload tenantId c s si := by
  obtain ⟨db', h⟩ : ∃ db', (send 1 readyNonce 1).outcome readyCase = some db' :=
    Option.isSome_iff_exists.mp (by decide +kernel)
  obtain ⟨prepared, hne, -, hall⟩ := not_startSendsPayload_of_send h
  exact ⟨prepared, hne, fun si hsi => (hall si hsi).1⟩

/--
Both signers hold a valid invitation. The prebound one sends another text than the stored one, and
the other one cannot be started.
-/
theorem not_startSession_payload : ∃ db' ∈ (send 1 readyNonce 1).outcome readyCase,
    (∃ si ∈ db'.intents, ∃ r ∈ (startSession db' 1 0).toOption,
      r.1.signingIntentId = si.id ∧ r.2 ≠ si.nonVisiblePayload) ∧
    startSession db' 1 1 = .error (.thrown "PERSONAL_NUMBER_EXCEPTION_NOT_ALLOWED") := by
  decide +kernel

end Kommunsign
