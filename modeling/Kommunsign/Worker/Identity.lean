import Kommunsign.Api.PublicSigning

/-!
# The identity jobs

`handleIdentityPoll` asks the provider for a session's status, `handleTicCollect` stores the
evidence of a completed one, and `handleSignatureValidate` has the evidence checked. Each reads the
session first and writes in one later transaction.

* `pollIdentity` — the status between the start and the end of a session
* `collectEvidence`, `failIdentityTransaction` — the two ends of collecting
-/

namespace Kommunsign

open Infra

/-- `update app.identity_transactions set status=… where … status in ('pending','user_action_required')`. -/
def endWaiting (actor : IdentityTransaction → IdentityTransaction) (identityTransactionId : Id) :
    Tx Nat :=
  Tables.identityTransactions.update
    (fun t => t.id == identityTransactionId && t.status.isWaiting) actor

/-- The transaction of `handleIdentityPoll`. -/
def pollIdentity (identityTransactionId : Id) (status : ProviderStatus) : Tx Unit := do
  match status with
  | .COMPLETED => enqueue (.ticEvidenceCollect identityTransactionId)
  | .CANCELLED => let _ ← endWaiting (fun t => { t with status := .cancelled }) identityTransactionId
  | .EXPIRED => let _ ← endWaiting (fun t => { t with status := .expired }) identityTransactionId
  | .FAILED => let _ ← endWaiting (fun t => { t with status := .failed }) identityTransactionId
  | .USER_ACTION_REQUIRED =>
    let _ ← endWaiting (fun t => { t with status := .user_action_required }) identityTransactionId
  | .PENDING => let _ ← endWaiting (fun t => { t with status := .pending }) identityTransactionId

/-- The session with the intent it was started for. -/
def loadStarted (db : Db) (identityTransactionId : Id) :
    Except Failure (IdentityTransaction × SigningIntent) :=
  orFail "IDENTITY_TRANSACTION_NOT_FOUND" do
    let it ← db.identityTransaction? identityTransactionId
    let si ← db.intent? (← it.signingIntentId)
    some (it, si)

/-- `update app.signers set status='failed' … where status not in ('signed','declined','cancelled')`. -/
def failSigner (signerId : Id) : Tx Nat :=
  (Tables.signers .worker).update (fun s => s.id == signerId && s.status != .signed &&
      s.status != .declined && s.status != .cancelled)
    fun s => { s with status := .failed }

/-- The status of an intent, when it has the one that the statement asks for. -/
def advanceIntent (signingIntentId : Id) (old new : IntentStatus) : Tx Nat :=
  Tables.intents.update (fun si => si.id == signingIntentId && si.status == old) fun si =>
    { si with status := new }

/-- The transaction of `handleTicCollect`; the session may have ended since it was read. -/
def collectEvidence (identityTransactionId : Id) (evidenceSha256 : Digest) : Tx Unit :=
  reading (loadStarted · identityTransactionId) fun row => do
    let _ ← endWaiting
      (fun t => { t with status := .complete_collected, evidenceSha256 := some evidenceSha256 })
      identityTransactionId
    let _ ← advanceIntent row.2.id .provider_started .evidence_collected
    enqueue (.signatureValidate identityTransactionId)
    audit .bankid_evidence_collected identityTransactionId
    outbox .bankid_evidence_collected identityTransactionId

/-- Collecting has found nothing that can be read. -/
def failIdentityTransaction (identityTransactionId : Id) : Tx Unit :=
  reading (loadStarted · identityTransactionId) fun row => do
    let _ ← endWaiting (fun t => { t with status := .failed }) identityTransactionId
    let _ ← advanceIntent row.2.id .provider_started .failed
    let _ ← failSigner row.2.signerId
    audit .bankid_evidence_failed identityTransactionId
    outbox .bankid_evidence_failed identityTransactionId

/-- The read of `handleSignatureValidate`; a verified session needs no run. -/
def readSignatureValidate (db : Db) (identityTransactionId : Id) : Except Failure Bool := do
  let row ← loadStarted db identityTransactionId
  if row.1.status = .verified then .ok false
  else if row.1.status = .complete_collected then .ok true
  else .error (.thrown "SIGNATURE_VALIDATE_STATE_INVALID")

/-- `insert into app.tic_identity_artifacts … on conflict do nothing`. -/
def insertIdentityArtifact (artifact : IdentityArtifact) : Tx Unit := do
  let db ← Transaction.read
  if db.identityArtifacts.any fun a => a.provider == artifact.provider &&
      a.identityTransactionId == artifact.identityTransactionId then pure ()
  else Tables.identityArtifacts.insert artifact

/-- The evidence did not hold: the session, the intent and the signer fail. -/
def recordFailedVerification (identityTransactionId : Id) (si : SigningIntent) : Tx Unit := do
  let _ ← Tables.identityTransactions.update (fun t => t.id == identityTransactionId) fun t =>
    { t with status := .failed }
  let _ ← advanceIntent si.id .evidence_collected .failed
  let _ ← failSigner si.signerId
  audit .bankid_evidence_failed identityTransactionId
  outbox .bankid_evidence_failed identityTransactionId

/-- The evidence held: the person is identified, and the signatures can be made. -/
def recordPassedVerification (identityTransactionId : Id) (si : SigningIntent) : Tx Unit := do
  let _ ← Tables.identityTransactions.update
    (fun t => t.id == identityTransactionId && t.status == .complete_collected) fun t =>
      { t with status := .verified }
  let _ ← advanceIntent si.id .evidence_collected .verified
  let _ ← (Tables.signers .worker).update
    (fun s => s.id == si.signerId && s.status == .identity_started) fun s =>
      { s with status := .identity_verified }
  enqueue (.padesCreate si.id)
  audit .bankid_evidence_verified identityTransactionId
  audit .signer_identity_verified si.signerId
  outbox .signer_identity_verified si.signerId

/-- The transaction of `handleSignatureValidate`, for a report that passed or did not. -/
def recordVerification (identityTransactionId : Id) (pass : Bool) : Tx Unit :=
  reading (loadStarted · identityTransactionId) fun row => do
    insertIdentityArtifact ⟨.TIC_BANKID, identityTransactionId, row.2.id, pass⟩
    if pass then recordPassedVerification identityTransactionId row.2
    else recordFailedVerification identityTransactionId row.2

/-! ## What the transactions leave -/

section Spec

variable {db db' : Db} {t : Id} {u : Unit}

theorem loadStarted_eq_ok {row : IdentityTransaction × SigningIntent} :
    loadStarted db t = .ok row ↔ db.identityTransaction? t = some row.1 ∧
      ∃ signingIntentId, row.1.signingIntentId = some signingIntentId ∧
        db.intent? signingIntentId = some row.2 := by
  obtain ⟨it, si⟩ := row
  simp only [loadStarted, orFail_eq_ok, Option.bind_eq_bind, Option.bind_eq_some_iff,
    Option.some.injEq, Prod.mk.injEq]
  constructor
  · rintro ⟨it, hit, signingIntentId, hof, si, hsi, rfl, rfl⟩
    exact ⟨hit, signingIntentId, hof, hsi⟩
  · rintro ⟨hit, signingIntentId, hof, hsi⟩
    exact ⟨it, hit, signingIntentId, hof, si, hsi, rfl, rfl⟩

theorem collectEvidence_eq {evidenceSha256 : Digest}
    (h : collectEvidence t evidenceSha256 db = .ok (u, db')) :
    ∃ row, loadStarted db t = .ok row ∧
      db'.intents = assign (fun si => si.id == row.2.id && si.status == .provider_started)
        (fun si => { si with status := .evidence_collected }) db.intents := by
  obtain ⟨row, hrow, h⟩ := reading_eq_ok h
  simp only [Transaction.bind_eq_ok, endWaiting, advanceIntent] at h
  obtain ⟨_, db₁, h₁, _, db₂, h₂, _, db₃, h₃, _, db₄, h₄, h₅⟩ := h
  obtain ⟨-, rfl, -⟩ := Table.update_eq_ok.mp h₁
  obtain ⟨-, rfl, -⟩ := Table.update_eq_ok.mp h₂
  obtain rfl := Transaction.rewrite_eq_ok.mp h₃
  obtain rfl := Transaction.rewrite_eq_ok.mp h₄
  obtain rfl := Transaction.rewrite_eq_ok.mp h₅
  exact ⟨row, hrow, rfl⟩

theorem insertIdentityArtifact_eq {artifact : IdentityArtifact}
    (h : insertIdentityArtifact artifact db = .ok (u, db')) :
    (∃ a ∈ db.identityArtifacts, a.identityTransactionId = artifact.identityTransactionId) ∧
        db' = db ∨
      db' = { db with identityArtifacts := db.identityArtifacts ++ [artifact] } := by
  rw [insertIdentityArtifact, Transaction.read_bind, Transaction.ite_apply] at h
  split at h
  · next hthere =>
    obtain ⟨a, ha, hsame⟩ := List.any_eq_true.mp hthere
    rw [Bool.and_eq_true, beq_iff_eq, beq_iff_eq] at hsame
    exact Or.inl ⟨⟨a, ha, hsame.2⟩, (Transaction.pure_eq_ok.mp h).2⟩
  · exact Or.inr (Table.insert_eq_ok.mp h).2

theorem recordPassedVerification_eq {si : SigningIntent}
    (h : recordPassedVerification t si db = .ok (u, db')) :
    db'.intents = assign (fun row => row.id == si.id && row.status == .evidence_collected)
        (fun row => { row with status := .verified }) db.intents ∧
      db'.signers = assign (fun s => s.id == si.signerId && s.status == .identity_started)
        (fun s => { s with status := .identity_verified }) db.signers ∧
      db'.identityArtifacts = db.identityArtifacts := by
  simp only [recordPassedVerification, Transaction.bind_eq_ok, advanceIntent] at h
  obtain ⟨_, db₁, h₁, _, db₂, h₂, _, db₃, h₃, _, db₄, h₄, _, db₅, h₅, _, db₆, h₆, h₇⟩ := h
  obtain ⟨-, rfl, -⟩ := Table.update_eq_ok.mp h₁
  obtain ⟨-, rfl, -⟩ := Table.update_eq_ok.mp h₂
  obtain ⟨-, rfl, -⟩ := Table.update_eq_ok.mp h₃
  obtain rfl := Transaction.rewrite_eq_ok.mp h₄
  obtain rfl := Transaction.rewrite_eq_ok.mp h₅
  obtain rfl := Transaction.rewrite_eq_ok.mp h₆
  obtain rfl := Transaction.rewrite_eq_ok.mp h₇
  exact ⟨rfl, rfl, rfl⟩

theorem recordFailedVerification_eq {si : SigningIntent}
    (h : recordFailedVerification t si db = .ok (u, db')) :
    db'.intents = assign (fun row => row.id == si.id && row.status == .evidence_collected)
        (fun row => { row with status := .failed }) db.intents ∧
      db'.identityArtifacts = db.identityArtifacts := by
  simp only [recordFailedVerification, Transaction.bind_eq_ok, advanceIntent, failSigner] at h
  obtain ⟨_, db₁, h₁, _, db₂, h₂, _, db₃, h₃, _, db₄, h₄, h₅⟩ := h
  obtain ⟨-, rfl, -⟩ := Table.update_eq_ok.mp h₁
  obtain ⟨-, rfl, -⟩ := Table.update_eq_ok.mp h₂
  obtain ⟨-, rfl, -⟩ := Table.update_eq_ok.mp h₃
  obtain rfl := Transaction.rewrite_eq_ok.mp h₄
  obtain rfl := Transaction.rewrite_eq_ok.mp h₅
  exact ⟨rfl, rfl⟩

/-- The artifacts after a check of a session's evidence, and the intent's status. -/
structure Checked (t : Id) (pass : Bool) (row : IdentityTransaction × SigningIntent) (db db' : Db) :
    Prop where
  artifacts : (∃ a ∈ db.identityArtifacts, a.identityTransactionId = t) ∧
      db'.identityArtifacts = db.identityArtifacts ∨
    db'.identityArtifacts = db.identityArtifacts ++ [⟨.TIC_BANKID, t, row.2.id, pass⟩]
  intents : db'.intents = assign (fun si => si.id == row.2.id && si.status == .evidence_collected)
    (fun si => { si with status := if pass then .verified else .failed }) db.intents
  signers : pass = true → db'.signers = assign
    (fun s => s.id == row.2.signerId && s.status == .identity_started)
    (fun s => { s with status := .identity_verified }) db.signers

theorem recordVerification_eq {pass : Bool} (h : recordVerification t pass db = .ok (u, db')) :
    ∃ row, loadStarted db t = .ok row ∧ Checked t pass row db db' := by
  obtain ⟨row, hrow, h⟩ := reading_eq_ok h
  obtain ⟨_, db₁, hinsert, h⟩ := Transaction.bind_eq_ok.mp h
  refine ⟨row, hrow, ?_⟩
  have hartifacts := insertIdentityArtifact_eq hinsert
  have hintents : db₁.intents = db.intents := by
    rcases hartifacts with ⟨-, rfl⟩ | rfl <;> rfl
  have hsigners : db₁.signers = db.signers := by
    rcases hartifacts with ⟨-, rfl⟩ | rfl <;> rfl
  have hinserted : (∃ a ∈ db.identityArtifacts, a.identityTransactionId = t) ∧
        db₁.identityArtifacts = db.identityArtifacts ∨
      db₁.identityArtifacts = db.identityArtifacts ++ [⟨.TIC_BANKID, t, row.2.id, pass⟩] := by
    rcases hartifacts with ⟨hthere, rfl⟩ | rfl
    · exact Or.inl ⟨hthere, rfl⟩
    · exact Or.inr rfl
  cases pass with
  | true =>
    obtain ⟨hintents', hsigners', hkept⟩ := recordPassedVerification_eq h
    rw [hintents] at hintents'
    rw [hsigners] at hsigners'
    rw [← hkept] at hinserted
    exact ⟨hinserted, hintents', fun _ => hsigners'⟩
  | false =>
    obtain ⟨hintents', hkept⟩ := recordFailedVerification_eq h
    rw [hintents] at hintents'
    rw [← hkept] at hinserted
    exact ⟨hinserted, hintents', nofun⟩

end Spec

end Kommunsign
