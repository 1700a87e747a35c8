import Kommunsign.Data.Tables
import Kommunsign.Worker.Identity

/-!
# The jobs of a case, and the turn of its signers

Invites the signers whose turn has come, once a signer before them has signed.

* `Db.nextSigningGroup?`, `Db.groupSigners` — the group and its signers
* `inviteSigner`, `activateNextSigningGroup` — the statements
* `sendReminders` — `handleReminder`: a new invitation for those who can act now
-/

namespace Kommunsign

open Infra

/-- `min(s.signing_order)` over the pending signers of the case whose turn is not blocked. -/
def Db.nextSigningGroup? (db : Db) (signatureCaseId : Id) : Option Nat :=
  ((db.signers.filter fun s => s.signatureCaseId == signatureCaseId && s.status == .pending &&
    !db.signingTurnBlocked s.id).map (·.signingOrder)).min?

/-- The pending signers of the group, each with the expiry of its intents. -/
def Db.groupSigners (db : Db) (signatureCaseId group : Nat) : List (Id × Time) :=
  (db.signers.filter fun s => s.signatureCaseId == signatureCaseId && s.signingOrder == group &&
    s.status == .pending).flatMap fun s =>
      (db.intents.filter fun si => si.signerId == s.id).map fun si => (s.id, si.expiresAt)

/-- An invitation that has not been opened, used or revoked. -/
def newInvitation (db : Db) (now : Time) (signerId : Id) (expiresAt : Time) : SignerInvitation where
  id := freshKey (db.invitations.map (·.id))
  signerId := signerId
  expiresAt := expiresAt
  createdAt := now
  firstOpenedAt := none
  usedAt := none
  revokedAt := none

/-- The statements for one signer of the group. -/
def inviteSigner (now : Time) (signer : Id × Time) : Tx Unit := do
  let db ← Transaction.read
  Tables.invitations.insert (newInvitation db now signer.1 signer.2)
  let _ ← (Tables.signers .trustedService).update
    (fun s => s.id == signer.1 && s.status == .pending) fun s => { s with status := .invited }
  audit .invitation_created signer.1

def activateNextSigningGroup (now : Time) (signatureCaseId : Id) : Tx Unit := do
  let db ← Transaction.read
  match db.nextSigningGroup? signatureCaseId with
  | none | some 0 => pure ()
  | some group => Transaction.forEach (inviteSigner now) (db.groupSigners signatureCaseId group)

theorem activateNextSigningGroup_eq {now : Time} {c : Id} {db db' : Db} {u : Unit}
    (h : activateNextSigningGroup now c db = .ok (u, db')) :
    (db.nextSigningGroup? c = none ∨ db.nextSigningGroup? c = some 0) ∧ db' = db ∨
      ∃ group, db.nextSigningGroup? c = some group ∧
        Transaction.forEach (inviteSigner now) (db.groupSigners c group) db = .ok ((), db') := by
  rw [activateNextSigningGroup, Transaction.read_bind] at h
  cases hgroup : db.nextSigningGroup? c with
  | none =>
    rw [hgroup] at h
    exact Or.inl ⟨Or.inl rfl, (Transaction.pure_eq_ok.mp h).2⟩
  | some group =>
    rw [hgroup] at h
    cases group with
    | zero => exact Or.inl ⟨Or.inr rfl, (Transaction.pure_eq_ok.mp h).2⟩
    | succ group => exact Or.inr ⟨group + 1, rfl, h⟩

/-!
# The jobs of a case
-/

/-! ## Reminders -/

/-- The signers of a case who can act now, with the expiry of the case. -/
def Db.remindableSigners (db : Db) (now : Time) (signatureCaseId : Id) : List (Id × Option Time) :=
  (db.signers.filter fun s => s.signatureCaseId == signatureCaseId &&
      (s.status == .invited || s.status == .opened) &&
      s.hardBouncedAt.isNone && s.complainedAt.isNone).flatMap fun s =>
    (db.cases.filter fun c => c.id == s.signatureCaseId && c.status.isOpen &&
      c.expiresAt.all (now < ·) && !db.signingTurnBlocked s.id).map fun c => (s.id, c.expiresAt)

/-- The invitations of a signer that still open something, in the eyes of the statement. -/
def isLive (i : SignerInvitation) : Bool := i.usedAt.isNone && i.revokedAt.isNone

/-- The token is rotated: the live invitations are revoked and a new one is inserted. -/
def remindSigner (now : Time) (signer : Id × Option Time) : Tx Unit := do
  let _ ← Tables.invitations.update (fun i => i.signerId == signer.1 && isLive i) fun i =>
    { i with revokedAt := some now }
  let db ← Transaction.read
  Tables.invitations.insert (newInvitation db now signer.1 (signer.2.getD (now + 7 * 86400000)))
  audit .invitation_revoked signer.1
  audit .invitation_created signer.1

def sendReminders (now : Time) (signatureCaseId : Id) : Tx Unit := do
  let db ← Transaction.read
  Transaction.forEach (remindSigner now) (db.remindableSigners now signatureCaseId)

/-! ## Expiry -/

/-- The statuses in which there is nothing to expire. -/
def CaseStatus.isClosed : CaseStatus → Bool
  | .completed | .declined | .expired | .cancelled | .failed | .archived => true
  | _ => false

/-- The signers that `handleCaseExpire` leaves as they are. -/
def SignerStatus.isFinal : SignerStatus → Bool
  | .signed | .declined | .cancelled | .failed => true
  | _ => false

/-- The statements that expire a case, its signers and their live invitations. -/
def expireRows (now : Time) (signatureCaseId : Id) : Tx Unit := do
  let _ ← (Tables.cases .worker).update (fun c => c.id == signatureCaseId) fun c =>
    { c with status := .expired }
  let _ ← (Tables.signers .worker).update
    (fun s => s.signatureCaseId == signatureCaseId && !s.status.isFinal) fun s =>
      { s with status := .expired }
  let db ← Transaction.read
  let _ ← Tables.invitations.update
    (fun i => (db.signer? i.signerId).any (·.signatureCaseId == signatureCaseId) && isLive i)
    fun i => { i with revokedAt := some now }
  audit .case_expired signatureCaseId
  outbox .case_expired signatureCaseId

def expireCase (now : Time) (signatureCaseId : Id) : Tx Unit := do
  let db ← Transaction.read
  let c ← Transaction.demand (.thrown "SIGNATURE_CASE_NOT_FOUND") (db.case? signatureCaseId)
  if c.status.isClosed then pure ()
  else
    Transaction.require (c.expiresAt.any (· ≤ now)) (.thrown "CASE_NOT_EXPIRED_YET")
    expireRows now signatureCaseId

/-! ## Evidence packages -/

/-- The package of a signer, or of the whole case when there is no signer. -/
def buildEvidencePackage (signatureCaseId : Id) (signerId : Option Id) : Tx Unit := do
  let db ← Transaction.read
  if db.evidencePackages.any fun p =>
      p.signatureCaseId == signatureCaseId && p.signerId == signerId then pure ()
  else
    Transaction.rewrite fun db =>
      { db with evidencePackages := db.evidencePackages ++ [⟨signatureCaseId, signerId⟩] }
    match signerId with
    | some signerId =>
      let _ ← Tables.intents.update (fun si => si.signatureCaseId == signatureCaseId &&
          si.signerId == signerId && si.status == .verified)
        fun si => { si with status := .packaged }
    | none =>
      let _ ← endOpenCase .worker signatureCaseId .completed
      audit .case_completed signatureCaseId
      outbox .case_completed signatureCaseId
    audit .evidence_package_ready signatureCaseId
    outbox .evidence_package_ready signatureCaseId

section Spec

variable {db db' : Db} {c : Id} {signerId : Option Id} {u : Unit}

theorem any_evidencePackages_iff : (db.evidencePackages.any fun p =>
    p.signatureCaseId == c && p.signerId == signerId) = true ↔ ⟨c, signerId⟩ ∈ db.evidencePackages := by
  rw [List.any_eq_true]
  constructor
  · rintro ⟨⟨c', signerId'⟩, hmem, hp⟩
    rw [Bool.and_eq_true, beq_iff_eq, beq_iff_eq] at hp
    obtain ⟨rfl, rfl⟩ := hp
    exact hmem
  · exact fun hmem => ⟨_, hmem, by simp⟩

/-- The state with the package of the case, which is completed if it was open. -/
def Db.withCasePackage (db : Db) (signatureCaseId : Id) : Db :=
  { db with
    evidencePackages := db.evidencePackages ++ [⟨signatureCaseId, none⟩]
    cases := assign (fun c => c.id == signatureCaseId && c.status.isOpen)
      (fun c => { c with status := .completed }) db.cases
    events := db.events ++ [⟨.audit, .case_completed, signatureCaseId⟩,
      ⟨.outbox, .case_completed, signatureCaseId⟩, ⟨.audit, .evidence_package_ready, signatureCaseId⟩,
      ⟨.outbox, .evidence_package_ready, signatureCaseId⟩] }

theorem buildEvidencePackage_eq (h : buildEvidencePackage c none db = .ok (u, db')) :
    (⟨c, none⟩ ∈ db.evidencePackages ∧ db' = db) ∨
      (⟨c, none⟩ ∉ db.evidencePackages ∧ db' = db.withCasePackage c) := by
  rw [buildEvidencePackage, Transaction.read_bind] at h
  by_cases hbuilt : ⟨c, none⟩ ∈ db.evidencePackages
  · rw [if_pos (any_evidencePackages_iff.mpr hbuilt)] at h
    exact Or.inl ⟨hbuilt, (Transaction.pure_eq_ok.mp h).2⟩
  · rw [if_neg (mt any_evidencePackages_iff.mp hbuilt)] at h
    refine Or.inr ⟨hbuilt, ?_⟩
    simp only [Transaction.bind_eq_ok] at h
    obtain ⟨_, db₁, h₁, _, db₃, h₃, _, db₄, h₄, _, db₅, h₅, _, db₆, h₆, h₇⟩ := h
    obtain rfl := Transaction.rewrite_eq_ok.mp h₁
    obtain ⟨-, rfl, -⟩ := Table.update_eq_ok.mp h₃
    obtain rfl := Transaction.rewrite_eq_ok.mp h₄
    obtain rfl := Transaction.rewrite_eq_ok.mp h₅
    obtain rfl := Transaction.rewrite_eq_ok.mp h₆
    obtain rfl := Transaction.rewrite_eq_ok.mp h₇
    simp only [Db.withCasePackage, Tables.cases, List.append_assoc, List.cons_append, List.nil_append]

theorem expireCase_signers {now : Time} (h : expireCase now c db = .ok (u, db')) : db' = db ∨
    db'.signers = assign (fun s => s.signatureCaseId == c && !s.status.isFinal)
      (fun s => { s with status := .expired }) db.signers := by
  rw [expireCase, Transaction.read_bind] at h
  obtain ⟨row, db₁, h₁, h₂⟩ := Transaction.bind_eq_ok.mp h
  obtain ⟨-, rfl⟩ := Transaction.demand_eq_ok.mp h₁
  by_cases hclosed : row.status.isClosed = true
  · rw [if_pos hclosed] at h₂
    exact Or.inl (Transaction.pure_eq_ok.mp h₂).2
  · rw [if_neg hclosed] at h₂
    simp only [expireRows, Transaction.bind_eq_ok] at h₂
    obtain ⟨_, db₂, hrequire, _, db₃, h₃, _, db₄, h₄, _, db₅, h₅, _, db₆, h₆, _, db₇, h₇, h₈⟩ := h₂
    obtain ⟨-, rfl⟩ := Transaction.require_eq_ok.mp hrequire
    obtain ⟨-, rfl, -⟩ := Table.update_eq_ok.mp h₃
    obtain ⟨-, rfl, -⟩ := Table.update_eq_ok.mp h₄
    obtain ⟨-, rfl⟩ := Transaction.read_eq_ok.mp h₅
    obtain ⟨-, rfl, -⟩ := Table.update_eq_ok.mp h₆
    obtain rfl := Transaction.rewrite_eq_ok.mp h₇
    obtain rfl := Transaction.rewrite_eq_ok.mp h₈
    exact Or.inr rfl

end Spec

/-! ## Deliveries -/

/-- The signer's row after a webhook of the mail provider about a bounce or a complaint. -/
def recordDelivery (signerId : Id) (bounced : Bool) (occurredAt : Time) : Tx Unit := do
  let _ ← (Tables.signers .trustedService).update (fun s => s.id == signerId) fun s =>
    { s with
      hardBouncedAt := if bounced then some occurredAt else s.hardBouncedAt
      complainedAt := if bounced then s.complainedAt else some occurredAt }

end Kommunsign
