import Kommunsign.Workflow.Standing

/-!
# Updates that the guards accept

A status that is updated passes most of the guards of its table as the row did before. What is left
is the transition table, and what a guard asks of the new status.

* `signers_onUpdate_status`, `cases_onUpdate_status` — only the transition can be refused
* `intents_onUpdate_status`, `attempts_onUpdate_validated` — intents that end, and attempts
-/

namespace Kommunsign

open Infra

section Updates

variable {db db' : Db} {now : Time}

theorem signers_onUpdate_status {actor : ActorKind} {s : Signer} {status : SignerStatus}
    (hconsistent : refuse (Tables.signerConstraints db s) = .ok ()) (hstatus : status ≠ .signed) :
    (Tables.signers actor).onUpdate db s { s with status := status } =
      refuse (assertTransition SignerStatus.allowed s.status status
        "invalid signers status transition") := by
  have hsame : Tables.signerConstraints db { s with status := status } =
      Tables.signerConstraints db s := rfl
  simp only [Tables.signers]
  rw [refuse_append_of_rest, refuse_append_of_rest, refuse_append_of_rest, List.append_assoc,
    refuse_append_of_ok, refuse_append_of_ok]
  · rw [preventUnverifiedTerminalStatus, refuse_raises]
    simp [hstatus]
  · rw [hsame]
    exact hconsistent
  · rw [enforceBankIdTerminalEvidence, refuse_raises]
    simp [hstatus]
  · rw [protectSignerBinding, refuse_raises]
    simp
  · simp [assertSignerSignatureEvidence, hstatus]

theorem cases_onUpdate_status {c : SignatureCase} {status : CaseStatus}
    (hcompleted : status ≠ .completed) :
    (Tables.cases .worker).onUpdate db c { c with status := status } =
      refuse (assertTransition CaseStatus.allowed c.status status
        "invalid signature_cases status transition") := by
  simp only [Tables.cases]
  rw [refuse_append_of_rest, refuse_append_of_rest, refuse_append_of_rest, refuse_append_of_ok]
  · rw [preventUnverifiedTerminalStatus, refuse_raises]
    simp [ActorKind.isServer]
  · simp [assertCaseCompletionEvidence, hcompleted]
  · simp [enforceCasePackageCompletion, hcompleted]
  · rw [protectCasePolicySnapshot, refuse_raises]
    simp

theorem sessions_onUpdate_failed {db : Db} {session : IdentityTransaction}
    (hintent : ∀ i ∈ session.signingIntentId, (db.intent? i).isSome = true)
    (hallowed : .failed = session.status ∨ .failed ∈ session.status.allowed) :
    Tables.identityTransactions.onUpdate db session { session with status := .failed } = .ok () := by
  simp only [Tables.identityTransactions, protectIdentityTransactionBinding,
    assertIdentityTransactionVerification, Tables.oneActiveIdentity, refuse_append, refuse_raises,
    refuse_violates, refuse_assertTransition]
  refine ⟨⟨⟨⟨⟨by simp, hallowed⟩, by simp⟩, rfl⟩, ?_⟩, by simp⟩
  rw [Option.any_eq_false]
  exact fun i hi => by simpa using hintent i hi

theorem intents_onUpdate_status {si : SigningIntent} {status : IntentStatus}
    (hallowed : status ∈ si.status.allowed) (hactive : status.isActive = false) :
    Tables.intents.onUpdate db si { si with status := status } = .ok () := by
  simp only [Tables.intents, protectSigningIntent, Tables.oneActiveIntent, refuse_append,
    refuse_raises, refuse_violates, refuse_assertTransition, hactive, Bool.false_and, and_true]
  exact ⟨by simp, Or.inr hallowed⟩

theorem attempts_onUpdate_validated {a : SignatureAttempt}
    (hnumbered : (db.attempts.map fun a => (a.signerId, a.attemptNumber)).Nodup)
    (ha : a ∈ db.attempts) (hstatus : a.status = .signed ∨ a.status = .validated) :
    (Tables.attempts .trustedService).onUpdate db a { a with status := .validated } = .ok () := by
  simp only [Tables.attempts, refuse_append, Tables.attemptNumberKey, refuse_violates,
    refuse_assertTransition, preventUnverifiedTerminalStatus, refuse_raises, ActorKind.isServer,
    Bool.not_true, Bool.and_false, and_true, if_true, refuse_nil]
  refine ⟨?_, ?_⟩
  · -- the attempt is the only one with its number
    rw [List.any_eq_false]
    intro other hother hp
    simp only [Bool.and_eq_true, beq_iff_eq, bne_iff_ne] at hp
    obtain rfl := eq_of_key_eq hnumbered hother ha (Prod.ext hp.1.2 hp.2)
    exact hp.1.1 rfl
  · rcases hstatus with h | h <;> simp [h, AttemptStatus.allowed]

theorem invitations_onUpdate_live {i : SignerInvitation} {usedAt revokedAt : Option Time}
    (hused : i.usedAt = none) (hrevoked : i.revokedAt = none)
    (husedAt : ∀ t ∈ usedAt, i.createdAt ≤ t) (hrevokedAt : ∀ t ∈ revokedAt, i.createdAt ≤ t)
    (hsigner : ∃ signer ∈ db.signers, signer.id = i.signerId) :
    Tables.invitations.onUpdate db i { i with usedAt := usedAt, revokedAt := revokedAt } =
      .ok () := by
  obtain ⟨signer, hmem, hid⟩ := hsigner
  have hfound : (db.signer? i.signerId).isSome = true := by
    rw [Db.signer?, List.find?_isSome]
    exact ⟨signer, hmem, by simpa using hid⟩
  simp only [Tables.invitations, protectConsumedInvitation, invitationTimeOrder, refuse_append,
    refuse_raises, refuse_violates, hused, hrevoked, Option.isSome_none, Bool.false_and, and_true,
    true_and, Option.isNone_eq_false_iff, Bool.or_eq_false_iff, Option.any_eq_false,
    decide_eq_false_iff_not, not_lt]
  exact ⟨hfound, husedAt, hrevokedAt⟩

theorem consistent_congr {db db' : Db} (hcases : db'.cases = db.cases)
    (hsigners : db'.signers = db.signers)
    (h : ∀ signer ∈ db.signers, refuse (Tables.signerConstraints db signer) = .ok ()) :
    ∀ signer ∈ db'.signers, refuse (Tables.signerConstraints db' signer) = .ok () := by
  intro signer hsigner
  have hold := h signer (hsigners ▸ hsigner)
  simp only [Tables.signerConstraints, Db.case?, hcases] at hold ⊢
  exact hold

/-! ## The next signers -/

theorem inviteSigner_ok {signer : Id × Time}
    (hconsistent : ∀ s ∈ db.signers, refuse (Tables.signerConstraints db s) = .ok ())
    (hsigner : (db.signer? signer.1).isSome = true) :
    ∃ db', inviteSigner now signer db = .ok ((), db') := by
  rw [inviteSigner, Transaction.read_bind]
  simp only [Transaction.bind_eq_ok]
  refine ⟨_, (), _, Table.insert_eq_ok.mpr ⟨?_, rfl⟩, _, _,
    Table.update_eq_ok.mpr ⟨fun s hs hp => ?_, rfl, rfl⟩, Transaction.rewrite_eq_ok.mpr rfl⟩
  · simp only [Tables.invitations, newInvitation, invitationTimeOrder, refuse_append,
      refuse_violates, Option.any_none, Bool.or_false, and_true]
    refine ⟨?_, by simpa using hsigner⟩
    -- the invitation gets a key of its own
    rw [List.any_eq_false]
    intro i hi
    rw [beq_iff_eq]
    exact (lt_freshKey (List.mem_map_of_mem hi)).ne
  · rw [Bool.and_eq_true, beq_iff_eq, beq_iff_eq] at hp
    have hrow : refuse (Tables.signerConstraints (Tables.invitations.put (db.invitations ++
        [newInvitation db now signer.1 signer.2]) db) s) = .ok () := hconsistent s hs
    refine (signers_onUpdate_status hrow (by decide)).trans (refuse_assertTransition.mpr ?_)
    rw [hp.2]
    exact Or.inr List.mem_cons_self

theorem inviteSigners_ok : ∀ {signers : List (Id × Time)} {db : Db},
    (∀ s ∈ db.signers, refuse (Tables.signerConstraints db s) = .ok ()) →
      (∀ signer ∈ signers, (db.signer? signer.1).isSome = true) →
        ∃ db', Transaction.forEach (inviteSigner now) signers db = .ok ((), db')
  | [], db, _, _ => ⟨db, rfl⟩
  | signer :: signers, db, hconsistent, hsigners => by
    obtain ⟨db₁, h₁⟩ := inviteSigner_ok hconsistent (hsigners signer List.mem_cons_self)
    -- an effect under which everybody may be invited
    let e : Effect := { Effect.none with
      signer := fun _ _ _ _ => True
      invites := fun _ _ => True }
    have hleaves : Leaves e now db db₁ := effect_inviteSigner (fun _ => trivial) trivial _ _ _ h₁
    obtain ⟨db', h'⟩ := inviteSigners_ok (hleaves.consistent hconsistent) fun other hother => by
      obtain ⟨row, hrow⟩ :=
        Option.isSome_iff_exists.mp (hsigners other (List.mem_cons_of_mem _ hother))
      obtain ⟨row', hrow', -⟩ := hleaves.signer? hrow
      exact Option.isSome_iff_exists.mpr ⟨row', hrow'⟩
    exact ⟨db', Transaction.bind_eq_ok.mpr ⟨(), db₁, h₁, h'⟩⟩

theorem activateNextSigningGroup_ok {c : Id}
    (hconsistent : ∀ s ∈ db.signers, refuse (Tables.signerConstraints db s) = .ok ()) :
    ∃ db', activateNextSigningGroup now c db = .ok ((), db') := by
  rw [activateNextSigningGroup, Transaction.read_bind]
  cases db.nextSigningGroup? c with
  | none => exact ⟨db, rfl⟩
  | some group =>
    cases group with
    | zero => exact ⟨db, rfl⟩
    | succ group =>
      refine inviteSigners_ok hconsistent fun item hitem => ?_
      obtain ⟨signer, hsigner, hitem⟩ := List.mem_flatMap.mp hitem
      obtain ⟨_, -, rfl⟩ := List.mem_map.mp hitem
      rw [Db.signer?, List.find?_isSome]
      exact ⟨signer, (List.mem_filter.mp hsigner).1, beq_self_eq_true _⟩

end Updates

end Kommunsign
