import Kommunsign.Properties.SignedEvidence
import Kommunsign.Workflow.AcceptedUpdates
import Kommunsign.Workflow.Standing

/-!
# The status updates of the handlers

The handlers choose the rows whose status they set by lists of statuses of their own, and
`app.assert_valid_status_transition` has its own table. A handler whose update the table refuses
is rolled back by it.

* `updatesLegally_iff` — in every reachable state this is exact
* `expires_iff` — an overdue case can be expired exactly when no signer is pending
-/

namespace Kommunsign

open Infra

def Failure.isStatusTransition (failure : Failure) : Bool :=
  failure == .raised "invalid signature_cases status transition" ||
    failure == .raised "invalid signers status transition"

theorem not_isStatusTransition_of_refuse {checks : Checks} {failure : Failure}
    (h : refuse checks = .error failure)
    (hchecks : ∀ check ∈ checks, check.2.isStatusTransition = false) :
    ¬failure.isStatusTransition = true := by
  have hfalse := hchecks _ (mem_of_refuse_error h)
  simp only at hfalse
  rw [hfalse]
  exact Bool.false_ne_true

/-! ## The updates of a status -/

section Updates

variable {db : Db} {now : Time}

theorem refuse_raises_error {violated : Bool} {message : String} {failure : Failure}
    (h : refuse (raises violated message) = .error failure) : failure = .raised message := by
  have hmem := mem_of_refuse_error h
  simp only [raises, List.mem_singleton, Prod.mk.injEq] at hmem
  exact hmem.2

theorem failsWith_signerStatus {actor : ActorKind} {p : Signer → Bool} {status : SignerStatus}
    (hconsistent : ∀ s ∈ db.signers, refuse (Tables.signerConstraints db s) = .ok ())
    (hstatus : status ≠ .signed) :
    Transaction.FailsWith (Failure.isStatusTransition · = true)
        ((Tables.signers actor).update p fun s => { s with status := status }) db ↔
      ∃ s ∈ db.signers, p s = true ∧ status ≠ s.status ∧ status ∉ s.status.allowed := by
  rw [Table.failsWith_update]
  · refine exists_congr fun s => and_congr_right fun hs => and_congr_right fun _ => ?_
    rw [signers_onUpdate_status (hconsistent s hs) hstatus, ne_eq, refuse_assertTransition, not_or]
  · intro s hs _ failure hfailure
    rw [signers_onUpdate_status (hconsistent s hs) hstatus] at hfailure
    rw [refuse_raises_error hfailure]
    rfl

theorem failsWith_caseStatus {p : SignatureCase → Bool} {status : CaseStatus}
    (hcompleted : status ≠ .completed) :
    Transaction.FailsWith (Failure.isStatusTransition · = true)
        ((Tables.cases .worker).update p fun c => { c with status := status }) db ↔
      ∃ c ∈ db.cases, p c = true ∧ status ≠ c.status ∧ status ∉ c.status.allowed := by
  rw [Table.failsWith_update]
  · refine exists_congr fun c => and_congr_right fun _ => and_congr_right fun _ => ?_
    rw [cases_onUpdate_status hcompleted, ne_eq, refuse_assertTransition, not_or]
  · intro c _ _ failure hfailure
    rw [cases_onUpdate_status hcompleted] at hfailure
    rw [refuse_raises_error hfailure]
    rfl

theorem not_failsWith_invitations {p : SignerInvitation → Bool}
    {f : SignerInvitation → SignerInvitation} : ¬Transaction.FailsWith
      (Failure.isStatusTransition · = true) (Tables.invitations.update p f) db := by
  refine Table.not_failsWith_update fun i _ _ failure hfailure => ?_
  refine not_isStatusTransition_of_refuse hfailure fun check hcheck => ?_
  simp only [protectConsumedInvitation, invitationTimeOrder, raises, violates, List.cons_append,
    List.nil_append, List.mem_cons, List.not_mem_nil, or_false] at hcheck
  rcases hcheck with rfl | rfl | rfl | rfl <;> rfl

theorem not_failsWith_sessions {p : IdentityTransaction → Bool}
    {f : IdentityTransaction → IdentityTransaction} : ¬Transaction.FailsWith
      (Failure.isStatusTransition · = true) (Tables.identityTransactions.update p f) db := by
  refine Table.not_failsWith_update fun t _ _ failure hfailure => ?_
  refine not_isStatusTransition_of_refuse hfailure fun check hcheck => ?_
  simp only [protectIdentityTransactionBinding, assertIdentityTransactionVerification,
    assertTransition, Tables.oneActiveIdentity, raises, violates, List.cons_append,
    List.nil_append, List.mem_cons, List.not_mem_nil, or_false] at hcheck
  rcases hcheck with rfl | rfl | rfl | rfl | rfl | rfl <;> rfl

theorem not_failsWith_attempts {p : SignatureAttempt → Bool} {status : AttemptStatus} :
    ¬Transaction.FailsWith (Failure.isStatusTransition · = true)
      ((Tables.attempts .trustedService).update p fun a => { a with status := status }) db := by
  refine Table.not_failsWith_update fun a _ _ failure hfailure => ?_
  refine not_isStatusTransition_of_refuse hfailure fun check hcheck => ?_
  simp only [Tables.attemptNumberKey, assertTransition, preventUnverifiedTerminalStatus, raises,
    violates, List.cons_append, List.nil_append, if_true, List.mem_cons, List.not_mem_nil,
    or_false] at hcheck
  rcases hcheck with rfl | rfl | rfl <;> rfl

theorem not_failsWith_validationRun (run : ValidationRun) :
    ¬Transaction.FailsWith (Failure.isStatusTransition · = true)
      ((Tables.validationRuns .trustedService).insert run) db := by
  refine Table.not_failsWith_insert fun failure hfailure => ?_
  refine not_isStatusTransition_of_refuse hfailure fun check hcheck => ?_
  simp only [requireTrustedCryptographicService, raises, violates, List.cons_append,
    List.nil_append, List.mem_cons, List.not_mem_nil, or_false] at hcheck
  rcases hcheck with rfl | rfl <;> rfl

theorem not_failsWith_intents {p : SigningIntent → Bool} {f : SigningIntent → SigningIntent} :
    ¬Transaction.FailsWith (Failure.isStatusTransition · = true) (Tables.intents.update p f) db := by
  refine Table.not_failsWith_update fun si _ _ failure hfailure => ?_
  refine not_isStatusTransition_of_refuse hfailure fun check hcheck => ?_
  simp only [protectSigningIntent, assertTransition, Tables.oneActiveIntent, raises, violates,
    List.cons_append, List.nil_append, List.mem_cons, List.not_mem_nil, or_false] at hcheck
  rcases hcheck with rfl | rfl | rfl <;> rfl

theorem not_failsWith_insertInvitation {i : SignerInvitation} : ¬Transaction.FailsWith
    (Failure.isStatusTransition · = true) (Tables.invitations.insert i) db := by
  refine Table.not_failsWith_insert fun failure hfailure => ?_
  refine not_isStatusTransition_of_refuse hfailure fun check hcheck => ?_
  simp only [invitationTimeOrder, violates, List.cons_append, List.nil_append, List.mem_cons,
    List.not_mem_nil, or_false] at hcheck
  rcases hcheck with rfl | rfl | rfl <;> rfl

theorem not_isStatusTransition_of_evidence {old new : Signer} {check : Bool × Failure}
    (h : check ∈ assertSignerSignatureEvidence db old new) : check.2.isStatusTransition = false := by
  unfold assertSignerSignatureEvidence at h
  split at h
  · cases h
  · split at h
    · cases h
    · split at h
      · cases h
      · split at h <;>
          simp only [raises, List.cons_append, List.nil_append, List.mem_cons, List.not_mem_nil,
            or_false] at h
        · subst h
          rfl
        · rcases h with rfl | rfl <;> rfl

theorem not_failsWith_signers {actor : ActorKind} {p : Signer → Bool} {status : SignerStatus}
    (hallowed : ∀ s, p s = true → status ∈ s.status.allowed) : ¬Transaction.FailsWith
      (Failure.isStatusTransition · = true)
      ((Tables.signers actor).update p fun s => { s with status := status }) db := by
  refine Table.not_failsWith_update fun s _ hp failure hfailure hstatus => ?_
  have hmem := mem_of_refuse_error hfailure
  simp only [List.mem_append, or_assoc] at hmem
  rcases hmem with hmem | hmem | hmem | hmem | hmem | hmem
  · simp only [Tables.signerConstraints, violates, List.cons_append, List.nil_append, List.mem_cons,
      Prod.mk.injEq, List.not_mem_nil, or_false] at hmem
    rcases hmem with ⟨-, rfl⟩ | ⟨-, rfl⟩ | ⟨-, rfl⟩ <;> cases hstatus
  · simp only [preventUnverifiedTerminalStatus, raises, List.mem_singleton, Prod.mk.injEq] at hmem
    obtain ⟨-, rfl⟩ := hmem
    cases hstatus
  · -- the table allows the transition, so its check has passed
    simp only [assertTransition, raises, List.mem_singleton, Prod.mk.injEq] at hmem
    simp at hmem
    exact hmem.1.2 (hallowed s hp)
  · simp only [enforceBankIdTerminalEvidence, raises, List.mem_singleton, Prod.mk.injEq] at hmem
    obtain ⟨-, rfl⟩ := hmem
    cases hstatus
  · simp only [protectSignerBinding, raises, List.mem_singleton, Prod.mk.injEq] at hmem
    obtain ⟨-, rfl⟩ := hmem
    cases hstatus
  · exact Bool.false_ne_true ((not_isStatusTransition_of_evidence hmem).symm.trans hstatus)

theorem not_failsWith_events {first second : EventType} {id : Id} :
    ¬Transaction.FailsWith (Failure.isStatusTransition · = true) (do
      audit first id
      outbox second id) db :=
  Transaction.not_failsWith_bind (Transaction.not_failsWith_rewrite _) fun _ _ _ =>
    Transaction.not_failsWith_rewrite _

end Updates

/-! ## Expiry -/

section Expiry

variable {s : Sys} {c : Id} {row : SignatureCase}

theorem eq_of_case? (h : Standing s) (hrow : s.db.case? c = some row) {other : SignatureCase}
    (hother : other ∈ s.db.cases) (hid : other.id = c) : other = row := by
  obtain ⟨hmem, hc⟩ := case?_eq_some hrow
  exact eq_of_key_eq h.casesKeyed hother hmem (hid.trans hc.symm)

theorem not_allowed_expired {status : SignerStatus} (hfinal : status.isFinal = false) :
    SignerStatus.expired ≠ status ∧ .expired ∉ status.allowed ↔ status = .pending := by
  cases status <;> revert hfinal <;> decide

theorem expireCase_row (h : Standing s) (hrow : s.db.case? c = some row)
    (hallowed : .expired = row.status ∨ .expired ∈ row.status.allowed) :
    (Tables.cases .worker).update (fun c' => c'.id == c) (fun c => { c with status := .expired })
      s.db = .ok (s.db.cases.countP fun c' => c'.id == c, { s.db with
        cases := assign (fun c' => c'.id == c) (fun c => { c with status := .expired })
          s.db.cases }) := by
  refine Table.update_eq_ok.mpr ⟨fun other hother hp => ?_, rfl, rfl⟩
  rw [beq_iff_eq] at hp
  rw [eq_of_case? h hrow hother hp, cases_onUpdate_status (by decide), refuse_assertTransition]
  exact hallowed

theorem consistent_of_expired (h : Standing s) : ∀ signer ∈ s.db.signers,
    refuse (Tables.signerConstraints { s.db with
      cases := assign (fun c' => c'.id == c) (fun c => { c with status := .expired }) s.db.cases }
      signer) = .ok () := by
  intro signer hsigner
  have hold := h.consistent signer hsigner
  have hfind : (assign (fun c' => c'.id == c) (fun c => { c with status := .expired })
      s.db.cases).find? (fun c' => c'.id == signer.signatureCaseId) =
        (s.db.cases.find? fun c' => c'.id == signer.signatureCaseId).map _ :=
    find?_assign (fun c' : SignatureCase => c'.id) fun _ _ _ => rfl
  simp only [Tables.signerConstraints, refuse_append, refuse_violates, Db.case?, hfind,
    Option.isNone_map] at hold ⊢
  exact hold

theorem failsWith_expireRows (h : Standing s) (hrow : s.db.case? c = some row) :
    Transaction.FailsWith (Failure.isStatusTransition · = true) (expireRows s.clock c) s.db ↔
      ¬(.expired = row.status ∨ .expired ∈ row.status.allowed) ∨
        ∃ signer ∈ s.db.signers, signer.signatureCaseId = c ∧ signer.status = .pending := by
  by_cases hallowed : .expired = row.status ∨ .expired ∈ row.status.allowed
  · rw [expireRows, Transaction.failsWith_bind_of_ok (expireCase_row h hrow hallowed),
      Transaction.failsWith_bind, failsWith_signerStatus (consistent_of_expired h) (by decide)]
    constructor
    · rintro (⟨signer, hsigner, hp, hrefused⟩ | ⟨n, db, -, hrest⟩)
      · rw [Bool.and_eq_true, beq_iff_eq, Bool.not_eq_true'] at hp
        exact Or.inr ⟨signer, hsigner, hp.1, (not_allowed_expired hp.2).mp hrefused⟩
      · -- nothing after the signers is about a status
        refine absurd hrest (Transaction.not_failsWith_bind (Transaction.not_failsWith_of_ok
          (Transaction.read_eq_ok.mpr ⟨rfl, rfl⟩)) fun _ _ _ => ?_)
        exact Transaction.not_failsWith_bind not_failsWith_invitations fun _ _ _ =>
          not_failsWith_events
    · rintro (hrefused | ⟨signer, hsigner, hcase, hpending⟩)
      · exact absurd hallowed hrefused
      · refine Or.inl ⟨signer, hsigner, ?_, ?_⟩
        · rw [hcase, hpending, BEq.rfl]
          rfl
        · exact (not_allowed_expired (by rw [hpending]; rfl)).mpr hpending
  · refine ⟨fun _ => Or.inl hallowed, fun _ => ?_⟩
    rw [expireRows, Transaction.failsWith_bind, failsWith_caseStatus (by decide)]
    obtain ⟨hmem, hid⟩ := case?_eq_some hrow
    exact Or.inl ⟨row, hmem, by simpa using hid, not_or.mp hallowed⟩

def Db.withExpiry (db : Db) (now : Time) (c : Id) : Db :=
  { db with
    cases := assign (fun c' => c'.id == c) (fun c => { c with status := .expired }) db.cases
    signers := assign (fun s => s.signatureCaseId == c && !s.status.isFinal)
      (fun s => { s with status := .expired }) db.signers
    invitations := assign (fun i =>
        ((assign (fun s => s.signatureCaseId == c && !s.status.isFinal)
          (fun s => { s with status := .expired }) db.signers).find? fun s => s.id == i.signerId).any
          (·.signatureCaseId == c) && isLive i)
      (fun i => { i with revokedAt := some now }) db.invitations
    events := db.events ++ [⟨.audit, .case_expired, c⟩] ++ [⟨.outbox, .case_expired, c⟩] }

theorem expireRows_ok (h : Standing s) (hrow : s.db.case? c = some row)
    (hopen : row.status.isOpen = true)
    (hpending : ∀ signer ∈ s.db.signers, signer.signatureCaseId = c → signer.status ≠ .pending) :
    expireRows s.clock c s.db = .ok ((), s.db.withExpiry s.clock c) := by
  have hallowed : .expired = row.status ∨ .expired ∈ row.status.allowed := by
    cases hstatus : row.status <;> rw [hstatus] at hopen <;> revert hopen <;> decide
  simp only [expireRows, Transaction.bind_eq_ok]
  refine ⟨_, _, expireCase_row h hrow hallowed, _, _, Table.update_eq_ok.mpr
    ⟨fun signer hsigner hp => ?_, rfl, rfl⟩, _, _, Transaction.read_eq_ok.mpr ⟨rfl, rfl⟩, _, _,
    Table.update_eq_ok.mpr ⟨fun i hi hp => ?_, rfl, rfl⟩, (), _, rfl, rfl⟩
  · rw [Bool.and_eq_true, beq_iff_eq, Bool.not_eq_true'] at hp
    rw [signers_onUpdate_status (consistent_of_expired h signer hsigner) (by decide),
      refuse_assertTransition]
    by_contra hrefused
    exact hpending signer hsigner hp.1 ((not_allowed_expired hp.2).mp (not_or.mp hrefused))
  · rw [Bool.and_eq_true] at hp
    obtain ⟨hcreated, signer, hsigner, hid, -⟩ := h.invitations i hi
    rw [isLive, Bool.and_eq_true, Option.isNone_iff_eq_none, Option.isNone_iff_eq_none] at hp
    refine invitations_onUpdate_live hp.2.1 hp.2.2 (fun t ht => ?_) (fun t ht => ?_)
      ⟨_, mem_assign.mpr ⟨signer, hsigner, rfl⟩, ?_⟩
    · rw [hp.2.1] at ht
      cases ht
    · rw [Option.mem_some_iff] at ht
      exact ht ▸ hcreated
    · split
      · exact hid
      · exact hid

/-- Expiry commits, the case is expired, and every signer of it is in a terminal status. -/
def Sys.Expires (s : Sys) (c : Id) : Prop :=
  ∃ s', Sys.step s (.expire c) = some s' ∧ (s'.db.case? c).map (·.status) = some .expired ∧
    ∀ signer ∈ s'.db.signers, signer.signatureCaseId = c → signer.status.allowed = []

theorem expireCase_eq_expireRows (hrow : s.db.case? c = some row) (hopen : row.status.isOpen = true)
    (hdue : row.expiresAt.any (· ≤ s.clock) = true) :
    expireCase s.clock c s.db = expireRows s.clock c s.db := by
  have hclosed : row.status.isClosed = false := by
    cases hstatus : row.status <;> rw [hstatus] at hopen <;> revert hopen <;> decide
  rw [expireCase, Transaction.read_bind, hrow]
  change (if row.status.isClosed = true then pure () else do
    Transaction.require (row.expiresAt.any (· ≤ s.clock)) (.thrown "CASE_NOT_EXPIRED_YET")
    expireRows s.clock c : Tx Unit) s.db = _
  rw [hclosed, hdue]
  rfl

/-- An overdue open case can be expired exactly when none of its signers is still pending. -/
theorem expires_iff (hs : s.Reachable) (hrow : s.db.case? c = some row)
    (hopen : row.status.isOpen = true) (hdue : row.expiresAt.any (· ≤ s.clock) = true) :
    s.Expires c ↔
      ∀ signer ∈ s.db.signers, signer.signatureCaseId = c → signer.status ≠ .pending := by
  have h := standing_of_reachable hs
  constructor
  · rintro ⟨s', hstep, -, -⟩ signer hsigner hcase hpending
    obtain ⟨db, hok, -⟩ := Sys.commit_eq_some.mp hstep
    rw [expireCase_eq_expireRows hrow hopen hdue] at hok
    exact Transaction.not_failsWith_of_ok hok
      ((failsWith_expireRows h hrow).mpr (Or.inr ⟨signer, hsigner, hcase, hpending⟩))
  · intro hpending
    have hok := expireRows_ok h hrow hopen hpending
    rw [← expireCase_eq_expireRows hrow hopen hdue] at hok
    refine ⟨_, Sys.commit_eq_some.mpr ⟨_, hok, rfl⟩, ?_, fun signer' hsigner' hcase => ?_⟩
    · have hfind : (s.db.withExpiry s.clock c).case? c = (s.db.case? c).map fun c' =>
          if c'.id == c then { c' with status := .expired } else c' :=
        find?_assign (fun c' : SignatureCase => c'.id) fun _ _ _ => rfl
      rw [hfind, hrow, Option.map_some, Option.map_some, if_pos (by simp [(case?_eq_some hrow).2])]
    · obtain ⟨signer, hsigner, rfl⟩ := mem_assign.mp hsigner'
      by_cases hp : (signer.signatureCaseId == c && !signer.status.isFinal) = true
      · rw [if_pos hp]
        rfl
      · rw [if_neg hp] at hcase ⊢
        rw [hcase, BEq.rfl, Bool.true_and, Bool.not_eq_true', Bool.not_eq_false] at hp
        cases hstatus : signer.status <;> rw [hstatus] at hp <;> revert hp <;> decide

end Expiry

/-! ## The validation of a signature -/

section Validation

variable {db : Db} {now : Time}

theorem not_failsWith_forEach {α : Type} {f : α → Tx Unit} (h : ∀ a db, ¬Transaction.FailsWith
    (Failure.isStatusTransition · = true) (f a) db) : ∀ {items : List α} {db : Db},
      ¬Transaction.FailsWith (Failure.isStatusTransition · = true)
        (Transaction.forEach f items) db
  | [], _ => Transaction.not_failsWith_pure ()
  | a :: _, db => Transaction.not_failsWith_bind (h a db) fun _ _ _ => not_failsWith_forEach h

theorem not_failsWith_activate (c : Id) : ¬Transaction.FailsWith
    (Failure.isStatusTransition · = true) (activateNextSigningGroup now c) db := by
  rw [activateNextSigningGroup, Transaction.failsWith_bind_of_ok
    (Transaction.read_eq_ok.mpr ⟨rfl, rfl⟩)]
  split
  · exact Transaction.not_failsWith_pure ()
  · exact Transaction.not_failsWith_pure ()
  · refine not_failsWith_forEach fun signer db => ?_
    rw [inviteSigner, Transaction.failsWith_bind_of_ok (Transaction.read_eq_ok.mpr ⟨rfl, rfl⟩)]
    refine Transaction.not_failsWith_bind not_failsWith_insertInvitation fun _ _ _ =>
      Transaction.not_failsWith_bind (not_failsWith_signers fun s hp => ?_) fun _ _ _ =>
        Transaction.not_failsWith_rewrite _
    rw [Bool.and_eq_true, beq_iff_eq, beq_iff_eq] at hp
    rw [hp.2]
    decide

theorem not_failsWith_commitValidation (run : PadesValidateRun) : ¬Transaction.FailsWith
    (Failure.isStatusTransition · = true) (commitValidation now run) db := by
  have hsigning : ∀ s : Signer, (s.id == run.signerId && s.status == .signing) = true →
      s.status = .signing := by
    intro s hp
    rw [Bool.and_eq_true, beq_iff_eq, beq_iff_eq] at hp
    exact hp.2
  have hrefuse : ∀ eventType db, ¬Transaction.FailsWith (Failure.isStatusTransition · = true)
      (refuseSignature run eventType) db := by
    intro eventType db
    refine Transaction.not_failsWith_bind not_failsWith_attempts fun _ _ _ =>
      Transaction.not_failsWith_bind (not_failsWith_signers fun s hp => ?_) fun _ _ _ =>
        not_failsWith_events
    rw [hsigning s hp]
    decide
  have hcomplete : ∀ db, ¬Transaction.FailsWith (Failure.isStatusTransition · = true)
      (completeSigner now run) db := by
    intro db
    refine Transaction.not_failsWith_bind (not_failsWith_signers fun s hp => ?_) fun _ _ _ =>
      Transaction.not_failsWith_bind not_failsWith_intents fun _ _ _ =>
        Transaction.not_failsWith_bind not_failsWith_invitations fun _ _ _ => ?_
    · rw [hsigning s hp]
      decide
    · refine Transaction.not_failsWith_bind (Transaction.not_failsWith_rewrite _) fun _ _ _ =>
        Transaction.not_failsWith_bind (Transaction.not_failsWith_rewrite _) fun _ _ _ =>
          Transaction.not_failsWith_bind (Transaction.not_failsWith_rewrite _) fun _ _ _ =>
            Transaction.not_failsWith_bind (not_failsWith_activate _) fun _ _ _ => ?_
      rw [Transaction.failsWith_bind_of_ok (Transaction.read_eq_ok.mpr ⟨rfl, rfl⟩)]
      split
      · exact Transaction.not_failsWith_pure ()
      · exact Transaction.not_failsWith_rewrite _
  refine Transaction.not_failsWith_bind (not_failsWith_validationRun _) fun _ _ _ => ?_
  split
  · split
    · exact hrefuse _ _
    · refine Transaction.not_failsWith_bind not_failsWith_attempts fun _ _ _ =>
        Transaction.not_failsWith_bind (Transaction.not_failsWith_rewrite _) fun _ _ _ => ?_
      rw [Transaction.failsWith_bind_of_ok (Transaction.read_eq_ok.mpr ⟨rfl, rfl⟩)]
      split
      · exact Transaction.not_failsWith_pure ()
      · exact hcomplete _
  · exact hrefuse _ _

end Validation

/-! ## The identity jobs -/

section Identity

variable {s : Sys} {t : Id} {row : IdentityTransaction × SigningIntent}

theorem advanceIntent_failed_ok (db : Db) (signingIntentId : Id) {old : IntentStatus}
    (hallowed : .failed ∈ old.allowed) : ∃ db', advanceIntent signingIntentId old .failed db =
      .ok (db.intents.countP fun si => si.id == signingIntentId && si.status == old, db') ∧
      db'.signers = db.signers ∧ db'.cases = db.cases := by
  refine ⟨_, Table.update_eq_ok.mpr ⟨fun si _ hp => ?_, rfl, rfl⟩, rfl, rfl⟩
  rw [Bool.and_eq_true, beq_iff_eq, beq_iff_eq] at hp
  exact intents_onUpdate_status (hp.2 ▸ hallowed) (by decide)

theorem failsWith_failSigner {db : Db} {signerId : Id}
    (hconsistent : ∀ signer ∈ db.signers, refuse (Tables.signerConstraints db signer) = .ok ()) :
    Transaction.FailsWith (Failure.isStatusTransition · = true) (failSigner signerId) db ↔
      ∃ signer ∈ db.signers, signer.id = signerId ∧
        (signer.status = .pending ∨ signer.status = .expired) := by
  rw [failSigner, failsWith_signerStatus hconsistent (by decide)]
  refine exists_congr fun signer => and_congr_right fun _ => ?_
  rw [Bool.and_eq_true, Bool.and_eq_true, Bool.and_eq_true, beq_iff_eq, and_assoc, and_assoc,
    and_assoc]
  refine and_congr_right fun _ => ?_
  cases signer.status <;> decide

theorem failsWith_failSigner_after {db : Db} {signerId : Id} {old : IntentStatus}
    {signingIntentId : Id} {first second : EventType} (hallowed : .failed ∈ old.allowed)
    (hconsistent : ∀ signer ∈ db.signers, refuse (Tables.signerConstraints db signer) = .ok ()) :
    Transaction.FailsWith (Failure.isStatusTransition · = true) (do
        let _ ← advanceIntent signingIntentId old .failed
        let _ ← failSigner signerId
        audit first t
        outbox second t) db ↔
      ∃ signer ∈ db.signers, signer.id = signerId ∧
        (signer.status = .pending ∨ signer.status = .expired) := by
  obtain ⟨db₁, hok, hsigners, hcases⟩ := advanceIntent_failed_ok db signingIntentId hallowed
  rw [Transaction.failsWith_bind_of_ok hok, Transaction.failsWith_bind,
    failsWith_failSigner fun signer hsigner => ?_, hsigners]
  · refine ⟨fun h => h.elim id ?_, Or.inl⟩
    rintro ⟨_, _, -, hevents⟩
    exact absurd hevents not_failsWith_events
  · have hold := hconsistent signer (hsigners ▸ hsigner)
    simp only [Tables.signerConstraints, Db.case?, hcases] at hold ⊢
    exact hold

theorem failsWith_reading {α : Type} {r : Db → Except Failure α} {next : α → Tx Unit} {db : Db}
    {a : α} (h : r db = .ok a) : Transaction.FailsWith (Failure.isStatusTransition · = true)
      (reading r next) db ↔
        Transaction.FailsWith (Failure.isStatusTransition · = true) (next a) db := by
  rw [reading, Transaction.failsWith_bind_of_ok (Transaction.read_eq_ok.mpr ⟨rfl, rfl⟩)]
  simp only [h]

theorem not_failsWith_loadStarted {db : Db} {next : IdentityTransaction × SigningIntent → Tx Unit}
    (h : ∀ row, loadStarted db t ≠ .ok row) : ¬Transaction.FailsWith
      (Failure.isStatusTransition · = true) (reading (loadStarted · t) next) db := by
  rw [reading, Transaction.failsWith_bind_of_ok (Transaction.read_eq_ok.mpr ⟨rfl, rfl⟩)]
  cases hload : loadStarted db t with
  | ok row => exact absurd hload (h row)
  | error failure =>
    simp only [Transaction.failsWith_fail]
    unfold loadStarted at hload
    cases hrow : (do
        let it ← db.identityTransaction? t
        let si ← db.intent? (← it.signingIntentId)
        some (it, si) : Option (IdentityTransaction × SigningIntent)) with
    | none =>
      rw [hrow] at hload
      cases hload
      exact Bool.false_ne_true
    | some row =>
      rw [hrow] at hload
      cases hload

theorem failsWith_failIdentityTransaction (h : Standing s) (hrow : loadStarted s.db t = .ok row) :
    Transaction.FailsWith (Failure.isStatusTransition · = true) (failIdentityTransaction t) s.db ↔
      ∃ signer ∈ s.db.signers, signer.id = row.2.signerId ∧
        (signer.status = .pending ∨ signer.status = .expired) := by
  obtain ⟨n, sessions, hsession⟩ : ∃ n sessions, endWaiting (fun x => { x with status := .failed })
      t s.db = .ok (n, { s.db with identityTransactions := sessions }) := by
    refine ⟨_, _, Table.update_eq_ok.mpr ⟨fun session hsession hp => ?_, rfl, rfl⟩⟩
    refine sessions_onUpdate_failed (h.sessions session hsession) (Or.inr ?_)
    rw [Bool.and_eq_true] at hp
    cases hstatus : session.status <;> rw [hstatus] at hp <;>
      simp [IdentityStatus.isWaiting, IdentityStatus.allowed] at hp ⊢
  rw [failIdentityTransaction, failsWith_reading hrow, Transaction.failsWith_bind_of_ok hsession]
  exact failsWith_failSigner_after (by decide) (consistent_congr rfl rfl h.consistent)

/-- The rows that a failed verification looks at first: the sessions with its key. -/
def Db.SessionFails (db : Db) (t : Id) : Prop :=
  ∀ session ∈ db.identityTransactions, session.id = t →
    .failed = session.status ∨ .failed ∈ session.status.allowed

theorem insertIdentityArtifact_ok (db : Db) (artifact : IdentityArtifact)
    (hsession : (db.identityTransaction? artifact.identityTransactionId).isSome = true)
    (hintent : (db.intent? artifact.signingIntentId).isSome = true) :
    ∃ artifacts, insertIdentityArtifact artifact db =
      .ok ((), { db with identityArtifacts := artifacts }) := by
  rw [insertIdentityArtifact, Transaction.read_bind]
  split
  · exact ⟨db.identityArtifacts, rfl⟩
  · next hnew =>
    refine ⟨_, Table.insert_eq_ok.mpr ⟨?_, rfl⟩⟩
    simp only [Tables.identityArtifacts, refuse_append, refuse_violates]
    exact ⟨⟨by simpa using hnew, by simpa using hsession⟩, by simpa using hintent⟩

theorem failsWith_recordVerification (h : Standing s) (hrow : loadStarted s.db t = .ok row) :
    Transaction.FailsWith (Failure.isStatusTransition · = true) (recordVerification t false) s.db ↔
      s.db.SessionFails t ∧ ∃ signer ∈ s.db.signers, signer.id = row.2.signerId ∧
        (signer.status = .pending ∨ signer.status = .expired) := by
  obtain ⟨hfound, id, -, hintent⟩ := loadStarted_eq_ok.mp hrow
  have hid : s.db.intent? row.2.id = some row.2 := by
    rw [Db.intent?] at hintent ⊢
    rw [(exists_of_find?_key hintent).2]
    exact hintent
  obtain ⟨artifacts, hartifact⟩ := insertIdentityArtifact_ok s.db
    ⟨.TIC_BANKID, t, row.2.id, false⟩ (by simp [hfound]) (by simp [hid])
  rw [recordVerification, failsWith_reading hrow, Transaction.failsWith_bind_of_ok hartifact]
  by_cases hfails : s.db.SessionFails t
  · obtain ⟨n, sessions, hsession⟩ : ∃ n sessions, Tables.identityTransactions.update
        (fun x => x.id == t) (fun x => { x with status := .failed })
        { s.db with identityArtifacts := artifacts } = .ok (n, { s.db with
          identityArtifacts := artifacts
          identityTransactions := sessions }) := by
      refine ⟨_, _, Table.update_eq_ok.mpr ⟨fun session hsession hp => ?_, rfl, rfl⟩⟩
      exact sessions_onUpdate_failed (h.sessions session hsession)
        (hfails session hsession (by simpa using hp))
    rw [if_neg Bool.false_ne_true, recordFailedVerification,
      Transaction.failsWith_bind_of_ok hsession]
    rw [and_iff_right hfails]
    exact failsWith_failSigner_after (by decide) (consistent_congr rfl rfl h.consistent)
  · refine ⟨fun hfailed => ?_, fun hboth => absurd hboth.1 hfails⟩
    rw [if_neg Bool.false_ne_true, recordFailedVerification, Transaction.failsWith_bind] at hfailed
    rcases hfailed with hsession | ⟨n, db, hok, -⟩
    · exact absurd hsession not_failsWith_sessions
    · -- the session's own row would have let it through
      refine absurd (fun session hsession hkey => ?_) hfails
      have hrow := (Table.update_eq_ok.mp hok).1 session hsession (by simpa using hkey)
      simp only [Tables.identityTransactions, protectIdentityTransactionBinding, refuse_append] at hrow
      exact refuse_assertTransition.mp hrow.1.1.1.1.2

end Identity

/-! ## The handlers -/

/-- The handlers that set the status of a case or of a signer in a state they have not chosen. -/
inductive Handler where
  | buildPackage (signatureCaseId : Id) (signerId : Option Id)
  | expireCase (signatureCaseId : Id)
  | failIdentity (identityTransactionId : Id)
  | failVerification (identityTransactionId : Id)
  | commitValidation (run : PadesValidateRun)

def Handler.tx (now : Time) : Handler → Tx Unit
  | .buildPackage c signerId => buildEvidencePackage c signerId
  | .expireCase c => Kommunsign.expireCase now c
  | .failIdentity t => failIdentityTransaction t
  | .failVerification t => recordVerification t false
  | .commitValidation run => Kommunsign.commitValidation now run

def Db.AllRequiredSigned (db : Db) (c : Id) : Prop :=
  ∀ signer ∈ db.requiredSigners c, signer.status = .signed

def Sys.Completes (s : Sys) (c : Id) : Prop :=
  ∃ db, buildEvidencePackage c none s.db = .ok ((), db) ∧
    (db.case? c).map (·.status) = some .completed

/--
No status update of the handler rolls it back; and the package of an open case whose required
signers have all signed completes the case.
-/
structure UpdatesLegally (s : Sys) (handler : Handler) : Prop where
  legal : ¬Transaction.FailsWith (Failure.isStatusTransition · = true) (handler.tx s.clock) s.db
  completes : ∀ c row, handler = .buildPackage c none → s.db.case? c = some row →
    row.status.isOpen = true → s.db.AllRequiredSigned c → s.Completes c

def Db.SessionSignerActs (db : Db) (row : IdentityTransaction × SigningIntent) : Prop :=
  ∀ signer ∈ db.signers, signer.id = row.2.signerId →
    signer.status ≠ .pending ∧ signer.status ≠ .expired

def StatusesAllow (s : Sys) : Handler → Prop
  | .buildPackage c none => ∀ row, s.db.case? c = some row → row.status.isOpen = true →
      ⟨c, none⟩ ∈ s.db.evidencePackages ∧ ¬s.db.AllRequiredSigned c
  | .buildPackage _ (some _) => True
  | .expireCase c => ∀ row, s.db.case? c = some row → row.status.isClosed = false →
      row.expiresAt.any (· ≤ s.clock) = true → row.status.isOpen = true ∧
        ∀ signer ∈ s.db.signers, signer.signatureCaseId = c → signer.status ≠ .pending
  | .failIdentity t => ∀ row, loadStarted s.db t = .ok row → s.db.SessionSignerActs row
  | .failVerification t => ∀ row, loadStarted s.db t = .ok row → s.db.SessionFails t →
      s.db.SessionSignerActs row
  | .commitValidation _ => True

section Handlers

variable {s : Sys} {c t : Id}

theorem not_sessionSignerActs {db : Db} {row : IdentityTransaction × SigningIntent} :
    ¬db.SessionSignerActs row ↔ ∃ signer ∈ db.signers, signer.id = row.2.signerId ∧
      (signer.status = .pending ∨ signer.status = .expired) := by
  unfold Db.SessionSignerActs
  push Not
  refine exists_congr fun signer => and_congr_right fun _ => and_congr_right fun _ => ?_
  constructor
  · exact fun h => or_iff_not_imp_left.mpr h
  · exact fun h => or_iff_not_imp_left.mp h

theorem cases_onUpdate_completed {db : Db} {row : SignatureCase} (hsent : row.status = .sent) :
    (Tables.cases .worker).onUpdate db row { row with status := .completed } =
      .error (.raised "invalid signature_cases status transition") := by
  simp [Tables.cases, preventUnverifiedTerminalStatus, assertTransition, raises, refuse, hsent,
    ActorKind.isServer, CaseStatus.allowed]

theorem failsWith_buildPackage (h : Standing s) :
    Transaction.FailsWith (Failure.isStatusTransition · = true) (buildEvidencePackage c none) s.db ↔
      ⟨c, none⟩ ∉ s.db.evidencePackages ∧
        ∃ row ∈ s.db.cases, row.id = c ∧ row.status.isOpen = true := by
  rw [buildEvidencePackage, Transaction.failsWith_bind_of_ok (Transaction.read_eq_ok.mpr ⟨rfl, rfl⟩)]
  by_cases hexists : ⟨c, none⟩ ∈ s.db.evidencePackages
  · rw [if_pos (any_evidencePackages_iff.mpr hexists)]
    exact ⟨fun hfails => absurd hfails (Transaction.not_failsWith_pure ()),
      fun hnew => absurd hexists hnew.1⟩
  · have hrow : ∀ row ∈ s.db.cases, (row.id == c && row.status.isOpen) = true →
        row.status = .sent := by
      intro row hmem hp
      rw [Bool.and_eq_true] at hp
      exact eq_sent_of_isOpen (h.reached row hmem) hp.2
    rw [if_neg (mt any_evidencePackages_iff.mp hexists), Transaction.failsWith_bind_of_ok
      (show Transaction.rewrite _ s.db = .ok ((), _) from rfl)]
    constructor
    · intro hfails
      refine ⟨hexists, ?_⟩
      rcases Transaction.failsWith_bind.mp hfails with hupdate | ⟨_, _, -, hevents⟩
      · obtain ⟨failure, hfailure, -⟩ := hupdate
        obtain ⟨row, hmem, hp, -⟩ := Table.exists_of_update_error hfailure
        rw [Bool.and_eq_true, beq_iff_eq] at hp
        exact ⟨row, hmem, hp⟩
      · refine absurd hevents (Transaction.not_failsWith_bind
          (Transaction.not_failsWith_rewrite _) fun _ _ _ => Transaction.not_failsWith_bind
            (Transaction.not_failsWith_rewrite _) fun _ _ _ => not_failsWith_events)
    · rintro ⟨-, row, hmem, hid, hopen⟩
      refine Transaction.failsWith_bind.mpr (Or.inl ((Table.failsWith_update ?_).mpr ?_))
      · intro row' hmem' hp' failure hfailure
        rw [cases_onUpdate_completed (hrow row' hmem' hp')] at hfailure
        cases hfailure
        rfl
      · have hp : (row.id == c && row.status.isOpen) = true := by simp [hid, hopen]
        refine ⟨row, hmem, hp, ?_⟩
        rw [cases_onUpdate_completed (hrow row hmem hp)]
        intro hok
        cases hok

theorem failsWith_expireCase (h : Standing s) :
    Transaction.FailsWith (Failure.isStatusTransition · = true) (expireCase s.clock c) s.db ↔
      ∃ row, s.db.case? c = some row ∧ row.status.isClosed = false ∧
        row.expiresAt.any (· ≤ s.clock) = true ∧
          (¬(.expired = row.status ∨ .expired ∈ row.status.allowed) ∨
            ∃ signer ∈ s.db.signers, signer.signatureCaseId = c ∧ signer.status = .pending) := by
  rw [expireCase, Transaction.failsWith_bind_of_ok (Transaction.read_eq_ok.mpr ⟨rfl, rfl⟩)]
  cases hrow : s.db.case? c with
  | none =>
    rw [Transaction.failsWith_bind]
    constructor
    · rintro (⟨failure, hfailure, hstatus⟩ | ⟨row, _, hdemand, -⟩)
      · cases hfailure
        cases hstatus
      · cases (Transaction.demand_eq_ok.mp hdemand).1
    · rintro ⟨row, hnone, -⟩
      cases hnone
  | some row =>
    rw [Transaction.failsWith_bind_of_ok (Transaction.demand_eq_ok.mpr ⟨rfl, rfl⟩)]
    simp only [Option.some.injEq, exists_eq_left']
    by_cases hclosed : row.status.isClosed = true
    · rw [if_pos hclosed]
      refine ⟨fun hfails => absurd hfails (Transaction.not_failsWith_pure ()), fun hrow => ?_⟩
      rw [hclosed] at hrow
      cases hrow.1
    · rw [if_neg hclosed, and_iff_right (by simpa using hclosed)]
      by_cases hdue : row.expiresAt.any (· ≤ s.clock) = true
      · have hrequire : Transaction.require true (.thrown "CASE_NOT_EXPIRED_YET" : Failure) s.db =
            .ok ((), s.db) := rfl
        rw [hdue, Transaction.failsWith_bind_of_ok hrequire, failsWith_expireRows h hrow,
          and_iff_right rfl]
      · rw [Transaction.failsWith_bind]
        refine ⟨fun hfails => ?_, fun hall => absurd hall.1 hdue⟩
        rw [Bool.not_eq_true] at hdue
        rw [hdue] at hfails
        rcases hfails with ⟨failure, hfailure, hstatus⟩ | ⟨_, _, hrequire, -⟩
        · cases hfailure
          cases hstatus
        · cases (Transaction.require_eq_ok.mp hrequire).1

theorem allowed_expired_iff {status : CaseStatus} (hreached : status.isReached = true)
    (hclosed : status.isClosed = false) :
    (.expired = status ∨ .expired ∈ status.allowed) ↔ status.isOpen = true := by
  cases status <;> revert hreached hclosed <;> decide

/-- In every reachable state the handler's updates are legal exactly in these statuses. -/
theorem updatesLegally_iff (hs : s.Reachable) (handler : Handler) :
    UpdatesLegally s handler ↔ StatusesAllow s handler := by
  have h := standing_of_reachable hs
  have hlegal : (∀ c, handler ≠ .buildPackage c none) → (UpdatesLegally s handler ↔
      ¬Transaction.FailsWith (Failure.isStatusTransition · = true) (handler.tx s.clock) s.db) :=
    fun hother => ⟨fun hu => hu.legal, fun hl => ⟨hl, fun c _ heq => absurd heq (hother c)⟩⟩
  cases handler with
  | buildPackage c signerId =>
    cases signerId with
    | some signerId =>
      rw [hlegal (fun _ heq => by cases heq)]
      refine iff_of_true ?_ trivial
      rw [Handler.tx, buildEvidencePackage,
        Transaction.failsWith_bind_of_ok (Transaction.read_eq_ok.mpr ⟨rfl, rfl⟩)]
      split
      · exact Transaction.not_failsWith_pure ()
      · exact Transaction.not_failsWith_bind (Transaction.not_failsWith_rewrite _) fun _ _ _ =>
          Transaction.not_failsWith_bind not_failsWith_intents fun _ _ _ => not_failsWith_events
    | none =>
      constructor
      · intro hu row hrow hopen
        have hlegal := hu.legal
        rw [Handler.tx, failsWith_buildPackage h] at hlegal
        obtain ⟨hmem, hid⟩ := case?_eq_some hrow
        have hbuilt : ⟨c, none⟩ ∈ s.db.evidencePackages := by
          by_contra hnew
          exact hlegal ⟨hnew, row, hmem, hid, hopen⟩
        refine ⟨hbuilt, fun hsigned => ?_⟩
        -- a package that is there already changes nothing, and the case stays open
        obtain ⟨db, hok, hcompleted⟩ := hu.completes c row rfl hrow hopen hsigned
        rw [buildEvidencePackage, Transaction.read_bind,
          if_pos (any_evidencePackages_iff.mpr hbuilt)] at hok
        obtain ⟨-, rfl⟩ := Transaction.pure_eq_ok.mp hok
        rw [hrow, Option.map_some, Option.some.injEq] at hcompleted
        rw [hcompleted] at hopen
        cases hopen
      · intro hallow
        refine ⟨?_, fun c' row heq hrow hopen hsigned => ?_⟩
        · rw [Handler.tx, failsWith_buildPackage h]
          rintro ⟨hnew, row, hmem, hid, hopen⟩
          have hrow : s.db.case? c = some row := by
            rw [Db.case?, ← hid]
            exact find?_of_mem h.casesKeyed hmem
          exact hnew (hallow row hrow hopen).1
        · cases heq
          exact absurd hsigned (hallow row hrow hopen).2
  | expireCase c =>
    rw [hlegal (fun _ heq => by cases heq), Handler.tx, failsWith_expireCase h]
    constructor
    · intro hlegal row hrow hclosed hdue
      have hallowed := allowed_expired_iff (h.reached row (case?_eq_some hrow).1) hclosed
      refine ⟨?_, fun signer hsigner hcase hpending => hlegal ⟨row, hrow, hclosed, hdue,
        Or.inr ⟨signer, hsigner, hcase, hpending⟩⟩⟩
      by_contra hclosed'
      exact hlegal ⟨row, hrow, hclosed, hdue, Or.inl (mt hallowed.mp hclosed')⟩
    · rintro hallow ⟨row, hrow, hclosed, hdue, hrefused | ⟨signer, hsigner, hcase, hpending⟩⟩
      · rw [allowed_expired_iff (h.reached row (case?_eq_some hrow).1) hclosed] at hrefused
        exact hrefused (hallow row hrow hclosed hdue).1
      · exact (hallow row hrow hclosed hdue).2 signer hsigner hcase hpending
  | failIdentity t =>
    rw [hlegal (fun _ heq => by cases heq)]
    by_cases hload : ∃ row, loadStarted s.db t = .ok row
    · obtain ⟨row, hrow⟩ := hload
      rw [Handler.tx, failsWith_failIdentityTransaction h hrow, ← not_sessionSignerActs, not_not]
      refine ⟨fun hacts row' hrow' => ?_, fun hall => hall row hrow⟩
      cases hrow.symm.trans hrow'
      exact hacts
    · push Not at hload
      exact iff_of_true (not_failsWith_loadStarted hload) fun row hrow => absurd hrow (hload row)
  | failVerification t =>
    rw [hlegal (fun _ heq => by cases heq)]
    by_cases hload : ∃ row, loadStarted s.db t = .ok row
    · obtain ⟨row, hrow⟩ := hload
      rw [Handler.tx, failsWith_recordVerification h hrow, ← not_sessionSignerActs, not_and, not_not]
      refine ⟨fun hacts row' hrow' => ?_, fun hall => hall row hrow⟩
      cases hrow.symm.trans hrow'
      exact hacts
    · push Not at hload
      exact iff_of_true (not_failsWith_loadStarted hload) fun row hrow => absurd hrow (hload row)
  | commitValidation run =>
    rw [hlegal (fun _ heq => by cases heq)]
    exact iff_of_true (not_failsWith_commitValidation run) trivial

end Handlers

/-! ## Runs -/

/-- In a case that has just been sent, an expiry before the time has come is legal. -/
theorem updatesLegally_iff_sent : ∃ s, s.Reachable ∧
    (UpdatesLegally s (.expireCase 1) ↔ StatusesAllow s (.expireCase 1)) := by
  obtain ⟨s, hs⟩ : ∃ s, Sys.after [.prepareCase (Intake.sample 1 [(1, true)]), .send 1 idText] =
    some s := Option.isSome_iff_exists.mp (by decide +kernel)
  exact ⟨s, Sys.reachable_of_after hs, updatesLegally_iff (Sys.reachable_of_after hs) _⟩

/-- The signer signs, and then the package of the case is rolled back: the case is still `sent`. -/
theorem not_updatesLegally_of_sent : ¬∀ s : Sys, s.Reachable → ∀ handler, UpdatesLegally s handler := by
  intro hall
  obtain ⟨s, hs, -, -, failure, hfailure, hstatus⟩ : ∃ s ∈ Sys.after
      (.prepareCase (Intake.sample 1 [(1, true)]) :: .send 1 idText :: Step.identify 0 0 ++
        Step.sign 0 1 100 200 ++ Step.validate ⟨0, 1, 1, 0, .signed 0 0⟩),
      (∀ signer ∈ s.db.signers, signer.status = .signed) ∧ .casePackage 1 ∈ s.db.jobs ∧
        ∃ failure ∈ (match buildEvidencePackage 1 none s.db with
          | .error failure => some failure
          | .ok _ => none), failure.isStatusTransition = true := by decide +kernel
  refine (hall s (Sys.reachable_of_after hs) (.buildPackage 1 none)).legal ⟨failure, ?_, hstatus⟩
  rw [Handler.tx]
  split at hfailure
  · next failure' heq =>
    rw [heq, Option.mem_some.mp hfailure]
  · cases hfailure

/-- A case with one signer, who has been invited and has not answered. -/
theorem expires_iff_invited : ∃ (s : Sys) (row : SignatureCase), s.Reachable ∧
    s.db.case? 1 = some row ∧ (s.Expires 1 ↔
      ∀ signer ∈ s.db.signers, signer.signatureCaseId = 1 → signer.status ≠ .pending) := by
  obtain ⟨s, hs, row, hrow, hopen, hdue⟩ : ∃ s ∈ Sys.after
      [.prepareCase (Intake.sample 1 [(1, true)]), .send 1 idText, .tick 2000000],
      ∃ row ∈ s.db.case? 1, row.status.isOpen = true ∧
        row.expiresAt.any (· ≤ s.clock) = true := by decide +kernel
  exact ⟨s, row, Sys.reachable_of_after hs, hrow,
    expires_iff (Sys.reachable_of_after hs) hrow hopen hdue⟩

/-- With a second group that still waits for its turn, the expiry is rolled back. -/
theorem not_expires_of_pending : ¬∀ (s : Sys) c row, s.Reachable → s.db.case? c = some row →
    row.status.isOpen = true → row.expiresAt.any (· ≤ s.clock) = true → s.Expires c := by
  intro hall
  obtain ⟨s, hs, hnone, row, hrow, hopen, hdue⟩ : ∃ s ∈ Sys.after
      [.prepareCase (Intake.sample 1 [(1, true), (2, true)]), .send 1 idText, .tick 2000000],
      (Sys.step s (.expire 1)).isNone = true ∧ ∃ row ∈ s.db.case? 1, row.status.isOpen = true ∧
        row.expiresAt.any (· ≤ s.clock) = true := by decide +kernel
  obtain ⟨s', hs', -⟩ := hall s 1 row (Sys.reachable_of_after hs) hrow hopen hdue
  rw [hs'] at hnone
  cases hnone

end Kommunsign
