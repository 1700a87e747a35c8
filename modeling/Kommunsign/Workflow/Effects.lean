import Kommunsign.Data.RowOperations
import Kommunsign.Workflow.Moves

/-!
# What a transaction does to statuses, and what it announces

Every transaction of the workflow but the intake of a case leaves the cases and signers there are,
and moves their statuses along the transition tables. Which of them it may move, and where to, is
its `Effect`, together with the signers it may announce as signed and the cases it may announce as
completed.

* `Effect`, `Leaves` — what is allowed, and what a transaction with that effect leaves
* `Changes.keeps` — what every allowed transition keeps, the whole transaction keeps
-/

namespace Kommunsign

open Infra

/-! ## Effects -/

/-- An event that says that something is finished. -/
def EventType.isAnnouncement : EventType → Bool
  | .signer_signed | .case_completed => true
  | _ => false

/-- What a transaction may do to the statuses, insert, announce, queue and sign. -/
structure Effect where
  /-- The case with this id may go from the first status to the second. -/
  case : Id → CaseStatus → CaseStatus → Prop
  /-- The signer with this id, of the case with this id, may go from the first to the second. -/
  signer : Id → Id → SignerStatus → SignerStatus → Prop
  intent : Id → IntentStatus → IntentStatus → Prop
  attempt : Id → AttemptStatus → AttemptStatus → Prop
  /-- There may be new rows in this table. -/
  inserts : TableName → Prop
  announces : EventType → Id → Prop
  queues : DurableJob → Prop
  /-- There may be new signatures of this signer. -/
  signs : Id → Prop
  /-- There may be new invitations of this signer that expire then. -/
  invites : Id → Time → Prop

/-- Statuses stay, nothing is inserted, announced or queued. -/
def Effect.none : Effect where
  case _ _ _ := False
  signer _ _ _ _ := False
  intent _ _ _ := False
  attempt _ _ _ := False
  inserts _ := False
  announces _ _ := False
  queues _ := False
  signs _ := False
  invites _ _ := False

structure CaseChange (e : Effect) (old new : SignatureCase) : Prop extends CaseMove old new where
  change : Changes CaseStatus.allowed (e.case old.id) old.status new.status

structure SignerChange (e : Effect) (old new : Signer) : Prop extends SignerMove old new where
  change : Changes SignerStatus.allowed (e.signer old.id old.signatureCaseId) old.status new.status

structure IntentChange (e : Effect) (old new : SigningIntent) : Prop extends IntentMove old new where
  change : Changes IntentStatus.allowed (e.intent old.id) old.status new.status

structure AttemptChange (e : Effect) (old new : SignatureAttempt) : Prop
    extends AttemptMove old new where
  change : Changes AttemptStatus.allowed (e.attempt old.id) old.status new.status

theorem CaseChange.refl (e : Effect) (c : SignatureCase) : CaseChange e c c :=
  ⟨CaseMove.refl c, .refl⟩

theorem SignerChange.refl (e : Effect) (s : Signer) : SignerChange e s s :=
  ⟨SignerMove.refl s, .refl⟩

theorem IntentChange.refl (e : Effect) (si : SigningIntent) : IntentChange e si si :=
  ⟨IntentMove.refl si, .refl⟩

theorem AttemptChange.refl (e : Effect) (a : SignatureAttempt) : AttemptChange e a a :=
  ⟨AttemptMove.refl a, .refl⟩

theorem CaseChange.trans {e : Effect} (a b c : SignatureCase) (h : CaseChange e a b)
    (h' : CaseChange e b c) : CaseChange e a c := by
  refine ⟨CaseMove.trans a b c h.toCaseMove h'.toCaseMove, h.change.trans ?_⟩
  rw [← h.id]
  exact h'.change

theorem SignerChange.trans {e : Effect} (a b c : Signer) (h : SignerChange e a b)
    (h' : SignerChange e b c) : SignerChange e a c := by
  refine ⟨SignerMove.trans a b c h.toSignerMove h'.toSignerMove, h.change.trans ?_⟩
  rw [← h.id, ← h.toSignerMove.signatureCaseId]
  exact h'.change

theorem IntentChange.trans {e : Effect} (a b c : SigningIntent) (h : IntentChange e a b)
    (h' : IntentChange e b c) : IntentChange e a c := by
  refine ⟨IntentMove.trans a b c h.toIntentMove h'.toIntentMove, h.change.trans ?_⟩
  rw [← h.toIntentMove.id]
  exact h'.change

theorem AttemptChange.trans {e : Effect} (a b c : SignatureAttempt) (h : AttemptChange e a b)
    (h' : AttemptChange e b c) : AttemptChange e a c := by
  refine ⟨AttemptMove.trans a b c h.toAttemptMove h'.toAttemptMove, h.change.trans ?_⟩
  rw [← h.id]
  exact h'.change

/-- An invitation made by now that the effect allows, of a signer whose turn has come. -/
def Invited (e : Effect) (now : Time) (db : Db) (i : SignerInvitation) : Prop :=
  i.createdAt ≤ now ∧ e.invites i.signerId i.expiresAt ∧
    ∃ s ∈ db.signers, s.id = i.signerId ∧ 1 ≤ s.status.stage

/-- What a transaction with an effect leaves. -/
structure Leaves (e : Effect) (now : Time) (db db' : Db) : Prop where
  cases : Moved (CaseChange e) db.cases db'.cases
  documents : db'.documents = db.documents
  versions : Moved VersionMove db.versions db'.versions
  signers : Moved (SignerChange e) db.signers db'.signers
  invitations : ∀ i' ∈ db'.invitations,
    (∃ i ∈ db.invitations, InvitationMove i i') ∨ Invited e now db' i'
  intents : Extends (IntentChange e) (fun _ => e.inserts .intents) db.intents db'.intents
  intentDocuments : Extends Eq (fun _ => e.inserts .intentDocuments) db.intentDocuments
    db'.intentDocuments
  identityTransactions : Extends SessionMove (fun _ => e.inserts .identityTransactions)
    db.identityTransactions db'.identityTransactions
  sessions : ∀ t' ∈ db'.identityTransactions,
    (∃ t ∈ db.identityTransactions, t'.signingIntentId = t.signingIntentId) ∨
      ∀ i ∈ t'.signingIntentId, (db'.intent? i).isSome = true
  identityArtifacts : Extends Eq (fun _ => e.inserts .identityArtifacts) db.identityArtifacts
    db'.identityArtifacts
  attempts : Extends (AttemptChange e) (fun a => e.signs a.signerId) db.attempts db'.attempts
  artifacts : Extends Eq (fun _ => ∃ signerId, e.signs signerId) db.artifacts db'.artifacts
  validationRuns : Extends Eq (fun _ => e.inserts .validationRuns) db.validationRuns
    db'.validationRuns
  evidencePackages : db.evidencePackages ⊆ db'.evidencePackages
  queued : db.jobs ⊆ db'.jobs
  jobs : ∀ job ∈ db'.jobs, job ∈ db.jobs ∨ e.queues job
  events : ∀ event : Event, event.eventType.isAnnouncement = true →
    db'.events.count event = db.events.count event ∨ e.announces event.eventType event.resourceId

variable {e : Effect} {now : Time} {db db' db'' : Db}

theorem isSome_intent? {new : SigningIntent → Prop}
    (h : Extends (IntentChange e) new db.intents db'.intents) {id : Id}
    (hid : (db.intent? id).isSome = true) : (db'.intent? id).isSome = true := by
  obtain ⟨si, hsi⟩ := Option.isSome_iff_exists.mp hid
  obtain ⟨si', hsi', -⟩ :=
    h.find?_eq_some (fun row : SigningIntent => row.id) (fun _ _ hchange => hchange.id) hsi
  exact Option.isSome_iff_exists.mpr ⟨si', hsi'⟩

theorem Invited.of_signers {i i' : SignerInvitation} (h : Invited e now db i)
    (hsigners : Moved (SignerChange e) db.signers db'.signers) (hmove : InvitationMove i i') :
    Invited e now db' i' := by
  obtain ⟨hle, hinvites, s, hs, hid, hstage⟩ := h
  obtain ⟨s', hs', hchange⟩ := hsigners.exists_after hs
  refine ⟨hmove.createdAt ▸ hle, ?_, s', hs', hchange.id.trans (hid.trans hmove.signerId.symm),
    hstage.trans hchange.stage_le⟩
  rw [hmove.signerId, hmove.expiresAt]
  exact hinvites

namespace Leaves

theorem refl (now : Time) (db : Db) : Leaves e now db db where
  cases := Moved.refl (CaseChange.refl e) _
  documents := rfl
  versions := Moved.refl VersionMove.refl _
  signers := Moved.refl (SignerChange.refl e) _
  invitations i hi := Or.inl ⟨i, hi, InvitationMove.refl i⟩
  intents := Extends.refl (IntentChange.refl e) _
  intentDocuments := Extends.refl (fun _ => rfl) _
  identityTransactions := Extends.refl SessionMove.refl _
  sessions t ht := Or.inl ⟨t, ht, rfl⟩
  identityArtifacts := Extends.refl (fun _ => rfl) _
  attempts := Extends.refl (AttemptChange.refl e) _
  artifacts := Extends.refl (fun _ => rfl) _
  validationRuns := Extends.refl (fun _ => rfl) _
  evidencePackages := List.Subset.refl _
  queued := List.Subset.refl _
  jobs _ hjob := Or.inl hjob
  events _ _ := Or.inl rfl

theorem trans (db db' db'' : Db) (h : Leaves e now db db') (h' : Leaves e now db' db'') :
    Leaves e now db db'' where
  cases := h.cases.trans CaseChange.trans h'.cases
  documents := h'.documents.trans h.documents
  versions := h.versions.trans VersionMove.trans h'.versions
  signers := h.signers.trans SignerChange.trans h'.signers
  invitations i'' hi'' := by
    rcases h'.invitations i'' hi'' with ⟨i', hi', hmove'⟩ | hnew
    · rcases h.invitations i' hi' with ⟨i, hi, hmove⟩ | hnew
      · exact Or.inl ⟨i, hi, hmove.trans _ _ _ hmove'⟩
      · exact Or.inr (hnew.of_signers h'.signers hmove')
    · exact Or.inr hnew
  intents := h.intents.trans IntentChange.trans (fun _ _ _ => id) h'.intents
  intentDocuments := h.intentDocuments.trans (fun _ _ _ => Eq.trans) (fun _ _ _ => id)
    h'.intentDocuments
  identityTransactions := h.identityTransactions.trans SessionMove.trans (fun _ _ _ => id)
    h'.identityTransactions
  sessions t'' ht'' := by
    rcases h'.sessions t'' ht'' with ⟨t', ht', hintent'⟩ | hnew
    · rw [hintent']
      rcases h.sessions t' ht' with hold | hnew
      · exact Or.inl hold
      · exact Or.inr fun i hi => isSome_intent? h'.intents (hnew i hi)
    · exact Or.inr hnew
  identityArtifacts := h.identityArtifacts.trans (fun _ _ _ => Eq.trans) (fun _ _ _ => id)
    h'.identityArtifacts
  attempts := h.attempts.trans AttemptChange.trans
    (fun _ _ hchange hnew => hchange.signerId ▸ hnew) h'.attempts
  artifacts := h.artifacts.trans (fun _ _ _ => Eq.trans) (fun _ _ _ => id) h'.artifacts
  validationRuns := h.validationRuns.trans (fun _ _ _ => Eq.trans) (fun _ _ _ => id)
    h'.validationRuns
  evidencePackages := List.Subset.trans h.evidencePackages h'.evidencePackages
  queued := List.Subset.trans h.queued h'.queued
  jobs job hjob := by
    rcases h'.jobs job hjob with hjob | hnew
    · exact h.jobs job hjob
    · exact Or.inr hnew
  events event hevent := by
    rcases h'.events event hevent with hsame' | hnew
    · rcases h.events event hevent with hsame | hnew
      · exact Or.inl (hsame'.trans hsame)
      · exact Or.inr hnew
    · exact Or.inr hnew

end Leaves

/-- Every successful outcome of the transaction, from any state, has the effect. -/
abbrev HasEffect {α : Type} (e : Effect) (now : Time) (tx : Tx α) : Prop :=
  ∀ db, Transaction.Within (Leaves e now) tx db

namespace HasEffect

variable {α β : Type}

theorem pure (a : α) : HasEffect e now (Pure.pure a : Tx α) :=
  fun _ => Transaction.Within.pure (Leaves.refl now) a

theorem read : HasEffect e now (Transaction.read : Tx Db) :=
  fun _ => Transaction.Within.read (Leaves.refl now)

theorem check (c : Db → Except Failure Unit) : HasEffect e now (Transaction.check c) := by
  intro db u db' h
  obtain ⟨-, rfl⟩ := Transaction.check_eq_ok.mp h
  exact Leaves.refl now _

theorem bind {x : Tx α} {f : α → Tx β} (hx : HasEffect e now x) (hf : ∀ a, HasEffect e now (f a)) :
    HasEffect e now (x >>= f) :=
  fun db => Transaction.Within.bind Leaves.trans (hx db) fun a s₁ _ => hf a s₁

theorem ignore {x : Tx Nat} {f : Tx β} (hx : HasEffect e now x) (hf : HasEffect e now f) :
    HasEffect e now (x >>= fun _ => f) := hx.bind fun _ => hf

theorem ite {c : Prop} [Decidable c] {x y : Tx α} (hx : HasEffect e now x)
    (hy : HasEffect e now y) : HasEffect e now (if c then x else y) :=
  fun db => Transaction.Within.ite (fun _ => hx db) fun _ => hy db

theorem demand (failure : Failure) (o : Option α) :
    HasEffect e now (Transaction.demand failure o) :=
  fun _ => Transaction.Within.demand (Leaves.refl now) failure o

theorem forEach {f : α → Tx Unit} : ∀ items, (∀ a ∈ items, HasEffect e now (f a)) →
    HasEffect e now (Transaction.forEach f items)
  | [], _ => pure ()
  | a :: items, h => (h a List.mem_cons_self).bind fun _ =>
    forEach items fun b hb => h b (List.mem_cons_of_mem _ hb)

end HasEffect

/-! ## The statements -/

section Statements

variable {actor : ActorKind}

theorem count_append_other {events : List Event} {added event : Event} (h : added ≠ event) :
    (events ++ [added]).count event = events.count event := by
  rw [List.count_append, List.count_singleton, if_neg (by simpa using h), Nat.add_zero]

theorem effect_audit {eventType : EventType} {id : Id}
    (h : eventType.isAnnouncement = true → e.announces eventType id) :
    HasEffect e now (audit eventType id) := by
  intro db u db' hok
  obtain rfl := Transaction.rewrite_eq_ok.mp hok
  refine { Leaves.refl now db with events := fun event hevent => ?_ }
  by_cases heq : (⟨.audit, eventType, id⟩ : Event) = event
  · subst heq
    exact Or.inr (h hevent)
  · exact Or.inl (count_append_other heq)

theorem effect_outbox {eventType : EventType} {id : Id}
    (h : eventType.isAnnouncement = true → e.announces eventType id) :
    HasEffect e now (outbox eventType id) := by
  intro db u db' hok
  obtain rfl := Transaction.rewrite_eq_ok.mp hok
  refine { Leaves.refl now db with events := fun event hevent => ?_ }
  by_cases heq : (⟨.outbox, eventType, id⟩ : Event) = event
  · subst heq
    exact Or.inr (h hevent)
  · exact Or.inl (count_append_other heq)

theorem silent_audit {eventType : EventType} {id : Id} (h : eventType.isAnnouncement = false) :
    HasEffect e now (audit eventType id) :=
  effect_audit fun hannounced => absurd (h.symm.trans hannounced) Bool.false_ne_true

theorem silent_outbox {eventType : EventType} {id : Id} (h : eventType.isAnnouncement = false) :
    HasEffect e now (outbox eventType id) :=
  effect_outbox fun hannounced => absurd (h.symm.trans hannounced) Bool.false_ne_true

theorem effect_enqueue {job : DurableJob} (h : e.queues job) : HasEffect e now (enqueue job) := by
  intro db u db' hok
  obtain rfl := Transaction.rewrite_eq_ok.mp hok
  refine { Leaves.refl now db with queued := subset_queueJob _ _, jobs := fun queued hqueued => ?_ }
  rcases mem_queueJob hqueued with hold | rfl
  · exact Or.inl hold
  · exact Or.inr h

theorem effect_caseStatus {p : SignatureCase → Bool} (status : CaseStatus)
    (h : ∀ c, p c = true → e.case c.id c.status status) :
    HasEffect e now ((Tables.cases actor).update p fun c => { c with status := status }) := by
  intro db n db' hok
  obtain ⟨hrows, rfl, -⟩ := Table.update_eq_ok.mp hok
  refine { Leaves.refl now db with cases := Moved.assign (CaseChange.refl e) fun c hc hp => ?_ }
  have hrow := hrows c hc hp
  simp only [Tables.cases, refuse_append] at hrow
  exact ⟨⟨rfl, rfl, rfl, Reaches.of_transition hrow.1.1.1.2⟩,
    Changes.of_transition hrow.1.1.1.2 (h c hp)⟩

theorem signerChange_of_update {s : Signer} {status : SignerStatus}
    {bouncedAt complainedAt : Option Time}
    (hok : (Tables.signers actor).onUpdate db s (s.withStatus status bouncedAt complainedAt) = .ok ())
    (h : status = s.status ∨ e.signer s.id s.signatureCaseId s.status status) :
    SignerChange e s (s.withStatus status bouncedAt complainedAt) := by
  refine ⟨signerMove_of_update hok, ?_⟩
  rcases h with rfl | hmay
  · exact Relation.ReflTransGen.refl
  · simp only [Tables.signers, refuse_append] at hok
    exact Changes.of_transition hok.1.1.1.2 hmay

theorem effect_updateSigners {p : Signer → Bool} (status : Signer → SignerStatus)
    (bouncedAt complainedAt : Signer → Option Time)
    (h : ∀ s, p s = true → status s = s.status ∨
      e.signer s.id s.signatureCaseId s.status (status s)) :
    HasEffect e now ((Tables.signers actor).update p fun s =>
      s.withStatus (status s) (bouncedAt s) (complainedAt s)) := by
  intro db n db' hok
  obtain ⟨hrows, rfl, -⟩ := Table.update_eq_ok.mp hok
  refine { Leaves.refl now db with
    signers := Moved.assign (SignerChange.refl e) fun s hs hp => ?_
    invitations := fun i hi => Or.inl ⟨i, hi, InvitationMove.refl i⟩ }
  exact signerChange_of_update (hrows s hs hp) (h s hp)

theorem effect_signerStatus {p : Signer → Bool} (status : Signer → SignerStatus)
    (h : ∀ s, p s = true → status s = s.status ∨
      e.signer s.id s.signatureCaseId s.status (status s)) :
    HasEffect e now ((Tables.signers actor).update p fun s => { s with status := status s }) :=
  effect_updateSigners status (·.hardBouncedAt) (·.complainedAt) h

theorem effect_intentStatus {p : SigningIntent → Bool} (status : SigningIntent → IntentStatus)
    (h : ∀ si, p si = true → e.intent si.id si.status (status si)) :
    HasEffect e now (Tables.intents.update p fun si => { si with status := status si }) := by
  intro db n db' hok
  obtain ⟨hrows, rfl, -⟩ := Table.update_eq_ok.mp hok
  refine { Leaves.refl now db with
    intents := Extends.of_moved (Moved.assign (IntentChange.refl e) fun si hsi hp => ?_)
    sessions := fun t ht => Or.inl ⟨t, ht, rfl⟩ }
  have hrow := hrows si hsi hp
  simp only [Tables.intents, protectSigningIntent, refuse_append] at hrow
  exact ⟨⟨rfl, Reaches.of_transition hrow.1.2⟩, Changes.of_transition hrow.1.2 (h si hp)⟩

theorem effect_advanceIntent {signingIntentId : Id} {old new : IntentStatus}
    (h : e.intent signingIntentId old new) :
    HasEffect e now (advanceIntent signingIntentId old new) := by
  refine effect_intentStatus (fun _ => new) fun si hp => ?_
  rw [Bool.and_eq_true, beq_iff_eq, beq_iff_eq] at hp
  rw [hp.1, hp.2]
  exact h

theorem effect_updateInvitations {p : SignerInvitation → Bool}
    (openedAt usedAt revokedAt : SignerInvitation → Option Time) :
    HasEffect e now (Tables.invitations.update p fun i =>
      { i with firstOpenedAt := openedAt i, usedAt := usedAt i, revokedAt := revokedAt i }) := by
  intro db n db' hok
  obtain ⟨-, rfl, -⟩ := Table.update_eq_ok.mp hok
  refine { Leaves.refl now db with invitations := fun i' hi' => Or.inl ?_ }
  obtain ⟨i, hi, rfl⟩ := mem_assign.mp hi'
  refine ⟨i, hi, ?_⟩
  split
  · exact ⟨rfl, rfl, rfl⟩
  · exact InvitationMove.refl i

theorem effect_insertInvitation {i : SignerInvitation} (hcreated : i.createdAt ≤ now)
    (hinvites : e.invites i.signerId i.expiresAt)
    (hsigner : ∃ s ∈ db.signers, s.id = i.signerId ∧ 1 ≤ s.status.stage) :
    Transaction.Within (Leaves e now) (Tables.invitations.insert i) db := by
  intro u db' hok
  obtain ⟨-, rfl⟩ := Table.insert_eq_ok.mp hok
  refine { Leaves.refl now db with invitations := fun i' hi' => ?_ }
  rcases List.mem_append.mp hi' with hold | hnew
  · exact Or.inl ⟨i', hold, InvitationMove.refl i'⟩
  · rw [List.mem_singleton.mp hnew]
    exact Or.inr ⟨hcreated, hinvites, hsigner⟩

/--
An invitation and the statement that makes its signer `invited`: the invitation is inserted while
the signer may still be pending, and the statement settles it.
-/
theorem effect_invite {i : SignerInvitation} {p : Signer → Bool} {db₁ db₂ : Db} {u : Unit} {n : Nat}
    (hcreated : i.createdAt ≤ now) (hinvites : e.invites i.signerId i.expiresAt)
    (hpending : ∀ s, s.id = i.signerId → s.status = .pending → p s = true)
    (h : ∀ s, p s = true → e.signer s.id s.signatureCaseId s.status .invited)
    (h₁ : Tables.invitations.insert i db = .ok (u, db₁))
    (h₂ : (Tables.signers actor).update p (fun s => { s with status := .invited }) db₁
      = .ok (n, db₂)) : Leaves e now db db₂ := by
  obtain ⟨hinsert, rfl⟩ := Table.insert_eq_ok.mp h₁
  obtain ⟨hrows, rfl, -⟩ := Table.update_eq_ok.mp h₂
  refine { Leaves.refl now db with
    signers := Moved.assign (SignerChange.refl e) fun s hs hp =>
      show SignerChange e s (s.withStatus .invited s.hardBouncedAt s.complainedAt) from
        signerChange_of_update (hrows s hs hp) (Or.inr (h s hp))
    invitations := fun i' hi' => ?_ }
  rcases List.mem_append.mp hi' with hold | hnew
  · exact Or.inl ⟨i', hold, InvitationMove.refl i'⟩
  · rw [List.mem_singleton.mp hnew]
    obtain ⟨s, hs, hid⟩ := exists_signer_of_invitation hinsert
    refine Or.inr ⟨hcreated, hinvites, _, mem_assign.mpr ⟨s, hs, rfl⟩, ?_⟩
    by_cases hp : p s = true
    · rw [if_pos hp]
      exact ⟨hid, le_rfl⟩
    · rw [if_neg hp]
      refine ⟨hid, Nat.one_le_iff_ne_zero.mpr fun hstage => hp ?_⟩
      exact hpending s hid (SignerStatus.eq_pending hstage)

theorem effect_updateSessions {p : IdentityTransaction → Bool}
    {f : IdentityTransaction → IdentityTransaction} (h : ∀ t, SessionMove t (f t)) :
    HasEffect e now (Tables.identityTransactions.update p f) := by
  intro db n db' hok
  obtain ⟨-, rfl, -⟩ := Table.update_eq_ok.mp hok
  refine { Leaves.refl now db with
    identityTransactions := Extends.of_moved (Moved.assign SessionMove.refl fun t _ _ => h t)
    sessions := fun t' ht' => ?_ }
  obtain ⟨t, ht, rfl⟩ := mem_assign.mp ht'
  refine Or.inl ⟨t, ht, ?_⟩
  split
  · exact (h t).intent
  · rfl

theorem effect_insertSession {t : IdentityTransaction} (h : e.inserts .identityTransactions) :
    HasEffect e now (Tables.identityTransactions.insert t) := by
  intro db u db' hok
  obtain ⟨hinsert, rfl⟩ := Table.insert_eq_ok.mp hok
  refine { Leaves.refl now db with
    identityTransactions := Extends.append SessionMove.refl fun _ _ => h
    sessions := fun t' ht' => ?_ }
  rcases List.mem_append.mp ht' with hold | hnew
  · exact Or.inl ⟨t', hold, rfl⟩
  · rw [List.mem_singleton.mp hnew]
    simp only [Tables.identityTransactions, refuse_append, refuse_violates, Option.any_eq_false,
      Option.isNone_eq_false_iff] at hinsert
    exact Or.inr hinsert.1.1.2

theorem effect_insertIntent {si : SigningIntent} (h : e.inserts .intents) :
    HasEffect e now (Tables.intents.insert si) := by
  intro db u db' hok
  obtain ⟨-, rfl⟩ := Table.insert_eq_ok.mp hok
  exact { Leaves.refl now db with
    intents := Extends.append (IntentChange.refl e) fun _ _ => h
    sessions := fun t ht => Or.inl ⟨t, ht, rfl⟩ }

theorem effect_insertIntentDocument {d : SigningIntentDocument} (h : e.inserts .intentDocuments) :
    HasEffect e now (Tables.intentDocuments.insert d) := by
  intro db u db' hok
  obtain ⟨-, rfl⟩ := Table.insert_eq_ok.mp hok
  exact { Leaves.refl now db with
    intentDocuments := Extends.append (fun _ => rfl) fun _ _ => h }

theorem effect_lockVersions (c : Id) : HasEffect e now (lockVersions now c) := by
  intro db n db' hok
  rw [lockVersions, Transaction.read_bind] at hok
  obtain ⟨-, rfl, -⟩ := Table.update_eq_ok.mp hok
  refine { Leaves.refl now db with versions := Moved.assign VersionMove.refl fun v _ hp => ?_ }
  rw [Bool.and_eq_true, beq_iff_eq] at hp
  exact ⟨rfl, Or.inr ⟨hp.1, rfl⟩⟩

end Statements

/-! ## The transactions -/

theorem effect_endOpenCase {actor : ActorKind} {c : Id} {status : CaseStatus}
    (h : ∀ old : CaseStatus, old.isOpen = true → e.case c old status) :
    HasEffect e now (endOpenCase actor c status) := by
  refine effect_caseStatus status fun row hp => ?_
  rw [Bool.and_eq_true, beq_iff_eq] at hp
  exact hp.1 ▸ h row.status hp.2

theorem effect_inviteFirst {expiresAt : Time} {signerId : Id}
    (h : ∀ c old, e.signer signerId c old .invited) (hinvites : e.invites signerId expiresAt) :
    HasEffect e now (inviteFirst now expiresAt signerId) := by
  intro db u db' hok
  rw [inviteFirst, Transaction.read_bind] at hok
  simp only [Transaction.bind_eq_ok] at hok
  obtain ⟨_, db₁, h₁, n, db₂, h₂, h₃⟩ := hok
  refine Leaves.trans _ _ _
    (effect_invite le_rfl hinvites (fun s hid _ => ?_) (fun s hp => ?_) h₁ h₂) ?_
  · exact beq_iff_eq.mpr hid
  · exact beq_iff_eq.mp hp ▸ h s.signatureCaseId s.status
  · exact silent_outbox (by rfl) _ _ _ h₃

theorem effect_sendSigner {nonce : Id → Text} {c : SignatureCase} {rows : List SigningDocumentRow}
    {group : Nat} {signer : Signer} (hintents : e.inserts .intents)
    (hdocuments : e.inserts .intentDocuments)
    (h : signer.signingOrder = group → ∀ c old, e.signer signer.id c old .invited)
    (hinvites : e.invites signer.id (now + 3600000)) :
    HasEffect e now (sendSigner now nonce c rows group signer) := by
  refine (HasEffect.demand _ _).bind fun _ => HasEffect.read.bind fun _ =>
    (effect_insertIntent hintents).bind fun _ =>
      (HasEffect.forEach _ fun _ _ => effect_insertIntentDocument hdocuments).bind fun _ => ?_
  by_cases hfirst : signer.signingOrder = group
  · rw [if_pos hfirst]
    exact effect_inviteFirst (h hfirst) hinvites
  · rw [if_neg hfirst]
    exact HasEffect.pure ()

theorem effect_transitionCase {c : Id} {status : CaseStatus} {eventType : EventType}
    {before : SignatureCase → Tx Unit} (hcase : ∀ old, e.case c old status)
    (hevent : eventType.isAnnouncement = false)
    (hbefore : ∀ row, db.case? c = some row → Transaction.Within (Leaves e now) (before row) db) :
    Transaction.Within (Leaves e now) (transitionCase c status eventType before) db := by
  intro u db' hok
  rw [transitionCase, Transaction.read_bind] at hok
  obtain ⟨row, db₁, hrow, hrest⟩ := Transaction.bind_eq_ok.mp hok
  obtain ⟨hrow, rfl⟩ := Transaction.demand_eq_ok.mp hrow
  refine Transaction.Within.bind Leaves.trans (hbefore row hrow) (fun _ _ _ => ?_) u db' hrest
  refine HasEffect.ignore (effect_caseStatus status fun row hp => ?_) (silent_outbox hevent) _
  rw [beq_iff_eq] at hp
  exact hp ▸ hcase row.status

theorem effect_send {c : Id} {nonce : Id → Text} (hcase : ∀ old, e.case c old .sent)
    (hintents : e.inserts .intents) (hdocuments : e.inserts .intentDocuments)
    (hsigner : ∀ signer ∈ db.signersInOrder c, signer.signingOrder = firstGroup (db.signersInOrder c) →
      ∀ c old, e.signer signer.id c old .invited)
    (hinvites : ∀ signer ∈ db.signersInOrder c, e.invites signer.id (now + 3600000)) :
    Transaction.Within (Leaves e now) (send now nonce c) db := by
  refine effect_transitionCase hcase rfl fun row hrow u db' hok => ?_
  obtain rfl : row.id = c := (exists_of_find?_key hrow).2
  rw [prepareIntents, Transaction.read_bind] at hok
  refine HasEffect.bind (HasEffect.check _) (fun _ => (effect_lockVersions _).ignore ?_) _ u db' hok
  refine (HasEffect.forEach _ fun signer hmem => ?_).bind fun _ => silent_outbox (by rfl)
  exact effect_sendSigner hintents hdocuments (hsigner signer hmem) (hinvites signer hmem)

theorem effect_cancel {c : Id} (hcase : ∀ old, e.case c old .cancelled) :
    HasEffect e now (cancel c) :=
  fun _ => effect_transitionCase hcase rfl fun _ _ => HasEffect.pure () _

theorem effect_expireCase {c : Id} (hcase : ∀ old, e.case c old .expired)
    (hsigner : ∀ x old, e.signer x c old .expired) : HasEffect e now (expireCase now c) := by
  refine HasEffect.read.bind fun _ => (HasEffect.demand _ _).bind fun row =>
    HasEffect.ite (HasEffect.pure ()) ?_
  refine HasEffect.bind (fun db => Transaction.Within.require (Leaves.refl now) _ _) fun _ => ?_
  refine (effect_caseStatus .expired fun row hp => ?_).ignore <|
    (effect_signerStatus (fun _ => .expired) fun s hp => Or.inr ?_).ignore <|
      HasEffect.read.bind fun _ => (effect_updateInvitations (·.firstOpenedAt) (·.usedAt)
        fun _ => some now).ignore <|
        (silent_audit (by rfl)).bind fun _ =>
          silent_outbox (by rfl)
  · rw [beq_iff_eq] at hp
    exact hp ▸ hcase row.status
  · rw [Bool.and_eq_true, beq_iff_eq] at hp
    exact hp.1 ▸ hsigner s.id s.status

theorem effect_remindSigner {signer : Id × Option Time}
    (hinvites : e.invites signer.1 (signer.2.getD (now + 7 * 86400000)))
    (h : ∃ s ∈ db.signers, s.id = signer.1 ∧ 1 ≤ s.status.stage) :
    Transaction.Within (Leaves e now) (remindSigner now signer) db := by
  refine Transaction.Within.bind Leaves.trans
    (effect_updateInvitations (·.firstOpenedAt) (·.usedAt) (fun _ => some now) db) fun n db₁ h₁ => ?_
  obtain ⟨-, rfl, -⟩ := Table.update_eq_ok.mp h₁
  refine Transaction.Within.bind Leaves.trans (HasEffect.read _) fun read db₂ h₂ => ?_
  obtain ⟨rfl, rfl⟩ := Transaction.read_eq_ok.mp h₂
  exact Transaction.Within.bind Leaves.trans (effect_insertInvitation le_rfl hinvites h) fun _ db₃ _ =>
    ((silent_audit (by rfl)).bind fun _ => silent_audit (by rfl)) db₃

theorem effect_sendReminders {c : Id} (hinvites : ∀ signer ∈ db.remindableSigners now c,
    e.invites signer.1 (signer.2.getD (now + 7 * 86400000))) :
    Transaction.Within (Leaves e now) (sendReminders now c) db := by
  refine Transaction.Within.bind Leaves.trans (HasEffect.read db) fun read db₁ h₁ => ?_
  obtain ⟨rfl, rfl⟩ := Transaction.read_eq_ok.mp h₁
  -- the signers who are left to remind have had their turn when the job began
  refine Transaction.Within.forEach (Leaves.refl now) Leaves.trans
    (fun signers db => ∀ signer ∈ signers,
      e.invites signer.1 (signer.2.getD (now + 7 * 86400000)) ∧
        ∃ s ∈ db.signers, s.id = signer.1 ∧ 1 ≤ s.status.stage)
    (fun signer rest db hinv => ?_) fun signer hsigner => ⟨hinvites signer hsigner, ?_⟩
  · have hremind : Transaction.Within (Leaves e now) (remindSigner now signer) db := by
      obtain ⟨hinvites, hturn⟩ := hinv signer List.mem_cons_self
      exact effect_remindSigner hinvites hturn
    refine ⟨hremind, fun u db' hstep other hother => ?_⟩
    obtain ⟨hinvites, s, hs, hid, hstage⟩ := hinv other (List.mem_cons_of_mem _ hother)
    obtain ⟨s', hs', hchange⟩ := (hremind u db' hstep).signers.exists_after hs
    exact ⟨hinvites, s', hs', hchange.id.trans hid, hstage.trans hchange.stage_le⟩
  · obtain ⟨s, hs, hsigner⟩ := List.mem_flatMap.mp hsigner
    obtain ⟨c, -, rfl⟩ := List.mem_map.mp hsigner
    obtain ⟨hmem, hs⟩ := List.mem_filter.mp hs
    simp only [Bool.and_eq_true, Bool.or_eq_true, beq_iff_eq] at hs
    refine ⟨s, hmem, rfl, ?_⟩
    rcases hs.1.1.2 with h | h <;> rw [h] <;> decide

theorem effect_recordDelivery (signerId : Id) (bounced : Bool) (occurredAt : Time) :
    HasEffect e now (recordDelivery signerId bounced occurredAt) :=
  (effect_updateSigners (·.status) (fun s => if bounced then some occurredAt else s.hardBouncedAt)
    (fun s => if bounced then s.complainedAt else some occurredAt) fun _ _ => Or.inl rfl).ignore
      (HasEffect.pure ())

theorem effect_markOpened {invitationId : Id} (h : ∀ x c, e.signer x c .invited .opened) :
    Transaction.Within (Leaves e now) (markOpened now invitationId) db := by
  refine within_reading fun row _ => HasEffect.ignore
    (effect_updateInvitations (fun i => some (i.firstOpenedAt.getD now)) (·.usedAt) (·.revokedAt))
    (HasEffect.ignore (effect_signerStatus _ fun s _ => ?_)
      (silent_outbox (by rfl))) db
  by_cases hinvited : s.status = .invited
  · rw [if_pos hinvited, hinvited]
    exact Or.inr (h s.id s.signatureCaseId)
  · rw [if_neg hinvited]
    exact Or.inl rfl

theorem effect_decline {invitationId : Id}
    (hsigner : ∀ c old, old = .invited ∨ old = .opened ∨ old = .identity_started →
      ∀ x, e.signer x c old .declined)
    (hcase : ∀ i row, openInvitation db now invitationId = .ok i → db.signer? i.signerId = some row →
      row.required = true → ∀ old : CaseStatus, old.isOpen = true →
        e.case row.signatureCaseId old .declined) :
    Transaction.Within (Leaves e now) (decline now invitationId) db := by
  refine within_reading fun i hi u db' hok => ?_
  rw [Transaction.read_bind] at hok
  obtain ⟨row, db₁, hdemand, hrest⟩ := Transaction.bind_eq_ok.mp hok
  obtain ⟨hrow, rfl⟩ := Transaction.demand_eq_ok.mp hdemand
  refine HasEffect.ignore (effect_signerStatus (fun _ => .declined) fun s hp => Or.inr ?_)
    (HasEffect.ignore (effect_updateInvitations (·.firstOpenedAt) (fun _ => some now) (·.revokedAt))
      ?_) _ u db' hrest
  · simp only [Bool.and_eq_true, Bool.or_eq_true, beq_iff_eq] at hp
    exact hsigner _ _ (or_assoc.mp hp.2) _
  · have hevent : HasEffect e now (outbox .signer_declined i.signerId) :=
      silent_outbox (by rfl)
    split
    · next hrequired => exact (effect_endOpenCase (hcase i row hi hrow hrequired)).ignore hevent
    · exact hevent

theorem effect_recordSession {reference : Nat} {start : StartInput}
    (hsession : e.inserts .identityTransactions)
    (hintent : ∀ x old, e.intent x old .provider_started)
    (h : ∀ x c old, e.signer x c old .identity_started) :
    HasEffect e now (recordSession now reference start) := by
  refine HasEffect.read.bind fun db =>
    HasEffect.bind (fun db => Transaction.Within.require (Leaves.refl now) _ _) fun _ => ?_
  refine (HasEffect.demand _ _).bind fun _ =>
    (effect_insertSession hsession).bind fun _ =>
      (effect_intentStatus (fun _ => .provider_started) fun _ _ => hintent _ _).ignore <|
        (effect_signerStatus (fun _ => .identity_started) fun _ _ => Or.inr (h _ _ _)).ignore <|
          silent_outbox (by rfl)

theorem effect_recordSessionStatus {t : Id} {status : ProviderStatus}
    (h : e.queues (.ticEvidenceCollect t)) : HasEffect e now (recordSessionStatus t status) := by
  refine (effect_updateSessions fun _ => by exact ⟨rfl, rfl, rfl⟩).ignore
    (HasEffect.ite ?_ (HasEffect.pure ()))
  exact (effect_enqueue h).bind fun _ => silent_outbox (by rfl)

theorem effect_cancelSession {t : Id} (h : ∀ x old, e.intent x old .cancelled) :
    HasEffect e now (cancelSession t) :=
  HasEffect.read.bind fun _ => (effect_updateSessions fun _ => by exact ⟨rfl, rfl, rfl⟩).ignore <|
    (effect_intentStatus (fun _ => .cancelled) fun _ _ => h _ _).ignore (HasEffect.pure ())

theorem effect_pollIdentity {t : Id} {status : ProviderStatus}
    (h : e.queues (.ticEvidenceCollect t)) : HasEffect e now (pollIdentity t status) := by
  unfold pollIdentity
  split
  · exact effect_enqueue h
  all_goals exact (effect_updateSessions fun _ => by exact ⟨rfl, rfl, rfl⟩).ignore (HasEffect.pure ())

theorem effect_failSigner {signerId : Id} (h : ∀ c old, e.signer signerId c old .failed) :
    HasEffect e now (failSigner signerId) := by
  refine effect_signerStatus (fun _ => .failed) fun s hp => Or.inr ?_
  simp only [Bool.and_eq_true, beq_iff_eq] at hp
  exact hp.1.1.1 ▸ h s.signatureCaseId s.status

theorem effect_collectEvidence {t : Id} {sha256 : Digest}
    (hintent : ∀ x, e.intent x .provider_started .evidence_collected)
    (hqueues : e.queues (.signatureValidate t)) :
    Transaction.Within (Leaves e now) (collectEvidence t sha256) db :=
  within_reading fun _ _ => HasEffect.ignore (effect_updateSessions fun _ => by exact ⟨rfl, rfl, rfl⟩)
    (HasEffect.ignore (effect_advanceIntent (hintent _)) <| (effect_enqueue hqueues).bind fun _ =>
      (silent_audit (by rfl)).bind fun _ =>
        silent_outbox (by rfl)) db

theorem effect_failIdentityTransaction {t : Id} (hintent : ∀ x old, e.intent x old .failed)
    (h : ∀ row, loadStarted db t = .ok row → ∀ c old, e.signer row.2.signerId c old .failed) :
    Transaction.Within (Leaves e now) (failIdentityTransaction t) db :=
  within_reading fun row hrow => HasEffect.ignore (effect_updateSessions fun _ => by exact ⟨rfl, rfl, rfl⟩)
    (HasEffect.ignore (effect_advanceIntent (hintent _ _)) <|
      (effect_failSigner (h row hrow)).ignore <|
        (silent_audit (by rfl)).bind fun _ =>
          silent_outbox (by rfl)) db

theorem effect_insertIdentityArtifact {artifact : IdentityArtifact}
    (h : e.inserts .identityArtifacts) : HasEffect e now (insertIdentityArtifact artifact) := by
  refine HasEffect.read.bind fun _ => HasEffect.ite (HasEffect.pure ()) fun db u db' hok => ?_
  obtain ⟨-, rfl⟩ := Table.insert_eq_ok.mp hok
  exact { Leaves.refl now db with
    identityArtifacts := Extends.append (fun _ => rfl) fun _ _ => h }

theorem effect_recordVerification {t : Id} {pass : Bool} (hartifact : e.inserts .identityArtifacts)
    (hverified : pass = true → ∀ x, e.intent x .evidence_collected .verified)
    (hfailed : ∀ x old, e.intent x old .failed) (hqueues : ∀ x, e.queues (.padesCreate x))
    (hpass : ∀ x c, e.signer x c .identity_started .identity_verified)
    (hfail : pass = false → ∀ row, loadStarted db t = .ok row →
      ∀ c old, e.signer row.2.signerId c old .failed) :
    Transaction.Within (Leaves e now) (recordVerification t pass) db := by
  refine within_reading fun row hrow =>
    HasEffect.bind (effect_insertIdentityArtifact hartifact) (fun _ => ?_) db
  cases pass with
  | true =>
    refine (effect_updateSessions fun _ => by exact ⟨rfl, rfl, rfl⟩).ignore <|
      (effect_advanceIntent (hverified rfl _)).ignore <|
        (effect_signerStatus (fun _ => .identity_verified) fun s hp => Or.inr ?_).ignore <|
          (effect_enqueue (hqueues _)).bind fun _ =>
            (silent_audit (by rfl)).bind fun _ =>
              (silent_audit (by rfl)).bind fun _ =>
                silent_outbox (by rfl)
    rw [Bool.and_eq_true, beq_iff_eq, beq_iff_eq] at hp
    rw [hp.2]
    exact hpass s.id s.signatureCaseId
  | false =>
    exact (effect_updateSessions fun _ => by exact ⟨rfl, rfl, rfl⟩).ignore <|
      (effect_advanceIntent (hfailed _ _)).ignore <|
        (effect_failSigner (hfail rfl row hrow)).ignore <|
          (silent_audit (by rfl)).bind fun _ =>
            silent_outbox (by rfl)

theorem effect_markSigning {signerId : Id}
    (h : ∀ c, e.signer signerId c .identity_verified .signing) :
    HasEffect e now (markSigning signerId) := by
  refine effect_signerStatus (fun _ => .signing) fun s hp => Or.inr ?_
  rw [Bool.and_eq_true, beq_iff_eq, beq_iff_eq] at hp
  rw [hp.1, hp.2]
  exact h s.signatureCaseId

theorem effect_setAttemptStatus {attemptId : Id} {status : AttemptStatus}
    (h : ∀ old, e.attempt attemptId old status) :
    HasEffect e now (setAttemptStatus attemptId status) := by
  intro db n db' hok
  obtain ⟨hrows, rfl, -⟩ := Table.update_eq_ok.mp hok
  refine { Leaves.refl now db with
    attempts := Extends.of_moved (Moved.assign (AttemptChange.refl e) fun a ha hp => ?_) }
  have hrow := hrows a ha hp
  simp only [Tables.attempts, refuse_append] at hrow
  rw [beq_iff_eq] at hp
  exact ⟨⟨rfl, rfl, rfl, Reaches.of_transition hrow.1.1.2⟩,
    Changes.of_transition hrow.1.1.2 (hp ▸ h a.status)⟩

theorem effect_commitSignature {intent : IntentRow} {artifact : SignatureArtifact}
    {document : IntentDocumentRow} (h : e.signs intent.signerId)
    (hqueues : ∀ payload, e.queues (.padesValidate payload)) :
    HasEffect e now (commitSignature intent artifact document) := by
  intro db u db' hok
  obtain ⟨hwrite, -⟩ := commitSignature_eq hok
  obtain ⟨-, -, -, rfl⟩ := writeSignature_eq hwrite
  refine { Leaves.refl now db with
    attempts := Extends.append (AttemptChange.refl e) fun a ha => ?_
    artifacts := Extends.append (fun _ => rfl) fun _ _ => ⟨_, h⟩
    queued := subset_queueJob _ _
    jobs := fun job hjob => ?_, events := fun event hevent => ?_ }
  · rw [List.mem_singleton.mp ha]
    exact h
  · rcases mem_queueJob hjob with hold | rfl
    · exact Or.inl hold
    · exact Or.inr (hqueues _)
  · refine Or.inl (count_append_other fun heq => ?_)
    subst heq
    exact absurd hevent Bool.false_ne_true

theorem effect_inviteSigner {signer : Id × Time}
    (h : ∀ c, e.signer signer.1 c .pending .invited) (hinvites : e.invites signer.1 signer.2) :
    HasEffect e now (inviteSigner now signer) := by
  intro db u db' hok
  rw [inviteSigner, Transaction.read_bind] at hok
  simp only [Transaction.bind_eq_ok] at hok
  obtain ⟨_, db₁, h₁, n, db₂, h₂, h₃⟩ := hok
  refine Leaves.trans _ _ _
    (effect_invite le_rfl hinvites (fun s hid hpending => ?_) (fun s hp => ?_) h₁ h₂)
    (silent_audit (by rfl) _ _ _ h₃)
  · rw [Bool.and_eq_true, beq_iff_eq, beq_iff_eq]
    exact ⟨hid, hpending⟩
  · rw [Bool.and_eq_true, beq_iff_eq, beq_iff_eq] at hp
    rw [hp.1, hp.2]
    exact h s.signatureCaseId

/-- An intent of this signer expires then. -/
def Db.IntentExpires (db : Db) (signerId : Id) (expiresAt : Time) : Prop :=
  ∃ si ∈ db.intents, si.signerId = signerId ∧ si.expiresAt = expiresAt

theorem intentExpires_of_group {c group : Id} {signer : Id × Time}
    (h : signer ∈ db.groupSigners c group) : db.IntentExpires signer.1 signer.2 := by
  obtain ⟨s, -, hsigner⟩ := List.mem_flatMap.mp h
  obtain ⟨si, hsi, rfl⟩ := List.mem_map.mp hsigner
  obtain ⟨hmem, hid⟩ := List.mem_filter.mp hsi
  exact ⟨si, hmem, beq_iff_eq.mp hid, rfl⟩

theorem effect_activateNextSigningGroup {c : Id}
    (h : ∀ group, db.nextSigningGroup? c = some group → ∀ signer ∈ db.groupSigners c group,
      ∀ c, e.signer signer.1 c .pending .invited)
    (hinvites : ∀ id expiresAt, db.IntentExpires id expiresAt → e.invites id expiresAt) :
    Transaction.Within (Leaves e now) (activateNextSigningGroup now c) db := by
  intro u db' hok
  rcases activateNextSigningGroup_eq hok with ⟨-, rfl⟩ | ⟨group, hgroup, hinvite⟩
  · exact Leaves.refl now _
  · refine HasEffect.forEach _ (fun signer hmem => ?_) _ _ _ hinvite
    exact effect_inviteSigner (h group hgroup signer hmem)
      (hinvites _ _ (intentExpires_of_group hmem))

theorem effect_refuseSignature {run : PadesValidateRun} {eventType : EventType}
    (hevent : eventType.isAnnouncement = false)
    (hattempt : ∀ old, e.attempt run.payload.signatureAttemptId old .failed)
    (h : ∀ c, e.signer run.signerId c .signing .failed) :
    HasEffect e now (refuseSignature run eventType) := by
  refine (effect_setAttemptStatus hattempt).ignore <|
    (effect_signerStatus (fun _ => .failed) fun s hp => Or.inr ?_).ignore <|
      (silent_audit hevent).bind fun _ => silent_outbox hevent
  rw [Bool.and_eq_true, beq_iff_eq, beq_iff_eq] at hp
  rw [hp.1, hp.2]
  exact h s.signatureCaseId

theorem effect_recordSigned {run : PadesValidateRun}
    (hintent : ∀ x, e.intent x .verified .packaged)
    (hqueues : e.queues (.signerPackage run.signatureCaseId run.signerId))
    (hannounces : e.announces .signer_signed run.signerId)
    (hsigned : ∀ c, e.signer run.signerId c .signing .signed) :
    HasEffect e now (recordSigned now run) := by
  refine (effect_signerStatus (fun _ => .signed) fun s hp => Or.inr ?_).ignore <|
    (effect_intentStatus (fun _ => .packaged) fun si hp => ?_).ignore <|
      (effect_updateInvitations (·.firstOpenedAt) (fun i => some (i.usedAt.getD now))
        (·.revokedAt)).ignore <| (effect_enqueue hqueues).bind fun _ =>
          (effect_audit fun _ => hannounces).bind fun _ => effect_outbox fun _ => hannounces
  · rw [Bool.and_eq_true, beq_iff_eq, beq_iff_eq] at hp
    rw [hp.1, hp.2]
    exact hsigned s.signatureCaseId
  · rw [Bool.and_eq_true, beq_iff_eq, beq_iff_eq] at hp
    rw [hp.2]
    exact hintent si.id

/-- The signers of the group whose turn it is, once the signer of the run is signed. -/
def Db.calledBy (db : Db) (now : Time) (run : PadesValidateRun) (id : Id) : Prop :=
  ∃ group, (db.withSigned now run).nextSigningGroup? run.signatureCaseId = some group ∧
    ∃ signer ∈ (db.withSigned now run).groupSigners run.signatureCaseId group, signer.1 = id

/-- Signers whose turn it is are invited, and the package of the case is queued. -/
def Effect.inviting (db : Db) (now : Time) (run : PadesValidateRun) : Effect :=
  { Effect.none with
    signer := fun id _ old new => old = .pending ∧ new = .invited ∧ db.calledBy now run id
    queues := fun job => job = .casePackage run.signatureCaseId
    invites := db.IntentExpires }

theorem intentExpires_of_withSigned {run : PadesValidateRun} {id : Id} {expiresAt : Time}
    (h : (db.withSigned now run).IntentExpires id expiresAt) : db.IntentExpires id expiresAt := by
  obtain ⟨si', hsi', hid, hexpires⟩ := h
  obtain ⟨si, hsi, rfl⟩ := mem_assign.mp hsi'
  refine ⟨si, hsi, ?_, ?_⟩
  · rw [← hid]
    split <;> rfl
  · rw [← hexpires]
    split <;> rfl

theorem completeSigner_leaves {run : PadesValidateRun} {u : Unit}
    (hqueues : e.queues (.casePackage run.signatureCaseId))
    (hinvited : ∀ x c, db.calledBy now run x → e.signer x c .pending .invited)
    (hinvites : ∀ id expiresAt, db.IntentExpires id expiresAt → e.invites id expiresAt)
    (h : completeSigner now run db = .ok (u, db')) : Leaves e now (db.withSigned now run) db' := by
  obtain ⟨-, db₁, hactivate, rfl⟩ := completeSigner_eq h
  have hinvites : Leaves e now (db.withSigned now run) db₁ := by
    refine effect_activateNextSigningGroup (fun group hgroup signer hmem c => ?_)
      (fun id expiresAt hexpires => ?_) _ _ hactivate
    · exact hinvited signer.1 c ⟨group, hgroup, signer, hmem, rfl⟩
    · exact hinvites id expiresAt (intentExpires_of_withSigned hexpires)
  refine hinvites.trans _ _ _ ?_
  unfold Db.withCaseJob
  split
  · exact Leaves.refl now _
  · exact effect_enqueue hqueues _ () _ rfl

theorem effect_completeSigner {run : PadesValidateRun}
    (hintent : ∀ x, e.intent x .verified .packaged)
    (hsigner : e.queues (.signerPackage run.signatureCaseId run.signerId))
    (hcase : e.queues (.casePackage run.signatureCaseId))
    (hannounces : e.announces .signer_signed run.signerId)
    (hsigned : ∀ c, e.signer run.signerId c .signing .signed)
    (hinvited : ∀ x c, db.calledBy now run x → e.signer x c .pending .invited)
    (hinvites : ∀ id expiresAt, db.IntentExpires id expiresAt → e.invites id expiresAt) :
    Transaction.Within (Leaves e now) (completeSigner now run) db := by
  intro u db' hok
  obtain ⟨hrecord, -⟩ := completeSigner_eq hok
  refine Leaves.trans _ _ _ (effect_recordSigned hintent hsigner hannounces hsigned _ _ _ hrecord) ?_
  exact completeSigner_leaves hcase hinvited hinvites hok

theorem withValidation_leaves {run : PadesValidateRun} {n : Nat} {db₁ : Db}
    (hruns : e.inserts .validationRuns)
    (hattempt : ∀ old, e.attempt run.payload.signatureAttemptId old .validated)
    (h : setAttemptStatus run.payload.signatureAttemptId .validated (db.withValidationRun run) =
      .ok (n, db₁)) : Leaves e now db (db.withValidation run) := by
  have hrun : Leaves e now db (db.withValidationRun run) :=
    { Leaves.refl now db with
      validationRuns := Extends.append (fun _ => rfl) fun _ _ => hruns }
  have hstatus : Leaves e now _ db₁ := effect_setAttemptStatus hattempt _ _ _ h
  obtain ⟨-, rfl, -⟩ := Table.update_eq_ok.mp h
  refine (hrun.trans _ _ _ hstatus).trans _ _ _ ?_
  exact silent_audit (by rfl) _ () _ rfl

theorem effect_commitValidation {run : PadesValidateRun} (hruns : e.inserts .validationRuns)
    (hattempt : ∀ old new, run.admits = true ∧ new = .validated ∨ run.admits = false ∧ new = .failed →
      e.attempt run.payload.signatureAttemptId old new)
    (hintent : ∀ x, e.intent x .verified .packaged)
    (hqueues : db.completes run = true → ∀ job, job = .signerPackage run.signatureCaseId run.signerId ∨
      job = .casePackage run.signatureCaseId → e.queues job)
    (hfailed : run.admits = false → ∀ c, e.signer run.signerId c .signing .failed)
    (hsigned : db.completes run = true → ∀ c, e.signer run.signerId c .signing .signed)
    (hannounces : db.completes run = true → e.announces .signer_signed run.signerId)
    (hinvited : db.completes run = true →
      ∀ x c, (db.withValidation run).calledBy now run x → e.signer x c .pending .invited)
    (hinvites : ∀ id expiresAt, db.IntentExpires id expiresAt → e.invites id expiresAt) :
    Transaction.Within (Leaves e now) (commitValidation now run) db := by
  intro u db' hok
  rcases commitValidation_eq hok with ⟨hrefused, hok⟩ | ⟨⟨n, db₁, hvalidated⟩, hok⟩
  · have hrun : Leaves e now db (db.withValidationRun run) :=
      { Leaves.refl now db with
        validationRuns := Extends.append (fun _ => rfl) fun _ _ => hruns }
    have hevent : run.refusal.isAnnouncement = false := by
      unfold PadesValidateRun.refusal
      split <;> rfl
    refine hrun.trans _ _ _ (effect_refuseSignature hevent (fun old => ?_) (hfailed hrefused) _ _ _ hok)
    exact hattempt old .failed (Or.inr ⟨hrefused, rfl⟩)
  · have hadmitted (hadmits : run.admits = true) : Leaves e now db (db.withValidation run) :=
      withValidation_leaves hruns (fun old => hattempt old _ (Or.inl ⟨hadmits, rfl⟩)) hvalidated
    rcases hok with ⟨hadmits, -, rfl⟩ | ⟨hcompletes, hok⟩
    · exact hadmitted hadmits
    · refine (hadmitted ?_).trans _ _ _ (effect_completeSigner hintent
        (hqueues hcompletes _ (Or.inl rfl)) (hqueues hcompletes _ (Or.inr rfl))
        (hannounces hcompletes) (hsigned hcompletes) (hinvited hcompletes) hinvites _ _ hok)
      rw [Db.completes, Bool.and_eq_true] at hcompletes
      exact hcompletes.1

theorem effect_buildEvidencePackage {c : Id} {signerId : Option Id}
    (hcase : signerId = none → ∀ old : CaseStatus, old.isOpen = true → e.case c old .completed)
    (hintent : ∀ x, e.intent x .verified .packaged)
    (hannounces : signerId = none → e.announces .case_completed c) :
    HasEffect e now (buildEvidencePackage c signerId) := by
  refine HasEffect.read.bind fun db => HasEffect.ite (HasEffect.pure ()) ?_
  refine HasEffect.bind (fun db u db' hok => ?_) fun _ => ?_
  · obtain rfl := Transaction.rewrite_eq_ok.mp hok
    exact { Leaves.refl now db with evidencePackages := List.subset_append_left _ _ }
  · have hready : HasEffect e now (do
        audit .evidence_package_ready c
        outbox .evidence_package_ready c) :=
      (silent_audit (by rfl)).bind fun _ => silent_outbox (by rfl)
    cases signerId with
    | some signerId =>
      refine (effect_intentStatus (fun _ => .packaged) fun si hp => ?_).ignore hready
      simp only [Bool.and_eq_true, beq_iff_eq] at hp
      rw [hp.2]
      exact hintent si.id
    | none =>
      exact (effect_endOpenCase (hcase rfl)).ignore <|
        (effect_audit fun _ => hannounces rfl).bind fun _ =>
          (effect_outbox fun _ => hannounces rfl).bind fun _ => hready

/-! ## The steps -/

/-- The session's intent is of this signer. -/
def Db.SessionOf (db : Db) (identityTransactionId signerId : Id) : Prop :=
  ∃ row, loadStarted db identityTransactionId = .ok row ∧ row.2.signerId = signerId

/-- The holder of the invitation is a required signer of the case. -/
def Sys.DeclinesCase (s : Sys) (invitationId signatureCaseId : Id) : Prop :=
  ∃ i row, openInvitation s.db s.clock invitationId = .ok i ∧ s.db.signer? i.signerId = some row ∧
    row.required = true ∧ row.signatureCaseId = signatureCaseId

instance (db : Db) (identityTransactionId signerId : Id) :
    Decidable (db.SessionOf identityTransactionId signerId) :=
  decidable_of_iff (∃ row ∈ (loadStarted db identityTransactionId).toOption, row.2.signerId = signerId)
    (exists_congr fun _ => and_congr_left' toOption_eq_some)

instance (s : Sys) (invitationId signatureCaseId : Id) :
    Decidable (s.DeclinesCase invitationId signatureCaseId) :=
  decidable_of_iff (∃ i ∈ (openInvitation s.db s.clock invitationId).toOption,
    ∃ row ∈ s.db.signer? i.signerId, row.required = true ∧ row.signatureCaseId = signatureCaseId) <| by
      simp only [Option.mem_def, toOption_eq_some, Sys.DeclinesCase, exists_and_left]

/-- The effect of a step that takes in no new case. -/
def stepEffect (s : Sys) : Step → Effect
  | .send c _ => { Effect.none with
      case := fun id _ new => id = c ∧ new = .sent
      signer := fun id _ _ new => new = .invited ∧ ∃ row ∈ s.db.signersInOrder c, row.id = id ∧
        row.signingOrder = firstGroup (s.db.signersInOrder c)
      inserts := fun table => table = .intents ∨ table = .intentDocuments
      invites := fun id expiresAt =>
        expiresAt = s.clock + 3600000 ∧ ∃ row ∈ s.db.signersInOrder c, row.id = id }
  | .remind c => { Effect.none with
      invites := fun id expiresAt => ∃ signer ∈ s.db.remindableSigners s.clock c,
        signer.1 = id ∧ signer.2.getD (s.clock + 7 * 86400000) = expiresAt }
  | .cancel c => { Effect.none with case := fun id _ new => id = c ∧ new = .cancelled }
  | .expire c => { Effect.none with
      case := fun id _ new => id = c ∧ new = .expired
      signer := fun _ caseId _ new => caseId = c ∧ new = .expired }
  | .markOpened _ => { Effect.none with
      signer := fun _ _ old new => old = .invited ∧ new = .opened }
  | .decline i => { Effect.none with
      case := fun id old new => old.isOpen = true ∧ new = .declined ∧ s.DeclinesCase i id
      signer := fun _ _ old new =>
        (old = .invited ∨ old = .opened ∨ old = .identity_started) ∧ new = .declined }
  | .recordSession _ _ => { Effect.none with
      signer := fun _ _ _ new => new = .identity_started
      intent := fun _ _ new => new = .provider_started
      inserts := fun table => table = .identityTransactions }
  | .cancelSession _ => { Effect.none with intent := fun _ _ new => new = .cancelled }
  | .sessionStatus t _ | .pollIdentity t _ | .completeSession t => { Effect.none with
      queues := fun job => job = .ticEvidenceCollect t }
  | .collectEvidence t _ => { Effect.none with
      intent := fun _ old new => old = .provider_started ∧ new = .evidence_collected
      queues := fun job => job = .signatureValidate t }
  | .failIdentity t => { Effect.none with
      signer := fun id _ _ new => new = .failed ∧ s.db.SessionOf t id
      intent := fun _ _ new => new = .failed }
  | .recordVerification index pass => { Effect.none with
      signer := fun id _ old new => old = .identity_started ∧ new = .identity_verified ∨
        new = .failed ∧ pass = false ∧ ∃ t, s.checks[index]? = some t ∧ s.db.SessionOf t id
      intent := fun _ old new =>
        old = .evidence_collected ∧ new = .verified ∧ pass = true ∨ new = .failed
      inserts := fun table => table = .identityArtifacts
      queues := fun job => ∃ signingIntentId, job = .padesCreate signingIntentId }
  | .markSigning index => { Effect.none with
      signer := fun id _ old new => old = .identity_verified ∧ new = .signing ∧
        ∃ run, s.creates[index]? = some run ∧ run.intent.signerId = id }
  | .commitSignature index _ _ _ => { Effect.none with
      queues := fun job => ∃ payload, job = .padesValidate payload
      signs := fun id => ∃ run, s.creates[index]? = some run ∧ run.intent.signerId = id }
  | .commitValidation index => { Effect.none with
      signer := fun id _ old new => old = .pending ∧ new = .invited ∧
          (∃ run, s.validates[index]? = some run ∧ s.db.completes run = true ∧
            (s.db.withValidation run).calledBy s.clock run id) ∨
        old = .signing ∧ ∃ run, s.validates[index]? = some run ∧ run.signerId = id ∧
          (run.admits = false ∧ new = .failed ∨ s.db.completes run = true ∧ new = .signed)
      intent := fun _ old new => old = .verified ∧ new = .packaged
      attempt := fun id _ new => ∃ run, s.validates[index]? = some run ∧
        run.payload.signatureAttemptId = id ∧
          (run.admits = true ∧ new = .validated ∨ run.admits = false ∧ new = .failed)
      inserts := fun table => table = .validationRuns
      announces := fun eventType id => eventType = .signer_signed ∧
        ∃ run, s.validates[index]? = some run ∧ run.signerId = id ∧ s.db.completes run = true
      queues := fun job => ∃ run, s.validates[index]? = some run ∧ s.db.completes run = true ∧
        (job = .signerPackage run.signatureCaseId run.signerId ∨
          job = .casePackage run.signatureCaseId)
      invites := s.db.IntentExpires }
  | .buildPackage c none => { Effect.none with
      case := fun id old new => id = c ∧ old.isOpen = true ∧ new = .completed
      intent := fun _ old new => old = .verified ∧ new = .packaged
      announces := fun eventType id => eventType = .case_completed ∧ id = c }
  | .buildPackage _ (some _) => { Effect.none with
      intent := fun _ old new => old = .verified ∧ new = .packaged }
  | _ => Effect.none

/-- How a step may move the status of the signer `id` of the case `c`, case by case. -/
inductive SignerTransition (s : Sys) (id c : Id) : Step → SignerStatus → SignerStatus → Prop
  | invitesFirst (c' : Id) (nonce : Id → Text) (old : SignerStatus) (row : Signer)
      (hrow : row ∈ s.db.signersInOrder c') (hid : row.id = id)
      (hfirst : row.signingOrder = firstGroup (s.db.signersInOrder c')) :
      SignerTransition s id c (.send c' nonce) old .invited
  | invitesNext (index : Nat) (run : PadesValidateRun) (hrun : s.validates[index]? = some run)
      (hcompletes : s.db.completes run = true)
      (hcalled : (s.db.withValidation run).calledBy s.clock run id) :
      SignerTransition s id c (.commitValidation index) .pending .invited
  | expires (old : SignerStatus) : SignerTransition s id c (.expire c) old .expired
  | opens (i : Step) : SignerTransition s id c i .invited .opened
  | declines (i : Step) (old : SignerStatus)
      (h : old = .invited ∨ old = .opened ∨ old = .identity_started) :
      SignerTransition s id c i old .declined
  | starts (i : Step) (old : SignerStatus) : SignerTransition s id c i old .identity_started
  | verifies (i : Step) : SignerTransition s id c i .identity_started .identity_verified
  | failsIdentity (t : Id) (old : SignerStatus) (h : s.db.SessionOf t id) :
      SignerTransition s id c (.failIdentity t) old .failed
  | failsVerification (index : Nat) (t : Id) (old : SignerStatus)
      (ht : s.checks[index]? = some t) (h : s.db.SessionOf t id) :
      SignerTransition s id c (.recordVerification index false) old .failed
  | marks (index : Nat) (run : PadesCreateRun) (hrun : s.creates[index]? = some run)
      (hid : run.intent.signerId = id) :
      SignerTransition s id c (.markSigning index) .identity_verified .signing
  | refuses (index : Nat) (run : PadesValidateRun) (hrun : s.validates[index]? = some run)
      (hid : run.signerId = id) (h : run.admits = false) :
      SignerTransition s id c (.commitValidation index) .signing .failed
  | signs (index : Nat) (run : PadesValidateRun) (hrun : s.validates[index]? = some run)
      (hid : run.signerId = id) (h : s.db.completes run = true) :
      SignerTransition s id c (.commitValidation index) .signing .signed

theorem signerTransition_of_effect {s : Sys} {i : Step} {id c : Id} {old new : SignerStatus}
    (h : (stepEffect s i).signer id c old new) : SignerTransition s id c i old new := by
  cases i with
  | send c' nonce =>
    obtain ⟨rfl, row, hrow, hid, hfirst⟩ := h
    exact .invitesFirst c' nonce old row hrow hid hfirst
  | expire c' =>
    obtain ⟨rfl, rfl⟩ := h
    exact .expires old
  | markOpened invitationId =>
    obtain ⟨rfl, rfl⟩ := h
    exact .opens _
  | decline invitationId =>
    obtain ⟨hold, rfl⟩ := h
    exact .declines _ old hold
  | recordSession index reference =>
    obtain rfl : new = .identity_started := h
    exact .starts _ old
  | failIdentity t =>
    obtain ⟨rfl, hsession⟩ := h
    exact .failsIdentity t old hsession
  | recordVerification index pass =>
    rcases h with ⟨rfl, rfl⟩ | ⟨rfl, rfl, t, ht, hsession⟩
    · exact .verifies _
    · exact .failsVerification index t old ht hsession
  | markSigning index =>
    obtain ⟨rfl, rfl, run, hrun, hid⟩ := h
    exact .marks index run hrun hid
  | commitValidation index =>
    rcases h with ⟨rfl, rfl, run, hrun, hcompletes, hcalled⟩ |
      ⟨rfl, run, hrun, hid, ⟨hrefused, rfl⟩ | ⟨hcompletes, rfl⟩⟩
    · exact .invitesNext index run hrun hcompletes hcalled
    · exact .refuses index run hrun hid hrefused
    · exact .signs index run hrun hid hcompletes
  | buildPackage c' signerId => cases signerId <;> cases h
  | tick | prepareCase | cancel | remind | delivery | startSession | sessionStatus | cancelSession
  | pollIdentity | completeSession | collectEvidence | readEvidence | startCreate | skipDocument
  | loadRevision | commitSignature | dropCreate | readValidate => cases h

/-- How a step may move the status of the case `c`, case by case. -/
inductive CaseTransition (s : Sys) (c : Id) : Step → CaseStatus → CaseStatus → Prop
  | sends (nonce : Id → Text) (old : CaseStatus) : CaseTransition s c (.send c nonce) old .sent
  | cancels (old : CaseStatus) : CaseTransition s c (.cancel c) old .cancelled
  | expires (old : CaseStatus) : CaseTransition s c (.expire c) old .expired
  | declines (invitationId : Id) (old : CaseStatus) (hold : old.isOpen = true)
      (h : s.DeclinesCase invitationId c) :
      CaseTransition s c (.decline invitationId) old .declined
  | completes (old : CaseStatus) (hold : old.isOpen = true) :
      CaseTransition s c (.buildPackage c none) old .completed

theorem caseTransition_of_effect {s : Sys} {i : Step} {c : Id} {old new : CaseStatus}
    (h : (stepEffect s i).case c old new) : CaseTransition s c i old new := by
  cases i with
  | send c' nonce =>
    obtain ⟨rfl, rfl⟩ := h
    exact .sends nonce old
  | cancel c' =>
    obtain ⟨rfl, rfl⟩ := h
    exact .cancels old
  | expire c' =>
    obtain ⟨rfl, rfl⟩ := h
    exact .expires old
  | decline invitationId =>
    obtain ⟨hopen, rfl, hdeclines⟩ := h
    exact .declines invitationId old hopen hdeclines
  | buildPackage c' signerId =>
    cases signerId with
    | some signerId => cases h
    | none =>
      obtain ⟨rfl, hopen, rfl⟩ := h
      exact .completes old hopen
  | tick | prepareCase | remind | delivery | markOpened | startSession | recordSession
  | sessionStatus | cancelSession | pollIdentity | completeSession | collectEvidence | failIdentity
  | readEvidence | recordVerification | startCreate | markSigning | skipDocument | loadRevision
  | commitSignature | dropCreate | readValidate | commitValidation => cases h

/-- How a step may move the status of an intent, case by case. -/
inductive IntentTransition : Step → IntentStatus → IntentStatus → Prop
  | starts (index reference : Nat) (old : IntentStatus) :
      IntentTransition (.recordSession index reference) old .provider_started
  | cancels (i : Step) (old : IntentStatus) : IntentTransition i old .cancelled
  | collects (i : Step) : IntentTransition i .provider_started .evidence_collected
  | fails (i : Step) (old : IntentStatus) : IntentTransition i old .failed
  | verifies (index : Nat) :
      IntentTransition (.recordVerification index true) .evidence_collected .verified
  | packages (i : Step) : IntentTransition i .verified .packaged

theorem intentTransition_of_effect {s : Sys} {i : Step} {id : Id} {old new : IntentStatus}
    (h : (stepEffect s i).intent id old new) : IntentTransition i old new := by
  cases i with
  | recordSession index reference =>
    obtain rfl : new = .provider_started := h
    exact .starts index reference old
  | cancelSession t =>
    obtain rfl : new = .cancelled := h
    exact .cancels _ old
  | collectEvidence t sha256 =>
    obtain ⟨rfl, rfl⟩ := h
    exact .collects _
  | failIdentity t =>
    obtain rfl : new = .failed := h
    exact .fails _ old
  | recordVerification index pass =>
    rcases h with ⟨rfl, rfl, rfl⟩ | rfl
    · exact .verifies index
    · exact .fails _ old
  | commitValidation index =>
    obtain ⟨rfl, rfl⟩ := h
    exact .packages _
  | buildPackage c signerId =>
    cases signerId <;>
    · obtain ⟨rfl, rfl⟩ := h
      exact .packages _
  | tick | prepareCase | send | cancel | expire | remind | delivery | markOpened | decline
  | startSession | sessionStatus | pollIdentity | completeSession | readEvidence | startCreate
  | markSigning | skipDocument | loadRevision | commitSignature | dropCreate | readValidate => cases h

/-- The tables that a step may insert rows into, case by case. -/
inductive Insertion : Step → TableName → Prop
  | intents (c : Id) (nonce : Id → Text) : Insertion (.send c nonce) .intents
  | intentDocuments (c : Id) (nonce : Id → Text) : Insertion (.send c nonce) .intentDocuments
  | identityTransactions (index reference : Nat) :
      Insertion (.recordSession index reference) .identityTransactions
  | identityArtifacts (index : Nat) (pass : Bool) :
      Insertion (.recordVerification index pass) .identityArtifacts
  | validationRuns (index : Nat) : Insertion (.commitValidation index) .validationRuns

theorem insertion_of_effect {s : Sys} {i : Step} {table : TableName}
    (h : (stepEffect s i).inserts table) : Insertion i table := by
  cases i with
  | send c nonce =>
    rcases h with rfl | rfl
    · exact .intents c nonce
    · exact .intentDocuments c nonce
  | recordSession index reference =>
    obtain rfl : table = .identityTransactions := h
    exact .identityTransactions index reference
  | recordVerification index pass =>
    obtain rfl : table = .identityArtifacts := h
    exact .identityArtifacts index pass
  | commitValidation index =>
    obtain rfl : table = .validationRuns := h
    exact .validationRuns index
  | buildPackage c signerId => cases signerId <;> cases h
  | tick | prepareCase | cancel | expire | remind | delivery | markOpened | decline | startSession
  | sessionStatus | cancelSession | pollIdentity | completeSession | collectEvidence | failIdentity
  | readEvidence | startCreate | markSigning | skipDocument | loadRevision | commitSignature
  | dropCreate | readValidate => cases h

theorem signs_of_effect {s : Sys} {i : Step} {id : Id} (h : (stepEffect s i).signs id) :
    ∃ index attemptId artifactId signed, i = .commitSignature index attemptId artifactId signed ∧
      ∃ run, s.creates[index]? = some run ∧ run.intent.signerId = id := by
  cases i with
  | commitSignature index attemptId artifactId signed => exact ⟨_, _, _, _, rfl, h⟩
  | buildPackage c signerId => cases signerId <;> cases h
  | tick | prepareCase | send | cancel | expire | remind | delivery | markOpened | decline
  | startSession | recordSession | sessionStatus | cancelSession | pollIdentity | completeSession
  | collectEvidence | failIdentity | readEvidence | recordVerification | startCreate | markSigning
  | skipDocument | loadRevision | dropCreate | readValidate | commitValidation => cases h

theorem validates_of_effect {s : Sys} {i : Step} {payload : PadesValidatePayload}
    (h : (stepEffect s i).queues (.padesValidate payload)) :
    ∃ index attemptId artifactId signed, i = .commitSignature index attemptId artifactId signed := by
  cases i with
  | commitSignature index attemptId artifactId signed => exact ⟨_, _, _, _, rfl⟩
  | buildPackage c signerId => cases signerId <;> cases h
  | recordVerification index pass =>
    obtain ⟨_, hjob⟩ := h
    cases hjob
  | commitValidation index =>
    obtain ⟨_, -, -, hjob | hjob⟩ := h <;> cases hjob
  | tick | prepareCase | send | cancel | expire | remind | delivery | markOpened | decline
  | startSession | recordSession | sessionStatus | cancelSession | pollIdentity | completeSession
  | collectEvidence | failIdentity | readEvidence | startCreate | markSigning | skipDocument
  | loadRevision | dropCreate | readValidate => cases h

theorem collects_of_effect {s : Sys} {i : Step} {t : Id}
    (h : (stepEffect s i).queues (.signatureValidate t)) : ∃ sha256, i = .collectEvidence t sha256 := by
  cases i with
  | collectEvidence t' sha256 =>
    obtain rfl := DurableJob.signatureValidate.inj h
    exact ⟨sha256, rfl⟩
  | buildPackage c signerId => cases signerId <;> cases h
  | recordVerification index pass =>
    obtain ⟨_, hjob⟩ := h
    cases hjob
  | commitSignature index attemptId artifactId signed =>
    obtain ⟨_, hjob⟩ := h
    cases hjob
  | commitValidation index =>
    obtain ⟨_, -, -, hjob | hjob⟩ := h <;> cases hjob
  | tick | prepareCase | send | cancel | expire | remind | delivery | markOpened | decline
  | startSession | recordSession | sessionStatus | cancelSession | pollIdentity | completeSession
  | failIdentity | readEvidence | startCreate | markSigning | skipDocument | loadRevision
  | dropCreate | readValidate => cases h

theorem packages_of_effect {s : Sys} {i : Step} {c : Id} {job : DurableJob}
    (hjob : job = .casePackage c ∨ ∃ signerId, job = .signerPackage c signerId)
    (h : (stepEffect s i).queues job) : ∃ index run, i = .commitValidation index ∧
      s.validates[index]? = some run ∧ run.signatureCaseId = c ∧ s.db.completes run = true := by
  cases i with
  | commitValidation index =>
    obtain ⟨run, hrun, hcompletes, heq⟩ := h
    refine ⟨index, run, rfl, hrun, ?_, hcompletes⟩
    rcases hjob with rfl | ⟨signerId, rfl⟩
    · rcases heq with heq | heq <;> cases heq
      rfl
    · rcases heq with heq | heq <;> cases heq
      rfl
  | buildPackage c' signerId => cases signerId <;> cases h
  | recordVerification | commitSignature =>
    obtain ⟨_, rfl⟩ := h
    rcases hjob with heq | ⟨_, heq⟩ <;> cases heq
  | sessionStatus | pollIdentity | completeSession | collectEvidence =>
    cases h
    rcases hjob with heq | ⟨_, heq⟩ <;> cases heq
  | tick | prepareCase | send | cancel | expire | remind | delivery | markOpened | decline
  | startSession | recordSession | cancelSession | failIdentity | readEvidence | startCreate
  | markSigning | skipDocument | loadRevision | dropCreate | readValidate => cases h

theorem attemptTransition_of_effect {s : Sys} {i : Step} {id : Id} {old new : AttemptStatus}
    (h : (stepEffect s i).attempt id old new) : ∃ index run, i = .commitValidation index ∧
      s.validates[index]? = some run ∧ run.payload.signatureAttemptId = id ∧
        (run.admits = true ∧ new = .validated ∨ run.admits = false ∧ new = .failed) := by
  cases i with
  | commitValidation index =>
    obtain ⟨run, hrun, hid, hnew⟩ := h
    exact ⟨index, run, rfl, hrun, hid, hnew⟩
  | buildPackage c signerId => cases signerId <;> cases h
  | tick | prepareCase | send | cancel | expire | remind | delivery | markOpened | decline
  | startSession | recordSession | sessionStatus | cancelSession | pollIdentity | completeSession
  | collectEvidence | failIdentity | readEvidence | recordVerification | startCreate | markSigning
  | skipDocument | loadRevision | commitSignature | dropCreate | readValidate => cases h

theorem leaves_of_step {s s' : Sys} {i : Step} (h : Sys.step s i = some s')
    (hintake : ∀ intake, i ≠ .prepareCase intake) : Leaves (stepEffect s i) s.clock s.db s'.db := by
  cases i with
  | prepareCase intake => exact absurd rfl (hintake intake)
  | tick duration =>
    cases h
    exact Leaves.refl _ _
  | send c nonce =>
    obtain ⟨db, hok, rfl⟩ := Sys.commit_eq_some.mp h
    refine effect_send (fun _ => ?_) ?_ ?_ (fun signer hsigner hfirst _ _ => ?_)
      (fun signer hsigner => ?_) _ _ hok
    · exact ⟨rfl, rfl⟩
    · exact Or.inl rfl
    · exact Or.inr rfl
    · exact ⟨rfl, signer, hsigner, rfl, hfirst⟩
    · exact ⟨rfl, signer, hsigner, rfl⟩
  | cancel c =>
    obtain ⟨db, hok, rfl⟩ := Sys.commit_eq_some.mp h
    refine effect_cancel (fun _ => ?_) _ _ _ hok
    exact ⟨rfl, rfl⟩
  | expire c =>
    obtain ⟨db, hok, rfl⟩ := Sys.commit_eq_some.mp h
    refine effect_expireCase (fun _ => ?_) (fun _ _ => ?_) _ _ _ hok
    · exact ⟨rfl, rfl⟩
    · exact ⟨rfl, rfl⟩
  | remind c =>
    obtain ⟨db, hok, rfl⟩ := Sys.commit_eq_some.mp h
    refine effect_sendReminders (fun signer hsigner => ?_) _ _ hok
    exact ⟨signer, hsigner, rfl, rfl⟩
  | delivery signerId bounced =>
    obtain ⟨db, hok, rfl⟩ := Sys.commit_eq_some.mp h
    exact effect_recordDelivery signerId bounced _ _ _ _ hok
  | markOpened i =>
    obtain ⟨db, hok, rfl⟩ := Sys.commit_eq_some.mp h
    refine effect_markOpened (fun _ _ => ?_) _ _ hok
    exact ⟨rfl, rfl⟩
  | decline i =>
    obtain ⟨db, hok, rfl⟩ := Sys.commit_eq_some.mp h
    refine effect_decline (fun _ old hold _ => ?_) (fun inv row hinv hrow hrequired old hopen => ?_)
      _ _ hok
    · exact ⟨hold, rfl⟩
    · exact ⟨hopen, rfl, inv, row, hinv, hrow, hrequired, rfl⟩
  | startSession i =>
    obtain ⟨_, _, -, rfl⟩ := step_startSession h
    exact Leaves.refl _ _
  | recordSession index reference =>
    obtain ⟨start, db, -, hok, rfl⟩ := step_recordSession h
    refine effect_recordSession ?_ (fun _ _ => ?_) (fun _ _ _ => ?_) _ _ _ hok
    all_goals exact rfl
  | sessionStatus t status =>
    obtain ⟨db, hok, rfl⟩ := Sys.commit_eq_some.mp h
    exact effect_recordSessionStatus rfl _ _ _ hok
  | cancelSession t =>
    obtain ⟨db, hok, rfl⟩ := Sys.commit_eq_some.mp h
    exact effect_cancelSession (fun _ _ => rfl) _ _ _ hok
  | pollIdentity t status =>
    obtain ⟨db, hok, rfl⟩ := Sys.commit_eq_some.mp h
    exact effect_pollIdentity rfl _ _ _ hok
  | completeSession t =>
    obtain ⟨-, db, hok, rfl⟩ := step_completeSession h
    exact effect_enqueue rfl _ _ _ hok
  | collectEvidence t sha256 =>
    obtain ⟨-, db, hok, rfl⟩ := Sys.work_eq_some.mp h
    refine effect_collectEvidence (fun _ => ?_) ?_ _ _ hok
    · exact ⟨rfl, rfl⟩
    · exact rfl
  | failIdentity t =>
    obtain ⟨-, db, hok, rfl⟩ := Sys.work_eq_some.mp h
    refine effect_failIdentityTransaction (fun _ _ => ?_) (fun row hrow _ _ => ?_) _ _ hok
    · exact rfl
    · exact ⟨rfl, row, hrow, rfl⟩
  | readEvidence t =>
    obtain ⟨-, -, rfl⟩ := step_readEvidence h
    exact Leaves.refl _ _
  | recordVerification index pass =>
    obtain ⟨t, db, ht, hok, rfl⟩ := step_recordVerification h
    refine effect_recordVerification ?_ (fun hpass _ => ?_) (fun _ _ => ?_) (fun x => ?_)
      (fun _ _ => ?_) (fun hfail row hrow _ _ => ?_) _ _ hok
    · exact rfl
    · exact Or.inl ⟨rfl, rfl, hpass⟩
    · exact Or.inr rfl
    · exact ⟨x, rfl⟩
    · exact Or.inl ⟨rfl, rfl⟩
    · exact Or.inr ⟨rfl, hfail, t, ht, row, hrow, rfl⟩
  | startCreate intentId =>
    obtain ⟨-, _, -, rfl⟩ := step_startCreate h
    exact Leaves.refl _ _
  | markSigning index =>
    obtain ⟨run, n, db, hrun, -, hok, rfl⟩ := step_markSigning h
    refine effect_markSigning (fun _ => ?_) _ _ _ hok
    exact ⟨rfl, rfl, run, hrun, rfl⟩
  | skipDocument index =>
    obtain ⟨_, _, -, -, -, -, rfl⟩ := step_skipDocument h
    exact Leaves.refl _ _
  | loadRevision index download =>
    obtain ⟨_, _, _, -, -, -, -, -, rfl⟩ := step_loadRevision h
    exact Leaves.refl _ _
  | commitSignature index attemptId artifactId signed =>
    obtain ⟨run, _, _, db, hrun, -, -, -, hok, rfl⟩ := step_commitSignature h
    refine effect_commitSignature ?_ (fun payload => ?_) _ _ _ hok
    · exact ⟨run, hrun, rfl⟩
    · exact ⟨payload, rfl⟩
  | dropCreate index =>
    cases h
    exact Leaves.refl _ _
  | readValidate payload report =>
    obtain ⟨-, _, -, rfl⟩ := step_readValidate h
    exact Leaves.refl _ _
  | commitValidation index =>
    obtain ⟨run, db, hrun, hok, rfl⟩ := step_commitValidation h
    refine effect_commitValidation ?_ (fun _ _ hstatus => ?_) (fun _ => ?_)
      (fun hcompletes _ hjob => ?_) (fun hfail _ => ?_) (fun hcompletes _ => ?_)
      (fun hcompletes => ?_) (fun hcompletes _ _ hcalled => ?_) (fun _ _ hexpires => ?_) _ _ hok
    · exact rfl
    · exact ⟨run, hrun, rfl, hstatus⟩
    · exact ⟨rfl, rfl⟩
    · exact ⟨run, hrun, hcompletes, hjob⟩
    · exact Or.inr ⟨rfl, run, hrun, rfl, Or.inl ⟨hfail, rfl⟩⟩
    · exact Or.inr ⟨rfl, run, hrun, rfl, Or.inr ⟨hcompletes, rfl⟩⟩
    · exact ⟨rfl, run, hrun, rfl, hcompletes⟩
    · exact Or.inl ⟨rfl, rfl, run, hrun, hcompletes, hcalled⟩
    · exact hexpires
  | buildPackage c signerId =>
    obtain ⟨-, db, hok, rfl⟩ := Sys.work_eq_some.mp h
    cases signerId with
    | none =>
      refine effect_buildEvidencePackage (fun _ old hopen => ?_) (fun _ => ?_) (fun _ => ?_) _ _ _ hok
      · exact ⟨rfl, hopen, rfl⟩
      · exact ⟨rfl, rfl⟩
      · exact ⟨rfl, rfl⟩
    | some signerId =>
      refine effect_buildEvidencePackage (by nofun) (fun _ => ?_) (by nofun) _ _ _ hok
      exact ⟨rfl, rfl⟩

end Kommunsign
