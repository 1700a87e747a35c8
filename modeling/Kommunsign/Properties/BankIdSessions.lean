import Kommunsign.Workflow.Bindings
import Kommunsign.Workflow.Identified

/-!
# Sessions that end, and starting again

A session is recorded for an intent that is prepared, and the intent is never prepared again. A
signer has one intent. So no two sessions are of one intent, and who has had a session cannot start
another one.

* `sessionsKept_iff` — all is as it should be as long as no session has ended without success
* `not_sessionsKept_of_cancelled` — a session that its user cancels
* `attemptsConsistent_iff` — that is so for intents with one document to sign
* `not_attemptsConsistent_of_two` — the second document of an intent cannot get one
-/

namespace Kommunsign

open Infra

def IdentityStatus.isLive : IdentityStatus → Bool
  | .pending | .user_action_required | .complete_collected => true
  | .verified | .cancelled | .expired | .failed => false

def IdentityStatus.isLost : IdentityStatus → Bool
  | .cancelled | .expired | .failed => true
  | .pending | .user_action_required | .complete_collected | .verified => false

structure Db.Invites (db : Db) (now : Time) (i : SignerInvitation) : Prop where
  unrevoked : i.revokedAt = none
  unused : i.usedAt = none
  unexpired : now < i.expiresAt
  openCase : ∃ signer ∈ db.signer? i.signerId,
    ∃ c ∈ db.case? signer.signatureCaseId, c.status.isOpen = true

def Db.HasLost (db : Db) (signerId : Id) : Prop :=
  ∃ t ∈ db.identityTransactions, t.signerId = signerId ∧ t.status.isLost = true

structure SessionsKept (s : Sys) : Prop where
  restart : ∀ id, ∀ i ∈ s.db.invitation? id, s.db.Invites s.clock i → s.db.HasLost i.signerId →
    ∃ start, startSession s.db s.clock id = .ok start
  single : ∀ t ∈ s.db.identityTransactions, ∀ t' ∈ s.db.identityTransactions,
    t.status.isLive = true → t'.status.isLive = true → t.signingIntentId = t'.signingIntentId →
      t = t'

/-! ## One session for an intent -/

def SessionsSingle (s : Sys) : Prop := (s.db.identityTransactions.map (·.signingIntentId)).Nodup

section Steps

variable {s s' : Sys}

theorem prepared_of_recordSession {db db' : Db} {now : Time} {reference : Nat} {start : StartInput}
    {u : Unit} (h : recordSession now reference start db = .ok (u, db')) :
    ∃ si, db.intent? start.signingIntentId = some si ∧ si.status = .prepared := by
  rw [recordSession, Transaction.read_bind] at h
  obtain ⟨_, _, hrequire, -⟩ := Transaction.bind_eq_ok.mp h
  obtain ⟨si, hsi, hstatus⟩ := (Option.any_eq_true _ _).mp (Transaction.require_eq_ok.mp hrequire).1
  exact ⟨si, hsi, beq_iff_eq.mp hstatus⟩

theorem sessionsSingle_of_step {i : Step} (h : SessionsSingle s) (hidentified : Identified s)
    (hstep : Sys.step s i = some s') : SessionsSingle s' := by
  by_cases hrecord : ∃ index reference, i = .recordSession index reference
  · obtain ⟨index, reference, rfl⟩ := hrecord
    obtain ⟨start, db, -, hok, rfl⟩ := step_recordSession hstep
    obtain ⟨si, hsi, hprepared⟩ := prepared_of_recordSession hok
    obtain ⟨documentVersionId, -, -, hsessions, -, -⟩ := recordSession_eq hok
    show (db.identityTransactions.map (·.signingIntentId)).Nodup
    rw [hsessions]
    refine nodup_concat_key h fun t ht hsame => ?_
    exact hidentified.started t ht start.signingIntentId hsame si hsi hprepared
  · rcases intake_or_leaves hstep with ⟨intake, rfl, -, rfl⟩ | hleaves
    · exact h
    · have hmoved : Moved SessionMove s.db.identityTransactions s'.db.identityTransactions := by
        refine hleaves.identityTransactions.moved fun _ hinserts => ?_
        cases insertion_of_effect hinserts with
        | identityTransactions index reference => exact hrecord ⟨index, reference, rfl⟩
      show (s'.db.identityTransactions.map (·.signingIntentId)).Nodup
      rw [hmoved.map_eq fun _ _ hmove => hmove.intent]
      exact h

end Steps

theorem sessionsSingle_of_reachable {s : Sys} (h : s.Reachable) : SessionsSingle s := by
  refine h.induction (fun _ _ _ _ => List.nodup_nil) ?_
  intro s i s' hreachable hsingle hstep
  exact sessionsSingle_of_step hsingle (identified_of_reachable hreachable) hstep

/-! ## Starting again -/

theorem not_startable_of_session {s : Sys} (h : s.Reachable) {t : IdentityTransaction}
    (ht : t ∈ s.db.identityTransactions) : s.db.startableIntent? t.signerId = none := by
  rw [Option.eq_none_iff_forall_ne_some]
  intro si hstartable
  obtain ⟨hsi, hsigner, hprepared⟩ := mem_of_startableIntent? hstartable
  obtain ⟨other, hintent, hother, hsession, -⟩ := (bound_of_reachable h).sessions t ht
  have hmem : other ∈ s.db.intents := List.mem_of_find?_eq_some hother
  have hsame : si = other := by
    refine eq_of_key_eq (prepared_of_reachable h).single hsi hmem ?_
    rw [hsigner, hsession]
  rw [hsame] at hprepared
  exact (identified_of_reachable h).started t ht other.id hintent other hother hprepared

theorem not_startSession_of_session {s : Sys} (h : s.Reachable) {id : Id} {i : SignerInvitation}
    (hi : s.db.invitation? id = some i) {t : IdentityTransaction}
    (ht : t ∈ s.db.identityTransactions) (hsigner : t.signerId = i.signerId)
    (start : StartInput × Text) : startSession s.db s.clock id ≠ .ok start := by
  intro hstart
  obtain ⟨invitation, si, hinvitation, hstartable, -⟩ := startSession_eq_ok hstart
  obtain rfl : i = invitation := Option.some.inj (hi.symm.trans hinvitation)
  rw [← hsigner, not_startable_of_session h ht] at hstartable
  cases hstartable

/--
In every state that the workflow reaches: an intent has one live session at most, and whoever has
lost a session can start a new one, if and only if nobody who is invited to an open case has lost a
session.
-/
theorem sessionsKept_iff {s : Sys} (h : s.Reachable) : SessionsKept s ↔
    ∀ id, ∀ i ∈ s.db.invitation? id, s.db.Invites s.clock i → ¬s.db.HasLost i.signerId := by
  constructor
  · intro hkept id i hi hinvites hlost
    obtain ⟨start, hstart⟩ := hkept.restart id i hi hinvites hlost
    obtain ⟨t, ht, hsigner, -⟩ := hlost
    exact not_startSession_of_session h hi ht hsigner start hstart
  · intro hnone
    refine ⟨fun id i hi hinvites hlost => absurd hlost (hnone id i hi hinvites), ?_⟩
    intro t ht t' ht' _ _ hsame
    exact eq_of_key_eq (sessionsSingle_of_reachable h) ht ht' hsame

namespace BankIdSessions

def untilStarted : List Step :=
  [.prepareCase (Intake.sample 1 [(1, true)]), .send 1 idText, .startSession 0, .recordSession 0 7]

end BankIdSessions

/-- A session that is live. -/
theorem sessionsKept_iff_started : ∃ s ∈ Sys.after BankIdSessions.untilStarted,
    s.db.identityTransactions.map (·.status) = [.pending] ∧ SessionsKept s := by
  obtain ⟨s, hs, hstatus⟩ : ∃ s ∈ Sys.after BankIdSessions.untilStarted,
      s.db.identityTransactions.map (·.status) = [.pending] := by decide +kernel
  refine ⟨s, hs, hstatus, (sessionsKept_iff (Sys.reachable_of_after hs)).mpr ?_⟩
  rintro id i - - ⟨t, ht, -, hlost⟩
  have hmem := List.mem_map_of_mem (f := (·.status)) ht
  rw [hstatus, List.mem_singleton] at hmem
  rw [hmem] at hlost
  cases hlost

/-- The session is cancelled, and the case and the invitation stay open. -/
theorem not_sessionsKept_of_cancelled : ¬∀ s : Sys, s.Reachable → SessionsKept s := by
  intro hall
  obtain ⟨s, hs, i, hi, hlive, ⟨t, ht, hlost⟩, hopen, hstart⟩ : ∃ s ∈ Sys.after
      (BankIdSessions.untilStarted ++ [.cancelSession 0]), ∃ i ∈ s.db.invitation? 0,
        (i.revokedAt = none ∧ i.usedAt = none ∧ s.clock < i.expiresAt) ∧
        (∃ t ∈ s.db.identityTransactions, t.signerId = i.signerId ∧ t.status.isLost = true) ∧
        (∃ signer ∈ s.db.signer? i.signerId, ∃ c ∈ s.db.case? signer.signatureCaseId,
          c.status.isOpen = true) ∧
        (startSession s.db s.clock 0).toOption = none := by decide +kernel
  obtain ⟨start, hok⟩ := (hall s (Sys.reachable_of_after hs)).restart 0 i hi
    ⟨hlive.1, hlive.2.1, hlive.2.2, hopen⟩ ⟨t, ht, hlost⟩
  rw [hok] at hstart
  cases hstart

/-!
# Attempts and the session they rest on

`app.assert_signature_attempt_consistency` wants the identity transaction of an attempt to be of the
attempt's document version. `startBankId` records one session for an intent, over the first of its
documents, and `handlePadesCreate` makes an attempt for each of them by that session.
-/

/-- The signable documents of an intent, as `handlePadesCreate` goes through them. -/
def Db.toSign (db : Db) (signingIntentId : Id) : List IntentDocumentRow :=
  (loadIntentDocuments db signingIntentId).filter (·.documentRole != .attachment)

structure AttemptsConsistent (db : Db) (intent : IntentRow) : Prop where
  consistent : ∀ document ∈ db.toSign intent.signingIntentId, ∀ attemptId,
    refuse (assertSignatureAttemptConsistency db (attemptRow db intent document attemptId)) = .ok ()
  complete : ∀ d ∈ db.signableDocuments intent.signingIntentId,
    ∃ document ∈ db.toSign intent.signingIntentId, document.documentVersionId = d.documentVersionId

section Documents

variable {db : Db} {signingIntentId : Id}

theorem DocumentRole.ne_attachment_iff {role : DocumentRole} :
    (role != .attachment) = true ↔ role = .signable := by
  cases role <;> decide

theorem mem_toSign {document : IntentDocumentRow} : document ∈ db.toSign signingIntentId ↔
    ∃ d ∈ db.signableDocuments signingIntentId, ∃ v, db.version? d.documentVersionId = some v ∧
      document = ⟨d.documentVersionId, d.ordinal, d.documentSha256, d.documentRole,
        v.canonicalObjectKey⟩ := by
  rw [Db.toSign, List.mem_filter, mem_loadIntentDocuments, DocumentRole.ne_attachment_iff]
  constructor
  · rintro ⟨⟨d, hd, hof, v, hv, rfl⟩, hrole⟩
    exact ⟨d, mem_signableDocuments.mpr ⟨hd, hof, hrole⟩, v, hv, rfl⟩
  · rintro ⟨d, hd, v, hv, rfl⟩
    obtain ⟨hd, hof, hrole⟩ := mem_signableDocuments.mp hd
    exact ⟨⟨d, hd, hof, v, hv, rfl⟩, hrole⟩

end Documents

section Attempts

variable {s : Sys} {run : PadesCreateRun}

/-- The session of a run, which is of the run's signer and over the first document of the intent. -/
theorem exists_session_of_create (h : s.Reachable) (hrun : run ∈ s.creates) :
    ∃ t, s.db.identityTransaction? run.intent.identityTransactionId = some t ∧
      t.signerId = run.intent.signerId ∧ t.provider = .TIC_BANKID ∧
      s.db.firstDocumentVersionId run.intent.signingIntentId = some t.documentVersionId := by
  obtain ⟨t, ht, hintent⟩ := (bound_of_reachable h).creates run hrun
  obtain ⟨si, hof, hsi, hsigner, hprovider, hfirst⟩ :=
    (bound_of_reachable h).sessions t (List.mem_of_find?_eq_some ht)
  obtain ⟨si', hsi', hrunSigner, -, -⟩ := (attributed_of_reachable h).creates run hrun
  have hid : run.intent.signingIntentId = si.id := Option.some.inj (hintent.symm.trans hof)
  rw [hid] at hsi' ⊢
  obtain rfl := Option.some.inj (hsi.symm.trans hsi')
  exact ⟨t, ht, hsigner.trans hrunSigner, hprovider, hfirst⟩

theorem signer?_of_create (h : s.Reachable) (hrun : run ∈ s.creates) {d : SigningIntentDocument}
    (hd : d ∈ s.db.signableDocuments run.intent.signingIntentId) :
    (s.db.signer? run.intent.signerId).map (·.signatureCaseId) =
      s.db.versionCase? d.documentVersionId := by
  obtain ⟨hd, hof, -⟩ := mem_signableDocuments.mp hd
  obtain ⟨si, -, hsi, -, -, -, hcase⟩ := (bound_of_reachable h).names d hd
  obtain ⟨si', hsi', hsigner, -, -⟩ := (attributed_of_reachable h).creates run hrun
  rw [hof] at hsi
  obtain rfl := Option.some.inj (hsi.symm.trans hsi')
  obtain ⟨_, signer, -, -, hrow, hof'⟩ :=
    (prepared_of_reachable h).sent si (List.mem_of_find?_eq_some hsi)
  rw [hcase, ← hsigner, hrow, Option.map_some, hof']

theorem refuse_attempt_iff (h : s.Reachable) (hrun : run ∈ s.creates) {t : IdentityTransaction}
    (ht : s.db.identityTransaction? run.intent.identityTransactionId = some t)
    (hsigner : t.signerId = run.intent.signerId) (hprovider : t.provider = .TIC_BANKID)
    {d : SigningIntentDocument} (hd : d ∈ s.db.signableDocuments run.intent.signingIntentId)
    {document : IntentDocumentRow} (hversion : document.documentVersionId = d.documentVersionId)
    (hsha : document.documentSha256 = d.documentSha256) (attemptId : Id) :
    refuse (assertSignatureAttemptConsistency s.db
        (attemptRow s.db run.intent document attemptId)) = .ok () ↔
      t.documentVersionId = d.documentVersionId := by
  obtain ⟨-, v, -, hv, hdigest, hlocked, -⟩ :=
    (bound_of_reachable h).names d (mem_signableDocuments.mp hd).1
  have hcase := signer?_of_create h hrun hd
  simp only [assertSignatureAttemptConsistency, attemptRow, refuse_append, refuse_raises, ht, hv,
    hversion, hsha, hcase, hdigest, hlocked, hsigner, hprovider, Option.map_some, Option.bind_some,
    bne_self_eq_false, Bool.false_or, Bool.or_false, Option.any_some, DocumentStatus.isSignable,
    Bool.not_true, and_true, bne_eq_false_iff_eq, Option.some.injEq]

/--
In every reachable state, the documents of a run's intent can all get their attempts exactly when
there is one of them.
-/
theorem attemptsConsistent_iff (h : s.Reachable) (hrun : run ∈ s.creates) :
    AttemptsConsistent s.db run.intent ↔
      (s.db.signableDocuments run.intent.signingIntentId).length = 1 := by
  have hbound := bound_of_reachable h
  obtain ⟨t, ht, hsigner, hprovider, hfirst⟩ := exists_session_of_create h hrun
  have hload : ∀ d ∈ s.db.signableDocuments run.intent.signingIntentId,
      ∃ document ∈ s.db.toSign run.intent.signingIntentId,
        document.documentVersionId = d.documentVersionId ∧
          document.documentSha256 = d.documentSha256 := by
    intro d hd
    obtain ⟨-, v, -, hv, -⟩ := hbound.names d (mem_signableDocuments.mp hd).1
    exact ⟨_, mem_toSign.mpr ⟨d, hd, v, hv, rfl⟩, rfl, rfl⟩
  constructor
  · intro hall
    -- every document is over the version of the session, and no version is named twice
    have hsame : ∀ d ∈ s.db.signableDocuments run.intent.signingIntentId,
        t.documentVersionId = d.documentVersionId := by
      intro d hd
      obtain ⟨document, hdocument, hversion, hsha⟩ := hload d hd
      exact (refuse_attempt_iff h hrun ht hsigner hprovider hd hversion hsha 0).mp
        (hall.consistent document hdocument 0)
    obtain ⟨si, hsi, -⟩ := (attributed_of_reachable h).creates run hrun
    have hne := hbound.signable si (List.mem_of_find?_eq_some hsi)
    rw [(exists_of_find?_key hsi).2] at hne
    have honce : ((s.db.signableDocuments run.intent.signingIntentId).map
        fun d => (d.signingIntentId, d.documentVersionId)).Nodup :=
      hbound.namesOnce.sublist (List.filter_sublist.map _)
    match hdocuments : s.db.signableDocuments run.intent.signingIntentId with
    | [] => exact absurd hdocuments hne
    | [_] => rfl
    | d :: d' :: rest =>
      exfalso
      have hd : d ∈ s.db.signableDocuments run.intent.signingIntentId := by
        simp [hdocuments]
      have hd' : d' ∈ s.db.signableDocuments run.intent.signingIntentId := by
        simp [hdocuments]
      have hkey : (d.signingIntentId, d.documentVersionId) =
          (d'.signingIntentId, d'.documentVersionId) := by
        rw [(mem_signableDocuments.mp hd).2.1, (mem_signableDocuments.mp hd').2.1,
          ← hsame d hd, hsame d' hd']
      rw [hdocuments, List.map_cons, List.map_cons, List.nodup_cons, hkey] at honce
      exact honce.1 List.mem_cons_self
  · intro hone
    obtain ⟨d, hdocuments⟩ := List.length_eq_one_iff.mp hone
    -- the one document is the first, which the session is over
    have hversion : t.documentVersionId = d.documentVersionId := by
      rw [Db.firstDocumentVersionId, hdocuments] at hfirst
      exact (Option.some.inj hfirst).symm
    refine ⟨fun document hdocument attemptId => ?_, fun d hd => ?_⟩
    · obtain ⟨d', hd', v, -, rfl⟩ := mem_toSign.mp hdocument
      have hd : d' = d := by
        rw [hdocuments] at hd'
        exact List.mem_singleton.mp hd'
      rw [hd] at hd' ⊢
      exact (refuse_attempt_iff h hrun ht hsigner hprovider hd' rfl rfl attemptId).mpr hversion
    · obtain ⟨document, hdocument, hsame, -⟩ := hload d hd
      exact ⟨document, hdocument, hsame⟩

end Attempts

namespace AttemptConsistency

/-- A run for the intent of a signer who has been identified, with that many documents to sign. -/
def untilStarted (documents : Nat) : List Step :=
  .prepareCase (Intake.sample documents [(1, true)]) :: .send 1 idText :: Step.identify 0 0 ++
    [.startCreate 0]

end AttemptConsistency

/-- An intent with one document. -/
theorem attemptsConsistent_of_one : ∃ s ∈ Sys.after (AttemptConsistency.untilStarted 1),
    ∃ run ∈ s.creates, AttemptsConsistent s.db run.intent := by
  obtain ⟨s, hs, run, hrun, hone⟩ : ∃ s ∈ Sys.after (AttemptConsistency.untilStarted 1),
      ∃ run ∈ s.creates, (s.db.signableDocuments run.intent.signingIntentId).length = 1 := by
    decide +kernel
  exact ⟨s, hs, run, hrun, (attemptsConsistent_iff (Sys.reachable_of_after hs) hrun).mpr hone⟩

/-- The second document of an intent is not the one that the session names. -/
theorem not_attemptsConsistent_of_two : ¬∀ (s : Sys) (run : PadesCreateRun), s.Reachable →
    run ∈ s.creates → run.intent.intentStatus = .verified →
    (∃ c, s.db.case? run.intent.signatureCaseId = some c ∧ c.status.isOpen = true) →
    AttemptsConsistent s.db run.intent := by
  intro hall
  obtain ⟨s, hs, run, hrun, hverified, ⟨c, hc, hopen⟩, document, hdocument, hrefused⟩ :
      ∃ s ∈ Sys.after (AttemptConsistency.untilStarted 2), ∃ run ∈ s.creates,
        run.intent.intentStatus = .verified ∧
        (∃ c ∈ s.db.case? run.intent.signatureCaseId, c.status.isOpen = true) ∧
        ∃ document ∈ s.db.toSign run.intent.signingIntentId,
          refuse (assertSignatureAttemptConsistency s.db
            (attemptRow s.db run.intent document 1)) ≠ .ok () := by
    decide +kernel
  exact hrefused ((hall s run (Sys.reachable_of_after hs) hrun hverified ⟨c, hc, hopen⟩).consistent
    document hdocument 1)

end Kommunsign
