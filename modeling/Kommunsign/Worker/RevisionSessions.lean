import Kommunsign.Data.Revisions
import Kommunsign.Infra.Run
import Kommunsign.Worker.PadesCreate

/-!
# Workers that sign one document at the same time

Under `READ COMMITTED` a statement sees what other transactions have committed when it begins,
and the rows of its own transaction. `app.assert_signature_revision_chain` takes no lock, so two
transactions can each insert an artifact that the other does not see.

A session is one worker with one signature: it reads the revision to sign in a transaction of its
own, and later inserts the attempt and then the artifact in another.

* `CommitsOnWhatItSaw` — nothing was committed on the version since the artifact was inserted
* `linearRevisions_of_run` — such commits keep the revisions of every version in one chain
* `not_linearRevisions_of_overlap` — two overlapping transactions can branch from one revision
-/

namespace Kommunsign

open Infra

/-- How far the writing transaction of a session has come. -/
inductive SessionStage where
  | loaded
  | attempted (attempt : SignatureAttempt)
  /-- `seen` are the artifacts on the version that the guard has seen. -/
  | inserted (attempt : SignatureAttempt) (artifact : SignatureArtifact)
    (seen : List SignatureArtifact)

structure Session where
  worker : Id
  intent : IntentRow
  requestedFormat : PadesLevel
  document : IntentDocumentRow
  input : Digest
  stage : SessionStage

/-- What is committed, and the sessions that are open. -/
structure Sessions where
  db : Db
  sessions : List Session

inductive SessionStep where
  /-- Reads the intent and the latest revision of its document. -/
  | load (worker signingIntentId ordinal : Id) (downloaded : Digest)
  | attempt (worker attemptId : Id)
  | artifact (worker artifactId : Id) (signed : Digest)
  | commit (worker : Id)
  | rollback (worker : Id)
  /-- Another transaction validates an artifact. -/
  | validate (artifactId attemptId : Id) (indication : Indication) (admitted : Bool)

/--
Whether no other transaction has committed a key of the session. PostgreSQL lets the later of two
inserts of one key wait for the end of the first, and fail if that has committed.
-/
def keysFree (db : Db) (attempt : SignatureAttempt) : Bool :=
  !db.attempts.any fun a => a.id == attempt.id ||
    (a.signerId == attempt.signerId && a.attemptNumber == attempt.attemptNumber)

/-- The committed rows and the session's own attempt. -/
def withAttempt (db : Db) (attempt : SignatureAttempt) : Db :=
  { db with attempts := db.attempts ++ [attempt] }

/-- The committed rows and the session's own attempt and artifact. -/
def withArtifact (db : Db) (attempt : SignatureAttempt) (artifact : SignatureArtifact) : Db :=
  { db with attempts := db.attempts ++ [attempt], artifacts := db.artifacts ++ [artifact] }

/-- What `handlePadesValidate` writes about one artifact, as far as revisions are concerned. -/
def recordValidation (artifactId attemptId : Id) (indication : Indication) (admitted : Bool) :
    Tx Unit := do
  (Tables.validationRuns .trustedService).insert ⟨artifactId, indication, none⟩
  let _ ← setAttemptStatus attemptId (if admitted then .validated else .failed)

namespace Sessions

variable (st : Sessions)

def session? (worker : Id) : Option Session := st.sessions.find? fun s => s.worker == worker

/-- The sessions of the other workers. -/
def others (worker : Id) : List Session := st.sessions.filter fun s => s.worker != worker

/-- One statement of one worker, if nothing refuses it. -/
def step : SessionStep → Option Sessions
  | .load worker signingIntentId ordinal downloaded => do
    let run ← (startPadesCreate st.db signingIntentId).toOption.join
    let document ← run.documents.find? fun d => d.ordinal == ordinal
    let input ← (loadLatestRevision st.db (fun _ => downloaded) document).toOption
    if st.db.alreadySigned run.intent.signerId document.documentVersionId then none
    else
      some { st with sessions := st.others worker ++ [{
        worker := worker
        intent := run.intent
        requestedFormat := run.requestedFormat
        document := document
        input := input
        stage := .loaded }] }
  | .attempt worker attemptId => do
    let s ← st.session? worker
    match s.stage with
    | .loaded =>
      let _ ← (insertAttempt s.intent s.document attemptId).outcome st.db
      let attempt := { attemptRow st.db s.intent s.document attemptId with
        status := .credential_issued }
      some { st with sessions := st.others worker ++ [{ s with stage := .attempted attempt }] }
    | _ => none
  | .artifact worker artifactId signed => do
    let s ← st.session? worker
    match s.stage with
    | .attempted attempt =>
      let artifact :=
        artifactRow s.intent s.requestedFormat s.document attempt.id artifactId s.input signed
      let visible := withAttempt st.db attempt
      let _ ← ((Tables.artifacts .trustedService).insert artifact).outcome visible
      if keysFree st.db attempt then
        some { st with sessions := st.others worker ++ [{ s with
          stage := .inserted attempt artifact (visible.artifactsOn attempt.documentVersionId) }] }
      else none
    | _ => none
  | .commit worker => do
    let s ← st.session? worker
    match s.stage with
    | .inserted attempt artifact _ =>
      let db ← (finishSignature s.intent artifact s.document).outcome
        (withArtifact st.db attempt artifact)
      if keysFree st.db attempt && !st.db.artifacts.any fun a => a.id == artifact.id then
        some { db := db, sessions := st.others worker }
      else none
    | _ => none
  | .rollback worker => some { st with sessions := st.others worker }
  | .validate artifactId attemptId indication admitted => do
    let db ← (recordValidation artifactId attemptId indication admitted).outcome st.db
    some { st with db := db }

end Sessions

/-! ## Linear revisions -/

/-- The artifacts on a document version, in the order of their commits, are one linear chain. -/
structure LinearRevisions (canonical : Option Digest) (rs : List SignatureArtifact) : Prop where
  first : ∀ a, rs[0]? = some a → some a.inputRevisionSha256 = canonical
  continues : ∀ i b, rs[i + 1]? = some b →
    ∃! j, j ≤ i ∧ ∃ a, rs[j]? = some a ∧ a.signedDocumentSha256 = b.inputRevisionSha256
  unshared : (rs.map (·.inputRevisionSha256)).Nodup
  contains : ∀ last, rs.getLast? = some last → ∀ a ∈ rs,
    Relation.ReflTransGen
      (fun a b : SignatureArtifact => b.inputRevisionSha256 = a.signedDocumentSha256) a last

theorem LinearRevisions.of_chain {canonical : Option Digest} {rs : List SignatureArtifact}
    (h : RevisionChain inputRevision outputRevision canonical rs) :
    LinearRevisions canonical rs where
  first a ha := h.first a (by rwa [List.head?_eq_getElem?, Option.mem_def])
  continues i b hb := by
    obtain ⟨hi, -⟩ := List.getElem?_eq_some_iff.mp hb
    obtain ⟨a, ha⟩ : ∃ a, rs[i]? = some a := ⟨_, List.getElem?_eq_getElem (by omega)⟩
    refine ⟨i, ⟨le_refl i, _, ha, Option.some.inj (h.predecessor ha hb)⟩, ?_⟩
    rintro j ⟨hji, a, ha, hab⟩
    exact h.predecessor_unique ha hb hji (congrArg some hab)
  unshared := by
    have hmap : rs.map inputRevision = (rs.map (·.inputRevisionSha256)).map some := by
      rw [List.map_map]
      rfl
    exact List.Nodup.of_map some (hmap ▸ h.unshared)
  contains last hlast a ha := by
    exact Relation.ReflTransGen.mono (fun x y hxy => Option.some.inj hxy) a last
      (RevisionChain.descends_to_last h.linked last hlast a ha)

/-! ## The invariant -/

/-- An inserted artifact belongs to its attempt, and the guard accepted it among what it saw. -/
def Session.Sound (db : Db) (s : Session) : Prop :=
  ∀ attempt artifact seen, s.stage = .inserted attempt artifact seen →
    artifact.signatureAttemptId = attempt.id ∧
      AcceptedRevision (db.canonicalSha256 attempt.documentVersionId) seen artifact

structure SessionsInv (st : Sessions) : Prop where
  chained : st.db.Chained
  sound : ∀ s ∈ st.sessions, s.Sound st.db

/-- No artifact on the version has been committed since this one was inserted. -/
def CommitsOnWhatItSaw (st : Sessions) : SessionStep → Prop
  | .commit worker => ∀ s ∈ st.session? worker, ∀ attempt artifact seen,
    s.stage = .inserted attempt artifact seen →
      st.db.artifactsOn attempt.documentVersionId = seen
  | _ => True

section Step

variable {st st' : Sessions} {worker : Id}

theorem mem_others {s : Session} (h : s ∈ st.others worker) : s ∈ st.sessions :=
  (List.mem_filter.mp h).1

theorem session?_mem {s : Session} (h : st.session? worker = some s) : s ∈ st.sessions :=
  List.mem_of_find?_eq_some h

theorem Session.Sound.congr {db db' : Db} {s : Session} (h : s.Sound db)
    (hversions : db'.versions = db.versions) : s.Sound db' := by
  intro attempt artifact seen hstage
  rw [Db.canonicalSha256, Db.version?, hversions]
  exact h attempt artifact seen hstage

theorem SessionsInv.set (h : SessionsInv st) {s : Session} (hs : s.Sound st.db) :
    SessionsInv { st with sessions := st.others worker ++ [s] } where
  chained := h.chained
  sound t ht := by
    rcases List.mem_append.mp ht with hother | hown
    · exact h.sound t (mem_others hother)
    · rw [List.mem_singleton.mp hown]
      exact hs

theorem keysFree_iff {db : Db} {attempt : SignatureAttempt} (h : keysFree db attempt = true) :
    ∀ a ∈ db.attempts, a.id ≠ attempt.id := by
  intro a ha hid
  simp only [keysFree, Bool.not_eq_true', List.any_eq_false] at h
  exact h a ha (by simp [hid])

/-- The artifact statement: what the guard accepts among the rows that the statement sees. -/
theorem SessionsInv.artifact (h : SessionsInv st) {artifactId : Id} {signed : Digest}
    (hs : st.step (.artifact worker artifactId signed) = some st') : SessionsInv st' := by
  simp only [Sessions.step, Option.bind_eq_bind, Option.bind_eq_some_iff] at hs
  obtain ⟨s, -, hs⟩ := hs
  cases hstage : s.stage with
  | loaded => simp [hstage] at hs
  | inserted attempt artifact seen => simp [hstage] at hs
  | attempted attempt =>
    simp only [hstage, Option.bind_eq_some_iff, Transaction.outcome_eq_some] at hs
    obtain ⟨_, ⟨_, hinsert⟩, hs⟩ := hs
    split at hs
    · next hfree =>
      cases hs
      refine h.set fun attempt' artifact seen hstage' => ?_
      cases hstage'
      refine ⟨rfl, ?_⟩
      obtain ⟨hguard, -⟩ := Table.insert_eq_ok.mp hinsert
      simp only [Tables.artifacts, refuse_append, refuse_violates, List.any_eq_false,
        beq_iff_eq] at hguard
      obtain ⟨v, hv, haccepted⟩ :=
        (refuse_assertSignatureRevisionChain fun other ho => hguard.1.1 other ho).mp hguard.2
      -- the attempt that the artifact names is the session's own
      have hown : v = attempt.documentVersionId := by
        obtain ⟨found, hfound, rfl⟩ := artifactVersion?_eq_some.mp hv
        have hnone : st.db.attempts.find? (fun a => a.id == attempt.id) = none :=
          List.find?_eq_none.mpr fun a ha => by simpa using keysFree_iff hfree a ha
        rw [Db.attempt?, withAttempt, List.find?_append] at hfound
        simp only [artifactRow, hnone, Option.none_or, List.find?_cons, beq_self_eq_true,
          Option.some.injEq] at hfound
        rw [hfound]
      rw [hown] at haccepted
      exact haccepted
    · cases hs

theorem SessionsInv.commit (h : SessionsInv st)
    (hc : CommitsOnWhatItSaw st (.commit worker))
    (hs : st.step (.commit worker) = some st') : SessionsInv st' := by
  simp only [Sessions.step, Option.bind_eq_bind, Option.bind_eq_some_iff] at hs
  obtain ⟨s, hsession, hs⟩ := hs
  cases hstage : s.stage with
  | loaded => simp [hstage] at hs
  | attempted attempt => simp [hstage] at hs
  | inserted attempt artifact seen =>
    simp only [hstage, Option.bind_eq_some_iff, Transaction.outcome_eq_some] at hs
    obtain ⟨db, ⟨_, hfinish⟩, hs⟩ := hs
    split at hs
    · next hfree =>
      cases hs
      rw [Bool.and_eq_true] at hfree
      have hnew := keysFree_iff hfree.1
      obtain ⟨howner, haccepted⟩ := h.sound s (session?_mem hsession) attempt artifact seen hstage
      obtain rfl := finishSignature_eq
        (show _ = st.db.attempts ++ [attempt] from rfl) hnew howner hfinish
      rw [← hc s hsession attempt artifact seen hstage] at haccepted
      exact {
        chained := h.chained.append rfl rfl rfl hnew howner haccepted
        sound := fun t ht => (h.sound t (mem_others ht)).congr rfl }
    · cases hs

theorem SessionsInv.validate (h : SessionsInv st) {artifactId attemptId : Id}
    {indication : Indication} {admitted : Bool}
    (hs : st.step (.validate artifactId attemptId indication admitted) = some st') :
    SessionsInv st' := by
  simp only [Sessions.step, Option.bind_eq_bind, Option.bind_eq_some_iff,
    Transaction.outcome_eq_some, Option.some.injEq] at hs
  obtain ⟨db, ⟨_, hrecord⟩, rfl⟩ := hs
  simp only [recordValidation, Transaction.bind_eq_ok, Transaction.pure_eq_ok] at hrecord
  obtain ⟨_, db₁, h₁, _, db₂, h₂, -, rfl⟩ := hrecord
  obtain ⟨-, rfl⟩ := Table.insert_eq_ok.mp h₁
  obtain ⟨-, rfl, -⟩ := Table.update_eq_ok.mp h₂
  exact {
    chained := h.chained.of_assign rfl (fun _ => rfl) (fun _ => rfl) rfl rfl
    sound := fun t ht => (h.sound t ht).congr rfl }

theorem SessionsInv.step (h : SessionsInv st) {i : SessionStep} (hc : CommitsOnWhatItSaw st i)
    (hs : st.step i = some st') : SessionsInv st' := by
  cases i with
  | load worker signingIntentId ordinal downloaded =>
    simp only [Sessions.step, Option.bind_eq_bind, Option.bind_eq_some_iff] at hs
    obtain ⟨run, -, document, -, input, -, hs⟩ := hs
    split at hs
    · cases hs
    · cases hs
      exact h.set fun _ _ _ hstage => by cases hstage
  | attempt worker attemptId =>
    simp only [Sessions.step, Option.bind_eq_bind, Option.bind_eq_some_iff] at hs
    obtain ⟨s, -, hs⟩ := hs
    cases hstage : s.stage with
    | loaded =>
      simp only [hstage, Option.bind_eq_some_iff, Option.some.injEq] at hs
      obtain ⟨_, -, rfl⟩ := hs
      exact h.set fun _ _ _ hstage' => by cases hstage'
    | attempted attempt => simp [hstage] at hs
    | inserted attempt artifact seen => simp [hstage] at hs
  | artifact worker artifactId signed => exact h.artifact hs
  | commit worker => exact h.commit hc hs
  | rollback worker =>
    cases hs
    exact ⟨h.chained, fun t ht => h.sound t (mem_others ht)⟩
  | validate artifactId attemptId indication admitted => exact h.validate hs

end Step

/-- Before the first artifact and with no session open. -/
structure Sessions.Fresh (st : Sessions) : Prop where
  artifacts : st.db.artifacts = []
  sessions : st.sessions = []

theorem SessionsInv.of_fresh {st : Sessions} (h : st.Fresh) : SessionsInv st where
  chained := {
    attempted := by simp [h.artifacts]
    chain := fun v => by
      rw [Db.ChainOn, Db.artifactsOn, h.artifacts]
      exact RevisionChain.nil }
  sound := by simp [h.sessions]

/--
However the statements of the workers interleave: as long as nothing is committed on a version
between a worker's artifact and its commit, the committed artifacts on every version are linear.
-/
theorem linearRevisions_of_run {st st' : Sessions} {steps : List SessionStep} (hst : st.Fresh)
    (hm : Meets Sessions.step CommitsOnWhatItSaw st steps)
    (hr : run Sessions.step st steps = some st') (documentVersionId : Id) :
    LinearRevisions (st'.db.canonicalSha256 documentVersionId)
      (st'.db.artifactsOn documentVersionId) :=
  .of_chain ((run_invariant_of_meets (fun _ _ _ h hc hs => SessionsInv.step h hc hs)
    (SessionsInv.of_fresh hst) hm hr).chained.chain documentVersionId)

/-! ## Two signers of one document -/

namespace Sessions

/-- A signer in the middle of signing. -/
def signingSigner (id : Id) : Signer where
  id := id
  signatureCaseId := 1
  expectedIdentifier := none
  signingOrder := 1
  required := true
  email := none
  identifierBindingMode := none
  identifierBindingExceptionCode := none
  hardBouncedAt := none
  complainedAt := none
  status := .signing

def verifiedIntent (id : Id) : SigningIntent where
  id := id
  signatureCaseId := 1
  signerId := id
  sequenceGroup := 1
  visibleText := []
  nonVisiblePayload := []
  identifierBindingMode := .STRICT_PREBOUND
  issuedAt := 0
  expiresAt := 1
  createdAt := 0
  status := .verified

def verifiedIdentity (id : Id) : IdentityTransaction where
  id := id
  signerId := id
  documentVersionId := 1
  provider := .TIC_BANKID
  providerReference := id
  startedAt := 0
  signingIntentId := some id
  evidenceSha256 := some 30
  status := .verified

def signatureCase : SignatureCase where
  id := 1
  decisionMode := .ELECTRONIC_SIGNATURE
  policyId := 1
  policyVersion := 1
  policySnapshot := .obj [("requiredPadesLevel".toList, Json.lit "B")]
  status := .sent
  externalReference := none
  expiresAt := none

def lockedVersion : DocumentVersion where
  id := 1
  documentId := 1
  version := 1
  canonicalObjectKey := some (.canonical 1)
  mimeType := "application/pdf".toList
  byteSize := 1
  sha256 := some 10
  lockedAt := some 0
  status := .locked

def signableDocument (signingIntentId : Id) : SigningIntentDocument where
  signingIntentId := signingIntentId
  documentVersionId := 1
  ordinal := 1
  documentSha256 := 10
  documentRole := .signable

/-- Signers 1 and 2 of one order, both identified, and document version 1 with digest 10. -/
def twoSigners : Sessions where
  sessions := []
  db := { Db.empty with
    cases := [signatureCase]
    documents := [⟨1, 1, "Avtal".toList, .signable, 0⟩]
    versions := [lockedVersion]
    signers := [signingSigner 1, signingSigner 2]
    intents := [verifiedIntent 1, verifiedIntent 2]
    intentDocuments := [signableDocument 1, signableDocument 2]
    identityTransactions := [verifiedIdentity 1, verifiedIdentity 2]
    identityArtifacts := [⟨.TIC_BANKID, 1, 1, true⟩, ⟨.TIC_BANKID, 2, 2, true⟩] }

/-- Signer 2 reads the revision of signer 1. -/
def inTurn : List SessionStep := [
  .load 1 1 1 10, .attempt 1 1, .artifact 1 1 20, .commit 1, .validate 1 1 .TOTAL_PASSED true,
  .load 2 2 1 20, .attempt 2 2, .artifact 2 2 30, .commit 2]

/-- Both read the canonical revision, and both write before either commits. -/
def overlapping : List SessionStep := [
  .load 1 1 1 10, .load 2 2 1 10, .attempt 1 1, .attempt 2 2, .artifact 1 1 20, .artifact 2 2 30,
  .commit 1, .commit 2]

instance (st : Sessions) (i : SessionStep) : Decidable (CommitsOnWhatItSaw st i) :=
  match i with
  | .commit worker =>
    match h : st.session? worker with
    | none => isTrue (by simp [CommitsOnWhatItSaw, h])
    | some s =>
      match hstage : s.stage with
      | .inserted attempt _ seen =>
        decidable_of_iff (st.db.artifactsOn attempt.documentVersionId = seen)
          (by simp [CommitsOnWhatItSaw, h, hstage])
      | .loaded | .attempted _ => isTrue (by simp [CommitsOnWhatItSaw, h, hstage])
  | .load _ _ _ _ | .attempt _ _ | .artifact _ _ _ | .rollback _ | .validate _ _ _ _ => isTrue trivial

end Sessions

/-- Signing in turn: the run meets the condition, and its two artifacts are linear. -/
theorem linearRevisions_of_run_inTurn :
    ∃ st, run Sessions.step Sessions.twoSigners Sessions.inTurn = some st ∧
      (st.db.artifactsOn 1).length = 2 ∧
      LinearRevisions (st.db.canonicalSha256 1) (st.db.artifactsOn 1) := by
  obtain ⟨st, hst⟩ : ∃ st, run Sessions.step Sessions.twoSigners Sessions.inTurn = some st :=
    Option.isSome_iff_exists.mp (by decide +kernel)
  have hlength : ∀ st ∈ run Sessions.step Sessions.twoSigners Sessions.inTurn,
      (st.db.artifactsOn 1).length = 2 := by decide +kernel
  exact ⟨st, hst, hlength st hst,
    linearRevisions_of_run ⟨rfl, rfl⟩ (by decide +kernel) hst 1⟩

/--
Not every interleaving keeps the revisions linear: two transactions whose artifacts do not see
each other both continue from the canonical revision.
-/
theorem not_linearRevisions_of_overlap :
    ¬∀ (st st' : Sessions) (steps : List SessionStep), st.Fresh →
      run Sessions.step st steps = some st' → ∀ documentVersionId,
        LinearRevisions (st'.db.canonicalSha256 documentVersionId)
          (st'.db.artifactsOn documentVersionId) := by
  intro h
  obtain ⟨st, hst⟩ : ∃ st, run Sessions.step Sessions.twoSigners Sessions.overlapping = some st :=
    Option.isSome_iff_exists.mp (by decide +kernel)
  have hinputs : ∀ st ∈ run Sessions.step Sessions.twoSigners Sessions.overlapping,
      (st.db.artifactsOn 1).map (·.inputRevisionSha256) = [10, 10] := by decide +kernel
  have hunshared := (h _ st _ ⟨rfl, rfl⟩ hst 1).unshared
  rw [hinputs st hst] at hunshared
  exact absurd hunshared (by decide)

end Kommunsign
