import Kommunsign.Api.Send
import Kommunsign.Infra.Run
import Kommunsign.Worker.Cases
import Kommunsign.Worker.PadesValidate

/-!
# The signing workflow as a transition system

The state is the data plane, the time, and every run that is between two of its transactions. A
step is one transaction of an endpoint or a job, or a read that a later transaction acts on. Steps
of different runs interleave in any order; a job may be run any number of times.

A case appears when it is ready to be sent, with its documents and signers; what came before left
nothing else behind that the workflow looks at.

* `Sys`, `Step`, `Sys.step` — the system
* `Sys.start`, `Sys.Reachable` — its initial states, and the states it reaches
-/

namespace Kommunsign

open Infra

/-! ## A case that is ready -/

structure Intake where
  case : SignatureCase
  documents : List Document
  versions : List DocumentVersion
  signers : List Signer

/-- A ready case with documents of its own that are ready, and with pending signers of its own. -/
def Intake.isReady (intake : Intake) : Bool :=
  intake.case.status == .ready &&
    intake.documents.all (·.signatureCaseId == intake.case.id) &&
    intake.versions.all (fun v => v.status == .ready && intake.documents.any (·.id == v.documentId)) &&
    intake.signers.all fun s => s.signatureCaseId == intake.case.id && s.status == .pending

def prepareCase (intake : Intake) : Tx Unit := do
  Transaction.require intake.isReady (.thrown "CASE_NOT_READY")
  (Tables.cases .client).insert intake.case
  Transaction.forEach Tables.documents.insert intake.documents
  Transaction.forEach (Tables.versions .client).insert intake.versions
  Transaction.forEach (Tables.signers .client).insert intake.signers

/-- The state with the rows of the intake. -/
def Db.withCase (db : Db) (intake : Intake) : Db :=
  { db with
    cases := db.cases ++ [intake.case]
    documents := db.documents ++ intake.documents
    versions := db.versions ++ intake.versions
    signers := db.signers ++ intake.signers }

/-- What the intake of a case has found, and each of its rows has passed. -/
structure Intake.Accepted (intake : Intake) (db : Db) : Prop where
  ready : intake.isReady = true
  newCase : ∀ c ∈ db.cases, c.id ≠ intake.case.id
  documents : ∀ before d after, intake.documents = before ++ d :: after →
    ∀ row ∈ db.documents ++ before, row.id ≠ d.id
  versions : ∀ before v after, intake.versions = before ++ v :: after →
    ∀ row ∈ db.versions ++ before, row.id ≠ v.id
  signers : ∀ before s after, intake.signers = before ++ s :: after →
    ∀ row ∈ db.signers ++ before, row.id ≠ s.id
  consistent : ∀ s ∈ intake.signers, refuse (Tables.signerConstraints (db.withCase intake) s) = .ok ()

theorem prepareCase_eq {intake : Intake} {db db' : Db} {u : Unit}
    (h : prepareCase intake db = .ok (u, db')) :
    intake.Accepted db ∧ db' = db.withCase intake := by
  simp only [prepareCase, Transaction.bind_eq_ok] at h
  obtain ⟨_, db₀, h₀, _, db₁, h₁, _, db₂, h₂, _, db₃, h₃, h₄⟩ := h
  obtain ⟨hready, rfl⟩ := Transaction.require_eq_ok.mp h₀
  obtain ⟨hcase, rfl⟩ := Table.insert_eq_ok.mp h₁
  obtain ⟨rfl, hdocuments⟩ :=
    Table.forEach_insert (g := fun d => d) (fun _ _ => rfl) (fun _ _ _ => rfl) (fun _ => rfl) h₂
  obtain ⟨rfl, hversions⟩ :=
    Table.forEach_insert (g := fun v => v) (fun _ _ => rfl) (fun _ _ _ => rfl) (fun _ => rfl) h₃
  obtain ⟨rfl, hsigners⟩ :=
    Table.forEach_insert (g := fun s => s) (fun _ _ => rfl) (fun _ _ _ => rfl) (fun _ => rfl) h₄
  refine ⟨⟨hready, ?_, fun before d after heq => ?_, fun before v after heq => ?_,
    fun before s after heq => ?_, fun s hs => ?_⟩, ?_⟩
  · simp only [Tables.cases, refuse_append, refuse_violates, List.any_eq_false, beq_iff_eq] at hcase
    exact hcase.1.1
  · have hrow := hdocuments before d after heq
    simp only [Tables.documents, refuse_append, refuse_violates, List.any_eq_false, beq_iff_eq,
      List.map_id'] at hrow
    exact hrow.1
  · have hrow := hversions before v after heq
    simp only [Tables.versions, refuse_append, refuse_violates, List.any_eq_false, beq_iff_eq,
      List.map_id'] at hrow
    exact hrow.1.1.1
  · have hrow := hsigners before s after heq
    simp only [Tables.signers, refuse_append, refuse_violates, List.any_eq_false, beq_iff_eq,
      List.map_id'] at hrow
    exact hrow.1.1.1
  · obtain ⟨before, after, heq⟩ := List.append_of_mem hs
    have hrow := hsigners before s after heq
    simp only [Tables.signers, refuse_append] at hrow
    exact hrow.1.1.2
  · simp [Db.withCase, Tables.cases, Tables.documents, Tables.versions, Tables.signers]

/-! ## The system -/

structure Sys where
  db : Db
  clock : Time
  /-- The starts of BankID whose session is not recorded yet. -/
  starts : List StartInput
  /-- The sessions whose evidence is being checked. -/
  checks : List Id
  creates : List PadesCreateRun
  validates : List PadesValidateRun

inductive Step where
  | tick (duration : Nat)
  | prepareCase (intake : Intake)
  | send (signatureCaseId : Id) (nonce : Id → Text)
  | cancel (signatureCaseId : Id)
  | expire (signatureCaseId : Id)
  | remind (signatureCaseId : Id)
  | delivery (signerId : Id) (bounced : Bool)
  | markOpened (invitationId : Id)
  | decline (invitationId : Id)
  | startSession (invitationId : Id)
  | recordSession (index : Nat) (providerReference : Nat)
  | sessionStatus (identityTransactionId : Id) (status : ProviderStatus)
  | cancelSession (identityTransactionId : Id)
  | pollIdentity (identityTransactionId : Id) (status : ProviderStatus)
  | completeSession (identityTransactionId : Id)
  | collectEvidence (identityTransactionId : Id) (evidenceSha256 : Digest)
  | failIdentity (identityTransactionId : Id)
  | readEvidence (identityTransactionId : Id)
  | recordVerification (index : Nat) (pass : Bool)
  | startCreate (signingIntentId : Id)
  | markSigning (index : Nat)
  | skipDocument (index : Nat)
  | loadRevision (index : Nat) (download : ObjectKey → Digest)
  | commitSignature (index : Nat) (attemptId artifactId : Id) (signed : Digest)
  | dropCreate (index : Nat)
  | readValidate (payload : PadesValidatePayload) (report : PadesReport)
  | commitValidation (index : Nat)
  | buildPackage (signatureCaseId : Id) (signerId : Option Id)

/-- The run after it is done with its first document. -/
def PadesCreateRun.next (run : PadesCreateRun) : PadesCreateRun :=
  { run with documents := run.documents.tail, input := none }

namespace Sys

variable (s : Sys)

/-- The state after a transaction that commits. -/
def commit (tx : Tx Unit) : Option Sys := (tx.outcome s.db).map fun db => { s with db := db }

/-- The same for a job that is queued. -/
def work (job : DurableJob) (tx : Tx Unit) : Option Sys :=
  if job ∈ s.db.jobs then s.commit tx else none

/-- The transaction of `handlePadesCreate` for the first document of a run that has its input. -/
def signDocument (run : PadesCreateRun) (document : IntentDocumentRow) (input : Digest)
    (attemptId artifactId : Id) (signed : Digest) : Option Sys :=
  s.commit (commitSignature run.intent
    (artifactRow run.intent run.requestedFormat document attemptId artifactId input signed) document)

def step : Step → Option Sys
  | .tick duration => some { s with clock := s.clock + duration }
  | .prepareCase intake => s.commit (Kommunsign.prepareCase intake)
  | .send c nonce => s.commit (Kommunsign.send s.clock nonce c)
  | .cancel c => s.commit (Kommunsign.cancel c)
  | .expire c => s.commit (expireCase s.clock c)
  | .remind c => s.commit (sendReminders s.clock c)
  | .delivery signerId bounced => s.commit (recordDelivery signerId bounced s.clock)
  | .markOpened i => s.commit (Kommunsign.markOpened s.clock i)
  | .decline i => s.commit (Kommunsign.decline s.clock i)
  | .startSession i => do
    let (start, _) ← (Kommunsign.startSession s.db s.clock i).toOption
    some { s with starts := s.starts ++ [start] }
  | .recordSession index reference => do
    let start ← s.starts[index]?
    let s' ← s.commit (Kommunsign.recordSession s.clock reference start)
    some { s' with starts := s.starts.eraseIdx index }
  | .sessionStatus t status => s.commit (recordSessionStatus t status)
  | .cancelSession t => s.commit (Kommunsign.cancelSession t)
  | .pollIdentity t status => s.commit (Kommunsign.pollIdentity t status)
  | .completeSession t =>
    if (s.db.identityTransaction? t).isSome then s.commit (enqueue (.ticEvidenceCollect t)) else none
  | .collectEvidence t sha256 =>
    s.work (.ticEvidenceCollect t) (Kommunsign.collectEvidence t sha256)
  | .failIdentity t => s.work (.ticEvidenceCollect t) (failIdentityTransaction t)
  | .readEvidence t => do
    if .signatureValidate t ∉ s.db.jobs then failure
    if (← (readSignatureValidate s.db t).toOption) = false then failure
    some { s with checks := s.checks ++ [t] }
  | .recordVerification index pass => do
    let t ← s.checks[index]?
    let s' ← s.commit (Kommunsign.recordVerification t pass)
    some { s' with checks := s.checks.eraseIdx index }
  | .startCreate intentId => do
    if .padesCreate intentId ∉ s.db.jobs then failure
    let run ← (← (startPadesCreate s.db intentId).toOption)
    some { s with creates := s.creates ++ [run] }
  | .markSigning index => do
    let run ← s.creates[index]?
    if run.marked then failure
    let s' ← s.commit do let _ ← Kommunsign.markSigning run.intent.signerId
    some { s' with creates := s.creates.set index { run with marked := true } }
  | .skipDocument index => do
    let run ← s.creates[index]?
    let document ← run.documents.head?
    if !(run.marked && s.db.alreadySigned run.intent.signerId document.documentVersionId) then failure
    some { s with creates := s.creates.set index run.next }
  | .loadRevision index download => do
    let run ← s.creates[index]?
    let document ← run.documents.head?
    if !run.marked || s.db.alreadySigned run.intent.signerId document.documentVersionId then failure
    let input ← (loadLatestRevision s.db download document).toOption
    some { s with creates := s.creates.set index { run with input := some input } }
  | .commitSignature index attemptId artifactId signed => do
    let run ← s.creates[index]?
    let document ← run.documents.head?
    let input ← run.input
    if !run.marked then failure
    let s' ← s.signDocument run document input attemptId artifactId signed
    some { s' with creates := s.creates.set index run.next }
  | .dropCreate index => some { s with creates := s.creates.eraseIdx index }
  | .readValidate payload report => do
    if .padesValidate payload ∉ s.db.jobs then failure
    let run ← (← (readPadesValidate s.db payload report).toOption)
    some { s with validates := s.validates ++ [run] }
  | .commitValidation index => do
    let run ← s.validates[index]?
    let s' ← s.commit (Kommunsign.commitValidation s.clock run)
    some { s' with validates := s.validates.eraseIdx index }
  | .buildPackage c signerId =>
    s.work (match signerId with
      | some signerId => .signerPackage c signerId
      | none => .casePackage c) (buildEvidencePackage c signerId)

end Sys

/-- An empty data plane of a tenant. -/
def Sys.start (tenantId : Text) (organizationName : Option Text) (rollout : Bool) (clock : Time) :
    Sys where
  db := { Db.empty with
    tenantId := tenantId
    ticBankIdRolloutEnabled := rollout
    organizationName := organizationName }
  clock := clock
  starts := []
  checks := []
  creates := []
  validates := []

/-- The state after some steps from an empty data plane at time zero. -/
def Sys.after (steps : List Step) : Option Sys :=
  run Sys.step (Sys.start "1".toList none true 0) steps

/--
A ready case that expires at time one million, with that many documents to sign and a signer for
each signing order and whether the signer is required.
-/
def Intake.sample (documents : Nat) (signers : List (Nat × Bool)) : Intake where
  case := {
    id := 1
    status := .ready
    externalReference := none
    expiresAt := some 1000000
    decisionMode := .ELECTRONIC_SIGNATURE
    policyId := 1
    policyVersion := 1
    policySnapshot := Json.object [("requiredPadesLevel", Json.lit "B")] }
  documents := (List.range documents).map fun id => ⟨id, 1, "Avtal.pdf".toList, .signable, 0⟩
  versions := (List.range documents).map fun id => {
    id := id
    documentId := id
    version := 1
    canonicalObjectKey := some (.canonical id)
    mimeType := "application/pdf".toList
    byteSize := 1000
    sha256 := some (100 + id)
    lockedAt := none
    status := .ready }
  signers := (signers.zipIdx).map fun ((signingOrder, required), id) => {
    id := id
    signatureCaseId := 1
    expectedIdentifier := some "191212121212".toList
    signingOrder := signingOrder
    required := required
    email := some "a@b.se".toList
    identifierBindingMode := some .STRICT_PREBOUND
    identifierBindingExceptionCode := none
    hardBouncedAt := none
    complainedAt := none
    status := .pending }

namespace Step

/-- The holder of an invitation is identified, in a session with this id. -/
def identify (invitationId identityTransactionId : Id) : List Step := [
  .startSession invitationId, .recordSession 0 identityTransactionId,
  .completeSession identityTransactionId, .collectEvidence identityTransactionId 30,
  .readEvidence identityTransactionId, .recordVerification 0 true]

/-- A verified intent of one document is signed, from one revision to the next. -/
def sign (signingIntentId artifactId : Id) (input signed : Digest) : List Step := [
  .startCreate signingIntentId, .markSigning 0, .loadRevision 0 fun _ => input,
  .commitSignature 0 artifactId artifactId signed, .dropCreate 0]

/-- A report of a valid signature with its certificate path. -/
def passed : PadesReport := ⟨true, .TOTAL_PASSED, ⟨true, false, false, false⟩, 0⟩

/-- The signature is validated. -/
def validate (payload : PadesValidatePayload) : List Step := [
  .readValidate payload passed, .commitValidation 0]

end Step

def Sys.Reachable (s : Sys) : Prop :=
  ∃ tenantId organizationName rollout clock steps,
    run Sys.step (Sys.start tenantId organizationName rollout clock) steps = some s

theorem Sys.reachable_of_after {steps : List Step} {s : Sys} (h : Sys.after steps = some s) :
    s.Reachable := ⟨_, _, _, _, steps, h⟩

/-! ## Steps that have been taken -/

theorem Sys.commit_eq_some {s s' : Sys} {tx : Tx Unit} :
    s.commit tx = some s' ↔ ∃ db, tx s.db = .ok ((), db) ∧ s' = { s with db := db } := by
  simp only [Sys.commit, Option.map_eq_some_iff, Transaction.outcome_eq_some]
  constructor
  · rintro ⟨db, ⟨_, h⟩, rfl⟩
    exact ⟨db, h, rfl⟩
  · rintro ⟨db, h, rfl⟩
    exact ⟨db, ⟨(), h⟩, rfl⟩

theorem Sys.work_eq_some {s s' : Sys} {job : DurableJob} {tx : Tx Unit} :
    s.work job tx = some s' ↔
      job ∈ s.db.jobs ∧ ∃ db, tx s.db = .ok ((), db) ∧ s' = { s with db := db } := by
  unfold Sys.work
  by_cases hjob : job ∈ s.db.jobs
  · rw [if_pos hjob, Sys.commit_eq_some]
    exact ⟨fun h => ⟨hjob, h⟩, fun h => h.2⟩
  · rw [if_neg hjob]
    exact ⟨nofun, fun h => absurd h.1 hjob⟩

section Steps

attribute [local simp] Sys.step

variable {s s' : Sys}

theorem step_startSession {i : Id} (h : Sys.step s (.startSession i) = some s') :
    ∃ start text, startSession s.db s.clock i = .ok (start, text) ∧
      s' = { s with starts := s.starts ++ [start] } := by
  simp only [Sys.step, Option.bind_eq_bind, Option.bind_eq_some_iff, Option.some.injEq] at h
  obtain ⟨⟨start, text⟩, hstart, rfl⟩ := h
  exact ⟨start, text, toOption_eq_some.mp hstart, rfl⟩

theorem step_recordSession {index reference : Nat}
    (h : Sys.step s (.recordSession index reference) = some s') :
    ∃ start db, s.starts[index]? = some start ∧
      recordSession s.clock reference start s.db = .ok ((), db) ∧
      s' = { s with db := db, starts := s.starts.eraseIdx index } := by
  simp only [Sys.step, Option.bind_eq_bind, Option.bind_eq_some_iff, Option.some.injEq] at h
  obtain ⟨start, hstart, s₁, hs₁, rfl⟩ := h
  obtain ⟨db, hok, rfl⟩ := Sys.commit_eq_some.mp hs₁
  exact ⟨start, db, hstart, hok, rfl⟩

theorem step_completeSession {t : Id} (h : Sys.step s (.completeSession t) = some s') :
    (s.db.identityTransaction? t).isSome = true ∧ ∃ db,
      enqueue (.ticEvidenceCollect t) s.db = .ok ((), db) ∧ s' = { s with db := db } := by
  simp only [Sys.step] at h
  by_cases hsome : (s.db.identityTransaction? t).isSome = true
  · rw [if_pos hsome] at h
    exact ⟨hsome, Sys.commit_eq_some.mp h⟩
  · rw [if_neg hsome] at h
    cases h

theorem step_readEvidence {t : Id} (h : Sys.step s (.readEvidence t) = some s') :
    .signatureValidate t ∈ s.db.jobs ∧ readSignatureValidate s.db t = .ok true ∧
      s' = { s with checks := s.checks ++ [t] } := by
  simp only [Sys.step] at h
  by_cases hjob : .signatureValidate t ∈ s.db.jobs
  · cases hread : readSignatureValidate s.db t with
    | error e => simp [hjob, hread, Except.toOption] at h
    | ok collected =>
      cases collected with
      | false => simp [hjob, hread, Except.toOption, failure, Alternative.failure] at h
      | true =>
        simp [hjob, hread, Except.toOption] at h
        exact ⟨hjob, rfl, h.symm⟩
  · simp [hjob, failure, Alternative.failure] at h

theorem step_recordVerification {index : Nat} {pass : Bool}
    (h : Sys.step s (.recordVerification index pass) = some s') :
    ∃ t db, s.checks[index]? = some t ∧ recordVerification t pass s.db = .ok ((), db) ∧
      s' = { s with db := db, checks := s.checks.eraseIdx index } := by
  simp only [Sys.step, Option.bind_eq_bind, Option.bind_eq_some_iff, Option.some.injEq] at h
  obtain ⟨t, ht, s₁, hs₁, rfl⟩ := h
  obtain ⟨db, hok, rfl⟩ := Sys.commit_eq_some.mp hs₁
  exact ⟨t, db, ht, hok, rfl⟩

theorem step_startCreate {intentId : Id} (h : Sys.step s (.startCreate intentId) = some s') :
    .padesCreate intentId ∈ s.db.jobs ∧ ∃ run, startPadesCreate s.db intentId = .ok (some run) ∧
      s' = { s with creates := s.creates ++ [run] } := by
  simp only [Sys.step] at h
  by_cases hjob : .padesCreate intentId ∈ s.db.jobs
  · cases hread : startPadesCreate s.db intentId with
    | error e => simp [hjob, hread, Except.toOption] at h
    | ok run =>
      cases run with
      | none => simp [hjob, hread, Except.toOption] at h
      | some run =>
        simp [hjob, hread, Except.toOption] at h
        exact ⟨hjob, run, rfl, h.symm⟩
  · simp [hjob, failure, Alternative.failure] at h

theorem step_markSigning {index : Nat} (h : Sys.step s (.markSigning index) = some s') :
    ∃ run n db, s.creates[index]? = some run ∧ run.marked = false ∧
      markSigning run.intent.signerId s.db = .ok (n, db) ∧
      s' = { s with db := db, creates := s.creates.set index { run with marked := true } } := by
  simp only [Sys.step, Option.bind_eq_bind, Option.bind_eq_some_iff] at h
  obtain ⟨run, hrun, h⟩ := h
  cases hmarked : run.marked with
  | true => simp [hmarked, failure, Alternative.failure] at h
  | false =>
    simp only [hmarked, Bool.false_eq_true, if_false, Option.bind_eq_some_iff,
      Option.some.injEq] at h
    obtain ⟨s₁, hs₁, rfl⟩ := h
    obtain ⟨db, hok, rfl⟩ := Sys.commit_eq_some.mp hs₁
    obtain ⟨n, db₁, hmark, hpure⟩ := Transaction.bind_eq_ok.mp hok
    obtain ⟨-, rfl⟩ := Transaction.pure_eq_ok.mp hpure
    exact ⟨run, n, db, hrun, hmarked, hmark, rfl⟩

theorem step_skipDocument {index : Nat} (h : Sys.step s (.skipDocument index) = some s') :
    ∃ run document, s.creates[index]? = some run ∧ run.documents.head? = some document ∧
      run.marked = true ∧
      s.db.alreadySigned run.intent.signerId document.documentVersionId = true ∧
      s' = { s with creates := s.creates.set index run.next } := by
  simp only [Sys.step, Option.bind_eq_bind, Option.bind_eq_some_iff] at h
  obtain ⟨run, hrun, document, hdocument, h⟩ := h
  cases hskip : run.marked &&
      s.db.alreadySigned run.intent.signerId document.documentVersionId with
  | false => simp [hskip, failure, Alternative.failure] at h
  | true =>
    simp [hskip] at h
    rw [Bool.and_eq_true] at hskip
    exact ⟨run, document, hrun, hdocument, hskip.1, hskip.2, h.symm⟩

theorem step_loadRevision {index : Nat} {download : ObjectKey → Digest}
    (h : Sys.step s (.loadRevision index download) = some s') :
    ∃ run document input, s.creates[index]? = some run ∧ run.documents.head? = some document ∧
      run.marked = true ∧
      s.db.alreadySigned run.intent.signerId document.documentVersionId = false ∧
      loadLatestRevision s.db download document = .ok input ∧
      s' = { s with creates := s.creates.set index { run with input := some input } } := by
  simp only [Sys.step, Option.bind_eq_bind, Option.bind_eq_some_iff] at h
  obtain ⟨run, hrun, document, hdocument, h⟩ := h
  cases hskip : !run.marked ||
      s.db.alreadySigned run.intent.signerId document.documentVersionId with
  | true => simp [hskip, failure, Alternative.failure] at h
  | false =>
    simp only [hskip, Bool.false_eq_true, if_false, Option.bind_eq_some_iff,
      Option.some.injEq] at h
    obtain ⟨input, hinput, rfl⟩ := h
    rw [Bool.or_eq_false_iff, Bool.not_eq_false'] at hskip
    exact ⟨run, document, input, hrun, hdocument, hskip.1, hskip.2, toOption_eq_some.mp hinput, rfl⟩

theorem step_commitSignature {index : Nat} {attemptId artifactId : Id} {signed : Digest}
    (h : Sys.step s (.commitSignature index attemptId artifactId signed) = some s') :
    ∃ run document input db, s.creates[index]? = some run ∧ run.documents.head? = some document ∧
      run.input = some input ∧ run.marked = true ∧
      commitSignature run.intent (artifactRow run.intent run.requestedFormat document attemptId
        artifactId input signed) document s.db = .ok ((), db) ∧
      s' = { s with db := db, creates := s.creates.set index run.next } := by
  simp only [Sys.step, Option.bind_eq_bind, Option.bind_eq_some_iff] at h
  obtain ⟨run, hrun, document, hdocument, input, hinput, h⟩ := h
  cases hmarked : run.marked with
  | false => simp [hmarked, failure, Alternative.failure] at h
  | true =>
    simp only [hmarked, Bool.not_true, Bool.false_eq_true, if_false,
      Option.bind_eq_some_iff, Option.some.injEq] at h
    obtain ⟨s₁, hs₁, rfl⟩ := h
    obtain ⟨db, hok, rfl⟩ := Sys.commit_eq_some.mp hs₁
    exact ⟨run, document, input, db, hrun, hdocument, hinput, hmarked, hok, rfl⟩

theorem step_readValidate {payload : PadesValidatePayload} {report : PadesReport}
    (h : Sys.step s (.readValidate payload report) = some s') :
    .padesValidate payload ∈ s.db.jobs ∧ ∃ run,
      readPadesValidate s.db payload report = .ok (some run) ∧
      s' = { s with validates := s.validates ++ [run] } := by
  simp only [Sys.step] at h
  by_cases hjob : .padesValidate payload ∈ s.db.jobs
  · cases hread : readPadesValidate s.db payload report with
    | error e => simp [hjob, hread, Except.toOption] at h
    | ok run =>
      cases run with
      | none => simp [hjob, hread, Except.toOption] at h
      | some run =>
        simp [hjob, hread, Except.toOption] at h
        exact ⟨hjob, run, rfl, h.symm⟩
  · simp [hjob, failure, Alternative.failure] at h

theorem step_commitValidation {index : Nat} (h : Sys.step s (.commitValidation index) = some s') :
    ∃ run db, s.validates[index]? = some run ∧ commitValidation s.clock run s.db = .ok ((), db) ∧
      s' = { s with db := db, validates := s.validates.eraseIdx index } := by
  simp only [Sys.step, Option.bind_eq_bind, Option.bind_eq_some_iff, Option.some.injEq] at h
  obtain ⟨run, hrun, s₁, hs₁, rfl⟩ := h
  obtain ⟨db, hok, rfl⟩ := Sys.commit_eq_some.mp hs₁
  exact ⟨run, db, hrun, hok, rfl⟩

end Steps

theorem Sys.Reachable.of_step {s s' : Sys} {i : Step} (h : s.Reachable)
    (hstep : Sys.step s i = some s') : s'.Reachable := by
  obtain ⟨tenantId, organizationName, rollout, clock, steps, hrun⟩ := h
  refine ⟨tenantId, organizationName, rollout, clock, steps ++ [i], ?_⟩
  exact run_append.mpr ⟨s, hrun, run_cons_eq_some.mpr ⟨s', hstep, rfl⟩⟩

theorem Sys.Reachable.induction {inv : Sys → Prop}
    (hstart : ∀ tenantId organizationName rollout clock,
      inv (Sys.start tenantId organizationName rollout clock))
    (hstep : ∀ s i s', s.Reachable → inv s → Sys.step s i = some s' → inv s') {s : Sys}
    (h : s.Reachable) : inv s := by
  obtain ⟨tenantId, organizationName, rollout, clock, steps, hrun⟩ := h
  let both (s : Sys) : Prop := s.Reachable ∧ inv s
  have hboth : both s := by
    refine run_invariant ?_ ?_ hrun
    · rintro s i s' ⟨hreachable, hinv⟩ hi
      exact ⟨hreachable.of_step hi, hstep s i s' hreachable hinv hi⟩
    · exact ⟨⟨_, _, _, _, [], rfl⟩, hstart tenantId organizationName rollout clock⟩
  exact hboth.2

end Kommunsign
