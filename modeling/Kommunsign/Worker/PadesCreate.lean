import Kommunsign.Data.Tables
import Mathlib.Data.List.Sort

/-!
# `handlePadesCreate`

The handler runs in stages with no transaction around them: it reads the intent, moves the signer
to `signing`, and for each signable document reads the latest revision, has it signed by the
signing service, and writes the attempt, the artifact and its evidence in one transaction.

* `loadIntent`, `loadIntentDocuments` — what the handler works from
* `loadLatestRevision` — the revision the next signature is applied to
-/

namespace Kommunsign

open Infra

/-- The modelled columns of `IntentRow`. -/
structure IntentRow where
  signingIntentId : Id
  signatureCaseId : Id
  signerId : Id
  intentStatus : IntentStatus
  identityTransactionId : Id
  decisionMode : DecisionMode
  policySnapshot : Json
  deriving DecidableEq

/-- The modelled columns of `IntentDocumentRow`. -/
structure IntentDocumentRow where
  documentVersionId : Id
  ordinal : Nat
  documentSha256 : Digest
  documentRole : DocumentRole
  canonicalObjectKey : Option ObjectKey
  deriving DecidableEq

def orFail {α : Type} (code : String) : Option α → Except Failure α
  | none => .error (.thrown code)
  | some a => .ok a

theorem orFail_eq_ok {α : Type} {code : String} {o : Option α} {a : α} :
    orFail code o = .ok a ↔ o = some a := by
  cases o <;> simp [orFail]

/-- Whether `loadIntent` joins the intent with this identity transaction. -/
def Db.verifiedIdentity (db : Db) (signingIntentId : Id) (it : IdentityTransaction) : Bool :=
  it.signingIntentId == some signingIntentId && it.status == .verified &&
    db.identityArtifacts.any fun tia =>
      tia.provider == .TIC_BANKID && tia.identityTransactionId == it.id && tia.pass

def loadIntent (db : Db) (signingIntentId : Id) : Except Failure IntentRow :=
  orFail "SIGNING_INTENT_NOT_VERIFIED" do
    let si ← db.intent? signingIntentId
    let c ← db.case? si.signatureCaseId
    let s ← db.signer? si.signerId
    let it ← db.identityTransactions.find? (db.verifiedIdentity si.id)
    some {
      signingIntentId := si.id
      signatureCaseId := si.signatureCaseId
      signerId := s.id
      intentStatus := si.status
      identityTransactionId := it.id
      decisionMode := c.decisionMode
      policySnapshot := c.policySnapshot }

theorem loadIntent_eq_ok {db : Db} {signingIntentId : Id} {intent : IntentRow}
    (h : loadIntent db signingIntentId = .ok intent) : ∃ si c s it,
      db.intent? signingIntentId = some si ∧ db.case? si.signatureCaseId = some c ∧
        db.signer? si.signerId = some s ∧
        db.identityTransactions.find? (db.verifiedIdentity si.id) = some it ∧
        intent = ⟨si.id, si.signatureCaseId, s.id, si.status, it.id, c.decisionMode,
          c.policySnapshot⟩ := by
  simp only [loadIntent, orFail_eq_ok, Option.bind_eq_bind, Option.bind_eq_some_iff,
    Option.some.injEq] at h
  obtain ⟨si, hsi, c, hc, s, hs, it, hit, rfl⟩ := h
  exact ⟨si, c, s, it, hsi, hc, hs, hit, rfl⟩

/-- `order by sid.ordinal`. -/
def byOrdinal (documents : List IntentDocumentRow) : List IntentDocumentRow :=
  documents.insertionSort fun a b => a.ordinal ≤ b.ordinal

def loadIntentDocuments (db : Db) (signingIntentId : Id) : List IntentDocumentRow :=
  byOrdinal ((db.intentDocuments.filter fun sid => sid.signingIntentId == signingIntentId).filterMap
    fun sid => (db.version? sid.documentVersionId).map fun v => {
      documentVersionId := sid.documentVersionId
      ordinal := sid.ordinal
      documentSha256 := sid.documentSha256
      documentRole := sid.documentRole
      canonicalObjectKey := v.canonicalObjectKey })

/-! ## The latest revision -/

/-- Whether another artifact on the document version continues this one. -/
def Db.hasSuccessor (db : Db) (documentVersionId : Id) (artifact : SignatureArtifact) : Bool :=
  (db.artifactsOn documentVersionId).any fun successor =>
    successor.inputRevisionSha256 == artifact.signedDocumentSha256

/-- Whether the artifact's attempt is validated and one of its validation runs passed. -/
def Db.isValidated (db : Db) (artifact : SignatureArtifact) : Bool :=
  ((db.attempt? artifact.signatureAttemptId).any fun a => a.status == .validated) &&
    db.validationRuns.any fun run =>
      run.signatureArtifactId == artifact.id && run.indication == .TOTAL_PASSED

/-- The row that the query of `loadLatestRevision` answers with. -/
def Db.latestRevision? (db : Db) (documentVersionId : Id) : Option SignatureArtifact :=
  (db.artifactsOn documentVersionId).find? fun artifact =>
    db.isValidated artifact && !db.hasSuccessor documentVersionId artifact

/--
The digest of the bytes that the next signature is applied to. `download` is the digest of what
the object storage returns for a key.
-/
def loadLatestRevision (db : Db) (download : ObjectKey → Digest) (document : IntentDocumentRow) :
    Except Failure Digest :=
  match db.latestRevision? document.documentVersionId with
  | some latest =>
    let sha256 := download latest.signedDocumentObjectKey
    if sha256 ≠ latest.signedDocumentSha256 then .error (.thrown "SIGNED_REVISION_HASH_MISMATCH")
    else .ok sha256
  | none =>
    match document.canonicalObjectKey with
    | none => .error (.thrown "DOCUMENT_NOT_CANONICALIZED")
    | some canonicalKey =>
      let sha256 := download canonicalKey
      if sha256 ≠ document.documentSha256 then .error (.thrown "CANONICAL_DOCUMENT_HASH_MISMATCH")
      else .ok sha256

theorem loadLatestRevision_eq_ok {db : Db} {download : ObjectKey → Digest}
    {document : IntentDocumentRow} {sha256 : Digest}
    (h : loadLatestRevision db download document = .ok sha256) :
    sha256 = ((db.latestRevision? document.documentVersionId).map (·.signedDocumentSha256)).getD
      document.documentSha256 := by
  unfold loadLatestRevision at h
  split at h
  · next latest hlatest =>
    rw [hlatest]
    dsimp only at h
    split at h
    · cases h
    · next heq =>
      cases h
      exact not_not.mp heq
  · next hnone =>
    rw [hnone]
    split at h
    · cases h
    · dsimp only at h
      split at h
      · cases h
      · next heq =>
        cases h
        exact not_not.mp heq

/-! ## The stages of the handler -/

/-- A run of the handler between two of its stages. -/
structure PadesCreateRun where
  intent : IntentRow
  requestedFormat : PadesLevel
  /-- The signable documents that are still to be signed. -/
  documents : List IntentDocumentRow
  marked : Bool
  /-- The revision that has been read for the first of the documents. -/
  input : Option Digest
  deriving DecidableEq

/-- Everything before the first write; a packaged intent needs no run. -/
def startPadesCreate (db : Db) (signingIntentId : Id) : Except Failure (Option PadesCreateRun) := do
  let intent ← loadIntent db signingIntentId
  if intent.decisionMode ≠ .ELECTRONIC_SIGNATURE then
    throw (.thrown "PADES_NOT_APPLICABLE_TO_DECISION_MODE")
  if intent.intentStatus = .packaged then return none
  if intent.intentStatus ≠ .verified then throw (.thrown "PADES_CREATE_STATE_INVALID")
  let documents := loadIntentDocuments db signingIntentId
  if documents.isEmpty then throw (.thrown "SIGNING_INTENT_HAS_NO_DOCUMENTS")
  let signableDocuments := documents.filter fun d => d.documentRole != .attachment
  if signableDocuments.isEmpty then throw (.thrown "SIGNING_INTENT_HAS_NO_SIGNABLE_DOCUMENT")
  match ← requiredPadesLevel intent.policySnapshot with
  | none => throw (.thrown "ELECTRONIC_SIGNATURE_POLICY_REQUIRES_A_PADES_LEVEL")
  | some level =>
    return some {
      intent := intent
      requestedFormat := level
      documents := signableDocuments
      marked := false
      input := none }

theorem startPadesCreate_eq {db : Db} {signingIntentId : Id} {run : PadesCreateRun}
    (h : startPadesCreate db signingIntentId = .ok (some run)) :
    loadIntent db signingIntentId = .ok run.intent ∧ run.intent.intentStatus = .verified ∧
      run.documents = (loadIntentDocuments db signingIntentId).filter
        (·.documentRole != .attachment) ∧
      run.documents ≠ [] ∧ run.marked = false ∧ run.input = none := by
  unfold startPadesCreate at h
  obtain ⟨intent, hintent, h⟩ := except_bind_eq_ok.mp h
  obtain ⟨-, h⟩ := except_guard_eq_ok.mp h
  dsimp only at h
  split at h
  · cases h
  obtain ⟨hverified, h⟩ := except_guard_eq_ok.mp h
  obtain ⟨-, h⟩ := except_guard_eq_ok.mp h
  obtain ⟨hsignable, h⟩ := except_guard_eq_ok.mp h
  obtain ⟨level, -, h⟩ := except_bind_eq_ok.mp h
  cases level with
  | none => cases h
  | some level =>
    cases h
    exact ⟨hintent, not_not.mp hverified, rfl, fun hnil => hsignable (List.isEmpty_iff.mpr hnil),
      rfl, rfl⟩

theorem requiredPadesLevel_of_start {db : Db} {signingIntentId : Id} {run : PadesCreateRun}
    (h : startPadesCreate db signingIntentId = .ok (some run)) :
    requiredPadesLevel run.intent.policySnapshot = .ok (some run.requestedFormat) := by
  unfold startPadesCreate at h
  obtain ⟨intent, -, h⟩ := except_bind_eq_ok.mp h
  obtain ⟨-, h⟩ := except_guard_eq_ok.mp h
  dsimp only at h
  split at h
  · cases h
  obtain ⟨-, h⟩ := except_guard_eq_ok.mp h
  obtain ⟨-, h⟩ := except_guard_eq_ok.mp h
  obtain ⟨-, h⟩ := except_guard_eq_ok.mp h
  obtain ⟨level, hlevel, h⟩ := except_bind_eq_ok.mp h
  cases level with
  | none => cases h
  | some level =>
    cases h
    exact hlevel

/-- `update app.signers set status='signing' … where id=$2 and status='identity_verified'`. -/
def markSigning (signerId : Id) : Tx Nat :=
  (Tables.signers .worker).update (fun s => s.id == signerId && s.status == .identity_verified)
    fun s => { s with status := .signing }

/-- Whether the signer has an artifact on the document version already. -/
def Db.alreadySigned (db : Db) (signerId documentVersionId : Id) : Bool :=
  db.artifacts.any fun artifact => (db.attempt? artifact.signatureAttemptId).any fun attempt =>
    attempt.signerId == signerId && attempt.documentVersionId == documentVersionId

/-! ## The transaction that writes a signature -/

/-- `coalesce((select max(attempt_number)+1 …),1)` over the attempts of the signer. -/
def Db.nextAttemptNumber (db : Db) (signerId : Id) : Nat :=
  ((db.attempts.filter fun a => a.signerId == signerId).map (·.attemptNumber + 1)).foldr max 1

/-- The attempt that the handler inserts. -/
def attemptRow (db : Db) (intent : IntentRow) (document : IntentDocumentRow) (attemptId : Id) :
    SignatureAttempt where
  id := attemptId
  signerId := intent.signerId
  documentVersionId := document.documentVersionId
  identityTransactionId := intent.identityTransactionId
  attemptNumber := db.nextAttemptNumber intent.signerId
  status := .prepared
  documentSha256 := document.documentSha256
  provider := .TIC_BANKID

/-- The artifact that the handler inserts for what the signing service has returned. -/
def artifactRow (intent : IntentRow) (requestedFormat : PadesLevel) (document : IntentDocumentRow)
    (attemptId artifactId : Id) (input signed : Digest) : SignatureArtifact where
  id := artifactId
  signatureAttemptId := attemptId
  format := requestedFormat
  signedDocumentObjectKey := .signed document.documentVersionId intent.signerId
  signedDocumentSha256 := signed
  inputRevisionSha256 := input

/-- `update app.signature_attempts set status=… where id=$2`. -/
def setAttemptStatus (attemptId : Id) (status : AttemptStatus) : Tx Nat :=
  (Tables.attempts .trustedService).update (fun a => a.id == attemptId) fun a =>
    { a with status := status }

/-- The attempt, and its first two status updates. -/
def insertAttempt (intent : IntentRow) (document : IntentDocumentRow) (attemptId : Id) :
    Tx Unit := do
  let db ← Transaction.read
  (Tables.attempts .trustedService).insert (attemptRow db intent document attemptId)
  let _ ← setAttemptStatus attemptId .identity_verified
  let _ ← setAttemptStatus attemptId .credential_issued

/-- What follows the artifact: its evidence, the validation job and the event. -/
def recordEvidence (intent : IntentRow) (artifact : SignatureArtifact)
    (document : IntentDocumentRow) : Tx Unit := do
  (Tables.evidence .trustedService).insert ⟨.signatureCertificate, artifact.id⟩
  (Tables.evidence .trustedService).insert ⟨.certificateChain, artifact.id⟩
  let _ ← setAttemptStatus artifact.signatureAttemptId .signed
  enqueue (.padesValidate {
    signingIntentId := intent.signingIntentId
    signatureArtifactId := artifact.id
    signatureAttemptId := artifact.signatureAttemptId
    documentVersionId := document.documentVersionId
    signedObjectKey := artifact.signedDocumentObjectKey })
  audit .signature_pades_created artifact.id

/-- The rest of the transaction after the artifact, and its commit. -/
def finishSignature (intent : IntentRow) (artifact : SignatureArtifact)
    (document : IntentDocumentRow) : Tx Unit := do
  recordEvidence intent artifact document
  deferredChecks artifact

/-- The statements of one signature: the attempt, the artifact, and what belongs to it. -/
def writeSignature (intent : IntentRow) (artifact : SignatureArtifact)
    (document : IntentDocumentRow) : Tx Unit := do
  insertAttempt intent document artifact.signatureAttemptId
  (Tables.artifacts .trustedService).insert artifact
  recordEvidence intent artifact document

/-- One signature, with the deferred check of its commit. -/
def commitSignature (intent : IntentRow) (artifact : SignatureArtifact)
    (document : IntentDocumentRow) : Tx Unit := do
  writeSignature intent artifact document
  deferredChecks artifact

/-! ## What the transaction leaves -/

section Spec

variable {db db' : Db} {intent : IntentRow} {document : IntentDocumentRow} {u : Unit}

theorem setAttemptStatus_last {rows : List SignatureAttempt} (row : SignatureAttempt)
    {status : AttemptStatus} {n : Nat} (hrows : db.attempts = rows ++ [row])
    (hnew : ∀ a ∈ rows, a.id ≠ row.id) (h : setAttemptStatus row.id status db = .ok (n, db')) :
    db' = { db with attempts := rows ++ [{ row with status := status }] } := by
  obtain ⟨-, rfl, -⟩ := Table.update_eq_ok.mp h
  simp only [Tables.attempts, hrows]
  exact congrArg (fun attempts => { db with attempts := attempts }) (assign_last (·.id) hnew)

theorem insertAttempt_eq {attemptId : Id}
    (h : insertAttempt intent document attemptId db = .ok (u, db')) :
    (Tables.attempts .trustedService).onInsert db (attemptRow db intent document attemptId) = .ok () ∧
      (∀ a ∈ db.attempts, a.id ≠ attemptId) ∧
      db' = { db with
        attempts := db.attempts ++
          [{ attemptRow db intent document attemptId with status := .credential_issued }] } := by
  rw [insertAttempt, Transaction.read_bind] at h
  simp only [Transaction.bind_eq_ok, Transaction.pure_eq_ok] at h
  obtain ⟨_, db₁, h₁, _, db₂, h₂, _, db₃, h₃, -, rfl⟩ := h
  obtain ⟨hok, rfl⟩ := Table.insert_eq_ok.mp h₁
  have hnew : ∀ a ∈ db.attempts, a.id ≠ attemptId := by
    simp only [Tables.attempts, refuse_append, refuse_violates, List.any_eq_false,
      beq_iff_eq] at hok
    exact hok.1.1.1.1
  refine ⟨hok, hnew, ?_⟩
  have hdb₂ := setAttemptStatus_last (attemptRow db intent document attemptId) rfl hnew h₂
  subst hdb₂
  have hdb₃ := setAttemptStatus_last
    { attemptRow db intent document attemptId with status := .identity_verified } (by rfl) hnew h₃
  exact hdb₃

theorem recordEvidence_eq {artifact : SignatureArtifact} {rows : List SignatureAttempt}
    {row : SignatureAttempt} (hrows : db.attempts = rows ++ [row]) (hnew : ∀ a ∈ rows, a.id ≠ row.id)
    (howner : artifact.signatureAttemptId = row.id)
    (h : recordEvidence intent artifact document db = .ok (u, db')) :
    db' = { db with
      attempts := rows ++ [{ row with status := .signed }]
      evidence := db.evidence ++
        [⟨.signatureCertificate, artifact.id⟩, ⟨.certificateChain, artifact.id⟩]
      jobs := queueJob db.jobs (.padesValidate {
        signingIntentId := intent.signingIntentId
        signatureArtifactId := artifact.id
        signatureAttemptId := row.id
        documentVersionId := document.documentVersionId
        signedObjectKey := artifact.signedDocumentObjectKey })
      events := db.events ++ [⟨.audit, .signature_pades_created, artifact.id⟩] } := by
  simp only [recordEvidence, Transaction.bind_eq_ok] at h
  obtain ⟨_, db₁, h₁, _, db₂, h₂, _, db₃, h₃, _, db₄, h₄, h₅⟩ := h
  obtain ⟨-, rfl⟩ := Table.insert_eq_ok.mp h₁
  obtain ⟨-, rfl⟩ := Table.insert_eq_ok.mp h₂
  rw [howner] at h₃ h₄
  have hdb₃ := setAttemptStatus_last row (by exact hrows) hnew h₃
  subst hdb₃
  obtain rfl := Transaction.rewrite_eq_ok.mp h₄
  obtain rfl := Transaction.rewrite_eq_ok.mp h₅
  simp only [Tables.evidence, List.append_assoc, List.cons_append, List.nil_append]

theorem finishSignature_eq {artifact : SignatureArtifact} {rows : List SignatureAttempt}
    {row : SignatureAttempt} (hrows : db.attempts = rows ++ [row]) (hnew : ∀ a ∈ rows, a.id ≠ row.id)
    (howner : artifact.signatureAttemptId = row.id)
    (h : finishSignature intent artifact document db = .ok (u, db')) :
    db' = { db with
      attempts := rows ++ [{ row with status := .signed }]
      evidence := db.evidence ++
        [⟨.signatureCertificate, artifact.id⟩, ⟨.certificateChain, artifact.id⟩]
      jobs := queueJob db.jobs (.padesValidate {
        signingIntentId := intent.signingIntentId
        signatureArtifactId := artifact.id
        signatureAttemptId := row.id
        documentVersionId := document.documentVersionId
        signedObjectKey := artifact.signedDocumentObjectKey })
      events := db.events ++ [⟨.audit, .signature_pades_created, artifact.id⟩] } := by
  obtain ⟨_, db₁, h₁, h₂⟩ := Transaction.bind_eq_ok.mp h
  obtain ⟨-, rfl⟩ := Transaction.check_eq_ok.mp h₂
  exact recordEvidence_eq hrows hnew howner h₁

/-- The rows that one signature adds. -/
def withSignature (db : Db) (intent : IntentRow) (document : IntentDocumentRow)
    (artifact : SignatureArtifact) : Db :=
  { db with
    attempts := db.attempts ++
      [{ attemptRow db intent document artifact.signatureAttemptId with status := .signed }]
    artifacts := db.artifacts ++ [artifact]
    evidence := db.evidence ++
      [⟨.signatureCertificate, artifact.id⟩, ⟨.certificateChain, artifact.id⟩]
    jobs := queueJob db.jobs (.padesValidate {
      signingIntentId := intent.signingIntentId
      signatureArtifactId := artifact.id
      signatureAttemptId := artifact.signatureAttemptId
      documentVersionId := document.documentVersionId
      signedObjectKey := artifact.signedDocumentObjectKey })
    events := db.events ++ [⟨.audit, .signature_pades_created, artifact.id⟩] }

theorem writeSignature_eq {artifact : SignatureArtifact}
    (h : writeSignature intent artifact document db = .ok (u, db')) :
    (Tables.attempts .trustedService).onInsert db
        (attemptRow db intent document artifact.signatureAttemptId) = .ok () ∧
      (∀ a ∈ db.attempts, a.id ≠ artifact.signatureAttemptId) ∧
      (Tables.artifacts .trustedService).onInsert { db with
        attempts := db.attempts ++
          [{ attemptRow db intent document artifact.signatureAttemptId with
            status := .credential_issued }] } artifact = .ok () ∧
      db' = withSignature db intent document artifact := by
  simp only [writeSignature, Transaction.bind_eq_ok] at h
  obtain ⟨_, db₁, h₁, _, db₂, h₂, h₃⟩ := h
  obtain ⟨hattempt, hnew, rfl⟩ := insertAttempt_eq h₁
  obtain ⟨hartifact, rfl⟩ := Table.insert_eq_ok.mp h₂
  refine ⟨hattempt, hnew, hartifact, ?_⟩
  rw [recordEvidence_eq (by rfl) hnew (by rfl) h₃]
  rfl

theorem commitSignature_eq {artifact : SignatureArtifact}
    (h : commitSignature intent artifact document db = .ok (u, db')) :
    writeSignature intent artifact document db = .ok ((), db') ∧
      refuse (assertPadesLevelNotOverclaimed db' artifact) = .ok () := by
  obtain ⟨_, db₁, h₁, h₂⟩ := Transaction.bind_eq_ok.mp h
  obtain ⟨hlevel, rfl⟩ := Transaction.check_eq_ok.mp h₂
  exact ⟨h₁, hlevel⟩

end Spec

end Kommunsign
