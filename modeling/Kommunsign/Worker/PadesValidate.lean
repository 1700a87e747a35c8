import Kommunsign.Infra.Scripts
import Kommunsign.Worker.Cases
import Kommunsign.Worker.PadesCreate

/-!
# `handlePadesValidate`

The handler reads the state of the attempt, has the signed document validated, and then decides
and writes everything in one transaction.

* `readPadesValidate` — what is read before the transaction
* `padesAdmission` — the admission gate over the references that the report stands for
* `commitValidation` — the transaction: failed, admitted, or admitted as the signer's last one
-/

namespace Kommunsign

open Infra

/-- `PadesLevelEvidence`. -/
structure LevelEvidence where
  hasTrustedCertificatePath : Bool
  hasSignatureTimestamp : Bool
  hasRevocationEvidence : Bool
  hasArchiveTimestamp : Bool
  deriving DecidableEq

/-- The modelled fields of `PadesValidationReport`; `pass` is `result === 'PASS'`. -/
structure PadesReport where
  pass : Bool
  indication : Indication
  levelEvidence : LevelEvidence
  validatedAt : Time
  deriving DecidableEq

/-- A run of the handler between its reads and its transaction. -/
structure PadesValidateRun where
  payload : PadesValidatePayload
  signedDocumentSha256 : Digest
  signerId : Id
  signatureCaseId : Id
  policy : Json
  requiredLevel : Option PadesLevel
  report : PadesReport
  deriving DecidableEq

/-- The reads before the transaction; an attempt that is validated already needs no run. -/
def readPadesValidate (db : Db) (payload : PadesValidatePayload) (report : PadesReport) :
    Except Failure (Option PadesValidateRun) := do
  let (artifact, attempt, si) ← orFail "SIGNATURE_ARTIFACT_NOT_FOUND" do
    let artifact ← db.artifact? payload.signatureArtifactId
    let attempt ← db.attempt? artifact.signatureAttemptId
    let si ← db.intent? payload.signingIntentId
    some (artifact, attempt, si)
  if attempt.status = .validated then return none
  if attempt.status ≠ .signed then throw (.thrown "PADES_VALIDATE_STATE_INVALID")
  let c ← orFail "SIGNATURE_CASE_NOT_FOUND" (db.case? si.signatureCaseId)
  let requiredLevel ← requiredPadesLevel c.policySnapshot
  return some {
    payload := payload
    signedDocumentSha256 := artifact.signedDocumentSha256
    signerId := attempt.signerId
    signatureCaseId := si.signatureCaseId
    policy := c.policySnapshot
    requiredLevel := requiredLevel
    report := report }

theorem readPadesValidate_eq {db : Db} {payload : PadesValidatePayload} {report : PadesReport}
    {run : PadesValidateRun} (h : readPadesValidate db payload report = .ok (some run)) :
    ∃ artifact attempt si c, db.artifact? payload.signatureArtifactId = some artifact ∧
      db.attempt? artifact.signatureAttemptId = some attempt ∧
      db.intent? payload.signingIntentId = some si ∧ attempt.status = .signed ∧
      db.case? si.signatureCaseId = some c ∧
      requiredPadesLevel c.policySnapshot = .ok run.requiredLevel ∧
      run = ⟨payload, artifact.signedDocumentSha256, attempt.signerId, si.signatureCaseId,
        c.policySnapshot, run.requiredLevel, report⟩ := by
  unfold readPadesValidate at h
  obtain ⟨⟨artifact, attempt, si⟩, hrows, h⟩ := except_bind_eq_ok.mp h
  rw [orFail_eq_ok] at hrows
  simp only [Option.bind_eq_bind, Option.bind_eq_some_iff, Option.some.injEq, Prod.mk.injEq] at hrows
  obtain ⟨_, hartifact, _, hattempt, _, hsi, rfl, rfl, rfl⟩ := hrows
  dsimp only at h
  split at h
  · cases h
  obtain ⟨hsigned, h⟩ := except_guard_eq_ok.mp h
  obtain ⟨c, hc, h⟩ := except_bind_eq_ok.mp h
  rw [orFail_eq_ok] at hc
  obtain ⟨level, hlevel, h⟩ := except_bind_eq_ok.mp h
  cases h
  exact ⟨_, _, _, c, hartifact, hattempt, hsi, not_not.mp hsigned, hc, hlevel, rfl⟩

/-! ## The admission gate -/

/-- The references that the worker makes up from the report. -/
def admissionEvidence (artifactId : Id) (signedDocumentSha256 : Digest) (report : PadesReport) :
    AdmissionEvidence :=
  let evidence := report.levelEvidence
  let reference (has : Bool) (kind : EvidenceKind) : Option EvidenceReference :=
    if has then some ⟨kind, artifactId⟩ else none
  { signedRevisionSha256 := some signedDocumentSha256
    signingCertificateReference := reference evidence.hasTrustedCertificatePath .signatureCertificate
    certificateChainReference := reference evidence.hasTrustedCertificatePath .certificateChain
    signatureTimestampReference := reference evidence.hasSignatureTimestamp .signatureTimestamp
    revocationEvidenceReferences :=
      (reference evidence.hasRevocationEvidence .ocspEvidence).toList
    trustListSnapshotReference := none
    archiveTimestampReference := reference evidence.hasArchiveTimestamp .archiveTimestamp
    validationResult := some report.indication
    validatedAt := some report.validatedAt }

/-- All the references that a gate is handed. -/
def AdmissionEvidence.references (evidence : AdmissionEvidence) : List EvidenceReference :=
  evidence.signingCertificateReference.toList ++ evidence.certificateChainReference.toList ++
    evidence.signatureTimestampReference.toList ++ evidence.revocationEvidenceReferences ++
    evidence.trustListSnapshotReference.toList ++ evidence.archiveTimestampReference.toList

def padesAdmission (policy : Json) (requiredLevel : Option PadesLevel) (artifactId : Id)
    (signedDocumentSha256 : Digest) (report : PadesReport) :
    Except PadesRejectionCode PadesLevel :=
  admitPadesSignature {
    requiredPadesLevel := requiredLevel
    requiresTimestamp := requiresTimestamp policy
    allowedValidationResults := allowedValidationResults policy }
    (admissionEvidence artifactId signedDocumentSha256 report)

/-- The level the gate would record: it never sees a trust list, so never more than T. -/
def LevelEvidence.gateLevel (evidence : LevelEvidence) : PadesLevel :=
  if evidence.hasSignatureTimestamp then .T else .B

theorem attainedPadesLevel_admissionEvidence {artifactId : Id} {sha256 : Digest}
    {report : PadesReport} : attainedPadesLevel (admissionEvidence artifactId sha256 report) =
      if report.levelEvidence.hasTrustedCertificatePath then some report.levelEvidence.gateLevel
      else none := by
  obtain ⟨pass, indication, ⟨path, timestamp, revocation, archive⟩, validatedAt⟩ := report
  unfold attainedPadesLevel admissionEvidence LevelEvidence.gateLevel
  cases path <;> cases timestamp <;> simp

theorem padesAdmission_eq_ok {policy : Json} {level admittedLevel : PadesLevel} {artifactId : Id}
    {sha256 : Digest} {report : PadesReport} :
    padesAdmission policy (some level) artifactId sha256 report = .ok admittedLevel ↔
      report.indication ∈ allowedValidationResults policy ∧
        report.levelEvidence.hasTrustedCertificatePath = true ∧
        (requiresTimestamp policy = true → report.levelEvidence.hasSignatureTimestamp = true) ∧
        level.rank ≤ report.levelEvidence.gateLevel.rank ∧
        admittedLevel = report.levelEvidence.gateLevel := by
  unfold padesAdmission admitPadesSignature
  rw [attainedPadesLevel_admissionEvidence]
  obtain ⟨pass, indication, ⟨path, timestamp, revocation, archive⟩, validatedAt⟩ := report
  simp only [admissionEvidence, Option.isNone_some, Bool.false_eq_true, if_false]
  by_cases hallowed : indication ∈ allowedValidationResults policy
  · have hfailed : indication ≠ .TOTAL_FAILED := by
      rcases mem_allowedValidationResults hallowed with h | h <;> simp [h]
    rw [if_neg hfailed, if_neg (by simpa using hallowed)]
    cases path with
    | false => simp
    | true =>
      simp only [if_true, hallowed, true_and]
      by_cases hmissing : (requiresTimestamp policy && !timestamp) = true
      · rw [if_pos (by cases timestamp <;> simp_all)]
        simp only [reduceCtorEq, false_iff]
        rintro ⟨hrequired, -⟩
        cases timestamp <;> simp_all
      · rw [if_neg (by cases timestamp <;> simp_all)]
        have hrequired : requiresTimestamp policy = true → timestamp = true := by
          cases timestamp <;> simp_all
        by_cases hrank : (LevelEvidence.gateLevel ⟨true, timestamp, revocation, archive⟩).rank <
            level.rank
        · rw [if_pos hrank]
          simp [hrank]
        · rw [if_neg hrank, Except.ok.injEq, eq_comm]
          exact ⟨fun h => ⟨hrequired, not_lt.mp hrank, h⟩, fun h => h.2.2⟩
  · split <;> simp [hallowed]

/-! ## The transaction -/

/-- The attempt and the signer fail, and the event says why. -/
def refuseSignature (run : PadesValidateRun) (eventType : EventType) : Tx Unit := do
  let _ ← setAttemptStatus run.payload.signatureAttemptId .failed
  let _ ← (Tables.signers .trustedService).update
    (fun s => s.id == run.signerId && s.status == .signing) fun s => { s with status := .failed }
  audit eventType run.payload.signatureArtifactId
  outbox eventType run.payload.signatureArtifactId

/-- Whether a signable document of the intent has no validated attempt of the signer. -/
def Db.outstanding (db : Db) (signingIntentId signerId : Id) : Bool :=
  (db.signableDocuments signingIntentId).any fun sid => !db.attempts.any fun attempt =>
    attempt.signerId == signerId && attempt.documentVersionId == sid.documentVersionId &&
      attempt.status == .validated

/-- `used_at=coalesce(used_at,now())`. -/
def SignerInvitation.use (now : Time) (i : SignerInvitation) : SignerInvitation :=
  { i with usedAt := some (i.usedAt.getD now) }

/-- The signer is finished: signed, packaged, no invitation left, announced, and the next asked. -/
def completeSigner (now : Time) (run : PadesValidateRun) : Tx Unit := do
  let _ ← (Tables.signers .trustedService).update
    (fun s => s.id == run.signerId && s.status == .signing) fun s => { s with status := .signed }
  let _ ← Tables.intents.update
    (fun si => si.id == run.payload.signingIntentId && si.status == .verified)
    fun si => { si with status := .packaged }
  let _ ← Tables.invitations.update
    (fun i => i.signerId == run.signerId && i.usedAt.isNone) (SignerInvitation.use now)
  enqueue (.signerPackage run.signatureCaseId run.signerId)
  audit .signer_signed run.signerId
  outbox .signer_signed run.signerId
  activateNextSigningGroup now run.signatureCaseId
  let db ← Transaction.read
  if (db.requiredSigners run.signatureCaseId).any fun s => s.status != .signed then pure ()
  else enqueue (.casePackage run.signatureCaseId)

/-- The attempt is admitted; the signer is finished only when no document is outstanding. -/
def admitSignature (now : Time) (run : PadesValidateRun) : Tx Unit := do
  let _ ← setAttemptStatus run.payload.signatureAttemptId .validated
  audit .signature_pades_admitted run.payload.signatureArtifactId
  let db ← Transaction.read
  if db.outstanding run.payload.signingIntentId run.signerId then pure ()
  else completeSigner now run

def PadesValidateRun.admission (run : PadesValidateRun) : Except PadesRejectionCode PadesLevel :=
  padesAdmission run.policy run.requiredLevel run.payload.signatureArtifactId
    run.signedDocumentSha256 run.report

def commitValidation (now : Time) (run : PadesValidateRun) : Tx Unit := do
  (Tables.validationRuns .trustedService).insert
    ⟨run.payload.signatureArtifactId, run.report.indication, none⟩
  if run.report.pass then
    match run.admission with
    | .error _ => refuseSignature run .signature_pades_not_admitted
    | .ok _ => admitSignature now run
  else refuseSignature run .signature_pades_validation_failed

/-! ## What the transaction leaves -/

/-- The validation passed, and the gate admits the signature. -/
def PadesValidateRun.admits (run : PadesValidateRun) : Bool :=
  run.report.pass && run.admission.toOption.isSome

theorem PadesValidateRun.accepts_of_admits {run : PadesValidateRun} (h : run.admits = true) :
    acceptsIndication run.policy run.report.indication = true := by
  rw [admits, Bool.and_eq_true] at h
  obtain ⟨level, hadmission⟩ := Option.isSome_iff_exists.mp h.2
  rw [toOption_eq_some, admission] at hadmission
  cases hlevel : run.requiredLevel with
  | none =>
    rw [hlevel] at hadmission
    cases hadmission
  | some required =>
    rw [hlevel] at hadmission
    exact acceptsIndication_of_allowed (padesAdmission_eq_ok.mp hadmission).1

/-- The state with the run's row of `app.validation_runs`. -/
def Db.withValidationRun (db : Db) (run : PadesValidateRun) : Db :=
  { db with
    validationRuns := db.validationRuns ++
      [⟨run.payload.signatureArtifactId, run.report.indication, none⟩] }

/-- The state in which the run's attempt is validated, with its validation run. -/
def Db.withValidation (db : Db) (run : PadesValidateRun) : Db :=
  { db with
    validationRuns := db.validationRuns ++
      [⟨run.payload.signatureArtifactId, run.report.indication, none⟩]
    attempts := assign (fun a => a.id == run.payload.signatureAttemptId)
      (fun a => { a with status := .validated }) db.attempts
    events := db.events ++
      [⟨.audit, .signature_pades_admitted, run.payload.signatureArtifactId⟩] }

/-- The run's document is the last one of its intent that the signer had to sign. -/
def Db.completes (db : Db) (run : PadesValidateRun) : Bool :=
  run.admits &&
    !(db.withValidation run).outstanding run.payload.signingIntentId run.signerId

/-- The event of a signature that is not admitted. -/
def PadesValidateRun.refusal (run : PadesValidateRun) : EventType :=
  if run.report.pass then .signature_pades_not_admitted else .signature_pades_validation_failed

/-- The statements of `completeSigner` on the signer, the intent and its invitations, announced. -/
def Db.withSigned (db : Db) (now : Time) (run : PadesValidateRun) : Db :=
  { db with
    signers := assign (fun s => s.id == run.signerId && s.status == .signing)
      (fun s => { s with status := .signed }) db.signers
    intents := assign (fun si => si.id == run.payload.signingIntentId && si.status == .verified)
      (fun si => { si with status := .packaged }) db.intents
    invitations := assign (fun i => i.signerId == run.signerId && i.usedAt.isNone)
      (SignerInvitation.use now) db.invitations
    jobs := queueJob db.jobs (.signerPackage run.signatureCaseId run.signerId)
    events := db.events ++ [⟨.audit, .signer_signed, run.signerId⟩] ++
      [⟨.outbox, .signer_signed, run.signerId⟩] }

/-- The statements of `completeSigner` before it thinks of the other signers. -/
def recordSigned (now : Time) (run : PadesValidateRun) : Tx Unit := do
  let _ ← (Tables.signers .trustedService).update
    (fun s => s.id == run.signerId && s.status == .signing) fun s => { s with status := .signed }
  let _ ← Tables.intents.update
    (fun si => si.id == run.payload.signingIntentId && si.status == .verified)
    fun si => { si with status := .packaged }
  let _ ← Tables.invitations.update
    (fun i => i.signerId == run.signerId && i.usedAt.isNone) (SignerInvitation.use now)
  enqueue (.signerPackage run.signatureCaseId run.signerId)
  audit .signer_signed run.signerId
  outbox .signer_signed run.signerId

/-- The package of the case is queued once no required signer is left to sign. -/
def Db.withCaseJob (db : Db) (signatureCaseId : Id) : Db :=
  if (db.requiredSigners signatureCaseId).any fun s => s.status != .signed then db
  else { db with jobs := queueJob db.jobs (.casePackage signatureCaseId) }

section Spec

variable {db db' : Db} {now : Time} {run : PadesValidateRun} {u : Unit}

theorem completeSigner_eq (h : completeSigner now run db = .ok (u, db')) :
    recordSigned now run db = .ok ((), db.withSigned now run) ∧ ∃ db₁,
      activateNextSigningGroup now run.signatureCaseId (db.withSigned now run) = .ok ((), db₁) ∧
        db' = db₁.withCaseJob run.signatureCaseId := by
  simp only [completeSigner, Transaction.bind_eq_ok] at h
  obtain ⟨_, db₁, h₁, _, db₂, h₂, _, db₃, h₃, _, db₄, h₄, _, db₅, h₅, _, db₆, h₆, _, db₇, h₇, h₈⟩ := h
  have hrecord : recordSigned now run db = .ok ((), db₆) := by
    simp only [recordSigned, Transaction.bind_eq_ok]
    exact ⟨_, db₁, h₁, _, db₂, h₂, _, db₃, h₃, _, db₄, h₄, _, db₅, h₅, h₆⟩
  obtain ⟨-, rfl, -⟩ := Table.update_eq_ok.mp h₁
  obtain ⟨-, rfl, -⟩ := Table.update_eq_ok.mp h₂
  obtain ⟨-, rfl, -⟩ := Table.update_eq_ok.mp h₃
  obtain rfl := Transaction.rewrite_eq_ok.mp h₄
  obtain rfl := Transaction.rewrite_eq_ok.mp h₅
  obtain rfl := Transaction.rewrite_eq_ok.mp h₆
  refine ⟨hrecord, db₇, h₇, ?_⟩
  obtain ⟨_, db₈, h₉, h₁₀⟩ := h₈
  obtain ⟨rfl, rfl⟩ := Transaction.read_eq_ok.mp h₉
  rw [Transaction.ite_apply] at h₁₀
  unfold Db.withCaseJob
  split at h₁₀
  · next hpending =>
    rw [if_pos hpending]
    exact (Transaction.pure_eq_ok.mp h₁₀).2
  · next hpending =>
    rw [if_neg hpending]
    exact Transaction.rewrite_eq_ok.mp h₁₀

theorem commitValidation_eq (h : commitValidation now run db = .ok (u, db')) :
    (run.admits = false ∧ refuseSignature run run.refusal (db.withValidationRun run) =
        .ok ((), db')) ∨
      (∃ n db₁, setAttemptStatus run.payload.signatureAttemptId .validated
          (db.withValidationRun run) = .ok (n, db₁)) ∧
        ((run.admits = true ∧ db.completes run = false ∧ db' = db.withValidation run) ∨
          (db.completes run = true ∧
            completeSigner now run (db.withValidation run) = .ok ((), db'))) := by
  obtain ⟨_, db₁, h₁, h₂⟩ := Transaction.bind_eq_ok.mp h
  obtain ⟨-, rfl⟩ := Table.insert_eq_ok.mp h₁
  by_cases hpass : run.report.pass = true
  · rw [if_pos hpass] at h₂
    cases hadmission : run.admission with
    | error code =>
      rw [hadmission] at h₂
      refine Or.inl ⟨by simp [PadesValidateRun.admits, hadmission, Except.toOption], ?_⟩
      rw [PadesValidateRun.refusal, if_pos hpass]
      exact h₂
    | ok level =>
      rw [hadmission] at h₂
      have hadmits : run.admits = true := by
        simp [PadesValidateRun.admits, hpass, hadmission, Except.toOption]
      simp only [admitSignature, Transaction.bind_eq_ok] at h₂
      obtain ⟨n, db₂, h₂, _, db₃, h₃, h₄⟩ := h₂
      refine Or.inr ⟨⟨n, db₂, h₂⟩, ?_⟩
      obtain ⟨-, rfl, -⟩ := Table.update_eq_ok.mp h₂
      obtain rfl := Transaction.rewrite_eq_ok.mp h₃
      obtain ⟨read, db₄, h₅, h₆⟩ := h₄
      obtain ⟨rfl, rfl⟩ := Transaction.read_eq_ok.mp h₅
      change (if (db.withValidation run).outstanding run.payload.signingIntentId run.signerId = true
        then pure () else completeSigner now run) (db.withValidation run) = _ at h₆
      cases hout : (db.withValidation run).outstanding run.payload.signingIntentId run.signerId with
      | true =>
        rw [hout, if_pos rfl] at h₆
        obtain ⟨-, rfl⟩ := Transaction.pure_eq_ok.mp h₆
        exact Or.inl ⟨hadmits, by simp [Db.completes, hout], rfl⟩
      | false =>
        rw [hout, if_neg Bool.false_ne_true] at h₆
        exact Or.inr ⟨by simp [Db.completes, hadmits, hout], h₆⟩
  · rw [if_neg hpass] at h₂
    refine Or.inl ⟨by simp [PadesValidateRun.admits, hpass], ?_⟩
    rw [PadesValidateRun.refusal, if_neg hpass]
    exact h₂

theorem refuseSignature_eq {eventType : EventType}
    (h : refuseSignature run eventType db = .ok (u, db')) :
    db'.intents = db.intents ∧ db'.invitations = db.invitations ∧
      db'.signers = assign (fun s => s.id == run.signerId && s.status == .signing)
        (fun s => { s with status := .failed }) db.signers := by
  simp only [refuseSignature, setAttemptStatus, Transaction.bind_eq_ok] at h
  obtain ⟨_, db₁, h₁, _, db₂, h₂, _, db₃, h₃, h₄⟩ := h
  obtain ⟨-, rfl, -⟩ := Table.update_eq_ok.mp h₁
  obtain ⟨-, rfl, -⟩ := Table.update_eq_ok.mp h₂
  obtain rfl := Transaction.rewrite_eq_ok.mp h₃
  obtain rfl := Transaction.rewrite_eq_ok.mp h₄
  exact ⟨rfl, rfl, rfl⟩

end Spec

/-!
# `handlePadesValidate`, statement by statement

The transaction of the handler as a program at read committed. An update locks the rows that it
changes, and `audit.append_event` locks the head of the tenant's audit chain `for update`.
-/

open ReadCommitted

/-- A tenant has one chain. -/
inductive RowLock where
  | auditChainHead
  | attempt (id : Id)
  | signer (id : Id)
  | intent (id : Id)
  | invitation (id : Id)
  deriving DecidableEq

abbrev TxScript := Script Db RowLock

/-- `audit.append_event`: `select … from audit.audit_chain_heads … for update`, and the event. -/
def appendEventScript (eventType : EventType) (resourceId : Id) : TxScript Unit := do
  Script.lock .auditChainHead
  Script.rewrite fun db => { db with events := db.events ++ [⟨.audit, eventType, resourceId⟩] }

def outboxScript (eventType : EventType) (resourceId : Id) : TxScript Unit :=
  Script.rewrite fun db => { db with events := db.events ++ [⟨.outbox, eventType, resourceId⟩] }

def enqueueScript (job : DurableJob) : TxScript Unit :=
  Script.rewrite fun db => { db with jobs := queueJob db.jobs job }

def setAttemptStatusScript (attemptId : Id) (status : AttemptStatus) : TxScript Nat :=
  Script.update (Tables.attempts .trustedService) (fun a => .attempt a.id)
    (fun a => a.id == attemptId) fun a => { a with status := status }

/-- `update app.signers set status=… where id=… and status=…` -/
def moveSignerScript (signerId : Id) (before after : SignerStatus) : TxScript Nat :=
  Script.update (Tables.signers .trustedService) (fun s => .signer s.id)
    (fun s => s.id == signerId && s.status == before) fun s => { s with status := after }

def refuseSignatureScript (run : PadesValidateRun) (eventType : EventType) : TxScript Unit := do
  let _ ← setAttemptStatusScript run.payload.signatureAttemptId .failed
  let _ ← moveSignerScript run.signerId .signing .failed
  appendEventScript eventType run.payload.signatureArtifactId
  outboxScript eventType run.payload.signatureArtifactId

def inviteSignerScript (now : Time) (signer : Id × Time) : TxScript Unit := do
  let db ← Script.look
  Script.insert Tables.invitations (newInvitation db now signer.1 signer.2)
  let _ ← moveSignerScript signer.1 .pending .invited
  appendEventScript .invitation_created signer.1

def activateNextSigningGroupScript (now : Time) (signatureCaseId : Id) : TxScript Unit := do
  let db ← Script.look
  match db.nextSigningGroup? signatureCaseId with
  | none | some 0 => pure ()
  | some group => Script.forEach (inviteSignerScript now) (db.groupSigners signatureCaseId group)

def completeSignerScript (now : Time) (run : PadesValidateRun) : TxScript Unit := do
  let _ ← moveSignerScript run.signerId .signing .signed
  let _ ← Script.update Tables.intents (fun si => .intent si.id)
    (fun si => si.id == run.payload.signingIntentId && si.status == .verified)
    fun si => { si with status := .packaged }
  let _ ← Script.update Tables.invitations (fun i => .invitation i.id)
    (fun i => i.signerId == run.signerId && i.usedAt.isNone) (SignerInvitation.use now)
  enqueueScript (.signerPackage run.signatureCaseId run.signerId)
  appendEventScript .signer_signed run.signerId
  outboxScript .signer_signed run.signerId
  activateNextSigningGroupScript now run.signatureCaseId
  let db ← Script.look
  if (db.requiredSigners run.signatureCaseId).any fun s => s.status != .signed then pure ()
  else enqueueScript (.casePackage run.signatureCaseId)

/-- From the append on: the checks come after its lock. -/
def recordAdmissionScript (now : Time) (run : PadesValidateRun) : TxScript Unit := do
  appendEventScript .signature_pades_admitted run.payload.signatureArtifactId
  let db ← Script.look
  if db.outstanding run.payload.signingIntentId run.signerId then pure ()
  else completeSignerScript now run

def admitSignatureScript (now : Time) (run : PadesValidateRun) : TxScript Unit := do
  let _ ← setAttemptStatusScript run.payload.signatureAttemptId .validated
  recordAdmissionScript now run

def commitValidationScript (now : Time) (run : PadesValidateRun) : TxScript Unit := do
  Script.insert (Tables.validationRuns .trustedService)
    ⟨run.payload.signatureArtifactId, run.report.indication, none⟩
  if run.report.pass then
    match run.admission with
    | .error _ => refuseSignatureScript run .signature_pades_not_admitted
    | .ok _ => admitSignatureScript now run
  else refuseSignatureScript run .signature_pades_validation_failed

theorem commitValidationScript_apply {now : Time} {run : PadesValidateRun}
    {next : Unit → Program Db RowLock} : commitValidationScript now run next =
      Script.insert (Tables.validationRuns .trustedService)
        ⟨run.payload.signatureArtifactId, run.report.indication, none⟩ fun _ =>
          if run.admits then admitSignatureScript now run next
          else refuseSignatureScript run run.refusal next := by
  have hreport : ∀ pass admission, (if pass = true then
      match (admission : Except PadesRejectionCode PadesLevel) with
      | .error _ => refuseSignatureScript run .signature_pades_not_admitted
      | .ok _ => admitSignatureScript now run
    else refuseSignatureScript run .signature_pades_validation_failed) next =
      if pass && admission.toOption.isSome then admitSignatureScript now run next
      else refuseSignatureScript run (if pass then .signature_pades_not_admitted
        else .signature_pades_validation_failed) next := by
    intro pass admission
    cases pass <;> cases admission <;> rfl
  rw [PadesValidateRun.admits, PadesValidateRun.refusal, ← hreport]
  rfl

theorem refuseSignatureScript_apply {run : PadesValidateRun} {eventType : EventType}
    {next : Unit → Program Db RowLock} : refuseSignatureScript run eventType next =
      setAttemptStatusScript run.payload.signatureAttemptId .failed fun _ =>
        moveSignerScript run.signerId .signing .failed fun _ =>
          Script.lock .auditChainHead fun _ =>
            Script.rewrite (fun db => { db with
              events := db.events ++ [⟨.audit, eventType, run.payload.signatureArtifactId⟩] })
              fun _ => outboxScript eventType run.payload.signatureArtifactId next :=
  rfl

theorem admitSignatureScript_apply {now : Time} {run : PadesValidateRun}
    {next : Unit → Program Db RowLock} : admitSignatureScript now run next =
      setAttemptStatusScript run.payload.signatureAttemptId .validated fun _ =>
        Script.lock .auditChainHead fun _ =>
          Script.rewrite (fun db => { db with
            events := db.events ++
              [⟨.audit, .signature_pades_admitted, run.payload.signatureArtifactId⟩] })
            fun _ => Script.look fun db =>
              (if db.outstanding run.payload.signingIntentId run.signerId then pure ()
                else completeSignerScript now run : TxScript Unit) next :=
  rfl

/-! ## Alone -/

section Alone

variable {now : Time} {run : PadesValidateRun}

theorem appendEventScript_does {eventType : EventType} {resourceId : Id} :
    Script.Does (appendEventScript eventType resourceId) (audit eventType resourceId) :=
  Script.Does.lock_bind (Script.Does.rewrite _)

theorem outboxScript_does {eventType : EventType} {resourceId : Id} :
    Script.Does (outboxScript eventType resourceId) (outbox eventType resourceId) :=
  Script.Does.rewrite _

theorem enqueueScript_does {job : DurableJob} : Script.Does (enqueueScript job) (enqueue job) :=
  Script.Does.rewrite _

theorem moveSignerScript_does {signerId : Id} {before after : SignerStatus} :
    Script.Does (moveSignerScript signerId before after)
      ((Tables.signers .trustedService).update (fun s => s.id == signerId && s.status == before)
        fun s => { s with status := after }) :=
  Script.Does.update _ _ _ _

theorem inviteSignerScript_does {signer : Id × Time} :
    Script.Does (inviteSignerScript now signer) (inviteSigner now signer) := by
  refine Script.Does.bind Script.Does.look fun db => ?_
  refine Script.Does.bind (Script.Does.insert _ _) fun _ => ?_
  exact Script.Does.bind moveSignerScript_does fun _ => appendEventScript_does

theorem activateNextSigningGroupScript_does {signatureCaseId : Id} :
    Script.Does (activateNextSigningGroupScript now signatureCaseId)
      (activateNextSigningGroup now signatureCaseId) := by
  refine Script.Does.bind Script.Does.look fun db => ?_
  rcases db.nextSigningGroup? signatureCaseId with _ | _ | group
  · exact Script.Does.pure ()
  · exact Script.Does.pure ()
  · exact Script.Does.forEach (fun _ => inviteSignerScript_does) _

theorem completeSignerScript_does :
    Script.Does (completeSignerScript now run) (completeSigner now run) := by
  refine Script.Does.bind moveSignerScript_does fun _ => ?_
  refine Script.Does.bind (Script.Does.update _ _ _ _) fun _ => ?_
  refine Script.Does.bind (Script.Does.update _ _ _ _) fun _ => ?_
  refine Script.Does.bind enqueueScript_does fun _ => ?_
  refine Script.Does.bind appendEventScript_does fun _ => ?_
  refine Script.Does.bind outboxScript_does fun _ => ?_
  refine Script.Does.bind activateNextSigningGroupScript_does fun _ => ?_
  refine Script.Does.bind Script.Does.look fun db => ?_
  exact Script.Does.ite (Script.Does.pure ()) enqueueScript_does

/-- `admitSignature` from its append on. -/
def recordAdmission (now : Time) (run : PadesValidateRun) : Tx Unit := do
  audit .signature_pades_admitted run.payload.signatureArtifactId
  let db ← Transaction.read
  if db.outstanding run.payload.signingIntentId run.signerId then pure ()
  else completeSigner now run

theorem recordAdmissionScript_does :
    Script.Does (recordAdmissionScript now run) (recordAdmission now run) := by
  refine Script.Does.bind appendEventScript_does fun _ => ?_
  refine Script.Does.bind Script.Does.look fun db => ?_
  exact Script.Does.ite (Script.Does.pure ()) completeSignerScript_does

end Alone

end Kommunsign
