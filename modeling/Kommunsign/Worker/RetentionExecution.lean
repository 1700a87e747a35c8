import Kommunsign.Data.Guards
import Kommunsign.Infra.Process
import Kommunsign.Retention.Executor

/-!
# Queueing, approving and executing a gallring

The repository queues and approves a run, and the job RETENTION_EXECUTE carries it out: it moves
the run to `EXECUTING`, erases its cases one after the other, stores the report and closes the run.

* `queueGallring`, `approveGallringJob` — the repository
* `eraseCase`, `mergeOutcomes` — what happens to the cases
-/

namespace Kommunsign

open Infra

/-! ## The tables and the object storage -/

structure RetentionPolicyRow where
  policyKey : String
  version : Int
  policy : RetentionPolicy
  active : Bool
  deriving DecidableEq

structure RetentionCase where
  id : UUID
  status : String
  completedAt : Option Int
  deriving DecidableEq

structure ArchiveExport where
  signatureCaseId : UUID
  completed : Bool
  deriving DecidableEq

structure QueuedDecision where
  action : RetentionAction
  reason : String
  evaluatedAt : Int
  deriving DecidableEq

structure GallringJobRow where
  id : UUID
  state : GallringState
  policyKey : String
  policyVersion : Int
  retentionClass : RetentionClass
  caseIds : List UUID
  queuedDecision : QueuedDecision
  plannedTargets : List GallringTarget
  requestedBy : UUID
  requestedAt : Int
  approvedBy : Option UUID
  approvedAt : Option Int
  abandonedReason : Option String
  deriving DecidableEq

structure StoredReport where
  gallringJobId : UUID
  report : GallringReport
  objectKey : StoredKey
  deriving DecidableEq

structure RetainedDocument where
  id : UUID
  signatureCaseId : UUID
  deriving DecidableEq

structure RetainedVersion where
  id : UUID
  documentId : UUID
  status : DocumentStatus
  sourceObjectKey : StoredKey
  canonicalObjectKey : Option StoredKey
  deriving DecidableEq

structure RetainedPackage where
  id : UUID
  signatureCaseId : UUID
  objectKey : StoredKey
  deriving DecidableEq

structure RetainedPackageFile where
  evidencePackageId : UUID
  objectKey : StoredKey
  deriving DecidableEq

structure RetainedProcessorReport where
  documentVersionId : UUID
  objectKey : StoredKey
  deriving DecidableEq

structure RetainedMessage where
  signatureCaseId : Option UUID
  messagePayloadCiphertext : Option String
  recipientCiphertext : Option String
  deriving DecidableEq

/-- What there is of a tenant, as far as a gallring reads or changes it. -/
structure RetentionData where
  tenantId : UUID
  clock : Int
  policies : List RetentionPolicyRow
  cases : List RetentionCase
  legalHolds : List LegalHold
  archiveExports : List ArchiveExport
  jobs : List GallringJobRow
  reports : List StoredReport
  /-- The runs for which RETENTION_EXECUTE has been queued. -/
  executions : List UUID
  documents : List RetainedDocument
  versions : List RetainedVersion
  packages : List RetainedPackage
  packageFiles : List RetainedPackageFile
  processorReports : List RetainedProcessorReport
  /-- The versions that rows of further tables refer to. -/
  versionReferences : List UUID
  messages : List RetainedMessage
  objects : List StoredKey
  deriving DecidableEq

/-- The transactions of the job and its calls to object storage. -/
inductive RetentionStage where
  | load | begin | abandon
  | keys (caseId : UUID) | deleteObject (key : StoredKey) | rows (caseId : UUID)
  | putReport | report
  deriving DecidableEq

/-- A transaction or a call that fails throws; a worker that crashes there goes no further. -/
inductive StageOutcome where
  | passes | fails | crashes
  deriving DecidableEq

inductive RetentionFault where
  | retention (e : RetentionError)
  | permanent (code : String)
  | database (failure : Failure)
  | unavailable (stage : RetentionStage)
  | crashed (stage : RetentionStage)
  deriving DecidableEq

/-- What the job runs in: how its transactions and calls end, and what its storage can do. -/
structure RetentionEnvironment where
  outcome : RetentionStage → StageOutcome
  putsObjects : Bool
  deletesObjects : Bool

abbrev RetentionTx := Transaction RetentionData RetentionFault
abbrev RetentionProcess := Process RetentionData RetentionFault

/-- A transaction of the job. -/
def RetentionEnvironment.transaction {α : Type} (env : RetentionEnvironment)
    (stage : RetentionStage) (tx : RetentionTx α) : RetentionProcess α :=
  match env.outcome stage with
  | .passes => Process.commit tx
  | .fails => Process.raise (.unavailable stage)
  | .crashes => Process.raise (.crashed stage)

/-- A call of the job to object storage. -/
def RetentionEnvironment.call (env : RetentionEnvironment) (stage : RetentionStage)
    (effect : RetentionData → RetentionData) : RetentionProcess Unit :=
  match env.outcome stage with
  | .passes => Process.perform effect
  | .fails => Process.raise (.unavailable stage)
  | .crashes => Process.raise (.crashed stage)

/-! ## The guards -/

/-- A guard as a failure of the job. -/
def retentionGuard (checks : Checks) : Except RetentionFault Unit :=
  match refuse checks with
  | .error failure => .error (.database failure)
  | .ok () => .ok ()

def GallringState.allowed : GallringState → List GallringState
  | .QUEUED => [.PLANNED, .ABANDONED]
  | .PLANNED => [.APPROVED, .ABANDONED]
  | .APPROVED => [.EXECUTING, .ABANDONED]
  | .EXECUTING => [.VERIFIED, .ABANDONED]
  | .VERIFIED => [.REPORTED, .ABANDONED]
  | .REPORTED | .ABANDONED => []

def RetentionData.held (data : RetentionData) (caseId : UUID) : Bool :=
  data.legalHolds.any fun hold => hold.releasedAt.isNone && hold.signatureCaseId == caseId

/-- What the guard raises when a case of the run is held; no other message has `legal hold`. -/
def legalHoldMessage : String :=
  "gallring cannot execute while a case in the run is under legal hold"

/-- `app.assert_gallring_transition`. -/
def assertGallringTransition (data : RetentionData) (old new : GallringJobRow) : Checks :=
  raises (new.state != old.state && new.state ∉ old.state.allowed)
    ("invalid gallring state transition: " ++ old.state.text ++ " -> " ++ new.state.text) ++
  raises (new.state != old.state && new.state == .APPROVED && new.approvedBy.isNone)
    "an approved gallring must record who approved it" ++
  raises (new.state != old.state && new.state == .EXECUTING && new.caseIds.any data.held)
    legalHoldMessage ++
  raises (new.state != old.state && new.state == .EXECUTING && new.plannedTargets.isEmpty)
    "gallring cannot execute without a declared target plan" ++
  raises (new.state != old.state && new.state == .REPORTED &&
    !data.reports.any (·.gallringJobId == new.id))
    "a reported gallring must have a stored report"

/-- The states in which no other run may start with the same case. -/
def GallringState.isActive : GallringState → Bool
  | .QUEUED | .PLANNED | .APPROVED | .EXECUTING => true
  | .VERIFIED | .REPORTED | .ABANDONED => false

def gallringJobs : Table RetentionData RetentionFault GallringJobRow where
  rows := RetentionData.jobs
  put rows data := { data with jobs := rows }
  onInsert data new := retentionGuard (
    violates (data.jobs.any fun job => job.id == new.id) "gallring_jobs_pkey" ++
    violates new.caseIds.isEmpty "gallring_jobs_case_ids_check" ++
    violates (new.state.isActive && data.jobs.any fun job =>
      job.state.isActive && job.caseIds.head? == new.caseIds.head?) "gallring_jobs_active_case_idx")
  onUpdate data old new := retentionGuard (
    assertGallringTransition data old new ++
    violates (new.approvedBy == some new.requestedBy) "gallring_jobs_distinct_approver" ++
    violates (new.approvedBy.isSome != new.approvedAt.isSome) "gallring_jobs_approval_complete")
  onDelete _ _ := .ok ()

def retainedMessages : Table RetentionData RetentionFault RetainedMessage where
  rows := RetentionData.messages
  put rows data := { data with messages := rows }
  onInsert _ _ := .ok ()
  onUpdate _ _ new := retentionGuard (
    violates new.recipientCiphertext.isNone "recipient_ciphertext" ++
    violates new.messagePayloadCiphertext.isNone "message_payload_ciphertext")
  onDelete _ _ := .ok ()

def retainedVersions : Table RetentionData RetentionFault RetainedVersion where
  rows := RetentionData.versions
  put rows data := { data with versions := rows }
  onInsert _ _ := .ok ()
  onUpdate _ _ _ := .ok ()
  onDelete data old := retentionGuard (
    raises old.status.isFrozen "locked document versions are immutable" ++
    violates (data.versionReferences.any (· == old.id) ||
      data.processorReports.any (·.documentVersionId == old.id)) "document_version_id_fkey")

def retainedDocuments : Table RetentionData RetentionFault RetainedDocument where
  rows := RetentionData.documents
  put rows data := { data with documents := rows }
  onInsert _ _ := .ok ()
  onUpdate _ _ _ := .ok ()
  onDelete data old := retentionGuard (
    violates (data.versions.any (·.documentId == old.id)) "document_versions_document_id_fkey")

def gallringReports : Table RetentionData RetentionFault StoredReport where
  rows := RetentionData.reports
  put rows data := { data with reports := rows }
  onInsert _ new := retentionGuard (
    violates (new.report.caseCount == 0) "gallring_reports_case_count_check" ++
    violates (new.report.deletedTotal < 0) "gallring_reports_deleted_total_check" ++
    violates (2147483647 < new.report.deletedTotal) "integer out of range" ++
    violates (new.report.complete != new.report.unverifiedTargets.isEmpty)
      "gallring_reports_complete_consistent")
  onUpdate _ _ _ := .error (.database (.raised "evidence records are append-only"))
  onDelete _ _ := .error (.database (.raised "evidence records are append-only"))

/-! ## The repository -/

/-- The active version of the policy. -/
def RetentionData.loadPolicy (data : RetentionData) (policyKey : String) :
    Option RetentionPolicy :=
  (minBy (fun row => -row.version)
      (data.policies.filter fun row => row.policyKey == policyKey && row.active)).map
    fun row => { row.policy with version := row.version }

def RetentionData.subject (data : RetentionData) (found : RetentionCase) : RetentionSubject where
  tenantId := data.tenantId
  caseId := found.id
  status := found.status
  closedAt := found.completedAt.map fun completedAt => ⟨some completedAt⟩
  legalHoldActive := data.held found.id

def targetUnknown (message : String) : RetentionFault :=
  .retention (.policyError "GALLRING_TARGET_UNKNOWN" message)

/-- The loop over the cases of a new run. -/
def requireDue (policy : RetentionPolicy) (caseId : UUID) : RetentionTx Unit := do
  let data ← Transaction.read
  match data.cases.find? (·.id == caseId) with
  | none => Transaction.fail (targetUnknown
      ("Case " ++ caseId ++ " is not closed and cannot be gallrat"))
  | some found =>
    if found.completedAt.isNone then
      Transaction.fail (targetUnknown
        ("Case " ++ caseId ++ " is not closed and cannot be gallrat"))
    else
      match decideRetention policy (data.subject found) data.clock with
      | .error e => Transaction.fail (.retention e)
      | .ok decision =>
        if decision.action = .RETAIN then
          Transaction.fail (targetUnknown
            ("Case " ++ caseId ++ " must be retained: " ++ decision.reason.text))
        else
          pure ()

/-- `queue`. -/
def queueGallring (subjectId : UUID) (policyKey : String) (caseIds : List UUID)
    (gallringJobId : UUID) : RetentionTx Unit := do
  let data ← Transaction.read
  if caseIds.length = 0 then
    Transaction.fail (.retention
      (.policyError "GALLRING_REPORT_EMPTY" "A gallring must cover at least one case"))
  else
    let policy ← Transaction.demand (targetUnknown ("No active retention policy " ++ policyKey))
      (data.loadPolicy policyKey)
    Transaction.forEach (requireDue policy) caseIds
    gallringJobs.insert
      { id := gallringJobId
        state := .PLANNED
        policyKey := policyKey
        policyVersion := policy.version
        retentionClass := policy.retentionClass
        caseIds := caseIds
        queuedDecision := ⟨.DELETE, "RETENTION_PERIOD_ELAPSED", data.clock⟩
        plannedTargets := MANDATORY_CASE_TARGETS
        requestedBy := subjectId
        requestedAt := data.clock
        approvedBy := none
        approvedAt := none
        abandonedReason := none }

/-- `approve`. -/
def approveGallringJob (subjectId gallringJobId : UUID) : RetentionTx Unit := do
  let data ← Transaction.read
  let job ← Transaction.demand (targetUnknown "GALLRING_JOB_NOT_FOUND")
    (data.jobs.find? (·.id == gallringJobId))
  if job.state ≠ .PLANNED then
    Transaction.fail (targetUnknown ("Gallring is " ++ job.state.text ++ " and cannot be approved"))
  else if job.requestedBy = subjectId then
    Transaction.fail (.retention (.policyError "GALLRING_APPROVER_INVALID"
      "Gallring must be approved by someone other than the person who requested it"))
  else
    let _ ← gallringJobs.update (·.id == gallringJobId) fun job => { job with
      state := .APPROVED, approvedBy := some subjectId, approvedAt := some data.clock }
    Transaction.rewrite fun data =>
      { data with executions := data.executions.insert gallringJobId }

/-! ## Erasing a case -/

/-- The documents of the case, by their ids. -/
def RetentionData.documentIds (data : RetentionData) (caseId : UUID) : List UUID :=
  (data.documents.filter (·.signatureCaseId == caseId)).map (·.id)

/-- The versions of the documents of the case. -/
def RetentionData.versionsOf (data : RetentionData) (caseId : UUID) : List RetainedVersion :=
  data.versions.filter fun version => version.documentId ∈ data.documentIds caseId

def RetentionData.packagesOf (data : RetentionData) (caseId : UUID) : List RetainedPackage :=
  data.packages.filter (·.signatureCaseId == caseId)

/-- The object keys of a case: a `union all` of five queries. -/
def RetentionData.caseObjectKeys (data : RetentionData) (caseId : UUID) : List StoredKey :=
  (data.versionsOf caseId).map (·.sourceObjectKey) ++
  (data.versionsOf caseId).filterMap (·.canonicalObjectKey) ++
  (data.packagesOf caseId).map (·.objectKey) ++
  (data.packageFiles.filter fun file =>
    file.evidencePackageId ∈ (data.packagesOf caseId).map (·.id)).map (·.objectKey) ++
  (data.processorReports.filter fun report =>
    report.documentVersionId ∈ (data.versionsOf caseId).map (·.id)).map (·.objectKey)

structure StorageCounts where
  deleted : Nat
  failed : Nat
  deriving DecidableEq

section Erase

variable (env : RetentionEnvironment)

def deleteAndCount (key : StoredKey) (counts : StorageCounts) :
    RetentionProcess StorageCounts := do
  env.call (.deleteObject key) fun data =>
    { data with objects := data.objects.filter (· ≠ key) }
  return { counts with deleted := counts.deleted + 1 }

/-- One object; a call that throws is counted, and nothing else comes of it. -/
def deleteObjectOf (key : StoredKey) (counts : StorageCounts) : RetentionProcess StorageCounts :=
  Process.recover (deleteAndCount env key counts) fun
    | .unavailable _ => some (pure { counts with failed := counts.failed + 1 })
    | _ => none

/-- The loop over the objects. -/
def deleteObjects (counts : StorageCounts) : List StoredKey → RetentionProcess StorageCounts
  | [] => pure counts
  | key :: keys => do
    let counts ← deleteObjectOf env key counts
    deleteObjects counts keys

structure RowCounts where
  notifications : Nat
  versions : Nat
  documents : Nat
  deriving DecidableEq

/-- The transaction that erases the rows of a case. -/
def eraseRows (caseId : UUID) : RetentionTx RowCounts := do
  let notifications ← retainedMessages.update
    (fun message => message.signatureCaseId == some caseId &&
      message.messagePayloadCiphertext.isSome)
    fun message => { message with messagePayloadCiphertext := none, recipientCiphertext := none }
  let data ← Transaction.read
  retainedVersions.delete fun version => version.documentId ∈ data.documentIds caseId
  retainedDocuments.delete fun document => document.signatureCaseId == caseId
  return ⟨notifications, (data.versionsOf caseId).length, (data.documentIds caseId).length⟩

/-- The outcomes of one case, one for each mandatory target. -/
def caseOutcomes (storage : StorageCounts) (rows : RowCounts) : List GallringTargetOutcome :=
  [⟨.object_storage, storage.deleted, storage.failed == 0,
      if 0 < storage.failed then
        some (toString storage.failed ++ " objects could not be deleted") else none⟩,
    ⟨.documents, rows.documents, true, none⟩,
    ⟨.document_versions, rows.versions, true, none⟩,
    ⟨.notifications, rows.notifications, true, none⟩,
    ⟨.evidence_packages, 0, true, some ("payloads destroyed in object storage; append-only hash " ++
      "records retained as cryptographic erasure")⟩,
    ⟨.derived_renders, 0, true, some ("processor reports and package files destroyed in object " ++
      "storage; hash records retained")⟩,
    ⟨.search_index, 0, true, some "no search index stores case content in this deployment"⟩,
    ⟨.cache, 0, true, some "no shared cache stores case content in this deployment"⟩,
    ⟨.signature_case, 0, true, some ("case shell retained for the audit chain; all personal data " ++
      "and documents destroyed")⟩]

def eraseCase (caseId : UUID) : RetentionProcess (List GallringTargetOutcome) := do
  let objectKeys ← env.transaction (.keys caseId) do
    let data ← Transaction.read
    return data.caseObjectKeys caseId
  let storage ← deleteObjects env ⟨0, 0⟩ objectKeys
  let rows ← env.transaction (.rows caseId) (eraseRows caseId)
  return caseOutcomes storage rows

/-- The loop over the cases. -/
def eraseCases (outcomes : List GallringTargetOutcome) :
    List UUID → RetentionProcess (List GallringTargetOutcome)
  | [] => pure outcomes
  | caseId :: caseIds => do
    let more ← eraseCase env caseId
    eraseCases (outcomes ++ more) caseIds

end Erase

/-! ## Merging the outcomes -/

/-- `??` of two notes. -/
def mergeOutcome (existing outcome : GallringTargetOutcome) : GallringTargetOutcome where
  target := existing.target
  deletedCount := existing.deletedCount + outcome.deletedCount
  verified := existing.verified && outcome.verified
  note := existing.note <|> outcome.note

/-- Adds an outcome to the map, which keeps its targets in the order they came in. -/
def addOutcome (merged : List GallringTargetOutcome) (outcome : GallringTargetOutcome) :
    List GallringTargetOutcome :=
  if merged.any (·.target == outcome.target) then
    assign (·.target == outcome.target) (mergeOutcome · outcome) merged
  else
    merged ++ [outcome]

def mergeOutcomes (outcomes : List GallringTargetOutcome) : List GallringTargetOutcome :=
  (outcomes.foldl addOutcome []).insertionSort fun a b => a.target.text ≤ b.target.text

/-! ## The job -/

section Job

variable (env : RetentionEnvironment)

def abandonJob (gallringJobId : UUID) (reason : String) : RetentionTx Unit := do
  let _ ← gallringJobs.update (·.id == gallringJobId) fun job => { job with
    state := .ABANDONED, abandonedReason := some reason }
  pure ()

def startExecution (gallringJobId : UUID) : RetentionTx Unit := do
  let _ ← gallringJobs.update (·.id == gallringJobId) fun job => { job with state := .EXECUTING }
  pure ()

/-- The move to `EXECUTING`; a hold in its way abandons the run. -/
def moveToExecuting (gallringJobId : UUID) : RetentionProcess Unit :=
  Process.recover (env.transaction .begin (startExecution gallringJobId))
    fun fault =>
      if fault = .database (.raised legalHoldMessage) then
        some do
          env.transaction .abandon (abandonJob gallringJobId "LEGAL_HOLD_ACTIVE")
          Process.raise (.permanent "GALLRING_BLOCKED_BY_LEGAL_HOLD")
      else
        none

/-- `on conflict do nothing`. -/
def insertReport (report : StoredReport) : RetentionTx Unit := do
  let data ← Transaction.read
  if data.reports.any (·.gallringJobId == report.gallringJobId) then
    pure ()
  else
    gallringReports.insert report

/-- The last transaction of a run. -/
def recordReport (report : StoredReport) : RetentionTx Unit := do
  let _ ← gallringJobs.update (·.id == report.gallringJobId) fun job =>
    { job with state := .VERIFIED }
  insertReport report
  let _ ← gallringJobs.update (·.id == report.gallringJobId) fun job =>
    { job with state := .REPORTED }
  pure ()

/-- What the report is built from. -/
def GallringJobRow.reportInput (job : GallringJobRow) (data : RetentionData)
    (outcomes : List GallringTargetOutcome) : GallringReportInput where
  tenantId := data.tenantId
  jobId := job.id
  policyKey := job.policyKey
  policyVersion := job.policyVersion
  retentionClass := job.retentionClass
  executedBy := job.approvedBy.getD job.requestedBy
  executedAt := ⟨some data.clock⟩
  caseIds := job.caseIds
  outcomes := outcomes

def RetentionData.reportKey (data : RetentionData) (gallringJobId : UUID) : StoredKey :=
  data.tenantId ++ "/gallring/" ++ gallringJobId ++ "/gallringsrapport.json"

/-- The report of the run, stored and recorded. -/
def reportGallring (gallring : GallringJobRow) (outcomes : List GallringTargetOutcome) :
    RetentionProcess Unit := do
  let data ← Process.state
  let report ← Process.ofExcept ((buildGallringReport (gallring.reportInput data outcomes)).mapError
    .retention)
  env.call .putReport fun data =>
    { data with objects := data.objects.insert (data.reportKey gallring.id) }
  env.transaction .report (recordReport ⟨gallring.id, report, data.reportKey gallring.id⟩)

/-- The run once it is `EXECUTING`. -/
def executeGallring (gallring : GallringJobRow) : RetentionProcess Unit := do
  moveToExecuting env gallring.id
  let outcomes ← eraseCases env [] gallring.caseIds
  reportGallring env gallring (mergeOutcomes outcomes)

def handleRetentionExecute (gallringJobId : UUID) : RetentionProcess Unit :=
  if ¬env.putsObjects then
    Process.raise (.permanent "STORAGE_IMMUTABLE_PUT_NOT_CONFIGURED")
  else if ¬env.deletesObjects then
    Process.raise (.permanent "STORAGE_DELETE_NOT_CONFIGURED")
  else do
    let loaded ← env.transaction .load do
      let data ← Transaction.read
      return data.jobs.find? (·.id == gallringJobId)
    match loaded with
    | none => Process.raise (.permanent "GALLRING_JOB_NOT_FOUND")
    | some gallring =>
      if gallring.state = .REPORTED ∨ gallring.state = .ABANDONED then
        pure ()
      else if gallring.state ≠ .APPROVED then
        Process.raise (.permanent "GALLRING_STATE_INVALID")
      else
        executeGallring env gallring

end Job

/-! ## The runs of a tenant -/

inductive RetentionStep where
  /-- Time passes, and everything but the runs changes in any way. -/
  | surroundings (next : RetentionData)
  | queue (subjectId : UUID) (policyKey : String) (caseIds : List UUID) (gallringJobId : UUID)
  | approve (subjectId gallringJobId : UUID)
  | execute (env : RetentionEnvironment) (gallringJobId : UUID)

/-- Only an approval queues the job; after that it may run at any time, and any number of times. -/
def retentionStep (data : RetentionData) : RetentionStep → Option RetentionData
  | .surroundings next => some { next with
      tenantId := data.tenantId, jobs := data.jobs, reports := data.reports
      executions := data.executions }
  | .queue subjectId policyKey caseIds gallringJobId =>
    (queueGallring subjectId policyKey caseIds gallringJobId).outcome data
  | .approve subjectId gallringJobId => (approveGallringJob subjectId gallringJobId).outcome data
  | .execute env gallringJobId =>
    if gallringJobId ∈ data.executions then
      some (handleRetentionExecute env gallringJobId data).2
    else
      none

end Kommunsign
