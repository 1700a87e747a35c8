import Kommunsign.Data.Guards

/-!
# The tables with their triggers

Each table puts together the constraints and triggers that a row of it has to pass, in the order
in which PostgreSQL checks them where that matters for the outcome. A primary key is never
assigned by any statement, so an update never looks at it.

The guards of a table never read the table itself, apart from the uniqueness constraints and the
revision chain of `signature_artifacts`, which only ever gets one row at a time.
-/

namespace Kommunsign

open Infra

/-- A transaction on the data plane. -/
abbrev Tx := Transaction Db Failure

/-- Rows that are never changed or removed. -/
def appendOnly (message : String) : Except Failure Unit := .error (.raised message)

namespace Tables

variable (actor : ActorKind)

def cases : Table Db Failure SignatureCase where
  rows := Db.cases
  put rows db := { db with cases := rows }
  onInsert db new := refuse (
    violates (db.cases.any fun c => c.id == new.id) "signature_cases_pkey" ++
    preventUnverifiedTerminalStatus actor
      (new.status == .completed || new.status == .archived) ++
    raises (new.status == .completed)
      "case cannot be created already completed; completion requires the evidence chain")
  onUpdate db old new := refuse (
    preventUnverifiedTerminalStatus actor (old.status != new.status &&
      (new.status == .completed || new.status == .archived)) ++
    assertTransition CaseStatus.allowed old.status new.status
      "invalid signature_cases status transition" ++
    assertCaseCompletionEvidence db old new ++
    enforceCasePackageCompletion db old new ++
    protectCasePolicySnapshot old new)
  onDelete db old := refuse (
    violates (db.signers.any fun s => s.signatureCaseId == old.id) "signers_signature_case_id_fkey" ++
    violates (db.documents.any fun d => d.signatureCaseId == old.id)
      "documents_signature_case_id_fkey" ++
    violates (db.intents.any fun i => i.signatureCaseId == old.id)
      "signing_intents_signature_case_id_fkey")

def documents : Table Db Failure Document where
  rows := Db.documents
  put rows db := { db with documents := rows }
  onInsert db new := refuse (
    violates (db.documents.any fun d => d.id == new.id) "documents_pkey" ++
    violates (db.case? new.signatureCaseId).isNone "documents_signature_case_id_fkey")
  onUpdate db _ new := refuse (
    violates (db.case? new.signatureCaseId).isNone "documents_signature_case_id_fkey")
  onDelete db old := refuse (
    violates (db.versions.any fun v => v.documentId == old.id) "document_versions_document_id_fkey")

def versions : Table Db Failure DocumentVersion where
  rows := Db.versions
  put rows db := { db with versions := rows }
  onInsert db new := refuse (
    violates (db.versions.any fun v => v.id == new.id) "document_versions_pkey" ++
    violates (db.document? new.documentId).isNone "document_versions_document_id_fkey" ++
    preventUnverifiedTerminalStatus actor
      (new.status == .signed || new.status == .validated || new.status == .archived) ++
    raises (new.status == .signed || new.status == .validated || new.status == .archived)
      "row cannot be created in a terminal status")
  onUpdate db old new := refuse (
    violates (db.document? new.documentId).isNone "document_versions_document_id_fkey" ++
    preventUnverifiedTerminalStatus actor (old.status != new.status &&
      (new.status == .signed || new.status == .validated || new.status == .archived)) ++
    assertTransition DocumentStatus.allowed old.status new.status
      "invalid document_versions status transition" ++
    protectDocumentVersionBinding old new)
  onDelete db old := refuse (
    raises old.status.isFrozen "locked document versions are immutable" ++
    violates (db.intentDocuments.any fun d => d.documentVersionId == old.id)
      "signing_intent_documents_document_version_id_fkey" ++
    violates (db.identityTransactions.any fun t => t.documentVersionId == old.id)
      "identity_transactions_document_version_id_fkey" ++
    violates (db.attempts.any fun a => a.documentVersionId == old.id)
      "signature_attempts_document_version_id_fkey")

/-- The check `signers_identifier_binding_consistent` on the modelled columns. -/
def bindingConsistent (s : Signer) : Bool :=
  match s.identifierBindingMode with
  | none => true
  | some .STRICT_PREBOUND =>
    s.expectedIdentifier.isSome && s.identifierBindingExceptionCode.isNone
  | some .BANKID_DISCOVERED =>
    s.expectedIdentifier.isNone && s.identifierBindingExceptionCode.isSome

/-- The checks of a signer row by itself. -/
def signerConstraints (db : Db) (new : Signer) : Checks :=
  violates (db.case? new.signatureCaseId).isNone "signers_signature_case_id_fkey" ++
  violates (new.signingOrder == 0) "signers_signing_order_positive" ++
  violates (!bindingConsistent new) "signers_identifier_binding_consistent"

def signers : Table Db Failure Signer where
  rows := Db.signers
  put rows db := { db with signers := rows }
  onInsert db new := refuse (
    violates (db.signers.any fun s => s.id == new.id) "signers_pkey" ++
    signerConstraints db new ++
    preventUnverifiedTerminalStatus actor (new.status == .signed) ++
    raises (new.status == .signed) "row cannot be created in a terminal status")
  onUpdate db old new := refuse (
    signerConstraints db new ++
    preventUnverifiedTerminalStatus actor (old.status != new.status && new.status == .signed) ++
    assertTransition SignerStatus.allowed old.status new.status
      "invalid signers status transition" ++
    enforceBankIdTerminalEvidence db old new ++
    protectSignerBinding old new ++
    assertSignerSignatureEvidence db old new)
  onDelete db old := refuse (
    violates (db.invitations.any fun i => i.signerId == old.id)
      "signer_invitations_signer_id_fkey" ++
    violates (db.intents.any fun i => i.signerId == old.id) "signing_intents_signer_id_fkey" ++
    violates (db.identityTransactions.any fun t => t.signerId == old.id)
      "identity_transactions_signer_id_fkey" ++
    violates (db.attempts.any fun a => a.signerId == old.id) "signature_attempts_signer_id_fkey")

def invitations : Table Db Failure SignerInvitation where
  rows := Db.invitations
  put rows db := { db with invitations := rows }
  onInsert db new := refuse (
    violates (db.invitations.any fun i => i.id == new.id) "signer_invitations_pkey" ++
    violates (db.signer? new.signerId).isNone "signer_invitations_signer_id_fkey" ++
    invitationTimeOrder new)
  onUpdate db old new := refuse (
    protectConsumedInvitation old new ++
    violates (db.signer? new.signerId).isNone "signer_invitations_signer_id_fkey" ++
    invitationTimeOrder new)
  onDelete _ _ := .ok ()

/-- The partial unique index `signing_intents_one_active_per_signer_case`. -/
def oneActiveIntent (db : Db) (new : SigningIntent) : Checks :=
  violates (new.status.isActive && db.intents.any fun i =>
      i.id != new.id && i.status.isActive && i.signatureCaseId == new.signatureCaseId &&
        i.signerId == new.signerId)
    "signing_intents_one_active_per_signer_case"

def intents : Table Db Failure SigningIntent where
  rows := Db.intents
  put rows db := { db with intents := rows }
  onInsert db new := refuse (
    violates (db.intents.any fun i => i.id == new.id) "signing_intents_pkey" ++
    violates (db.case? new.signatureCaseId).isNone "signing_intents_signature_case_id_fkey" ++
    violates (db.signer? new.signerId).isNone "signing_intents_signer_id_fkey" ++
    violates (new.expiresAt ≤ new.issuedAt) "signing_intents_check" ++
    oneActiveIntent db new)
  onUpdate db old new := refuse (
    protectSigningIntent old new ++
    oneActiveIntent db new)
  onDelete _ _ := appendOnly "cryptographic evidence is append-only"

def intentDocuments : Table Db Failure SigningIntentDocument where
  rows := Db.intentDocuments
  put rows db := { db with intentDocuments := rows }
  onInsert db new := refuse (
    violates (db.intentDocuments.any fun d =>
        d.signingIntentId == new.signingIntentId && d.documentVersionId == new.documentVersionId)
      "signing_intent_documents_pkey" ++
    violates (db.intentDocuments.any fun d =>
        d.signingIntentId == new.signingIntentId && d.ordinal == new.ordinal)
      "signing_intent_documents_signing_intent_id_ordinal_key" ++
    violates (new.ordinal == 0) "signing_intent_documents_ordinal_check" ++
    violates (db.intent? new.signingIntentId).isNone
      "signing_intent_documents_signing_intent_id_fkey" ++
    violates (db.version? new.documentVersionId).isNone
      "signing_intent_documents_document_version_id_fkey")
  onUpdate _ _ _ := appendOnly "cryptographic evidence is append-only"
  onDelete _ _ := appendOnly "cryptographic evidence is append-only"

/-- The partial unique index `identity_transactions_active_intent_idx`. -/
def oneActiveIdentity (db : Db) (new : IdentityTransaction) : Checks :=
  let active (status : IdentityStatus) := status == .pending || status == .complete_collected
  violates (new.signingIntentId.isSome && active new.status && db.identityTransactions.any fun t =>
      t.id != new.id && t.signingIntentId == new.signingIntentId && active t.status)
    "identity_transactions_active_intent_idx"

def identityTransactions : Table Db Failure IdentityTransaction where
  rows := Db.identityTransactions
  put rows db := { db with identityTransactions := rows }
  onInsert db new := refuse (
    violates (db.identityTransactions.any fun t => t.id == new.id) "identity_transactions_pkey" ++
    violates (db.identityTransactions.any fun t =>
        t.provider == new.provider && t.providerReference == new.providerReference)
      "identity_transactions_provider_provider_reference_key" ++
    violates (db.signer? new.signerId).isNone "identity_transactions_signer_id_fkey" ++
    violates (db.version? new.documentVersionId).isNone
      "identity_transactions_document_version_id_fkey" ++
    violates (new.signingIntentId.any fun i => (db.intent? i).isNone)
      "identity_transactions_signing_intent_fk" ++
    oneActiveIdentity db new ++
    assertIdentityTransactionSameCase db new)
  onUpdate db old new := refuse (
    protectIdentityTransactionBinding old new ++
    assertIdentityTransactionVerification db old new ++
    violates (new.signingIntentId.any fun i => (db.intent? i).isNone)
      "identity_transactions_signing_intent_fk" ++
    oneActiveIdentity db new)
  onDelete db old := refuse (
    violates (db.identityArtifacts.any fun a => a.identityTransactionId == old.id)
      "tic_identity_artifacts_identity_transaction_id_fkey" ++
    violates (db.attempts.any fun a => a.identityTransactionId == old.id)
      "signature_attempts_identity_transaction_id_fkey")

def identityArtifacts : Table Db Failure IdentityArtifact where
  rows := Db.identityArtifacts
  put rows db := { db with identityArtifacts := rows }
  onInsert db new := refuse (
    violates (db.identityArtifacts.any fun a =>
        a.provider == new.provider && a.identityTransactionId == new.identityTransactionId)
      "tic_identity_artifacts_identity_transaction_id_key" ++
    violates (db.identityTransaction? new.identityTransactionId).isNone
      "tic_identity_artifacts_identity_transaction_id_fkey" ++
    violates (db.intent? new.signingIntentId).isNone "tic_identity_artifacts_signing_intent_id_fkey")
  onUpdate _ _ _ := appendOnly "cryptographic evidence is append-only"
  onDelete _ _ := appendOnly "cryptographic evidence is append-only"

/-- The unique key of an attempt's number among the attempts of its signer. -/
def attemptNumberKey (db : Db) (new : SignatureAttempt) : Checks :=
  violates (db.attempts.any fun a =>
      a.id != new.id && a.signerId == new.signerId && a.attemptNumber == new.attemptNumber)
    "signature_attempts_signer_id_attempt_number_key"

def attempts : Table Db Failure SignatureAttempt where
  rows := Db.attempts
  put rows db := { db with attempts := rows }
  onInsert db new := refuse (
    violates (db.attempts.any fun a => a.id == new.id) "signature_attempts_pkey" ++
    attemptNumberKey db new ++
    violates (new.attemptNumber == 0) "signature_attempts_attempt_number_check" ++
    preventUnverifiedTerminalStatus actor (new.status == .signed || new.status == .validated) ++
    assertSignatureAttemptConsistency db new)
  onUpdate db old new := refuse (
    attemptNumberKey db new ++
    assertTransition AttemptStatus.allowed old.status new.status
      "invalid signature attempt status transition" ++
    preventUnverifiedTerminalStatus actor (old.status != new.status &&
      (new.status == .signed || new.status == .validated)) ++
    if new.toAttemptBinding = old.toAttemptBinding then []
    else assertSignatureAttemptConsistency db new)
  onDelete db old := refuse (
    violates (db.artifacts.any fun a => a.signatureAttemptId == old.id)
      "signature_artifacts_signature_attempt_id_fkey")

def artifacts : Table Db Failure SignatureArtifact where
  rows := Db.artifacts
  put rows db := { db with artifacts := rows }
  onInsert db new := refuse (
    violates (db.artifacts.any fun a => a.id == new.id) "signature_artifacts_pkey" ++
    requireTrustedCryptographicService actor ++
    assertSignatureRevisionChain db new)
  onUpdate _ _ _ := appendOnly "audit events are append-only"
  onDelete _ _ := appendOnly "audit events are append-only"

def evidence : Table Db Failure SignatureEvidence where
  rows := Db.evidence
  put rows db := { db with evidence := rows }
  onInsert db new := refuse (
    violates (db.artifact? new.signatureArtifactId).isNone "signature_artifact_id_fkey" ++
    requireTrustedCryptographicService actor)
  onUpdate _ _ _ := appendOnly "audit events are append-only"
  onDelete _ _ := appendOnly "audit events are append-only"

def validationRuns : Table Db Failure ValidationRun where
  rows := Db.validationRuns
  put rows db := { db with validationRuns := rows }
  onInsert db new := refuse (
    violates (db.artifact? new.signatureArtifactId).isNone
      "validation_runs_signature_artifact_id_fkey" ++
    requireTrustedCryptographicService actor)
  onUpdate _ _ _ := appendOnly "audit events are append-only"
  onDelete _ _ := appendOnly "audit events are append-only"

end Tables

/-- The deferred triggers of the artifacts that a transaction has inserted, at its commit. -/
def deferredChecks (artifact : SignatureArtifact) : Tx Unit :=
  Transaction.check fun db => refuse (assertPadesLevelNotOverclaimed db artifact)

/-! ## Jobs and events -/

/-- The idempotency key of a job: two jobs with the same key are one job. -/
def DurableJob.sameKey : DurableJob → DurableJob → Bool
  | .padesValidate a, .padesValidate b => a.signatureArtifactId == b.signatureArtifactId
  | .signerPackage _ s, .signerPackage _ s' => s == s'
  | a, b => a == b

/-- The queue after `insert into app.durable_jobs … on conflict do nothing`. -/
def queueJob (jobs : List DurableJob) (job : DurableJob) : List DurableJob :=
  if jobs.any fun queued => queued.sameKey job then jobs else jobs ++ [job]

def enqueue (job : DurableJob) : Tx Unit :=
  Transaction.rewrite fun db => { db with jobs := queueJob db.jobs job }

/-- `audit.append_event`. -/
def audit (eventType : EventType) (resourceId : Id) : Tx Unit :=
  Transaction.rewrite fun db =>
    { db with events := db.events ++ [⟨.audit, eventType, resourceId⟩] }

/-- `insert into app.outbox_events`. -/
def outbox (eventType : EventType) (resourceId : Id) : Tx Unit :=
  Transaction.rewrite fun db =>
    { db with events := db.events ++ [⟨.outbox, eventType, resourceId⟩] }

end Kommunsign
