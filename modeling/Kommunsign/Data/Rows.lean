import Kommunsign.Data.Status
import Kommunsign.Infra.JsonRoundtrip

/-!
# The rows of one tenant's data plane

Every statement of the modelled code carries the tenant, so one tenant's rows are the whole state.
Identifiers, digests and storage contents are only ever compared for equality and are numbers; a
time is a number of milliseconds.

The columns that a trigger freezes are a structure of their own (`CasePolicy`, `SignerBinding`,
`VersionBinding`, `IntentPayload`, `IdentityBinding`, `AttemptBinding`), and the row extends it by
the columns that may still change. A trigger's `IS DISTINCT FROM` list is then one comparison.
-/

namespace Kommunsign

open Infra

abbrev Id := Nat
abbrev Digest := Nat
abbrev Time := Nat

/-- Where a stored object is. -/
inductive ObjectKey where
  | canonical (documentVersionId : Id)
  | signed (documentVersionId signerId : Id)
  deriving DecidableEq, Repr

/-! ## Cases, documents and signers -/

/-- What `app.protect_case_policy_snapshot` freezes once a case is sent. -/
structure CasePolicy where
  decisionMode : DecisionMode
  policyId : Id
  policyVersion : Nat
  policySnapshot : Json
  deriving DecidableEq

structure SignatureCase extends CasePolicy where
  id : Id
  status : CaseStatus
  externalReference : Option Text
  expiresAt : Option Time

structure Document where
  id : Id
  signatureCaseId : Id
  displayName : Text
  documentRole : DocumentRole
  createdAt : Time

/-- What `app.protect_document_version_binding` freezes once a version is locked. -/
structure VersionBinding where
  documentId : Id
  version : Nat
  canonicalObjectKey : Option ObjectKey
  mimeType : Text
  byteSize : Nat
  sha256 : Option Digest
  lockedAt : Option Time
  deriving DecidableEq

structure DocumentVersion extends VersionBinding where
  id : Id
  status : DocumentStatus

/-- What `app.protect_signer_binding` freezes once a signer is no longer pending. -/
structure SignerBinding where
  signatureCaseId : Id
  expectedIdentifier : Option Text
  signingOrder : Nat
  required : Bool
  deriving DecidableEq

/--
A signer. The encrypted columns hold what they decrypt to: `expectedIdentifier` the expected
personal number and `email` the address.
-/
structure Signer extends SignerBinding where
  id : Id
  email : Option Text
  identifierBindingMode : Option BindingMode
  identifierBindingExceptionCode : Option Text
  hardBouncedAt : Option Time
  complainedAt : Option Time
  status : SignerStatus

structure SignerInvitation where
  id : Id
  signerId : Id
  expiresAt : Time
  createdAt : Time
  firstOpenedAt : Option Time
  usedAt : Option Time
  revokedAt : Option Time
  deriving DecidableEq

/-! ## Intents and identity -/

/-- What `app.protect_signing_intent` freezes from the start. -/
structure IntentPayload where
  id : Id
  signatureCaseId : Id
  signerId : Id
  sequenceGroup : Nat
  visibleText : Text
  nonVisiblePayload : Text
  identifierBindingMode : BindingMode
  issuedAt : Time
  expiresAt : Time
  createdAt : Time
  deriving DecidableEq

structure SigningIntent extends IntentPayload where
  status : IntentStatus

/-- A row of `app.signing_intent_documents`, which never changes. -/
structure SigningIntentDocument where
  signingIntentId : Id
  documentVersionId : Id
  ordinal : Nat
  documentSha256 : Digest
  documentRole : DocumentRole
  deriving DecidableEq

/-- What `app.protect_identity_transaction_binding` freezes from the start. -/
structure IdentityBinding where
  signerId : Id
  documentVersionId : Id
  provider : IdentityProvider
  providerReference : Nat
  startedAt : Time
  deriving DecidableEq

structure IdentityTransaction extends IdentityBinding where
  id : Id
  signingIntentId : Option Id
  evidenceSha256 : Option Digest
  status : IdentityStatus

/--
A row of `app.tic_identity_artifacts`, or of `app.freja_identity_artifacts` when the provider is
`FREJA_DIRECT`. `pass` is `verification_result = 'PASS'`.
-/
structure IdentityArtifact where
  provider : IdentityProvider
  identityTransactionId : Id
  signingIntentId : Id
  pass : Bool
  deriving DecidableEq

/-! ## Signatures -/

/-- The columns that name what an attempt signs and by which identity. -/
structure AttemptBinding where
  signerId : Id
  documentVersionId : Id
  identityTransactionId : Id
  documentSha256 : Digest
  provider : IdentityProvider
  deriving DecidableEq

structure SignatureAttempt extends AttemptBinding where
  id : Id
  attemptNumber : Nat
  status : AttemptStatus

/--
A row of `app.signature_artifacts`. `app.assert_signature_revision_chain` refuses a missing
`input_revision_sha256`, so the column has a value here.
-/
structure SignatureArtifact where
  id : Id
  signatureAttemptId : Id
  format : PadesLevel
  signedDocumentObjectKey : ObjectKey
  signedDocumentSha256 : Digest
  inputRevisionSha256 : Digest
  deriving DecidableEq

/-- The tables that hold evidence for a signature artifact. -/
inductive EvidenceKind where
  | signatureCertificate
  | certificateChain
  | signatureTimestamp
  | archiveTimestamp
  | ocspEvidence
  | crlEvidence
  deriving DecidableEq, Repr

/-- A row of one of the append-only evidence tables, by the table it is in. -/
structure SignatureEvidence where
  kind : EvidenceKind
  signatureArtifactId : Id
  deriving DecidableEq

structure ValidationRun where
  signatureArtifactId : Id
  indication : Indication
  trustListSnapshotObjectKey : Option ObjectKey
  deriving DecidableEq

/-! ## Jobs and announcements -/

/-- The payload of a `PADES_VALIDATE` job. -/
structure PadesValidatePayload where
  signingIntentId : Id
  signatureArtifactId : Id
  signatureAttemptId : Id
  documentVersionId : Id
  signedObjectKey : ObjectKey
  deriving DecidableEq

inductive DurableJob where
  | ticEvidenceCollect (identityTransactionId : Id)
  | signatureValidate (identityTransactionId : Id)
  | padesCreate (signingIntentId : Id)
  | padesValidate (payload : PadesValidatePayload)
  | signerPackage (signatureCaseId signerId : Id)
  | casePackage (signatureCaseId : Id)
  deriving DecidableEq

/-- Where an event is appended: `audit.append_event` or `app.outbox_events`. -/
inductive Channel where
  | audit
  | outbox
  deriving DecidableEq, Repr

/-- The event types of the modelled handlers. -/
inductive EventType where
  | signer_signed
  | signer_identity_verified
  | signer_declined
  | signature_pades_created
  | signature_pades_admitted
  | signature_pades_not_admitted
  | signature_pades_validation_failed
  | bankid_session_started
  | bankid_session_completed
  | bankid_evidence_collected
  | bankid_evidence_verified
  | bankid_evidence_failed
  | invitation_created
  | invitation_opened
  | invitation_revoked
  | document_locked
  | case_expired
  | case_completed
  | signature_case_sent
  | signature_case_cancelled
  | evidence_package_ready
  deriving DecidableEq, Repr

structure Event where
  channel : Channel
  eventType : EventType
  resourceId : Id
  deriving DecidableEq

/-- A ready package of `app.evidence_packages`; the case's own package has no signer. -/
structure EvidencePackage where
  signatureCaseId : Id
  signerId : Option Id
  deriving DecidableEq

/-- A row of `app.digital_approval_evidence`. -/
structure DigitalApproval where
  signatureCaseId : Id
  signerId : Id
  documentVersionId : Id
  deriving DecidableEq

/-! ## The state -/

structure Db where
  tenantId : Text
  ticBankIdRolloutEnabled : Bool
  organizationName : Option Text
  cases : List SignatureCase
  documents : List Document
  versions : List DocumentVersion
  signers : List Signer
  invitations : List SignerInvitation
  intents : List SigningIntent
  intentDocuments : List SigningIntentDocument
  identityTransactions : List IdentityTransaction
  identityArtifacts : List IdentityArtifact
  attempts : List SignatureAttempt
  artifacts : List SignatureArtifact
  evidence : List SignatureEvidence
  validationRuns : List ValidationRun
  evidencePackages : List EvidencePackage
  digitalApprovals : List DigitalApproval
  jobs : List DurableJob
  events : List Event

/-- The state before anything has been written. -/
def Db.empty : Db where
  tenantId := []
  ticBankIdRolloutEnabled := false
  organizationName := none
  cases := []
  documents := []
  versions := []
  signers := []
  invitations := []
  intents := []
  intentDocuments := []
  identityTransactions := []
  identityArtifacts := []
  attempts := []
  artifacts := []
  evidence := []
  validationRuns := []
  evidencePackages := []
  digitalApprovals := []
  jobs := []
  events := []

namespace Db

variable (db : Db)

/-! ## Rows by key -/

def case? (id : Id) : Option SignatureCase := db.cases.find? fun c => c.id == id

def document? (id : Id) : Option Document := db.documents.find? fun d => d.id == id

def version? (id : Id) : Option DocumentVersion := db.versions.find? fun v => v.id == id

def signer? (id : Id) : Option Signer := db.signers.find? fun s => s.id == id

def invitation? (id : Id) : Option SignerInvitation := db.invitations.find? fun i => i.id == id

def intent? (id : Id) : Option SigningIntent := db.intents.find? fun i => i.id == id

def identityTransaction? (id : Id) : Option IdentityTransaction :=
  db.identityTransactions.find? fun t => t.id == id

def attempt? (id : Id) : Option SignatureAttempt := db.attempts.find? fun a => a.id == id

def artifact? (id : Id) : Option SignatureArtifact := db.artifacts.find? fun a => a.id == id

/-- The case of a document version, through its document. -/
def versionCase? (documentVersionId : Id) : Option Id := do
  let version ← db.version? documentVersionId
  let document ← db.document? version.documentId
  some document.signatureCaseId

/-- The document version of an artifact, through its attempt. -/
def artifactVersion? (artifact : SignatureArtifact) : Option Id :=
  (db.attempt? artifact.signatureAttemptId).map (·.documentVersionId)

/-- The artifacts on a document version, in the order they were inserted. -/
def artifactsOn (documentVersionId : Id) : List SignatureArtifact :=
  db.artifacts.filter fun a => db.artifactVersion? a == some documentVersionId

/-- `app.signing_turn_blocked`. -/
def signingTurnBlocked (signerId : Id) : Bool :=
  db.signers.any fun target => target.id == signerId &&
    db.signers.any fun lower =>
      lower.signatureCaseId == target.signatureCaseId &&
        lower.signingOrder < target.signingOrder && lower.required && lower.status != .signed

end Db

end Kommunsign
