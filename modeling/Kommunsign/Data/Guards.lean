import Kommunsign.Data.Policy
import Kommunsign.Infra.Table

/-!
# The guard triggers

Each definition is one trigger function in the version its last migration leaves, as a list of
the conditions it refuses together with the exception it raises. A trigger that fires on
`UPDATE OF` some columns is quiet when those columns stay as they are.

* `assertSignerSignatureEvidence` — 0040: what a signer needs to become `signed`
* `assertSignatureRevisionChain` — 0021: what an artifact may continue from
-/

namespace Kommunsign

open Infra

/-- Conditions that must not hold, with the failure each of them is. -/
abbrev Checks := List (Bool × Failure)

/-- The failure of the first condition that holds. -/
def refuse : Checks → Except Failure Unit
  | [] => .ok ()
  | (violated, failure) :: rest => if violated then .error failure else refuse rest

@[simp] theorem refuse_nil : refuse [] = .ok () := rfl

@[simp] theorem refuse_cons {violated : Bool} {failure : Failure} {rest : Checks} :
    refuse ((violated, failure) :: rest) = .ok () ↔ violated = false ∧ refuse rest = .ok () := by
  cases violated <;> simp [refuse]

@[simp] theorem refuse_append {first rest : Checks} :
    refuse (first ++ rest) = .ok () ↔ refuse first = .ok () ∧ refuse rest = .ok () := by
  induction first with
  | nil => simp
  | cons check first ih =>
    obtain ⟨violated, failure⟩ := check
    rw [List.cons_append, refuse_cons, refuse_cons, ih, and_assoc]

theorem refuse_append_of_ok {first rest : Checks} (h : refuse first = .ok ()) :
    refuse (first ++ rest) = refuse rest := by
  induction first with
  | nil => rfl
  | cons check first ih =>
    obtain ⟨violated, failure⟩ := check
    obtain ⟨rfl, hfirst⟩ := refuse_cons.mp h
    rw [List.cons_append, refuse, if_neg Bool.false_ne_true, ih hfirst]

theorem refuse_append_of_rest {first rest : Checks} (h : refuse rest = .ok ()) :
    refuse (first ++ rest) = refuse first := by
  induction first with
  | nil => exact h
  | cons check first ih =>
    obtain ⟨violated, failure⟩ := check
    rw [List.cons_append, refuse, refuse, ih]

theorem mem_of_refuse_error {checks : Checks} {failure : Failure}
    (h : refuse checks = .error failure) : (true, failure) ∈ checks := by
  induction checks with
  | nil => cases h
  | cons check checks ih =>
    obtain ⟨violated, failure'⟩ := check
    rw [refuse] at h
    cases violated with
    | true =>
      cases h
      exact List.mem_cons_self
    | false => exact List.mem_cons_of_mem _ (ih h)

/-- `RAISE EXCEPTION` when the condition holds. -/
def raises (violated : Bool) (message : String) : Checks := [(violated, .raised message)]

/-- A constraint that the condition violates. -/
def violates (violated : Bool) (name : String) : Checks := [(violated, .constraint name)]

@[simp] theorem refuse_raises {violated : Bool} {message : String} :
    refuse (raises violated message) = .ok () ↔ violated = false := by
  simp [raises]

@[simp] theorem refuse_violates {violated : Bool} {name : String} :
    refuse (violates violated name) = .ok () ↔ violated = false := by
  simp [violates]

/-! ## Actors -/

def ActorKind.isServer : ActorKind → Bool
  | .worker | .trustedService => true
  | .client => false

/-- `app.prevent_unverified_terminal_status`. -/
def preventUnverifiedTerminalStatus (actor : ActorKind) (terminal : Bool) : Checks :=
  raises (terminal && !actor.isServer) "terminal status requires verified server evidence"

/-- `app.require_trusted_cryptographic_service`. -/
def requireTrustedCryptographicService (actor : ActorKind) : Checks :=
  raises (actor != .trustedService)
    "cryptographic evidence may only be created by a trusted service"

/-! ## Status transitions -/

/-- A status may stay, or go where its table allows. -/
def assertTransition {S : Type} [DecidableEq S] (allowed : S → List S) (old new : S)
    (message : String) : Checks :=
  raises (old ≠ new && !(allowed old).contains new) message

theorem refuse_assertTransition {S : Type} [DecidableEq S] {allowed : S → List S} {old new : S}
    {message : String} : refuse (assertTransition allowed old new message) = .ok () ↔
      new = old ∨ new ∈ allowed old := by
  simp only [assertTransition, refuse_raises, Bool.and_eq_false_iff, decide_eq_false_iff_not,
    not_not, Bool.not_eq_false', List.contains_iff_mem]
  rw [eq_comm]

/-! ## Cases -/

/-- `app.protect_case_policy_snapshot`. -/
def protectCasePolicySnapshot (old new : SignatureCase) : Checks :=
  raises (!new.status.isUnsent && decide (new.toCasePolicy ≠ old.toCasePolicy))
    "sent signature case policy snapshot and classification are immutable"

/-- The signers of a case that have to sign. -/
def Db.requiredSigners (db : Db) (signatureCaseId : Id) : List Signer :=
  db.signers.filter fun s => s.signatureCaseId == signatureCaseId && s.required

/-- The latest version of every document of a case. -/
def Db.latestVersions (db : Db) (signatureCaseId : Id) : List Id :=
  (db.documents.filter fun d => d.signatureCaseId == signatureCaseId).filterMap fun d =>
    (minBy (fun v => -(v.version : Int)) (db.versions.filter fun v => v.documentId == d.id)).map
      (·.id)

/--
Whether a signer has a validated signature over a document version at the level of the policy,
with a validation run that the policy accepts.
-/
def Db.hasValidatedSignature (db : Db) (policy : Json) (signerId documentVersionId : Id) : Bool :=
  db.attempts.any fun attempt =>
    attempt.signerId == signerId && attempt.documentVersionId == documentVersionId &&
      attempt.status == .validated && db.artifacts.any fun artifact =>
        artifact.signatureAttemptId == attempt.id &&
          rankGe (padesLevelRank (some artifact.format.format))
            (padesLevelRank (some (requiredLevelText policy))) &&
          db.validationRuns.any fun run =>
            run.signatureArtifactId == artifact.id && acceptsIndication policy run.indication

/-- `app.assert_case_completion_evidence`. -/
def assertCaseCompletionEvidence (db : Db) (old new : SignatureCase) : Checks :=
  let required := db.requiredSigners new.id
  let completes := new.status == .completed && old.status != .completed
  raises (completes && required.isEmpty)
    "signature case cannot complete without a required participant" ++
  raises (completes && required.any fun s => s.status != .signed)
    "signature case completion requires every required participant to be completed" ++
  raises (completes && !db.documents.any fun d => d.signatureCaseId == new.id)
    "signature case cannot complete without a document" ++
  raises (completes && new.decisionMode == .DIGITAL_APPROVAL && required.any fun s =>
      (db.latestVersions new.id).any fun v => !db.digitalApprovals.any fun a =>
        a.signatureCaseId == new.id && a.signerId == s.id && a.documentVersionId == v)
    "digital approval completion lacks immutable approval evidence" ++
  raises (completes && new.decisionMode != .DIGITAL_APPROVAL && required.any fun s =>
      (db.latestVersions new.id).any fun v =>
        !db.hasValidatedSignature new.policySnapshot s.id v)
    "electronic signature completion lacks validated cryptographic evidence"

/-- `app.enforce_case_package_completion`. -/
def enforceCasePackageCompletion (db : Db) (old new : SignatureCase) : Checks :=
  let completes := new.status == .completed && old.status != .completed
  raises (completes && (db.requiredSigners new.id).any fun s => s.status != .signed)
    "completed case requires every required signer signed" ++
  raises (completes && !db.evidencePackages.any fun p =>
      p.signatureCaseId == new.id && p.signerId == none)
    "completed case requires ready evidence package"

/-! ## Signers -/

/-- `app.protect_signer_binding`. -/
def protectSignerBinding (old new : Signer) : Checks :=
  raises (old.status != .pending && decide (new.toSignerBinding ≠ old.toSignerBinding))
    "invited signer identity and ordering binding are immutable"

/-- `app.enforce_bankid_terminal_evidence`. -/
def enforceBankIdTerminalEvidence (db : Db) (old new : Signer) : Checks :=
  raises (new.status == .signed && old.status != .signed && !db.intents.any fun intent =>
      intent.signerId == new.id && intent.status.isVerified && db.identityArtifacts.any fun a =>
        a.signingIntentId == intent.id && a.pass)
    "signed signer requires verified identity evidence"

/-- The latest of a signer's intents whose evidence is verified. -/
def Db.verifiedIntent? (db : Db) (signerId : Id) : Option SigningIntent :=
  minBy (fun intent => -(intent.createdAt : Int))
    (db.intents.filter fun intent => intent.signerId == signerId && intent.status.isVerified)

/-- The documents of an intent that are to be signed. -/
def Db.signableDocuments (db : Db) (signingIntentId : Id) : List SigningIntentDocument :=
  db.intentDocuments.filter fun d =>
    d.signingIntentId == signingIntentId && d.documentRole == .signable

/-- `app.assert_signer_signature_evidence`. -/
def assertSignerSignatureEvidence (db : Db) (old new : Signer) : Checks :=
  if new.status ≠ .signed ∨ old.status = .signed then []
  else
    match db.case? new.signatureCaseId with
    | none => []
    | some c =>
      if c.decisionMode ≠ .ELECTRONIC_SIGNATURE then []
      else
        match db.verifiedIntent? new.id with
        | none => raises true "signed signer requires a verified signing intent"
        | some intent =>
          raises (db.signableDocuments intent.id).isEmpty
            "signed signer requires at least one signable document in the signing intent" ++
          raises ((db.signableDocuments intent.id).any fun d =>
              !db.hasValidatedSignature c.policySnapshot new.id d.documentVersionId)
            ("signed signer requires a validated cryptographic signature for every signable " ++
              "document in the signing intent")

/-! ## Document versions and invitations -/

/-- `app.protect_document_version_binding`. -/
def protectDocumentVersionBinding (old new : DocumentVersion) : Checks :=
  raises (new.status.isFrozen && (new.sha256.isNone || new.canonicalObjectKey.isNone ||
      new.lockedAt.isNone))
    "locked document version requires canonical object, digest and lock timestamp" ++
  raises (old.status.isFrozen && decide (new.toVersionBinding ≠ old.toVersionBinding))
    "locked document version binding is immutable"

/-- `app.protect_consumed_invitation`. -/
def protectConsumedInvitation (old new : SignerInvitation) : Checks :=
  raises (old.usedAt.isSome && decide (new ≠ old)) "consumed invitation is immutable" ++
  raises (old.revokedAt.isSome && decide (new ≠ old)) "revoked invitation is immutable"

/-- The check `signer_invitations_terminal_time_order`. -/
def invitationTimeOrder (new : SignerInvitation) : Checks :=
  violates (new.usedAt.any (· < new.createdAt) || new.revokedAt.any (· < new.createdAt))
    "signer_invitations_terminal_time_order"

/-! ## Intents and identity transactions -/

/-- `app.protect_signing_intent`. -/
def protectSigningIntent (old new : SigningIntent) : Checks :=
  raises (decide (new.toIntentPayload ≠ old.toIntentPayload))
    "signing intent payload is immutable" ++
  assertTransition IntentStatus.allowed old.status new.status
    "invalid signing intent state transition"

/-- `app.protect_identity_transaction_binding`. -/
def protectIdentityTransactionBinding (old new : IdentityTransaction) : Checks :=
  raises (decide (new.toIdentityBinding ≠ old.toIdentityBinding))
    "identity transaction binding is immutable" ++
  assertTransition IdentityStatus.allowed old.status new.status
    "invalid identity transaction status transition" ++
  raises (old.status != .complete_collected && new.status == .complete_collected &&
      new.evidenceSha256.isNone)
    "collected identity transaction requires immutable provider evidence"

/-- `app.assert_identity_transaction_verification`. -/
def assertIdentityTransactionVerification (db : Db) (old new : IdentityTransaction) : Checks :=
  raises (new.status == .verified && old.status != .verified && !db.identityArtifacts.any fun a =>
      a.identityTransactionId == new.id && a.pass)
    "identity transaction cannot be verified without a passing verification artifact"

/-- `app.assert_identity_transaction_same_case`. -/
def assertIdentityTransactionSameCase (db : Db) (new : IdentityTransaction) : Checks :=
  raises ((db.signer? new.signerId).map (·.signatureCaseId) !=
      db.versionCase? new.documentVersionId)
    "identity transaction document and signer belong to different signature cases"

/-! ## Signature attempts and artifacts -/

/-- `app.assert_signature_attempt_consistency`. -/
def assertSignatureAttemptConsistency (db : Db) (new : SignatureAttempt) : Checks :=
  let identity := db.identityTransaction? new.identityTransactionId
  let version := db.version? new.documentVersionId
  raises (identity.map (·.signerId) != some new.signerId ||
      identity.map (·.documentVersionId) != some new.documentVersionId ||
      identity.map (·.provider) != some new.provider)
    "signature attempt does not match its verified identity transaction" ++
  raises ((db.signer? new.signerId).map (·.signatureCaseId) !=
      db.versionCase? new.documentVersionId)
    "signature attempt document and signer belong to different signature cases" ++
  raises (version.bind (·.sha256) != some new.documentSha256)
    "signature attempt digest does not match immutable document digest" ++
  raises (version.any fun v => !v.status.isSignable)
    "signature attempt requires a locked document version"

/-- `app.assert_signature_revision_chain`. -/
def assertSignatureRevisionChain (db : Db) (new : SignatureArtifact) : Checks :=
  match db.artifactVersion? new with
  | none => raises true "signature artifact is not attached to a signature attempt"
  | some documentVersionId =>
    let others := (db.artifactsOn documentVersionId).filter fun a => a.id != new.id
    if others.isEmpty then
      raises ((db.version? documentVersionId).bind (·.sha256) != some new.inputRevisionSha256)
        "the first signature on a document must be applied to its canonical revision"
    else
      raises (!(db.artifactsOn documentVersionId).any fun previous =>
          previous.signedDocumentSha256 == new.inputRevisionSha256)
        "signature must continue from an existing signed revision of the same document" ++
      raises (others.any fun sibling =>
          sibling.inputRevisionSha256 == new.inputRevisionSha256)
        "two signatures cannot branch from the same document revision"

/-- `app.assert_pades_level_not_overclaimed`, which runs when the transaction commits. -/
def assertPadesLevelNotOverclaimed (db : Db) (new : SignatureArtifact) : Checks :=
  match db.attainedPadesLevel? new.id with
  | none =>
    raises true
      "signature artifact has no signing certificate and chain, so it supports no PAdES level"
  | some attained =>
    raises (rankGt (padesLevelRank (some new.format.format))
        (padesLevelRank (some attained.format)))
      "signature artifact claims more than the collected evidence supports"

end Kommunsign
