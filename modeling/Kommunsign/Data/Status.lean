import Mathlib.Tactic.Common

/-!
# The enumerations of the data plane and their transitions

`app.case_status`, `app.signer_status`, `app.document_status` and the checked `text` columns of
`signing_intents`, `identity_transactions` and `signature_attempts`, with the transition tables of
the triggers that guard them. Leaving a status as it is passes every one of these triggers.

* `SignerStatus.allowed_of_signed` — a signer never leaves `signed`
* `AttemptStatus.allowed_of_validated` — an attempt never leaves `validated`
-/

namespace Kommunsign

inductive DecisionMode where
  | DIGITAL_APPROVAL
  | ELECTRONIC_SIGNATURE
  deriving DecidableEq, Repr

inductive IdentityProvider where
  | TIC_BANKID
  | FREJA_DIRECT
  | TEST_ONLY
  deriving DecidableEq, Repr

/-- `app.validation_indication`. -/
inductive Indication where
  | TOTAL_PASSED
  | INDETERMINATE
  | TOTAL_FAILED
  deriving DecidableEq, Repr

inductive DocumentRole where
  | signable
  | attachment
  deriving DecidableEq, Repr

inductive BindingMode where
  | STRICT_PREBOUND
  | BANKID_DISCOVERED
  deriving DecidableEq, Repr

/-- `app.actor_kind` of the session, as far as a trigger tells one from another. -/
inductive ActorKind where
  | client
  | worker
  | trustedService
  deriving DecidableEq, Repr

/-- The signature format of an artifact: `PAdES-B`, `PAdES-T`, `PAdES-LT` or `PAdES-LTA`. -/
inductive PadesLevel where
  | B
  | T
  | LT
  | LTA
  deriving DecidableEq, Repr

inductive CaseStatus where
  | draft | preparing | ready | sent | in_progress | partially_signed | completed | declined
  | expired | cancelled | failed | archiving | archived
  deriving DecidableEq, Repr

inductive SignerStatus where
  | pending | invited | opened | identity_started | identity_verified | signing | signed
  | declined | expired | cancelled | failed
  deriving DecidableEq, Repr

inductive DocumentStatus where
  | uploaded | quarantined | scanning | rejected | canonicalizing | ready | locked
  | partially_signed | signed | validated | archived
  deriving DecidableEq, Repr

inductive IntentStatus where
  | prepared | provider_started | evidence_collected | verified | packaged | cancelled | expired
  | failed
  deriving DecidableEq, Repr

inductive IdentityStatus where
  | pending | user_action_required | complete_collected | verified | cancelled | expired | failed
  deriving DecidableEq, Repr

inductive AttemptStatus where
  | prepared | identity_verified | credential_issued | signed | validated | failed | cancelled
  deriving DecidableEq, Repr

/-! ## `app.assert_valid_status_transition` -/

def CaseStatus.allowed : CaseStatus → List CaseStatus
  | .draft => [.preparing, .cancelled]
  | .preparing => [.ready, .failed, .cancelled]
  | .ready => [.sent, .cancelled]
  | .sent => [.in_progress, .declined, .expired, .cancelled, .failed]
  | .in_progress => [.partially_signed, .completed, .declined, .expired, .cancelled, .failed]
  | .partially_signed => [.completed, .declined, .expired, .cancelled, .failed]
  | .completed => [.archiving]
  | .declined => [.archiving]
  | .expired => [.archiving]
  | .cancelled => [.archiving]
  | .failed => [.archiving]
  | .archiving => [.archived, .failed]
  | .archived => []

def SignerStatus.allowed : SignerStatus → List SignerStatus
  | .pending => [.invited, .cancelled]
  | .invited => [.opened, .identity_started, .declined, .expired, .cancelled, .failed]
  | .opened => [.identity_started, .declined, .expired, .cancelled, .failed]
  | .identity_started => [.identity_verified, .declined, .expired, .cancelled, .failed]
  | .identity_verified => [.signing, .declined, .expired, .cancelled, .failed]
  | .signing => [.signed, .declined, .expired, .cancelled, .failed]
  | .signed | .declined | .expired | .cancelled | .failed => []

def DocumentStatus.allowed : DocumentStatus → List DocumentStatus
  | .uploaded => [.quarantined, .rejected]
  | .quarantined => [.scanning, .rejected]
  | .scanning => [.canonicalizing, .rejected]
  | .canonicalizing => [.ready, .rejected]
  | .ready => [.locked]
  | .locked => [.partially_signed, .signed]
  | .partially_signed => [.signed]
  | .signed => [.validated]
  | .validated => [.archived]
  | .rejected | .archived => []

/-! ## `app.protect_signing_intent` -/

def IntentStatus.allowed : IntentStatus → List IntentStatus
  | .prepared => [.provider_started, .cancelled, .expired, .failed]
  | .provider_started => [.evidence_collected, .cancelled, .expired, .failed]
  | .evidence_collected => [.verified, .failed]
  | .verified => [.packaged]
  | .packaged | .cancelled | .expired | .failed => []

/-! ## `app.protect_identity_transaction_binding` -/

def IdentityStatus.allowed : IdentityStatus → List IdentityStatus
  | .pending => [.user_action_required, .complete_collected, .cancelled, .expired, .failed]
  | .user_action_required => [.pending, .complete_collected, .cancelled, .expired, .failed]
  | .complete_collected => [.verified, .failed]
  | .verified | .cancelled | .expired | .failed => []

/-! ## `app.assert_signature_attempt_transition` -/

def AttemptStatus.allowed : AttemptStatus → List AttemptStatus
  | .prepared => [.identity_verified, .failed, .cancelled]
  | .identity_verified => [.credential_issued, .failed, .cancelled]
  | .credential_issued => [.signed, .failed, .cancelled]
  | .signed => [.validated, .failed]
  | .validated | .failed | .cancelled => []

/-! ## Kinds of status -/

/-- The case statuses in which signers can still act. -/
def CaseStatus.isOpen : CaseStatus → Bool
  | .sent | .in_progress | .partially_signed => true
  | _ => false

/-- The statuses in which `app.protect_case_policy_snapshot` lets the policy change. -/
def CaseStatus.isUnsent : CaseStatus → Bool
  | .draft | .preparing | .ready => true
  | _ => false

/-- The statuses in which `app.protect_document_version_binding` freezes a version. -/
def DocumentStatus.isFrozen : DocumentStatus → Bool
  | .locked | .partially_signed | .signed | .validated | .archived => true
  | _ => false

/-- The statuses in which a version can carry a signature attempt. -/
def DocumentStatus.isSignable : DocumentStatus → Bool
  | .locked | .partially_signed | .signed => true
  | _ => false

/-- The intents whose evidence has been verified. -/
def IntentStatus.isVerified : IntentStatus → Bool
  | .verified | .packaged => true
  | _ => false

/-- The intents of which a signer has at most one in a case. -/
def IntentStatus.isActive : IntentStatus → Bool
  | .prepared | .provider_started | .evidence_collected => true
  | _ => false

/-- A session that the provider has not ended. -/
def IdentityStatus.isWaiting : IdentityStatus → Bool
  | .pending | .user_action_required => true
  | _ => false

/-! ## Terminal statuses -/

@[simp] theorem SignerStatus.allowed_of_signed : SignerStatus.signed.allowed = [] := rfl

@[simp] theorem AttemptStatus.allowed_of_validated : AttemptStatus.validated.allowed = [] := rfl

theorem IntentStatus.isVerified_of_allowed {s t : IntentStatus} (h : s.isVerified = true)
    (ht : t ∈ s.allowed) : t.isVerified = true := by
  cases s <;> simp [isVerified, allowed] at h ht
  subst ht
  rfl

end Kommunsign
