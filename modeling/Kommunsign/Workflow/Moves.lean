import Kommunsign.Infra.Moved
import Kommunsign.Workflow.System
import Mathlib.Logic.Relation

/-!
# What may happen to a row

The rows of the workflow are never deleted, and what names and binds them never changes. A status
moves along its transition table.

* `SignerStatus.stage`, `IntentStatus.stage` — how far a signer has come, and how far an intent
  says that its signer has
* `Reaches`, `Changes` — ways along a transition table, and those that an effect allows
-/

namespace Kommunsign

open Infra

/-! ## How far things have come -/

/-- A signer only ever goes to a later stage. -/
def SignerStatus.stage : SignerStatus → Nat
  | .pending => 0
  | .invited | .opened => 1
  | .identity_started => 2
  | .identity_verified => 3
  | .signing => 4
  | .signed | .declined | .expired | .cancelled | .failed => 5

/-- The stage that an intent in this status says its signer has reached. -/
def IntentStatus.stage : IntentStatus → Nat
  | .provider_started | .evidence_collected => 2
  | .verified | .packaged => 3
  | .prepared | .cancelled | .expired | .failed => 0

/-- The statuses that a transition table leads to. -/
def Reaches {S : Type} (allowed : S → List S) : S → S → Prop :=
  Relation.ReflTransGen fun a b => b ∈ allowed a

theorem Reaches.of_transition {S : Type} [DecidableEq S] {allowed : S → List S} {old new : S}
    {message : String} (h : refuse (assertTransition allowed old new message) = .ok ()) :
    Reaches allowed old new := by
  rcases refuse_assertTransition.mp h with rfl | h
  · exact Relation.ReflTransGen.refl
  · exact Relation.ReflTransGen.single h

theorem Reaches.keeps {S : Type} {allowed : S → List S} {P : S → Prop}
    (hstep : ∀ a b, b ∈ allowed a → P a → P b) {old new : S} (h : Reaches allowed old new) :
    P old → P new := by
  induction h with
  | refl => exact id
  | tail _ hlast ih => exact fun hold => hstep _ _ hlast (ih hold)

/-- The way from one status to another by transitions that the table and the effect allow. -/
def Changes {S : Type} (allowed : S → List S) (may : S → S → Prop) : S → S → Prop :=
  Relation.ReflTransGen fun a b => b ∈ allowed a ∧ may a b

section Changes

variable {S : Type} {allowed : S → List S} {may : S → S → Prop} {old new : S}

theorem Changes.keeps {P : S → Prop} (h : Changes allowed may old new)
    (hstep : ∀ a b, b ∈ allowed a → may a b → P a → P b) : P old → P new := by
  induction h with
  | refl => exact id
  | tail _ hlast ih => exact fun hold => hstep _ _ hlast.1 hlast.2 (ih hold)

theorem Changes.of_transition [DecidableEq S] {message : String}
    (h : refuse (assertTransition allowed old new message) = .ok ()) (hmay : may old new) :
    Changes allowed may old new := by
  rcases refuse_assertTransition.mp h with rfl | h
  · exact Relation.ReflTransGen.refl
  · exact Relation.ReflTransGen.single ⟨h, hmay⟩

end Changes

theorem SignerStatus.stage_le {old new : SignerStatus} (h : Reaches allowed old new) :
    old.stage ≤ new.stage := by
  refine h.keeps (P := fun s => old.stage ≤ s.stage) (fun a b hb hle => hle.trans ?_) le_rfl
  cases a <;> cases b <;> revert hb <;> decide

theorem IntentStatus.isVerified_of_reaches {old new : IntentStatus} (h : Reaches allowed old new)
    (hold : old.isVerified = true) : new.isVerified = true :=
  h.keeps (P := fun s => s.isVerified = true) (fun _ _ hb ha => isVerified_of_allowed ha hb) hold

/-! ## Moves of rows -/

structure CaseMove (old new : SignatureCase) : Prop where
  id : new.id = old.id
  policy : new.toCasePolicy = old.toCasePolicy
  expiresAt : new.expiresAt = old.expiresAt
  status : Reaches CaseStatus.allowed old.status new.status

/-- Of an invitation only the three times are ever assigned. -/
structure InvitationMove (old new : SignerInvitation) : Prop where
  signerId : new.signerId = old.signerId
  createdAt : new.createdAt = old.createdAt
  expiresAt : new.expiresAt = old.expiresAt

structure SignerMove (old new : Signer) : Prop where
  id : new.id = old.id
  binding : new.toSignerBinding = old.toSignerBinding
  mode : new.identifierBindingMode = old.identifierBindingMode
  exception : new.identifierBindingExceptionCode = old.identifierBindingExceptionCode
  status : Reaches SignerStatus.allowed old.status new.status

structure IntentMove (old new : SigningIntent) : Prop where
  payload : new.toIntentPayload = old.toIntentPayload
  status : Reaches IntentStatus.allowed old.status new.status

structure SessionMove (old new : IdentityTransaction) : Prop where
  id : new.id = old.id
  binding : new.toIdentityBinding = old.toIdentityBinding
  intent : new.signingIntentId = old.signingIntentId

structure AttemptMove (old new : SignatureAttempt) : Prop where
  id : new.id = old.id
  binding : new.toAttemptBinding = old.toAttemptBinding
  attemptNumber : new.attemptNumber = old.attemptNumber
  status : Reaches AttemptStatus.allowed old.status new.status

/-- A version that is ready may be locked. -/
structure VersionMove (old new : DocumentVersion) : Prop where
  row : new = { old with status := new.status, lockedAt := new.lockedAt }
  status : new.status = old.status ∨ old.status = .ready ∧ new.status = .locked

theorem CaseMove.refl (c : SignatureCase) : CaseMove c c := ⟨rfl, rfl, rfl, .refl⟩

theorem InvitationMove.refl (i : SignerInvitation) : InvitationMove i i := ⟨rfl, rfl, rfl⟩

theorem SignerMove.refl (s : Signer) : SignerMove s s := ⟨rfl, rfl, rfl, rfl, .refl⟩

theorem IntentMove.refl (si : SigningIntent) : IntentMove si si := ⟨rfl, .refl⟩

theorem SessionMove.refl (t : IdentityTransaction) : SessionMove t t := ⟨rfl, rfl, rfl⟩

theorem AttemptMove.refl (a : SignatureAttempt) : AttemptMove a a := ⟨rfl, rfl, rfl, .refl⟩

theorem VersionMove.refl (v : DocumentVersion) : VersionMove v v := ⟨rfl, Or.inl rfl⟩

theorem CaseMove.trans (a b c : SignatureCase) (h : CaseMove a b) (h' : CaseMove b c) :
    CaseMove a c :=
  ⟨h'.id.trans h.id, h'.policy.trans h.policy, h'.expiresAt.trans h.expiresAt,
    h.status.trans h'.status⟩

theorem InvitationMove.trans (a b c : SignerInvitation) (h : InvitationMove a b)
    (h' : InvitationMove b c) : InvitationMove a c :=
  ⟨h'.signerId.trans h.signerId, h'.createdAt.trans h.createdAt, h'.expiresAt.trans h.expiresAt⟩

theorem SignerMove.trans (a b c : Signer) (h : SignerMove a b) (h' : SignerMove b c) :
    SignerMove a c :=
  ⟨h'.id.trans h.id, h'.binding.trans h.binding, h'.mode.trans h.mode,
    h'.exception.trans h.exception, h.status.trans h'.status⟩

theorem IntentMove.trans (a b c : SigningIntent) (h : IntentMove a b) (h' : IntentMove b c) :
    IntentMove a c :=
  ⟨h'.payload.trans h.payload, h.status.trans h'.status⟩

theorem SessionMove.trans (a b c : IdentityTransaction) (h : SessionMove a b)
    (h' : SessionMove b c) : SessionMove a c :=
  ⟨h'.id.trans h.id, h'.binding.trans h.binding, h'.intent.trans h.intent⟩

theorem AttemptMove.trans (a b c : SignatureAttempt) (h : AttemptMove a b)
    (h' : AttemptMove b c) : AttemptMove a c :=
  ⟨h'.id.trans h.id, h'.binding.trans h.binding, h'.attemptNumber.trans h.attemptNumber,
    h.status.trans h'.status⟩

theorem VersionMove.trans (a b c : DocumentVersion) (h : VersionMove a b) (h' : VersionMove b c) :
    VersionMove a c := by
  refine ⟨?_, ?_⟩
  · have hrow := h'.row
    rw [h.row] at hrow
    exact hrow
  · rcases h'.status with hsame | ⟨hready, hlocked⟩
    · rw [hsame]
      exact h.status
    · rcases h.status with hsame | ⟨-, hlocked'⟩
      · exact Or.inr ⟨hsame ▸ hready, hlocked⟩
      · rw [hlocked'] at hready
        cases hready

theorem SignerMove.stage_le {old new : Signer} (h : SignerMove old new) :
    old.status.stage ≤ new.status.stage := SignerStatus.stage_le h.status

theorem SignerMove.signatureCaseId {old new : Signer} (h : SignerMove old new) :
    new.signatureCaseId = old.signatureCaseId := congrArg (·.signatureCaseId) h.binding

theorem IntentMove.id {old new : SigningIntent} (h : IntentMove old new) : new.id = old.id :=
  congrArg (·.id) h.payload

theorem IntentMove.signerId {old new : SigningIntent} (h : IntentMove old new) :
    new.signerId = old.signerId := congrArg (·.signerId) h.payload

theorem IntentMove.signatureCaseId {old new : SigningIntent} (h : IntentMove old new) :
    new.signatureCaseId = old.signatureCaseId := congrArg (·.signatureCaseId) h.payload

theorem AttemptMove.signerId {old new : SignatureAttempt} (h : AttemptMove old new) :
    new.signerId = old.signerId := congrArg (·.signerId) h.binding

theorem AttemptMove.documentVersionId {old new : SignatureAttempt} (h : AttemptMove old new) :
    new.documentVersionId = old.documentVersionId := congrArg (·.documentVersionId) h.binding

theorem VersionMove.id {old new : DocumentVersion} (h : VersionMove old new) : new.id = old.id := by
  rw [h.row]

/-! ## Statements that move rows -/

theorem mem_queueJob {jobs : List DurableJob} {job queued : DurableJob}
    (h : queued ∈ queueJob jobs job) : queued ∈ jobs ∨ queued = job := by
  unfold queueJob at h
  split at h
  · exact Or.inl h
  · simpa using h

theorem subset_queueJob (jobs : List DurableJob) (job : DurableJob) : jobs ⊆ queueJob jobs job := by
  unfold queueJob
  split
  · exact List.Subset.refl _
  · exact List.subset_append_left _ _

/-- A signer's row with another status, and other news of its deliveries. -/
def Signer.withStatus (status : SignerStatus) (bouncedAt complainedAt : Option Time) (s : Signer) :
    Signer :=
  { s with status := status, hardBouncedAt := bouncedAt, complainedAt := complainedAt }

theorem signerMove_of_update {actor : ActorKind} {db : Db} {s : Signer} {status : SignerStatus}
    {bouncedAt complainedAt : Option Time}
    (h : (Tables.signers actor).onUpdate db s (s.withStatus status bouncedAt complainedAt) = .ok ()) :
    SignerMove s (s.withStatus status bouncedAt complainedAt) := by
  simp only [Tables.signers, refuse_append] at h
  exact ⟨rfl, rfl, rfl, rfl, Reaches.of_transition h.1.1.1.2⟩

theorem exists_signer_of_invitation {db : Db} {i : SignerInvitation}
    (h : Tables.invitations.onInsert db i = .ok ()) : ∃ s ∈ db.signers, s.id = i.signerId := by
  simp only [Tables.invitations, refuse_append, refuse_violates] at h
  obtain ⟨s, hs⟩ := Option.isSome_iff_exists.mp (Option.isNone_eq_false_iff.mp h.1.2)
  rw [Db.signer?] at hs
  exact ⟨s, exists_of_find?_key hs⟩

theorem SignerStatus.eq_pending {s : SignerStatus} (h : s.stage = 0) : s = .pending := by
  cases s <;> simp [stage] at h ⊢

end Kommunsign
