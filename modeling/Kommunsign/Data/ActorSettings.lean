import Kommunsign.Data.Guards
import Kommunsign.Infra.ThreeValued

/-!
# The guards over the setting of the session

The guard triggers read who acts from `current_setting('app.actor_kind', true)`, which is null in
a session that never set it. `withTenantTransaction` sets it for the transaction; afterwards it is
the empty text.

* `Setting.preventUnverifiedTerminalStatus` — 0009, on the tables with a status
* `Setting.requireEvidenceWriter`, `Setting.requireTrustedCryptographicService` — 0010, on the
  tables of evidence
-/

namespace Kommunsign

open Infra

/-- `current_setting('app.actor_kind', true)`; `none` is null. -/
abbrev Setting := Option String

/-- The statuses that need verified evidence. -/
def terminalStatuses : List String := ["signed", "completed", "validated", "archived"]

/-- The actors that may write them. -/
def serverActors : List String := ["worker", "trusted_service"]

theorem serverActors_ne_nil : serverActors ≠ [] := List.cons_ne_nil _ _

namespace Setting

/-- `app.prevent_unverified_terminal_status`, over `NEW.status::text`. -/
def preventUnverifiedTerminalStatus (actor : Setting) (status : Option String) : Checks :=
  raises ((isIn status terminalStatuses).and (isIn actor serverActors).not).taken
    "terminal status requires verified server evidence"

/-- `app.require_evidence_writer`. -/
def requireEvidenceWriter (actor : Setting) : Checks :=
  raises (isIn actor serverActors).not.taken
    "evidence records may only be created by a verified worker or trusted service"

/-- `app.require_trusted_cryptographic_service`. -/
def requireTrustedCryptographicService (actor : Setting) : Checks :=
  raises (isEqual actor (some "trusted_service")).not.taken
    "cryptographic evidence may only be created by a trusted service"

end Setting

/-! ## The guarded tables -/

/-- The tables whose status the terminal guard watches. -/
inductive StatusTable where
  | signatureCases
  | signers
  | documentVersions
  | signatureAttempts
  | identityTransactions
  | archiveExports
  deriving DecidableEq, Repr

/-- The tables that only a verified writer may insert into. -/
inductive EvidenceTable where
  | digitalApprovalEvidence
  | signingIntentManifests
  | bankidTransactions
  | frejaTransactions
  | signatureArtifacts
  | signatureCertificates
  | certificateChains
  | ocspEvidence
  | crlEvidence
  | timestampTokens
  | trustListSnapshots
  | validationRuns
  | validationResults
  | validationReports
  deriving DecidableEq, Repr

/-- Whether a table holds cryptographic evidence. -/
def EvidenceTable.isCryptographic : EvidenceTable → Bool
  | .digitalApprovalEvidence | .signingIntentManifests => false
  | _ => true

/-- What a statement does to one row, with what the guards of its table read of it. -/
inductive RowChange where
  | insertStatus (table : StatusTable) (status : Option String)
  /-- `set` is none when the statement leaves the column out. -/
  | updateStatus (table : StatusTable) (old : Option String) (set : Option (Option String))
  | deleteStatus (table : StatusTable) (old : Option String)
  | insertEvidence (table : EvidenceTable)
  | updateEvidence (table : EvidenceTable)
  | deleteEvidence (table : EvidenceTable)
  deriving DecidableEq, Repr

/-- The guards that fire: `BEFORE INSERT`, and `BEFORE UPDATE OF status`. -/
def RowChange.guards (actor : Setting) : RowChange → Checks
  | .insertStatus _ status => actor.preventUnverifiedTerminalStatus status
  | .updateStatus _ _ (some status) => actor.preventUnverifiedTerminalStatus status
  | .updateStatus _ _ none | .deleteStatus _ _ => []
  | .insertEvidence table =>
    if table.isCryptographic then actor.requireTrustedCryptographicService
    else actor.requireEvidenceWriter
  | .updateEvidence _ | .deleteEvidence _ => []

/-- A statement, as the changes it makes to rows. It fails as a whole when a guard refuses one of
them; `rest` is what else may refuse it: constraints, row security and the other triggers. -/
def executeStatement (rest : List RowChange → Checks) (actor : Setting)
    (changes : List RowChange) : Except Failure Unit :=
  refuse (changes.flatMap (RowChange.guards actor) ++ rest changes)

/-- `app.assert_signature_attempt_transition`, as one of the other triggers. -/
def allowedAttempt : String → List String
  | "prepared" => ["identity_verified", "failed", "cancelled"]
  | "identity_verified" => ["credential_issued", "failed", "cancelled"]
  | "credential_issued" => ["signed", "failed", "cancelled"]
  | "signed" => ["validated", "failed"]
  | _ => []

def RowChange.attemptTransition : RowChange → Checks
  | .updateStatus .signatureAttempts (some old) (some (some new)) =>
    assertTransition allowedAttempt old new "invalid signature attempt status transition"
  | _ => []

/-! ## What the guards let through -/

section Passes

variable {actor : Setting} {status : Option String}

theorem Setting.preventUnverifiedTerminalStatus_iff :
    refuse (actor.preventUnverifiedTerminalStatus status) = .ok () ↔
      actor = none ∨
        ((∃ s ∈ terminalStatuses, status = some s) → ∃ a ∈ serverActors, actor = some a) := by
  rw [preventUnverifiedTerminalStatus, refuse_raises, Truth.taken_and, Bool.and_eq_false_iff,
    ← Bool.not_eq_true, taken_isIn, not_taken_not_isIn serverActors_ne_nil, or_left_comm,
    imp_iff_not_or]

theorem Setting.requireEvidenceWriter_iff :
    refuse actor.requireEvidenceWriter = .ok () ↔
      actor = none ∨ ∃ a ∈ serverActors, actor = some a := by
  rw [requireEvidenceWriter, refuse_raises, not_taken_not_isIn serverActors_ne_nil]

theorem Setting.requireTrustedCryptographicService_iff :
    refuse actor.requireTrustedCryptographicService = .ok () ↔
      actor = none ∨ actor = some "trusted_service" := by
  rw [requireTrustedCryptographicService, refuse_raises, isEqual_eq_isIn,
    not_taken_not_isIn (List.cons_ne_nil _ _)]
  simp

end Passes

end Kommunsign
