import Kommunsign.Data.Tables
import Kommunsign.Infra.Run

/-!
# The data plane as a system of row operations

Any session may insert, replace or delete any row, with any values, as long as the constraints and
triggers of the table let it. A signature artifact is written together with its evidence, because
the deferred check of its level runs when the transaction commits.

* `RowOp` — one row operation of one actor
* `dataStep` — what it leaves, if it is not refused
* `dataStep_insert`, `dataStep_update`, `dataStep_delete`, `dataStep_sign` — the inversion lemmas
-/

namespace Kommunsign

open Infra

/-- The tables whose rows are written one at a time. -/
inductive TableName where
  | cases | documents | versions | signers | invitations | intents | intentDocuments
  | identityTransactions | identityArtifacts | attempts | evidence | validationRuns
  deriving DecidableEq, Repr

namespace TableName

@[reducible] def Row : TableName → Type
  | cases => SignatureCase
  | documents => Document
  | versions => DocumentVersion
  | signers => Signer
  | invitations => SignerInvitation
  | intents => SigningIntent
  | intentDocuments => SigningIntentDocument
  | identityTransactions => IdentityTransaction
  | identityArtifacts => IdentityArtifact
  | attempts => SignatureAttempt
  | evidence => SignatureEvidence
  | validationRuns => ValidationRun

@[reducible] def table (actor : ActorKind) : (t : TableName) → Table Db Failure t.Row
  | cases => Tables.cases actor
  | documents => Tables.documents
  | versions => Tables.versions actor
  | signers => Tables.signers actor
  | invitations => Tables.invitations
  | intents => Tables.intents
  | intentDocuments => Tables.intentDocuments
  | identityTransactions => Tables.identityTransactions
  | identityArtifacts => Tables.identityArtifacts
  | attempts => Tables.attempts actor
  | evidence => Tables.evidence actor
  | validationRuns => Tables.validationRuns actor

/-- The column by which a statement finds the rows it replaces or deletes. -/
@[reducible] def key : (t : TableName) → t.Row → Id
  | cases, row => row.id
  | documents, row => row.id
  | versions, row => row.id
  | signers, row => row.id
  | invitations, row => row.id
  | intents, row => row.id
  | intentDocuments, row => row.signingIntentId
  | identityTransactions, row => row.id
  | identityArtifacts, row => row.identityTransactionId
  | attempts, row => row.id
  | evidence, row => row.signatureArtifactId
  | validationRuns, row => row.signatureArtifactId

end TableName

inductive RowOp where
  | insert (actor : ActorKind) (table : TableName) (row : table.Row)
  | update (actor : ActorKind) (table : TableName) (row : table.Row)
  | delete (actor : ActorKind) (table : TableName) (key : Id)
  | sign (actor : ActorKind) (artifact : SignatureArtifact) (evidence : List EvidenceKind)

/-- An artifact, its evidence rows, and the deferred check of the commit. -/
def insertSignature (actor : ActorKind) (artifact : SignatureArtifact)
    (kinds : List EvidenceKind) : Tx Unit := do
  (Tables.artifacts actor).insert artifact
  Transaction.forEach (fun kind => (Tables.evidence actor).insert ⟨kind, artifact.id⟩) kinds
  deferredChecks artifact

def RowOp.apply : RowOp → Tx Unit
  | .insert actor t row => (t.table actor).insert row
  | .update actor t row => do
    let _ ← (t.table actor).update (fun old => t.key old == t.key row) fun _ => row
    pure ()
  | .delete actor t k => (t.table actor).delete fun old => t.key old == k
  | .sign actor artifact kinds => insertSignature actor artifact kinds

/-- The state after a row operation, if nothing refuses it. -/
def dataStep (db : Db) (op : RowOp) : Option Db := op.apply.outcome db

/-! ## What an operation leaves -/

theorem dataStep_eq_some {db db' : Db} {op : RowOp} :
    dataStep db op = some db' ↔ op.apply db = .ok ((), db') := by
  rw [dataStep, Transaction.outcome_eq_some]
  exact ⟨fun ⟨_, h⟩ => h, fun h => ⟨(), h⟩⟩

theorem dataStep_insert {db db' : Db} {actor : ActorKind} {t : TableName} {row : t.Row} :
    dataStep db (.insert actor t row) = some db' ↔
      (t.table actor).onInsert db row = .ok () ∧
        db' = (t.table actor).put ((t.table actor).rows db ++ [row]) db := by
  rw [dataStep_eq_some, RowOp.apply, Table.insert_eq_ok]

theorem dataStep_update {db db' : Db} {actor : ActorKind} {t : TableName} {row : t.Row} :
    dataStep db (.update actor t row) = some db' ↔
      (∀ old ∈ (t.table actor).rows db, t.key old = t.key row →
          (t.table actor).onUpdate db old row = .ok ()) ∧
        db' = (t.table actor).put
          (assign (fun old => t.key old == t.key row) (fun _ => row) ((t.table actor).rows db)) db := by
  rw [dataStep_eq_some, RowOp.apply, Transaction.bind_eq_ok]
  simp only [Table.update_eq_ok, Transaction.pure_eq_ok, beq_iff_eq]
  constructor
  · rintro ⟨n, _, ⟨hc, rfl, rfl⟩, -, rfl⟩
    exact ⟨hc, rfl⟩
  · rintro ⟨hc, rfl⟩
    exact ⟨_, _, ⟨hc, rfl, rfl⟩, trivial, rfl⟩

theorem dataStep_delete {db db' : Db} {actor : ActorKind} {t : TableName} {k : Id} :
    dataStep db (.delete actor t k) = some db' ↔
      (∀ old ∈ (t.table actor).rows db, t.key old = k → (t.table actor).onDelete db old = .ok ()) ∧
        db' = (t.table actor).put
          (((t.table actor).rows db).filter fun old => !(t.key old == k)) db := by
  rw [dataStep_eq_some, RowOp.apply, Table.delete_eq_ok]
  simp only [beq_iff_eq]

theorem insertSignature_eq {actor : ActorKind} {artifact : SignatureArtifact}
    {kinds : List EvidenceKind} {db db' : Db} {u : Unit}
    (h : insertSignature actor artifact kinds db = .ok (u, db')) :
    (Tables.artifacts actor).onInsert db artifact = .ok () ∧
      refuse (assertPadesLevelNotOverclaimed db' artifact) = .ok () ∧
      db' = { db with
        artifacts := db.artifacts ++ [artifact]
        evidence := db.evidence ++ kinds.map fun kind => ⟨kind, artifact.id⟩ } := by
  obtain ⟨_, db₁, h₁, h⟩ := Transaction.bind_eq_ok.mp h
  obtain ⟨_, db₂, h₂, h₃⟩ := Transaction.bind_eq_ok.mp h
  obtain ⟨hc, rfl⟩ := Table.insert_eq_ok.mp h₁
  obtain ⟨hdb₂, -⟩ := Table.forEach_insert (fun _ _ => rfl) (fun _ _ _ => rfl) (fun _ => rfl) h₂
  obtain ⟨hd, rfl⟩ := Transaction.check_eq_ok.mp h₃
  exact ⟨hc, hd, hdb₂⟩

theorem dataStep_sign {db db' : Db} {actor : ActorKind} {artifact : SignatureArtifact}
    {kinds : List EvidenceKind} (h : dataStep db (.sign actor artifact kinds) = some db') :
    (Tables.artifacts actor).onInsert db artifact = .ok () ∧
      refuse (assertPadesLevelNotOverclaimed db' artifact) = .ok () ∧
      db' = { db with
        artifacts := db.artifacts ++ [artifact]
        evidence := db.evidence ++ kinds.map fun kind => ⟨kind, artifact.id⟩ } :=
  insertSignature_eq (dataStep_eq_some.mp h)

end Kommunsign
