import Kommunsign.Data.Contracts
import Kommunsign.Data.Guards
import Kommunsign.Infra.Run

/-!
# The ledger of the key rotations

A rotation, the columns it re-encrypts, and the rows that carry the version of their key. Every
statement on them that the constraints and the triggers let pass is a step.

* `assertKeyRotationTransition`, `assertKeyRotationComplete` — the guards of a rotation
* `assertKeyRotationProgressMonotonic` — the guard of its columns
-/

namespace Kommunsign

open Infra

inductive RotationState where
  | PLANNED | DUAL_READ | REENCRYPTING | VERIFIED | COMPLETED | ROLLED_BACK
  deriving DecidableEq

def RotationState.text : RotationState → String
  | .PLANNED => "PLANNED"
  | .DUAL_READ => "DUAL_READ"
  | .REENCRYPTING => "REENCRYPTING"
  | .VERIFIED => "VERIFIED"
  | .COMPLETED => "COMPLETED"
  | .ROLLED_BACK => "ROLLED_BACK"

def RotationState.allowed : RotationState → List RotationState
  | .PLANNED => [.DUAL_READ, .ROLLED_BACK]
  | .DUAL_READ => [.REENCRYPTING, .ROLLED_BACK]
  | .REENCRYPTING => [.VERIFIED, .ROLLED_BACK]
  | .VERIFIED => [.COMPLETED, .ROLLED_BACK]
  | .COMPLETED | .ROLLED_BACK => []

/-- The states that say that nothing is left under the old key. -/
def RotationState.isVerified : RotationState → Bool
  | .VERIFIED | .COMPLETED => true
  | .PLANNED | .DUAL_READ | .REENCRYPTING | .ROLLED_BACK => false

/-- No other rotation of the purpose may be live at the same time. -/
def RotationState.isLive : RotationState → Bool
  | .COMPLETED | .ROLLED_BACK => false
  | .PLANNED | .DUAL_READ | .REENCRYPTING | .VERIFIED => true

structure KeyRotation where
  id : UUID
  purpose : String
  state : RotationState
  fromVersion : Int
  toVersion : Int
  completedAt : Option Int
  rolledBackReason : Option String
  deriving DecidableEq

structure KeyRotationColumn where
  keyRotationId : UUID
  tableName : String
  columnName : String
  rowsTotal : Int
  rowsReencrypted : Int
  deriving DecidableEq

/-- The primary key within a tenant. -/
def KeyRotationColumn.key (column : KeyRotationColumn) : UUID × String × String :=
  (column.keyRotationId, column.tableName, column.columnName)

/-- A row of a table that has a column `key_version`. -/
structure EncryptedRow where
  tableName : String
  id : UUID
  keyVersion : Int
  deriving DecidableEq

structure KeyLedger where
  rotations : List KeyRotation
  columns : List KeyRotationColumn
  rows : List EncryptedRow
  deriving DecidableEq

/-- The columns that are recorded for a rotation. -/
def KeyLedger.columnsOf (ledger : KeyLedger) (keyRotationId : UUID) : List KeyRotationColumn :=
  ledger.columns.filter (·.keyRotationId == keyRotationId)

/-! ## The guards -/

/-- `app.assert_key_rotation_transition`. -/
def assertKeyRotationTransition (old new : KeyRotation) : Checks :=
  assertTransition RotationState.allowed old.state new.state
    ("KEY_ROTATION_TRANSITION_INVALID: " ++ old.state.text ++ " -> " ++ new.state.text)

/-- The rows that the columns of the rotation still have to go through. -/
def KeyLedger.outstanding (ledger : KeyLedger) (keyRotationId : UUID) : Int :=
  ((ledger.columnsOf keyRotationId).map fun column =>
    column.rowsTotal - column.rowsReencrypted).sum

/-- `app.assert_key_rotation_complete`. -/
def assertKeyRotationComplete (ledger : KeyLedger) (new : KeyRotation) : Checks :=
  raises (new.state.isVerified && 0 < ledger.outstanding new.id)
    ("KEY_ROTATION_INCOMPLETE: " ++ toString (ledger.outstanding new.id) ++
      " row(s) still hold the previous key") ++
  raises (new.state.isVerified && (ledger.columnsOf new.id).isEmpty)
    "KEY_ROTATION_NOTHING_VERIFIED: no columns were recorded for this rotation"

def keyRotationConstraints (others : List KeyRotation) (new : KeyRotation) : Checks :=
  violates (new.purpose == "") "key_rotations_purpose_check" ++
  violates (new.fromVersion ≤ 0) "key_rotations_from_version_check" ++
  violates (new.toVersion ≤ 0) "key_rotations_to_version_check" ++
  violates (new.toVersion ≤ new.fromVersion) "key_rotations_moves_forward" ++
  violates (new.state == .COMPLETED && new.completedAt.isNone)
    "key_rotations_completion_has_time" ++
  violates (new.state == .ROLLED_BACK &&
    new.rolledBackReason.all fun reason => reason.toList.all (· == ' '))
    "key_rotations_rollback_has_reason" ++
  violates (others.any fun rotation => rotation.id == new.id) "key_rotations_pkey" ++
  violates (new.state.isLive && others.any fun rotation =>
    rotation.state.isLive && rotation.purpose == new.purpose) "key_rotations_one_live_per_purpose"

/-- The rotations. The completeness is only checked by an update that sets the state. -/
def keyRotations (setsState : Bool) : Table KeyLedger Failure KeyRotation where
  rows := KeyLedger.rotations
  put rows ledger := { ledger with rotations := rows }
  onInsert ledger new := refuse (keyRotationConstraints ledger.rotations new)
  onUpdate ledger old new := refuse (
    (if setsState then assertKeyRotationComplete ledger new else []) ++
    assertKeyRotationTransition old new ++
    keyRotationConstraints (ledger.rotations.filter fun rotation => rotation.id != old.id) new ++
    violates (new.id != old.id && !(ledger.columnsOf old.id).isEmpty)
      "key_rotation_columns_tenant_id_key_rotation_id_fkey")
  onDelete _ _ := .ok ()

/-- `app.assert_key_rotation_progress_monotonic`. -/
def assertKeyRotationProgressMonotonic (old new : KeyRotationColumn) : Checks :=
  raises (new.rowsReencrypted < old.rowsReencrypted) "KEY_ROTATION_PROGRESS_REWOUND"

def keyRotationColumnConstraints (rotations : List KeyRotation)
    (others : List KeyRotationColumn) (new : KeyRotationColumn) : Checks :=
  violates (new.rowsTotal < 0) "key_rotation_columns_rows_total_check" ++
  violates (new.rowsReencrypted < 0) "key_rotation_columns_rows_reencrypted_check" ++
  violates (new.rowsTotal < new.rowsReencrypted) "key_rotation_columns_within_total" ++
  violates (others.any fun column => column.key == new.key) "key_rotation_columns_pkey" ++
  violates (!rotations.any fun rotation => rotation.id == new.keyRotationId)
    "key_rotation_columns_tenant_id_key_rotation_id_fkey"

def keyRotationColumns : Table KeyLedger Failure KeyRotationColumn where
  rows := KeyLedger.columns
  put rows ledger := { ledger with columns := rows }
  onInsert ledger new := refuse (keyRotationColumnConstraints ledger.rotations ledger.columns new)
  onUpdate ledger old new := refuse (
    assertKeyRotationProgressMonotonic old new ++
    keyRotationColumnConstraints ledger.rotations
      (ledger.columns.filter fun column => column.key != old.key) new)
  onDelete _ _ := .ok ()

/-- `app.stamp_key_version`: the version of the session, or the first one. -/
def stampKeyVersion (session : Option Int) (new : EncryptedRow) : EncryptedRow :=
  { new with keyVersion := session.getD 1 }

/-- The tables with encrypted columns. Only their key version is looked at. -/
def encryptedRows : Table KeyLedger Failure EncryptedRow where
  rows := KeyLedger.rows
  put rows ledger := { ledger with rows := rows }
  onInsert ledger new := refuse (
    violates (new.keyVersion ≤ 0) (new.tableName ++ "_key_version_positive") ++
    violates (ledger.rows.any fun row => row.tableName == new.tableName && row.id == new.id)
      (new.tableName ++ "_pkey"))
  onUpdate _ _ new := refuse (
    violates (new.keyVersion ≤ 0) (new.tableName ++ "_key_version_positive"))
  onDelete _ _ := .ok ()

/-! ## The statements -/

inductive LedgerStep where
  | insertRotation (new : KeyRotation)
  /-- An update that names the state or not, and sets the other columns as it likes. -/
  | updateRotation (id : UUID) (setsState : Bool) (f : KeyRotation → KeyRotation)
  | insertColumn (new : KeyRotationColumn)
  | updateColumn (key : UUID × String × String) (f : KeyRotationColumn → KeyRotationColumn)
  /-- A row is written by a session with a key version or without one. -/
  | insertRow (session : Option Int) (new : EncryptedRow)
  | updateRow (tableName : String) (id : UUID) (keyVersion : Int)

/-- What an update makes of a rotation: the state stays when it is not set. -/
def updatedRotation (setsState : Bool) (f : KeyRotation → KeyRotation) (old : KeyRotation) :
    KeyRotation :=
  if setsState then f old else { f old with state := old.state }

def ledgerStep (ledger : KeyLedger) : LedgerStep → Option KeyLedger
  | .insertRotation new => ((keyRotations true).insert new).outcome ledger
  | .updateRotation id setsState f =>
    ((keyRotations setsState).update (·.id == id) (updatedRotation setsState f)).outcome ledger
  | .insertColumn new => (keyRotationColumns.insert new).outcome ledger
  | .updateColumn key f => (keyRotationColumns.update (·.key == key) f).outcome ledger
  | .insertRow session new => (encryptedRows.insert (stampKeyVersion session new)).outcome ledger
  | .updateRow tableName id keyVersion =>
    (encryptedRows.update (fun row => row.tableName == tableName && row.id == id)
      fun row => { row with keyVersion := keyVersion }).outcome ledger

end Kommunsign
