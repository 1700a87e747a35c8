import Mathlib.Data.Prod.Lex
import Kommunsign.Data.Contracts
import Kommunsign.Infra.JsonStored
import Kommunsign.Infra.ReadCommitted

/-!
# The audit log of the control plane

Every component that appends to the log does so with the same three statements: it takes one
advisory lock, asks for the hash of the latest row, and inserts its own row with that hash in it.
The latest row is the one with the greatest time, and among those of one time the greatest id. The
time of a row is the start of its transaction, and its id is drawn at random.

* `ControlAuditRow` — a row as it is stored
* `auditTransaction` — a transaction with its appends
-/

namespace Kommunsign

open Infra ReadCommitted

structure ControlAuditRow where
  id : RowId
  tenantId : Option UUID
  actorId : Option UUID
  eventType : String
  /-- As `jsonb` gives it back. -/
  payload : Json
  occurredAt : Int
  previousEventHash : Text
  eventHash : Text

/-- `order by occurred_at,id` -/
abbrev AuditPosition := Int ×ₗ RowId

def ControlAuditRow.position (row : ControlAuditRow) : AuditPosition := toLex (row.occurredAt, row.id)

/-- `order by occurred_at desc,id desc limit 1` -/
def latest : List ControlAuditRow → Option ControlAuditRow
  | [] => none
  | row :: rows =>
    match latest rows with
    | none => some row
    | some last => if row.position < last.position then some last else some row

/-- `'0'.repeat(64)` -/
def zeroHash : Text := List.replicate 64 '0'

/-- `previous.rows[0]?.event_hash ?? '0'.repeat(64)` -/
def previousHash (rows : List ControlAuditRow) : Text :=
  ((latest rows).map (·.eventHash)).getD zeroHash

/-! ## The appenders -/

/-- An object of the source has no name twice. -/
structure AuditPayload where
  json : Json
  wellNamed : json.WellNamed

/-- What an appender is asked to record, and the id that its row is given. -/
structure AuditEntry where
  id : RowId
  tenantId : Option UUID
  actorId : Option UUID
  eventType : String
  payload : AuditPayload

def nullable (id : Option UUID) : Json := (id.map Json.lit).getD .null

/-- `{ tenantId, actorId, eventType, payload, previousHash }` -/
def auditMaterial (entry : AuditEntry) (previous : Text) : Json :=
  .object [("tenantId", nullable entry.tenantId), ("actorId", nullable entry.actorId),
    ("eventType", .lit entry.eventType), ("payload", entry.payload.json),
    ("previousHash", .str previous)]

/-- `canonicalJson` -/
def canonicalText (value : Json) : Text := value.canonical.render

/-- `JSON.stringify`: members in the order they were written in. -/
def stringify (value : Json) : Text := value.render

inductive AuditLock where
  | controlAuditChain
  deriving DecidableEq

abbrev AuditProgram := Program (List ControlAuditRow) AuditLock

section

variable (sha256Hex : Text → Text)

def auditRow (text : Json → Text) (startedAt : Int) (entry : AuditEntry) (previous : Text) :
    ControlAuditRow where
  id := entry.id
  tenantId := entry.tenantId
  actorId := entry.actorId
  eventType := entry.eventType
  payload := entry.payload.json.stored
  occurredAt := startedAt
  previousEventHash := previous
  eventHash := sha256Hex (text (auditMaterial entry previous))

/-- The primary key and the unique hash. -/
def violatesKey (rows : List ControlAuditRow) (row : ControlAuditRow) : Bool :=
  rows.any fun r => r.id == row.id || r.eventHash == row.eventHash

/-- Lock, read, insert; `text` is how the hash material is written. -/
def appendAudit (text : Json → Text) (startedAt : Int) (entry : AuditEntry) (next : AuditProgram) :
    AuditProgram :=
  .lock .controlAuditChain <|
    .statement (fun _ rows => rows) fun seen =>
      let row := auditRow sha256Hex text startedAt entry (previousHash seen)
      .statement (fun rows state => if violatesKey rows row then state else state ++ [row])
        fun rows => if violatesKey rows row then .abort else next

def Authentication.appendControlAudit (startedAt : Int) (entry : AuditEntry)
    (next : AuditProgram) : AuditProgram :=
  appendAudit sha256Hex canonicalText startedAt entry next

def Onboarding.appendControlAudit (startedAt : Int) (entry : AuditEntry)
    (next : AuditProgram) : AuditProgram :=
  appendAudit sha256Hex stringify startedAt entry next

/-- A worker names neither a tenant nor an actor. -/
def Workers.appendControlAudit (startedAt : Int) (id : RowId) (eventType : String)
    (payload : AuditPayload) (next : AuditProgram) : AuditProgram :=
  appendAudit sha256Hex stringify startedAt ⟨id, none, none, eventType, payload⟩ next

def Bootstrap.appendControlAudit (startedAt : Int) (id : RowId) (actorId : UUID)
    (eventType : String) (payload : AuditPayload) (next : AuditProgram) : AuditProgram :=
  appendAudit sha256Hex canonicalText startedAt ⟨id, none, some actorId, eventType, payload⟩ next

inductive AuditCall where
  | authentication (entry : AuditEntry)
  | onboarding (entry : AuditEntry)
  | worker (id : RowId) (eventType : String) (payload : AuditPayload)
  | bootstrap (id : RowId) (actorId : UUID) (eventType : String) (payload : AuditPayload)

def AuditCall.append (startedAt : Int) (next : AuditProgram) : AuditCall → AuditProgram
  | .authentication entry => Authentication.appendControlAudit sha256Hex startedAt entry next
  | .onboarding entry => Onboarding.appendControlAudit sha256Hex startedAt entry next
  | .worker id eventType payload =>
    Workers.appendControlAudit sha256Hex startedAt id eventType payload next
  | .bootstrap id actorId eventType payload =>
    Bootstrap.appendControlAudit sha256Hex startedAt id actorId eventType payload next

/-- A transaction's appends; its other statements write elsewhere, and may fail at any point. -/
def auditTransaction (startedAt : Int) : List AuditCall → AuditProgram
  | [] => .commit
  | call :: calls => call.append sha256Hex startedAt (auditTransaction startedAt calls)

end

/-- How a call writes its hash material, and what it records. -/
def AuditCall.text : AuditCall → Json → Text
  | .authentication _ | .bootstrap .. => canonicalText
  | .onboarding _ | .worker .. => stringify

def AuditCall.entry : AuditCall → AuditEntry
  | .authentication entry | .onboarding entry => entry
  | .worker id eventType payload => ⟨id, none, none, eventType, payload⟩
  | .bootstrap id actorId eventType payload => ⟨id, none, some actorId, eventType, payload⟩

theorem AuditCall.append_eq {sha256Hex : Text → Text} {startedAt : Int} {next : AuditProgram}
    (call : AuditCall) :
    call.append sha256Hex startedAt next =
      appendAudit sha256Hex call.text startedAt call.entry next := by
  cases call <;> rfl

/-! ## What the table looks like -/

/-- The row that a call inserts into a table. -/
def AuditCall.row (sha256Hex : Text → Text) (startedAt : Int) (call : AuditCall)
    (rows : List ControlAuditRow) : ControlAuditRow :=
  auditRow sha256Hex call.text startedAt call.entry (previousHash rows)

/--
The rows in the order they were inserted in. Each was made from the ones before it by a call of
`calls`.
-/
inductive Appended (sha256Hex : Text → Text) (calls : AuditCall → Prop) :
    List ControlAuditRow → Prop where
  | nil : Appended sha256Hex calls []
  | snoc {rows : List ControlAuditRow} (startedAt : Int) (call : AuditCall) :
    Appended sha256Hex calls rows → calls call →
    violatesKey rows (call.row sha256Hex startedAt rows) = false →
    Appended sha256Hex calls (rows ++ [call.row sha256Hex startedAt rows])

section

variable {sha256Hex : Text → Text} {calls : AuditCall → Prop}

theorem locked_auditTransaction (startedAt : Int) {appends : List AuditCall}
    (happends : ∀ call ∈ appends, calls call) :
    ∀ rows, Appended sha256Hex calls rows →
      Locked id (Appended sha256Hex calls) (auditTransaction sha256Hex startedAt appends) rows := by
  induction appends with
  | nil => exact fun rows h => h
  | cons call appends ih =>
    intro rows h
    rw [auditTransaction, AuditCall.append_eq]
    intro seen hseen
    obtain rfl : seen = rows := hseen
    refine ⟨fun state hstate => hstate, fun visible hvisible => ?_⟩
    obtain rfl : visible = seen := hvisible
    refine ⟨fun state hstate => by rw [show state = visible from hstate], ?_⟩
    cases hkey : violatesKey visible (call.row sha256Hex startedAt visible) with
    | true =>
      rw [AuditCall.row] at hkey
      simp only [hkey, if_true]
      trivial
    | false =>
      have hcall := happends call List.mem_cons_self
      have hnext := ih (fun c hc => happends c (List.mem_cons_of_mem call hc)) _
        (Appended.snoc startedAt call h hcall hkey)
      rw [AuditCall.row] at hkey hnext
      simp only [hkey]
      exact hnext

theorem unlocked_auditTransaction (startedAt : Int) {appends : List AuditCall}
    (happends : ∀ call ∈ appends, calls call) :
    Unlocked id AuditLock.controlAuditChain (Appended sha256Hex calls)
      (auditTransaction sha256Hex startedAt appends) := by
  cases appends with
  | nil => trivial
  | cons call appends =>
    rw [auditTransaction, AuditCall.append_eq, appendAudit, Unlocked, if_pos rfl]
    intro rows h
    have hlocked := locked_auditTransaction startedAt happends rows h
    rw [auditTransaction, AuditCall.append_eq] at hlocked
    exact hlocked

end

/-! ## Interleavings -/

/-- A client opens a transaction at some time, runs its next statement, or goes away. -/
inductive AuditAction where
  | begin (i : Nat) (startedAt : Int) (appends : List AuditCall)
  | next (i : Nat)
  | disconnect (i : Nat)

def AuditAction.action (sha256Hex : Text → Text) :
    AuditAction → Action (List ControlAuditRow) AuditLock
  | .begin i startedAt appends => .begin i (auditTransaction sha256Hex startedAt appends)
  | .next i => .next i
  | .disconnect i => .disconnect i

/-- What an action appends. -/
def AuditAction.appends : AuditAction → List AuditCall
  | .begin _ _ appends => appends
  | _ => []

/-- The log after some interleaving of transactions, from an empty table. -/
def auditRun (sha256Hex : Text → Text) (actions : List AuditAction) :
    Option (System (List ControlAuditRow) AuditLock) :=
  run step (idle []) (actions.map (AuditAction.action sha256Hex))

theorem appended_of_run {sha256Hex : Text → Text} {calls : AuditCall → Prop}
    {actions : List AuditAction} {s : System (List ControlAuditRow) AuditLock}
    (hcalls : ∀ action ∈ actions, ∀ call ∈ action.appends, calls call)
    (hr : auditRun sha256Hex actions = some s) : Appended sha256Hex calls s.committed := by
  refine guarded_invariant id AuditLock.controlAuditChain (Appended sha256Hex calls) Appended.nil
    (fun i program hmem => ?_) hr
  obtain ⟨action, haction, heq⟩ := List.mem_map.mp hmem
  cases action with
  | begin j startedAt appends =>
    cases heq
    exact unlocked_auditTransaction startedAt (hcalls _ haction)
  | next j => exact nomatch heq
  | disconnect j => exact nomatch heq

end Kommunsign
