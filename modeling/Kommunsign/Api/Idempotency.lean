import Kommunsign.Api.EvidencePayload
import Kommunsign.Data.Contracts
import Kommunsign.Infra.JsonStored
import Kommunsign.Infra.ReadCommitted

/-!
# Idempotency keys

A request that changes something carries a key. Its first call runs the operation and keeps the
response with the key; a later call gets the kept response, or is refused if it asks for something
else. A call takes an advisory lock on its key, looks for a row of the key that has not expired, and
inserts one if there is none. The time of a call is the start of its transaction.

* `IdempotencyRow` — a key with what is kept of its response
* `idempotent`, `controlIdempotent` — the wrapper of the data plane and of the control plane
-/

namespace Kommunsign

open Infra ReadCommitted

inductive IdempotencyScopeType where
  | «public»
  | application
  | platform
  | tenant
  deriving DecidableEq

/-- The data plane keeps its keys by tenant, the control plane by a scope. -/
inductive IdempotencyScope where
  | data (tenantId : UUID)
  | control (scopeType : IdempotencyScopeType) (scopeId : String)
  deriving DecidableEq

def IdempotencyScopeType.name : IdempotencyScopeType → String
  | .«public» => "public"
  | .application => "application"
  | .platform => "platform"
  | .tenant => "tenant"

structure IdempotencyKey where
  scope : IdempotencyScope
  operation : String
  key : String
  deriving DecidableEq

/-- `${tenantId}:${operation}:${key}` or `${scopeType}:${scopeId}:${operation}:${key}` -/
def IdempotencyKey.lockText (key : IdempotencyKey) : String :=
  match key.scope with
  | .data tenantId => tenantId ++ ":" ++ key.operation ++ ":" ++ key.key
  | .control scopeType scopeId =>
    scopeType.name ++ ":" ++ scopeId ++ ":" ++ key.operation ++ ":" ++ key.key

/-- The advisory locks of the two databases. -/
inductive IdempotencyLock where
  | data (hash : Int)
  | control (hash : Int)
  deriving DecidableEq

structure IdempotencyRow where
  key : IdempotencyKey
  payloadSha256 : String
  responseBody : Option Json
  createdAt : Int
  expiresAt : Int

/-- `now() + interval '24 hours'` -/
def idempotencyValidity : Int := 86400000

/--
What the response column holds. The data plane has a `jsonb` column, where a `null` response is
`NULL`; the control plane encrypts the text of the response.
-/
def IdempotencyScope.stored : IdempotencyScope → Json → Option Json
  | .data _, .null => none
  | .data _, response => some response.stored
  | .control .., response => some response

inductive IdempotencyError where
  | conflict
  | operationInProgress
  /-- The insert violates the unique key. -/
  | duplicateKey
  deriving DecidableEq

def IdempotencyError.code : IdempotencyError → String
  | .conflict => "IDEMPOTENCY_CONFLICT"
  | .operationInProgress => "IDEMPOTENCY_OPERATION_IN_PROGRESS"
  | .duplicateKey => "23505"

inductive IdempotencyResult where
  | executed (response : Json)
  | replayed (response : Json)
  | refused (error : IdempotencyError)

/-- A call that came to its end. -/
structure IdempotencyAnswer where
  key : IdempotencyKey
  payloadSha256 : String
  startedAt : Int
  result : IdempotencyResult

/-- `α` is the rest of the database. The answers are not stored: the callers have them. -/
structure IdempotencyState (α : Type) where
  rows : List IdempotencyRow
  answers : List IdempotencyAnswer
  rest : α

/-- The statements of an operation, which may fail. -/
inductive Operation (α : Type) where
  | fail
  | respond (response : Json)
  | lock (key : IdempotencyLock) (next : Operation α)
  | statement (write : α → α → α) (next : α → Operation α)

abbrev IdempotencyProgram (α : Type) := Program (IdempotencyState α) IdempotencyLock

section

variable {α : Type}

def Operation.andThen (next : Json → IdempotencyProgram α) : Operation α → IdempotencyProgram α
  | .fail => .abort
  | .respond response => next response
  | .lock key work => .lock key (work.andThen next)
  | .statement write work =>
    .statement (fun seen state => { state with rest := write seen.rest state.rest })
      fun seen => (work seen.rest).andThen next

/-! ## The wrapper -/

/-- `/^[A-Za-z0-9._:-]{8,200}$/` -/
def isIdempotencyKey (key : String) : Bool :=
  decide (8 ≤ key.toList.length) && decide (key.toList.length ≤ 200) &&
    key.toList.all fun c => c.isAlphanum || ['.', '_', ':', '-'].contains c

structure IdempotentCall (α : Type) where
  key : IdempotencyKey
  payloadSha256 : String
  work : Operation α

/-- `expires_at>now()` -/
def IdempotencyRow.isCurrent (row : IdempotencyRow) (key : IdempotencyKey) (now : Int) : Bool :=
  row.key == key && decide (now < row.expiresAt)

/-- What a call is answered that finds a row. -/
def IdempotencyRow.answer (row : IdempotencyRow) (payloadSha256 : String) : IdempotencyResult :=
  if row.payloadSha256 ≠ payloadSha256 then .refused .conflict
  else
    match row.responseBody with
    | none => .refused .operationInProgress
    | some body => .replayed body

/-- A call that ends with an error has written nothing but its own row, which goes with it. -/
def respond (startedAt : Int) (call : IdempotentCall α) (result : IdempotencyResult) :
    IdempotencyProgram α :=
  .statement (fun _ state => { state with
    answers := state.answers ++ [⟨call.key, call.payloadSha256, startedAt, result⟩] })
    fun _ => .commit

/-- The row as it is inserted. -/
def IdempotentCall.row (startedAt : Int) (call : IdempotentCall α) : IdempotencyRow where
  key := call.key
  payloadSha256 := call.payloadSha256
  responseBody := none
  createdAt := startedAt
  expiresAt := startedAt + idempotencyValidity

def isTaken (key : IdempotencyKey) (rows : List IdempotencyRow) : Bool :=
  rows.any fun row => row.key == key

/-- `update … set response_body=… where …` -/
def keepResponse (key : IdempotencyKey) (response : Json) (row : IdempotencyRow) : IdempotencyRow :=
  if row.key = key then { row with responseBody := key.scope.stored response } else row

def insertAndRun (startedAt : Int) (call : IdempotentCall α) : IdempotencyProgram α :=
  .statement (fun seen state => if isTaken call.key seen.rows then state
      else { state with rows := state.rows ++ [call.row startedAt] }) fun seen =>
    if isTaken call.key seen.rows then respond startedAt call (.refused .duplicateKey)
    else
      call.work.andThen fun response =>
        .statement (fun _ state => { state with
            rows := state.rows.map (keepResponse call.key response) }) fun _ =>
          respond startedAt call (.executed response)

/-- `lock` is the advisory lock of a text. -/
def IdempotentCall.program (lock : String → IdempotencyLock) (startedAt : Int)
    (call : IdempotentCall α) : IdempotencyProgram α :=
  if isIdempotencyKey call.key.key && isSha256 call.payloadSha256.toList then
    .lock (lock call.key.lockText) <|
      .statement (fun _ state => state) fun seen =>
        match seen.rows.find? (·.isCurrent call.key startedAt) with
        | some row => respond startedAt call (row.answer call.payloadSha256)
        | none => insertAndRun startedAt call
  else .abort

section

variable (hash : String → Int)

/-- `hash` is `hashtextextended(…, 0)`. -/
def idempotent (startedAt : Int) (tenantId : UUID) (operation key payloadSha256 : String)
    (work : Operation α) : IdempotencyProgram α :=
  IdempotentCall.program (fun text => .data (hash text)) startedAt
    ⟨⟨.data tenantId, operation, key⟩, payloadSha256, work⟩

def controlIdempotent (startedAt : Int) (scopeType : IdempotencyScopeType)
    (scopeId operation key payloadSha256 : String) (work : Operation α) : IdempotencyProgram α :=
  IdempotentCall.program (fun text => .control (hash text)) startedAt
    ⟨⟨.control scopeType scopeId, operation, key⟩, payloadSha256, work⟩

def IdempotencyScope.lock : IdempotencyScope → String → IdempotencyLock
  | .data _, text => .data (hash text)
  | .control .., text => .control (hash text)

/-- The wrapper that the scope of the call belongs to. -/
def IdempotentCall.wrapped (startedAt : Int) (call : IdempotentCall α) : IdempotencyProgram α :=
  match call.key.scope with
  | .data tenantId =>
    idempotent hash startedAt tenantId call.key.operation call.key.key call.payloadSha256 call.work
  | .control scopeType scopeId =>
    controlIdempotent hash startedAt scopeType scopeId call.key.operation call.key.key
      call.payloadSha256 call.work

theorem IdempotentCall.wrapped_eq (startedAt : Int) (call : IdempotentCall α) :
    call.wrapped hash startedAt = call.program (call.key.scope.lock hash) startedAt := by
  obtain ⟨⟨scope, operation, key⟩, payloadSha256, work⟩ := call
  cases scope <;> rfl

end

/-! ## One key -/

/-- What there is of a key: its rows, and what its calls were answered. -/
def onKey (key : IdempotencyKey) (s : IdempotencyState α) :
    List IdempotencyRow × List IdempotencyAnswer :=
  (s.rows.filter (·.key = key), s.answers.filter (·.key = key))

/-- What every call but the first is answered. -/
def IdempotencyRow.later (row : IdempotencyRow) (payloadSha256 : String) (startedAt : Int) :
    IdempotencyResult :=
  if startedAt < row.expiresAt then row.answer payloadSha256 else .refused .duplicateKey

/-- The first answer is that of the call that left the row. -/
inductive KeyState (key : IdempotencyKey) :
    List IdempotencyRow × List IdempotencyAnswer → Prop where
  | unused : KeyState key ([], [])
  | used {row : IdempotencyRow} {response : Json} {answers : List IdempotencyAnswer} :
    row.key = key → row.responseBody = key.scope.stored response →
    row.expiresAt = row.createdAt + idempotencyValidity →
    (∀ answer ∈ answers, answer.result = row.later answer.payloadSha256 answer.startedAt) →
    KeyState key
      ([row], ⟨key, row.payloadSha256, row.createdAt, .executed response⟩ :: answers)

theorem find?_current (rows : List IdempotencyRow) (key : IdempotencyKey) (now : Int) :
    rows.find? (·.isCurrent key now) =
      (rows.filter (·.key = key)).find? fun row => decide (now < row.expiresAt) := by
  rw [List.find?_filter]
  congr 1
  funext row
  simp only [IdempotencyRow.isCurrent, Bool.decide_and, Bool.decide_eq_true]
  rfl

theorem isTaken_eq_false {key : IdempotencyKey} {rows : List IdempotencyRow} :
    isTaken key rows = false ↔ rows.filter (·.key = key) = [] := by
  simp [isTaken, List.filter_eq_nil_iff]

/-! ## What a call leaves of a key -/

theorem onKey_append_answer {key : IdempotencyKey} {s : IdempotencyState α}
    (answer : IdempotencyAnswer) :
    onKey key { s with answers := s.answers ++ [answer] } =
      ((onKey key s).1, (onKey key s).2 ++ if answer.key = key then [answer] else []) := by
  simp only [onKey, List.filter_append, List.filter_cons, List.filter_nil, decide_eq_true_eq]

theorem onKey_append_row {key : IdempotencyKey} {s : IdempotencyState α} (row : IdempotencyRow) :
    onKey key { s with rows := s.rows ++ [row] } =
      ((onKey key s).1 ++ (if row.key = key then [row] else []), (onKey key s).2) := by
  simp only [onKey, List.filter_append, List.filter_cons, List.filter_nil, decide_eq_true_eq]

theorem keepResponse_key (key : IdempotencyKey) (response : Json) (row : IdempotencyRow) :
    (keepResponse key response row).key = row.key := by
  unfold keepResponse
  split <;> rfl

theorem onKey_keepResponse (key at' : IdempotencyKey) (response : Json) (s : IdempotencyState α) :
    onKey key { s with rows := s.rows.map (keepResponse at' response) } =
      ((onKey key s).1.map (keepResponse at' response), (onKey key s).2) := by
  simp only [onKey, List.filter_map, Function.comp_def, keepResponse_key]

theorem map_keepResponse_of_ne {key at' : IdempotencyKey} (hne : at' ≠ key) (response : Json)
    (rows : List IdempotencyRow) :
    (rows.filter (·.key = key)).map (keepResponse at' response) = rows.filter (·.key = key) := by
  rw [List.map_congr_left (g := id), List.map_id]
  intro row hrow
  have hkey : row.key = key := by simpa using (List.mem_filter.mp hrow).2
  exact if_neg fun h => hne (h.symm.trans hkey)

/-! ## Another key -/

theorem untouched_respond {key : IdempotencyKey} {startedAt : Int} {call : IdempotentCall α}
    (hne : call.key ≠ key) (result : IdempotencyResult) :
    Untouched (onKey key) (respond startedAt call result) := by
  intro visible
  refine ⟨fun state => ?_, trivial⟩
  rw [onKey_append_answer, if_neg hne, List.append_nil]

theorem untouched_andThen {key : IdempotencyKey} {next : Json → IdempotencyProgram α}
    (hnext : ∀ response, Untouched (onKey key) (next response)) :
    ∀ work : Operation α, Untouched (onKey key) (work.andThen next)
  | .fail => trivial
  | .respond response => hnext response
  | .lock _ work => untouched_andThen hnext work
  | .statement _ work => fun visible => ⟨fun _ => rfl, untouched_andThen hnext (work visible.rest)⟩

theorem untouched_program {key : IdempotencyKey} {lock : String → IdempotencyLock}
    {startedAt : Int} {call : IdempotentCall α} (hne : call.key ≠ key) :
    Untouched (onKey key) (call.program lock startedAt) := by
  unfold IdempotentCall.program
  split
  · intro visible
    refine ⟨fun state => rfl, ?_⟩
    dsimp only
    split
    · exact untouched_respond hne _
    · intro seen
      refine ⟨fun state => ?_, ?_⟩
      · dsimp only
        split
        · rfl
        · rw [onKey_append_row, IdempotentCall.row, if_neg hne, List.append_nil]
      · dsimp only
        split
        · exact untouched_respond hne _
        · refine untouched_andThen (fun response => ?_) call.work
          intro kept
          refine ⟨fun state => ?_, ?_⟩
          · rw [onKey_keepResponse, onKey, map_keepResponse_of_ne hne]
          · exact untouched_respond hne _
  · trivial

/-! ## The key of the call -/

section

variable {key : IdempotencyKey}

abbrev KeyLocked (key : IdempotencyKey) (program : IdempotencyProgram α)
    (value : List IdempotencyRow × List IdempotencyAnswer) : Prop :=
  Locked (onKey key) (KeyState key) program value

theorem locked_respond {startedAt : Int} {call : IdempotentCall α} {result : IdempotencyResult}
    {value : List IdempotencyRow × List IdempotencyAnswer} (hkey : call.key = key)
    (hvalue : KeyState key
      (value.1, value.2 ++ [⟨key, call.payloadSha256, startedAt, result⟩])) :
    KeyLocked key (respond startedAt call result) value := by
  intro visible hvisible
  refine ⟨fun state hstate => ?_, ?_⟩
  · rw [onKey_append_answer, onKey_append_answer, hstate, hvisible]
  · rw [onKey_append_answer, if_pos hkey, hvisible, hkey]
    exact hvalue

theorem locked_andThen {next : Json → IdempotencyProgram α}
    {value : List IdempotencyRow × List IdempotencyAnswer}
    (hnext : ∀ response, KeyLocked key (next response) value) :
    ∀ work : Operation α, KeyLocked key (work.andThen next) value
  | .fail => trivial
  | .respond response => hnext response
  | .lock _ work => locked_andThen hnext work
  | .statement write work => by
    intro visible hvisible
    refine ⟨fun state hstate => hstate.trans hvisible.symm, ?_⟩
    have hsame : onKey key { visible with rest := write visible.rest visible.rest } = value := hvisible
    rw [hsame]
    exact locked_andThen hnext (work visible.rest)

theorem locked_insert {startedAt : Int} {call : IdempotentCall α} (hkey : call.key = key) :
    KeyLocked key (insertAndRun startedAt call) ([], []) := by
  subst hkey
  intro visible hvisible
  have hfree : ∀ {s : IdempotencyState α}, onKey call.key s = ([], []) →
      isTaken call.key s.rows = false := fun h => isTaken_eq_false.mpr (congrArg Prod.fst h)
  simp only [hfree hvisible, Bool.false_eq_true, if_false]
  have hrow : ∀ {s : IdempotencyState α}, onKey call.key s = ([], []) →
      onKey call.key { s with rows := s.rows ++ [call.row startedAt] } =
        ([call.row startedAt], []) := by
    intro s hs
    rw [onKey_append_row, hs, IdempotentCall.row, if_pos rfl, List.nil_append]
  refine ⟨fun state hstate => by rw [hrow hstate, hrow hvisible], ?_⟩
  rw [hrow hvisible]
  refine locked_andThen (fun response => ?_) call.work
  intro seen hseen
  refine ⟨fun state hstate => by rw [onKey_keepResponse, onKey_keepResponse, hstate, hseen], ?_⟩
  rw [onKey_keepResponse, hseen]
  refine locked_respond rfl ?_
  have hkept : keepResponse call.key response (call.row startedAt) =
      { call.row startedAt with responseBody := call.key.scope.stored response } := if_pos rfl
  rw [List.map_cons, List.map_nil, hkept, List.nil_append]
  exact KeyState.used rfl rfl rfl fun answer hanswer => absurd hanswer List.not_mem_nil

theorem locked_call {startedAt : Int} {call : IdempotentCall α} (hkey : call.key = key)
    {value : List IdempotencyRow × List IdempotencyAnswer} (hvalue : KeyState key value) :
    KeyLocked key (.statement (fun _ state => state) fun seen =>
      match seen.rows.find? (·.isCurrent call.key startedAt) with
      | some row => respond startedAt call (row.answer call.payloadSha256)
      | none => insertAndRun startedAt call) value := by
  intro visible hvisible
  refine ⟨fun state hstate => hstate.trans hvisible.symm, ?_⟩
  have hrows : visible.rows.filter (·.key = key) = value.1 := congrArg Prod.fst hvisible
  dsimp only
  rw [hvisible, hkey, find?_current, hrows]
  cases hvalue with
  | unused => exact locked_insert hkey
  | @used row response answers hrow hbody hexpires hlater =>
    have happend : ∀ result, result = row.later call.payloadSha256 startedAt →
        KeyState key ([row], (⟨key, row.payloadSha256, row.createdAt, .executed response⟩ ::
          answers) ++ [⟨key, call.payloadSha256, startedAt, result⟩]) := by
      intro result hresult
      refine KeyState.used hrow hbody hexpires fun answer hanswer => ?_
      rcases List.mem_append.mp hanswer with hanswer | hanswer
      · exact hlater answer hanswer
      · rw [List.mem_singleton.mp hanswer]
        exact hresult
    by_cases hcurrent : startedAt < row.expiresAt
    · rw [List.find?_cons_of_pos (by simpa using hcurrent)]
      exact locked_respond hkey (happend _ (if_pos hcurrent).symm)
    · -- the row has expired, and is in the way of the insert
      rw [List.find?_cons_of_neg (by simpa using hcurrent), List.find?_nil]
      intro seen hseen
      have htaken : ∀ {s : IdempotencyState α},
          (onKey key s).1 = [row] → isTaken call.key s.rows = true := by
        intro s hs
        rw [← Bool.not_eq_false, isTaken_eq_false, hkey]
        intro hnil
        exact absurd (hs.symm.trans hnil) (List.cons_ne_nil _ _)
      simp only [htaken (congrArg Prod.fst hseen), if_true]
      refine ⟨fun state hstate => by rw [hstate, hseen], ?_⟩
      rw [hseen]
      exact locked_respond hkey (happend _ (if_neg hcurrent).symm)

end

end

/-! ## Interleavings -/

inductive IdempotencyAction (α : Type) where
  | begin (i : Nat) (startedAt : Int) (call : IdempotentCall α)
  | next (i : Nat)
  | disconnect (i : Nat)

section

variable {α : Type}

def IdempotencyAction.action (hash : String → Int) :
    IdempotencyAction α → Action (IdempotencyState α) IdempotencyLock
  | .begin i startedAt call => .begin i (call.wrapped hash startedAt)
  | .next i => .next i
  | .disconnect i => .disconnect i

/-- The database after some interleaving of calls, before which no key was used. -/
def idempotencyRun (hash : String → Int) (rest : α) (actions : List (IdempotencyAction α)) :
    Option (System (IdempotencyState α) IdempotencyLock) :=
  run step (idle ⟨[], [], rest⟩) (actions.map (IdempotencyAction.action hash))

theorem keyState_of_run {hash : String → Int} {rest : α} {actions : List (IdempotencyAction α)}
    {s : System (IdempotencyState α) IdempotencyLock}
    (hr : idempotencyRun hash rest actions = some s) (key : IdempotencyKey) :
    KeyState key (onKey key s.committed) := by
  refine guarded_invariant (onKey key) (key.scope.lock hash key.lockText) (KeyState key)
    KeyState.unused (fun i program hmem => ?_) hr
  obtain ⟨action, -, heq⟩ := List.mem_map.mp hmem
  cases action with
  | next j => exact nomatch heq
  | disconnect j => exact nomatch heq
  | begin j startedAt call =>
    cases heq
    rw [IdempotentCall.wrapped_eq]
    by_cases hkey : call.key = key
    · unfold IdempotentCall.program
      split
      · rw [Unlocked, if_pos (by rw [hkey])]
        exact fun value hvalue => locked_call hkey hvalue
      · trivial
    · exact (untouched_program hkey).unlocked

end

end Kommunsign
