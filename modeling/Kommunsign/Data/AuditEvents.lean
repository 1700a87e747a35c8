import Kommunsign.Data.Contracts
import Kommunsign.Infra.Jsonb
import Kommunsign.Infra.ReadCommitted
import Kommunsign.Infra.Timestamptz

/-!
# The audit log of the tenants

`audit.append_event` appends to the chain of a tenant. It makes the head of the chain if there is
none, locks it, inserts the next row with the hash of the head in it, and moves the head there. The
hash of a row is of the text of all its columns.

* `AuditEvent`, `AuditChainHead` — a row, and the end of a chain
* `AuditEvent.material` — what is hashed
-/

namespace Kommunsign

open Infra ReadCommitted

structure AuditEvent where
  tenantId : UUID
  sequence : Int
  category : String
  eventType : String
  actorType : String
  actorId : Option UUID
  resourceType : Option String
  resourceId : Option UUID
  payload : Jsonb
  occurredAt : Timestamptz
  previousEventHash : Text
  eventHash : Text
  hashVersion : Int
  hashMaterial : Text

structure AuditChainHead where
  lastSequence : Int
  lastEventHash : Text
  deriving DecidableEq

/-- The defaults of the columns. -/
def firstHead : AuditChainHead := ⟨0, List.replicate 64 '0'⟩

structure AuditStore where
  heads : UUID → Option AuditChainHead
  events : List AuditEvent

def orNull (value : Option String) : Json := (value.map Json.lit).getD .null

/-- The members of `canonical_payload`. -/
def AuditEvent.members (row : AuditEvent) : List (String × Json) :=
  [("hashVersion", .num row.hashVersion), ("previousEventHash", .str row.previousEventHash),
    ("tenantId", .lit row.tenantId), ("sequence", .num row.sequence),
    ("category", .lit row.category), ("eventType", .lit row.eventType),
    ("actorType", .lit row.actorType), ("actorId", orNull row.actorId),
    ("resourceType", orNull row.resourceType), ("resourceId", orNull row.resourceId),
    ("payload", row.payload.json), ("occurredAt", (row.occurredAt.toChar.map Json.str).getD .null)]

/-- `canonical_payload::text` -/
def AuditEvent.material (row : AuditEvent) : Text := (Json.object row.members).stored.spaced

/-! ## What may be recorded -/

def forbiddenNames : List Text :=
  ["personalnumber", "personnummer", "ssn", "nationalid", "email", "emailaddress", "recipient",
    "recipientemail", "address", "postaladdress", "streetaddress", "phone", "phonenumber",
    "telephone", "fullname", "displayname", "signername", "givenname", "surname"].map String.toList

section

-- the database's own, which depends on its collation
variable (lower : Text → Text)

mutual

/-- `audit.assert_payload_carries_no_identity` fails. -/
def carriesIdentity : Json → Bool
  | .obj members => membersCarryIdentity members
  | .arr items => itemsCarryIdentity items
  | _ => false

def itemsCarryIdentity : List Json → Bool
  | [] => false
  | item :: items => carriesIdentity item || itemsCarryIdentity items

def membersCarryIdentity : List (Text × Json) → Bool
  | [] => false
  | (name, value) :: members =>
    forbiddenNames.contains (lower name) || carriesIdentity value || membersCarryIdentity members

end

/-! ## An append -/

/-- The arguments of a call. -/
structure EventCall where
  tenantId : UUID
  category : String
  eventType : String
  actorType : String
  actorId : Option UUID
  resourceType : Option String
  resourceId : Option UUID
  payload : Jsonb
  occurredAt : Timestamptz

variable (sha256Hex : Text → Text)

/-- The row that follows a head. -/
def EventCall.row (call : EventCall) (head : AuditChainHead) : AuditEvent :=
  let row : AuditEvent :=
    { tenantId := call.tenantId
      sequence := head.lastSequence + 1
      category := call.category
      eventType := call.eventType
      actorType := call.actorType
      actorId := call.actorId
      resourceType := call.resourceType
      resourceId := call.resourceId
      payload := call.payload
      occurredAt := call.occurredAt
      previousEventHash := head.lastEventHash
      eventHash := []
      hashVersion := 2
      hashMaterial := [] }
  { row with eventHash := sha256Hex row.material, hashMaterial := row.material }

/-- The unique sequence and the unique hash of a tenant. -/
def violatesEventKey (events : List AuditEvent) (row : AuditEvent) : Bool :=
  events.any fun r => r.tenantId == row.tenantId &&
    (r.sequence == row.sequence || r.eventHash == row.eventHash)

namespace AuditStore

/-- `on conflict (tenant_id) do nothing` -/
def insertHead (t : UUID) (s : AuditStore) : AuditStore :=
  { s with heads := Function.update s.heads t (some ((s.heads t).getD firstHead)) }

def insertEvent (row : AuditEvent) (s : AuditStore) : AuditStore :=
  { s with events := s.events ++ [row] }

def updateHead (t : UUID) (head : AuditChainHead) (s : AuditStore) : AuditStore :=
  { s with heads := Function.update s.heads t (some head) }

/-- The chain of a tenant. -/
def chain (t : UUID) (s : AuditStore) : Option AuditChainHead × List AuditEvent :=
  (s.heads t, s.events.filter (·.tenantId = t))

end AuditStore

/-- Locks are on the heads, by tenant. -/
abbrev EventProgram := Program AuditStore UUID

/--
`audit.append_event`. The head that an open transaction has inserted makes others wait as its lock
does, so the lock is taken here in front of both.
-/
def appendEvent (currentTenantId : UUID) (call : EventCall) (next : EventProgram) : EventProgram :=
  if call.tenantId ≠ currentTenantId then .abort
  else if call.category ∉ ["TECHNICAL", "BUSINESS"] then .abort
  else if carriesIdentity lower call.payload.json then .abort
  else
    .lock call.tenantId <|
      .statement (fun _ state => state.insertHead call.tenantId) fun _ =>
        .statement (fun _ state => state) fun seen =>
          match seen.heads call.tenantId with
          | none => .abort
          | some head =>
            let row := call.row sha256Hex head
            .statement
              (fun visible state =>
                if violatesEventKey visible.events row then state else state.insertEvent row)
              fun visible =>
                if violatesEventKey visible.events row then .abort
                else .statement
                  (fun _ state => state.updateHead call.tenantId ⟨row.sequence, row.eventHash⟩)
                  fun _ => next

/-- The appends of a transaction; its other statements write elsewhere, and may fail at any point. -/
def eventTransaction (currentTenantId : UUID) : List EventCall → EventProgram
  | [] => .commit
  | call :: calls => appendEvent lower sha256Hex currentTenantId call
    (eventTransaction currentTenantId calls)

end

/-! ## Recomputing a chain -/

section

variable (sha256Hex : Text → Text)

/-- The head after one more row. -/
def recomputeRow (head : AuditChainHead) (row : AuditEvent) : Option AuditChainHead :=
  if row.sequence = head.lastSequence + 1 ∧ row.previousEventHash = head.lastEventHash then
    some ⟨row.sequence, sha256Hex row.material⟩
  else none

/-- The head of a chain with these rows, or none when their numbers or hashes do not follow. -/
def recompute (rows : List AuditEvent) : Option AuditChainHead :=
  rows.foldlM (recomputeRow sha256Hex) firstHead

end

/-! ## Every interleaving -/

section

variable {lower sha256Hex : Text → Text} {t : UUID} {call : EventCall} {calls : List EventCall}

namespace AuditStore

theorem chain_insertHead (s : AuditStore) :
    (s.insertHead t).chain t = (some ((s.chain t).1.getD firstHead), (s.chain t).2) := by
  simp [insertHead, chain]

theorem chain_insertEvent {row : AuditEvent} (h : row.tenantId = t) (s : AuditStore) :
    (s.insertEvent row).chain t = ((s.chain t).1, (s.chain t).2 ++ [row]) := by
  simp [insertEvent, chain, h]

theorem chain_updateHead (head : AuditChainHead) (s : AuditStore) :
    (s.updateHead t head).chain t = (some head, (s.chain t).2) := by
  simp [updateHead, chain]

theorem chain_insertHead_of_ne {u : UUID} (h : t ≠ u) (s : AuditStore) :
    (s.insertHead u).chain t = s.chain t := by
  simp [insertHead, chain, h]

theorem chain_insertEvent_of_ne {row : AuditEvent} (h : row.tenantId ≠ t) (s : AuditStore) :
    (s.insertEvent row).chain t = s.chain t := by
  simp [insertEvent, chain, h]

theorem chain_updateHead_of_ne {u : UUID} (h : t ≠ u) (head : AuditChainHead) (s : AuditStore) :
    (s.updateHead u head).chain t = s.chain t := by
  simp [updateHead, chain, h]

end AuditStore

/-- The rows lead to the head, and each has the hash of its columns. -/
structure Recomputes (sha256Hex : Text → Text) (chain : Option AuditChainHead × List AuditEvent) :
    Prop where
  head : recompute sha256Hex chain.2 = some (chain.1.getD firstHead)
  hashes : ∀ row ∈ chain.2, row.eventHash = sha256Hex row.material

theorem recomputes_nil : Recomputes sha256Hex (none, []) :=
  ⟨rfl, fun _ hrow => absurd hrow List.not_mem_nil⟩

theorem recompute_append (rows : List AuditEvent) (row : AuditEvent) :
    recompute sha256Hex (rows ++ [row]) =
      (recompute sha256Hex rows).bind fun head => recomputeRow sha256Hex head row := by
  unfold recompute
  rw [List.foldlM_append]
  cases rows.foldlM (recomputeRow sha256Hex) firstHead with
  | none => rfl
  | some head =>
    show (recomputeRow sha256Hex head row).bind some = recomputeRow sha256Hex head row
    exact Option.bind_fun_some _

theorem Recomputes.append {head : AuditChainHead} {rows : List AuditEvent}
    (h : Recomputes sha256Hex (some head, rows)) (call : EventCall) :
    Recomputes sha256Hex (some ⟨(call.row sha256Hex head).sequence,
      (call.row sha256Hex head).eventHash⟩, rows ++ [call.row sha256Hex head]) := by
  constructor
  · rw [recompute_append, h.head]
    show recomputeRow sha256Hex head (call.row sha256Hex head) = _
    unfold recomputeRow
    rw [if_pos ⟨rfl, rfl⟩]
    rfl
  · intro row hrow
    rcases List.mem_append.mp hrow with hrow | hrow
    · exact h.hashes row hrow
    · rw [List.mem_singleton.mp hrow]
      rfl

theorem locked_eventTransaction : ∀ {calls : List EventCall}
    (chain : Option AuditChainHead × List AuditEvent), Recomputes sha256Hex chain →
      Locked (AuditStore.chain t) (Recomputes sha256Hex) (eventTransaction lower sha256Hex t calls)
        chain := by
  intro calls
  induction calls with
  | nil => exact fun chain h => h
  | cons call calls ih =>
    intro chain h
    unfold eventTransaction appendEvent
    split
    · trivial
    · rename_i htenant
      obtain rfl : call.tenantId = t := not_not.mp htenant
      split
      · trivial
      · split
        · trivial
        · -- the head that is inserted stands for none
          intro visible hvisible
          refine ⟨fun state hstate => ?_, fun visible' hvisible' => ?_⟩
          · rw [AuditStore.chain_insertHead, AuditStore.chain_insertHead, hstate, hvisible]
          refine ⟨fun state hstate => hstate.trans hvisible'.symm, ?_⟩
          rw [AuditStore.chain_insertHead, hvisible] at hvisible'
          have hhead : visible'.heads call.tenantId = some (chain.1.getD firstHead) :=
            congrArg Prod.fst hvisible'
          dsimp only
          rw [hhead, hvisible']
          have hkept : Recomputes sha256Hex (some (chain.1.getD firstHead), chain.2) :=
            ⟨h.head, h.hashes⟩
          have hinsert (s : AuditStore) :
              (s.insertEvent (call.row sha256Hex (chain.1.getD firstHead))).chain call.tenantId =
                ((s.chain call.tenantId).1, (s.chain call.tenantId).2 ++
                  [call.row sha256Hex (chain.1.getD firstHead)]) :=
            AuditStore.chain_insertEvent rfl s
          intro seen hseen
          refine ⟨fun state hstate => ?_, ?_⟩
          · dsimp only
            split
            · exact hstate.trans hseen.symm
            · rw [hinsert, hinsert, hstate, hseen]
          · dsimp only
            split
            · trivial
            · rw [hinsert, hseen]
              intro inserted hinserted
              refine ⟨fun state hstate => ?_, ?_⟩
              · rw [AuditStore.chain_updateHead, AuditStore.chain_updateHead, hstate, hinserted]
              · rw [AuditStore.chain_updateHead, hinserted]
                exact ih _ (hkept.append call)

theorem untouched_eventTransaction {u : UUID} (h : t ≠ u) : ∀ {calls : List EventCall},
    Untouched (AuditStore.chain t) (eventTransaction lower sha256Hex u calls) := by
  intro calls
  induction calls with
  | nil => trivial
  | cons call calls ih =>
    unfold eventTransaction appendEvent
    split
    · trivial
    · rename_i htenant
      obtain rfl : call.tenantId = u := not_not.mp htenant
      split
      · trivial
      · split
        · trivial
        · intro visible
          refine ⟨fun state => AuditStore.chain_insertHead_of_ne h state, fun seen => ?_⟩
          refine ⟨fun state => rfl, ?_⟩
          dsimp only
          split
          · trivial
          · intro visible'
            refine ⟨fun state => ?_, ?_⟩
            · dsimp only
              split
              · rfl
              · exact AuditStore.chain_insertEvent_of_ne (Ne.symm h) state
            · dsimp only
              split
              · trivial
              · exact fun inserted => ⟨AuditStore.chain_updateHead_of_ne h _, ih⟩

theorem unlocked_eventTransaction (u : UUID) :
    Unlocked (AuditStore.chain t) t (Recomputes sha256Hex)
      (eventTransaction lower sha256Hex u calls) := by
  by_cases h : t = u
  · subst h
    cases calls with
    | nil => trivial
    | cons call calls =>
      have hlocked := @locked_eventTransaction lower sha256Hex t (call :: calls)
      unfold eventTransaction appendEvent at hlocked ⊢
      split
      · trivial
      · rename_i htenant
        rw [if_neg htenant] at hlocked
        split
        · trivial
        · rename_i hcategory
          rw [if_neg hcategory] at hlocked
          split
          · trivial
          · rename_i hidentity
            rw [if_neg hidentity] at hlocked
            rw [Unlocked, if_pos (not_not.mp htenant)]
            exact hlocked
  · exact (untouched_eventTransaction h).unlocked

end

/-- A client of a tenant opens a transaction, runs its next statement, or goes away. -/
inductive EventAction where
  | begin (i : Nat) (currentTenantId : UUID) (calls : List EventCall)
  | next (i : Nat)
  | disconnect (i : Nat)

section

variable (lower sha256Hex : Text → Text)

def EventAction.action : EventAction → Action AuditStore UUID
  | .begin i currentTenantId calls =>
    .begin i (eventTransaction lower sha256Hex currentTenantId calls)
  | .next i => .next i
  | .disconnect i => .disconnect i

/-- The log after some interleaving of transactions, from empty tables. -/
def eventRun (actions : List EventAction) : Option (System AuditStore UUID) :=
  run step (idle ⟨fun _ => none, []⟩) (actions.map (EventAction.action lower sha256Hex))

end

theorem recomputes_of_run {lower sha256Hex : Text → Text} {actions : List EventAction}
    {s : System AuditStore UUID} (hr : eventRun lower sha256Hex actions = some s) (t : UUID) :
    Recomputes sha256Hex (s.committed.chain t) := by
  refine guarded_invariant (AuditStore.chain t) t (Recomputes sha256Hex) recomputes_nil
    (fun i program hmem => ?_) hr
  obtain ⟨action, haction, heq⟩ := List.mem_map.mp hmem
  cases action with
  | begin j currentTenantId calls =>
    cases heq
    exact unlocked_eventTransaction currentTenantId
  | next j => exact nomatch heq
  | disconnect j => exact nomatch heq

end Kommunsign
