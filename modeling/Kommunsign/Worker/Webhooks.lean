import Kommunsign.Data.Guards
import Kommunsign.Infra.Run

/-!
# Webhook delivery of one outbox event

`app.webhook_deliveries` of one event, with the jobs that deliver it. A run of the handler loads the
endpoints once, and then for each of them claims the delivery, posts it and records the answer, in
transactions of their own. Anything may come between two of them: another run, an operator's replay,
a change of the endpoints, or an exception that ends the run.

* `deliveryChecks` — the triggers of the table
* `claimDelivery`, `recordResult` — the transactions of the handler
-/

namespace Kommunsign

open Infra

inductive DeliveryStatus where
  | pending | delivering | delivered | failed | dead_letter
  deriving DecidableEq, Repr

/-- Nothing more is to be done for the delivery. -/
def DeliveryStatus.settled : DeliveryStatus → Bool
  | .delivered | .dead_letter => true
  | .pending | .delivering | .failed => false

structure WebhookEndpoint where
  id : Id
  active : Bool
  secretCurrentCiphertext : Option Text
  subscribedEvents : List String
  deriving DecidableEq

structure WebhookDelivery where
  endpointId : Id
  attempt : Nat
  status : DeliveryStatus
  responseStatus : Option Nat
  responseBodySha256 : Option Digest
  deliveredAt : Option Time
  deriving DecidableEq

/-! ## Triggers -/

/-- `app.assert_webhook_delivery_state` -/
def assertWebhookDeliveryState (old new : WebhookDelivery) : Checks :=
  raises (new.status == .delivered && (new.responseStatus.isNone || new.deliveredAt.isNone))
    "a delivered webhook must record the response status and time" ++
  raises (new.status != .delivered && new.deliveredAt.isSome)
    "only a delivered webhook may carry a delivery time" ++
  raises (old.status == .delivered && new.status != .delivered)
    "a delivered webhook cannot be undelivered"

def DeliveryStatus.allowed : DeliveryStatus → List DeliveryStatus
  | .pending => [.delivering, .failed, .dead_letter]
  | .delivering => [.delivered, .failed, .dead_letter]
  | .failed => [.pending, .delivering, .dead_letter]
  | .dead_letter => [.pending]
  | .delivered => []

/-- `app.assert_webhook_delivery_transition` -/
def assertWebhookDeliveryTransition (old new : WebhookDelivery) : Checks :=
  raises (new.status != old.status && !old.status.allowed.contains new.status)
    "invalid webhook delivery transition"

def deliveryChecks (old new : WebhookDelivery) : Checks :=
  assertWebhookDeliveryState old new ++ assertWebhookDeliveryTransition old new

/-- `update app.webhook_deliveries set … where webhook_endpoint_id = …` -/
def updateDelivery (endpointId : Id) (f : WebhookDelivery → WebhookDelivery)
    (deliveries : List WebhookDelivery) : Except Failure (List WebhookDelivery) := do
  match deliveries.find? (·.endpointId == endpointId) with
  | none => return deliveries
  | some row =>
    refuse (deliveryChecks row (f row))
    return assign (·.endpointId == endpointId) f deliveries

/-! ## The handler -/

def newDelivery (endpointId : Id) : WebhookDelivery where
  endpointId := endpointId
  attempt := 0
  status := .pending
  responseStatus := none
  responseBodySha256 := none
  deliveredAt := none

/-- `insert … on conflict do nothing` -/
def ensureDelivery (endpointId : Id) (deliveries : List WebhookDelivery) : List WebhookDelivery :=
  if deliveries.any (·.endpointId == endpointId) then deliveries
  else deliveries ++ [newDelivery endpointId]

/-- Moves one delivery into `delivering`; `false` when it is settled. -/
def claimDelivery (endpointId : Id) (attempt : Nat) (deliveries : List WebhookDelivery) :
    Except Failure (Bool × List WebhookDelivery) :=
  let deliveries := ensureDelivery endpointId deliveries
  match deliveries.find? (·.endpointId == endpointId) with
  | none => throw (.thrown "WEBHOOK_DELIVERY_NOT_FOUND")
  | some row =>
    if row.status.settled then return (false, deliveries)
    else do
      let claimed ← updateDelivery endpointId
        (fun row => { row with status := .delivering, attempt := attempt }) deliveries
      return (true, claimed)

structure DeliveryResult where
  delivered : Bool
  responseStatus : Option Nat
  responseBodySha256 : Option Digest
  errorCode : String
  deriving DecidableEq

/-- What becomes of a request that no exception ends. -/
inductive DeliveryAttempt where
  /-- The URL or its addresses are refused, and nothing is sent. -/
  | rejected (errorCode : String)
  | transportFailed
  | answered (status : Nat) (bodySha256 : Option Digest)
  deriving DecidableEq

/-- A POST has been sent. -/
def DeliveryAttempt.posted : DeliveryAttempt → Bool
  | .rejected _ => false
  | .transportFailed | .answered _ _ => true

/-- `deliver` -/
def DeliveryAttempt.result : DeliveryAttempt → DeliveryResult
  | .rejected errorCode => ⟨false, none, none, errorCode⟩
  | .transportFailed => ⟨false, none, none, "WEBHOOK_TRANSPORT_FAILED"⟩
  | .answered status bodySha256 =>
    if 300 ≤ status ∧ status < 400 then
      ⟨false, some status, bodySha256, "WEBHOOK_REDIRECT_NOT_FOLLOWED"⟩
    else if 200 ≤ status ∧ status < 300 then ⟨true, some status, bodySha256, "OK"⟩
    else ⟨false, some status, bodySha256, "WEBHOOK_HTTP_" ++ toString status⟩

/-- The status that an answer is recorded with. -/
def DeliveryResult.status (result : DeliveryResult) (finalAttempt : Bool) : DeliveryStatus :=
  if result.delivered then .delivered else if finalAttempt then .dead_letter else .failed

/-- `recordDelivered`, `recordDeadLetter`, `recordFailure` -/
def recordResult (endpointId : Id) (result : DeliveryResult) (finalAttempt : Bool) (now : Time)
    (deliveries : List WebhookDelivery) : Except Failure (List WebhookDelivery) :=
  updateDelivery endpointId (fun row => { row with
    status := result.status finalAttempt
    responseStatus := result.responseStatus
    responseBodySha256 := result.responseBodySha256
    deliveredAt := if result.delivered then some now else row.deliveredAt }) deliveries

/-- `replayDelivery`, on the row. -/
def replayDelivery (endpointId : Id) (deliveries : List WebhookDelivery) :
    Except Failure (List WebhookDelivery) :=
  match deliveries.find? (·.endpointId == endpointId) with
  | none => throw (.thrown "WEBHOOK_DELIVERY_NOT_FOUND")
  | some row =>
    if row.status = .delivered then throw (.thrown "WEBHOOK_DELIVERY_ALREADY_DELIVERED")
    else updateDelivery endpointId (fun row => { row with
      status := .pending, responseStatus := none, responseBodySha256 := none }) deliveries

/-! ## Runs of the handler -/

/-- Where a run is between two of its transactions. -/
inductive DeliveryPhase where
  | ready
  | claimed (endpointId : Id)
  | answered (endpointId : Id) (result : DeliveryResult)
  deriving DecidableEq

def DeliveryPhase.current : DeliveryPhase → Option Id
  | .ready => none
  | .claimed endpointId | .answered endpointId _ => some endpointId

/-- `endpoints` are still to come. -/
structure WebhookRun where
  attempts : Nat
  maximumAttempts : Nat
  endpoints : List Id
  phase : DeliveryPhase
  outstanding : Nat
  deriving DecidableEq

def WebhookRun.finalAttempt (r : WebhookRun) : Bool := decide (r.maximumAttempts ≤ r.attempts)

/-- What is looked back at. -/
inductive WebhookEvent where
  | posted (endpointId : Id)
  | delivered (endpointId : Id)
  /-- A job is completed or dead-lettered, with the deliveries at that time. -/
  | ended (deliveries : List WebhookDelivery)
  deriving DecidableEq

structure WebhookDispatch where
  eventType : String
  now : Time
  endpoints : List WebhookEndpoint
  deliveries : List WebhookDelivery
  publishedAt : Option Time
  runs : List (Option WebhookRun)
  log : List WebhookEvent
  deriving DecidableEq

def dispatchStart (eventType : String) (now : Time) (endpoints : List WebhookEndpoint) :
    WebhookDispatch where
  eventType := eventType
  now := now
  endpoints := endpoints
  deliveries := []
  publishedAt := none
  runs := []
  log := []

inductive WebhookAction where
  | tick (duration : Nat)
  /-- Endpoints are registered, activated, deactivated or changed. -/
  | configure (endpoints : List WebhookEndpoint)
  | start (attempts maximumAttempts : Nat)
  | claim (i : Nat)
  | deliver (i : Nat) (attempt : DeliveryAttempt)
  | record (i : Nat)
  | finish (i : Nat)
  /-- An exception in the handler, which may be permanent. -/
  | throws (i : Nat) (permanent : Bool)
  | replay (endpointId : Id)

namespace WebhookDispatch

/-- The endpoints that a run loads, `order by created_at,id`. -/
def loaded (s : WebhookDispatch) : List Id :=
  (s.endpoints.filter fun endpoint => endpoint.active && endpoint.secretCurrentCiphertext.isSome &&
    endpoint.subscribedEvents.contains s.eventType).map (·.id)

/-- `update app.outbox_events set published_at=now() where … and not exists (…)` -/
def markPublished (s : WebhookDispatch) : WebhookDispatch :=
  if s.publishedAt.isNone && s.deliveries.all (·.status.settled) then
    { s with publishedAt := some s.now }
  else s

def note (s : WebhookDispatch) (event : WebhookEvent) : WebhookDispatch :=
  { s with log := s.log ++ [event] }

/-- The job is over. -/
def endJob (s : WebhookDispatch) : WebhookDispatch := s.note (.ended s.deliveries)

def setRun (s : WebhookDispatch) (i : Nat) (r : Option WebhookRun) : WebhookDispatch :=
  { s with runs := s.runs.set i r }

/-- The job is dead-lettered after the last attempt or a permanent error, and else tried again. -/
def abort (s : WebhookDispatch) (i : Nat) (r : WebhookRun) (permanent : Bool) : WebhookDispatch :=
  let s := s.setRun i none
  if permanent || r.finalAttempt then s.endJob else s

def startRun (s : WebhookDispatch) (attempts maximumAttempts : Nat) : WebhookDispatch :=
  match s.loaded with
  | [] => s.markPublished.endJob
  | endpoints => { s with runs := s.runs ++ [some ⟨attempts, maximumAttempts, endpoints, .ready, 0⟩] }

def claim (s : WebhookDispatch) (i : Nat) (r : WebhookRun) (endpointId : Id) (rest : List Id) :
    WebhookDispatch :=
  match claimDelivery endpointId r.attempts s.deliveries with
  | .error _ => s.abort i r false
  | .ok (claimed, deliveries) =>
    let stored : WebhookDispatch := { s with deliveries := deliveries }
    stored.setRun i (some { r with
      endpoints := rest, phase := if claimed then .claimed endpointId else .ready })

def deliver (s : WebhookDispatch) (i : Nat) (r : WebhookRun) (endpointId : Id)
    (attempt : DeliveryAttempt) : WebhookDispatch :=
  (if attempt.posted then s.note (.posted endpointId) else s).setRun i
    (some { r with phase := .answered endpointId attempt.result })

def record (s : WebhookDispatch) (i : Nat) (r : WebhookRun) (endpointId : Id)
    (result : DeliveryResult) : WebhookDispatch :=
  match recordResult endpointId result r.finalAttempt s.now s.deliveries with
  | .error _ => s.abort i r false
  | .ok deliveries =>
    let recorded : WebhookDispatch := { s with deliveries := deliveries }
    (if result.delivered then recorded.note (.delivered endpointId) else recorded).setRun i
      (some { r with
        phase := .ready
        outstanding :=
          if result.delivered || r.finalAttempt then r.outstanding else r.outstanding + 1 })

def finish (s : WebhookDispatch) (i : Nat) (r : WebhookRun) : WebhookDispatch :=
  if 0 < r.outstanding then s.abort i r false else (s.setRun i none).markPublished.endJob

end WebhookDispatch

/-- `none`: the action is refused, or the run is not where it could be taken. -/
def webhookStep (s : WebhookDispatch) : WebhookAction → Option WebhookDispatch
  | .tick duration => some { s with now := s.now + duration }
  | .configure endpoints => some { s with endpoints := endpoints }
  | .start attempts maximumAttempts => some (s.startRun attempts maximumAttempts)
  | .claim i =>
    match s.runs[i]?.join with
    | some ⟨attempts, maximumAttempts, endpointId :: rest, .ready, outstanding⟩ =>
      some (s.claim i ⟨attempts, maximumAttempts, endpointId :: rest, .ready, outstanding⟩
        endpointId rest)
    | _ => none
  | .deliver i attempt =>
    match s.runs[i]?.join with
    | some ⟨attempts, maximumAttempts, endpoints, .claimed endpointId, outstanding⟩ =>
      some (s.deliver i ⟨attempts, maximumAttempts, endpoints, .claimed endpointId, outstanding⟩
        endpointId attempt)
    | _ => none
  | .record i =>
    match s.runs[i]?.join with
    | some ⟨attempts, maximumAttempts, endpoints, .answered endpointId result, outstanding⟩ =>
      some (s.record i ⟨attempts, maximumAttempts, endpoints, .answered endpointId result,
        outstanding⟩ endpointId result)
    | _ => none
  | .finish i =>
    match s.runs[i]?.join with
    | some ⟨attempts, maximumAttempts, [], .ready, outstanding⟩ =>
      some (s.finish i ⟨attempts, maximumAttempts, [], .ready, outstanding⟩)
    | _ => none
  | .throws i permanent => (s.runs[i]?.join).map fun r => s.abort i r permanent
  | .replay endpointId =>
    match replayDelivery endpointId s.deliveries with
    | .error _ => none
    | .ok deliveries => some { s with deliveries := deliveries }

end Kommunsign
