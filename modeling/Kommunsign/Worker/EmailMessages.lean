import Mathlib.Logic.Function.Basic
import Kommunsign.Infra.Run

/-!
# One e-mail message and what is reported about it

The job that sends the message asks the provider and then records the answer, and the provider's
webhook reports what becomes of the message. Each of them writes the status of the row.

* `handleEmailSend` — the two transactions around the call of the provider
* `resendWebhook` — one event of the provider, recorded once
-/

namespace Kommunsign

open Infra

inductive EmailMessageStatus where
  | queued | accepted | delivered | delayed | bounced | complained | failed | cancelled
  deriving DecidableEq

inductive NormalizedEmailStatus where
  | accepted | delivered | delayed | bounced | complained | failed
  deriving DecidableEq

/-- The status as the row keeps it. -/
def NormalizedEmailStatus.stored : NormalizedEmailStatus → EmailMessageStatus
  | .accepted => .accepted
  | .delivered => .delivered
  | .delayed => .delayed
  | .bounced => .bounced
  | .complained => .complained
  | .failed => .failed

structure NormalizedEmailEvent where
  eventId : String
  providerMessageId : String
  status : NormalizedEmailStatus
  occurredAt : Int
  payloadSha256 : String
  deriving DecidableEq

structure EmailMessageRow where
  status : EmailMessageStatus
  provider : Option String
  providerMessageId : Option String
  attemptCount : Nat
  lastErrorCode : Option String
  acceptedAt : Option Int
  deliveredAt : Option Int
  deriving DecidableEq

/-- What the events of a message leave at its signer. -/
structure EmailSigner where
  hardBouncedAt : Option Int
  complainedAt : Option Int
  deriving DecidableEq

/-- What the provider answers to the request that sends the message. -/
inductive EmailSendAnswer where
  | accepted (provider providerMessageId : String) (acceptedAt : Int)
  /-- An error that is not worth another attempt. -/
  | rejected (errorCode : String)
  deriving DecidableEq

structure EmailMessage where
  row : EmailMessageRow
  signer : EmailSigner
  /-- `app.email_provider_events` of the message. -/
  events : List NormalizedEmailEvent
  /-- The runs of the job that wait for the provider. -/
  sending : Nat → Bool

/-! ## The job -/

/-- The statuses that end a run of the job before it sends anything. -/
def EmailMessageStatus.isSent : EmailMessageStatus → Bool
  | .accepted | .delivered | .bounced | .complained | .cancelled => true
  | .queued | .delayed | .failed => false

/-- The first transaction of `handleEmailSend`. -/
def EmailMessage.load (m : EmailMessage) (i : Nat) : EmailMessage :=
  if m.row.status.isSent then m else { m with sending := Function.update m.sending i true }

def EmailMessageRow.answered (row : EmailMessageRow) : EmailSendAnswer → EmailMessageRow
  | .accepted provider providerMessageId acceptedAt =>
    { row with
      status := .accepted
      provider := some provider
      providerMessageId := some providerMessageId
      acceptedAt := some acceptedAt
      attemptCount := row.attemptCount + 1
      lastErrorCode := none }
  | .rejected errorCode =>
    { row with
      status := .failed
      attemptCount := row.attemptCount + 1
      lastErrorCode := some errorCode }

/-- The transaction of `handleEmailSend` after the provider has answered. -/
def EmailMessage.answer (m : EmailMessage) (i : Nat) (answer : EmailSendAnswer) : EmailMessage :=
  { m with
    row := m.row.answered answer
    sending := Function.update m.sending i false }

/-! ## The webhook -/

def EmailMessageRow.reported (row : EmailMessageRow) (event : NormalizedEmailEvent) :
    EmailMessageRow :=
  { row with
    status := event.status.stored
    deliveredAt := if event.status = .delivered then some event.occurredAt else row.deliveredAt }

def EmailSigner.reported (signer : EmailSigner) (event : NormalizedEmailEvent) : EmailSigner where
  hardBouncedAt := if event.status = .bounced then some event.occurredAt else signer.hardBouncedAt
  complainedAt := if event.status = .complained then some event.occurredAt else signer.complainedAt

/-- `providerWebhooks.resend`, for an event whose signature holds; `true`: it had been recorded. -/
def resendWebhook (m : EmailMessage) (event : NormalizedEmailEvent) :
    Except String (Bool × EmailMessage) :=
  if m.row.provider = some "resend" ∧ m.row.providerMessageId = some event.providerMessageId then
    if m.events.any (·.eventId == event.eventId) then .ok (true, m)
    else .ok (false, { m with
      row := m.row.reported event
      signer := m.signer.reported event
      events := m.events ++ [event] })
  else .error "EMAIL_MESSAGE_NOT_FOUND"

/-! ## The reports about a message -/

/-- The answer of the provider and its events, of which each has an id of its own. -/
structure MessageReports where
  answer : EmailSendAnswer
  events : List NormalizedEmailEvent
  distinct : (events.map (·.eventId)).Nodup
  /-- The events are about the message that Resend has accepted. -/
  ofMessage : ∀ event ∈ events, ∃ acceptedAt,
    answer = .accepted "resend" event.providerMessageId acceptedAt

inductive EmailStep where
  /-- A run of the job starts. -/
  | load (i : Nat)
  /-- The answer to a run is recorded. -/
  | answer (i : Nat)
  /-- A run ends in a temporary error, or is lost. -/
  | interrupt (i : Nat)
  | webhook (event : NormalizedEmailEvent)

def emailStep (reports : MessageReports) (m : EmailMessage) : EmailStep → Option EmailMessage
  | .load i => if m.sending i then none else some (m.load i)
  | .answer i => if m.sending i then some (m.answer i reports.answer) else none
  | .interrupt i => some { m with sending := Function.update m.sending i false }
  | .webhook event =>
    if event ∈ reports.events then (resendWebhook m event).toOption.map Prod.snd else none

/-- A message that has just been inserted. -/
def EmailMessage.queued : EmailMessage where
  row :=
    { status := .queued
      provider := none
      providerMessageId := none
      attemptCount := 0
      lastErrorCode := none
      acceptedAt := none
      deliveredAt := none }
  signer := ⟨none, none⟩
  events := []
  sending := fun _ => false

end Kommunsign
