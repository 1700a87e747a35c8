import Kommunsign.Infra.Transaction
import Kommunsign.Worker.EmailMessages

/-!
# The status that a message ends with

Whoever writes last wins: neither the job nor the webhook looks at the status that is there. So the
order in which the reports are processed decides, unless all of them say the same.

* `converges_iff` — the status converges if and only if every event reports `accepted`
* `not_converges_delivered` — a message that is delivered, and accepted after that
-/

namespace Kommunsign

open Infra

def EmailMessageStatus.isOutcome : EmailMessageStatus → Bool
  | .delivered | .bounced | .complained => true
  | .queued | .accepted | .delayed | .failed | .cancelled => false

def EmailMessageStatus.isUnderway : EmailMessageStatus → Bool
  | .accepted | .delayed => true
  | .queued | .delivered | .bounced | .complained | .failed | .cancelled => false

/-- The answer and the events have been processed, and no run of the job is left. -/
structure Processed (reports : MessageReports) (m : EmailMessage) : Prop where
  answered : 0 < m.row.attemptCount
  recorded : ∀ event ∈ reports.events, event ∈ m.events
  ended : ∀ i, m.sending i = false

structure Converges (reports : MessageReports) : Prop where
  agree : ∀ (steps steps' : List EmailStep) (m m' : EmailMessage),
    run (emailStep reports) .queued steps = some m →
      run (emailStep reports) .queued steps' = some m' →
        Processed reports m → Processed reports m' → m.row.status = m'.row.status
  kept : ∀ (steps : List EmailStep) (step : EmailStep) (m m' : EmailMessage),
    run (emailStep reports) .queued steps = some m → emailStep reports m step = some m' →
      m.row.status.isOutcome = true → m'.row.status.isUnderway = false

/-! ## Reports that all say the same -/

def EmailSendAnswer.status : EmailSendAnswer → EmailMessageStatus
  | .accepted .. => .accepted
  | .rejected _ => .failed

structure AnswerStands (reports : MessageReports) (m : EmailMessage) : Prop where
  status : m.row.status = if m.row.attemptCount = 0 then .queued else reports.answer.status
  known : m.row.providerMessageId ≠ none → m.row.attemptCount ≠ 0

section Steps

variable {reports : MessageReports} {m m' : EmailMessage} {event : NormalizedEmailEvent}

theorem resendWebhook_cases {known : Bool} (h : resendWebhook m event = .ok (known, m')) :
    (m.row.provider = some "resend" ∧ m.row.providerMessageId = some event.providerMessageId) ∧
      (m' = m ∨ m' = { m with
        row := m.row.reported event
        signer := m.signer.reported event
        events := m.events ++ [event] }) := by
  unfold resendWebhook at h
  split at h
  · next hknown =>
    refine ⟨hknown, ?_⟩
    split at h
    · cases h
      exact Or.inl rfl
    · cases h
      exact Or.inr rfl
  · cases h

theorem answered_status (row : EmailMessageRow) (answer : EmailSendAnswer) :
    (row.answered answer).status = answer.status ∧
      (row.answered answer).attemptCount = row.attemptCount + 1 := by
  cases answer with
  | accepted provider providerMessageId acceptedAt => exact ⟨rfl, rfl⟩
  | rejected errorCode => exact ⟨rfl, rfl⟩

theorem answerStands_step {step : EmailStep}
    (haccepted : ∀ event ∈ reports.events, event.status = .accepted) (hm : AnswerStands reports m)
    (h : emailStep reports m step = some m') : AnswerStands reports m' := by
  cases step with
  | load i =>
    rw [emailStep] at h
    split at h
    · cases h
    · obtain rfl := Option.some.inj h
      unfold EmailMessage.load
      split
      · exact hm
      · exact ⟨hm.status, hm.known⟩
  | answer i =>
    rw [emailStep] at h
    split at h
    · obtain rfl := Option.some.inj h
      obtain ⟨hstatus, hcount⟩ := answered_status m.row reports.answer
      have hne : (m.row.answered reports.answer).attemptCount ≠ 0 := by
        rw [hcount]
        exact Nat.succ_ne_zero _
      exact ⟨hstatus.trans (if_neg hne).symm, fun _ => hne⟩
    · cases h
  | interrupt i =>
    cases h
    exact ⟨hm.status, hm.known⟩
  | webhook event =>
    rw [emailStep] at h
    split at h
    · next hevent =>
      obtain ⟨⟨known, m₁⟩, hwebhook, rfl⟩ := Option.map_eq_some_iff.mp h
      obtain ⟨⟨-, hid⟩, rfl | rfl⟩ :=
        resendWebhook_cases (toOption_eq_some.mp hwebhook)
      · exact hm
      · have hne : m.row.attemptCount ≠ 0 := hm.known (by rw [hid]; exact Option.some_ne_none _)
        obtain ⟨acceptedAt, hanswer⟩ := reports.ofMessage event hevent
        refine ⟨?_, hm.known⟩
        show event.status.stored = if m.row.attemptCount = 0 then _ else _
        rw [if_neg hne, haccepted event hevent, hanswer]
        rfl
    · cases h

/-! ## Events that say something else -/

structure KnownAs (m : EmailMessage) (providerMessageId : String) : Prop where
  provider : m.row.provider = some "resend"
  id : m.row.providerMessageId = some providerMessageId

theorem webhook_fresh (hevent : event ∈ reports.events) (hknown : KnownAs m event.providerMessageId)
    (hfresh : ∀ other ∈ m.events, other.eventId ≠ event.eventId) :
    emailStep reports m (.webhook event) = some { m with
      row := m.row.reported event
      signer := m.signer.reported event
      events := m.events ++ [event] } := by
  have hnone : (m.events.any fun other => other.eventId == event.eventId) = false :=
    List.any_eq_false.mpr fun other hother hsame => hfresh other hother (beq_iff_eq.mp hsame)
  rw [emailStep, if_pos hevent, resendWebhook, if_pos ⟨hknown.provider, hknown.id⟩, hnone]
  rfl

theorem run_webhooks {id : String} : ∀ {events : List NormalizedEmailEvent} {m : EmailMessage},
    (∀ event ∈ events, event ∈ reports.events ∧ event.providerMessageId = id) → KnownAs m id →
      ((m.events ++ events).map (·.eventId)).Nodup →
        ∃ m', run (emailStep reports) m (events.map .webhook) = some m' ∧ KnownAs m' id ∧
          m'.events = m.events ++ events ∧ m'.row.attemptCount = m.row.attemptCount ∧
            m'.sending = m.sending
  | [], m, _, hknown, _ => ⟨m, rfl, hknown, (List.append_nil _).symm, rfl, rfl⟩
  | event :: events, m, hevents, hknown, hdistinct => by
    obtain ⟨hevent, hid⟩ := hevents event List.mem_cons_self
    have hfresh : ∀ other ∈ m.events, other.eventId ≠ event.eventId := by
      rw [List.map_append] at hdistinct
      exact fun other hother => (List.nodup_append.mp hdistinct).2.2 _ (List.mem_map_of_mem hother) _
        (List.mem_map_of_mem List.mem_cons_self)
    have hsplit : m.events ++ event :: events = m.events ++ [event] ++ events := by
      rw [List.append_assoc]
      rfl
    rw [hsplit] at hdistinct ⊢
    obtain ⟨m', hrun, hknown', hrecorded, hcount, hsending⟩ := run_webhooks
      (fun other hother => hevents other (List.mem_cons_of_mem _ hother))
      (show KnownAs { m with
        row := m.row.reported event
        signer := m.signer.reported event
        events := m.events ++ [event] } id from ⟨hknown.provider, hknown.id⟩) hdistinct
    refine ⟨m', ?_, hknown', hrecorded, hcount, hsending⟩
    rw [List.map_cons, run_cons_eq_some]
    exact ⟨_, webhook_fresh hevent (hid ▸ hknown) hfresh, hrun⟩

end Steps

/-! ## Two orders -/

section Orders

variable {reports : MessageReports} {event : NormalizedEmailEvent}

theorem exists_last (hevent : event ∈ reports.events) : ∃ before, (∀ other,
    other ∈ reports.events ↔ other ∈ before ++ [event]) ∧
      ((before ++ [event]).map (·.eventId)).Nodup := by
  obtain ⟨front, back, hsplit⟩ := List.append_of_mem hevent
  have hperm : List.Perm reports.events (front ++ back ++ [event]) := by
    rw [hsplit]
    exact List.perm_middle.trans (List.perm_append_singleton _ _).symm
  exact ⟨front ++ back, fun other => hperm.mem_iff,
    ((hperm.map _).nodup_iff).mp reports.distinct⟩

theorem ofMessage_eq {other : NormalizedEmailEvent} (hevent : event ∈ reports.events)
    (hother : other ∈ reports.events) : other.providerMessageId = event.providerMessageId := by
  obtain ⟨_, hanswer⟩ := reports.ofMessage event hevent
  obtain ⟨_, hsame⟩ := reports.ofMessage other hother
  rw [hanswer] at hsame
  injection hsame with _ hid
  exact hid.symm

theorem knownAs_answer (m : EmailMessage) (i : Nat) (hevent : event ∈ reports.events) :
    KnownAs (m.answer i reports.answer) event.providerMessageId := by
  obtain ⟨_, hanswer⟩ := reports.ofMessage event hevent
  rw [hanswer]
  exact ⟨rfl, rfl⟩

theorem exists_event_last (hevent : event ∈ reports.events) :
    ∃ steps m, run (emailStep reports) .queued steps = some m ∧ Processed reports m ∧
      m.row.status = event.status.stored := by
  obtain ⟨before, hmem, hdistinct⟩ := exists_last hevent
  have hsent : run (emailStep reports) .queued [.load 0, .answer 0] =
      some ((EmailMessage.queued.load 0).answer 0 reports.answer) := rfl
  have hid : ∀ other ∈ before, other ∈ reports.events ∧
      other.providerMessageId = event.providerMessageId := fun other hother =>
    have hin := (hmem other).mpr (List.mem_append_left _ hother)
    ⟨hin, ofMessage_eq hevent hin⟩
  have hknown := knownAs_answer (EmailMessage.queued.load 0) 0 hevent
  have hbefore : (before.map (·.eventId)).Nodup := by
    rw [List.map_append] at hdistinct
    exact (List.nodup_append.mp hdistinct).1
  obtain ⟨m, hrun, hknown, hrecorded, hcount, hsending⟩ := run_webhooks hid hknown hbefore
  have hfresh : ∀ other ∈ m.events, other.eventId ≠ event.eventId := fun other hother => by
    rw [hrecorded] at hother
    rw [List.map_append] at hdistinct
    exact (List.nodup_append.mp hdistinct).2.2 _ (List.mem_map_of_mem hother) _
      (List.mem_map_of_mem List.mem_cons_self)
  refine ⟨[.load 0, .answer 0] ++ (before.map .webhook ++ [.webhook event]), _,
    run_append.mpr ⟨_, hsent, run_append.mpr ⟨m, hrun, run_cons_eq_some.mpr
      ⟨_, webhook_fresh hevent hknown hfresh, rfl⟩⟩⟩, ⟨?_, fun other hother => ?_, fun i => ?_⟩, rfl⟩
  · show 0 < m.row.attemptCount
    rw [hcount]
    exact ((answered_status _ _).2).symm ▸ Nat.succ_pos _
  · show other ∈ m.events ++ [event]
    rw [hrecorded]
    exact (hmem other).mp hother
  · show m.sending i = false
    rw [hsending]
    show Function.update (Function.update (fun _ => false) 0 true) 0 false i = false
    rw [Function.update_idem]
    exact congrFun (Function.update_eq_self 0 _) i

theorem exists_answer_last (hevent : event ∈ reports.events) :
    ∃ steps m, run (emailStep reports) .queued steps = some m ∧ Processed reports m ∧
      m.row.status = .accepted := by
  obtain ⟨acceptedAt, hanswer⟩ := reports.ofMessage event hevent
  have hsent : run (emailStep reports) .queued [.load 0, .load 1, .answer 0] =
      some (((EmailMessage.queued.load 0).load 1).answer 0 reports.answer) := rfl
  have hknown := knownAs_answer ((EmailMessage.queued.load 0).load 1) 0 hevent
  obtain ⟨m, hrun, -, hrecorded, -, hsending⟩ := run_webhooks
    (fun other hin => ⟨hin, ofMessage_eq hevent hin⟩) hknown reports.distinct
  have hwaiting : m.sending 1 = true := by
    rw [hsending]
    rfl
  have hlast : run (emailStep reports) m [.answer 1] = some (m.answer 1 reports.answer) := by
    rw [run, emailStep, if_pos hwaiting]
    rfl
  obtain ⟨hstatus, hanswered⟩ := answered_status m.row reports.answer
  refine ⟨[.load 0, .load 1, .answer 0] ++ (reports.events.map .webhook ++ [.answer 1]), _,
    run_append.mpr ⟨_, hsent, run_append.mpr ⟨m, hrun, hlast⟩⟩,
    ⟨?_, fun other hother => ?_, fun i => ?_⟩, ?_⟩
  · show 0 < (m.row.answered reports.answer).attemptCount
    rw [hanswered]
    exact Nat.succ_pos _
  · show other ∈ m.events
    rw [hrecorded]
    exact List.mem_append_right _ hother
  · show Function.update m.sending 1 false i = false
    rw [hsending]
    rcases i with _ | _ | i
    · rfl
    · rfl
    · rfl
  · show (m.row.answered reports.answer).status = .accepted
    rw [hstatus, hanswer]
    rfl

end Orders

/-! ## The final status -/

/--
Whatever the order and the repetition: the answer and the events of a message come to one final
status, and no outcome is overwritten by `accepted` or `delayed`, if and only if every event of the
message reports `accepted`.
-/
theorem converges_iff (reports : MessageReports) :
    Converges reports ↔ ∀ event ∈ reports.events, event.status = .accepted := by
  constructor
  · intro h event hevent
    obtain ⟨steps, m, hrun, hprocessed, hstatus⟩ := exists_event_last hevent
    obtain ⟨steps', m', hrun', hprocessed', hstatus'⟩ := exists_answer_last hevent
    have hsame := h.agree steps steps' m m' hrun hrun' hprocessed hprocessed'
    rw [hstatus, hstatus'] at hsame
    revert hsame
    cases event.status <;> decide
  · intro haccepted
    have hstands : ∀ {steps m}, run (emailStep reports) .queued steps = some m →
        AnswerStands reports m := fun hrun =>
      run_invariant (fun _ _ _ hm h => answerStands_step haccepted hm h) ⟨rfl, fun h => absurd rfl h⟩
        hrun
    have hstatus : ∀ {m}, AnswerStands reports m → Processed reports m →
        m.row.status = reports.answer.status := fun hm hprocessed =>
      hm.status.trans (if_neg (Nat.ne_of_gt hprocessed.answered))
    refine ⟨fun steps steps' m m' hrun hrun' h h' => ?_, fun steps step m m' hrun _ houtcome => ?_⟩
    · rw [hstatus (hstands hrun) h, hstatus (hstands hrun') h']
    · -- no status that the answer leaves is an outcome
      have hm := (hstands hrun).status
      rw [hm] at houtcome
      revert houtcome
      split
      · exact nofun
      · cases reports.answer <;> exact nofun

def sentEvent : NormalizedEmailEvent := ⟨"event-1", "message-1", .accepted, 1, "sha-1"⟩

def deliveredEvent : NormalizedEmailEvent := ⟨"event-2", "message-1", .delivered, 2, "sha-2"⟩

def deliveredMessage : MessageReports where
  answer := .accepted "resend" "message-1" 0
  events := [sentEvent, deliveredEvent]
  distinct := by decide
  ofMessage event hevent := by
    simp only [List.mem_cons, List.not_mem_nil, or_false] at hevent
    rcases hevent with rfl | rfl
    · exact ⟨0, rfl⟩
    · exact ⟨0, rfl⟩

/-- The two events arrive in the other order. -/
theorem not_converges_delivered : ¬∀ reports : MessageReports, Converges reports := by
  intro hall
  have hkept := (hall deliveredMessage).kept [.load 0, .answer 0, .webhook deliveredEvent]
    (.webhook sentEvent) _ _ rfl rfl rfl
  exact absurd hkept (by decide)

end Kommunsign
