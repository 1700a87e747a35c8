import Kommunsign.Infra.Moved
import Kommunsign.Retention.Executor

/-!
# What a decision on retention depends on

A decision is settled by the policy and the case but for one comparison: the date on which the case
becomes eligible with the time. So a case that may be destroyed may be destroyed from then on.

* `SteadyDecisions` — what is asked of all decisions on a case
* `decideRetention_steady` — every policy and every case meets it
-/

namespace Kommunsign

open Infra

def RetentionMode.automatic : RetentionMode → Bool
  | .archive_then_delete | .delete_after_period => true
  | .retain_forever | .retain_for_period | .legal_hold => false

/-- What is asked of the decisions on a case under a policy, and of the queue that is made of them. -/
structure SteadyDecisions (policy : RetentionPolicy) (subject : RetentionSubject) : Prop where
  due : ∀ now decision, decideRetention policy subject now = .ok decision →
    decision.action ≠ .RETAIN → policy.mode ≠ .legal_hold ∧ DueAt policy subject now
  stays : ∀ now later, now ≤ later → ∀ decision, decideRetention policy subject now = .ok decision →
    decision.action ≠ .RETAIN → ∃ decision', decideRetention policy subject later = .ok decision' ∧
      decision'.action = decision.action
  exactly : ∀ now decision, decideRetention policy subject now = .ok decision →
    (decision.action ≠ .RETAIN ↔ policy.mode.automatic = true ∧
      ∃ eligibleAt, decision.eligibleAt = some ⟨some eligibleAt⟩ ∧ eligibleAt ≤ now)
  queued : ∀ subjects now due, selectDueCases policy subjects now = .ok due →
    ∀ decision, (subject, decision) ∈ due → ∀ later, now ≤ later →
      ∃ decision', decideRetention policy subject later = .ok decision' ∧
        decision'.action = decision.action

/-! ## The verdict -/

inductive RetentionVerdict where
  | retained (reason : RetentionReason)
  | eligible (eligibleAt : IsoDateTime)

def RetentionMode.elapsed : RetentionMode → RetentionAction × RetentionReason
  | .retain_for_period => (.RETAIN, .MINIMUM_RETENTION_NOT_ELAPSED)
  | .archive_then_delete => (.ARCHIVE_THEN_DELETE, .DUE_FOR_ARCHIVE_THEN_DELETION)
  | .retain_forever | .delete_after_period | .legal_hold => (.DELETE, .DUE_FOR_DELETION)

def RetentionMode.waiting (mode : RetentionMode) : RetentionReason :=
  if mode = .retain_for_period then .MINIMUM_RETENTION_NOT_ELAPSED else .PERIOD_NOT_ELAPSED

def RetentionVerdict.at (mode : RetentionMode) (now : Int) : RetentionVerdict → RetentionDecision
  | .retained reason => ⟨.RETAIN, reason, none⟩
  | .eligible eligibleAt =>
    if eligibleAt.millis.any (now < ·) then ⟨.RETAIN, mode.waiting, some eligibleAt⟩
    else ⟨mode.elapsed.1, mode.elapsed.2, some eligibleAt⟩

/-- All of `decideRetention` but the comparison with the time. -/
def retentionVerdict (policy : RetentionPolicy) (subject : RetentionSubject) :
    Except RetentionError RetentionVerdict := do
  assertPolicyIsLawful policy
  if subject.legalHoldActive ∨ policy.mode = .legal_hold then
    return .retained .LEGAL_HOLD
  if policy.active = false then
    return .retained .POLICY_INACTIVE
  if policy.mode = .retain_forever then
    return .retained .RETAIN_FOREVER
  match subject.closedAt with
  | none => return .retained .CASE_NOT_CLOSED
  | some closedAt =>
    if subject.status ∉ TERMINAL_STATUSES then
      return .retained .CASE_NOT_CLOSED
    return .eligible (← addDays closedAt (policy.periodDays.getD 0))

section Verdict

variable {policy : RetentionPolicy} {subject : RetentionSubject} {now later : Int}
  {decision : RetentionDecision} {eligibleAt : IsoDateTime} {mode : RetentionMode} {millis : Int}

theorem RetentionVerdict.at_eligible : (RetentionVerdict.eligible eligibleAt).at mode now =
    if eligibleAt.millis.any (now < ·) = true then ⟨.RETAIN, mode.waiting, some eligibleAt⟩
    else ⟨mode.elapsed.1, mode.elapsed.2, some eligibleAt⟩ := rfl

theorem RetentionVerdict.at_waits (h : now < millis) :
    (RetentionVerdict.eligible ⟨some millis⟩).at mode now =
      ⟨.RETAIN, mode.waiting, some ⟨some millis⟩⟩ := by
  rw [at_eligible, Option.any_some, if_pos (decide_eq_true h)]

theorem RetentionVerdict.at_elapsed (h : millis ≤ now) :
    (RetentionVerdict.eligible ⟨some millis⟩).at mode now =
      ⟨mode.elapsed.1, mode.elapsed.2, some ⟨some millis⟩⟩ := by
  rw [at_eligible, Option.any_some, if_neg (by simpa using h)]

theorem elapsed_destroys (hperiod : mode.needsPeriod = true) :
    mode.elapsed.1 ≠ .RETAIN ↔ mode.automatic = true := by
  cases mode with
  | retain_forever | legal_hold => cases hperiod
  | retain_for_period | archive_then_delete | delete_after_period => decide

theorem decideRetention_eq : decideRetention policy subject now =
    (retentionVerdict policy subject).map (·.at policy.mode now) := by
  unfold decideRetention retentionVerdict
  cases assertPolicyIsLawful policy with
  | error e => rfl
  | ok _ =>
    dsimp only [bind, Except.bind]
    by_cases hhold : subject.legalHoldActive ∨ policy.mode = .legal_hold
    · rw [if_pos hhold, if_pos hhold]
      rfl
    rw [if_neg hhold, if_neg hhold]
    by_cases hactive : policy.active = false
    · rw [if_pos hactive, if_pos hactive]
      rfl
    rw [if_neg hactive, if_neg hactive]
    by_cases hforever : policy.mode = .retain_forever
    · rw [if_pos hforever, if_pos hforever]
      rfl
    rw [if_neg hforever, if_neg hforever]
    cases subject.closedAt with
    | none => rfl
    | some closedAt =>
      by_cases hopen : subject.status ∉ TERMINAL_STATUSES
      · simp only [if_pos hopen]
        rfl
      simp only [if_neg hopen]
      cases addDays closedAt (policy.periodDays.getD 0) with
      | error e => rfl
      | ok eligibleAt =>
        dsimp only [pure, Except.pure, Except.map]
        rw [RetentionVerdict.at_eligible]
        split
        · rfl
        · cases policy.mode <;> rfl

theorem retentionVerdict_eligible (h : retentionVerdict policy subject = .ok (.eligible eligibleAt)) :
    ∃ closedAt : Int, subject.closedAt = some ⟨some closedAt⟩ ∧
      eligibleAt = ⟨some (closedAt + policy.periodDays.getD 0 * 86400000)⟩ ∧
      subject.legalHoldActive = false ∧ policy.active = true ∧ subject.status ∈ TERMINAL_STATUSES ∧
      policy.mode.needsPeriod = true := by
  obtain ⟨_, -, h⟩ := except_bind_eq_ok.mp h
  rcases except_return_eq_ok.mp h with ⟨-, heq⟩ | ⟨hhold, h⟩
  · cases heq
  rcases except_return_eq_ok.mp h with ⟨-, heq⟩ | ⟨hactive, h⟩
  · cases heq
  rcases except_return_eq_ok.mp h with ⟨-, heq⟩ | ⟨hforever, h⟩
  · cases heq
  cases hclosedAt : subject.closedAt with
  | none =>
    rw [hclosedAt] at h
    cases h
  | some closedAt =>
    rw [hclosedAt] at h
    rcases except_return_eq_ok.mp h with ⟨-, heq⟩ | ⟨hclosed, h⟩
    · cases heq
    obtain ⟨eligibleAt', hdays, heq⟩ := except_bind_eq_ok.mp h
    obtain rfl : eligibleAt' = eligibleAt := by
      cases heq
      rfl
    obtain ⟨base, rfl, rfl⟩ := plusDays_eq_ok hdays
    obtain ⟨hreleased, hmode⟩ := not_or.mp hhold
    refine ⟨base, rfl, rfl, Bool.eq_false_iff.mpr hreleased, Bool.eq_true_of_not_eq_false hactive,
      not_not.mp hclosed, ?_⟩
    cases hm : policy.mode with
    | retain_forever => exact absurd hm hforever
    | legal_hold => exact absurd hm hmode
    | retain_for_period | archive_then_delete | delete_after_period => rfl

theorem decideRetention_eq_ok : decideRetention policy subject now = .ok decision ↔
    ∃ verdict, retentionVerdict policy subject = .ok verdict ∧
      verdict.at policy.mode now = decision := by
  rw [decideRetention_eq]
  cases retentionVerdict policy subject with
  | error e => exact ⟨nofun, fun ⟨_, h, _⟩ => nomatch h⟩
  | ok verdict =>
    refine ⟨fun h => ⟨verdict, rfl, Except.ok.inj h⟩, ?_⟩
    rintro ⟨_, hverdict, rfl⟩
    cases hverdict
    rfl

theorem decideRetention_destroys (h : decideRetention policy subject now = .ok decision) :
    decision.action ≠ .RETAIN ↔ policy.mode.automatic = true ∧
      ∃ eligibleAt, decision.eligibleAt = some ⟨some eligibleAt⟩ ∧ eligibleAt ≤ now := by
  obtain ⟨verdict, hverdict, rfl⟩ := decideRetention_eq_ok.mp h
  cases verdict with
  | retained reason =>
    refine ⟨fun hne => absurd rfl hne, ?_⟩
    rintro ⟨-, _, hnone, -⟩
    cases hnone
  | eligible eligibleAt =>
    obtain ⟨closedAt, -, rfl, -, -, -, hperiod⟩ := retentionVerdict_eligible hverdict
    rcases lt_or_ge now (closedAt + policy.periodDays.getD 0 * 86400000) with hwaits | helapsed
    · rw [RetentionVerdict.at_waits hwaits]
      refine ⟨fun hne => absurd rfl hne, ?_⟩
      rintro ⟨-, eligibleAt, heligible, hle⟩
      cases heligible
      exact absurd hwaits (not_lt.mpr hle)
    · rw [RetentionVerdict.at_elapsed helapsed, elapsed_destroys hperiod]
      exact ⟨fun hauto => ⟨hauto, _, rfl, helapsed⟩, fun hauto => hauto.1⟩

theorem decideRetention_of_le (hle : now ≤ later)
    (h : decideRetention policy subject now = .ok decision) (hdue : decision.action ≠ .RETAIN) :
    decideRetention policy subject later = .ok decision := by
  obtain ⟨-, millis, heligible, helapsed⟩ := (decideRetention_destroys h).mp hdue
  obtain ⟨verdict, hverdict, rfl⟩ := decideRetention_eq_ok.mp h
  refine decideRetention_eq_ok.mpr ⟨verdict, hverdict, ?_⟩
  cases verdict with
  | retained reason => exact absurd rfl hdue
  | eligible eligibleAt =>
    obtain ⟨closedAt, -, rfl, -⟩ := retentionVerdict_eligible hverdict
    -- the date that is reported is the one of the verdict
    have hmillis : closedAt + policy.periodDays.getD 0 * 86400000 ≤ now := by
      by_contra hnot
      rw [RetentionVerdict.at_waits (not_le.mp hnot)] at hdue
      exact hdue rfl
    rw [RetentionVerdict.at_elapsed hmillis, RetentionVerdict.at_elapsed (hmillis.trans hle)]

theorem mem_selectDueCases {subjects : List RetentionSubject}
    {due : List (RetentionSubject × RetentionDecision)}
    (h : selectDueCases policy subjects now = .ok due) (hmem : (subject, decision) ∈ due) :
    decideRetention policy subject now = .ok decision ∧ decision.action ≠ .RETAIN := by
  obtain ⟨decided, hdecided, hdue⟩ := except_bind_eq_ok.mp h
  obtain rfl := Except.ok.inj hdue
  obtain ⟨hmem, haction⟩ := List.mem_filter.mp hmem
  obtain ⟨subject', -, hdecision⟩ := exists_left_of_forall₂ (except_mapM_eq_ok.mp hdecided) hmem
  obtain ⟨decision', hok, heq⟩ := except_bind_eq_ok.mp hdecision
  cases heq
  exact ⟨hok, of_decide_eq_true haction⟩

end Verdict

/-! ## Every decision -/

/-- Whatever is decided on a case, it is decided steadily. -/
theorem decideRetention_steady (policy : RetentionPolicy) (subject : RetentionSubject) :
    SteadyDecisions policy subject where
  due now decision h hdue := by
    obtain ⟨hat, hmode⟩ := decideRetention_due h hdue
    refine ⟨?_, hat⟩
    rcases hmode with ⟨-, hmode⟩ | ⟨-, hmode⟩ <;> simp [hmode]
  stays now later hle decision h hdue := ⟨decision, decideRetention_of_le hle h hdue, rfl⟩
  exactly now decision h := decideRetention_destroys h
  queued subjects now due h decision hmem later hle := by
    obtain ⟨hok, hdue⟩ := mem_selectDueCases h hmem
    exact ⟨decision, decideRetention_of_le hle hok hdue, rfl⟩

end Kommunsign
