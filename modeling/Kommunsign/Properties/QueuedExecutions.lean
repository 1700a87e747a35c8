import Kommunsign.Api.PrivacyExecution

/-!
# Whether a queued execution is queued

The key of the job is the request's, and the insert gives way to any row under it. A job that has
died or that is over keeps the key, and a later call answers like the first without a job to show
for it.

* `NotOver` — no job of the request is dead-lettered or completed
* `executions_answer_truly_iff` — the one exactly under the other, in every run
* `queued_without_job` — a request whose job was dead-lettered, and that is executed again
-/

namespace Kommunsign

open Infra

def JobStatus.isTerminal : JobStatus → Bool
  | .completed | .dead_letter => true
  | .pending | .leased => false

namespace PrivacyDesk

variable (desk : PrivacyDesk) (tenantId : Id) (privacyRequestId : UUID)

def executions : List DurableJobRow :=
  desk.queue.jobs.filter fun row =>
    row.execution? == some (tenantId, executionKey privacyRequestId)

def liveExecutions : List DurableJobRow :=
  (desk.executions tenantId privacyRequestId).filter fun row => !row.status.isTerminal

end PrivacyDesk

/--
When a call answers that the request is queued, there is a job for it that is not over, and only
one; if there was one before, the jobs are as they were.
-/
def AnswersTruly (desk : PrivacyDesk) : PrivacyDeskStep → Prop
  | .execute context privacyRequestId => ∀ view desk',
    execute context privacyRequestId desk = .ok (view, desk') →
      (desk'.liveExecutions context.tenantId privacyRequestId).length = 1 ∧
      (desk.liveExecutions context.tenantId privacyRequestId ≠ [] →
        desk'.queue.jobs = desk.queue.jobs)
  | .work _ _ | .job _ => True

/-- When a request is executed, no job of it has been dead-lettered or completed. -/
def NotOver (desk : PrivacyDesk) : PrivacyDeskStep → Prop
  | .execute context privacyRequestId =>
    ∀ row ∈ desk.executions context.tenantId privacyRequestId, row.status.isTerminal = false
  | .work _ _ | .job _ => True

/-! ## One job for each request -/

def OneExecution (desk : PrivacyDesk) : Prop :=
  (desk.queue.jobs.filterMap DurableJobRow.execution?).Nodup

section

variable {desk desk' : PrivacyDesk} {tenantId : Id} {privacyRequestId : UUID}

theorem executions_length_le (h : OneExecution desk) (tenantId : Id) (privacyRequestId : UUID) :
    (desk.executions tenantId privacyRequestId).length ≤ 1 := by
  have hcount := List.nodup_iff_count_le_one.mp h (tenantId, executionKey privacyRequestId)
  rwa [List.count_filterMap, List.countP_eq_length_filter] at hcount

theorem mem_executions {row : DurableJobRow} :
    row ∈ desk.executions tenantId privacyRequestId ↔ row ∈ desk.queue.jobs ∧
      row.execution? = some (tenantId, executionKey privacyRequestId) := by
  unfold PrivacyDesk.executions
  rw [List.mem_filter, beq_iff_eq]

theorem executions_cases (h : OneExecution desk) (tenantId : Id) (privacyRequestId : UUID) :
    desk.executions tenantId privacyRequestId = [] ∨
      ∃ row, desk.executions tenantId privacyRequestId = [row] := by
  have hle := executions_length_le h tenantId privacyRequestId
  match hrows : desk.executions tenantId privacyRequestId with
  | [] => exact Or.inl rfl
  | [row] => exact Or.inr ⟨row, rfl⟩
  | _ :: _ :: _ =>
    rw [hrows] at hle
    simp at hle

theorem OneExecution.insert (h : OneExecution desk) (tenantId : Id) (privacyRequestId : UUID) :
    ((desk.queue.insertExecution tenantId privacyRequestId).jobs.filterMap
      DurableJobRow.execution?).Nodup := by
  obtain ⟨_, hsame⟩ | ⟨hnone, hnew⟩ :=
    insertExecution_cases desk.queue tenantId privacyRequestId
  · rw [hsame]
    exact h
  · rw [hnew]
    show (List.filterMap _ (desk.queue.jobs ++ [_])).Nodup
    rw [List.filterMap_append]
    refine h.append (List.nodup_singleton _) ?_
    intro key hkey hnewkey
    obtain rfl := List.mem_singleton.mp hnewkey
    obtain ⟨row, hrow, hrowkey⟩ := List.mem_filterMap.mp hkey
    exact hnone row hrow hrowkey

theorem OneExecution.step {i : PrivacyDeskStep} (h : OneExecution desk)
    (hs : desk.step i = some desk') : OneExecution desk' := by
  cases i with
  | work tenantId stores =>
    cases hs
    exact h
  | job i =>
    simp only [PrivacyDesk.step] at hs
    split at hs
    · cases hs
    next hother =>
    obtain ⟨queue, hqueue, rfl⟩ := Option.map_eq_some_iff.mp hs
    unfold OneExecution
    rw [executions_of_jobStep (by simpa using hother) hqueue]
    exact h
  | execute context privacyRequestId =>
    obtain ⟨view, hview⟩ := Transaction.outcome_eq_some.mp hs
    unfold OneExecution
    rw [queue_of_execute hview]
    exact h.insert _ _

/-! ## What an answer is worth -/

theorem answersTruly_iff (h : OneExecution desk) {i : PrivacyDeskStep}
    (hs : desk.step i = some desk') : AnswersTruly desk i ↔ NotOver desk i := by
  cases i with
  | work tenantId stores => exact Iff.rfl
  | job i => exact Iff.rfl
  | execute context privacyRequestId =>
    obtain ⟨view, hview⟩ := Transaction.outcome_eq_some.mp hs
    have hqueue := queue_of_execute hview
    -- there is one answer, and its state is the one after the insert
    have hanswer : AnswersTruly desk (.execute context privacyRequestId) ↔
        (desk'.liveExecutions context.tenantId privacyRequestId).length = 1 ∧
          (desk.liveExecutions context.tenantId privacyRequestId ≠ [] →
            desk'.queue.jobs = desk.queue.jobs) := by
      constructor
      · intro htrue
        exact htrue view desk' hview
      · intro hlive view' desk'' hview'
        rw [hview] at hview'
        cases hview'
        exact hlive
    rw [hanswer]
    show _ ↔ ∀ row ∈ desk.executions context.tenantId privacyRequestId,
      row.status.isTerminal = false
    unfold PrivacyDesk.liveExecutions
    rcases executions_cases h context.tenantId privacyRequestId with hnone | ⟨row, hone⟩
    · -- a first call inserts the job
      have hkeys : ∀ row ∈ desk.queue.jobs,
          row.execution? ≠ some (context.tenantId, executionKey privacyRequestId) :=
        fun row hrow hkey => List.not_mem_nil (hnone ▸ mem_executions.mpr ⟨hrow, hkey⟩)
      have hexecutions : desk'.executions context.tenantId privacyRequestId =
          [newJob desk.queue.jobs desk.queue.now context.tenantId .PRIVACY_REQUEST_EXECUTE none
            (executionKey privacyRequestId) 3] := by
        obtain ⟨⟨row, hrow, hkey⟩, _⟩ | ⟨_, hnew⟩ :=
          insertExecution_cases desk.queue context.tenantId privacyRequestId
        · exact absurd hkey (hkeys row hrow)
        · have hold : desk.queue.jobs.filter (fun row =>
              row.execution? == some (context.tenantId, executionKey privacyRequestId)) = [] := hnone
          unfold PrivacyDesk.executions
          rw [hqueue, hnew, List.filter_append, hold, List.nil_append]
          exact List.filter_eq_self.mpr fun row hrow => by
            obtain rfl := List.mem_singleton.mp hrow
            exact beq_iff_eq.mpr rfl
      rw [hexecutions, hnone]
      simp [newJob, JobStatus.isTerminal]
    · -- a later call finds the job, and leaves it alone
      have hmem : row ∈ desk.executions context.tenantId privacyRequestId :=
        hone ▸ List.mem_singleton_self row
      have hsame : desk'.queue = desk.queue := by
        rw [hqueue]
        obtain ⟨_, hsame⟩ | ⟨hnone, _⟩ :=
          insertExecution_cases desk.queue context.tenantId privacyRequestId
        · exact hsame
        · exact absurd (mem_executions.mp hmem).2 (hnone row (mem_executions.mp hmem).1)
      have hexecutions : desk'.executions context.tenantId privacyRequestId = [row] := by
        rw [← hone]
        unfold PrivacyDesk.executions
        rw [hsame]
      rw [hexecutions, hone, hsame]
      cases hstatus : row.status.isTerminal with
      | true => simp [hstatus]
      | false => simp [hstatus]

end

/--
In every run the answers are true exactly if no request is executed after its job has been
dead-lettered or completed.
-/
theorem executions_answer_truly_iff {stores : Id → PersonalData} {now : Time}
    {steps : List PrivacyDeskStep} {desk : PrivacyDesk}
    (h : run PrivacyDesk.step (PrivacyDesk.start stores now) steps = some desk) :
    Meets PrivacyDesk.step AnswersTruly (PrivacyDesk.start stores now) steps ↔
      Meets PrivacyDesk.step NotOver (PrivacyDesk.start stores now) steps := by
  have hinv : ∀ desk i desk', OneExecution desk → NotOver desk i → desk.step i = some desk' →
      OneExecution desk' := fun _ _ _ hone _ hs => hone.step hs
  have hstart : OneExecution (PrivacyDesk.start stores now) := List.nodup_nil
  exact meets_iff_meets hinv (fun _ _ _ hone hs => answersTruly_iff hone hs) hstart h

/-! ## A job that has died -/

namespace PrivacyDesk

def accessRequest : PrivacyRequestRow where
  id := "r"
  state := .RECEIVED
  rightRequested := .ACCESS
  subjectIdentifierBlindIndex := 0
  subjectUserId := none
  receivedAt := 0
  identityVerifiedAt := some 0
  identityMethod := some "BANKID"
  identityAssurance := some .HIGH
  handledBy := none
  refusalGround := none
  deliveredAt := none

def oneRequest : PersonalData where
  requests := [accessRequest]
  coverage := []
  responses := []
  signers := []
  users := []
  onboardingApplications := []
  onboardingContacts := []
  legalHolds := []
  intents := []
  identityArtifacts := []
  auditEvents := []
  objects := []

def caller : CallerContext := ⟨1, "u"⟩

def taken : List PrivacyDeskStep :=
  [.execute caller "r", .job (.poll 7 [1] 10 60), .job (.claim 7 []), .job (.start 7)]

def executedAgain : List PrivacyDeskStep :=
  taken ++ [.job (.fail 7 ⟨(1, 0), 1, 3⟩ true 0), .execute caller "r"]

def executedTwice : List PrivacyDeskStep := taken ++ [.execute caller "r"]

def first : PrivacyDesk := start (fun _ => oneRequest) 0

end PrivacyDesk

instance (desk : PrivacyDesk) (i : PrivacyDeskStep) : Decidable (NotOver desk i) := by
  cases i with
  | work => exact isTrue trivial
  | job => exact isTrue trivial
  | execute context privacyRequestId =>
    exact inferInstanceAs (Decidable (∀ row ∈ desk.executions context.tenantId privacyRequestId,
      row.status.isTerminal = false))

theorem executions_answer_truly_iff_executedTwice :
    Meets PrivacyDesk.step AnswersTruly PrivacyDesk.first PrivacyDesk.executedTwice := by
  obtain ⟨desk, hdesk⟩ :
      ∃ desk, run PrivacyDesk.step PrivacyDesk.first PrivacyDesk.executedTwice = some desk :=
    Option.isSome_iff_exists.mp (by decide +kernel)
  exact (executions_answer_truly_iff hdesk).mpr (by decide +kernel)

/-- The second call answers, and no job of the request is left to run. -/
theorem queued_without_job : ∃ desk desk' view,
    execute PrivacyDesk.caller "r" desk = .ok (view, desk') ∧
      desk'.liveExecutions PrivacyDesk.caller.tenantId "r" = [] ∧
      run PrivacyDesk.step PrivacyDesk.first PrivacyDesk.executedAgain = some desk' ∧
      ¬Meets PrivacyDesk.step AnswersTruly PrivacyDesk.first PrivacyDesk.executedAgain := by
  have hrun : ∃ desk ∈ run PrivacyDesk.step PrivacyDesk.first
        (PrivacyDesk.taken ++ [.job (.fail 7 ⟨(1, 0), 1, 3⟩ true 0)]),
      ∃ answer ∈ (execute PrivacyDesk.caller "r" desk).toOption,
        answer.2.liveExecutions PrivacyDesk.caller.tenantId "r" = [] := by
    decide +kernel
  obtain ⟨desk, hdesk, ⟨view, desk'⟩, hanswer, hnone⟩ := hrun
  have hview : execute PrivacyDesk.caller "r" desk = .ok (view, desk') :=
    toOption_eq_some.mp hanswer
  have hsteps : PrivacyDesk.executedAgain =
      (PrivacyDesk.taken ++ [.job (.fail 7 ⟨(1, 0), 1, 3⟩ true 0)]) ++
        [.execute PrivacyDesk.caller "r"] := rfl
  refine ⟨desk, desk', view, hview, hnone, ?_, fun hmeets => ?_⟩
  · rw [hsteps]
    refine run_append.mpr ⟨desk, hdesk, run_cons_eq_some.mpr ⟨desk', ?_, rfl⟩⟩
    exact Transaction.outcome_eq_some.mpr ⟨view, hview⟩
  · rw [hsteps] at hmeets
    obtain ⟨_, hlast⟩ := meets_append hmeets hdesk
    have hone := (hlast.1 view desk' hview).1
    rw [hnone] at hone
    exact nomatch hone

end Kommunsign
