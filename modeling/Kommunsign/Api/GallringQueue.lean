import Kommunsign.Infra.Moved
import Kommunsign.Worker.GallringGuards

/-!
# Queueing a gallring, statement by statement

`queue` of the repository of gallring runs, as it runs among other transactions: it reads the
policy, then every case, and inserts the run. Each statement sees what is committed then. The
wrapper that is called `idempotent` only runs its callback.

* `QueueCall.next` — the next statement of an open call
* `AnswersRecorded` — every run that a call has answered with is in the table
-/

namespace Kommunsign

open Infra

/-- A call of `queue`; `gallringJobId` is what the database generates for the inserted row. -/
structure QueueCall where
  tenantId : UUID
  subjectId : UUID
  policyKey : String
  caseIds : List UUID
  idempotencyKey : String
  payloadHash : String
  gallringJobId : UUID
  deriving DecidableEq

inductive QueueStage where
  | begun
  /-- The policy and the time of the decision have been read, `rest` is still to be checked. -/
  | checking (policy : RetentionPolicy) (now : Int) (rest : List UUID)

/-- A call whose transaction is open. -/
structure QueueSession where
  call : QueueCall
  startedAt : Int
  stage : QueueStage

/-- What a statement makes of an open call. -/
inductive QueueOutcome where
  | goes (stage : QueueStage)
  | refused (fault : RetentionFault)
  /-- The run is inserted, and the transaction commits. -/
  | queued (job : GallringJobRow) (data : RetentionData)

/-- The run that a call inserts. -/
def QueueSession.plannedRun (session : QueueSession) (policy : RetentionPolicy) (now : Int)
    (data : RetentionData) : GallringJobRow :=
  let run := { data with clock := now }.plannedRun policy session.call.subjectId
    session.call.policyKey session.call.caseIds session.call.gallringJobId
  { run with requestedAt := session.startedAt }

/-- The next statement of the call; its key and the hash of its payload are not looked at. -/
def QueueSession.next (session : QueueSession) (data : RetentionData) : QueueOutcome :=
  match session.stage with
  | .begun =>
    if session.call.caseIds.length = 0 then
      .refused (.retention
        (.policyError "GALLRING_REPORT_EMPTY" "A gallring must cover at least one case"))
    else
      match data.loadPolicy session.call.policyKey with
      | none =>
        .refused (targetUnknown ("No active retention policy " ++ session.call.policyKey))
      | some policy => .goes (.checking policy data.clock session.call.caseIds)
  | .checking policy now (caseId :: rest) =>
    match requireDue policy caseId { data with clock := now } with
    | .error fault => .refused fault
    | .ok _ => .goes (.checking policy now rest)
  | .checking policy now [] =>
    match gallringJobs.insert (session.plannedRun policy now data) data with
    | .error fault => .refused fault
    | .ok (_, data') => .queued (session.plannedRun policy now data) data'

/-- What a call was answered: the run, or why it was refused. -/
structure QueueAnswer where
  call : QueueCall
  result : Except RetentionFault GallringJobRow

/-- The data of each tenant, the open calls, and the answers, oldest first. -/
structure GallringDesk where
  tenants : UUID → RetentionData
  sessions : Nat → Option QueueSession
  answers : List QueueAnswer

inductive GallringDeskStep where
  | begin (i : Nat) (call : QueueCall)
  | statement (i : Nat)
  /-- The transaction is rolled back without an answer. -/
  | disconnect (i : Nat)
  /-- Everything else: approvals, executions, and what surrounds the runs. -/
  | other (tenantId : UUID) (step : RetentionStep)

def RetentionStep.queues : RetentionStep → Bool
  | .queue .. => true
  | .surroundings _ | .approve .. | .execute .. => false

namespace GallringDesk

def start (tenants : UUID → RetentionData) : GallringDesk := ⟨tenants, fun _ => none, []⟩

variable (desk : GallringDesk)

/-- The transaction of a call goes on. -/
def proceed (i : Nat) (session : QueueSession) : GallringDesk :=
  { desk with sessions := Function.update desk.sessions i (some session) }

/-- The call is over. -/
def answer (i : Nat) (session : QueueSession) (result : Except RetentionFault GallringJobRow)
    (data : RetentionData) : GallringDesk where
  tenants := Function.update desk.tenants session.call.tenantId data
  sessions := Function.update desk.sessions i none
  answers := desk.answers ++ [⟨session.call, result⟩]

def step : GallringDeskStep → Option GallringDesk
  | .begin i call =>
    match desk.sessions i with
    | some _ => none
    | none => some (desk.proceed i ⟨call, (desk.tenants call.tenantId).clock, .begun⟩)
  | .statement i =>
    match desk.sessions i with
    | none => none
    | some session =>
      let data := desk.tenants session.call.tenantId
      match session.next data with
      | .goes stage => some (desk.proceed i { session with stage := stage })
      | .refused fault => some (desk.answer i session (.error fault) data)
      | .queued job data' => some (desk.answer i session (.ok job) data')
  | .disconnect i =>
    match desk.sessions i with
    | none => none
    | some _ => some { desk with sessions := Function.update desk.sessions i none }
  | .other tenantId step =>
    if step.queues then none
    else (retentionStep (desk.tenants tenantId) step).map fun data =>
      { desk with tenants := Function.update desk.tenants tenantId data }

end GallringDesk

/-! ## The statements -/

section

variable {session : QueueSession} {data : RetentionData}

theorem next_eq_queued {job : GallringJobRow} {data' : RetentionData}
    (h : session.next data = .queued job data') : ∃ policy now,
      session.stage = .checking policy now [] ∧ job = session.plannedRun policy now data ∧
        gallringJobs.onInsert data job = .ok () ∧ data' = { data with jobs := data.jobs ++ [job] } := by
  obtain ⟨call, startedAt, stage⟩ := session
  cases stage with
  | begun =>
    unfold QueueSession.next at h
    dsimp only at h
    split at h
    · cases h
    · split at h
      · cases h
      · cases h
  | checking policy now rest =>
    cases rest with
    | cons caseId rest =>
      unfold QueueSession.next at h
      dsimp only at h
      split at h
      · cases h
      · cases h
    | nil =>
      refine ⟨policy, now, rfl, ?_⟩
      unfold QueueSession.next at h
      dsimp only at h
      split at h
      · cases h
      · next data'' hinsert =>
        cases h
        obtain ⟨haccepted, hdata⟩ := Table.insert_eq_ok.mp hinsert
        exact ⟨rfl, haccepted, hdata⟩

theorem statement_cases {desk desk' : GallringDesk} {i : Nat}
    (h : desk.step (.statement i) = some desk') : ∃ session, desk.sessions i = some session ∧
      ((∃ stage, session.next (desk.tenants session.call.tenantId) = .goes stage ∧
          desk' = desk.proceed i { session with stage := stage }) ∨
        (∃ fault, session.next (desk.tenants session.call.tenantId) = .refused fault ∧
          desk' = desk.answer i session (.error fault) (desk.tenants session.call.tenantId)) ∨
        ∃ job data', session.next (desk.tenants session.call.tenantId) = .queued job data' ∧
          desk' = desk.answer i session (.ok job) data') := by
  cases hsession : desk.sessions i with
  | none =>
    simp only [GallringDesk.step, hsession] at h
    exact nomatch h
  | some session =>
    refine ⟨session, rfl, ?_⟩
    simp only [GallringDesk.step, hsession] at h
    cases hnext : session.next (desk.tenants session.call.tenantId) with
    | goes stage =>
      rw [hnext] at h
      exact Or.inl ⟨stage, rfl, (Option.some.inj h).symm⟩
    | refused fault =>
      rw [hnext] at h
      exact Or.inr (Or.inl ⟨fault, rfl, (Option.some.inj h).symm⟩)
    | queued job data' =>
      rw [hnext] at h
      exact Or.inr (Or.inr ⟨job, data', rfl, (Option.some.inj h).symm⟩)

end

/-! ## The runs in the table -/

theorem jobIds_of_retentionStep {data data' : RetentionData} {step : RetentionStep}
    (hother : step.queues = false) (h : retentionStep data step = some data') :
    data'.jobs.map (·.id) = data.jobs.map (·.id) := by
  cases step with
  | surroundings next =>
    cases h
    rfl
  | queue subjectId policyKey caseIds gallringJobId => exact nomatch hother
  | approve subjectId gallringJobId =>
    obtain ⟨_, h⟩ := Transaction.outcome_eq_some.mp h
    rw [approveGallringJob, Transaction.read_bind] at h
    obtain ⟨job, data₁, hfind, h₁⟩ := Transaction.bind_eq_ok.mp h
    obtain ⟨_, rfl⟩ := Transaction.demand_eq_ok.mp hfind
    split at h₁
    · exact (Transaction.fail_eq_ok.mp h₁).elim
    split at h₁
    · exact (Transaction.fail_eq_ok.mp h₁).elim
    obtain ⟨_, data₂, hupdate, h₂⟩ := Transaction.bind_eq_ok.mp h₁
    obtain ⟨_, rfl, _⟩ := Table.update_eq_ok.mp hupdate
    rw [Transaction.rewrite_eq_ok.mp h₂]
    exact map_assign fun _ _ _ => rfl
  | execute env gallringJobId =>
    rw [retentionStep] at h
    split at h
    · cases h
      have hkept : List.Forall₂ _ data.jobs (handleRetentionExecute env gallringJobId data).2.jobs :=
        keepsRuns_execution gallringJobId data
      have hids : List.Forall₂ (fun old new : GallringJobRow => new.id = old.id) data.jobs
          (handleRetentionExecute env gallringJobId data).2.jobs :=
        hkept.imp fun _ _ hrun => congrArg GallringTerms.gallringJobId hrun.terms
      exact Moved.map_eq hids fun _ _ hid => hid
    · cases h

/-- Every run that a call was answered with is in the table of its tenant. -/
def AnswersRecorded (desk : GallringDesk) : Prop :=
  ∀ answer ∈ desk.answers, ∀ job, answer.result = .ok job →
    job.id ∈ (desk.tenants answer.call.tenantId).jobs.map (·.id)

section

variable {desk desk' : GallringDesk}

theorem AnswersRecorded.update (h : AnswersRecorded desk) {tenantId : UUID} {data : RetentionData}
    (hids : (desk.tenants tenantId).jobs.map (·.id) ⊆ data.jobs.map (·.id)) :
    ∀ answer ∈ desk.answers, ∀ job, answer.result = .ok job →
      job.id ∈ (Function.update desk.tenants tenantId data answer.call.tenantId).jobs.map (·.id) := by
  intro answer hanswer job hjob
  have hmem := h answer hanswer job hjob
  by_cases htenant : answer.call.tenantId = tenantId
  · rw [htenant, Function.update_self]
    rw [htenant] at hmem
    exact hids hmem
  · rwa [Function.update_of_ne htenant]

theorem AnswersRecorded.answer (h : AnswersRecorded desk) {i : Nat} {session : QueueSession}
    {result : Except RetentionFault GallringJobRow} {data : RetentionData}
    (hids : (desk.tenants session.call.tenantId).jobs.map (·.id) ⊆ data.jobs.map (·.id))
    (hresult : ∀ job, result = .ok job → job.id ∈ data.jobs.map (·.id)) :
    AnswersRecorded (desk.answer i session result data) := by
  intro answer hanswer job hjob
  rcases List.mem_append.mp hanswer with hold | hnew
  · exact h.update hids answer hold job hjob
  · obtain rfl := List.mem_singleton.mp hnew
    show job.id ∈ (Function.update desk.tenants session.call.tenantId data
      session.call.tenantId).jobs.map (·.id)
    rw [Function.update_self]
    exact hresult job hjob

theorem AnswersRecorded.step {i : GallringDeskStep} (h : AnswersRecorded desk)
    (hs : desk.step i = some desk') : AnswersRecorded desk' := by
  cases i with
  | begin i call =>
    simp only [GallringDesk.step] at hs
    split at hs
    · cases hs
    · cases hs
      exact h
  | statement i =>
    obtain ⟨session, _, ⟨stage, _, rfl⟩ | ⟨fault, _, rfl⟩ | ⟨job, data', hqueued, rfl⟩⟩ :=
      statement_cases hs
    · exact h
    · refine h.answer ?_ fun job hjob => ?_
      · exact List.Subset.refl _
      · exact nomatch hjob
    · obtain ⟨_, _, _, _, _, hdata⟩ := next_eq_queued hqueued
      refine h.answer ?_ fun job' hjob' => ?_
      · rw [hdata, List.map_append]
        exact List.subset_append_left _ _
      · obtain rfl := Except.ok.inj hjob'
        rw [hdata]
        exact List.mem_map_of_mem (List.mem_append_right _ List.mem_cons_self)
  | disconnect i =>
    simp only [GallringDesk.step] at hs
    split at hs
    · cases hs
    · cases hs
      exact h
  | other tenantId step =>
    simp only [GallringDesk.step] at hs
    split at hs
    · cases hs
    next hother =>
    obtain ⟨data, hdata, rfl⟩ := Option.map_eq_some_iff.mp hs
    refine h.update ?_
    rw [jobIds_of_retentionStep (by simpa using hother) hdata]
    exact List.Subset.refl _

end

end Kommunsign
