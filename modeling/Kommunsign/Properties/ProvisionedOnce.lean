import Kommunsign.Control.Provisioning
import Kommunsign.Infra.Lists

/-!
# What becomes of a completed provisioning request

A run writes the outcome it has come to without a look at what is there. When runs do not overlap,
a request that is completed stays so, and a step that is completed is not done again. A run that
follows a failed one leaves the application where the failure has put it, and a failure between two
steps is marked on the step before.

* `Provisioning.InOrder` — what holds between two steps of such runs
* `provisioned_once` — the second and third in every run of the first
* `provisioned_again` — the three ways in which it fails
-/

namespace Kommunsign

open Infra

def Provisioning.isDone (s : Provisioning) (step : ProvisioningStep) : Bool :=
  (s.stepRow step).any (·.status.done)

structure ProvisionedOnce (s : Provisioning) : Prop where
  stays : s.everCompleted = true →
    s.request.status ≠ .failed ∧ s.request.status ≠ .waiting_for_external_dependency
  once : s.applied.Nodup
  all : s.request.status = .completed → ∀ step, step ∈ s.applied
  application : s.request.status = .completed → s.application ≠ .provisioning_failed

def RunsInTurn (s : Provisioning) : ProvisioningAction → Prop
  | .claim => (∀ r ∈ s.runs, r = none) ∧ s.application ≠ .provisioning_failed
  | .finish _ => s.domainReady = true
  | .throws _ _ => ∀ step ∈ s.request.currentStep, s.isDone step = false
  | _ => True

instance decidableRunsInTurn (s : Provisioning) : ∀ action, Decidable (RunsInTurn s action)
  | .claim =>
    inferInstanceAs (Decidable ((∀ r ∈ s.runs, r = none) ∧ s.application ≠ .provisioning_failed))
  | .finish _ => inferInstanceAs (Decidable (s.domainReady = true))
  | .throws _ _ =>
    inferInstanceAs (Decidable (∀ step ∈ s.request.currentStep, s.isDone step = false))
  | .tick _ => isTrue trivial
  | .beginStep _ => isTrue trivial
  | .workStep _ _ => isTrue trivial
  | .markWaiting _ => isTrue trivial
  | .markFailed _ => isTrue trivial
  | .crash _ => isTrue trivial
  | .retry => isTrue trivial
  | .provision => isTrue trivial
  | .requeue => isTrue trivial
  | .decide _ => isTrue trivial

/-! ## Step rows -/

section

variable {s s' : Provisioning} {step other : ProvisioningStep} {f : StepRow → StepRow}

theorem mem_provisioningSteps (step : ProvisioningStep) : step ∈ provisioningSteps := by
  cases step <;> decide

theorem exists_stepRow (hrows : s.steps.map (·.stepKey) = provisioningSteps)
    (step : ProvisioningStep) : ∃ row, s.stepRow step = some row := by
  obtain ⟨row, hrow, hkey⟩ := List.mem_map.mp (hrows ▸ mem_provisioningSteps step)
  refine Option.isSome_iff_exists.mp ?_
  rw [Provisioning.stepRow, List.find?_isSome]
  exact ⟨row, hrow, beq_iff_eq.mpr hkey⟩

theorem stepRow_updateStep (hkey : ∀ row, (f row).stepKey = row.stepKey) :
    (s.updateStep step f).stepRow other =
      if other = step then (s.stepRow step).map f else s.stepRow other := by
  have hfound := @find?_assign StepRow ProvisioningStep _ (·.stepKey) (·.stepKey == step) f s.steps
    other (fun row _ _ => hkey row)
  unfold Provisioning.updateStep Provisioning.stepRow
  rw [hfound]
  split
  · rename_i heq
    subst heq
    cases hrow : s.steps.find? (·.stepKey == other) with
    | none => rfl
    | some row =>
      simp only [Option.map_some]
      rw [if_pos (by simpa using List.find?_some hrow)]
  · rename_i hne
    cases hrow : s.steps.find? (·.stepKey == other) with
    | none => rfl
    | some row =>
      have hkey' : row.stepKey = other := by simpa using List.find?_some hrow
      simp only [Option.map_some]
      rw [if_neg (by simpa [hkey'] using hne)]

theorem isDone_updateStep (hrows : s.steps.map (·.stepKey) = provisioningSteps)
    (hkey : ∀ row, (f row).stepKey = row.stepKey) {done : Bool}
    (hdone : ∀ row, (f row).status.done = done) :
    (s.updateStep step f).isDone other = if other = step then done else s.isDone other := by
  unfold Provisioning.isDone
  rw [stepRow_updateStep hkey]
  split
  · obtain ⟨row, hrow⟩ := exists_stepRow hrows step
    rw [hrow]
    exact hdone row
  · rfl

theorem isDone_mark (hrows : s.steps.map (·.stepKey) = provisioningSteps)
    (hkey : ∀ row, (f row).stepKey = row.stepKey) (hdone : ∀ row, (f row).status.done = false)
    (hopen : s.isDone step = false) (other : ProvisioningStep) :
    (s.updateStep step f).isDone other = s.isDone other := by
  rw [isDone_updateStep hrows hkey hdone]
  split
  · rename_i heq
    rw [heq, hopen]
  · rfl

theorem steps_updateStep (hkey : ∀ row, (f row).stepKey = row.stepKey) :
    (s.updateStep step f).steps.map (·.stepKey) = s.steps.map (·.stepKey) :=
  map_assign fun row _ _ => hkey row

end

/-! ## Runs in turn -/

def ProvisioningRun.Sound (s : Provisioning) : ProvisioningRun → Prop
  | .before steps => ∀ step, step ∉ steps → s.isDone step = true
  | .working step steps => s.isDone step = false ∧
      ∀ other, other ≠ step → other ∉ steps → s.isDone other = true
  | .waits step _ => s.isDone step = false
  | .fails explicitStep _ => ∀ step ∈ s.failedStep explicitStep, s.isDone step = false

def ProvisioningRun.UnderWay (s : Provisioning) (r : ProvisioningRun) : Prop :=
  r.Sound s ∧ s.request.status ≠ .completed ∧ s.application ≠ .provisioning_failed

structure Provisioning.RowsInOrder (s : Provisioning) : Prop where
  rows : s.steps.map (·.stepKey) = provisioningSteps
  tenant : s.isDone .reserve_tenant_slug = true → s.request.tenantId ≠ none
  applied : ∀ step, step ∈ s.applied ↔ s.isDone step = true
  once : s.applied.Nodup
  complete : s.request.status = .completed → ∀ step, s.isDone step = true
  stays : s.everCompleted = true → s.request.status = .completed
  application : s.request.status = .completed → s.application ≠ .provisioning_failed

structure Provisioning.InOrder (s : Provisioning) : Prop extends s.RowsInOrder where
  alone : Alone s.runs
  running : ∀ (i : Nat) (r : ProvisioningRun), s.runs[i]?.join = some r → r.UnderWay s

section

variable {s s' : Provisioning} {i : Nat} {r : ProvisioningRun} {value : Option ProvisioningRun}
  {step : ProvisioningStep} {steps : List ProvisioningStep} {f : StepRow → StepRow}

theorem ProvisioningRun.Sound.congr (hdone : ∀ step, s'.isDone step = s.isDone step)
    (hcurrent : s'.request.currentStep = s.request.currentStep) (h : r.Sound s) : r.Sound s' := by
  cases r with
  | before steps =>
    intro step hstep
    rw [hdone]
    exact h step hstep
  | working step steps =>
    refine ⟨(hdone step).trans h.1, fun other hne hother => ?_⟩
    rw [hdone]
    exact h.2 other hne hother
  | waits step code => exact (hdone step).trans h
  | fails explicitStep code =>
    intro step hstep
    rw [hdone]
    refine h step ?_
    unfold Provisioning.failedStep at hstep ⊢
    rwa [hcurrent] at hstep

theorem Provisioning.RowsInOrder.congr (h : s.RowsInOrder)
    (hrows : s'.steps.map (·.stepKey) = s.steps.map (·.stepKey))
    (hdone : ∀ step, s'.isDone step = s.isDone step)
    (htenant : s'.request.tenantId = s.request.tenantId) (happlied : s'.applied = s.applied)
    (hever : s'.everCompleted = s.everCompleted)
    (hstatus : s'.request.status = .completed ↔ s.request.status = .completed)
    (happlication : s'.request.status = .completed → s'.application = .provisioning_failed →
      s.application = .provisioning_failed) : s'.RowsInOrder where
  rows := hrows.trans h.rows
  tenant := by
    rw [hdone, htenant]
    exact h.tenant
  applied := by
    intro step
    rw [happlied, hdone]
    exact h.applied step
  once := happlied ▸ h.once
  complete := by
    intro hcompleted step
    rw [hdone]
    exact h.complete (hstatus.mp hcompleted) step
  stays := by
    rw [hever, hstatus]
    exact h.stays
  application hcompleted hfailed :=
    h.application (hstatus.mp hcompleted) (happlication hcompleted hfailed)

theorem Provisioning.InOrder.set (h : s.InOrder) (hi : s.runs[i]?.join = some r)
    (hruns : s'.runs = s.runs.set i value) (hrows : s'.RowsInOrder)
    (hvalue : ∀ r', value = some r' → r'.UnderWay s') : s'.InOrder := by
  obtain ⟨halone, honly⟩ := h.alone.set hi value
  refine { hrows with alone := hruns ▸ halone, running := fun j r' hj => ?_ }
  rw [hruns] at hj
  exact hvalue r' (honly j r' hj)

theorem Provisioning.InOrder.others (h : s.InOrder) (hsteps : s'.steps = s.steps)
    (htenant : s'.request.tenantId = s.request.tenantId)
    (hcurrent : s'.request.currentStep = s.request.currentStep)
    (happlied : s'.applied = s.applied) (hever : s'.everCompleted = s.everCompleted)
    (hruns : s'.runs = s.runs)
    (hstatus : s'.request.status = .completed ↔ s.request.status = .completed)
    (happlication : s'.application = .provisioning_failed → s.application = .provisioning_failed) :
    s'.InOrder := by
  have hdone : ∀ step, s'.isDone step = s.isDone step := by
    intro step
    unfold Provisioning.isDone Provisioning.stepRow
    rw [hsteps]
  have hrows := h.toRowsInOrder.congr (by rw [hsteps]) hdone htenant happlied hever hstatus
    fun _ => happlication
  refine { hrows with
    alone := hruns ▸ h.alone, running := fun j r' hj => ?_ }
  rw [hruns] at hj
  obtain ⟨hsound, hopen, hnot⟩ := h.running j r' hj
  exact ⟨hsound.congr hdone hcurrent, fun hc => hopen (hstatus.mp hc),
    fun hc => hnot (happlication hc)⟩

theorem Provisioning.InOrder.goes_on (h : s.InOrder) (hi : s.runs[i]?.join = some r)
    {r' : ProvisioningRun} (hr : r'.Sound s) : (s.setRun i (some r')).InOrder := by
  refine h.set hi rfl (h.toRowsInOrder.congr rfl (fun _ => rfl) rfl rfl rfl Iff.rfl fun _ => id) ?_
  rintro _ ⟨⟩
  have hsound : r'.Sound (s.setRun i (some r')) := hr.congr (fun _ => rfl) rfl
  exact ⟨hsound, (h.running i r hi).2⟩

theorem Provisioning.InOrder.gone (h : s.InOrder) (i : Nat) : (s.setRun i none).InOrder := by
  have hrows : (s.setRun i none).RowsInOrder :=
    h.toRowsInOrder.congr rfl (fun _ => rfl) rfl rfl rfl Iff.rfl fun _ => id
  have hslot : ∀ (j : Nat) (r : ProvisioningRun), (s.setRun i none).runs[j]?.join = some r →
      s.runs[j]?.join = some r := by
    intro j r hj
    rcases slot_set hj with ⟨_, hnone⟩ | ⟨_, hj⟩
    · exact nomatch hnone
    · exact hj
  refine ⟨hrows, fun j k a b hj hk => ?_, fun j r hj => ?_⟩
  · exact h.alone j k a b (hslot j a hj) (hslot k b hk)
  · exact h.running j r (hslot j r hj)

theorem Provisioning.InOrder.mark (h : s.InOrder) (hi : s.runs[i]?.join = some r)
    (hruns : s'.runs = s.runs.set i value) (hsteps : s'.steps = (s.updateStep step f).steps)
    (hkey : ∀ row, (f row).stepKey = row.stepKey) (hdone : ∀ row, (f row).status.done = false)
    (hopen : s.isDone step = false) (htenant : s'.request.tenantId = s.request.tenantId)
    (happlied : s'.applied = s.applied) (hever : s'.everCompleted = s.everCompleted)
    (hstatus : s'.request.status ≠ .completed)
    (hvalue : (∀ step, s'.isDone step = s.isDone step) → ∀ r', value = some r' → r'.UnderWay s') :
    s'.InOrder := by
  have hsame : ∀ step, s'.isDone step = s.isDone step := by
    intro other
    rw [← isDone_mark h.rows hkey hdone hopen other]
    unfold Provisioning.isDone Provisioning.stepRow
    rw [hsteps]
  refine h.set hi hruns (h.toRowsInOrder.congr ?_ hsame htenant happlied hever ?_ ?_) (hvalue hsame)
  · rw [hsteps, steps_updateStep hkey]
  · exact ⟨fun hc => absurd hc hstatus, fun hc => absurd hc (h.running i r hi).2.1⟩
  · exact fun hc => absurd hc hstatus

/-! ## What one transaction keeps -/

theorem Provisioning.InOrder.claimRequest (h : s.InOrder)
    (hempty : ∀ slot ∈ s.runs, slot = none) (hnot : s.application ≠ .provisioning_failed) :
    s.claimRequest.InOrder := by
  unfold Provisioning.claimRequest
  split
  · exact h
  · rename_i hclaimed
    have hopen : s.request.status ≠ .completed := fun hc => hclaimed (.inr (.inl hc))
    have hrunning : ProvisioningStatus.running ≠ .completed := by decide
    obtain ⟨halone, honly⟩ := alone_append hempty (ProvisioningRun.before provisioningSteps)
    refine ⟨h.toRowsInOrder.congr rfl (fun _ => rfl) rfl rfl rfl ?_ (fun _ => id), halone, ?_⟩
    · exact ⟨fun hc => absurd hc hrunning, fun hc => absurd hc hopen⟩
    · intro j r hj
      obtain rfl := honly j r hj
      -- every step is still to come
      exact ⟨fun step hstep => absurd (mem_provisioningSteps step) hstep, hrunning, hnot⟩

theorem Provisioning.InOrder.beginStep (h : s.InOrder)
    (hi : s.runs[i]?.join = some (.before (step :: steps))) :
    (s.beginStep i step steps).InOrder := by
  obtain ⟨row, hrow⟩ := exists_stepRow h.rows step
  obtain ⟨hsound, hopen, hnot⟩ := h.running i _ hi
  have hisDone : s.isDone step = row.status.done := by
    unfold Provisioning.isDone
    rw [hrow]
    rfl
  unfold Provisioning.beginStep
  rw [hrow]
  dsimp only
  split
  · rename_i hdone
    refine h.goes_on hi fun other hother => ?_
    by_cases heq : other = step
    · rw [heq, hisDone, hdone]
    · exact hsound other (by simp [heq, hother])
  · rename_i hdone
    have hopenStep : s.isDone step = false := by
      rw [hisDone]
      exact Bool.not_eq_true _ ▸ hdone
    refine h.mark hi rfl rfl (fun _ => rfl) (fun _ => rfl) hopenStep rfl rfl rfl hopen ?_
    rintro hsame _ ⟨⟩
    refine ⟨⟨?_, fun other hne hother => ?_⟩, hopen, hnot⟩
    · rw [hsame]
      exact hopenStep
    · rw [hsame]
      exact hsound other (by simp [hne, hother])

theorem Provisioning.InOrder.worked (h : s.InOrder)
    (hi : s.runs[i]?.join = some (.working step steps))
    (hruns : s'.runs = s.runs.set i (some (.before steps)))
    (hsteps : s'.steps = (s.updateStep step f).steps)
    (hkey : ∀ row, (f row).stepKey = row.stepKey) (hdone : ∀ row, (f row).status.done = true)
    (htenant : s'.request.tenantId ≠ none) (happlied : s'.applied = s.applied ++ [step])
    (hever : s'.everCompleted = s.everCompleted)
    (hstatus : s'.request.status = s.request.status) (happlication : s'.application = s.application) :
    s'.InOrder := by
  obtain ⟨⟨hopenStep, hothers⟩, hopen, hnot⟩ := h.running i _ hi
  have hisDone : ∀ other, s'.isDone other = if other = step then true else s.isDone other := by
    intro other
    rw [← isDone_updateStep h.rows hkey hdone]
    unfold Provisioning.isDone Provisioning.stepRow
    rw [hsteps]
  rw [← hstatus] at hopen
  rw [← happlication] at hnot
  refine h.set hi hruns
    ⟨?_, fun _ => htenant, ?_, ?_, fun hc => absurd hc hopen, ?_, fun _ => hnot⟩ ?_
  · rw [hsteps, steps_updateStep hkey]
    exact h.rows
  · intro other
    rw [happlied, hisDone, List.mem_append, List.mem_singleton]
    split
    · rename_i heq
      exact ⟨fun _ => rfl, fun _ => .inr heq⟩
    · rename_i hne
      rw [or_iff_left hne]
      exact h.applied other
  · -- the step was not done, so its work is not among what was applied before
    have hnew : step ∉ s.applied := by
      intro hmem
      rw [(h.applied step).mp hmem] at hopenStep
      cases hopenStep
    rw [happlied, ← List.concat_eq_append]
    exact List.Nodup.concat hnew h.once
  · rw [hever, hstatus]
    exact h.stays
  · rintro _ ⟨⟩
    refine ⟨fun other hother => ?_, hopen, hnot⟩
    rw [hisDone]
    split
    · rfl
    · rename_i hne
      exact hothers other hne hother

theorem Provisioning.InOrder.doWork (h : s.InOrder)
    (hi : s.runs[i]?.join = some (.working step steps)) (reference : String) :
    (s.doWork i step steps reference).InOrder := by
  have hopenStep : s.isDone step = false := (h.running i _ hi).1.1
  unfold Provisioning.doWork
  split
  · refine h.goes_on hi fun other hother => ?_
    obtain rfl : step = other := by simpa [Provisioning.failedStep] using hother
    exact hopenStep
  · rename_i htenant
    have hrequest : (s.workRequest step reference).status = s.request.status ∧
        (s.workRequest step reference).tenantId ≠ none := by
      unfold Provisioning.workRequest
      split
      · exact ⟨rfl, nofun⟩
      · rename_i hset
        refine ⟨rfl, fun hnone => htenant ⟨fun heq => hset ⟨heq, hnone⟩, hnone⟩⟩
    exact h.worked hi rfl rfl (fun _ => rfl) (fun _ => rfl) hrequest.2 rfl rfl hrequest.1 rfl

theorem Provisioning.InOrder.workStep (h : s.InOrder)
    (hi : s.runs[i]?.join = some (.working step steps)) {outcome : Provisioning.WorkOutcome}
    (hpossible : outcome.possible step = true) : (s.workStep i step steps outcome).InOrder := by
  obtain ⟨row, hrow⟩ := exists_stepRow h.rows step
  have hopenStep : s.isDone step = false := (h.running i _ hi).1.1
  have hopenRow : row.status.done = false := by
    unfold Provisioning.isDone at hopenStep
    rwa [hrow] at hopenStep
  cases outcome with
  | threw code =>
    refine h.goes_on hi fun other hother => ?_
    obtain rfl : step = other := by simpa [Provisioning.failedStep] using hother
    exact hopenStep
  | dependencyMissing code =>
    obtain rfl : step = .assign_data_plane := beq_iff_eq.mp hpossible
    unfold Provisioning.workStep
    rw [hrow]
    dsimp only
    rw [if_neg (by simp [hopenRow])]
    exact h.goes_on hi hopenStep
  | done reference =>
    unfold Provisioning.workStep
    rw [hrow]
    dsimp only
    rw [if_neg (by simp [hopenRow])]
    exact h.doWork hi reference

theorem Provisioning.InOrder.finishRun (h : s.InOrder)
    (hi : s.runs[i]?.join = some (.before [])) (hready : s.domainReady = true) :
    (s.finishRun i).InOrder := by
  obtain ⟨hsound, hopen, hnot⟩ := h.running i _ hi
  have hall : ∀ step, s.isDone step = true := fun step => hsound step List.not_mem_nil
  unfold Provisioning.finishRun
  rw [if_neg (h.tenant (hall _)), if_neg (by simp [hready])]
  refine h.set hi rfl ⟨h.rows, h.tenant, h.applied, h.once, fun _ => hall, fun _ => rfl, fun _ => ?_⟩ ?_
  · show s.application.leaveProvisioning .onboarding ≠ .provisioning_failed
    unfold ApplicationStatus.leaveProvisioning
    split
    · decide
    · exact hnot
  · rintro _ ⟨⟩

theorem Provisioning.InOrder.markWaiting (h : s.InOrder) {code : String}
    (hi : s.runs[i]?.join = some (.waits step code)) : (s.markWaiting i step code).InOrder := by
  have hopenStep : s.isDone step = false := (h.running i _ hi).1
  refine h.mark hi rfl rfl (fun _ => rfl) (fun _ => rfl) hopenStep rfl rfl rfl ?_ ?_
  · show ProvisioningStatus.waiting_for_external_dependency ≠ .completed
    decide
  · rintro _ _ ⟨⟩

theorem Provisioning.InOrder.markFailed (h : s.InOrder) {explicitStep : Option ProvisioningStep}
    {code : String} (hi : s.runs[i]?.join = some (.fails explicitStep code)) :
    (s.markFailed i explicitStep code).InOrder := by
  obtain ⟨hsound, hopen, hnot⟩ := h.running i _ hi
  have hfailed : ProvisioningStatus.failed ≠ .completed := by decide
  unfold Provisioning.markFailed
  cases hstep : s.failedStep explicitStep with
  | none =>
    refine h.set hi rfl (h.toRowsInOrder.congr rfl (fun _ => rfl) rfl rfl rfl ?_ ?_) ?_
    · exact ⟨fun hc => absurd hc hfailed, fun hc => absurd hc hopen⟩
    · exact fun hc => absurd hc hfailed
    · rintro _ ⟨⟩
  | some step =>
    refine h.mark hi rfl rfl (fun _ => rfl) (fun _ => rfl) (hsound step hstep) rfl rfl rfl hfailed ?_
    rintro _ _ ⟨⟩

theorem Provisioning.InOrder.queue (h : s.InOrder) (hopen : s.request.status ≠ .completed) :
    s.queue.InOrder := by
  have hqueued : ProvisioningStatus.queued ≠ .completed := by decide
  exact h.others rfl rfl rfl rfl rfl rfl
    ⟨fun hc => absurd hc hqueued, fun hc => absurd hc hopen⟩ fun hfailed => hfailed

theorem Provisioning.InOrder.withApplication (h : s.InOrder) {status : ApplicationStatus}
    (hstatus : status = .provisioning_failed → s.application = .provisioning_failed) :
    ({ s with application := status } : Provisioning).InOrder :=
  h.others rfl rfl rfl rfl rfl rfl Iff.rfl hstatus

theorem Provisioning.InOrder.queueAgain (h : s.InOrder)
    (hretryable : s.request.status ∈ Provisioning.retryable) :
    ({ s with application := .provisioning } : Provisioning).queue.InOrder := by
  have hopen : s.request.status ≠ .completed := by
    intro hc
    rw [hc] at hretryable
    revert hretryable
    decide
  have hmoved : ({ s with application := .provisioning } : Provisioning).InOrder :=
    h.withApplication nofun
  exact hmoved.queue hopen

theorem Provisioning.InOrder.retryProvisioning (h : s.InOrder)
    (hs : s.retryProvisioning = some s') : s'.InOrder := by
  unfold Provisioning.retryProvisioning at hs
  split at hs
  · rename_i hretryable
    split at hs <;> cases hs <;> exact h.queueAgain hretryable
  · cases hs

theorem Provisioning.InOrder.provisionAgain (h : s.InOrder) (hs : s.provisionAgain = some s') :
    s'.InOrder := by
  unfold Provisioning.provisionAgain at hs
  dsimp only at hs
  have hsame : (if s.application = .approved then ApplicationStatus.provisioning
      else s.application) = .provisioning_failed → s.application = .provisioning_failed := by
    split
    · exact nofun
    · exact id
  split at hs
  · split at hs <;> cases hs
    -- the application goes on to `onboarding`, or stays where it is
    · exact h.withApplication nofun
    · exact h.withApplication nofun
    all_goals exact h.withApplication hsame
  · split at hs
    · rename_i hretryable
      split at hs <;> cases hs <;> exact h.queueAgain hretryable
    · split at hs
      · cases hs
      · cases hs
        exact h.withApplication hsame

theorem Provisioning.InOrder.requeue (h : s.InOrder) : s.requeue.InOrder := by
  unfold Provisioning.requeue
  split
  · exact h
  · rename_i hopen
    exact h.queue hopen

theorem Provisioning.InOrder.throws (h : s.InOrder) (hi : s.runs[i]?.join = some r)
    (hcurrent : ∀ step ∈ s.request.currentStep, s.isDone step = false) (code : String) :
    (s.setRun i (some (.fails none code))).InOrder := by
  refine h.goes_on hi fun step hstep => hcurrent step ?_
  simpa [Provisioning.failedStep] using hstep

end

/-! ## Runs -/

theorem inOrder_provisioningStart (now : Nat) (domainReady : Bool) :
    (provisioningStart now domainReady).InOrder where
  rows := rfl
  tenant := by
    have hpending : (provisioningStart now domainReady).isDone .reserve_tenant_slug = false := rfl
    rw [hpending]
    exact nofun
  applied := by
    intro step
    cases step <;> exact ⟨nofun, fun hdone => nomatch hdone⟩
  once := List.nodup_nil
  complete := nofun
  stays := nofun
  application := nofun
  alone := alone_nil
  running := by
    intro i r h
    exact nomatch h

theorem inOrder_provisioningAction {s s' : Provisioning} {action : ProvisioningAction}
    (h : s.InOrder) (hturn : RunsInTurn s action) (hstep : provisioningAction s action = some s') :
    s'.InOrder := by
  unfold provisioningAction at hstep
  cases action with
  | tick seconds =>
    cases hstep
    exact h.others rfl rfl rfl rfl rfl rfl Iff.rfl id
  | claim =>
    cases hstep
    exact h.claimRequest hturn.1 hturn.2
  | beginStep i =>
    dsimp only at hstep
    split at hstep
    · rename_i hi
      cases hstep
      exact h.beginStep hi
    · cases hstep
  | workStep i outcome =>
    dsimp only at hstep
    split at hstep
    · rename_i hi
      split at hstep
      · rename_i hpossible
        cases hstep
        exact h.workStep hi hpossible
      · cases hstep
    · cases hstep
  | finish i =>
    dsimp only at hstep
    split at hstep
    · rename_i hi
      cases hstep
      exact h.finishRun hi hturn
    · cases hstep
  | throws i code =>
    dsimp only at hstep
    split at hstep
    · rename_i hi
      cases hstep
      exact h.throws hi hturn code
    · rename_i hi
      cases hstep
      exact h.throws hi hturn code
    · cases hstep
  | markWaiting i =>
    dsimp only at hstep
    split at hstep
    · rename_i hi
      cases hstep
      exact h.markWaiting hi
    · cases hstep
  | markFailed i =>
    dsimp only at hstep
    split at hstep
    · rename_i hi
      cases hstep
      exact h.markFailed hi
    · cases hstep
  | crash i =>
    cases hstep
    exact h.gone i
  | retry => exact h.retryProvisioning hstep
  | provision => exact h.provisionAgain hstep
  | requeue =>
    cases hstep
    exact h.requeue
  | decide status =>
    dsimp only at hstep
    split at hstep
    · rename_i hstatus
      cases hstep
      exact h.withApplication fun hfailed => absurd hfailed hstatus.2
    · cases hstep

/-- Runs in turn: a completed request stays completed, and every step is done once. -/
theorem provisioned_once {now : Nat} {domainReady : Bool} {actions : List ProvisioningAction}
    {s : Provisioning} (hrun : run provisioningAction (provisioningStart now domainReady) actions =
      some s) (hturn : Meets provisioningAction RunsInTurn (provisioningStart now domainReady) actions) :
    ProvisionedOnce s := by
  have h : s.InOrder := run_invariant_of_meets
    (fun _ _ _ hs hmeets hstep => inOrder_provisioningAction hs hmeets hstep)
    (inOrder_provisioningStart now domainReady) hturn hrun
  refine ⟨fun hever => ?_, h.once, fun hcompleted step => ?_, h.application⟩
  · rw [h.stays hever]
    decide
  · exact (h.applied step).mpr (h.complete hcompleted step)

/-! ## Example runs -/

def runSteps (i : Nat) (steps : List ProvisioningStep) : List ProvisioningAction :=
  steps.flatMap fun step => [.beginStep i, .workStep i (.done (reprStr step))]

def wholeRun (i : Nat) : List ProvisioningAction :=
  .claim :: runSteps i provisioningSteps ++ [.finish i]

def nextRun (i : Nat) : List ProvisioningAction :=
  .claim :: .beginStep i :: runSteps i provisioningSteps.tail ++ [.finish i]

def failedRun : List ProvisioningAction :=
  .claim :: runSteps 0 [.reserve_tenant_slug] ++
    [.beginStep 0, .workStep 0 (.threw "PROVISIONING_FAILED"), .markFailed 0]

theorem provisioned_once_after_retry :
    ∃ s, run provisioningAction (provisioningStart 0 true) (failedRun ++ .retry :: nextRun 1) =
      some s ∧ s.request.status = .completed ∧ ProvisionedOnce s := by
  have hstatus : (run provisioningAction (provisioningStart 0 true)
      (failedRun ++ .retry :: nextRun 1)).map (·.request.status) = some .completed := by
    decide +kernel
  obtain ⟨s, hrun, hcompleted⟩ := Option.map_eq_some_iff.mp hstatus
  exact ⟨s, hrun, hcompleted, provisioned_once hrun (by decide +kernel)⟩

/-- The job of a run that failed runs once more, and completes the request of an application that
stays failed. -/
def failedThenCompleted : List ProvisioningAction :=
  failedRun ++ nextRun 1

/-- A run that nothing was heard of for a quarter of an hour fails after the one that followed it. -/
def completedThenFailed : List ProvisioningAction :=
  .claim :: .tick 900 :: wholeRun 1 ++ [.throws 0 "PROVISIONING_FAILED", .markFailed 0]

/-- A run fails between two steps, and the one that follows does the first of them again. -/
def doneTwice : List ProvisioningAction :=
  .claim :: runSteps 0 [.reserve_tenant_slug] ++
    [.throws 0 "PROVISIONING_FAILED", .markFailed 0, .retry] ++ wholeRun 1

theorem provisioned_again :
    (∃ s, run provisioningAction (provisioningStart 0 true) failedThenCompleted = some s ∧
      s.request.status = .completed ∧ s.application = .provisioning_failed) ∧
    (∃ s, run provisioningAction (provisioningStart 0 true) completedThenFailed = some s ∧
      s.everCompleted = true ∧ s.request.status = .failed) ∧
    ∃ s, run provisioningAction (provisioningStart 0 true) doneTwice = some s ∧
      s.request.status = .completed ∧ s.applied.count .reserve_tenant_slug = 2 := by
  have hfailed : (run provisioningAction (provisioningStart 0 true) failedThenCompleted).map
      (fun s => (s.request.status, s.application)) = some (.completed, .provisioning_failed) := by
    decide +kernel
  have hcompleted : (run provisioningAction (provisioningStart 0 true) completedThenFailed).map
      (fun s => (s.everCompleted, s.request.status)) = some (true, .failed) := by
    decide +kernel
  have htwice : (run provisioningAction (provisioningStart 0 true) doneTwice).map
      (fun s => (s.request.status, s.applied.count .reserve_tenant_slug)) =
        some (.completed, 2) := by
    decide +kernel
  obtain ⟨s₁, hrun₁, h₁⟩ := Option.map_eq_some_iff.mp hfailed
  obtain ⟨s₂, hrun₂, h₂⟩ := Option.map_eq_some_iff.mp hcompleted
  obtain ⟨s₃, hrun₃, h₃⟩ := Option.map_eq_some_iff.mp htwice
  obtain ⟨hs₁, ha₁⟩ := Prod.mk.inj h₁
  obtain ⟨he₂, hs₂⟩ := Prod.mk.inj h₂
  obtain ⟨hs₃, hn₃⟩ := Prod.mk.inj h₃
  exact ⟨⟨s₁, hrun₁, hs₁, ha₁⟩, ⟨s₂, hrun₂, he₂, hs₂⟩, s₃, hrun₃, hs₃, hn₃⟩

end Kommunsign
