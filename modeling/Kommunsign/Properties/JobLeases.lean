import Kommunsign.Worker.JobQueue

/-!
# Leases and the jobs that nobody can claim

A statement about a job only touches the row while the job is leased to the worker that makes it,
so a worker whose lease was taken over changes nothing any more. A job that has been claimed as
often as it may be is never a candidate again: it depends on the worker that has it, and is
stranded when that worker's lease runs out.

* `leaseDiscipline_of_run` — every step of every run keeps to it
* `throughout_notStranded_iff` — no job is ever stranded exactly in the runs of such steps
-/

namespace Kommunsign

open Infra

/-! ## The invariant -/

structure RowInv (jobs : List DurableJobRow) : Prop where
  keys : (jobs.map (·.key)).Nodup
  positive : ∀ row ∈ jobs, 0 < row.maximumAttempts
  bounded : ∀ row ∈ jobs, row.attempts ≤ row.maximumAttempts
  owned : ∀ row ∈ jobs, ∀ worker, row.leaseOwner = some worker →
    row.status = .leased ∧ row.leaseExpiresAt.isSome = true
  unowned : ∀ row ∈ jobs, row.leaseOwner = none → row.status ≠ .leased

/-- A worker claims each tenant once a round, and runs nothing while it claims. -/
structure RoundInv (state : WorkerState) : Prop where
  tenants : state.tenants.Nodup
  visited : ∀ job ∈ state.claimed, job.key.1 ∉ state.tenants
  claiming : state.tenants ≠ [] ∨ state.claimed ≠ [] → state.running = []

/-- What the workers know of the jobs that are leased to them is what the rows say. -/
structure LeaseInv (q : JobQueue) : Prop where
  rows : RowInv q.jobs
  rounds : ∀ worker, RoundInv (q.workers worker)
  current : ∀ worker, ∀ job ∈ (q.workers worker).claimed ++ (q.workers worker).running,
    ∀ row ∈ q.jobs, row.key = job.key → row.leaseOwner = some worker →
      row.attempts = job.attempts ∧ row.maximumAttempts = job.maximumAttempts

section Moves

variable {now : Time} {i : JobStep} {row row' : DurableJobRow}

theorem JobMove.maximumAttempts (h : JobMove now i row row') :
    row'.maximumAttempts = row.maximumAttempts := by
  cases h <;> rfl

theorem JobMove.attempts_le (h : JobMove now i row row')
    (hle : row.attempts ≤ row.maximumAttempts) : row'.attempts ≤ row'.maximumAttempts := by
  cases h with
  | requeued hactive =>
    show (if row.status = .dead_letter then 0 else row.attempts) ≤ row.maximumAttempts
    split
    · exact Nat.zero_le _
    · exact hle
  | claimed expiresAt hclaimable hlater =>
    simp only [DurableJobRow.claimable, Bool.and_eq_true, decide_eq_true_eq] at hclaimable
    exact hclaimable.1.2
  | _ => exact hle

theorem JobMove.owned (h : JobMove now i row row')
    (howned : ∀ worker, row.leaseOwner = some worker →
      row.status = .leased ∧ row.leaseExpiresAt.isSome = true) (worker : Id)
    (howner : row'.leaseOwner = some worker) :
    row'.status = .leased ∧ row'.leaseExpiresAt.isSome = true := by
  cases h with
  | stays => exact howned worker howner
  | claimed expiresAt hclaimable hlater => exact ⟨rfl, rfl⟩
  | extended expiresAt hheld hlater => exact ⟨(howned worker howner).1, rfl⟩
  | requeued _ | completed _ | died _ _ | retried _ _ => cases howner

theorem JobMove.unowned (h : JobMove now i row row')
    (hunowned : row.leaseOwner = none → row.status ≠ .leased) (hnone : row'.leaseOwner = none) :
    row'.status ≠ .leased := by
  cases h with
  | stays => exact hunowned hnone
  | claimed expiresAt hclaimable hlater => cases hnone
  | extended expiresAt hheld hlater => exact hunowned hnone
  | requeued _ | completed _ | died _ _ | retried _ _ => exact JobStatus.noConfusion

theorem RowInv.moved {jobs jobs' : List DurableJobRow} (h : RowInv jobs)
    (hmoved : MovedBy now i jobs jobs') : RowInv jobs' := by
  obtain ⟨moved, new, rfl, hmoved, hnodup, hnew⟩ := hmoved
  have hmovedKeys : moved.map (·.key) = jobs.map (·.key) := hmoved.map_eq fun _ _ h => h.key
  refine ⟨?_, ?_, ?_, ?_, ?_⟩
  · rw [List.map_append, hmovedKeys]
    refine List.nodup_append.mpr ⟨h.keys, hnodup, fun a ha b hb hab => ?_⟩
    obtain ⟨row, hrow, rfl⟩ := List.mem_map.mp ha
    obtain ⟨added, hadded, rfl⟩ := List.mem_map.mp hb
    have hid : row.id = added.id := congrArg Prod.snd hab
    exact (hnew added hadded).2.2.2 (hid ▸ List.mem_map_of_mem hrow)
  all_goals
    intro row hrow
    rcases List.mem_append.mp hrow with hrow | hrow
  · obtain ⟨old, hold, hmove⟩ := hmoved.exists_before hrow
    rw [hmove.maximumAttempts]
    exact h.positive old hold
  · exact Nat.zero_lt_of_lt (hnew row hrow).2.2.1
  · obtain ⟨old, hold, hmove⟩ := hmoved.exists_before hrow
    exact hmove.attempts_le (h.bounded old hold)
  · exact (hnew row hrow).2.2.1.le
  · obtain ⟨old, hold, hmove⟩ := hmoved.exists_before hrow
    exact hmove.owned (h.owned old hold)
  · intro worker howner
    rw [(hnew row hrow).2.1] at howner
    cases howner
  · obtain ⟨old, hold, hmove⟩ := hmoved.exists_before hrow
    exact hmove.unowned (h.unowned old hold)
  · intro _ hleased
    rw [(hnew row hrow).1] at hleased
    cases hleased

end Moves

/-! ## The workers -/

section Workers

variable {q q' : JobQueue} {i : JobStep}

theorem LeaseInv.current_of_subset (h : LeaseInv q) (hmoved : MovedBy q.now i q.jobs q'.jobs)
    (hclaim : ∀ worker locked, i ≠ .claim worker locked)
    (hjobs : ∀ worker, (q'.workers worker).claimed ++ (q'.workers worker).running ⊆
      (q.workers worker).claimed ++ (q.workers worker).running) :
    ∀ worker, ∀ job ∈ (q'.workers worker).claimed ++ (q'.workers worker).running,
      ∀ row ∈ q'.jobs, row.key = job.key → row.leaseOwner = some worker →
        row.attempts = job.attempts ∧ row.maximumAttempts = job.maximumAttempts := by
  intro worker job hjob row hrow hkey howner
  obtain ⟨moved, new, heq, hmoved, -, hnew⟩ := hmoved
  rw [heq] at hrow
  rcases List.mem_append.mp hrow with hrow | hrow
  · obtain ⟨old, hold, hmove⟩ := hmoved.exists_before hrow
    have hcurrent := h.current worker job (hjobs worker hjob) old hold (hmove.key ▸ hkey)
    cases hmove with
    | stays => exact hcurrent howner
    | extended expiresAt hheld hlater => exact hcurrent howner
    | claimed expiresAt hclaimable hlater => exact absurd rfl (hclaim _ _)
    | requeued _ | completed _ | died _ _ | retried _ _ => cases howner
  · rw [(hnew row hrow).2.1] at howner
    cases howner

theorem LeaseInv.same_workers (h : LeaseInv q) (hmoved : MovedBy q.now i q.jobs q'.jobs)
    (hclaim : ∀ worker locked, i ≠ .claim worker locked) (hworkers : q'.workers = q.workers) :
    LeaseInv q' where
  rows := h.rows.moved hmoved
  rounds worker := by
    rw [hworkers]
    exact h.rounds worker
  current := h.current_of_subset hmoved hclaim fun worker => by
    rw [hworkers]
    exact List.Subset.refl _

theorem LeaseInv.set_worker (h : LeaseInv q) (hmoved : MovedBy q.now i q.jobs q'.jobs)
    (hclaim : ∀ worker locked, i ≠ .claim worker locked) {worker : Id} {state : WorkerState}
    (hworkers : q'.workers = Function.update q.workers worker state) (hround : RoundInv state)
    (hjobs : state.claimed ++ state.running ⊆
      (q.workers worker).claimed ++ (q.workers worker).running) : LeaseInv q' where
  rows := h.rows.moved hmoved
  rounds other := by
    rw [hworkers]
    by_cases hother : other = worker
    · subst hother
      rw [Function.update_self]
      exact hround
    · rw [Function.update_of_ne hother]
      exact h.rounds other
  current := h.current_of_subset hmoved hclaim fun other => by
    rw [hworkers]
    by_cases hother : other = worker
    · subst hother
      rw [Function.update_self]
      exact hjobs
    · rw [Function.update_of_ne hother]
      exact List.Subset.refl _

theorem RoundInv.erase {state : WorkerState} (h : RoundInv state) (job : ClaimedJob) :
    RoundInv { state with running := state.running.erase job } where
  tenants := h.tenants
  visited := h.visited
  claiming hc := by
    show state.running.erase job = []
    rw [h.claiming hc]
    rfl

theorem erase_running_subset (state : WorkerState) (job : ClaimedJob) :
    state.claimed ++ state.running.erase job ⊆ state.claimed ++ state.running := by
  intro other hother
  rcases List.mem_append.mp hother with hother | hother
  · exact List.mem_append_left _ hother
  · exact List.mem_append_right _ (List.mem_of_mem_erase hother)

theorem LeaseInv.claim (h : LeaseInv q) {worker : Id} {locked : List Id}
    (hs : q.step (.claim worker locked) = some q') : LeaseInv q' := by
  have hmoved := moved_of_step h.rows.keys hs
  simp only [JobQueue.step] at hs
  split at hs
  · cases hs
  next tenantId tenants htenants =>
  split at hs
  · cases hs
  next hlimit =>
  cases hs
  have hround := h.rounds worker
  have hidle : (q.workers worker).running = [] := hround.claiming (Or.inl (by simp [htenants]))
  obtain ⟨htenant, hnodup⟩ := List.nodup_cons.mp (htenants ▸ hround.tenants)
  refine ⟨h.rows.moved hmoved, fun other => ?_, fun other job hjob row hrow hkey howner => ?_⟩
  · by_cases hother : other = worker
    · subst hother
      simp only [JobQueue.setWorker, Function.update_self]
      refine ⟨hnodup, fun job hjob => ?_, fun _ => hidle⟩
      rcases List.mem_append.mp hjob with hjob | hjob
      · exact fun hmem => hround.visited job hjob (htenants ▸ List.mem_cons_of_mem _ hmem)
      · obtain ⟨row, hrow, rfl⟩ := List.mem_map.mp hjob
        obtain ⟨other, -, hkey, hrowTenant, -⟩ :=
          mem_claimCandidates (List.contains_iff_mem.mp (List.mem_filter.mp hrow).2)
        rw [← hkey]
        show other.tenantId ∉ tenants
        rw [hrowTenant]
        exact htenant
    · simp only [JobQueue.setWorker, Function.update_of_ne hother]
      exact h.rounds other
  · obtain ⟨old, hold, rfl⟩ := mem_assign.mp hrow
    by_cases htaken : (claimCandidates q.jobs q.now tenantId
        ((q.workers worker).limit - (q.workers worker).claimed.length) locked).contains
          old.key = true
    · -- the row is leased now, so the job is one of those that have just been claimed
      rw [if_pos htaken] at hkey howner ⊢
      obtain rfl : worker = other := Option.some.inj howner
      simp only [JobQueue.setWorker, Function.update_self, hidle, List.append_nil] at hjob
      rcases List.mem_append.mp hjob with hjob | hjob
      · obtain ⟨same, -, hsame, hrowTenant, -⟩ :=
          mem_claimCandidates (List.contains_iff_mem.mp htaken)
        refine absurd ?_ (hround.visited job hjob)
        have hjobKey : job.key = same.key := hkey.symm.trans hsame.symm
        rw [hjobKey, htenants]
        show same.tenantId ∈ tenantId :: tenants
        rw [hrowTenant]
        exact List.mem_cons_self
      · obtain ⟨claimed, hclaimed, rfl⟩ := List.mem_map.mp hjob
        obtain rfl := eq_of_key_eq h.rows.keys (List.mem_filter.mp hclaimed).1 hold hkey.symm
        exact ⟨rfl, rfl⟩
    · rw [if_neg htaken] at hkey howner ⊢
      refine h.current other job ?_ old hold hkey howner
      by_cases hother : other = worker
      · subst hother
        simp only [JobQueue.setWorker, Function.update_self, hidle, List.append_nil] at hjob ⊢
        rcases List.mem_append.mp hjob with hjob | hjob
        · exact hjob
        · obtain ⟨claimed, hclaimed, rfl⟩ := List.mem_map.mp hjob
          obtain ⟨hmem, hcontains⟩ := List.mem_filter.mp hclaimed
          obtain rfl := eq_of_key_eq h.rows.keys hmem hold hkey.symm
          exact absurd hcontains htaken
      · simpa only [JobQueue.setWorker, Function.update_of_ne hother] using hjob

theorem LeaseInv.step (h : LeaseInv q) (hs : q.step i = some q') : LeaseInv q' := by
  have hmoved := moved_of_step h.rows.keys hs
  cases i with
  | claim worker locked => exact h.claim hs
  | tick duration =>
    cases hs
    exact h.same_workers hmoved (fun _ _ => JobStep.noConfusion) rfl
  | enqueue tenantId jobType requestId idempotencyKey maximumAttempts =>
    refine h.same_workers hmoved (fun _ _ => JobStep.noConfusion) ?_
    simp only [JobQueue.step] at hs
    split at hs
    · cases hs
    · split at hs <;> cases hs <;> rfl
  | recover requestId =>
    cases hs
    exact h.same_workers hmoved (fun _ _ => JobStep.noConfusion) rfl
  | poll worker tenants limit leaseSeconds =>
    simp only [JobQueue.step] at hs
    split at hs
    · next hpoll =>
      cases hs
      exact h.set_worker hmoved (fun _ _ => JobStep.noConfusion) rfl
        ⟨hpoll.1, fun job hjob => absurd hjob List.not_mem_nil, fun _ => rfl⟩
        (List.nil_subset _)
    · cases hs
  | start worker =>
    simp only [JobQueue.step] at hs
    split at hs
    · split at hs
      · next hidle =>
        cases hs
        refine h.set_worker hmoved (fun _ _ => JobStep.noConfusion) rfl
          ⟨List.nodup_nil, fun job hjob => absurd hjob List.not_mem_nil, ?_⟩ ?_
        · rintro (hne | hne) <;> exact absurd rfl hne
        · rw [hidle, List.append_nil]
          exact List.Subset.refl _
      · cases hs
    · cases hs
  | heartbeat worker job =>
    simp only [JobQueue.step] at hs
    split at hs
    · cases hs
      exact h.same_workers hmoved (fun _ _ => JobStep.noConfusion) rfl
    · cases hs
  | complete worker job answered =>
    simp only [JobQueue.step] at hs
    split at hs
    · cases hs
      cases answered with
      | true =>
        exact h.set_worker hmoved (fun _ _ => JobStep.noConfusion) rfl
          ((h.rounds worker).erase job)
          (erase_running_subset (q.workers worker) job)
      | false => exact h.same_workers hmoved (fun _ _ => JobStep.noConfusion) rfl
    · cases hs
  | fail worker job permanent nextAvailableAt =>
    simp only [JobQueue.step] at hs
    split at hs
    · cases hs
      refine h.set_worker hmoved (fun _ _ => JobStep.noConfusion)
        (show _ = Function.update q.workers worker _ from ?_)
        ((h.rounds worker).erase job) (erase_running_subset (q.workers worker) job)
      by_cases hdead : job.isDead permanent = true
      · rw [if_pos hdead]
        rfl
      · rw [if_neg hdead]
        rfl
    · cases hs
  | crash worker =>
    cases hs
    exact h.set_worker hmoved (fun _ _ => JobStep.noConfusion) rfl
      ⟨List.nodup_nil, fun job hjob => absurd hjob List.not_mem_nil, fun _ => rfl⟩
      (List.nil_subset _)

end Workers

theorem LeaseInv.start (now : Time) : LeaseInv (JobQueue.start now) where
  rows := ⟨List.nodup_nil, by simp [JobQueue.start], by simp [JobQueue.start],
    by simp [JobQueue.start], by simp [JobQueue.start]⟩
  rounds worker := ⟨List.nodup_nil, by simp [JobQueue.start, WorkerState.idle], fun _ => rfl⟩
  current := by simp [JobQueue.start]

theorem leaseInv_of_run {now : Time} {steps : List JobStep} {q : JobQueue}
    (h : run JobQueue.step (JobQueue.start now) steps = some q) : LeaseInv q :=
  run_invariant (fun _ _ _ hq hs => hq.step hs) (LeaseInv.start now) h

/-! ## Who changes a job -/

def JobStep.worker? : JobStep → Option Id
  | .claim worker _ | .heartbeat worker _ | .complete worker _ _ | .fail worker _ _ _ => some worker
  | .tick _ | .enqueue _ _ _ _ _ | .recover _ | .poll _ _ _ _ | .start _ | .crash _ => none

def JobStep.isClaim : JobStep → Bool
  | .claim _ _ => true
  | _ => false

/--
What a step of a worker leaves. A row `row` of a job and its row `row'` after the step have the
same key.
-/
structure LeaseDiscipline (q : JobQueue) (i : JobStep) (q' : JobQueue) : Prop where
  /-- Who changes the status has the lease, or takes it where nobody has it. -/
  status : ∀ worker, i.worker? = some worker → ∀ row ∈ q.jobs, ∀ row' ∈ q'.jobs,
    row'.key = row.key → row'.status ≠ row.status →
      row.leaseOwner = some worker ∨ row.leaseOwner = none ∧ row'.leaseOwner = some worker
  /-- A worker that has lost the lease, or never had it, leaves the row as it is. -/
  stale : ∀ worker, i.worker? = some worker → i.isClaim = false → ∀ row ∈ q.jobs,
    ∀ row' ∈ q'.jobs, row'.key = row.key → row.leaseOwner ≠ some worker → row' = row
  claimed : ∀ worker, i.worker? = some worker → i.isClaim = true → ∀ row ∈ q.jobs,
    ∀ row' ∈ q'.jobs, row'.key = row.key → row' = row ∨ row.claimable q.now = true ∧
      row'.leaseOwner = some worker ∧ row'.attempts = row.attempts + 1
  counted : ∀ worker, i.worker? = some worker → i.isClaim = false → ∀ row ∈ q.jobs,
    ∀ row' ∈ q'.jobs, row'.key = row.key → row'.attempts = row.attempts
  bounded : ∀ row' ∈ q'.jobs, row'.attempts ≤ row'.maximumAttempts

theorem MovedBy.move {now : Time} {i : JobStep} {jobs jobs' : List DurableJobRow}
    (h : MovedBy now i jobs jobs') (hkeys : (jobs.map (·.key)).Nodup) {row row' : DurableJobRow}
    (hrow : row ∈ jobs) (hrow' : row' ∈ jobs') (hkey : row'.key = row.key) :
    JobMove now i row row' := by
  obtain ⟨moved, new, rfl, hmoved, -, hnew⟩ := h
  rcases List.mem_append.mp hrow' with hrow' | hrow'
  · obtain ⟨old, hold, hmove⟩ := hmoved.exists_before hrow'
    obtain rfl := eq_of_key_eq hkeys hold hrow (hmove.key.symm.trans hkey)
    exact hmove
  · have hid : row'.id = row.id := congrArg Prod.snd hkey
    exact absurd (hid ▸ List.mem_map_of_mem hrow) (hnew row' hrow').2.2.2

theorem DurableJobRow.owner_of_heldBy {worker : Id} {key : Id × Id} {row : DurableJobRow}
    (h : row.heldBy worker key = true) :
    row.key = key ∧ row.status = .leased ∧ row.leaseOwner = some worker := by
  simpa [heldBy, and_assoc] using h

theorem leaseDiscipline_of_inv {q q' : JobQueue} {i : JobStep} (h : LeaseInv q)
    (hs : q.step i = some q') : LeaseDiscipline q i q' := by
  have hmoved := moved_of_step h.rows.keys hs
  have hmove : ∀ {row row' : DurableJobRow}, row ∈ q.jobs → row' ∈ q'.jobs → row'.key = row.key →
      JobMove q.now i row row' :=
    fun hrow hrow' hkey => hmoved.move h.rows.keys hrow hrow' hkey
  refine ⟨?_, ?_, ?_, ?_, (h.step hs).rows.bounded⟩
  · intro worker hworker row hrow row' hrow' hkey hstatus
    cases hmove hrow hrow' hkey with
    | stays => exact absurd rfl hstatus
    | requeued _ => cases hworker
    | claimed expiresAt hclaimable hlater =>
      obtain rfl : _ = worker := Option.some.inj hworker
      -- a job that is claimed out of another's lease was leased before
      refine Or.inr ⟨?_, rfl⟩
      cases howner : row.leaseOwner with
      | none => rfl
      | some other => exact absurd (h.rows.owned row hrow other howner).1.symm hstatus
    | extended expiresAt hheld hlater => exact absurd rfl hstatus
    | completed hheld | died hheld _ | retried hheld _ =>
      obtain rfl : _ = worker := Option.some.inj hworker
      exact Or.inl (DurableJobRow.owner_of_heldBy hheld).2.2
  · intro worker hworker hclaim row hrow row' hrow' hkey howner
    cases hmove hrow hrow' hkey with
    | stays => rfl
    | requeued _ => cases hworker
    | claimed _ _ _ => cases hclaim
    | extended _ hheld _ | completed hheld | died hheld _ | retried hheld _ =>
      obtain rfl : _ = worker := Option.some.inj hworker
      exact absurd (DurableJobRow.owner_of_heldBy hheld).2.2 howner
  · intro worker hworker hclaim row hrow row' hrow' hkey
    cases hmove hrow hrow' hkey with
    | stays => exact Or.inl rfl
    | claimed expiresAt hclaimable hlater => exact Or.inr ⟨hclaimable, hworker, rfl⟩
    | requeued _ | extended _ _ _ | completed _ | died _ _ | retried _ _ => cases hclaim
  · intro worker hworker hclaim row hrow row' hrow' hkey
    cases hmove hrow hrow' hkey with
    | requeued _ => cases hworker
    | claimed _ _ _ => cases hclaim
    | stays | extended _ _ _ | completed _ | died _ _ | retried _ _ => rfl

/--
Whatever has happened before, a worker's statement changes only the jobs that are leased to it, a
claim counts once, and no job is claimed more often than it may be.
-/
theorem leaseDiscipline_of_run {now : Time} {steps : List JobStep} {q q' : JobQueue} {i : JobStep}
    (h : run JobQueue.step (JobQueue.start now) steps = some q) (hs : q.step i = some q') :
    LeaseDiscipline q i q' :=
  leaseDiscipline_of_inv (leaseInv_of_run h) hs

/-! ## Jobs without a way on -/

def DurableJobRow.held (now : Time) (row : DurableJobRow) : Bool :=
  row.status == .leased && row.leaseExpiresAt.any (now ≤ ·)

/--
Every job that is not over is held under a lease that has not run out, or can be claimed, now or
when it becomes available.
-/
def NotStranded (q : JobQueue) : Prop :=
  ∀ row ∈ q.jobs, row.status = .pending ∨ row.status = .leased →
    row.held q.now = true ∨ row.claimable (max q.now row.availableAt) = true

instance (q : JobQueue) : Decidable (NotStranded q) := by
  unfold NotStranded
  infer_instance

/--
No lease on a job's last permitted attempt runs out, and a job that has used all its attempts is
made pending again only if it was dead-lettered.
-/
def KeepsLastLeases (q : JobQueue) : JobStep → Prop
  | .tick duration => ∀ row ∈ q.jobs, row.status = .leased →
    row.maximumAttempts ≤ row.attempts → row.held (q.now + duration) = true
  | .recover requestId => ∀ job ∈ provisioningJob? q.jobs requestId,
    job.leaseActive q.now = false → job.status ≠ .dead_letter → job.attempts < job.maximumAttempts
  | _ => True

instance (q : JobQueue) (i : JobStep) : Decidable (KeepsLastLeases q i) := by
  unfold KeepsLastLeases
  split <;> infer_instance

theorem DurableJobRow.wayOn_iff {now : Time} {row : DurableJobRow}
    (h : row.status = .pending ∨ row.status = .leased)
    (hlease : row.status = .leased → row.leaseExpiresAt.isSome = true) :
    row.held now = true ∨ row.claimable (max now row.availableAt) = true ↔
      row.attempts < row.maximumAttempts ∨ row.held now = true := by
  constructor
  · rintro (hheld | hclaimable)
    · exact Or.inr hheld
    · simp only [claimable, Bool.and_eq_true, decide_eq_true_eq] at hclaimable
      exact Or.inl hclaimable.1.2
  · rintro (hattempts | hheld)
    · rcases h with hpending | hleased
      · refine Or.inr ?_
        simp [claimable, hattempts, hpending]
      · obtain ⟨expiresAt, hexpires⟩ := Option.isSome_iff_exists.mp (hlease hleased)
        by_cases hlater : now ≤ expiresAt
        · refine Or.inl ?_
          simp [held, hleased, hexpires, hlater]
        · refine Or.inr ?_
          simp [claimable, hattempts, hleased, hexpires, not_le.mp hlater]
    · exact Or.inl hheld

theorem RowInv.leased {jobs : List DurableJobRow} (h : RowInv jobs) {row : DurableJobRow}
    (hrow : row ∈ jobs) (hleased : row.status = .leased) : row.leaseExpiresAt.isSome = true := by
  cases howner : row.leaseOwner with
  | none => exact absurd hleased (h.unowned row hrow howner)
  | some worker => exact (h.owned row hrow worker howner).2

theorem LeaseInv.notStranded_iff {q : JobQueue} (h : LeaseInv q) : NotStranded q ↔
    ∀ row ∈ q.jobs, row.status = .pending ∨ row.status = .leased →
      row.attempts < row.maximumAttempts ∨ row.held q.now = true :=
  forall₂_congr fun _ hrow => forall_congr' fun hopen =>
    DurableJobRow.wayOn_iff hopen (h.rows.leased hrow)

section Step

variable {q q' : JobQueue} {i : JobStep}

theorem notStranded_tick_iff (h : LeaseInv q) (hway : NotStranded q) {duration : Nat}
    (hs : q.step (.tick duration) = some q') :
    NotStranded q' ↔ KeepsLastLeases q (.tick duration) := by
  have hq' := (h.step hs).notStranded_iff
  cases hs
  rw [hq']
  constructor
  · intro hafter row hrow hleased hattempts
    rcases hafter row hrow (Or.inr hleased) with hleft | hheld
    · omega
    · exact hheld
  · intro hkeeps row hrow hopen
    by_cases hattempts : row.attempts < row.maximumAttempts
    · exact Or.inl hattempts
    · refine Or.inr (hkeeps row hrow ?_ (not_lt.mp hattempts))
      -- without an attempt left it is held now, so it is leased
      rcases h.notStranded_iff.mp hway row hrow hopen with hleft | hheld
      · exact absurd hleft hattempts
      · simp only [DurableJobRow.held, Bool.and_eq_true, beq_iff_eq] at hheld
        exact hheld.1

theorem provisioningJob?_mem {jobs : List DurableJobRow} {requestId : Id} {job : DurableJobRow}
    (h : provisioningJob? jobs requestId = some job) : job ∈ jobs :=
  (List.mem_filter.mp ((List.mem_insertionSort _).mp
    (List.mem_of_mem_head? (Option.mem_def.mpr h)))).1

theorem DurableJobRow.requeue_attempts (now : Time) {row : DurableJobRow}
    (hpositive : 0 < row.maximumAttempts) :
    (row.requeue now).attempts < (row.requeue now).maximumAttempts ↔
      (row.status ≠ .dead_letter → row.attempts < row.maximumAttempts) := by
  show (if row.status = .dead_letter then 0 else row.attempts) < row.maximumAttempts ↔ _
  by_cases hdead : row.status = .dead_letter
  · simp [hdead, hpositive]
  · simp [hdead]

theorem notStranded_recover_iff (h : LeaseInv q) (hway : NotStranded q) {requestId : Id}
    (hs : q.step (.recover requestId) = some q') :
    NotStranded q' ↔ KeepsLastLeases q (.recover requestId) := by
  have hq := h.notStranded_iff.mp hway
  have hq' := (h.step hs).notStranded_iff
  cases hs
  rw [hq']
  show (∀ row ∈ recoverProvisioningJob q.jobs q.now requestId, _) ↔
    ∀ job ∈ provisioningJob? q.jobs requestId, _
  rw [recoverProvisioningJob]
  cases hjob : provisioningJob? q.jobs requestId with
  | none =>
    refine ⟨fun _ job hnone => absurd hnone (by simp), fun _ row hrow hopen => ?_⟩
    rcases List.mem_append.mp hrow with hrow | hrow
    · exact hq row hrow hopen
    · rw [List.mem_singleton.mp hrow]
      exact Or.inl (show 0 < 10 by decide)
  | some job =>
    have hmem := provisioningJob?_mem hjob
    have hpositive := h.rows.positive job hmem
    by_cases hactive : job.leaseActive q.now = true
    · simp only [hactive, if_true, Option.mem_some_iff]
      refine ⟨?_, fun _ => hq⟩
      rintro _ other rfl hinactive
      rw [hactive] at hinactive
      cases hinactive
    · simp only [hactive, Bool.false_eq_true, if_false, Option.mem_some_iff]
      constructor
      · rintro hafter _ rfl -
        refine (DurableJobRow.requeue_attempts q.now hpositive).mp ?_
        have hrequeued : job.requeue q.now ∈
            assign (fun row => row.key == job.key) (DurableJobRow.requeue q.now) q.jobs :=
          mem_assign.mpr ⟨job, hmem, by simp⟩
        rcases hafter _ hrequeued (Or.inl rfl) with hleft | hheld
        · exact hleft
        · cases hheld
      · intro hkeeps row' hrow' hopen
        obtain ⟨row, hrow, rfl⟩ := mem_assign.mp hrow'
        by_cases hkey : (row.key == job.key) = true
        · obtain rfl := eq_of_key_eq h.rows.keys hrow hmem (by simpa using hkey)
          rw [if_pos hkey]
          exact Or.inl ((DurableJobRow.requeue_attempts q.now hpositive).mpr
            (hkeeps row rfl (by simpa using hactive)))
        · rw [if_neg hkey] at hopen ⊢
          exact hq row hrow hopen

theorem now_of_step (htick : ∀ duration, i ≠ .tick duration) (hs : q.step i = some q') :
    q'.now = q.now := by
  cases i with
  | tick duration => exact absurd rfl (htick duration)
  | recover requestId | crash worker =>
    cases hs
    rfl
  | complete worker job answered =>
    simp only [JobQueue.step] at hs
    split at hs
    · cases answered <;> cases hs <;> rfl
    · cases hs
  | fail worker job permanent nextAvailableAt =>
    simp only [JobQueue.step] at hs
    split at hs
    · cases hs
      split <;> rfl
    · cases hs
  | claim worker locked =>
    simp only [JobQueue.step] at hs
    split at hs
    · cases hs
    · split at hs <;> cases hs
      rfl
  | enqueue _ _ _ _ _ | poll _ _ _ _ | start _ | heartbeat _ _ =>
    simp only [JobQueue.step] at hs
    split at hs <;> first | cases hs; rfl | skip
    all_goals first | (split at hs <;> cases hs <;> rfl) | cases hs

theorem running_of_fail {worker : Id} {job : ClaimedJob} {permanent : Bool}
    {nextAvailableAt : Time}
    (hs : q.step (.fail worker job permanent nextAvailableAt) = some q') :
    job ∈ (q.workers worker).running := by
  simp only [JobQueue.step] at hs
  split at hs
  · next hmem => exact hmem
  · cases hs

theorem notStranded_of_step (h : LeaseInv q) (hway : NotStranded q)
    (htick : ∀ duration, i ≠ .tick duration) (hrecover : ∀ requestId, i ≠ .recover requestId)
    (hs : q.step i = some q') : NotStranded q' := by
  have hq := h.notStranded_iff.mp hway
  have hnow := now_of_step htick hs
  refine (h.step hs).notStranded_iff.mpr fun row' hrow' hopen => ?_
  obtain ⟨moved, new, heq, hmoved, -, hnew⟩ := moved_of_step h.rows.keys hs
  rw [heq] at hrow'
  rcases List.mem_append.mp hrow' with hrow' | hrow'
  · obtain ⟨row, hrow, hmove⟩ := hmoved.exists_before hrow'
    rw [hnow]
    cases hmove with
    | stays => exact hq _ hrow hopen
    | requeued _ => exact absurd rfl (hrecover _)
    | claimed expiresAt hclaimable hlater =>
      refine Or.inr ?_
      simp [DurableJobRow.held, DurableJobRow.lease, hlater]
    | extended expiresAt hheld hlater =>
      refine Or.inr ?_
      simp [DurableJobRow.held, (DurableJobRow.owner_of_heldBy hheld).2.1, hlater]
    | completed hheld | died hheld _ => rcases hopen with hopen | hopen <;> cases hopen
    | @retried worker job permanent nextAvailableAt _ hheld hdead =>
      -- what the worker knows of the attempts is what the row says
      obtain ⟨hkey, -, howner⟩ := DurableJobRow.owner_of_heldBy hheld
      have hcurrent := h.current worker job
        (List.mem_append_right _ (running_of_fail hs)) row hrow hkey howner
      simp only [ClaimedJob.isDead, Bool.or_eq_false_iff, decide_eq_false_iff_not, not_le] at hdead
      refine Or.inl ?_
      show row.attempts < row.maximumAttempts
      rw [hcurrent.1, hcurrent.2]
      exact hdead.2
  · exact Or.inl (hnew row' hrow').2.2.1

theorem notStranded_step_iff (h : LeaseInv q) (hway : NotStranded q) (hs : q.step i = some q') :
    NotStranded q' ↔ KeepsLastLeases q i := by
  by_cases htick : ∃ duration, i = .tick duration
  · obtain ⟨duration, rfl⟩ := htick
    exact notStranded_tick_iff h hway hs
  by_cases hrecover : ∃ requestId, i = .recover requestId
  · obtain ⟨requestId, rfl⟩ := hrecover
    exact notStranded_recover_iff h hway hs
  have hafter := notStranded_of_step h hway (fun duration he => htick ⟨duration, he⟩)
    (fun requestId he => hrecover ⟨requestId, he⟩) hs
  refine ⟨fun _ => ?_, fun _ => hafter⟩
  cases i with
  | tick duration => exact absurd ⟨duration, rfl⟩ htick
  | recover requestId => exact absurd ⟨requestId, rfl⟩ hrecover
  | _ => trivial

end Step

/--
The runs in which no job is ever stranded are the runs in which no lease on a last permitted
attempt runs out and recovery makes no used-up job pending again.
-/
theorem throughout_notStranded_iff {now : Time} {steps : List JobStep} {q : JobQueue}
    (h : run JobQueue.step (JobQueue.start now) steps = some q) :
    Throughout JobQueue.step NotStranded (JobQueue.start now) steps ↔
      Meets JobQueue.step KeepsLastLeases (JobQueue.start now) steps := by
  have hinv : ∀ q i q', LeaseInv q → JobQueue.step q i = some q' → LeaseInv q' :=
    fun _ _ _ hq hs => hq.step hs
  have hstep : ∀ q i q', LeaseInv q → NotStranded q → JobQueue.step q i = some q' →
      (NotStranded q' ↔ KeepsLastLeases q i) :=
    fun _ _ _ hq hway hs => notStranded_step_iff hq hway hs
  refine throughout_iff_meets hinv hstep (LeaseInv.start now) (fun row hrow => ?_) h
  exact absurd hrow List.not_mem_nil

/-! ## Workers that stop -/

namespace JobQueue

def firstJob (attempts : Nat) : ClaimedJob := ⟨(1, 0), attempts, 3⟩

def takeJob (worker : Id) : List JobStep := [.poll worker [1] 10 60, .claim worker [], .start worker]

def stopWithJob (worker : Id) : List JobStep := takeJob worker ++ [.crash worker, .tick 60001]

def oneJob : List JobStep := [.enqueue 1 .PRIVACY_REQUEST_EXECUTE none [] 3]

/-- Two workers stop with the job; a third one's last attempt fails in time. -/
def failsInTime : List JobStep :=
  oneJob ++ stopWithJob 1 ++ stopWithJob 2 ++ takeJob 3 ++ [.tick 59000, .fail 3 (firstJob 3) false 0]

def stopsThreeTimes : List JobStep := oneJob ++ stopWithJob 1 ++ stopWithJob 2 ++ stopWithJob 3

/-- The first worker's lease is taken over by a second one while it is still at work. -/
def takenOver : List JobStep := oneJob ++ takeJob 1 ++ [.tick 60001] ++ takeJob 2

end JobQueue

theorem leaseDiscipline_of_run_takenOver : ∃ q q',
    q.step (.complete 1 (JobQueue.firstJob 1) true) = some q' ∧
      LeaseDiscipline q (.complete 1 (JobQueue.firstJob 1) true) q' := by
  obtain ⟨q, hq⟩ : ∃ q, run JobQueue.step (JobQueue.start 0) JobQueue.takenOver = some q :=
    Option.isSome_iff_exists.mp (by decide +kernel)
  obtain ⟨q', hq'⟩ : ∃ q', q.step (.complete 1 (JobQueue.firstJob 1) true) = some q' := by
    have hrun : (run JobQueue.step (JobQueue.start 0)
        (JobQueue.takenOver ++ [.complete 1 (JobQueue.firstJob 1) true])).isSome = true := by
      decide +kernel
    obtain ⟨q', hq'⟩ := Option.isSome_iff_exists.mp hrun
    obtain ⟨q₁, hq₁, hlast⟩ := run_append.mp hq'
    obtain rfl : q = q₁ := Option.some.inj (hq.symm.trans hq₁)
    obtain ⟨q₂, hstep, -⟩ := run_cons_eq_some.mp hlast
    exact ⟨q₂, hstep⟩
  exact ⟨q, q', hq', leaseDiscipline_of_run hq hq'⟩

theorem throughout_notStranded_iff_failsInTime :
    Throughout JobQueue.step NotStranded (JobQueue.start 0) JobQueue.failsInTime := by
  obtain ⟨q, hq⟩ : ∃ q, run JobQueue.step (JobQueue.start 0) JobQueue.failsInTime = some q :=
    Option.isSome_iff_exists.mp (by decide +kernel)
  exact (throughout_notStranded_iff hq).mpr (by decide +kernel)

/-- A job whose worker stops on the last permitted attempt is stranded. -/
theorem not_notStranded_of_stopsThreeTimes :
    ∃ q, run JobQueue.step (JobQueue.start 0) JobQueue.stopsThreeTimes = some q ∧
      ¬NotStranded q := by
  have hrun : ∃ q ∈ run JobQueue.step (JobQueue.start 0) JobQueue.stopsThreeTimes,
      ¬NotStranded q := by
    decide +kernel
  obtain ⟨q, hq, hstranded⟩ := hrun
  exact ⟨q, hq, hstranded⟩

end Kommunsign
