import Mathlib.Logic.Function.Basic
import Kommunsign.Infra.Run

/-!
# Transactions at read committed, statement by statement

A transaction runs a program of statements. Each statement sees what is committed at that moment
with the transaction's own writes over it; the writes reach the committed state together, at the
commit. A lock is kept until the transaction ends, and one that another transaction has is waited
for.

Only the holder of the lock commits a change of the component, so what the holder has read of it
stays true until its commit: this is `Sound.holder`.

* `Program` — the statements of a transaction, each chosen from what the ones before it saw
* `System`, `step` — the committed state, the open transactions, and who holds which lock
* `Unlocked`, `Locked` — a program that changes a component only under a lock
-/

namespace Infra.ReadCommitted

variable {σ κ γ : Type}

/--
`write` is what the statement does to a state, given the state it saw. A statement that fails is
followed by `abort`.
-/
inductive Program (σ κ : Type) where
  | commit
  | abort
  | lock (key : κ) (next : Program σ κ)
  | statement (write : σ → σ → σ) (next : σ → Program σ κ)

/-- `writes` is what the statements so far do to the state that is committed in the end. -/
structure Session (σ κ : Type) where
  program : Program σ κ
  writes : σ → σ

structure System (σ κ : Type) where
  committed : σ
  sessions : Nat → Option (Session σ κ)
  holder : κ → Option Nat

/-- Nothing but a committed state. -/
def idle (committed : σ) : System σ κ := ⟨committed, fun _ => none, fun _ => none⟩

/-- A client may open a transaction, run its next statement, or lose its connection. -/
inductive Action (σ κ : Type) where
  | begin (i : Nat) (program : Program σ κ)
  | next (i : Nat)
  | disconnect (i : Nat)

section

variable [DecidableEq κ]

/-- The end of a transaction gives its locks back. -/
def finish (s : System σ κ) (i : Nat) (committed : σ) : System σ κ where
  committed := committed
  sessions := Function.update s.sessions i none
  holder key := if s.holder key = some i then none else s.holder key

def proceed (s : System σ κ) (i : Nat) (program : Program σ κ) (writes : σ → σ) : System σ κ :=
  { s with sessions := Function.update s.sessions i (some ⟨program, writes⟩) }

/-- `none`: the transaction does not exist, exists already, or waits for a lock. -/
def step (s : System σ κ) : Action σ κ → Option (System σ κ)
  | .begin i program =>
    match s.sessions i with
    | some _ => none
    | none => some (proceed s i program id)
  | .disconnect i =>
    match s.sessions i with
    | none => none
    | some _ => some (finish s i s.committed)
  | .next i =>
    match s.sessions i with
    | none => none
    | some ⟨.commit, writes⟩ => some (finish s i (writes s.committed))
    | some ⟨.abort, _⟩ => some (finish s i s.committed)
    | some ⟨.lock key next, writes⟩ =>
      match s.holder key with
      | none => some { proceed s i next writes with
          holder := Function.update s.holder key (some i) }
      | some j => if j = i then some (proceed s i next writes) else none
    | some ⟨.statement write next, writes⟩ =>
      let visible := writes s.committed
      some (proceed s i (next visible) (fun state => write visible (writes state)))

end

/-! ## Programs that change a component under a lock only -/

section Guarded

variable (component : σ → γ) (key : κ) (P : γ → Prop)

/-- The lock is held and the program sees `value`: it leaves a value of `P` when it commits. -/
def Locked : Program σ κ → γ → Prop
  | .commit, value => P value
  | .abort, _ => True
  | .lock _ next, value => Locked next value
  | .statement write next, value => ∀ visible, component visible = value →
      (∀ state, component state = value →
        component (write visible state) = component (write visible visible)) ∧
      Locked (next visible) (component (write visible visible))

/-- The lock is not held yet: no statement changes the component. -/
def Unlocked [DecidableEq κ] : Program σ κ → Prop
  | .commit => True
  | .abort => True
  | .lock key' next =>
    if key' = key then ∀ value, P value → Locked component P next value else Unlocked next
  | .statement write next => ∀ visible,
      (∀ state, component (write visible state) = component state) ∧ Unlocked (next visible)

/--
The lock is not held yet: `effect` is what the statements so far do to the component, in whichever
state they are committed. A statement sees that over a value of `P`.
-/
def Preparing [DecidableEq κ] : Program σ κ → (γ → γ) → Prop
  | .commit, effect => ∀ value, effect value = value
  | .abort, _ => True
  | .lock key' next, effect =>
    if key' = key then ∀ value, P value → Locked component P next (effect value)
    else Preparing next effect
  | .statement write next, effect => ∀ visible, (∃ value, P value ∧ component visible = effect value) →
      ∃ change : γ → γ, (∀ state, component (write visible state) = change (component state)) ∧
        Preparing (next visible) (change ∘ effect)

/-- No statement changes the component, whichever locks are held. -/
def Untouched : Program σ κ → Prop
  | .commit => True
  | .abort => True
  | .lock _ next => Untouched next
  | .statement write next => ∀ visible,
      (∀ state, component (write visible state) = component state) ∧ Untouched (next visible)

/-- What holds in every reachable state. -/
structure Sound [DecidableEq κ] (s : System σ κ) : Prop where
  committed : P (component s.committed)
  held : ∀ i, s.holder key = some i → ∃ session, s.sessions i = some session
  holder : ∀ i session, s.sessions i = some session → s.holder key = some i →
    (∀ state, component state = component s.committed →
      component (session.writes state) = component (session.writes s.committed)) ∧
    Locked component P session.program (component (session.writes s.committed))
  waiting : ∀ i session, s.sessions i = some session → s.holder key ≠ some i → ∃ effect,
    (∀ state, component (session.writes state) = effect (component state)) ∧
    Preparing component key P session.program effect

variable {component key P} [DecidableEq κ]

omit [DecidableEq κ] in
theorem Untouched.locked {program : Program σ κ} (h : Untouched component program) {value : γ}
    (hvalue : P value) : Locked component P program value := by
  induction program generalizing value with
  | commit => exact hvalue
  | abort => trivial
  | lock _ next ih => exact ih h hvalue
  | statement write next ih =>
    intro visible hvisible
    obtain ⟨hwrite, hnext⟩ := h visible
    refine ⟨fun state hstate => ?_, ih visible hnext ?_⟩
    · rw [hwrite, hwrite, hstate, hvisible]
    · rw [hwrite, hvisible]
      exact hvalue

theorem Untouched.unlocked {program : Program σ κ} (h : Untouched component program) :
    Unlocked component key P program := by
  induction program with
  | commit => trivial
  | abort => trivial
  | lock key' next ih =>
    unfold Unlocked
    split
    · have hnext : Untouched component next := h
      exact fun value hvalue => hnext.locked hvalue
    · exact ih h
  | statement write next ih => exact fun visible => ⟨(h visible).1, ih visible (h visible).2⟩

theorem Unlocked.preparing {program : Program σ κ} (h : Unlocked component key P program) :
    Preparing component key P program id := by
  induction program with
  | commit => exact fun _ => rfl
  | abort => trivial
  | lock key' next ih =>
    unfold Unlocked at h
    unfold Preparing
    split
    · next hkey =>
      rw [if_pos hkey] at h
      exact h
    · next hkey =>
      rw [if_neg hkey] at h
      exact ih h
  | statement write next ih =>
    intro visible _
    obtain ⟨hwrite, hnext⟩ := h visible
    exact ⟨id, hwrite, ih visible hnext⟩

theorem sound_idle {committed : σ} (h : P (component committed)) :
    Sound component key P (idle committed) where
  committed := h
  held _ h := nomatch h
  holder _ _ h := nomatch h
  waiting _ _ h := nomatch h

/-- A transaction that ends without having changed the component, or with a value of `P`. -/
theorem Sound.finish {s : System σ κ} (hs : Sound component key P s) {i : Nat} {committed : σ}
    (hP : P (component committed))
    (hkeep : s.holder key ≠ some i → component committed = component s.committed) :
    Sound component key P (finish s i committed) := by
  have hother : ∀ {j session}, (ReadCommitted.finish s i committed).sessions j = some session →
      j ≠ i ∧ s.sessions j = some session := by
    intro j session h
    by_cases hj : j = i
    · subst hj
      simp [ReadCommitted.finish] at h
    · exact ⟨hj, by simpa [ReadCommitted.finish, hj] using h⟩
  have hholder : ∀ {j}, (ReadCommitted.finish s i committed).holder key = some j →
      s.holder key = some j ∧ s.holder key ≠ some i := by
    intro j h
    by_cases hi : s.holder key = some i
    · simp [ReadCommitted.finish, hi] at h
    · exact ⟨by simpa [ReadCommitted.finish, hi] using h, hi⟩
  refine ⟨hP, fun j hj => ?_, fun j session hsession hj => ?_, fun j session hsession hj => ?_⟩
  · obtain ⟨hheld, hi⟩ := hholder hj
    have hne : j ≠ i := fun h => hi (h ▸ hheld)
    obtain ⟨session, hsession⟩ := hs.held j hheld
    exact ⟨session, by simpa [ReadCommitted.finish, hne] using hsession⟩
  · -- another transaction holds the lock, so this one has left the component alone
    obtain ⟨hheld, hi⟩ := hholder hj
    obtain ⟨hwrites, hlocked⟩ := hs.holder j session (hother hsession).2 hheld
    have hsame : component committed = component s.committed := hkeep hi
    have hvisible := hwrites committed hsame
    refine ⟨fun state hstate => ?_, by rw [ReadCommitted.finish, hvisible]; exact hlocked⟩
    rw [ReadCommitted.finish, hvisible]
    exact hwrites state (hstate.trans hsame)
  · obtain ⟨hne, hold⟩ := hother hsession
    refine hs.waiting j session hold fun hheld => hj ?_
    have hi : s.holder key ≠ some i := fun h => hne (Option.some.inj (hheld.symm.trans h))
    simpa [ReadCommitted.finish, hi] using hheld

/-- A transaction that goes on; `holder'` is who has the locks then. -/
theorem Sound.proceed {s : System σ κ} (hs : Sound component key P s) {i : Nat}
    {program : Program σ κ} {writes : σ → σ} {holder' : κ → Option Nat}
    (hothers : ∀ j, j ≠ i → (holder' key = some j ↔ s.holder key = some j))
    (hholder : holder' key = some i →
      (∀ state, component state = component s.committed →
        component (writes state) = component (writes s.committed)) ∧
      Locked component P program (component (writes s.committed)))
    (hwaiting : holder' key ≠ some i → ∃ effect,
      (∀ state, component (writes state) = effect (component state)) ∧
      Preparing component key P program effect) :
    Sound component key P { proceed s i program writes with holder := holder' } := by
  refine ⟨hs.committed, fun j hj => ?_, fun j session hsession hj => ?_,
    fun j session hsession hj => ?_⟩
  · by_cases hne : j = i
    · subst hne
      exact ⟨⟨program, writes⟩, by simp [ReadCommitted.proceed]⟩
    · obtain ⟨session, hsession⟩ := hs.held j ((hothers j hne).mp hj)
      exact ⟨session, by simpa [ReadCommitted.proceed, hne] using hsession⟩
  · by_cases hne : j = i
    · subst hne
      obtain rfl : (⟨program, writes⟩ : Session σ κ) = session := by
        simpa [ReadCommitted.proceed] using hsession
      exact hholder hj
    · exact hs.holder j session (by simpa [ReadCommitted.proceed, hne] using hsession)
        ((hothers j hne).mp hj)
  · by_cases hne : j = i
    · subst hne
      obtain rfl : (⟨program, writes⟩ : Session σ κ) = session := by
        simpa [ReadCommitted.proceed] using hsession
      exact hwaiting hj
    · exact hs.waiting j session (by simpa [ReadCommitted.proceed, hne] using hsession)
        fun h => hj ((hothers j hne).mpr h)

theorem Sound.next {s s' : System σ κ} {i : Nat} (hs : Sound component key P s)
    (h : step s (.next i) = some s') : Sound component key P s' := by
  simp only [step] at h
  split at h
  · exact nomatch h
  · -- commit
    rename_i writes hsession
    cases h
    by_cases hheld : s.holder key = some i
    · exact hs.finish (hs.holder i _ hsession hheld).2 fun hne => absurd hheld hne
    · obtain ⟨effect, hwrites, hkeeps⟩ := hs.waiting i _ hsession hheld
      have hsame : component (writes s.committed) = component s.committed :=
        (hwrites s.committed).trans (hkeeps _)
      exact hs.finish (hsame ▸ hs.committed) fun _ => hsame
  · -- abort
    cases h
    exact hs.finish hs.committed fun _ => rfl
  · -- a lock
    rename_i key' next writes hsession
    by_cases hkey : key' = key
    · subst hkey
      split at h
      · rename_i hfree
        cases h
        have hne : s.holder key' ≠ some i := by simp [hfree]
        obtain ⟨effect, hwrites, hprepares⟩ := hs.waiting i _ hsession hne
        rw [Preparing, if_pos rfl] at hprepares
        refine hs.proceed (fun j hj => ?_) (fun _ => ⟨fun state hstate => ?_, ?_⟩) fun h => ?_
        · simp [hfree, Ne.symm hj]
        · rw [hwrites, hwrites, hstate]
        · rw [hwrites]
          exact hprepares _ hs.committed
        · simp at h
      · split at h
        · rename_i j hheld hj
          subst hj
          cases h
          obtain ⟨hwrites, hlocked⟩ := hs.holder j _ hsession hheld
          exact hs.proceed (fun _ _ => Iff.rfl) (fun _ => ⟨hwrites, hlocked⟩)
            fun h => absurd hheld h
        · exact nomatch h
    · -- some other lock
      have hproceed : ∀ holder' : κ → Option Nat, holder' key = s.holder key →
          Sound component key P { ReadCommitted.proceed s i next writes with holder := holder' } := by
        intro holder' heq
        refine hs.proceed (fun j _ => by rw [heq]) (fun h => ?_) fun h => ?_
        · exact hs.holder i _ hsession (heq ▸ h)
        · obtain ⟨effect, hwrites, hprepares⟩ := hs.waiting i _ hsession (heq ▸ h)
          rw [Preparing, if_neg hkey] at hprepares
          exact ⟨effect, hwrites, hprepares⟩
      split at h
      · cases h
        exact hproceed _ (by simp [Function.update_of_ne (Ne.symm hkey)])
      · split at h
        · cases h
          exact hproceed _ rfl
        · exact nomatch h
  · -- a statement
    rename_i write next writes hsession
    cases h
    refine hs.proceed (fun _ _ => Iff.rfl) (fun hheld => ?_) fun hne => ?_
    · obtain ⟨hwrites, hlocked⟩ := hs.holder i _ hsession hheld
      obtain ⟨hwrite, hnext⟩ := hlocked (writes s.committed) rfl
      exact ⟨fun state hstate => hwrite _ (hwrites state hstate), hnext⟩
    · obtain ⟨effect, hwrites, hprepares⟩ := hs.waiting i _ hsession hne
      obtain ⟨change, hwrite, hnext⟩ :=
        hprepares (writes s.committed) ⟨component s.committed, hs.committed, hwrites s.committed⟩
      exact ⟨change ∘ effect, fun state => (hwrite _).trans (congrArg change (hwrites state)), hnext⟩

theorem Sound.step {s s' : System σ κ} {a : Action σ κ} (hs : Sound component key P s)
    (hbegin : ∀ i program, a = .begin i program → Preparing component key P program id)
    (h : step s a = some s') : Sound component key P s' := by
  cases a with
  | begin i program =>
    simp only [ReadCommitted.step] at h
    split at h
    · exact nomatch h
    · rename_i hfree
      cases h
      have hne : s.holder key ≠ some i := by
        intro hheld
        obtain ⟨session, hsession⟩ := hs.held i hheld
        exact nomatch hfree.symm.trans hsession
      exact hs.proceed (fun _ _ => Iff.rfl) (fun hheld => absurd hheld hne)
        fun _ => ⟨id, fun _ => rfl, hbegin i program rfl⟩
  | next i => exact hs.next h
  | disconnect i =>
    simp only [ReadCommitted.step] at h
    split at h
    · exact nomatch h
    · cases h
      exact hs.finish hs.committed fun _ => rfl

/-- What holds of the component and is kept by each program alone, holds however they interleave. -/
theorem prepared_invariant (component : σ → γ) (key : κ) (P : γ → Prop) {committed : σ}
    {actions : List (Action σ κ)} {s : System σ κ} (h₀ : P (component committed))
    (hbegin : ∀ i program, .begin i program ∈ actions → Preparing component key P program id)
    (hr : run step (idle committed) actions = some s) : P (component s.committed) := by
  have hsound : ∀ {actions : List (Action σ κ)} {s₀ s : System σ κ},
      (∀ i program, .begin i program ∈ actions → Preparing component key P program id) →
      Sound component key P s₀ → run step s₀ actions = some s → Sound component key P s := by
    intro actions
    induction actions with
    | nil =>
      intro s₀ s _ hs hr
      cases hr
      exact hs
    | cons a actions ih =>
      intro s₀ s hbegin hs hr
      obtain ⟨s₁, hs₁, hr₁⟩ := run_cons_eq_some.mp hr
      refine ih (fun i program hmem => hbegin i program (List.mem_cons_of_mem a hmem)) ?_ hr₁
      exact hs.step (fun i program heq => hbegin i program (heq ▸ List.mem_cons_self)) hs₁
  exact (hsound hbegin (sound_idle h₀) hr).committed

/-- The same for programs that do not touch the component before they have the lock. -/
theorem guarded_invariant (component : σ → γ) (key : κ) (P : γ → Prop) {committed : σ}
    {actions : List (Action σ κ)} {s : System σ κ} (h₀ : P (component committed))
    (hbegin : ∀ i program, .begin i program ∈ actions → Unlocked component key P program)
    (hr : run step (idle committed) actions = some s) : P (component s.committed) :=
  prepared_invariant component key P h₀ (fun i program h => (hbegin i program h).preparing) hr

end Guarded

end Infra.ReadCommitted

/-!
# Reading in one transaction and writing in another

A client reads a value, prepares from it what it wants to write, and writes that in a transaction of
its own. Between the two the value may have changed.
-/

namespace Infra.ReadThenWrite

variable {σ ρ ν π ω : Type}

/-- `none`: the client is refused. `ω` is what the database adds to a write. -/
structure Service (σ ρ ν π ω : Type) where
  read : σ → Option ν
  prepare : ρ → ν → Option π
  write : ρ → ω → π → σ → Option σ

structure Exchange (σ ρ ν ω : Type) where
  stored : σ
  pending : Nat → Option (ρ × ν)
  /-- The requests that were carried out, oldest first. -/
  answered : List (ρ × ω)

def start (stored : σ) : Exchange σ ρ ν ω := ⟨stored, fun _ => none, []⟩

inductive Action (ρ ω : Type) where
  | read (i : Nat) (request : ρ)
  | write (i : Nat) (added : ω)

namespace Service

variable (service : Service σ ρ ν π ω)

/-- A client whose request is refused has nothing to write. -/
def step (s : Exchange σ ρ ν ω) : Action ρ ω → Option (Exchange σ ρ ν ω)
  | .read i request =>
    match s.pending i with
    | some _ => none
    | none =>
      some { s with pending := Function.update s.pending i
                      ((service.read s.stored).map fun seen => (request, seen)) }
  | .write i added =>
    match s.pending i with
    | none => none
    | some (request, seen) =>
      let pending := Function.update s.pending i none
      match (service.prepare request seen).bind (service.write request added · s.stored) with
      | none => some { s with pending }
      | some stored => some ⟨stored, pending, s.answered ++ [(request, added)]⟩

/-- A request that nothing comes between. -/
def apply (stored : σ) (request : ρ × ω) : Option σ :=
  (service.read stored).bind fun seen =>
    (service.prepare request.1 seen).bind (service.write request.1 request.2 · stored)

/-- What was read leads to the same write as what is stored. -/
def Fresh (s : Exchange σ ρ ν ω) : Action ρ ω → Prop
  | .read _ _ => True
  | .write i _ => ∀ request seen, s.pending i = some (request, seen) →
      (service.read s.stored).map (service.prepare request) = some (service.prepare request seen)

instance decidableFresh [DecidableEq π] (s : Exchange σ ρ ν ω) :
    ∀ action, Decidable (service.Fresh s action)
  | .read _ _ => isTrue trivial
  | .write i _ =>
    match h : s.pending i with
    | none => isTrue fun _ _ h' => nomatch h.symm.trans h'
    | some (request, seen) =>
      decidable_of_iff
        ((service.read s.stored).map (service.prepare request) = some (service.prepare request seen))
        ⟨fun heq _ _ h' => by cases h.symm.trans h'; exact heq, fun hfresh => hfresh _ _ h⟩

variable {service}

/-- A step leaves the stored value, or writes what a client prepared. -/
theorem step_cases {s s' : Exchange σ ρ ν ω} {action : Action ρ ω}
    (h : service.step s action = some s') :
    (s'.stored = s.stored ∧ s'.answered = s.answered) ∨
    ∃ i added request seen, action = .write i added ∧ s.pending i = some (request, seen) ∧
      (service.prepare request seen).bind (service.write request added · s.stored) =
        some s'.stored ∧
      s'.answered = s.answered ++ [(request, added)] := by
  cases action with
  | read i request =>
    simp only [step] at h
    split at h
    · exact nomatch h
    · cases h
      exact .inl ⟨rfl, rfl⟩
  | write i added =>
    simp only [step] at h
    split at h
    · exact nomatch h
    · rename_i request seen hpending
      split at h
      · cases h
        exact .inl ⟨rfl, rfl⟩
      · rename_i stored hwrite
        cases h
        exact .inr ⟨i, added, request, seen, rfl, hpending, hwrite, rfl⟩

/-- A fresh write is the whole request, applied to the stored value. -/
theorem apply_of_fresh {s s' : Exchange σ ρ ν ω} {i : Nat} {added : ω} {request : ρ} {seen : ν}
    (hfresh : service.Fresh s (.write i added)) (hpending : s.pending i = some (request, seen))
    (hwrite : (service.prepare request seen).bind (service.write request added · s.stored) =
      some s'.stored) :
    service.apply s.stored (request, added) = some s'.stored := by
  have hprepare := hfresh request seen hpending
  obtain ⟨now, hread, hsame⟩ := Option.map_eq_some_iff.mp hprepare
  rw [apply, hread, Option.bind_some, hsame]
  exact hwrite

variable (service) in
/-- The stored value is that of the answered requests, one after another. -/
def Serial (stored : σ) (s : Exchange σ ρ ν ω) : Prop :=
  run service.apply stored s.answered = some s.stored

theorem Serial.step {stored : σ} {s s' : Exchange σ ρ ν ω} {action : Action ρ ω}
    (hs : service.Serial stored s) (hfresh : service.Fresh s action)
    (h : service.step s action = some s') : service.Serial stored s' := by
  unfold Serial
  rcases step_cases h with ⟨hstored, hanswered⟩ | ⟨i, added, request, seen, rfl, hpending, hwrite, hanswered⟩
  · rw [hanswered, hstored]
    exact hs
  · rw [hanswered]
    refine run_append.mpr ⟨s.stored, hs, run_cons_eq_some.mpr ⟨s'.stored, ?_, rfl⟩⟩
    exact apply_of_fresh hfresh hpending hwrite

/-- When every write is fresh, the requests were carried out in the order they were answered in. -/
theorem serial_of_fresh {stored : σ} {actions : List (Action ρ ω)} {s : Exchange σ ρ ν ω}
    (hfresh : Meets service.step service.Fresh (start stored) actions)
    (hr : run service.step (start stored) actions = some s) : service.Serial stored s :=
  run_invariant_of_meets (fun _ _ _ hs hcondition h => hs.step hcondition h)
    (show service.Serial stored (start stored) from rfl) hfresh hr

end Service

end Infra.ReadThenWrite
