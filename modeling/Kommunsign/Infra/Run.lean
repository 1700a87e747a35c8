import Mathlib.Data.List.Destutter
import Mathlib.Tactic.Common

/-!
# Runs of a transition system

A system is a partial step function `step : σ → ι → Option σ`: `none` says that the step is not
enabled, or that it failed and left nothing behind. A run is a list of step labels.

* `run` — the state after a list of steps
* `Meets` — every step of the run satisfies a condition on the label and the state before it
* `Throughout` — a property holds in every state of the run
-/

namespace Infra

section Run

variable {σ ι : Type}

/-- The state after `steps`, if every one of them is enabled. -/
def run (step : σ → ι → Option σ) : σ → List ι → Option σ
  | s, [] => some s
  | s, i :: is =>
    match step s i with
    | none => none
    | some s' => run step s' is

/-- Every step of the run satisfies `condition` in the state it is taken in. -/
def Meets (step : σ → ι → Option σ) (condition : σ → ι → Prop) : σ → List ι → Prop
  | _, [] => True
  | s, i :: is => condition s i ∧ ∀ s', step s i = some s' → Meets step condition s' is

section

variable {step : σ → ι → Option σ}

@[simp] theorem run_nil (s : σ) : run step s [] = some s := rfl

theorem run_cons_eq_some {s s' : σ} {i : ι} {is : List ι} :
    run step s (i :: is) = some s' ↔ ∃ s₁, step s i = some s₁ ∧ run step s₁ is = some s' := by
  simp only [run]
  cases step s i with
  | none => simp
  | some s₁ => simp

theorem run_append {s s' : σ} {is js : List ι} :
    run step s (is ++ js) = some s' ↔
      ∃ s₁, run step s is = some s₁ ∧ run step s₁ js = some s' := by
  induction is generalizing s with
  | nil => simp
  | cons i is ih =>
    rw [List.cons_append, run_cons_eq_some]
    constructor
    · rintro ⟨s₁, hs, hr⟩
      obtain ⟨s₂, h₁, h₂⟩ := ih.mp hr
      exact ⟨s₂, run_cons_eq_some.mpr ⟨s₁, hs, h₁⟩, h₂⟩
    · rintro ⟨s₂, h₁, h₂⟩
      obtain ⟨s₁, hs, hr⟩ := run_cons_eq_some.mp h₁
      exact ⟨s₁, hs, ih.mpr ⟨s₂, hr, h₂⟩⟩

/-- Steps that are labelled in another way. -/
theorem run_map {κ : Type} (f : κ → ι) (s : σ) (js : List κ) :
    run step s (js.map f) = run (fun s j => step s (f j)) s js := by
  induction js generalizing s with
  | nil => rfl
  | cons j js ih =>
    simp only [List.map_cons, run]
    cases step s (f j) with
    | none => rfl
    | some s' => exact ih s'

theorem meets_map {κ : Type} {condition : σ → ι → Prop} (f : κ → ι) (s : σ) (js : List κ) :
    Meets step condition s (js.map f) ↔
      Meets (fun s j => step s (f j)) (fun s j => condition s (f j)) s js := by
  induction js generalizing s with
  | nil => exact Iff.rfl
  | cons j js ih => exact and_congr_right' (forall₂_congr fun s' _ => ih s')

/-- What every step that meets the condition keeps, a run of such steps keeps. -/
theorem run_invariant_of_meets {condition : σ → ι → Prop} {inv : σ → Prop}
    (hstep : ∀ s i s', inv s → condition s i → step s i = some s' → inv s') :
    ∀ {is : List ι} {s s' : σ}, inv s → Meets step condition s is →
      run step s is = some s' → inv s'
  | [], _, _, hs, _, hr => by
    cases hr
    exact hs
  | _ :: _, _, _, hs, ⟨hc, hm⟩, hr => by
    obtain ⟨s₁, hs₁, hr₁⟩ := run_cons_eq_some.mp hr
    exact run_invariant_of_meets hstep (hstep _ _ _ hs hc hs₁) (hm _ hs₁) hr₁

/-- What an invariant gives for one step, it gives for every step of a run that meets a condition. -/
theorem meets_of_meets {condition property : σ → ι → Prop} {inv : σ → Prop}
    (hstep : ∀ s i s', inv s → condition s i → step s i = some s' → inv s')
    (hproperty : ∀ s i, inv s → condition s i → property s i) :
    ∀ {is : List ι} {s : σ}, inv s → Meets step condition s is → Meets step property s is
  | [], _, _, _ => trivial
  | _ :: _, _, hs, ⟨hc, hm⟩ =>
    ⟨hproperty _ _ hs hc, fun s' hs' =>
      meets_of_meets hstep hproperty (hstep _ _ s' hs hc hs') (hm s' hs')⟩

/--
If in the states of an invariant a step has a property exactly when it meets the condition, and
such steps keep the invariant, then the same holds of the steps of a run.
-/
theorem meets_iff_meets {condition property : σ → ι → Prop} {inv : σ → Prop}
    (hinv : ∀ s i s', inv s → condition s i → step s i = some s' → inv s')
    (hstep : ∀ s i s', inv s → step s i = some s' → (property s i ↔ condition s i)) :
    ∀ {is : List ι} {s s' : σ}, inv s → run step s is = some s' →
      (Meets step property s is ↔ Meets step condition s is)
  | [], _, _, _, _ => Iff.rfl
  | i :: is, s, s', hs, hr => by
    obtain ⟨s₁, hs₁, hr₁⟩ := run_cons_eq_some.mp hr
    refine (and_congr_left' (hstep s i s₁ hs hs₁)).trans (and_congr_right fun hc => ?_)
    have hrest := meets_iff_meets hinv hstep (hinv s i s₁ hs hc hs₁) hr₁
    constructor
    · intro h s₂ hs₂
      obtain rfl : s₁ = s₂ := Option.some.inj (hs₁.symm.trans hs₂)
      exact hrest.mp (h s₁ hs₁)
    · intro h s₂ hs₂
      obtain rfl : s₁ = s₂ := Option.some.inj (hs₁.symm.trans hs₂)
      exact hrest.mpr (h s₁ hs₁)

/-- The same for runs whose labels are all of a kind. -/
theorem meets_iff_meets_of_labels {condition property : σ → ι → Prop} {inv : σ → Prop}
    {label : ι → Prop}
    (hinv : ∀ s i s', label i → inv s → step s i = some s' → inv s')
    (hstep : ∀ s i s', label i → inv s → step s i = some s' → (property s i ↔ condition s i)) :
    ∀ {is : List ι} {s s' : σ}, (∀ i ∈ is, label i) → inv s → run step s is = some s' →
      (Meets step property s is ↔ Meets step condition s is) := by
  intro is s s' hlabels hs hr
  -- the labels of the kind, as a type of their own
  obtain ⟨js, rfl⟩ : ∃ js : List (Subtype label), js.map (·.val) = is :=
    ⟨is.attach.map fun i => ⟨i.1, hlabels i.1 i.2⟩, by simp⟩
  rw [run_map] at hr
  rw [meets_map, meets_map]
  exact meets_iff_meets (fun s j s' hs _ h => hinv s j.1 s' j.2 hs h)
    (fun s j s' hs h => hstep s j.1 s' j.2 hs h) hs hr

theorem Meets.imp {condition property : σ → ι → Prop} (h : ∀ s i, condition s i → property s i) :
    ∀ {is : List ι} {s : σ}, Meets step condition s is → Meets step property s is
  | [], _, _ => trivial
  | _ :: _, _, ⟨hc, hm⟩ => ⟨h _ _ hc, fun s' hs' => Meets.imp h (hm s' hs')⟩

theorem meets_of_forall {condition : σ → ι → Prop} (h : ∀ s i, condition s i) :
    ∀ (s : σ) (is : List ι), Meets step condition s is
  | _, [] => trivial
  | s, i :: is => ⟨h s i, fun s' _ => meets_of_forall h s' is⟩

/-- A condition on the labels alone. -/
theorem meets_of_labels (label : ι → Prop) {is : List ι} (h : ∀ i ∈ is, label i) (s : σ) :
    Meets step (fun _ i => label i) s is := by
  induction is generalizing s with
  | nil => trivial
  | cons i is ih =>
    exact ⟨h i List.mem_cons_self, fun s' _ => ih (fun j hj => h j (List.mem_cons_of_mem i hj)) s'⟩

theorem meets_true (s : σ) (is : List ι) : Meets step (fun _ _ => True) s is := by
  induction is generalizing s with
  | nil => trivial
  | cons i is ih => exact ⟨trivial, fun s' _ => ih s'⟩

/-- What every step keeps, a run keeps. -/
theorem run_invariant {inv : σ → Prop}
    (hstep : ∀ s i s', inv s → step s i = some s' → inv s') {is : List ι} {s s' : σ}
    (hs : inv s) (hr : run step s is = some s') : inv s' :=
  run_invariant_of_meets (fun s i s' hi (_ : True) h => hstep s i s' hi h) hs
    (meets_true s is) hr

/-- A run that meets a condition meets it at every prefix, and at the step after the prefix. -/
theorem meets_append {condition : σ → ι → Prop} {s s₁ : σ} {is js : List ι}
    (hm : Meets step condition s (is ++ js)) (hr : run step s is = some s₁) :
    Meets step condition s is ∧ Meets step condition s₁ js := by
  induction is generalizing s with
  | nil =>
    cases hr
    exact ⟨trivial, hm⟩
  | cons i is ih =>
    obtain ⟨hc, hm⟩ := hm
    obtain ⟨s₂, hs₂, hr₂⟩ := run_cons_eq_some.mp hr
    refine ⟨⟨hc, fun s' hs' => ?_⟩, (ih (hm _ hs₂) hr₂).2⟩
    rw [hs₂] at hs'
    cases hs'
    exact (ih (hm _ hs₂) hr₂).1

/-! ## Every state of a run -/

/-- The property holds in every state that the run goes through. -/
def Throughout (step : σ → ι → Option σ) (P : σ → Prop) : σ → List ι → Prop
  | s, [] => P s
  | s, i :: is => P s ∧ ∀ s', step s i = some s' → Throughout step P s' is

theorem Throughout.first {P : σ → Prop} {s : σ} : ∀ {is : List ι}, Throughout step P s is → P s
  | [], h => h
  | _ :: _, h => h.1

theorem Throughout.last {P : σ → Prop} : ∀ {is : List ι} {s s' : σ}, Throughout step P s is →
    run step s is = some s' → P s'
  | [], _, _, h, hr => by
    cases hr
    exact h
  | _ :: _, _, _, h, hr => by
    obtain ⟨s₁, hs₁, hr₁⟩ := run_cons_eq_some.mp hr
    exact Throughout.last (h.2 s₁ hs₁) hr₁

/--
If a step keeps the property exactly when it meets the condition, then of the runs within a bound
those that never leave the property are those whose steps all meet the condition. The invariant need
be kept only by the steps that meet it.
-/
theorem throughout_iff_meets_keeping {condition : σ → ι → Prop} {inv P bound : σ → Prop}
    (hinv : ∀ s i s', inv s → condition s i → bound s' → step s i = some s' → inv s')
    (hstep : ∀ s i s', inv s → P s → bound s' → step s i = some s' → (P s' ↔ condition s i)) :
    ∀ {is : List ι} {s s' : σ}, inv s → P s → Throughout step bound s is → run step s is = some s' →
      (Throughout step P s is ↔ Meets step condition s is)
  | [], _, _, _, hP, _, _ => ⟨fun _ => trivial, fun _ => hP⟩
  | i :: is, s, s', hs, hP, hb, hr => by
    obtain ⟨s₁, hs₁, hr₁⟩ := run_cons_eq_some.mp hr
    have hb₁ := hb.2 s₁ hs₁
    have hiff := hstep s i s₁ hs hP hb₁.first hs₁
    have hrest (hP₁ : P s₁) : Throughout step P s₁ is ↔ Meets step condition s₁ is :=
      throughout_iff_meets_keeping hinv hstep (hinv s i s₁ hs (hiff.mp hP₁) hb₁.first hs₁) hP₁ hb₁ hr₁
    constructor
    · intro h
      have hP₁ := (h.2 s₁ hs₁).first
      refine ⟨hiff.mp hP₁, fun s₂ hs₂ => ?_⟩
      obtain rfl : s₁ = s₂ := Option.some.inj (hs₁.symm.trans hs₂)
      exact (hrest hP₁).mp (h.2 s₁ hs₁)
    · intro h
      have hP₁ := hiff.mpr h.1
      refine ⟨hP, fun s₂ hs₂ => ?_⟩
      obtain rfl : s₁ = s₂ := Option.some.inj (hs₁.symm.trans hs₂)
      exact (hrest hP₁).mpr (h.2 s₁ hs₁)

/-- The same for an invariant that every step within the bound keeps. -/
theorem throughout_iff_meets_within {condition : σ → ι → Prop} {inv P bound : σ → Prop}
    (hinv : ∀ s i s', inv s → bound s' → step s i = some s' → inv s')
    (hstep : ∀ s i s', inv s → P s → bound s' → step s i = some s' → (P s' ↔ condition s i))
    {is : List ι} {s s' : σ} (hs : inv s) (hP : P s) (hb : Throughout step bound s is)
    (hr : run step s is = some s') : Throughout step P s is ↔ Meets step condition s is :=
  throughout_iff_meets_keeping (fun s i s' hs _ hb h => hinv s i s' hs hb h) hstep hs hP hb hr

theorem throughout_true (s : σ) (is : List ι) : Throughout step (fun _ => True) s is := by
  induction is generalizing s with
  | nil => trivial
  | cons i is ih => exact ⟨trivial, fun s' _ => ih s'⟩

/-- The same of all runs. -/
theorem throughout_iff_meets {condition : σ → ι → Prop} {inv P : σ → Prop}
    (hinv : ∀ s i s', inv s → step s i = some s' → inv s')
    (hstep : ∀ s i s', inv s → P s → step s i = some s' → (P s' ↔ condition s i))
    {is : List ι} {s s' : σ} (hs : inv s) (hP : P s) (hr : run step s is = some s') :
    Throughout step P s is ↔ Meets step condition s is :=
  throughout_iff_meets_within (fun s i s' hs (_ : True) h => hinv s i s' hs h)
    (fun s i s' hs hP _ h => hstep s i s' hs hP h) hs hP (throughout_true s is) hr

instance decidableMeets {condition : σ → ι → Prop} [∀ s i, Decidable (condition s i)] :
    ∀ (s : σ) (is : List ι), Decidable (Meets step condition s is)
  | _, [] => isTrue trivial
  | s, i :: is =>
    match h : step s i with
    | none => decidable_of_iff (condition s i) ⟨fun hc => ⟨hc, by simp [h]⟩, And.left⟩
    | some s' =>
      have : Decidable (Meets step condition s' is) := decidableMeets s' is
      decidable_of_iff (condition s i ∧ Meets step condition s' is)
        ⟨fun hc => ⟨hc.1, by simpa [h] using hc.2⟩, fun hc => ⟨hc.1, hc.2 s' h⟩⟩

end

end Run

/-!
# Histories of a transition system

What a step should do may depend on what the system has been before, not only on what it is.
-/

section History

variable {σ ι : Type}

/-- The state of a system, and the states that it has been in, the last one first. -/
structure History (σ : Type) where
  now : σ
  earlier : List σ
  deriving DecidableEq

namespace History

/-- The states up to now. -/
def states (history : History σ) : List σ := history.now :: history.earlier

/-- Nothing has happened yet. -/
def begin (s : σ) : History σ := ⟨s, []⟩

def step (step : σ → ι → Option σ) (history : History σ) (i : ι) : Option (History σ) :=
  (step history.now i).map fun s => ⟨s, history.states⟩

variable {step : σ → ι → Option σ} {history history' : History σ} {i : ι}

theorem step_eq_some : History.step step history i = some history' ↔
    step history.now i = some history'.now ∧ history'.earlier = history.states := by
  rw [History.step, Option.map_eq_some_iff]
  constructor
  · rintro ⟨s, hs, rfl⟩
    exact ⟨hs, rfl⟩
  · rintro ⟨hs, hearlier⟩
    exact ⟨_, hs, by rw [← hearlier]⟩

/-- Nothing of the past is forgotten. -/
theorem states_subset {is : List ι} (h : run (History.step step) history is = some history') :
    history.states ⊆ history'.states := by
  induction is generalizing history with
  | nil =>
    cases h
    exact List.Subset.refl _
  | cons i is ih =>
    obtain ⟨history₁, hfirst, hrest⟩ := run_cons_eq_some.mp h
    have hkept : history.states ⊆ history₁.states := by
      rw [states, states, (step_eq_some.mp hfirst).2]
      exact List.subset_cons_self _ _
    exact List.Subset.trans hkept (ih hrest)

/-- An invariant of the states decides on properties of the steps, whatever they ask of the past. -/
theorem meets_iff_meets {condition property : History σ → ι → Prop} {inv : σ → Prop}
    (hinv : ∀ s i s', inv s → step s i = some s' → inv s')
    (hstep : ∀ history i, inv history.now → (property history i ↔ condition history i))
    {is : List ι} (hbegin : inv history.now)
    (hrun : run (History.step step) history is = some history') :
    Meets (History.step step) property history is ↔
      Meets (History.step step) condition history is := by
  have hkeeps : ∀ (history : History σ) i history', inv history.now → condition history i →
      History.step step history i = some history' → inv history'.now :=
    fun _ _ _ hs _ h => hinv _ _ _ hs (step_eq_some.mp h).1
  have hiff : ∀ (history : History σ) i history', inv history.now →
      History.step step history i = some history' → (property history i ↔ condition history i) :=
    fun history i _ hs _ => hstep history i hs
  exact Infra.meets_iff_meets hkeeps hiff hbegin hrun

end History

end History

/-!
# Calls that may fail, and the phases they lead through

A call that fails leaves the state as it was, so any list of calls leads somewhere.
-/

variable {σ ι κ : Type} {step : σ → ι → Option σ}

/-- A call that fails changes nothing. -/
def call (step : σ → ι → Option σ) (s : σ) (i : ι) : σ := (step s i).getD s

def calls (step : σ → ι → Option σ) (s : σ) (is : List ι) : σ := is.foldl (call step) s

/-- The phases before, between and after the calls. -/
def visited (step : σ → ι → Option σ) (phase : σ → κ) : σ → List ι → List κ
  | s, [] => [phase s]
  | s, i :: is => phase s :: visited step phase (call step s i) is

@[simp] theorem calls_nil (s : σ) : calls step s [] = s := rfl

@[simp] theorem calls_cons (s : σ) (i : ι) (is : List ι) :
    calls step s (i :: is) = calls step (call step s i) is := rfl

theorem calls_append (s : σ) (is js : List ι) :
    calls step s (is ++ js) = calls step (calls step s is) js := List.foldl_append

theorem call_cases (step : σ → ι → Option σ) (s : σ) (i : ι) : step s i = some (call step s i) ∨ call step s i = s := by
  unfold call
  cases step s i with
  | none => exact Or.inr rfl
  | some s' => exact Or.inl rfl

/-- What every call keeps holds of the calls that were made and the state they lead to. -/
theorem calls_history (inv : List ι → σ → Prop) {s : σ} (hstart : inv [] s)
    (hcall : ∀ made s i, inv made s → inv (made ++ [i]) (call step s i)) (is : List ι) :
    inv is (calls step s is) := by
  have hafter : ∀ is made s, inv made s → inv (made ++ is) (calls step s is) := by
    intro is
    induction is with
    | nil =>
      intro made s h
      rw [List.append_nil]
      exact h
    | cons i is ih =>
      intro made s h
      have hnext := ih (made ++ [i]) (call step s i) (hcall made s i h)
      rw [List.append_assoc] at hnext
      exact hnext
  exact hafter is [] s hstart

/-- The same of a run: what every step keeps holds of the steps that were taken. -/
theorem run_history (inv : List ι → σ → Prop) {s s' : σ} (hstart : inv [] s)
    (hstep : ∀ made s i s', inv made s → step s i = some s' → inv (made ++ [i]) s') {is : List ι}
    (h : run step s is = some s') : inv is s' := by
  have hafter : ∀ is made s, inv made s → run step s is = some s' → inv (made ++ is) s' := by
    intro is
    induction is with
    | nil =>
      intro made s hmade h
      cases h
      rw [List.append_nil]
      exact hmade
    | cons i is ih =>
      intro made s hmade h
      obtain ⟨s₁, hfirst, hrest⟩ := run_cons_eq_some.mp h
      have hnext := ih (made ++ [i]) s₁ (hstep made s i s₁ hmade hfirst) hrest
      rw [List.append_assoc] at hnext
      exact hnext
  exact hafter is [] s hstart h

/-! ## Phases -/

theorem visited_eq_cons (step : σ → ι → Option σ) (phase : σ → κ) (s : σ) (is : List ι) :
    ∃ phases, visited step phase s is = phase s :: phases := by
  cases is with
  | nil => exact ⟨[], rfl⟩
  | cons i is => exact ⟨_, rfl⟩

/-- A phase that is dead stays dead. -/
theorem dead_of_calls (phase : σ → κ) (dead : κ → Prop)
    (hdead : ∀ s i, dead (phase s) → dead (phase (call step s i))) {s : σ} (h : dead (phase s))
    (is : List ι) : dead (phase (calls step s is)) := by
  induction is generalizing s with
  | nil => exact h
  | cons i is ih => exact ih (hdead s i h)

/--
Every call stays in its phase, goes to the next one on the way `rest` that is left, or to a dead
phase. A life that is in the last phase of the way at the end has gone the whole way.
-/
theorem visited_eq_path [DecidableEq κ] (phase : σ → κ) (rest : κ → List κ) (dead : κ → Prop)
    (last : κ) (hlast : rest last = [last]) (halive : ¬dead last)
    (hcall : ∀ s i, phase (call step s i) = phase s ∨
      (phase (call step s i) ≠ phase s ∧
        rest (phase s) = phase s :: rest (phase (call step s i))) ∨
      dead (phase (call step s i)))
    (hdead : ∀ s i, dead (phase s) → dead (phase (call step s i))) (s : σ) (is : List ι)
    (hend : phase (calls step s is) = last) :
    (visited step phase s is).destutter (· ≠ ·) = rest (phase s) := by
  induction is generalizing s with
  | nil =>
    rw [calls_nil] at hend
    rw [hend, hlast, visited, hend]
    rfl
  | cons i is ih =>
    have hrest := ih (call step s i) hend
    obtain ⟨phases, hphases⟩ := visited_eq_cons step phase (call step s i) is
    rw [hphases, List.destutter_cons'] at hrest
    rw [visited, hphases, List.destutter_cons_cons]
    rcases hcall s i with hsame | ⟨hmoved, hway⟩ | hgone
    · rw [if_neg (not_not.mpr hsame.symm), ← hsame]
      exact hrest
    · rw [if_pos hmoved.symm, hway, hrest]
    · have hgoneEnd := dead_of_calls phase dead hdead hgone is
      rw [calls_cons] at hend
      rw [hend] at hgoneEnd
      exact absurd hgoneEnd halive

end Infra
