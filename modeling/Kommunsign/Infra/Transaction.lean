import Mathlib.Tactic.Common

/-!
# Transactions over a state

A transaction reads and rewrites a state and may fail, in which case the state it started from
is the state that remains. The `await`s of a source become the binds of a `do` block.

* `bind_eq_ok` — a sequence succeeds exactly when both halves do
* `Within` — every successful outcome of a transaction is related to the state it began in;
  the rules below compose such facts along the program
-/

namespace Infra

variable {σ ε α β : Type}

/-- A computation that reads and rewrites `σ` and may fail with `ε`. -/
def Transaction (σ ε α : Type) := σ → Except ε (α × σ)

/-- A sequence of computations that can only fail. -/
theorem except_bind_eq_ok {x : Except ε α} {f : α → Except ε β} {b : β} :
    x >>= f = .ok b ↔ ∃ a, x = .ok a ∧ f a = .ok b := by
  cases x with
  | error e => simp [bind, Except.bind]
  | ok a => simp [bind, Except.bind]

theorem toOption_eq_some {x : Except ε α} {a : α} : x.toOption = some a ↔ x = .ok a := by
  cases x <;> simp [Except.toOption]

theorem except_mapError_eq_ok {ε' : Type} {f : ε → ε'} {x : Except ε α} {a : α} :
    x.mapError f = .ok a ↔ x = .ok a := by
  cases x with
  | error e => exact ⟨nofun, nofun⟩
  | ok b => exact ⟨fun h => congrArg _ (Except.ok.inj h), fun h => congrArg _ (Except.ok.inj h)⟩

/-- A list is gone through when each of its items is accepted. -/
theorem except_mapM_eq_ok {f : α → Except ε β} : ∀ {items : List α} {results : List β},
    items.mapM f = .ok results ↔ List.Forall₂ (fun a b => f a = .ok b) items results
  | [], results => by
    constructor
    · intro h
      cases h
      exact List.Forall₂.nil
    · rintro ⟨⟩
      rfl
  | a :: items, results => by
    rw [List.mapM_cons, except_bind_eq_ok]
    constructor
    · rintro ⟨b, hb, h⟩
      obtain ⟨rest, hrest, h⟩ := except_bind_eq_ok.mp h
      cases h
      exact List.Forall₂.cons hb (except_mapM_eq_ok.mp hrest)
    · rintro (_ | ⟨hb, hrest⟩)
      exact ⟨_, hb, except_bind_eq_ok.mpr ⟨_, except_mapM_eq_ok.mpr hrest, rfl⟩⟩

theorem except_mapM_map {f : α → Except ε β} {g : α → β} {items : List α}
    (h : ∀ a ∈ items, f a = .ok (g a)) : items.mapM f = .ok (items.map g) := by
  induction items with
  | nil => rfl
  | cons a items ih =>
    rw [List.forall_mem_cons] at h
    rw [List.mapM_cons, h.1, ih h.2]
    rfl

/-- Every item has its result, and every result its item. -/
theorem mem_of_except_mapM {f : α → Except ε β} {items : List α} {results : List β}
    (h : items.mapM f = .ok results) :
    (∀ a ∈ items, ∃ b ∈ results, f a = .ok b) ∧ ∀ b ∈ results, ∃ a ∈ items, f a = .ok b := by
  have hall := except_mapM_eq_ok.mp h
  clear h
  induction hall with
  | nil => exact ⟨nofun, nofun⟩
  | cons hab _ ih =>
    rw [List.forall_mem_cons, List.forall_mem_cons]
    refine ⟨⟨⟨_, List.mem_cons_self, hab⟩, fun a ha => ?_⟩, ⟨_, List.mem_cons_self, hab⟩,
      fun b hb => ?_⟩
    · obtain ⟨b, hb, hf⟩ := ih.1 a ha
      exact ⟨b, List.mem_cons_of_mem _ hb, hf⟩
    · obtain ⟨a, ha, hf⟩ := ih.2 b hb
      exact ⟨a, List.mem_cons_of_mem _ ha, hf⟩

/-- A guard that throws leaves the rest only where its condition fails. -/
theorem except_guard_eq_ok {c : Prop} [Decidable c] {e : ε} {f : PUnit → Except ε β} {b : β} :
    (if c then (throw e >>= f : Except ε β) else f ⟨⟩) = .ok b ↔ ¬c ∧ f ⟨⟩ = .ok b := by
  by_cases h : c
  · rw [if_pos h]
    exact ⟨nofun, fun h' => absurd h h'.1⟩
  · rw [if_neg h]
    exact ⟨fun h' => ⟨h, h'⟩, fun h' => h'.2⟩

theorem except_guard_eq_error {c : Prop} [Decidable c] {e e' : ε} {f : PUnit → Except ε β}
    (h : (if c then (throw e >>= f : Except ε β) else f ⟨⟩) = .error e') :
    e' = e ∨ f ⟨⟩ = .error e' := by
  split at h
  · exact .inl (Except.error.inj h).symm
  · exact .inr h

/-- An answer that is given early. -/
theorem except_return_eq_ok {c : Prop} [Decidable c] {a b : β} {x : Except ε β} :
    (if c then pure a else x) = .ok b ↔ c ∧ a = b ∨ ¬c ∧ x = .ok b := by
  by_cases h : c
  · rw [if_pos h]
    exact ⟨fun h' => .inl ⟨h, Except.ok.inj h'⟩, fun h' =>
      h'.elim (fun h'' => congrArg _ h''.2) fun h'' => absurd h h''.1⟩
  · rw [if_neg h]
    exact ⟨fun h' => .inr ⟨h, h'⟩, fun h' => h'.elim (fun h'' => absurd h''.1 h) And.right⟩

/-- The guard that ends a check. -/
theorem except_guard_end_eq_ok {c : Prop} [Decidable c] {e : ε} {a b : β} :
    (if c then throw e else pure a : Except ε β) = .ok b ↔ ¬c ∧ a = b := by
  by_cases h : c
  · rw [if_pos h]
    exact ⟨nofun, fun h' => absurd h h'.1⟩
  · rw [if_neg h]
    exact ⟨fun h' => ⟨h, Except.ok.inj h'⟩, fun h' => congrArg _ h'.2⟩

namespace Transaction

instance : Monad (Transaction σ ε) where
  pure a := fun s => .ok (a, s)
  bind x f := fun s =>
    match x s with
    | .error e => .error e
    | .ok (a, s₁) => f a s₁

/-- Rolls everything back. -/
def fail (e : ε) : Transaction σ ε α := fun _ => .error e

/-- The current state. -/
def read : Transaction σ ε σ := fun s => .ok (s, s)

/-- Rewrites the current state. -/
def rewrite (f : σ → σ) : Transaction σ ε Unit := fun s => .ok ((), f s)

/-- Succeeds when the check of the current state does, and changes nothing. -/
def check (c : σ → Except ε Unit) : Transaction σ ε Unit := fun s =>
  match c s with
  | .error e => .error e
  | .ok _ => .ok ((), s)

/-- Fails with `e` unless `c` holds. -/
def require (c : Bool) (e : ε) : Transaction σ ε Unit :=
  if c then pure () else fail e

/-- The value, or the failure `e` when there is none. -/
def demand (e : ε) : Option α → Transaction σ ε α
  | none => fail e
  | some a => pure a

/-- One transaction after the other, for every item of the list. -/
def forEach (f : α → Transaction σ ε Unit) : List α → Transaction σ ε Unit
  | [] => pure ()
  | a :: rest => do
    f a
    forEach f rest

/-- The state that a transaction leaves, if it commits. -/
def outcome (x : Transaction σ ε α) (s : σ) : Option σ :=
  match x s with
  | .error _ => none
  | .ok (_, s') => some s'

/-! ## When a step succeeds -/

theorem outcome_eq_some {x : Transaction σ ε α} {s s' : σ} :
    x.outcome s = some s' ↔ ∃ a, x s = .ok (a, s') := by
  unfold outcome
  cases x s with
  | error e => simp
  | ok r =>
    obtain ⟨a, s₁⟩ := r
    simp

theorem pure_eq_ok {a b : α} {s s' : σ} :
    (pure a : Transaction σ ε α) s = .ok (b, s') ↔ b = a ∧ s' = s := by
  simp [pure, eq_comm]

theorem fail_eq_ok {e : ε} {b : α} {s s' : σ} :
    (fail e : Transaction σ ε α) s = .ok (b, s') ↔ False := by
  simp [fail]

theorem bind_eq_ok {x : Transaction σ ε α} {f : α → Transaction σ ε β} {b : β} {s s' : σ} :
    (x >>= f) s = .ok (b, s') ↔ ∃ a s₁, x s = .ok (a, s₁) ∧ f a s₁ = .ok (b, s') := by
  simp only [bind]
  cases x s with
  | error e => simp
  | ok r =>
    obtain ⟨a, s₁⟩ := r
    constructor
    · exact fun h => ⟨a, s₁, rfl, h⟩
    · rintro ⟨_, _, h₁, h₂⟩
      cases h₁
      exact h₂

theorem read_eq_ok {a s s' : σ} :
    (read : Transaction σ ε σ) s = .ok (a, s') ↔ a = s ∧ s' = s := by
  simp [read, eq_comm]

theorem read_bind {f : σ → Transaction σ ε β} {s : σ} : (read >>= f) s = f s s := rfl

theorem rewrite_eq_ok {f : σ → σ} {u : Unit} {s s' : σ} :
    (rewrite f : Transaction σ ε Unit) s = .ok (u, s') ↔ s' = f s := by
  simp [rewrite, eq_comm]

theorem check_eq_ok {c : σ → Except ε Unit} {u : Unit} {s s' : σ} :
    check c s = .ok (u, s') ↔ c s = .ok () ∧ s' = s := by
  unfold check
  cases c s with
  | error e => simp
  | ok v => simp [eq_comm]

theorem require_eq_ok {c : Bool} {e : ε} {u : Unit} {s s' : σ} :
    (require c e : Transaction σ ε Unit) s = .ok (u, s') ↔ c = true ∧ s' = s := by
  cases c with
  | true => simp [require, pure_eq_ok]
  | false => simp [require, fail_eq_ok]

theorem demand_eq_ok {e : ε} {o : Option α} {a : α} {s s' : σ} :
    (demand e o : Transaction σ ε α) s = .ok (a, s') ↔ o = some a ∧ s' = s := by
  cases o with
  | none => simp [demand, fail_eq_ok]
  | some b =>
    rw [demand, pure_eq_ok, Option.some.injEq, eq_comm]

theorem ite_apply {c : Prop} [Decidable c] {x y : Transaction σ ε α} {s : σ} :
    (if c then x else y) s = if c then x s else y s := by
  split <;> rfl

/-! ## Relating the outcome to the start -/

/-- Every successful outcome of `x` from `s` is related to `s`. -/
def Within (R : σ → σ → Prop) (x : Transaction σ ε α) (s : σ) : Prop :=
  ∀ a s', x s = .ok (a, s') → R s s'

section Within

variable {R : σ → σ → Prop} {s : σ}

theorem Within.mono {R' : σ → σ → Prop} {x : Transaction σ ε α} (h : Within R x s)
    (hR : ∀ s s', R s s' → R' s s') : Within R' x s :=
  fun a s' hx => hR s s' (h a s' hx)

theorem Within.pure (hrefl : ∀ s, R s s) (a : α) : Within R (pure a : Transaction σ ε α) s := by
  intro b s' h
  obtain ⟨-, rfl⟩ := pure_eq_ok.mp h
  exact hrefl _

theorem Within.read (hrefl : ∀ s, R s s) : Within R (read : Transaction σ ε σ) s := by
  intro b s' h
  obtain ⟨-, rfl⟩ := read_eq_ok.mp h
  exact hrefl _

theorem Within.rewrite {f : σ → σ} (h : R s (f s)) :
    Within R (rewrite f : Transaction σ ε Unit) s := by
  intro b s' hs'
  obtain rfl := rewrite_eq_ok.mp hs'
  exact h

theorem Within.check (hrefl : ∀ s, R s s) (c : σ → Except ε Unit) : Within R (check c) s := by
  intro b s' h
  obtain ⟨-, rfl⟩ := check_eq_ok.mp h
  exact hrefl _

theorem Within.require (hrefl : ∀ s, R s s) (c : Bool) (e : ε) :
    Within R (require c e : Transaction σ ε Unit) s := by
  intro b s' h
  obtain ⟨-, rfl⟩ := require_eq_ok.mp h
  exact hrefl _

theorem Within.demand (hrefl : ∀ s, R s s) (e : ε) (o : Option α) :
    Within R (demand e o : Transaction σ ε α) s := by
  intro b s' h
  obtain ⟨-, rfl⟩ := demand_eq_ok.mp h
  exact hrefl _

/-- The composition rule: the second half is judged from every state the first can end in. -/
theorem Within.bind (htrans : ∀ a b c, R a b → R b c → R a c) {x : Transaction σ ε α}
    {f : α → Transaction σ ε β} (hx : Within R x s)
    (hf : ∀ a s₁, x s = .ok (a, s₁) → Within R (f a) s₁) : Within R (x >>= f) s := by
  intro b s' h
  obtain ⟨a, s₁, h₁, h₂⟩ := bind_eq_ok.mp h
  exact htrans _ _ _ (hx a s₁ h₁) (hf a s₁ h₁ b s' h₂)

theorem Within.ite {c : Prop} [Decidable c] {x y : Transaction σ ε α}
    (hx : c → Within R x s) (hy : ¬c → Within R y s) : Within R (if c then x else y) s := by
  by_cases h : c
  · rw [if_pos h]
    exact hx h
  · rw [if_neg h]
    exact hy h

/-- The loop rule: `inv` speaks of the items still to come and the state before the next one. -/
theorem Within.forEach (hrefl : ∀ s, R s s) (htrans : ∀ a b c, R a b → R b c → R a c)
    {f : α → Transaction σ ε Unit} (inv : List α → σ → Prop)
    (hbody : ∀ a rest s, inv (a :: rest) s → Within R (f a) s ∧
      ∀ u s', f a s = .ok (u, s') → inv rest s') :
    ∀ {items : List α} {s : σ}, inv items s → Within R (forEach f items) s
  | [], _, _ => Within.pure hrefl _
  | a :: rest, s, hs => by
    obtain ⟨hw, hi⟩ := hbody a rest s hs
    refine Within.bind htrans hw fun u s₁ h₁ => ?_
    exact Within.forEach hrefl htrans inv hbody (hi u s₁ h₁)

/-- What the body does for its own item, and no later item takes back, holds for all of them. -/
theorem forEach_post {f : α → Transaction σ ε Unit} (hbody : ∀ a s, Within R (f a) s)
    {Q : α → σ → Prop} (hkeep : ∀ a s s', R s s' → Q a s → Q a s')
    (hpost : ∀ a s u s', f a s = .ok (u, s') → Q a s') : ∀ {items : List α} {s s' : σ} {u : Unit},
    forEach f items s = .ok (u, s') → ∀ a ∈ items, Q a s'
  | [], _, _, _, _ => fun _ ha => absurd ha List.not_mem_nil
  | item :: items, s, s', u, h => by
    obtain ⟨_, s₁, h₁, h₂⟩ := bind_eq_ok.mp h
    intro a ha
    rcases List.mem_cons.mp ha with rfl | ha
    · -- the items after this one keep it
      have hrest : ∀ items s₁, Q a s₁ → ∀ u s', forEach f items s₁ = .ok (u, s') → Q a s' := by
        intro items
        induction items with
        | nil =>
          intro s₁ hQ u s' h
          obtain ⟨-, rfl⟩ := pure_eq_ok.mp h
          exact hQ
        | cons item items ih =>
          intro s₁ hQ u s' h
          obtain ⟨_, s₂, h₃, h₄⟩ := bind_eq_ok.mp h
          exact ih s₂ (hkeep a _ _ (hbody item s₁ _ _ h₃) hQ) u s' h₄
      exact hrest items s₁ (hpost a s _ s₁ h₁) _ s' h₂
    · exact forEach_post hbody hkeep hpost h₂ a ha

end Within

/-! ## How a transaction fails -/

/-- The transaction is rolled back, by a failure of this kind. -/
def FailsWith (P : ε → Prop) (x : Transaction σ ε α) (s : σ) : Prop :=
  ∃ e, x s = .error e ∧ P e

section FailsWith

variable {P : ε → Prop} {s : σ}

theorem not_failsWith_of_ok {x : Transaction σ ε α} {a : α} {s' : σ} (h : x s = .ok (a, s')) :
    ¬FailsWith P x s := by
  rintro ⟨e, he, -⟩
  rw [h] at he
  cases he

theorem not_failsWith_pure (a : α) : ¬FailsWith P (pure a : Transaction σ ε α) s :=
  not_failsWith_of_ok (pure_eq_ok.mpr ⟨rfl, rfl⟩)

theorem not_failsWith_rewrite (f : σ → σ) : ¬FailsWith P (rewrite f : Transaction σ ε Unit) s :=
  not_failsWith_of_ok (show rewrite f s = .ok ((), f s) from rfl)

theorem failsWith_fail {e : ε} : FailsWith P (fail e : Transaction σ ε α) s ↔ P e := by
  constructor
  · rintro ⟨e', he, hP⟩
    cases he
    exact hP
  · exact fun hP => ⟨e, rfl, hP⟩

/-- A sequence fails in its first half, or in its second half after the first. -/
theorem failsWith_bind {x : Transaction σ ε α} {f : α → Transaction σ ε β} :
    FailsWith P (x >>= f) s ↔
      FailsWith P x s ∨ ∃ a s₁, x s = .ok (a, s₁) ∧ FailsWith P (f a) s₁ := by
  simp only [FailsWith, bind]
  cases hx : x s with
  | error e => simp
  | ok r =>
    obtain ⟨a, s₁⟩ := r
    simp

/-- What can only fail in another way does not count. -/
theorem failsWith_bind_of_ok {x : Transaction σ ε α} {f : α → Transaction σ ε β} {a : α} {s₁ : σ}
    (h : x s = .ok (a, s₁)) : FailsWith P (x >>= f) s ↔ FailsWith P (f a) s₁ := by
  rw [failsWith_bind]
  constructor
  · rintro (hx | ⟨a', s', h', hf⟩)
    · exact absurd hx (not_failsWith_of_ok h)
    · cases h.symm.trans h'
      exact hf
  · exact fun hf => Or.inr ⟨a, s₁, h, hf⟩

theorem not_failsWith_bind {x : Transaction σ ε α} {f : α → Transaction σ ε β}
    (hx : ¬FailsWith P x s) (hf : ∀ a s₁, x s = .ok (a, s₁) → ¬FailsWith P (f a) s₁) :
    ¬FailsWith P (x >>= f) s := by
  rw [failsWith_bind]
  rintro (h | ⟨a, s₁, h₁, h₂⟩)
  · exact hx h
  · exact hf a s₁ h₁ h₂

end FailsWith

end Transaction

end Infra
