import Kommunsign.Infra.Transaction

/-!
# Processes

A process takes one step after the other on stores outside it: transactions, each of which commits
or rolls back on its own, and effects that nothing takes back. When a step throws, what the earlier
ones have done stays done.

* `commit`, `perform`, `raise`, `recover`, `forEach` — the steps
* `Within` — a process only makes changes that a relation allows
-/

namespace Infra

variable {σ ε α β : Type}

/-- A process of a state `σ` that throws an `ε` or gives an `α`, and leaves a state in any case. -/
def Process (σ ε α : Type) := σ → Except ε α × σ

namespace Process

instance : Monad (Process σ ε) where
  pure a := fun s => (.ok a, s)
  bind x f := fun s =>
    match x s with
    | (.error e, s₁) => (.error e, s₁)
    | (.ok a, s₁) => f a s₁

/-- Throws. -/
def raise (e : ε) : Process σ ε α := fun s => (.error e, s)

/-- A transaction of its own. -/
def commit (tx : Transaction σ ε α) : Process σ ε α := fun s =>
  match tx s with
  | .error e => (.error e, s)
  | .ok (a, s₁) => (.ok a, s₁)

/-- An effect outside every transaction. -/
def perform (f : σ → σ) : Process σ ε Unit := fun s => (.ok (), f s)

/-- The state outside. -/
def state : Process σ ε σ := fun s => (.ok s, s)

/-- A pure computation that may throw. -/
def ofExcept : Except ε α → Process σ ε α
  | .error e => raise e
  | .ok a => pure a

/-- Goes on after the errors for which there is a handler. -/
def recover (x : Process σ ε α) (handler : ε → Option (Process σ ε α)) : Process σ ε α := fun s =>
  match x s with
  | (.ok a, s₁) => (.ok a, s₁)
  | (.error e, s₁) =>
    match handler e with
    | none => (.error e, s₁)
    | some y => y s₁

/-- One process after the other, for every item of the list. -/
def forEach (f : α → Process σ ε Unit) : List α → Process σ ε Unit
  | [] => pure ()
  | a :: rest => do
    f a
    forEach f rest

/-! ## What a process leaves -/

theorem bind_of_ok {x : Process σ ε α} {f : α → Process σ ε β} {s s₁ : σ} {a : α}
    (h : x s = (.ok a, s₁)) : (x >>= f) s = f a s₁ := by
  simp only [bind, h]

theorem bind_of_error {x : Process σ ε α} {f : α → Process σ ε β} {s s₁ : σ} {e : ε}
    (h : x s = (.error e, s₁)) : (x >>= f) s = (.error e, s₁) := by
  simp only [bind, h]

theorem bind_eq_ok {x : Process σ ε α} {f : α → Process σ ε β} {s s' : σ} {b : β} :
    (x >>= f) s = (.ok b, s') ↔ ∃ a s₁, x s = (.ok a, s₁) ∧ f a s₁ = (.ok b, s') := by
  rcases hx : x s with ⟨r, s₁⟩
  cases r with
  | error e =>
    rw [bind_of_error hx]
    exact ⟨nofun, fun ⟨_, _, h, _⟩ => nomatch h⟩
  | ok a =>
    rw [bind_of_ok hx]
    refine ⟨fun h => ⟨a, s₁, rfl, h⟩, ?_⟩
    rintro ⟨a', s₂, h, hf⟩
    cases h
    exact hf

theorem commit_of_ok {tx : Transaction σ ε α} {s s₁ : σ} {a : α} (h : tx s = .ok (a, s₁)) :
    commit tx s = (.ok a, s₁) := by
  simp only [commit, h]

theorem commit_of_error {tx : Transaction σ ε α} {s : σ} {e : ε} (h : tx s = .error e) :
    commit tx s = (.error e, s) := by
  simp only [commit, h]

theorem commit_eq_ok {tx : Transaction σ ε α} {s s' : σ} {a : α} :
    commit tx s = (.ok a, s') ↔ tx s = .ok (a, s') := by
  cases htx : tx s with
  | error e =>
    rw [commit_of_error htx]
    exact ⟨nofun, nofun⟩
  | ok r =>
    obtain ⟨b, s₁⟩ := r
    rw [commit_of_ok htx, Prod.mk.injEq, Except.ok.injEq, Except.ok.injEq, Prod.mk.injEq]

theorem state_bind {f : σ → Process σ ε β} {s : σ} : (state >>= f) s = f s s := rfl

theorem ofExcept_bind_of_ok {r : Except ε α} {f : α → Process σ ε β} {a : α} (h : r = .ok a) :
    ofExcept r >>= f = f a := by
  rw [h]
  rfl

theorem ofExcept_bind_of_error {r : Except ε α} {f : α → Process σ ε β} {e : ε} {s : σ}
    (h : r = .error e) : (ofExcept r >>= f) s = (.error e, s) := by
  rw [h]
  rfl

theorem recover_of_ok {x : Process σ ε α} {handler : ε → Option (Process σ ε α)} {s s₁ : σ} {a : α}
    (h : x s = (.ok a, s₁)) : recover x handler s = (.ok a, s₁) := by
  simp only [recover, h]

theorem recover_of_handled {x y : Process σ ε α} {handler : ε → Option (Process σ ε α)} {s s₁ : σ}
    {e : ε} (h : x s = (.error e, s₁)) (he : handler e = some y) : recover x handler s = y s₁ := by
  simp only [recover, h, he]

theorem recover_of_unhandled {x : Process σ ε α} {handler : ε → Option (Process σ ε α)} {s s₁ : σ}
    {e : ε} (h : x s = (.error e, s₁)) (he : handler e = none) :
    recover x handler s = (.error e, s₁) := by
  simp only [recover, h, he]

/-- What holds where the first step may end, and after the second one there, holds at the end. -/
theorem bind_post {Q : σ → Prop} {x : Process σ ε α} {f : α → Process σ ε β} {s : σ}
    (hx : Q (x s).2) (hf : ∀ a, (x s).1 = .ok a → Q (f a (x s).2).2) : Q ((x >>= f) s).2 := by
  rcases hxs : x s with ⟨r, s₁⟩
  rw [hxs] at hx hf
  cases r with
  | error e =>
    rw [bind_of_error hxs]
    exact hx
  | ok a =>
    rw [bind_of_ok hxs]
    exact hf a rfl

/-- Steps that each leave the state as it is. -/
theorem bind_state {x : Process σ ε α} {f : α → Process σ ε β} {s : σ} (hx : (x s).2 = s)
    (hf : ∀ a, (f a s).2 = s) : ((x >>= f) s).2 = s := by
  refine bind_post (Q := fun s' => s' = s) hx fun a _ => ?_
  rw [hx]
  exact hf a

/-! ## What a process may change -/

/-- The state that the process leaves stands in the relation to the one it found. -/
def Within (R : σ → σ → Prop) (x : Process σ ε α) : Prop := ∀ s, R s (x s).2

namespace Within

variable {R : σ → σ → Prop} {x : Process σ ε α}

theorem pure (hrefl : ∀ s, R s s) (a : α) : Within R (pure a : Process σ ε α) := fun s => hrefl s

theorem raise (hrefl : ∀ s, R s s) (e : ε) : Within R (raise e : Process σ ε α) :=
  fun s => hrefl s

theorem ofExcept (hrefl : ∀ s, R s s) (r : Except ε α) :
    Within R (ofExcept r : Process σ ε α) := by
  cases r with
  | error e => exact raise hrefl e
  | ok a => exact pure hrefl a

theorem bind (htrans : ∀ {s s₁ s'}, R s s₁ → R s₁ s' → R s s') {f : α → Process σ ε β}
    (hx : Within R x) (hf : ∀ a, Within R (f a)) : Within R (x >>= f) := by
  intro s
  exact bind_post (hx s) fun a _ => htrans (hx s) (hf a (x s).2)

theorem commit (hrefl : ∀ s, R s s) {tx : Transaction σ ε α}
    (h : ∀ s, Transaction.Within R tx s) : Within R (commit tx) := by
  intro s
  cases htx : tx s with
  | error e =>
    rw [commit_of_error htx]
    exact hrefl s
  | ok r =>
    obtain ⟨a, s₁⟩ := r
    rw [commit_of_ok htx]
    exact h s a s₁ htx

theorem recover (htrans : ∀ {s s₁ s'}, R s s₁ → R s₁ s' → R s s') (hx : Within R x)
    {handler : ε → Option (Process σ ε α)} (hh : ∀ e, ∀ y ∈ handler e, Within R y) :
    Within R (recover x handler) := by
  intro s
  have h₁ := hx s
  rcases hxs : x s with ⟨r, s₁⟩
  rw [hxs] at h₁
  unfold Process.recover
  rw [hxs]
  cases r with
  | ok a => exact h₁
  | error e =>
    cases hhandler : handler e with
    | none =>
      simp only [hhandler]
      exact h₁
    | some y =>
      simp only [hhandler]
      exact htrans h₁ (hh e y hhandler s₁)

theorem ite {c : Prop} [Decidable c] {y : Process σ ε α} (hx : Within R x) (hy : Within R y) :
    Within R (if c then x else y) := by
  by_cases h : c
  · rw [if_pos h]
    exact hx
  · rw [if_neg h]
    exact hy

end Within

end Process

end Infra
