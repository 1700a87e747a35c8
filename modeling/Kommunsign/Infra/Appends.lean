import Kommunsign.Infra.Table

/-!
# Transactions that append to a log

A log is a list of the state that transactions only ever append to.

* `Grows` — the log has grown at its end, by entries that are allowed
* `Appends` — every outcome of a transaction has such a log; the rules follow the program
-/

namespace Infra

open Transaction

variable {σ ε α β ρ κ : Type} {log : σ → List κ} {allowed : κ → Prop} {s s' : σ}

/-- The log has grown at its end, by entries that are allowed. -/
def Grows (log : σ → List κ) (allowed : κ → Prop) (s s' : σ) : Prop :=
  ∃ added, log s' = log s ++ added ∧ ∀ entry ∈ added, allowed entry

namespace Grows

theorem of_eq (h : log s' = log s) : Grows log allowed s s' :=
  ⟨[], by rw [h, List.append_nil], fun _ hentry => absurd hentry List.not_mem_nil⟩

theorem refl (s : σ) : Grows log allowed s s := of_eq rfl

theorem append {entry : κ} (hlog : log s' = log s ++ [entry]) (h : allowed entry) :
    Grows log allowed s s' := by
  refine ⟨[entry], hlog, fun other hother => ?_⟩
  rw [List.mem_singleton.mp hother]
  exact h

theorem trans (s s' s'' : σ) (h : Grows log allowed s s') (h' : Grows log allowed s' s'') :
    Grows log allowed s s'' := by
  obtain ⟨added, hlog, hadded⟩ := h
  obtain ⟨added', hlog', hadded'⟩ := h'
  refine ⟨added ++ added', by rw [hlog', hlog, List.append_assoc], fun entry hentry => ?_⟩
  exact (List.mem_append.mp hentry).elim (hadded entry) (hadded' entry)

/-- What was in the log stays there. -/
theorem subset (h : Grows log allowed s s') : log s ⊆ log s' := by
  obtain ⟨added, hlog, -⟩ := h
  rw [hlog]
  exact List.subset_append_left _ _

/-- What is behind the end of the log before has been added to it. -/
theorem eq_append_drop (h : Grows log allowed s s') :
    log s' = log s ++ (log s').drop (log s).length ∧
      ∀ entry ∈ (log s').drop (log s).length, allowed entry := by
  obtain ⟨added, hlog, hadded⟩ := h
  rw [hlog, List.drop_left]
  exact ⟨rfl, hadded⟩

end Grows

/-- Every successful outcome, from any state, has a log that has grown by what is allowed. -/
abbrev Appends (log : σ → List κ) (allowed : κ → Prop) (x : Transaction σ ε α) : Prop :=
  ∀ s, Within (Grows log allowed) x s

namespace Appends

theorem pure (a : α) : Appends log allowed (Pure.pure a : Transaction σ ε α) :=
  fun _ => Within.pure Grows.refl a

theorem read : Appends log allowed (Transaction.read : Transaction σ ε σ) :=
  fun _ => Within.read Grows.refl

theorem check (c : σ → Except ε Unit) : Appends log allowed (Transaction.check c) :=
  fun _ => Within.check Grows.refl c

theorem require (c : Bool) (e : ε) :
    Appends log allowed (Transaction.require c e : Transaction σ ε Unit) :=
  fun _ => Within.require Grows.refl c e

theorem demand (e : ε) (o : Option α) :
    Appends log allowed (Transaction.demand e o : Transaction σ ε α) :=
  fun _ => Within.demand Grows.refl e o

theorem bind {x : Transaction σ ε α} {f : α → Transaction σ ε β} (hx : Appends log allowed x)
    (hf : ∀ a, Appends log allowed (f a)) : Appends log allowed (x >>= f) :=
  fun s => Within.bind Grows.trans (hx s) fun a s₁ _ => hf a s₁

/-- A statement whose result is not looked at. -/
theorem ignore {x : Transaction σ ε α} {f : Transaction σ ε β} (hx : Appends log allowed x)
    (hf : Appends log allowed f) : Appends log allowed (x >>= fun _ => f) :=
  hx.bind fun _ => hf

theorem ite {c : Prop} [Decidable c] {x y : Transaction σ ε α} (hx : Appends log allowed x)
    (hy : Appends log allowed y) : Appends log allowed (if c then x else y) :=
  fun s => Within.ite (fun _ => hx s) fun _ => hy s

theorem forEach {f : α → Transaction σ ε Unit} {items : List α}
    (h : ∀ a ∈ items, Appends log allowed (f a)) :
    Appends log allowed (Transaction.forEach f items) := by
  intro s
  refine Within.forEach Grows.refl Grows.trans (fun rest _ => ∀ a ∈ rest, Appends log allowed (f a))
    (fun a rest s hrest => ⟨hrest a List.mem_cons_self s, fun _ _ _ b hb => ?_⟩) h
  exact hrest b (List.mem_cons_of_mem _ hb)

section Statements

variable {T : Table σ ε ρ}

/-- A table whose rows are not the log. -/
theorem insert (hput : ∀ rows s, log (T.put rows s) = log s) (row : ρ) :
    Appends log allowed (T.insert row) := by
  intro s u s' h
  obtain ⟨-, rfl⟩ := Table.insert_eq_ok.mp h
  exact Grows.of_eq (hput _ s)

theorem update (hput : ∀ rows s, log (T.put rows s) = log s) (p : ρ → Bool) (f : ρ → ρ) :
    Appends log allowed (T.update p f) := by
  intro s n s' h
  obtain ⟨-, rfl, -⟩ := Table.update_eq_ok.mp h
  exact Grows.of_eq (hput _ s)

theorem rewrite {f : σ → σ} (h : ∀ s, Grows log allowed s (f s)) :
    Appends log allowed (Transaction.rewrite f : Transaction σ ε Unit) :=
  fun s => Within.rewrite (h s)

end Statements

end Appends

end Infra
