import Mathlib.Tactic.Common

/-!
# Conditions over values that may be missing

A comparison with a missing value is neither true nor false. A branch is taken only when its
condition is true, so a condition and its negation can both leave it untaken.

* `Truth` — true, false, or unknown
* `taken_isIn`, `taken_not_isIn` — what a list test and its negation say when they are true
-/

namespace Infra

/-- The value of a condition; `none` is unknown. -/
abbrev Truth := Option Bool

namespace Truth

def not : Truth → Truth := Option.map (!·)

/-- A false side decides a conjunction, also beside an unknown one. -/
def and : Truth → Truth → Truth
  | some false, _ => some false
  | _, some false => some false
  | some true, some true => some true
  | _, _ => none

def or : Truth → Truth → Truth
  | some true, _ => some true
  | _, some true => some true
  | some false, some false => some false
  | _, _ => none

/-- Whether a branch with this condition is taken. -/
def taken (t : Truth) : Bool := t == some true

theorem taken_and {a b : Truth} : (a.and b).taken = (a.taken && b.taken) := by
  rcases a with _ | _ | _ <;> rcases b with _ | _ | _ <;> rfl

theorem taken_not {a : Truth} : a.not.taken = (a == some false) := by
  rcases a with _ | _ | _ <;> rfl

end Truth

section Comparison

variable {α : Type} [DecidableEq α] {value : Option α} {choices : List α}

/-- `a = b`. -/
def isEqual : Option α → Option α → Truth
  | some a, some b => some (decide (a = b))
  | _, _ => none

@[simp] theorem isEqual_some {a b : α} : isEqual (some a) (some b) = some (decide (a = b)) := rfl

@[simp] theorem isEqual_none {b : Option α} : isEqual none b = none := by
  cases b <;> rfl

/-- `value IN (choices)`: a disjunction of comparisons. -/
def isIn (value : Option α) : List α → Truth
  | [] => some false
  | choice :: choices => (isEqual value (some choice)).or (isIn value choices)

/-- Of a value that is there, a list test says whether it is in the list. -/
theorem isIn_some {a : α} : isIn (some a) choices = some (decide (a ∈ choices)) := by
  induction choices with
  | nil => rfl
  | cons choice choices ih =>
    rw [isIn, ih, isEqual_some]
    by_cases heq : a = choice
    · subst heq
      simp [Truth.or]
    · rw [decide_eq_false heq, decide_eq_decide.mpr (List.mem_cons.trans (or_iff_right heq))]
      cases decide (a ∈ choices) <;> rfl

/-- Of a missing value nothing is known, unless the list is empty. -/
theorem isIn_none (h : choices ≠ []) : isIn (none : Option α) choices = none := by
  induction choices with
  | nil => exact absurd rfl h
  | cons choice choices ih =>
    rw [isIn, isEqual_none]
    cases choices with
    | nil => rfl
    | cons next rest =>
      rw [ih (List.cons_ne_nil next rest)]
      rfl

theorem taken_isIn : (isIn value choices).taken = true ↔ ∃ a ∈ choices, value = some a := by
  cases value with
  | none =>
    by_cases h : choices = []
    · subst h
      simp [isIn, Truth.taken]
    · simp [isIn_none h, Truth.taken]
  | some a => simp [isIn_some, Truth.taken]

theorem taken_not_isIn (h : choices ≠ []) :
    (isIn value choices).not.taken = true ↔ ∃ a, value = some a ∧ a ∉ choices := by
  rw [Truth.taken_not]
  cases value with
  | none => simp [isIn_none h]
  | some a => simp [isIn_some]

/-- A refusal of everything outside a list lets through the list and the missing value. -/
theorem not_taken_not_isIn (h : choices ≠ []) :
    (isIn value choices).not.taken = false ↔ value = none ∨ ∃ a ∈ choices, value = some a := by
  rw [← Bool.not_eq_true, taken_not_isIn h]
  cases value with
  | none => simp
  | some a => simp

/-- `a <> b` for one value is the negated test of a list that holds only it. -/
theorem isEqual_eq_isIn {b : α} : isEqual value (some b) = isIn value [b] := by
  cases value with
  | none => rfl
  | some a => rw [isIn_some, isEqual_some, decide_eq_decide.mpr List.mem_singleton]

end Comparison

end Infra
