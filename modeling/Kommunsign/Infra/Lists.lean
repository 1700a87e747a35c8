import Mathlib.Data.List.Sort
import Mathlib.Tactic.Common

/-!
# Lists with places that may be empty

The clients of a system in the order they came; the place of one that is gone stays, and is empty.

* `slot_set` — what stands in a place after one of them was set
* `Alone` — at most one place is taken
-/

namespace Infra

section Slots

variable {α : Type} {slots : List (Option α)} {i j : Nat} {a : α}

theorem slot_set {value : Option α} (h : (slots.set i value)[j]?.join = some a) :
    (j = i ∧ value = some a) ∨ (j ≠ i ∧ slots[j]?.join = some a) := by
  rw [Option.join_eq_some_iff, List.getElem?_set] at h
  split at h
  · rename_i hij
    split at h
    · exact .inl ⟨hij.symm, Option.some.inj h⟩
    · exact nomatch h
  · rename_i hij
    exact .inr ⟨Ne.symm hij, Option.join_eq_some_iff.mpr h⟩

theorem slot_append {more : List (Option α)} (h : (slots ++ more)[j]?.join = some a) :
    slots[j]?.join = some a ∨ (slots.length ≤ j ∧ more[j - slots.length]?.join = some a) := by
  rw [Option.join_eq_some_iff, List.getElem?_append] at h
  split at h
  · exact .inl (Option.join_eq_some_iff.mpr h)
  · rename_i hlength
    exact .inr ⟨Nat.not_lt.mp hlength, Option.join_eq_some_iff.mpr h⟩

theorem mem_of_slot (h : slots[i]?.join = some a) : some a ∈ slots :=
  List.mem_of_getElem? (Option.join_eq_some_iff.mp h)

/-- At most one place is taken. -/
def Alone (slots : List (Option α)) : Prop :=
  ∀ (i j : Nat) (a b : α), slots[i]?.join = some a → slots[j]?.join = some b → i = j

theorem alone_nil : Alone ([] : List (Option α)) := fun i _ _ _ h => by simp at h

/-- The one that is there goes on as another one, or goes away. -/
theorem Alone.set (h : Alone slots) (hi : slots[i]?.join = some a) (value : Option α) :
    Alone (slots.set i value) ∧ ∀ (j : Nat) (b : α), (slots.set i value)[j]?.join = some b →
      value = some b := by
  have honly : ∀ (j : Nat) (b : α), (slots.set i value)[j]?.join = some b →
      j = i ∧ value = some b := by
    intro j b hj
    rcases slot_set hj with hset | ⟨hne, hj⟩
    · exact hset
    · exact absurd (h j i b a hj hi) hne
  exact ⟨fun j k b c hj hk => (honly j b hj).1.trans (honly k c hk).1.symm,
    fun j b hj => (honly j b hj).2⟩

/-- One comes where nobody is. -/
theorem alone_append (hempty : ∀ slot ∈ slots, slot = none) (a : α) :
    Alone (slots ++ [some a]) ∧ ∀ (j : Nat) (b : α), (slots ++ [some a])[j]?.join = some b →
      b = a := by
  have honly : ∀ (j : Nat) (b : α), (slots ++ [some a])[j]?.join = some b →
      j = slots.length ∧ b = a := by
    intro j b hj
    rcases slot_append hj with hj | ⟨hlength, hj⟩
    · exact nomatch hempty _ (mem_of_slot hj)
    · rw [Option.join_eq_some_iff, List.getElem?_singleton] at hj
      split at hj
      · cases hj
        exact ⟨by omega, rfl⟩
      · exact nomatch hj
  exact ⟨fun j k b c hj hk => (honly j b hj).1.trans (honly k c hk).1.symm,
    fun j b hj => (honly j b hj).2⟩

end Slots

/-!
# What a stable sort keeps of the order of its input

Items that compare equal stay in the order they came in, so sorting forgets the order of the input
exactly when items that compare equal are equal.
-/

variable {α : Type} {r : α → α → Prop} [DecidableRel r]

/-- An item goes before all that it is related to, so it comes first in its class. -/
theorem filter_orderedInsert {p : α → Bool} (hp : ∀ a b, p a = true → p b = true → r a b) (a : α)
    (l : List α) : (l.orderedInsert r a).filter p = (a :: l).filter p := by
  induction l with
  | nil => rfl
  | cons b l ih =>
    rw [List.orderedInsert_cons]
    split
    · rfl
    · rename_i hnot
      rw [List.filter_cons, ih]
      -- what stands before the item is outside its class
      by_cases ha : p a = true
      · have hb : ¬ p b = true := fun hb => hnot (hp a b ha hb)
        simp [ha, hb]
      · simp [ha, List.filter_cons]

theorem filter_insertionSort {p : α → Bool} (hp : ∀ a b, p a = true → p b = true → r a b)
    (l : List α) : (l.insertionSort r).filter p = l.filter p := by
  induction l with
  | nil => rfl
  | cons a l ih =>
    rw [List.insertionSort_cons, filter_orderedInsert hp, List.filter_cons, List.filter_cons, ih]

section Total

variable (htotal : ∀ a b, r a b ∨ r b a) (htrans : ∀ a b c, r a b → r b c → r a c)

include htotal htrans

theorem pairwise_insertionSort_of (l : List α) : (l.insertionSort r).Pairwise r := by
  have : Std.Total r := ⟨htotal⟩
  have : IsTrans α r := ⟨htrans⟩
  exact List.pairwise_insertionSort r l

theorem insertionSort_eq_of_perm {l l' : List α} (h : l'.Perm l)
    (hties : ∀ a ∈ l, ∀ b ∈ l, r a b → r b a → a = b) :
    l'.insertionSort r = l.insertionSort r := by
  have hsorted : (l'.insertionSort r).Perm (l.insertionSort r) :=
    (List.perm_insertionSort r l').trans (h.trans (List.perm_insertionSort r l).symm)
  refine hsorted.eq_of_pairwise (fun a b ha hb hab hba => ?_)
    (pairwise_insertionSort_of htotal htrans l') (pairwise_insertionSort_of htotal htrans l)
  have ha : a ∈ l := h.subset ((List.mem_insertionSort r).mp ha)
  have hb : b ∈ l := (List.mem_insertionSort r).mp hb
  exact hties a ha b hb hab hba

/-- Sorting forgets the order exactly when no two different items compare equal. -/
theorem insertionSort_eq_iff (l : List α) :
    (∀ l' : List α, l'.Perm l → l'.insertionSort r = l.insertionSort r) ↔
      ∀ a ∈ l, ∀ b ∈ l, r a b → r b a → a = b := by
  classical
  constructor
  · intro hall a ha b hb hab hba
    -- the class of the two, and the input with one or the other in front
    let p : α → Bool := fun x => decide (r a x ∧ r x a)
    have hp : ∀ x y, p x = true → p y = true → r x y := by
      intro x y hx hy
      exact htrans _ _ _ (of_decide_eq_true hx).2 (of_decide_eq_true hy).1
    have hfront : ∀ x ∈ l, p x = true → ∃ rest, (l.insertionSort r).filter p = x :: rest := by
      intro x hx hpx
      have hperm := (List.perm_cons_erase hx).symm
      refine ⟨(l.erase x).filter p, ?_⟩
      rw [← hall _ hperm, filter_insertionSort hp, List.filter_cons_of_pos hpx]
    have haa : r a a := (htotal a a).elim id id
    obtain ⟨resta, hfa⟩ := hfront a ha (decide_eq_true ⟨haa, haa⟩)
    obtain ⟨restb, hfb⟩ := hfront b hb (decide_eq_true ⟨hab, hba⟩)
    rw [hfa] at hfb
    exact (List.cons.inj hfb).1
  · intro hties l' h
    exact insertionSort_eq_of_perm htotal htrans h hties

end Total

end Infra
