import Mathlib.Order.WellFounded
import Mathlib.Order.Minimal
import Mathlib.Tactic.Common

/-!
# Taking turns by groups

Members of ordered groups have their turn one group after the other. A member is blocked as long
as a required member of an earlier group is not done. Members wait until they are called.

Whoever calls the first group whose turn it is, and no other, may leave members of later groups
waiting whose turn it is too: a group without a required member blocks nobody.

* `Turns.Blocked`, `Turns.Free` — whose turn it is not, and whose it is
* `Turns.Called`, `Turns.Waits` — nobody is called too early, or too late
-/

namespace Infra

variable {ι κ : Type}

structure Turns (ι κ : Type) where
  member : ι → Prop
  group : ι → κ
  required : ι → Prop
  done : ι → Prop
  /-- The members who have not been called. -/
  waiting : ι → Prop

namespace Turns

variable [LinearOrder κ] (T : Turns ι κ) {T' : Turns ι κ} {x y : ι}

def Blocked (x : ι) : Prop :=
  ∃ y, T.member y ∧ T.group y < T.group x ∧ T.required y ∧ ¬T.done y

/-- Nobody who has been called is blocked. -/
def Called : Prop := ∀ x, T.member x → ¬T.waiting x → ¬T.Blocked x

/-- Everybody who has not been called is blocked. -/
def Waits : Prop := ∀ x, T.member x → T.waiting x → T.Blocked x

/-- The members whose turn it is, but who have not been called. -/
def Free (x : ι) : Prop := T.member x ∧ T.waiting x ∧ ¬T.Blocked x

/-- The group of `x` has a required member, or it is the last one. -/
def Gates (x : ι) : Prop :=
  (∃ z, T.member z ∧ T.group z = T.group x ∧ T.required z) ∨ ∀ y, T.member y → T.group y ≤ T.group x

/-- Nobody has been called of the groups whose turn it is, or of later ones. -/
def Fresh : Prop :=
  ∀ x, T.Free x → ∀ y, T.member y → T.group x ≤ T.group y → T.waiting y

/-- The same members in the same groups, of whom at least as many are done. -/
structure Advances (T T' : Turns ι κ) : Prop where
  member : ∀ x, T'.member x ↔ T.member x
  group : ∀ x, T.member x → T'.group x = T.group x
  required : ∀ x, T.member x → (T'.required x ↔ T.required x)
  done : ∀ x, T.member x → T.done x → T'.done x

/-- Of the groups whose turn it is the first is called, and nothing else changes. -/
structure Calls (T T' : Turns ι κ) : Prop extends Advances T T' where
  stays : ∀ x, T.member x → T'.done x → T.done x
  waiting : ∀ x, T.member x →
    (T'.waiting x ↔ T.waiting x ∧ ¬(T.Free x ∧ ∀ w, T.Free w → T.group x ≤ T.group w))

variable {T}

/-- Whether a member is blocked depends on the group alone. -/
theorem Blocked.of_group (h : T.Blocked x) (hgroup : T.group x = T.group y) : T.Blocked y := by
  obtain ⟨z, hz, hlt, hrequired, hdone⟩ := h
  exact ⟨z, hz, hgroup ▸ hlt, hrequired, hdone⟩

theorem Blocked.of_le (h : T.Blocked x) (hgroup : T.group x ≤ T.group y) : T.Blocked y := by
  obtain ⟨z, hz, hlt, hrequired, hdone⟩ := h
  exact ⟨z, hz, lt_of_lt_of_le hlt hgroup, hrequired, hdone⟩

/-- Nobody is blocked who was not blocked before. -/
theorem Advances.blocked (h : T.Advances T') (hx : T.member x) (hblocked : T'.Blocked x) :
    T.Blocked x := by
  obtain ⟨y, hy, hlt, hrequired, hdone⟩ := hblocked
  have hmember := (h.member y).mp hy
  rw [h.group y hmember, h.group x hx] at hlt
  exact ⟨y, hmember, hlt, (h.required y hmember).mp hrequired, fun hd => hdone (h.done y hmember hd)⟩

/-- Calling only members who are not blocked. -/
theorem called_of_advances (h : T.Advances T') (hcalled : T.Called)
    (hnew : ∀ x, T.member x → T.waiting x → ¬T'.waiting x → ¬T'.Blocked x) : T'.Called := by
  intro x hx hwaiting
  have hx' := (h.member x).mp hx
  by_cases hbefore : T.waiting x
  · exact hnew x hx' hbefore hwaiting
  · exact fun hblocked => hcalled x hx' hbefore (h.blocked hx' hblocked)

/-- Where everybody waits who is not done, the groups after a free one have not been called. -/
theorem fresh_of_waits (h : T.Advances T') (hwaiting : ∀ x, T.member x → (T'.waiting x ↔ T.waiting x))
    (hcalled : T.Called) (hwaits : T.Waits) : T'.Fresh := by
  rintro x ⟨hx, hfree, -⟩ y hy hle
  have hx' := (h.member x).mp hx
  have hy' := (h.member y).mp hy
  rw [h.group x hx', h.group y hy'] at hle
  have hblocked : T.Blocked y := (hwaits x hx' ((hwaiting x hx').mp hfree)).of_le hle
  rw [hwaiting y hy']
  by_contra hnot
  exact hcalled y hy' hnot hblocked

theorem Calls.blocked_iff (h : T.Calls T') {x : ι} (hx : T.member x) :
    T'.Blocked x ↔ T.Blocked x := by
  constructor
  · exact h.toAdvances.blocked hx
  · rintro ⟨y, hy, hlt, hrequired, hdone⟩
    refine ⟨y, (h.member y).mpr hy, ?_, (h.required y hy).mpr hrequired,
      fun hd => hdone (h.stays y hy hd)⟩
    rw [h.group y hy, h.group x hx]
    exact hlt

/-- Who has been called is not blocked. -/
theorem Calls.not_blocked (h : T.Calls T') {x : ι} (hx : T.member x) (hbefore : T.waiting x)
    (hafter : ¬T'.waiting x) : ¬T'.Blocked x := by
  rw [h.blocked_iff hx]
  by_contra hblocked
  exact hafter ((h.waiting x hx).mpr ⟨hbefore, fun ⟨hfree, _⟩ => hfree.2.2 hblocked⟩)

/-- Nobody is left waiting whose turn it is exactly if the groups whose turn it is gate the others. -/
theorem Calls.waits_iff [WellFoundedLT κ] (h : T.Calls T') (hfresh : T.Fresh)
    (hdone : ∀ x, T.member x → T.waiting x → ¬T.done x) :
    T'.Waits ↔ ∀ x, T.Free x → T.Gates x := by
  constructor
  · intro hwaits x hfree
    by_contra hnot
    rw [Gates, not_or] at hnot
    obtain ⟨hnone, hlater⟩ := hnot
    push Not at hlater
    obtain ⟨y, hy, hlt⟩ := hlater
    -- the next group after that of `x` is blocked by nobody, and has not been called
    obtain ⟨y, ⟨hy, hlt⟩, hleast⟩ := exists_minimalFor_of_wellFoundedLT
      (fun y => T.member y ∧ T.group x < T.group y) T.group ⟨y, hy, hlt⟩
    have hwaiting : T'.waiting y := by
      refine (h.waiting y hy).mpr ⟨hfresh x hfree y hy hlt.le, ?_⟩
      rintro ⟨-, hfirst⟩
      exact absurd (hfirst x hfree) (not_le_of_gt hlt)
    obtain ⟨z, hz, hbefore, hrequired, hopen⟩ :=
      (h.blocked_iff hy).mp (hwaits y ((h.member y).mpr hy) hwaiting)
    rcases lt_trichotomy (T.group z) (T.group x) with hz' | hz' | hz'
    · exact hfree.2.2 ⟨z, hz, hz', hrequired, hopen⟩
    · exact hnone ⟨z, hz, hz', hrequired⟩
    · exact absurd (hleast ⟨hz, hz'⟩ hbefore.le) (not_le_of_gt hbefore)
  · intro hgates x hx hwaiting
    by_contra hblocked
    have hx' := (h.member x).mp hx
    rw [h.blocked_iff hx'] at hblocked
    obtain ⟨hbefore, hnot⟩ := (h.waiting x hx').mp hwaiting
    have hfree : T.Free x := ⟨hx', hbefore, hblocked⟩
    -- an earlier group was called, and its required member is still waiting to sign
    obtain ⟨w, hw, hlt⟩ : ∃ w, T.Free w ∧ T.group w < T.group x := by
      by_contra hfirst
      push Not at hfirst
      exact hnot ⟨hfree, hfirst⟩
    rcases hgates w hw with ⟨z, hz, hgroup, hrequired⟩ | hlast
    · have hzwaiting := hfresh w hw z hz hgroup.ge
      exact hblocked ⟨z, hz, hgroup ▸ hlt, hrequired, hdone z hz hzwaiting⟩
    · exact absurd (hlast x hx') (not_le_of_gt hlt)

end Turns

end Infra
