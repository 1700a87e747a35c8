import Mathlib.Algebra.Order.BigOperators.Group.List
import Mathlib.Algebra.Order.Ring.Int
import Kommunsign.Worker.RetentionExecution

/-!
# The merged outcomes of a gallring

* `Merges` — what a list of outcomes says as one row per target
* `checkOutcomes_of_merges` — and a report accepts it
-/

namespace Kommunsign

open Infra

/-- One row for each target, which says what the outcomes of the target say. -/
structure Merges (outcomes merged : List GallringTargetOutcome) : Prop where
  distinct : (merged.map (·.target)).Nodup
  targets : ∀ target, target ∈ merged.map (·.target) ↔ target ∈ outcomes.map (·.target)
  verified : (∀ outcome ∈ merged, outcome.verified = true) ↔
    ∀ outcome ∈ outcomes, outcome.verified = true
  counts : (∀ outcome ∈ outcomes, 0 ≤ outcome.deletedCount) →
    ∀ outcome ∈ merged, 0 ≤ outcome.deletedCount
  total : (merged.map (·.deletedCount)).sum = (outcomes.map (·.deletedCount)).sum

section Merge

variable {merged outcomes : List GallringTargetOutcome} {outcome : GallringTargetOutcome}

theorem targets_assign : (assign (·.target == outcome.target) (mergeOutcome · outcome) merged).map
    (·.target) = merged.map (·.target) := by
  exact map_assign fun _ _ _ => rfl

theorem sum_assign (hdistinct : (merged.map (·.target)).Nodup)
    (htarget : outcome.target ∈ merged.map (·.target)) :
    ((assign (·.target == outcome.target) (mergeOutcome · outcome) merged).map
      (·.deletedCount)).sum = (merged.map (·.deletedCount)).sum + outcome.deletedCount := by
  induction merged with
  | nil => exact absurd htarget List.not_mem_nil
  | cons first rest ih =>
    rw [List.map_cons, List.nodup_cons] at hdistinct
    rw [assign, List.map_cons, List.map_cons, List.sum_cons, List.map_cons, List.sum_cons]
    by_cases hfirst : first.target = outcome.target
    · have hrest : assign (·.target == outcome.target) (mergeOutcome · outcome) rest = rest := by
        refine assign_eq_self fun row hrow => beq_false_of_ne fun he => hdistinct.1 ?_
        rw [hfirst, ← he]
        exact List.mem_map_of_mem hrow
      rw [assign] at hrest
      rw [hrest, if_pos (beq_iff_eq.mpr hfirst)]
      show first.deletedCount + outcome.deletedCount + _ = _
      omega
    · have hrest : outcome.target ∈ rest.map (·.target) := by
        rcases List.mem_cons.mp htarget with he | hrest
        · exact absurd he.symm hfirst
        · exact hrest
      have hsum := ih hdistinct.2 hrest
      rw [assign] at hsum
      rw [hsum, if_neg (by simpa using hfirst), add_assoc]

theorem verified_assign (htarget : outcome.target ∈ merged.map (·.target)) :
    (∀ row ∈ assign (·.target == outcome.target) (mergeOutcome · outcome) merged,
      row.verified = true) ↔ (∀ row ∈ merged, row.verified = true) ∧ outcome.verified = true := by
  simp only [assign, List.forall_mem_map]
  constructor
  · intro h
    refine ⟨fun row hrow => ?_, ?_⟩
    · have hverified := h row hrow
      by_cases he : row.target == outcome.target
      · rw [if_pos he, mergeOutcome, Bool.and_eq_true] at hverified
        exact hverified.1
      · rw [if_neg he] at hverified
        exact hverified
    · obtain ⟨row, hrow, he⟩ := List.mem_map.mp htarget
      have hverified := h row hrow
      rw [if_pos (beq_iff_eq.mpr he), mergeOutcome, Bool.and_eq_true] at hverified
      exact hverified.2
  · rintro ⟨hmerged, houtcome⟩ row hrow
    by_cases he : row.target == outcome.target
    · rw [if_pos he, mergeOutcome, Bool.and_eq_true]
      exact ⟨hmerged row hrow, houtcome⟩
    · rw [if_neg he]
      exact hmerged row hrow

theorem any_target_eq_true : merged.any (·.target == outcome.target) = true ↔
    outcome.target ∈ merged.map (·.target) := by
  simp [List.mem_map]

theorem Merges.nil : Merges [] [] :=
  ⟨List.nodup_nil, fun _ => Iff.rfl, Iff.rfl, fun h => h, rfl⟩

theorem Merges.addOutcome (h : Merges outcomes merged) :
    Merges (outcomes ++ [outcome]) (addOutcome merged outcome) := by
  unfold Kommunsign.addOutcome
  by_cases htarget : outcome.target ∈ merged.map (·.target)
  · rw [if_pos (any_target_eq_true.mpr htarget)]
    refine ⟨?_, fun target => ?_, ?_, fun hcounts => ?_, ?_⟩
    · rw [targets_assign]
      exact h.distinct
    · rw [targets_assign, h.targets, List.map_append, List.mem_append]
      refine ⟨.inl, fun hmem => hmem.elim (fun h' => h') fun h' => ?_⟩
      rw [List.mem_singleton.mp h']
      exact (h.targets _).mp htarget
    · rw [verified_assign htarget, h.verified, List.forall_mem_append, List.forall_mem_singleton]
    · obtain ⟨hbefore, hnew⟩ := List.forall_mem_append.mp hcounts
      intro row hrow
      obtain ⟨old, hold, rfl⟩ := mem_assign.mp hrow
      have hcount := h.counts hbefore old hold
      by_cases he : old.target == outcome.target
      · rw [if_pos he]
        exact add_nonneg hcount (hnew outcome (List.mem_singleton_self _))
      · rw [if_neg he]
        exact hcount
    · rw [sum_assign h.distinct htarget, h.total, List.map_append, List.sum_append]
      simp
  · rw [if_neg (fun hany => htarget (any_target_eq_true.mp hany))]
    refine ⟨?_, fun target => ?_, ?_, fun hcounts => ?_, ?_⟩
    · rw [List.map_append, List.map_singleton]
      exact List.nodup_append.mpr ⟨h.distinct, List.nodup_singleton _, fun a ha b hb => by
        rintro rfl
        rw [List.mem_singleton.mp hb] at ha
        exact htarget ha⟩
    · simp only [List.map_append, List.mem_append, h.targets]
    · simp only [List.forall_mem_append, h.verified]
    · obtain ⟨hbefore, hnew⟩ := List.forall_mem_append.mp hcounts
      exact List.forall_mem_append.mpr ⟨h.counts hbefore, hnew⟩
    · simp only [List.map_append, List.sum_append, h.total]

theorem foldl_merges : ∀ {rest outcomes merged : List GallringTargetOutcome},
    Merges outcomes merged → Merges (outcomes ++ rest) (rest.foldl addOutcome merged)
  | [], outcomes, _, h => by
    rw [List.append_nil]
    exact h
  | outcome :: rest, outcomes, merged, h => by
    have hfirst : Merges (outcomes ++ [outcome]) (addOutcome merged outcome) := h.addOutcome
    have hrest : Merges (outcomes ++ [outcome] ++ rest) _ := foldl_merges hfirst
    rw [List.append_assoc, List.singleton_append] at hrest
    exact hrest

theorem Merges.perm {merged' : List GallringTargetOutcome} (h : Merges outcomes merged)
    (hperm : merged'.Perm merged) : Merges outcomes merged' := by
  refine ⟨(hperm.map _).nodup_iff.mpr h.distinct, fun target => ?_, ?_, fun hcounts row hrow => ?_,
    (hperm.map _).sum_eq.trans h.total⟩
  · rw [(hperm.map _).mem_iff, h.targets]
  · rw [← h.verified]
    exact forall_congr' fun row => by rw [hperm.mem_iff]
  · exact h.counts hcounts row (hperm.mem_iff.mp hrow)

theorem mergeOutcomes_merges (outcomes : List GallringTargetOutcome) :
    Merges outcomes (mergeOutcomes outcomes) :=
  (foldl_merges .nil).perm (List.perm_insertionSort _ _)

/-- A row that is verified stands for outcomes that are. -/
def Vouches (outcomes merged : List GallringTargetOutcome) : Prop :=
  ∀ row ∈ merged, row.verified = true → ∀ outcome ∈ outcomes, outcome.target = row.target →
    outcome.verified = true

theorem Vouches.addOutcome (hmerges : Merges outcomes merged) (h : Vouches outcomes merged) :
    Vouches (outcomes ++ [outcome]) (addOutcome merged outcome) := by
  intro row hrow hverified other hother hsame
  unfold Kommunsign.addOutcome at hrow
  by_cases htarget : outcome.target ∈ merged.map (·.target)
  · rw [if_pos (any_target_eq_true.mpr htarget)] at hrow
    obtain ⟨old, hold, rfl⟩ := mem_assign.mp hrow
    by_cases he : (old.target == outcome.target) = true
    · -- The row of the target has taken the outcome in.
      rw [if_pos he] at hverified hsame
      rw [mergeOutcome, Bool.and_eq_true] at hverified
      rcases List.mem_append.mp hother with hbefore | hlast
      · exact h old hold hverified.1 other hbefore hsame
      · rw [List.mem_singleton.mp hlast]
        exact hverified.2
    · rw [if_neg he] at hverified hsame
      rcases List.mem_append.mp hother with hbefore | hlast
      · exact h old hold hverified other hbefore hsame
      · rw [List.mem_singleton.mp hlast] at hsame
        exact absurd (beq_iff_eq.mpr hsame.symm) he
  · rw [if_neg (fun hany => htarget (any_target_eq_true.mp hany))] at hrow
    rcases List.mem_append.mp hrow with hold | hfresh
    · rcases List.mem_append.mp hother with hbefore | hlast
      · exact h row hold hverified other hbefore hsame
      · rw [List.mem_singleton.mp hlast] at hsame
        exact absurd (hsame ▸ List.mem_map_of_mem hold) htarget
    · obtain rfl := List.mem_singleton.mp hfresh
      rcases List.mem_append.mp hother with hbefore | hlast
      · -- No outcome before it had the target.
        have hmem := (hmerges.targets other.target).mpr (List.mem_map_of_mem hbefore)
        rw [hsame] at hmem
        exact absurd hmem htarget
      · rw [List.mem_singleton.mp hlast]
        exact hverified

theorem foldl_vouches : ∀ {rest outcomes merged : List GallringTargetOutcome},
    Merges outcomes merged → Vouches outcomes merged →
      Vouches (outcomes ++ rest) (rest.foldl addOutcome merged)
  | [], outcomes, _, _, h => by
    rw [List.append_nil]
    exact h
  | outcome :: rest, outcomes, merged, hmerges, h => by
    have hrest : Vouches (outcomes ++ [outcome] ++ rest) _ :=
      foldl_vouches hmerges.addOutcome (h.addOutcome hmerges)
    rw [List.append_assoc, List.singleton_append] at hrest
    exact hrest

theorem mergeOutcomes_vouches (outcomes : List GallringTargetOutcome) :
    Vouches outcomes (mergeOutcomes outcomes) := fun row hrow =>
  foldl_vouches .nil (fun _ h => absurd h List.not_mem_nil) row
    ((List.perm_insertionSort _ _).mem_iff.mp hrow)

end Merge

/-! ## The report accepts them -/

section Report

variable {outcomes : List GallringTargetOutcome}

theorem checkOutcomes_of_distinct : ∀ {outcomes : List GallringTargetOutcome}
    {seen : List GallringTarget}, (outcomes.map (·.target)).Nodup →
      (∀ outcome ∈ outcomes, outcome.target ∉ seen) →
      (∀ outcome ∈ outcomes, 0 ≤ outcome.deletedCount ∧ isSafeInteger outcome.deletedCount = true) →
      checkOutcomes seen outcomes = .ok ()
  | [], _, _, _, _ => rfl
  | outcome :: outcomes, seen, hdistinct, hseen, hcounts => by
    rw [List.map_cons, List.nodup_cons] at hdistinct
    obtain ⟨hfirst, hrest⟩ := List.forall_mem_cons.mp hcounts
    obtain ⟨hnew, hnews⟩ := List.forall_mem_cons.mp hseen
    rw [checkOutcomes, except_guard_eq_ok, except_guard_eq_ok]
    refine ⟨hnew, fun h => ?_, checkOutcomes_of_distinct hdistinct.2 (fun row hrow hmem => ?_) hrest⟩
    · rcases h with hneg | hunsafe
      · exact absurd hfirst.1 (not_le.mpr hneg)
      · exact hunsafe hfirst.2
    · rcases List.mem_cons.mp hmem with he | hmem
      · exact hdistinct.1 (he ▸ List.mem_map_of_mem hrow)
      · exact hnews row hrow hmem

theorem le_total (hcounts : ∀ outcome ∈ outcomes, 0 ≤ outcome.deletedCount) :
    ∀ outcome ∈ outcomes, outcome.deletedCount ≤ (outcomes.map (·.deletedCount)).sum := by
  intro outcome houtcome
  refine List.single_le_sum (fun count hcount => ?_) _ (List.mem_map_of_mem houtcome)
  obtain ⟨row, hrow, rfl⟩ := List.mem_map.mp hcount
  exact hcounts row hrow

theorem checkOutcomes_of_merges {merged : List GallringTargetOutcome}
    (h : Merges outcomes merged) (hcounts : ∀ outcome ∈ outcomes, 0 ≤ outcome.deletedCount)
    (htotal : (outcomes.map (·.deletedCount)).sum < 2 ^ 53) : checkOutcomes [] merged = .ok () := by
  refine checkOutcomes_of_distinct h.distinct (fun _ _ => List.not_mem_nil) fun outcome hmem => ?_
  have hcount := h.counts hcounts outcome hmem
  have hle := le_total (h.counts hcounts) outcome hmem
  rw [h.total] at hle
  refine ⟨hcount, decide_eq_true ?_⟩
  omega

end Report

end Kommunsign
