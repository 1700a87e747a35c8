import Mathlib.Data.List.Sort
import Mathlib.Tactic.Common

/-!
# What a computation reads of a buffer

A computation over a buffer returns a result, or fails, and leaves the ranges that it has read up to
there.

* `BufferReader` — such computations, with `field`, `subarray` and `rejectIf`
* `Keeps` — one that has the result of a computation on values, makes no more than so many reads,
  and reads nothing outside of the buffer; with a rule for each construct
* `Tiles` — spans that share no place and cover an interval, and nothing outside of it
* `Chained` — spans of which each begins where the one before ends
* `tiles_iff_chained` — spans that are not empty tile an interval exactly when they are chained, once
  they are in the order of where they begin
-/

namespace Infra

/-- The ranges are pairs of where one begins and how long it is. -/
def BufferReader (β ε α : Type) := List β → Except ε α × List (ℕ × ℕ)

namespace BufferReader

variable {β ε α γ : Type}

protected def pure (a : α) : BufferReader β ε α := fun _ => (.ok a, [])

protected def bind (m : BufferReader β ε α) (f : α → BufferReader β ε γ) : BufferReader β ε γ :=
  fun buffer =>
    match m buffer with
    | (.ok a, ranges) => ((f a buffer).1, ranges ++ (f a buffer).2)
    | (.error e, ranges) => (.error e, ranges)

instance : Monad (BufferReader β ε) where
  pure := BufferReader.pure
  bind := BufferReader.bind

def fail (e : ε) : BufferReader β ε α := fun _ => (.error e, [])

/-- A check that fails under the condition. -/
def rejectIf (c : Prop) [Decidable c] (e : ε) : BufferReader β ε Unit :=
  if c then fail e else BufferReader.pure ()

def byteLength : BufferReader β ε ℕ := fun buffer => (.ok buffer.length, [])

/-- A number of a fixed width, as a `DataView` reads it. -/
def field (decode : List β → γ) (start width : ℕ) : BufferReader β ε γ :=
  fun buffer => (.ok (decode ((buffer.drop start).take width)), [(start, width)])

/-- `subarray(start, start + length)`, which is cut off at the end of the buffer. -/
def subarray (start length : ℕ) : BufferReader β ε (List β) := fun buffer =>
  let first := min start buffer.length
  (.ok ((buffer.drop start).take length), [(first, min (start + length) buffer.length - first)])

/-- What is left of a computation on values that may fail. -/
def ofExcept (x : Except ε α) : BufferReader β ε α := fun _ => (x, [])

/-! ## What is kept to -/

/-- The result is `x`, of at most `count` reads, and none of them leaves the buffer. -/
structure Keeps (buffer : List β) (m : BufferReader β ε α) (count : ℕ) (x : Except ε α) : Prop where
  result : (m buffer).1 = x
  count : (m buffer).2.length ≤ count
  inside : ∀ r ∈ (m buffer).2, r.1 + r.2 ≤ buffer.length

variable {buffer : List β} {m : BufferReader β ε α} {count k : ℕ} {x : Except ε α}

theorem keeps_pure (a : α) : Keeps buffer (pure a : BufferReader β ε α) 0 (.ok a) :=
  ⟨rfl, Nat.le_refl 0, fun _ h => absurd h List.not_mem_nil⟩

theorem keeps_fail (e : ε) : Keeps buffer (fail e : BufferReader β ε α) 0 (.error e) :=
  ⟨rfl, Nat.le_refl 0, fun _ h => absurd h List.not_mem_nil⟩

theorem Keeps.mono (h : Keeps buffer m count x) (hle : count ≤ k) : Keeps buffer m k x :=
  ⟨h.result, Nat.le_trans h.count hle, h.inside⟩

theorem Keeps.bind {f : α → BufferReader β ε γ} {g : α → Except ε γ} (h : Keeps buffer m count x)
    (hf : ∀ a, x = .ok a → Keeps buffer (f a) k (g a)) :
    Keeps buffer (m >>= f) (count + k) (x >>= g) := by
  obtain ⟨rfl, hcount, hinside⟩ := h
  cases hm : m buffer with
  | mk result ranges =>
    have hbind : (m >>= f) buffer = BufferReader.bind m f buffer := rfl
    cases result with
    | error e =>
      have hrun : (m >>= f) buffer = (.error e, ranges) := by rw [hbind, BufferReader.bind, hm]
      rw [hm] at hcount hinside
      exact ⟨by rw [hrun]; rfl, by rw [hrun]; exact Nat.le_trans hcount (Nat.le_add_right _ _),
        by rw [hrun]; exact hinside⟩
    | ok a =>
      have hrun : (m >>= f) buffer = ((f a buffer).1, ranges ++ (f a buffer).2) := by
        rw [hbind, BufferReader.bind, hm]
      rw [hm] at hcount hinside
      obtain ⟨hresult, hcount', hinside'⟩ := hf a (by rw [hm])
      refine ⟨by rw [hrun]; exact hresult, ?_, ?_⟩
      · rw [hrun, List.length_append]
        exact Nat.add_le_add hcount hcount'
      · rw [hrun]
        exact List.forall_mem_append.mpr ⟨hinside, hinside'⟩

theorem Keeps.bind_le {n : ℕ} {f : α → BufferReader β ε γ} {g : α → Except ε γ}
    (h : Keeps buffer m count x) (hf : ∀ a, x = .ok a → Keeps buffer (f a) k (g a))
    (hle : count + k ≤ n) : Keeps buffer (m >>= f) n (x >>= g) := (h.bind hf).mono hle

/-- What is computed from values alone reads nothing. -/
theorem keeps_ofExcept {x : Except ε γ} {f : γ → BufferReader β ε α} {g : γ → Except ε α}
    (h : ∀ a, x = .ok a → Keeps buffer (f a) count (g a)) :
    Keeps buffer (ofExcept x >>= f) count (x >>= g) := by
  have hx : Keeps buffer (ofExcept x : BufferReader β ε γ) 0 x :=
    ⟨rfl, Nat.le_refl 0, fun _ h => absurd h List.not_mem_nil⟩
  exact (hx.bind h).mono (Nat.le_of_eq (Nat.zero_add count))

/-- A check, and the rest where it does not fail. -/
theorem keeps_rejectIf {c : Prop} [Decidable c] {e : ε} {f : Unit → BufferReader β ε α}
    {g : PUnit → Except ε α} (h : ¬c → Keeps buffer (f ()) count (g ⟨⟩)) :
    Keeps buffer (rejectIf c e >>= f) count
      (if c then (throw e >>= g : Except ε α) else g ⟨⟩) := by
  by_cases hc : c
  · have hreject : (rejectIf c e : BufferReader β ε Unit) = fail e := if_pos hc
    rw [if_pos hc, hreject]
    exact ⟨rfl, Nat.zero_le _, fun _ h => absurd h List.not_mem_nil⟩
  · have hpass : (rejectIf c e : BufferReader β ε Unit) = BufferReader.pure () := if_neg hc
    rw [if_neg hc, hpass]
    exact h hc

theorem keeps_byteLength {f : ℕ → BufferReader β ε α} (h : Keeps buffer (f buffer.length) count x) :
    Keeps buffer (byteLength >>= f) count x :=
  ⟨h.result, h.count, h.inside⟩

/-- A read that adds a range. -/
theorem keeps_cons {read : BufferReader β ε γ} {value : γ} {range : ℕ × ℕ}
    (hread : read buffer = (.ok value, [range])) (hrange : range.1 + range.2 ≤ buffer.length)
    {f : γ → BufferReader β ε α} (h : Keeps buffer (f value) count x) :
    Keeps buffer (read >>= f) (count + 1) x := by
  have hrun : (read >>= f) buffer = ((f value buffer).1, range :: (f value buffer).2) := by
    show BufferReader.bind read f buffer = _
    rw [BufferReader.bind, hread]
    rfl
  refine ⟨by rw [hrun]; exact h.result, ?_, ?_⟩
  · rw [hrun]
    exact Nat.succ_le_succ h.count
  · rw [hrun]
    exact List.forall_mem_cons.mpr ⟨hrange, h.inside⟩

theorem keeps_field {decode : List β → γ} {start width : ℕ}
    (hinside : start + width ≤ buffer.length) {f : γ → BufferReader β ε α}
    (h : Keeps buffer (f (decode ((buffer.drop start).take width))) count x) :
    Keeps buffer (field decode start width >>= f) (count + 1) x := by
  have hread : (field decode start width : BufferReader β ε γ) buffer =
      (.ok (decode ((buffer.drop start).take width)), [(start, width)]) := rfl
  exact keeps_cons hread hinside h

/-- Whatever is asked for, it is cut off at the end. -/
theorem keeps_subarray {start length : ℕ} {f : List β → BufferReader β ε α}
    (h : Keeps buffer (f ((buffer.drop start).take length)) count x) :
    Keeps buffer (subarray start length >>= f) (count + 1) x := by
  have hread : (subarray start length : BufferReader β ε (List β)) buffer =
      (.ok ((buffer.drop start).take length), [(min start buffer.length,
        min (start + length) buffer.length - min start buffer.length)]) := rfl
  exact keeps_cons hread (by dsimp only; omega) h

end BufferReader

/-!
# Spans that tile an interval
-/

/-- The places from `start` on, before `stop`. -/
structure Span where
  start : ℕ
  stop : ℕ
  deriving DecidableEq

namespace Span

def Contains (s : Span) (p : ℕ) : Prop := s.start ≤ p ∧ p < s.stop

def Apart (s t : Span) : Prop := ∀ p, ¬(s.Contains p ∧ t.Contains p)

theorem Apart.symm {s t : Span} (h : s.Apart t) : t.Apart s := fun p hp => h p hp.symm

def startLe (s t : Span) : Prop := s.start ≤ t.start

instance (s t : Span) : Decidable (startLe s t) := inferInstanceAs (Decidable (_ ≤ _))

instance : Std.Total startLe := ⟨fun s t => Nat.le_total s.start t.start⟩

instance : IsTrans Span startLe := ⟨fun _ _ _ hst htu => Nat.le_trans hst htu⟩

end Span

/-- No place is in two of the spans, and the places in one are those of the interval. -/
structure Tiles (first last : ℕ) (spans : List Span) : Prop where
  apart : spans.Pairwise Span.Apart
  covers : ∀ p, (first ≤ p ∧ p < last) ↔ ∃ s ∈ spans, s.Contains p

/-- Each begins where the one before ends. -/
def Chained : ℕ → List Span → ℕ → Prop
  | first, [], last => first = last
  | first, s :: spans, last => s.start = first ∧ Chained s.stop spans last

instance decidableChained : ∀ (first : ℕ) (spans : List Span) (last : ℕ),
    Decidable (Chained first spans last)
  | first, [], last => inferInstanceAs (Decidable (first = last))
  | first, s :: spans, last =>
    have := decidableChained s.stop spans last
    inferInstanceAs (Decidable (s.start = first ∧ Chained s.stop spans last))

theorem Tiles.perm {first last : ℕ} {spans spans' : List Span} (hperm : spans.Perm spans')
    (h : Tiles first last spans) : Tiles first last spans' := by
  refine ⟨(hperm.pairwise_iff fun hst => hst.symm).mp h.apart, fun p => ?_⟩
  rw [h.covers]
  exact exists_congr fun s => and_congr_left fun _ => hperm.mem_iff

theorem le_of_chained {first last : ℕ} {spans : List Span}
    (hspans : ∀ s ∈ spans, s.start < s.stop) (h : Chained first spans last) : first ≤ last := by
  induction spans generalizing first with
  | nil => exact h.le
  | cons s spans ih =>
    obtain ⟨rfl, hrest⟩ := h
    rw [List.forall_mem_cons] at hspans
    have hlast := ih hspans.2 hrest
    have hfirst := hspans.1
    omega

theorem tiles_of_chained {first last : ℕ} {spans : List Span}
    (hspans : ∀ s ∈ spans, s.start < s.stop) (h : Chained first spans last) :
    Tiles first last spans := by
  induction spans generalizing first with
  | nil =>
    obtain rfl : first = last := h
    refine ⟨.nil, fun p => ⟨fun hp => absurd hp (by omega), ?_⟩⟩
    rintro ⟨s, hs, _⟩
    exact absurd hs List.not_mem_nil
  | cons s spans ih =>
    obtain ⟨rfl, hrest⟩ := h
    rw [List.forall_mem_cons] at hspans
    have hle := le_of_chained hspans.2 hrest
    have htiles := ih hspans.2 hrest
    refine ⟨List.pairwise_cons.mpr ⟨fun t ht p hp => ?_, htiles.apart⟩, fun p => ?_⟩
    · -- what a later span has in it is past the first one
      have hlater := (htiles.covers p).mpr ⟨t, ht, hp.2⟩
      have hfirst := hp.1.2
      omega
    · rw [List.exists_mem_cons_iff, ← htiles.covers, Span.Contains]
      have hpos := hspans.1
      omega

theorem chained_of_tiles {first last : ℕ} {spans : List Span} (hle : first ≤ last)
    (hspans : ∀ s ∈ spans, s.start < s.stop) (hsorted : spans.Pairwise Span.startLe)
    (h : Tiles first last spans) : Chained first spans last := by
  induction spans generalizing first with
  | nil =>
    show first = last
    by_contra hne
    obtain ⟨s, hs, _⟩ := (h.covers first).mp ⟨le_rfl, by omega⟩
    exact absurd hs List.not_mem_nil
  | cons s spans ih =>
    rw [List.forall_mem_cons] at hspans
    have hs := hspans.1
    have hbegin := (h.covers s.start).mpr ⟨s, List.mem_cons_self, le_rfl, hs⟩
    have hend := (h.covers (s.stop - 1)).mpr ⟨s, List.mem_cons_self, by omega, by omega⟩
    -- the first place is in a span, and none begins before this one
    obtain ⟨t, ht, hcontains⟩ := (h.covers first).mp ⟨le_rfl, by omega⟩
    have hfirst : s.start ≤ t.start := by
      rcases List.mem_cons.mp ht with rfl | ht
      · exact le_rfl
      · exact (List.pairwise_cons.mp hsorted).1 t ht
    have hstart : s.start = first := Nat.le_antisymm (hfirst.trans hcontains.1) hbegin.1
    have hapart := (List.pairwise_cons.mp h.apart).1
    refine ⟨hstart, ih (by omega) hspans.2 (List.pairwise_cons.mp hsorted).2
      ⟨(List.pairwise_cons.mp h.apart).2, fun p => ⟨fun hp => ?_, ?_⟩⟩⟩
    · obtain ⟨u, hu, hcontains'⟩ := (h.covers p).mp ⟨by omega, hp.2⟩
      rcases List.mem_cons.mp hu with rfl | hu
      · exact absurd hcontains'.2 (by omega)
      · exact ⟨u, hu, hcontains'⟩
    · rintro ⟨u, hu, hcontains'⟩
      have hp := (h.covers p).mpr ⟨u, List.mem_cons_of_mem _ hu, hcontains'⟩
      refine ⟨?_, hp.2⟩
      by_contra hbefore
      exact hapart u hu p ⟨⟨by omega, by omega⟩, hcontains'⟩

/-- Spans tile an interval exactly when they follow one another through it. -/
theorem tiles_iff_chained {first last : ℕ} {spans : List Span} (hle : first ≤ last)
    (hspans : ∀ s ∈ spans, s.start < s.stop) :
    Tiles first last spans ↔ Chained first (spans.insertionSort Span.startLe) last := by
  have hperm := List.perm_insertionSort Span.startLe spans
  have hsorted := List.pairwise_insertionSort Span.startLe spans
  have hspans' : ∀ s ∈ spans.insertionSort Span.startLe, s.start < s.stop :=
    fun s hs => hspans s (hperm.mem_iff.mp hs)
  constructor
  · exact fun h => chained_of_tiles hle hspans' hsorted (h.perm hperm.symm)
  · exact fun h => (tiles_of_chained hspans' h).perm hperm

end Infra
