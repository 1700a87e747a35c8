import Mathlib.Algebra.Ring.Int.Defs
import Mathlib.Algebra.Ring.Nat
import Mathlib.Data.Bool.AllAny
import Mathlib.Data.Char
import Mathlib.Data.List.Lex
import Mathlib.Tactic.Common

/-!
# Values that several parts share

* `IsoDateTime.plusDays` — a date some days later
* `isUuid` — the texts that the source takes for an id
-/

namespace Kommunsign

abbrev UUID := String
abbrev StoredKey := String

/-- A timestamp as `Date.parse` reads it: the milliseconds, or nothing where it reads `NaN`. -/
structure IsoDateTime where
  millis : Option Int
  deriving DecidableEq

structure LegalHold where
  signatureCaseId : UUID
  releasedAt : Option Int
  deriving DecidableEq

/-- `Number.isSafeInteger`, of an integer. -/
def isSafeInteger (n : Int) : Bool := n.natAbs < 2 ^ 53

/-- The white space and the line terminators that `trim` removes. -/
def isTrimmed (c : Char) : Bool :=
  c ∈ ['\t', '\n', '\x0b', '\x0c', '\r', ' ', '\u00a0', '\u1680', '\u2028', '\u2029', '\u202f',
    '\u205f', '\u3000', '\ufeff'] || (0x2000 ≤ c.toNat && c.toNat ≤ 0x200a)

/-- `trim` leaves nothing. -/
def isBlank (text : String) : Bool := text.toList.all isTrimmed

section Dates

variable {ε : Type}

/-- A date is at most `8.64e15` milliseconds from the epoch; `toISOString` throws beyond. -/
def IsoDateTime.plusDays (instant : IsoDateTime) (days : Int) (invalid range : ε) :
    Except ε IsoDateTime :=
  match instant.millis with
  | none => throw invalid
  | some base =>
    if (base + days * 86400000).natAbs ≤ 8640000000000000 then
      return ⟨some (base + days * 86400000)⟩
    else
      throw range

theorem plusDays_eq_ok {instant result : IsoDateTime} {days : Int} {invalid range : ε}
    (h : instant.plusDays days invalid range = .ok result) :
    ∃ base, instant = ⟨some base⟩ ∧ result = ⟨some (base + days * 86400000)⟩ := by
  obtain ⟨millis⟩ := instant
  cases millis with
  | none => exact nomatch h
  | some base =>
    unfold IsoDateTime.plusDays at h
    by_cases hrange : (base + days * 86400000).natAbs ≤ 8640000000000000
    · simp only [if_pos hrange] at h
      exact ⟨base, rfl, (Except.ok.inj h).symm⟩
    · simp only [if_neg hrange] at h
      exact nomatch h

end Dates

/-!
# The ids of rows
-/

def isHex (c : Char) : Bool := c.isDigit || ('a' ≤ c && c ≤ 'f') || ('A' ≤ c && c ≤ 'F')

/-- The pattern of `isUuid`, character by character. -/
def uuidPattern : List (Char → Bool) :=
  List.replicate 8 isHex ++ [(· == '-')] ++ List.replicate 4 isHex ++ [(· == '-')] ++
    [fun c => decide ('1' ≤ c) && decide (c ≤ '8')] ++ List.replicate 3 isHex ++ [(· == '-')] ++
    [fun c => ['8', '9', 'a', 'b', 'A', 'B'].contains c] ++ List.replicate 3 isHex ++ [(· == '-')] ++
    List.replicate 12 isHex

def isUuid (value : UUID) : Bool :=
  value.toList.length == uuidPattern.length &&
    (List.zipWith (fun matches? c => matches? c) uuidPattern value.toList).all id

theorem exists_pattern_of_mem {patterns : List (Char → Bool)} {s : List Char}
    (hlength : s.length = patterns.length)
    (hall : (List.zipWith (fun matches? c => matches? c) patterns s).all id = true) :
    ∀ c ∈ s, ∃ p ∈ patterns, p c = true := by
  induction s generalizing patterns with
  | nil => simp
  | cons c s ih =>
    cases patterns with
    | nil => cases hlength
    | cons p patterns =>
      rw [List.zipWith_cons_cons, List.all_cons, Bool.and_eq_true] at hall
      intro d hd
      rcases List.mem_cons.mp hd with rfl | hd
      · exact ⟨p, List.mem_cons_self, hall.1⟩
      · obtain ⟨q, hq, hqd⟩ := ih (Nat.succ.inj hlength) hall.2 d hd
        exact ⟨q, List.mem_cons_of_mem _ hq, hqd⟩

theorem isHex_or_hyphen_of_isUuid {value : UUID} (h : isUuid value = true) :
    ∀ c ∈ value.toList, isHex c = true ∨ c = '-' := by
  rw [isUuid, Bool.and_eq_true, beq_iff_eq] at h
  intro c hc
  obtain ⟨p, hp, hpc⟩ := exists_pattern_of_mem h.1 h.2 c hc
  simp only [uuidPattern, List.mem_append, List.mem_replicate, List.mem_singleton] at hp
  rcases hp with (((((((((⟨-, rfl⟩ | rfl) | ⟨-, rfl⟩) | rfl) | rfl) | ⟨-, rfl⟩) | rfl) | rfl) |
    ⟨-, rfl⟩) | rfl) | ⟨-, rfl⟩
  -- the version is a digit, the variant a digit or a letter
  case inl.inl.inl.inl.inl.inl.inr =>
    left
    simp only [Bool.and_eq_true, decide_eq_true_eq] at hpc
    have hdigit : c.isDigit = true := by
      rw [Char.isDigit, Bool.and_eq_true, decide_eq_true_eq, decide_eq_true_eq]
      exact ⟨le_trans (by decide) hpc.1, le_trans hpc.2 (by decide)⟩
    simp [isHex, hdigit]
  case inl.inl.inl.inr =>
    left
    have hvariant : ∀ d ∈ ['8', '9', 'a', 'b', 'A', 'B'], isHex d = true :=
      List.all_iff_forall_prop.mp (by decide)
    exact hvariant c (List.contains_iff_mem.mp hpc)
  all_goals first
    | exact .inl hpc
    | exact .inr (beq_iff_eq.mp hpc)

/-- The id of a row: `gen_random_uuid` makes them all. -/
structure RowId where
  value : UUID
  valid : isUuid value = true
  deriving DecidableEq

theorem RowId.toList_injective : Function.Injective fun id : RowId => id.value.toList := by
  intro a b h
  obtain ⟨a, ha⟩ := a
  obtain ⟨b, hb⟩ := b
  simpa using String.toList_injective h

/-- Sixteen bytes compare as their lower-case digits do. -/
instance : LinearOrder RowId := LinearOrder.lift' _ RowId.toList_injective

end Kommunsign
