import Mathlib.Data.Int.Log
import Mathlib.Data.Rat.Floor
import Mathlib.Algebra.Order.Field.Power
import Mathlib.Tactic.Linarith
import Mathlib.Tactic.Positivity
import Mathlib.Tactic.FieldSimp
import Mathlib.Tactic.Ring

/-!
# Numbers of 64 bits

The finite values of the format are the rationals `m * 2 ^ e` with a significand of 53 bits and an
exponent between `-1074` and `971`. They are kept as rationals; the zero with a sign, the infinities
and what is not a number stand beside them.

* `IsBinary64`, `isBinary64_iff` — the values of the format
* `roundToEven`, `nearest` — the nearest integer, and the nearest value; ties go to the even one
-/

namespace Infra

/-! ## The values -/

/-- The exponent of the last place of `q`. -/
def placeExponent (q : ℚ) : ℤ := max (Int.log 2 |q| - 52) (-1074)

/-- `q` is a multiple of its last place, and in range. -/
def IsBinary64 (q : ℚ) : Prop := |q| < 2 ^ 1024 ∧ (q / 2 ^ placeExponent q).den = 1

instance : DecidablePred IsBinary64 := fun _ => inferInstanceAs (Decidable (_ ∧ _))

theorem two_zpow_pos (e : ℤ) : (0 : ℚ) < 2 ^ e := zpow_pos (by norm_num) e

theorem den_eq_one_iff {q : ℚ} : q.den = 1 ↔ ∃ m : ℤ, q = m := by
  constructor
  · intro h
    exact ⟨q.num, (Rat.coe_int_num_of_den_eq_one h).symm⟩
  · rintro ⟨m, rfl⟩
    rfl

/-- A rational is less than `2 ^ 53` of its last places. -/
theorem abs_lt_of_placeExponent (q : ℚ) : |q| < 2 ^ 53 * 2 ^ placeExponent q := by
  have hlog : |q| < (2 : ℚ) ^ (Int.log 2 |q| + 1) := by
    exact_mod_cast Int.lt_zpow_succ_log_self (b := 2) (by decide) |q|
  have hle : Int.log 2 |q| + 1 ≤ 53 + placeExponent q := by
    unfold placeExponent
    omega
  calc |q| < (2 : ℚ) ^ (Int.log 2 |q| + 1) := hlog
    _ ≤ 2 ^ (53 + placeExponent q) := zpow_le_zpow_right₀ (by norm_num) hle
    _ = 2 ^ 53 * 2 ^ placeExponent q := by
      rw [zpow_add₀ (by norm_num)]
      norm_num

/-- The last place of `m * 2 ^ e` is at most `2 ^ e`. -/
theorem placeExponent_le {m e : ℤ} (hm : |m| < 2 ^ 53) (he : -1074 ≤ e) :
    placeExponent (m * 2 ^ e) ≤ e ∨ (m : ℚ) * 2 ^ e = 0 := by
  by_cases hzero : (m : ℚ) * 2 ^ e = 0
  · exact Or.inr hzero
  refine Or.inl (max_le ?_ he)
  have hlt : |(m : ℚ) * 2 ^ e| < (2 : ℚ) ^ (53 + e) := by
    rw [abs_mul, abs_of_pos (two_zpow_pos e), zpow_add₀ (by norm_num)]
    refine mul_lt_mul_of_pos_right ?_ (two_zpow_pos e)
    have hm' : (|m| : ℚ) < 2 ^ 53 := by exact_mod_cast hm
    exact_mod_cast hm'
  have hlog : Int.log 2 |(m : ℚ) * 2 ^ e| < 53 + e := by
    have hpos : 0 < |(m : ℚ) * 2 ^ e| := abs_pos.mpr hzero
    exact (Int.lt_zpow_iff_log_lt (by decide) hpos).mp (by exact_mod_cast hlt)
  omega

/-- A multiple of a power that is not below the least place is one of the last place. -/
theorem isBinary64_of_lt {m e : ℤ} (hm : |m| < 2 ^ 53) (he : -1074 ≤ e)
    (hrange : |(m : ℚ) * 2 ^ e| < 2 ^ 1024) : IsBinary64 (m * 2 ^ e) := by
  refine ⟨hrange, den_eq_one_iff.mpr ?_⟩
  rcases placeExponent_le hm he with hle | hzero
  · generalize hp : placeExponent (m * 2 ^ e) = p at hle ⊢
    refine ⟨m * 2 ^ (e - p).toNat, ?_⟩
    have hsplit : (2 : ℚ) ^ e = 2 ^ (e - p).toNat * 2 ^ p := by
      rw [← zpow_natCast, ← zpow_add₀ (by norm_num), Int.toNat_of_nonneg (by omega)]
      congr 1
      omega
    rw [hsplit]
    push_cast
    field_simp
  · rw [hzero]
    exact ⟨0, by simp⟩

theorem placeExponent_le_top {q : ℚ} (h : |q| < 2 ^ 1024) : placeExponent q ≤ 971 := by
  refine max_le ?_ (by norm_num)
  by_cases hzero : q = 0
  · subst hzero
    decide +kernel
  have hlog : Int.log 2 |q| < 1024 := by
    refine (Int.lt_zpow_iff_log_lt (by decide) (abs_pos.mpr hzero)).mp ?_
    exact_mod_cast h
  omega

/-- The values of the format. -/
theorem isBinary64_iff {q : ℚ} : IsBinary64 q ↔
    ∃ m e : ℤ, q = m * 2 ^ e ∧ |m| < 2 ^ 53 ∧ -1074 ≤ e ∧ e ≤ 971 := by
  constructor
  · rintro ⟨hrange, hden⟩
    obtain ⟨m, hm⟩ := den_eq_one_iff.mp hden
    have hpos := two_zpow_pos (placeExponent q)
    have hq : q = m * 2 ^ placeExponent q := by
      rw [← hm]
      field_simp
    refine ⟨m, placeExponent q, hq, ?_, le_max_right _ _, ?_⟩
    · have hlt : (|m| : ℚ) < 2 ^ 53 := by
        rw [← hm, abs_div, abs_of_pos hpos, div_lt_iff₀ hpos]
        exact abs_lt_of_placeExponent q
      exact_mod_cast hlt
    · exact placeExponent_le_top hrange
  · rintro ⟨m, e, rfl, hm, he, htop⟩
    refine isBinary64_of_lt hm he ?_
    have hm' : (|m| : ℚ) < 2 ^ 53 := by exact_mod_cast hm
    rw [abs_mul, abs_of_pos (two_zpow_pos e)]
    calc (|(m : ℚ)|) * 2 ^ e < 2 ^ 53 * 2 ^ e := by
          refine mul_lt_mul_of_pos_right ?_ (two_zpow_pos e)
          exact_mod_cast hm'
      _ ≤ 2 ^ 53 * 2 ^ (971 : ℤ) := by
          refine mul_le_mul_of_nonneg_left ?_ (by norm_num)
          exact zpow_le_zpow_right₀ (by norm_num) htop
      _ = 2 ^ 1024 := by
          rw [show (971 : ℤ) = (971 : ℕ) from rfl, zpow_natCast, ← pow_add]

theorem isBinary64_zero : IsBinary64 0 := isBinary64_iff.mpr ⟨0, 0, by simp⟩

theorem IsBinary64.neg {q : ℚ} (h : IsBinary64 q) : IsBinary64 (-q) := by
  obtain ⟨m, e, rfl, hm, he, htop⟩ := isBinary64_iff.mp h
  exact isBinary64_iff.mpr ⟨-m, e, by push_cast; ring, by rwa [abs_neg], he, htop⟩

/-! ## Rounding -/

/-- The nearest integer; of two the even one. -/
def roundToEven (q : ℚ) : ℤ :=
  if q - ⌊q⌋ < 1 / 2 then ⌊q⌋
  else if 1 / 2 < q - ⌊q⌋ then ⌊q⌋ + 1
  else if ⌊q⌋ % 2 = 0 then ⌊q⌋
  else ⌊q⌋ + 1

theorem roundToEven_intCast (m : ℤ) : roundToEven m = m := by
  unfold roundToEven
  rw [Int.floor_intCast, sub_self, if_pos (by norm_num)]

/-- What is less than an integer is rounded to at most that. -/
theorem abs_roundToEven_le {q : ℚ} {bound : ℤ} (h : |q| < bound) : |roundToEven q| ≤ bound := by
  obtain ⟨hlow, hhigh⟩ := abs_lt.mp h
  have hfloor : -bound ≤ ⌊q⌋ := Int.le_floor.mpr (by push_cast; exact hlow.le)
  have hceil : ⌊q⌋ < bound := Int.floor_lt.mpr hhigh
  rw [abs_le]
  unfold roundToEven
  split
  · omega
  split
  · omega
  split <;> omega

/-- The nearest multiple of the last place. -/
def nearest (q : ℚ) : ℚ := roundToEven (q / 2 ^ placeExponent q) * 2 ^ placeExponent q

theorem nearest_of_isBinary64 {q : ℚ} (h : IsBinary64 q) : nearest q = q := by
  obtain ⟨m, hm⟩ := den_eq_one_iff.mp h.2
  have hpos := two_zpow_pos (placeExponent q)
  unfold nearest
  rw [hm, roundToEven_intCast, ← hm]
  field_simp

/-- It is a value of the format, unless it is out of range. -/
theorem isBinary64_nearest {q : ℚ} (h : |nearest q| < 2 ^ 1024) : IsBinary64 (nearest q) := by
  have hpos := two_zpow_pos (placeExponent q)
  have hplaces : |q / 2 ^ placeExponent q| < ((2 ^ 53 : ℤ) : ℚ) := by
    rw [abs_div, abs_of_pos hpos, div_lt_iff₀ hpos]
    exact_mod_cast abs_lt_of_placeExponent q
  have hle := abs_roundToEven_le hplaces
  have hleast : -1074 ≤ placeExponent q := le_max_right _ _
  rcases hle.lt_or_eq with hlt | heq
  · exact isBinary64_of_lt hlt hleast h
  · -- rounding has carried into the next exponent
    obtain ⟨half, hhalf⟩ : ∃ half : ℤ, roundToEven (q / 2 ^ placeExponent q) = half * 2 ∧
        |half| < 2 ^ 53 := by
      rcases abs_choice (roundToEven (q / 2 ^ placeExponent q)) with hsign | hsign
      · exact ⟨2 ^ 52, by rw [← hsign, heq]; norm_num, by norm_num⟩
      · exact ⟨-2 ^ 52, by rw [hsign] at heq; omega, by norm_num⟩
    have hnearest : nearest q = half * 2 ^ (placeExponent q + 1) := by
      unfold nearest
      rw [hhalf.1, zpow_add₀ (by norm_num)]
      push_cast
      ring
    rw [hnearest] at h ⊢
    exact isBinary64_of_lt hhalf.2 (by omega) h

/-! ## Numbers -/

/-- A number of the format. A zero without a sign is the finite one. -/
inductive Number where
  | notANumber
  | infinity (negative : Bool)
  | negativeZero
  | finite (value : ℚ) (h : IsBinary64 value)
  deriving DecidableEq

namespace Number

def zero : Number := .finite 0 isBinary64_zero

def isFinite : Number → Bool
  | .notANumber | .infinity _ => false
  | .negativeZero | .finite .. => true

def neg : Number → Number
  | .notANumber => .notANumber
  | .infinity negative => .infinity (!negative)
  | .negativeZero => zero
  | .finite value h => if value = 0 then .negativeZero else .finite (-value) h.neg

/-- The sign of a zero is dropped. -/
def unsigned : Number → Number
  | .negativeZero => zero
  | .notANumber => .notANumber
  | .infinity negative => .infinity negative
  | .finite value h => .finite value h

/-- The rational of a finite number. -/
def value? : Number → Option ℚ
  | .notANumber | .infinity _ => none
  | .negativeZero => some 0
  | .finite value _ => some value

/-- The comparison `x > y`; nothing compares with what is no number. -/
def exceeds : Number → Number → Bool
  | .notANumber, _ | _, .notANumber => false
  | .infinity negative, .infinity negative' => !negative && negative'
  | .infinity negative, _ => !negative
  | _, .infinity negative => negative
  | .negativeZero, y => y.value?.any (· < 0)
  | .finite value _, y => y.value?.any (· < value)

theorem exceeds_iff {x y : Number} {q r : ℚ} (hx : x.value? = some q) (hy : y.value? = some r) :
    x.exceeds y = true ↔ r < q := by
  cases x <;> cases y <;> cases hx <;> cases hy <;> simp [exceeds, value?]

/-- `Number.isSafeInteger` -/
def isSafeInteger (x : Number) : Bool :=
  x.value?.any fun q => decide (q.den = 1) && decide (|q| < 2 ^ 53)

theorem finite_congr {q r : ℚ} (h : q = r) (hq : IsBinary64 q) (hr : IsBinary64 r) :
    Number.finite q hq = .finite r hr := by
  subst h
  rfl

theorem neg_finite {q : ℚ} (h : IsBinary64 q) (hne : q ≠ 0) :
    (finite q h).neg = .finite (-q) h.neg := if_neg hne

end Number

/-- The number for a rational that is not negative. -/
def numberOf (q : ℚ) : Number :=
  if h : |nearest q| < 2 ^ 1024 then .finite (nearest q) (isBinary64_nearest h)
  else .infinity false

theorem numberOf_of_nearest {q r : ℚ} (hnearest : nearest r = q) (h : IsBinary64 q) :
    numberOf r = .finite q h := by
  unfold numberOf
  rw [dif_pos (by rw [hnearest]; exact h.1)]
  exact Number.finite_congr hnearest _ _

theorem numberOf_of_isBinary64 {q : ℚ} (h : IsBinary64 q) : numberOf q = .finite q h :=
  numberOf_of_nearest (nearest_of_isBinary64 h) h

example : numberOf (1 / 10) = .finite (3602879701896397 / 2 ^ 55) (by decide +kernel) := by
  decide +kernel

end Infra
