import Mathlib.Data.Nat.Digits.Defs
import Mathlib.Tactic.Common

/-!
# Numbers by their digits, the highest first

* `ofBigEndian`, `bigEndian` — a number of its digits, and its lowest digits
* `bigEndian_append` — the digits of the parts of a number
-/

namespace Infra

section

variable {base : ℕ}

/-- The number that has these digits. -/
def ofBigEndian (base : ℕ) (digits : List ℕ) : ℕ := Nat.ofDigits base digits.reverse

/-- The lowest `width` digits. -/
def bigEndian (base : ℕ) : ℕ → ℕ → List ℕ
  | 0, _ => []
  | width + 1, n => bigEndian base width (n / base) ++ [n % base]

@[simp] theorem length_bigEndian (width n : ℕ) : (bigEndian base width n).length = width := by
  induction width generalizing n with
  | zero => rfl
  | succ width ih => rw [bigEndian, List.length_append, ih, List.length_singleton]

theorem lt_of_mem_bigEndian (hbase : 0 < base) {width n d : ℕ} (h : d ∈ bigEndian base width n) :
    d < base := by
  induction width generalizing n with
  | zero => exact absurd h List.not_mem_nil
  | succ width ih =>
    rcases List.mem_append.mp h with h | h
    · exact ih h
    · rw [List.mem_singleton.mp h]
      exact Nat.mod_lt n hbase

theorem ofBigEndian_append (xs ys : List ℕ) :
    ofBigEndian base (xs ++ ys) = ofBigEndian base xs * base ^ ys.length + ofBigEndian base ys := by
  unfold ofBigEndian
  rw [List.reverse_append, Nat.ofDigits_append, List.length_reverse, Nat.mul_comm, Nat.add_comm]

@[simp] theorem ofBigEndian_singleton (d : ℕ) : ofBigEndian base [d] = d :=
  Nat.ofDigits_singleton

theorem ofBigEndian_cons (d : ℕ) (digits : List ℕ) :
    ofBigEndian base (d :: digits) = d * base ^ digits.length + ofBigEndian base digits := by
  rw [← List.singleton_append, ofBigEndian_append, ofBigEndian_singleton]

theorem ofBigEndian_lt (hbase : 1 < base) {digits : List ℕ} (h : ∀ d ∈ digits, d < base) :
    ofBigEndian base digits < base ^ digits.length := by
  rw [ofBigEndian, ← List.length_reverse]
  exact Nat.ofDigits_lt_base_pow_length hbase fun d hd => h d (List.mem_reverse.mp hd)

theorem ofBigEndian_bigEndian (width n : ℕ) :
    ofBigEndian base (bigEndian base width n) = n % base ^ width := by
  induction width generalizing n with
  | zero => rw [Nat.pow_zero, Nat.mod_one]; rfl
  | succ width ih =>
    rw [bigEndian, ofBigEndian_append, ofBigEndian_singleton, ih, List.length_singleton,
      Nat.pow_one, Nat.pow_succ', Nat.mod_mul, Nat.mul_comm, Nat.add_comm]

/-- The lower part has `k` digits. -/
theorem bigEndian_append (hbase : 0 < base) (width k n : ℕ) {low : ℕ} (hlow : low < base ^ k) :
    bigEndian base (width + k) (n * base ^ k + low) =
      bigEndian base width n ++ bigEndian base k low := by
  induction k generalizing low with
  | zero =>
    obtain rfl : low = 0 := by simpa using hlow
    simp [bigEndian]
  | succ k ih =>
    have hpow : n * base ^ (k + 1) = base * (n * base ^ k) := by rw [Nat.pow_succ]; ring
    have hdiv : low / base < base ^ k := Nat.div_lt_of_lt_mul (by rwa [← Nat.pow_succ'])
    show bigEndian base (width + k) ((n * base ^ (k + 1) + low) / base) ++
      [(n * base ^ (k + 1) + low) % base] = _
    rw [hpow, Nat.mul_add_div hbase, Nat.mul_add_mod, ih hdiv, List.append_assoc]
    rfl

theorem bigEndian_ofBigEndian (hbase : 1 < base) {digits : List ℕ} (h : ∀ d ∈ digits, d < base) :
    bigEndian base digits.length (ofBigEndian base digits) = digits := by
  induction digits with
  | nil => rfl
  | cons d digits ih =>
    obtain ⟨hd, hdigits⟩ := List.forall_mem_cons.mp h
    rw [ofBigEndian_cons, List.length_cons, Nat.add_comm digits.length,
      bigEndian_append (Nat.zero_lt_of_lt hbase) 1 digits.length d (ofBigEndian_lt hbase hdigits),
      ih hdigits]
    show [] ++ [d % base] ++ digits = d :: digits
    rw [Nat.mod_eq_of_lt hd]
    rfl

end

/-! ## Bytes -/

/-- The number that has these bytes. -/
def ofBytes (bytes : List UInt8) : ℕ := ofBigEndian 256 (bytes.map UInt8.toNat)

theorem toNat_lt_of_mem (bytes : List UInt8) : ∀ d ∈ bytes.map UInt8.toNat, d < 256 := by
  intro d hd
  obtain ⟨b, _, rfl⟩ := List.mem_map.mp hd
  exact b.toNat_lt

theorem ofBytes_lt (bytes : List UInt8) : ofBytes bytes < 256 ^ bytes.length := by
  have h := ofBigEndian_lt (by omega) (toNat_lt_of_mem bytes)
  rwa [List.length_map] at h

theorem ofBytes_append (xs ys : List UInt8) :
    ofBytes (xs ++ ys) = ofBytes xs * 256 ^ ys.length + ofBytes ys := by
  rw [ofBytes, List.map_append, ofBigEndian_append, List.length_map]
  rfl

@[simp] theorem ofBytes_nil : ofBytes [] = 0 := rfl

theorem ofBytes_cons (b : UInt8) (bytes : List UInt8) :
    ofBytes (b :: bytes) = b.toNat * 256 ^ bytes.length + ofBytes bytes := by
  rw [ofBytes, List.map_cons, ofBigEndian_cons, List.length_map]
  rfl

/-- Bytes are the digits of their number. -/
theorem map_ofNat_bigEndian_ofBytes (bytes : List UInt8) :
    (bigEndian 256 bytes.length (ofBytes bytes)).map UInt8.ofNat = bytes := by
  have h := bigEndian_ofBigEndian (by omega) (toNat_lt_of_mem bytes)
  rw [List.length_map] at h
  rw [ofBytes, h, List.map_map]
  exact (List.map_congr_left fun b _ => UInt8.ofNat_toNat).trans (List.map_id bytes)

/-- As many bytes of one number are the same. -/
theorem eq_of_ofBytes_eq {xs ys : List UInt8} (hlength : xs.length = ys.length)
    (h : ofBytes xs = ofBytes ys) : xs = ys := by
  rw [← map_ofNat_bigEndian_ofBytes xs, ← map_ofNat_bigEndian_ofBytes ys, hlength, h]

end Infra
