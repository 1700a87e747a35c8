import Kommunsign.Infra.BigEndian

/-!
# Integers in DER

* `IsLength`, `IsElement` — a length, and a tag with its length and its contents
* `IsInteger` — the shortest two's complement of a number
-/

namespace Infra.Der

/-- The octets of a definite length: itself below 128, and otherwise its count of bytes and them. -/
inductive IsLength (n : ℕ) : List UInt8 → Prop
  | short (h : n < 128) : IsLength n [UInt8.ofNat n]
  | long {bytes : List UInt8} (h : 128 ≤ n) (value : ofBytes bytes = n)
      (head : bytes.head? ≠ some 0) (count : bytes.length < 127) :
      IsLength n (UInt8.ofNat (128 + bytes.length) :: bytes)

def IsElement (tag : UInt8) (contents octets : List UInt8) : Prop :=
  ∃ length, IsLength contents.length length ∧ octets = tag :: (length ++ contents)

def twosComplement : List UInt8 → ℤ
  | [] => 0
  | b :: bytes =>
    (ofBytes (b :: bytes) : ℤ) - if 128 ≤ b.toNat then 256 ^ (bytes.length + 1) else 0

/-- The first nine bits are neither all zero nor all one. -/
structure IsInteger (value : ℤ) (contents : List UInt8) : Prop where
  ne_nil : contents ≠ []
  value_eq : twosComplement contents = value
  minimal : ∀ a b rest, contents = a :: b :: rest →
    ¬(a.toNat = 0 ∧ b.toNat < 128) ∧ ¬(a.toNat = 255 ∧ 128 ≤ b.toNat)

def IsIntegerPair (r s : ℤ) (octets : List UInt8) : Prop :=
  ∃ contents contents' first second, IsInteger r contents ∧ IsElement 0x02 contents first ∧
    IsInteger s contents' ∧ IsElement 0x02 contents' second ∧
    IsElement 0x30 (first ++ second) octets

section

variable {n : ℕ} {xs ys : List UInt8}

theorem pow_le_ofBytes_cons (b : UInt8) (bytes : List UInt8) :
    b.toNat * 256 ^ bytes.length ≤ ofBytes (b :: bytes) := by
  rw [ofBytes_cons]
  omega

theorem ofBytes_cons_lt (b : UInt8) (bytes : List UInt8) :
    ofBytes (b :: bytes) < (b.toNat + 1) * 256 ^ bytes.length := by
  have h := ofBytes_lt bytes
  rw [ofBytes_cons, Nat.succ_mul]
  omega

/-- Bytes without a zero in front are no longer than others of the same number. -/
theorem length_le_of_head (hhead : ys.head? ≠ some 0) (h : ofBytes xs = ofBytes ys) :
    ys.length ≤ xs.length := by
  cases ys with
  | nil => exact Nat.zero_le _
  | cons b bytes =>
    have hb : 1 ≤ b.toNat := by
      rcases Nat.eq_zero_or_pos b.toNat with hzero | hpos
      · exact absurd (congrArg some (UInt8.toNat.inj hzero)) hhead
      · exact hpos
    have hlow : 1 * 256 ^ bytes.length ≤ ofBytes (b :: bytes) :=
      (Nat.mul_le_mul_right _ hb).trans (pow_le_ofBytes_cons b bytes)
    have hlt : 256 ^ bytes.length < 256 ^ xs.length := by
      have := ofBytes_lt xs
      omega
    exact (Nat.pow_lt_pow_iff_right (by omega)).mp hlt

theorem IsLength.eq (hx : IsLength n xs) (hy : IsLength n ys) : xs = ys := by
  cases hx with
  | short h =>
    cases hy with
    | short _ => rfl
    | long h' => omega
  | @long x h value head count =>
    cases hy with
    | short h' => omega
    | @long y _ value' head' _ =>
      have hvalue := value.trans value'.symm
      have hlength := Nat.le_antisymm (length_le_of_head head hvalue.symm)
        (length_le_of_head head' hvalue)
      rw [eq_of_ofBytes_eq hlength hvalue]

theorem IsElement.eq {tag : UInt8} {contents : List UInt8} (hx : IsElement tag contents xs)
    (hy : IsElement tag contents ys) : xs = ys := by
  obtain ⟨length, hlength, rfl⟩ := hx
  obtain ⟨length', hlength', rfl⟩ := hy
  rw [hlength.eq hlength']

/-- A natural number has no sign bit. -/
theorem IsInteger.ofBytes_eq {b : UInt8} {bytes : List UInt8} (h : IsInteger n (b :: bytes)) :
    b.toNat < 128 ∧ ofBytes (b :: bytes) = n := by
  have hvalue := h.value_eq
  have hlt : (ofBytes (b :: bytes) : ℤ) < 256 ^ (bytes.length + 1) := by
    exact_mod_cast ofBytes_lt (b :: bytes)
  rw [twosComplement] at hvalue
  split at hvalue
  · omega
  · exact ⟨by omega, by omega⟩

theorem IsInteger.length_le (hx : IsInteger n xs) (hy : IsInteger n ys) :
    ys.length ≤ xs.length := by
  obtain ⟨a, x, rfl⟩ := List.exists_cons_of_ne_nil hx.ne_nil
  obtain ⟨ha, hxn⟩ := hx.ofBytes_eq
  have hupper : n < 128 * 256 ^ x.length := by
    have h := ofBytes_cons_lt a x
    have h' := Nat.mul_le_mul_right (256 ^ x.length) (show a.toNat + 1 ≤ 128 by omega)
    omega
  obtain ⟨b, y, rfl⟩ := List.exists_cons_of_ne_nil hy.ne_nil
  obtain ⟨-, hyn⟩ := hy.ofBytes_eq
  by_contra hlong
  simp only [List.length_cons] at hlong
  cases y with
  | nil => simp at hlong
  | cons c z =>
    simp only [List.length_cons] at hlong
    have hpow : 256 ^ x.length ≤ 256 ^ z.length := Nat.pow_le_pow_right (by omega) (by omega)
    have hc := pow_le_ofBytes_cons c z
    rw [ofBytes_cons, List.length_cons, Nat.pow_succ] at hyn
    rcases Nat.eq_zero_or_pos b.toNat with hzero | hpos
    · have hbit : 128 ≤ c.toNat := by
        have := (hy.minimal b c z rfl).1
        omega
      have := Nat.mul_le_mul_right (256 ^ z.length) hbit
      omega
    · have := Nat.mul_le_mul_right (256 ^ z.length * 256) hpos
      omega

theorem IsInteger.eq (hx : IsInteger n xs) (hy : IsInteger n ys) : xs = ys := by
  have hlength := Nat.le_antisymm (hy.length_le hx) (hx.length_le hy)
  obtain ⟨a, x, rfl⟩ := List.exists_cons_of_ne_nil hx.ne_nil
  obtain ⟨b, y, rfl⟩ := List.exists_cons_of_ne_nil hy.ne_nil
  exact eq_of_ofBytes_eq hlength (hx.ofBytes_eq.2.trans hy.ofBytes_eq.2.symm)

/-- Two natural numbers have one encoding. -/
theorem IsIntegerPair.eq {r s : ℕ} (hx : IsIntegerPair r s xs) (hy : IsIntegerPair r s ys) :
    xs = ys := by
  obtain ⟨c, d, first, second, hc, hfirst, hd, hsecond, hx⟩ := hx
  obtain ⟨c', d', first', second', hc', hfirst', hd', hsecond', hy⟩ := hy
  obtain rfl := hc.eq hc'
  obtain rfl := hd.eq hd'
  obtain rfl := hfirst.eq hfirst'
  obtain rfl := hsecond.eq hsecond'
  exact hx.eq hy

end

end Infra.Der
