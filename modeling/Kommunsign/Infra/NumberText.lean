import Mathlib.Tactic.IntervalCases
import Kommunsign.Infra.Binary64
import Kommunsign.Infra.JsonRoundtrip

/-!
# The text of a number, and the number of a text

A number is written with the fewest digits that are read back as it, the closest such digits of two
that are as few.

* `shortest`, `Decimal.text`, `numberText` — `Number::toString`
* `readNumber` — the numbers of JSON, as `JSON.parse` reads them
-/

namespace Infra

open Json

/-! ## Writing -/

/-- `significand * 10 ^ exponent`. -/
structure Decimal where
  significand : ℕ
  exponent : ℤ
  deriving DecidableEq

def Decimal.value (d : Decimal) : ℚ := d.significand * 10 ^ d.exponent

/-- The decimals of `k` digits on both sides of a positive `q`, the closer one first. -/
def candidates (q : ℚ) (k : ℕ) : List Decimal :=
  let exponent := Int.log 10 q + 1 - k
  let scaled := q / 10 ^ exponent
  let low := ⌊scaled⌋₊
  let high := ⌈scaled⌉₊
  if roundToEven scaled = low then [⟨low, exponent⟩, ⟨high, exponent⟩]
  else [⟨high, exponent⟩, ⟨low, exponent⟩]

/-- `10 ^ k` has one digit more than `k`, and is written with one less. -/
def Decimal.carried (k : ℕ) (d : Decimal) : Decimal :=
  if d.significand = 10 ^ k then ⟨10 ^ (k - 1), d.exponent + 1⟩ else d

/-- The decimal of fewest digits that is rounded to `q`. No value needs as many as 1400. -/
def shortest (q : ℚ) : Option Decimal :=
  (List.range 1400).findSome? fun i =>
    ((candidates q (i + 1)).find? fun d => decide (nearest d.value = q)).map
      (Decimal.carried (i + 1))

/-- The first digit, a point and the others; without them no point. -/
def pointed : Text → Text
  | [] => []
  | [digit] => [digit]
  | digit :: rest => digit :: '.' :: rest

def exponentText (n : ℤ) : Text :=
  'e' :: (if n < 0 then '-' else '+') :: Nat.toDigits 10 n.natAbs

def Decimal.text (d : Decimal) : Text :=
  let digits := Nat.toDigits 10 d.significand
  let k := digits.length
  let n := d.exponent + k
  if k ≤ n ∧ n ≤ 21 then digits ++ List.replicate (n - k).toNat '0'
  else if 0 < n ∧ n ≤ 21 then digits.take n.toNat ++ '.' :: digits.drop n.toNat
  else if -6 < n ∧ n ≤ 0 then '0' :: '.' :: (List.replicate (-n).toNat '0' ++ digits)
  else pointed digits ++ exponentText (n - 1)

/-- The text of a positive value. -/
def positiveText (q : ℚ) : Text := ((shortest q).map Decimal.text).getD []

def numberText : Number → Text
  | .notANumber => "NaN".toList
  | .infinity negative => (if negative then "-Infinity" else "Infinity").toList
  | .negativeZero => ['0']
  | .finite value _ =>
    if value = 0 then ['0']
    else if value < 0 then '-' :: positiveText (-value)
    else positiveText value

example : numberText (numberOf (1 / 10)) = "0.1".toList := by decide +kernel

example : numberText (numberOf (2 ^ 70)) = "1.1805916207174113e+21".toList := by decide +kernel

/-! ## Reading -/

/-- Digits without a superfluous zero at their head. -/
def readWhole (s : Text) : Option (Text × Text) :=
  let digits := s.takeWhile Char.isDigit
  if digits = [] ∨ digits.head? = some '0' ∧ digits ≠ ['0'] then none
  else some (digits, s.dropWhile Char.isDigit)

/-- At least one digit. -/
def readDigits (s : Text) : Option (Text × Text) :=
  let digits := s.takeWhile Char.isDigit
  if digits = [] then none else some (digits, s.dropWhile Char.isDigit)

def readFraction : Text → Option (Text × Text)
  | '.' :: s => readDigits s
  | s => some ([], s)

/-- The exponent, with its sign if it has one. -/
def readExponentDigits : Text → Option (ℤ × Text)
  | '-' :: s => (readDigits s).map fun r => (-(Nat.ofDigitChars 10 r.1 0 : ℤ), r.2)
  | '+' :: s => (readDigits s).map fun r => ((Nat.ofDigitChars 10 r.1 0 : ℤ), r.2)
  | s => (readDigits s).map fun r => ((Nat.ofDigitChars 10 r.1 0 : ℤ), r.2)

def readExponent : Text → Option (ℤ × Text)
  | [] => some (0, [])
  | c :: s => if c = 'e' ∨ c = 'E' then readExponentDigits s else some (0, c :: s)

def readUnsigned (s : Text) : Option (Number × Text) := do
  let (whole, s) ← readWhole s
  let (fraction, s) ← readFraction s
  let (exponent, s) ← readExponent s
  return (numberOf (Nat.ofDigitChars 10 (whole ++ fraction) 0 *
    10 ^ (exponent - fraction.length)), s)

def readNumber : Text → Option (Number × Text)
  | '-' :: s => (readUnsigned s).map fun r => (r.1.neg, r.2)
  | s => readUnsigned s

/-! ## The digits -/

theorem ten_zpow_pos (e : ℤ) : (0 : ℚ) < 10 ^ e := zpow_pos (by norm_num) e

theorem ten_zpow_add (a b : ℤ) : (10 : ℚ) ^ (a + b) = 10 ^ a * 10 ^ b :=
  zpow_add₀ (by norm_num) a b

section

variable {q : ℚ} {k : ℕ} {d : Decimal}

theorem value_carried (hk : 0 < k) : (d.carried k).value = d.value := by
  unfold Decimal.carried
  split
  · next h =>
    unfold Decimal.value
    dsimp only
    rw [h, ten_zpow_add]
    obtain ⟨k, rfl⟩ := Nat.exists_eq_add_of_lt hk
    push_cast
    ring
  · rfl

theorem carried_pos (h : 0 < d.significand) : 0 < (d.carried k).significand := by
  unfold Decimal.carried
  split
  · exact Nat.pow_pos (by norm_num)
  · exact h

/-- The digits before the point of `q`, without its last `k` places, are at least one. -/
theorem one_le_scaled (hpos : 0 < q) (hk : 0 < k) : 1 ≤ q / 10 ^ (Int.log 10 q + 1 - k) := by
  rw [le_div_iff₀ (ten_zpow_pos _), one_mul]
  calc (10 : ℚ) ^ (Int.log 10 q + 1 - k) ≤ 10 ^ Int.log 10 q :=
        zpow_le_zpow_right₀ (by norm_num) (by omega)
    _ ≤ q := by exact_mod_cast Int.zpow_log_le_self (b := 10) (by decide) hpos

theorem candidates_pos (hpos : 0 < q) (hk : 0 < k) (h : d ∈ candidates q k) :
    0 < d.significand := by
  have hone := one_le_scaled hpos hk
  have hlow : 0 < ⌊q / 10 ^ (Int.log 10 q + 1 - k)⌋₊ := Nat.floor_pos.mpr hone
  have hhigh : 0 < ⌈q / 10 ^ (Int.log 10 q + 1 - k)⌉₊ := Nat.ceil_pos.mpr (by linarith)
  unfold candidates at h
  dsimp only at h
  split at h
  · simp only [List.mem_cons, List.not_mem_nil, or_false] at h
    rcases h with rfl | rfl
    · exact hlow
    · exact hhigh
  · simp only [List.mem_cons, List.not_mem_nil, or_false] at h
    rcases h with rfl | rfl
    · exact hhigh
    · exact hlow

/-- The digits that are found are rounded to `q`. -/
theorem of_shortest (hpos : 0 < q) (h : shortest q = some d) :
    nearest d.value = q ∧ 0 < d.significand := by
  unfold shortest at h
  obtain ⟨i, _, hfound⟩ := List.exists_of_findSome?_eq_some h
  obtain ⟨c, hc, rfl⟩ := Option.map_eq_some_iff.mp hfound
  refine ⟨?_, carried_pos (candidates_pos hpos (Nat.succ_pos i) (List.mem_of_find?_eq_some hc))⟩
  rw [value_carried (Nat.succ_pos i)]
  simpa using List.find?_some hc

/-- A value of the format has a decimal expansion of 1074 places. -/
theorem exists_scaled (h : IsBinary64 q) {e : ℤ} (he : e ≤ -1074) :
    ∃ n : ℤ, q / 10 ^ e = n := by
  obtain ⟨m, p, rfl, _, hp, _⟩ := isBinary64_iff.mp h
  refine ⟨m * 2 ^ (p - e).toNat * 5 ^ (-e).toNat, ?_⟩
  have hten : (10 : ℚ) ^ e = 2 ^ e * 5 ^ e := by
    rw [← mul_zpow]
    norm_num
  have hfive : (5 : ℚ) ^ (-e).toNat * 5 ^ e = 1 := by
    rw [← zpow_natCast, ← zpow_add₀ (by norm_num), Int.toNat_of_nonneg (by omega)]
    simp
  have htwo : (2 : ℚ) ^ (p - e).toNat * 2 ^ e = 2 ^ p := by
    rw [← zpow_natCast, ← zpow_add₀ (by norm_num), Int.toNat_of_nonneg (by omega)]
    simp
  rw [div_eq_iff (ten_zpow_pos e).ne', hten]
  push_cast
  calc (m : ℚ) * 2 ^ p = m * (2 ^ (p - e).toNat * 2 ^ e) * (5 ^ (-e).toNat * 5 ^ e) := by
        rw [htwo, hfive, mul_one]
    _ = m * 2 ^ (p - e).toNat * 5 ^ (-e).toNat * (2 ^ e * 5 ^ e) := by ring

theorem log_ten_lt (h : IsBinary64 q) (hpos : 0 < q) : Int.log 10 q < 309 := by
  refine (Int.lt_zpow_iff_log_lt (by decide) hpos).mp ?_
  calc q = |q| := (abs_of_pos hpos).symm
    _ < 2 ^ 1024 := h.1
    _ ≤ ((10 : ℕ) : ℚ) ^ (309 : ℤ) := by
      rw [show (309 : ℤ) = (309 : ℕ) from rfl, zpow_natCast]
      exact_mod_cast (show (2 : ℕ) ^ 1024 ≤ 10 ^ 309 by decide +kernel)

/-- With enough places `q` is one of its candidates. -/
theorem exists_candidate (h : IsBinary64 q) (hpos : 0 < q) :
    ∃ d ∈ candidates q 1400, nearest d.value = q := by
  have hlog := log_ten_lt h hpos
  obtain ⟨n, hn⟩ := exists_scaled h (e := Int.log 10 q + 1 - (1400 : ℕ)) (by push_cast; omega)
  have hnonneg : 0 ≤ n := by
    have hscaled := (one_le_scaled hpos (k := 1400) (by norm_num)).trans_eq hn
    have : (0 : ℚ) ≤ n := by linarith
    exact_mod_cast this
  obtain ⟨n, rfl⟩ := Int.eq_ofNat_of_zero_le hnonneg
  refine ⟨⟨n, Int.log 10 q + 1 - (1400 : ℕ)⟩, ?_, ?_⟩
  · unfold candidates
    dsimp only
    rw [hn]
    have hlow : ⌊((n : ℤ) : ℚ)⌋₊ = n := by simp
    rw [roundToEven_intCast, hlow, if_pos rfl]
    exact List.mem_cons_self
  · have hvalue : Decimal.value ⟨n, Int.log 10 q + 1 - (1400 : ℕ)⟩ = q := by
      unfold Decimal.value
      rw [div_eq_iff (ten_zpow_pos _).ne'] at hn
      exact_mod_cast hn.symm
    rw [hvalue]
    exact nearest_of_isBinary64 h

theorem exists_shortest (h : IsBinary64 q) (hpos : 0 < q) : ∃ d, shortest q = some d := by
  obtain ⟨d, hd, hvalue⟩ := exists_candidate h hpos
  refine Option.isSome_iff_exists.mp (List.findSome?_isSome_iff.mpr ⟨1399, by simp, ?_⟩)
  rw [Option.isSome_map]
  exact List.find?_isSome.mpr ⟨d, hd, decide_eq_true hvalue⟩

end

/-! ## The parts of a literal -/

/-- A literal from its parts; the exponent is its sign and its digits. -/
def spelled (whole fraction : Text) (exponent : Option (Bool × Text)) : Text :=
  whole ++ ((if fraction = [] then [] else '.' :: fraction) ++
    (exponent.map fun e => 'e' :: (if e.1 then '-' else '+') :: e.2).getD [])

def exponentOf (exponent : Option (Bool × Text)) : ℤ :=
  (exponent.map fun e =>
    if e.1 then -(Nat.ofDigitChars 10 e.2 0 : ℤ) else (Nat.ofDigitChars 10 e.2 0 : ℤ)).getD 0

def AllDigits (digits : Text) : Prop := ∀ c ∈ digits, c.isDigit = true

/-- Digits that may stand before the point. -/
structure IsWhole (digits : Text) : Prop where
  all : AllDigits digits
  ne_nil : digits ≠ []
  leading : digits.head? = some '0' → digits = ['0']

/-- What follows is no digit. -/
def StopsDigits (rest : Text) : Prop := ∀ c, rest.head? = some c → c.isDigit = false

theorem StopsDigits.cons {c : Char} (h : c.isDigit = false) (rest : Text) :
    StopsDigits (c :: rest) := by
  intro c' hc'
  cases hc'
  exact h

theorem span_of_stopsDigits {digits rest : Text} (hd : AllDigits digits) (hr : StopsDigits rest) :
    (digits ++ rest).takeWhile Char.isDigit = digits ∧
      (digits ++ rest).dropWhile Char.isDigit = rest := by
  induction digits with
  | nil =>
    cases rest with
    | nil => exact ⟨rfl, rfl⟩
    | cons c rest =>
      have hc := hr c rfl
      simp [hc]
  | cons d digits ih =>
    obtain ⟨ht, hdr⟩ := ih fun c hc => hd c (List.mem_cons_of_mem _ hc)
    have hdd := hd d List.mem_cons_self
    simp [hdd, ht, hdr]

theorem readWhole_append {digits rest : Text} (hd : IsWhole digits) (hr : StopsDigits rest) :
    readWhole (digits ++ rest) = some (digits, rest) := by
  obtain ⟨ht, hdr⟩ := span_of_stopsDigits hd.all hr
  unfold readWhole
  dsimp only
  rw [ht, hdr, if_neg]
  rintro (hnil | ⟨hzero, hother⟩)
  · exact hd.ne_nil hnil
  · exact hother (hd.leading hzero)

theorem readDigits_append {digits rest : Text} (hd : AllDigits digits) (hne : digits ≠ [])
    (hr : StopsDigits rest) : readDigits (digits ++ rest) = some (digits, rest) := by
  obtain ⟨ht, hdr⟩ := span_of_stopsDigits hd hr
  unfold readDigits
  dsimp only
  rw [ht, hdr, if_neg hne]

/-- The exponent that follows a literal, if any, and what follows that. -/
theorem readExponent_append {exponent : Option (Bool × Text)} {rest : Text}
    (he : ∀ e ∈ exponent, AllDigits e.2 ∧ e.2 ≠ []) (hr : Delimited rest) :
    readExponent ((exponent.map fun e => 'e' :: (if e.1 then '-' else '+') :: e.2).getD [] ++
      rest) = some (exponentOf exponent, rest) := by
  cases exponent with
  | none =>
    show readExponent rest = some (0, rest)
    cases rest with
    | nil => rfl
    | cons c rest =>
      obtain ⟨_, _, he, hE⟩ := hr c rfl
      exact if_neg fun h => h.elim he hE
  | some e =>
    obtain ⟨negative, digits⟩ := e
    obtain ⟨hdigits, hne⟩ := he _ rfl
    have hread := readDigits_append hdigits hne fun c hc => (hr c hc).1
    show readExponent ('e' :: (if negative then '-' else '+') :: digits ++ rest) = _
    cases negative with
    | true =>
      show (readDigits (digits ++ rest)).map _ = _
      rw [hread]
      rfl
    | false =>
      show (readDigits (digits ++ rest)).map _ = _
      rw [hread]
      rfl

/-- What a literal spells is read. -/
theorem readUnsigned_spelled {whole fraction : Text} {exponent : Option (Bool × Text)}
    {rest : Text} (hw : IsWhole whole) (hf : AllDigits fraction)
    (he : ∀ e ∈ exponent, AllDigits e.2 ∧ e.2 ≠ []) (hr : Delimited rest) :
    readUnsigned (spelled whole fraction exponent ++ rest) =
      some (numberOf (Nat.ofDigitChars 10 (whole ++ fraction) 0 *
        10 ^ (exponentOf exponent - fraction.length)), rest) := by
  -- neither the exponent nor what follows the literal begins with a digit or a point
  have hstop : ∀ c, ((exponent.map fun e => 'e' :: (if e.1 then '-' else '+') :: e.2).getD [] ++
      rest).head? = some c → c.isDigit = false ∧ c ≠ '.' := by
    intro c hc
    cases exponent with
    | none => exact ⟨(hr c hc).1, (hr c hc).2.1⟩
    | some e =>
      obtain rfl : 'e' = c := by simpa using hc
      exact ⟨by decide, by decide⟩
  have hexponent := readExponent_append he hr
  generalize hlast : (exponent.map fun e => 'e' :: (if e.1 then '-' else '+') :: e.2).getD [] =
    last at hstop hexponent
  have hfraction : readFraction ((if fraction = [] then [] else '.' :: fraction) ++
      (last ++ rest)) = some (fraction, last ++ rest) := by
    by_cases hnil : fraction = []
    · rw [if_pos hnil, hnil, List.nil_append]
      cases hs : last ++ rest with
      | nil => rfl
      | cons c s =>
        rw [hs] at hstop
        have hpoint := (hstop c rfl).2
        unfold readFraction
        split
        · next heq =>
          exact absurd (List.cons.inj heq).1 hpoint
        · rfl
    · rw [if_neg hnil, List.cons_append]
      exact readDigits_append hf hnil fun c hc => (hstop c hc).1
  have hwhole : readWhole (spelled whole fraction exponent ++ rest) =
      some (whole, (if fraction = [] then [] else '.' :: fraction) ++ (last ++ rest)) := by
    unfold spelled
    rw [hlast, List.append_assoc, List.append_assoc]
    refine readWhole_append hw ?_
    by_cases hnil : fraction = []
    · rw [if_pos hnil, List.nil_append]
      exact fun c hc => (hstop c hc).1
    · rw [if_neg hnil]
      exact StopsDigits.cons (by decide) _
  unfold readUnsigned
  simp only [hwhole, hfraction, hexponent, Option.bind_eq_bind, Option.bind_some]
  rfl

/-! ## The text of a decimal as a literal -/

theorem allDigits_toDigits (n : ℕ) : AllDigits (Nat.toDigits 10 n) := fun _ hc =>
  Nat.isDigit_of_mem_toDigits (by omega) (by omega) hc

theorem allDigits_replicate (n : ℕ) : AllDigits (List.replicate n '0') := by
  intro c hc
  rw [List.eq_of_mem_replicate hc]
  decide

theorem AllDigits.append {s t : Text} (hs : AllDigits s) (ht : AllDigits t) : AllDigits (s ++ t) :=
  fun c hc => (List.mem_append.mp hc).elim (hs c) (ht c)

theorem head?_append_of_ne_nil {s t : Text} (h : s ≠ []) : (s ++ t).head? = s.head? := by
  cases s with
  | nil => exact absurd rfl h
  | cons c s => rfl

/-- A positive number does not begin with a zero. -/
theorem head?_toDigits (n : ℕ) (h : 0 < n) : (Nat.toDigits 10 n).head? ≠ some '0' := by
  induction n using Nat.strong_induction_on with
  | _ n ih =>
    by_cases hsmall : n < 10
    · rw [Nat.toDigits_of_lt_base hsmall]
      interval_cases n <;> decide
    · rw [Nat.toDigits_of_base_le (by norm_num) (by omega),
        head?_append_of_ne_nil Nat.toDigits_ne_nil]
      exact ih (n / 10) (by omega) (by omega)

theorem isWhole_of_head? {digits : Text} (hd : AllDigits digits) (hne : digits ≠ [])
    (hhead : digits.head? ≠ some '0') : IsWhole digits where
  all := hd
  ne_nil := hne
  leading h := absurd h hhead

/-- A literal that spells a value. -/
def Spells (text : Text) (value : ℚ) : Prop :=
  ∃ whole fraction exponent, text = spelled whole fraction exponent ∧ IsWhole whole ∧
    AllDigits fraction ∧ (∀ e ∈ exponent, AllDigits e.2 ∧ e.2 ≠ []) ∧
    (Nat.ofDigitChars 10 (whole ++ fraction) 0 : ℚ) *
      10 ^ (exponentOf exponent - fraction.length) = value

theorem exponentText_eq (n : ℤ) : exponentText n = ((some (decide (n < 0),
    Nat.toDigits 10 n.natAbs)).map fun e => 'e' :: (if e.1 then '-' else '+') :: e.2).getD [] := by
  by_cases h : n < 0
  · simp [exponentText, h]
  · simp [exponentText, h]

theorem exponentOf_toDigits (n : ℤ) :
    exponentOf (some (decide (n < 0), Nat.toDigits 10 n.natAbs)) = n := by
  unfold exponentOf
  rw [Option.map_some, Option.getD_some, Nat.ofDigitChars_ten_toDigits]
  by_cases h : n < 0
  · rw [if_pos (decide_eq_true h)]
    omega
  · rw [if_neg (by simpa using h)]
    omega

/-- The text of a decimal spells its value. -/
theorem spells_text {d : Decimal} (h : 0 < d.significand) : Spells d.text d.value := by
  have hall := allDigits_toDigits d.significand
  have hhead := head?_toDigits d.significand h
  have hvalue : Nat.ofDigitChars 10 (Nat.toDigits 10 d.significand) 0 = d.significand :=
    Nat.ofDigitChars_ten_toDigits
  have hlength : 0 < (Nat.toDigits 10 d.significand).length := Nat.length_toDigits_pos
  obtain ⟨significand, exponent⟩ := d
  unfold Decimal.text Decimal.value
  dsimp only at hall hhead hvalue hlength ⊢
  generalize Nat.toDigits 10 significand = digits at hall hhead hvalue hlength ⊢
  have hne : digits ≠ [] := List.ne_nil_of_length_pos hlength
  split
  · -- an integer, with zeros behind the digits
    next hcase =>
    refine ⟨digits ++ List.replicate (exponent + digits.length - digits.length).toNat '0', [], none,
      ?_, ?_, fun _ hc => absurd hc List.not_mem_nil, nofun, ?_⟩
    · simp [spelled]
    · refine isWhole_of_head? (hall.append (allDigits_replicate _)) (by simp [hne]) ?_
      rwa [head?_append_of_ne_nil hne]
    · have hzeros : (exponent + digits.length - digits.length).toNat = exponent.toNat := by
        congr 1
        omega
      rw [List.append_nil, Nat.ofDigitChars_append, hvalue, Nat.ofDigitChars_replicate_zero, hzeros]
      have hpower : (10 : ℚ) ^ exponent = 10 ^ exponent.toNat := by
        rw [← zpow_natCast, Int.toNat_of_nonneg (by omega)]
      simp only [exponentOf, Option.map_none, Option.getD_none, List.length_nil, hpower]
      push_cast
      ring
  split
  · -- a point between the digits
    next hcase hpoint =>
    obtain ⟨n, hn⟩ := Int.eq_ofNat_of_zero_le hpoint.1.le
    have hshort : n < digits.length := by omega
    have hpositive : 0 < n := by omega
    have hsplit : digits.take n ++ digits.drop n = digits := List.take_append_drop _ _
    rw [hn, Int.toNat_natCast]
    refine ⟨digits.take n, digits.drop n, none, ?_, ?_, fun c hc => hall c (List.mem_of_mem_drop hc),
      nofun, ?_⟩
    · have hrest : digits.drop n ≠ [] := by simpa using hshort
      simp [spelled, hrest]
    · have hfirst : digits.take n ≠ [] := by
        refine List.ne_nil_of_length_pos ?_
        rw [List.length_take]
        omega
      refine isWhole_of_head? (fun c hc => hall c (List.mem_of_mem_take hc)) hfirst ?_
      rwa [← head?_append_of_ne_nil (t := digits.drop n) hfirst, hsplit]
    · rw [hsplit, hvalue]
      have hexponent : exponentOf none - ((digits.drop n).length : ℤ) = exponent := by
        rw [List.length_drop]
        simp only [exponentOf, Option.map_none, Option.getD_none]
        omega
      rw [hexponent]
  split
  · -- zeros behind the point
    next hcase hpoint hsmall =>
    obtain ⟨n, hn⟩ := Int.eq_ofNat_of_zero_le (neg_nonneg.mpr hsmall.2)
    rw [hn, Int.toNat_natCast]
    refine ⟨['0'], List.replicate n '0' ++ digits, none, ?_, ⟨?_, by simp, fun _ => rfl⟩,
      (allDigits_replicate n).append hall, nofun, ?_⟩
    · simp [spelled, hne]
    · exact allDigits_replicate 1
    · have hzero : Nat.ofDigitChars 10 (['0'] ++ (List.replicate n '0' ++ digits)) 0 = significand := by
        rw [← List.append_assoc, Nat.ofDigitChars_append,
          show ['0'] ++ List.replicate n '0' = List.replicate (n + 1) '0' from rfl,
          Nat.ofDigitChars_replicate_zero, mul_zero, hvalue]
      rw [hzero]
      have hexponent : exponentOf none - ((List.replicate n '0' ++ digits).length : ℤ) =
          exponent := by
        rw [List.length_append, List.length_replicate]
        simp only [exponentOf, Option.map_none, Option.getD_none]
        omega
      rw [hexponent]
  · -- one digit before the point, and an exponent
    obtain ⟨digit, rest, rfl⟩ := List.exists_cons_of_ne_nil hne
    refine ⟨[digit], rest, some (decide (exponent + ((digit :: rest).length : ℤ) - 1 < 0),
      Nat.toDigits 10 (exponent + ((digit :: rest).length : ℤ) - 1).natAbs), ?_, ?_,
      fun c hc => hall c (List.mem_cons_of_mem _ hc), ?_, ?_⟩
    · unfold spelled
      rw [exponentText_eq, ← List.append_assoc]
      congr 1
      cases rest with
      | nil => rfl
      | cons c rest => rfl
    · refine isWhole_of_head? (fun c hc => ?_) (by simp) ?_
      · obtain rfl := List.mem_singleton.mp hc
        exact hall c List.mem_cons_self
      · simpa using hhead
    · rintro e he
      cases he
      exact ⟨allDigits_toDigits _, Nat.toDigits_ne_nil⟩
    · rw [exponentOf_toDigits, List.singleton_append, hvalue]
      have hexponent : exponent + ((digit :: rest).length : ℤ) - 1 - (rest.length : ℤ) =
          exponent := by
        rw [List.length_cons]
        push_cast
        ring
      rw [hexponent]

/-! ## What is written reads back -/

section

variable {q : ℚ} {rest : Text}

theorem spells_positiveText (h : IsBinary64 q) (hpos : 0 < q) :
    ∃ r, Spells (positiveText q) r ∧ nearest r = q := by
  obtain ⟨d, hd⟩ := exists_shortest h hpos
  obtain ⟨hnearest, hsignificand⟩ := of_shortest hpos hd
  refine ⟨d.value, ?_, hnearest⟩
  unfold positiveText
  rw [hd]
  exact spells_text hsignificand

theorem readUnsigned_positiveText (h : IsBinary64 q) (hpos : 0 < q) (hr : Delimited rest) :
    readUnsigned (positiveText q ++ rest) = some (.finite q h, rest) := by
  obtain ⟨r, ⟨whole, fraction, exponent, htext, hw, hf, he, hvalue⟩, hnearest⟩ :=
    spells_positiveText h hpos
  rw [htext, readUnsigned_spelled hw hf he hr, hvalue, numberOf_of_nearest hnearest h]

theorem positiveText_cons (h : IsBinary64 q) (hpos : 0 < q) :
    ∃ c tail, positiveText q = c :: tail ∧ c.isDigit = true := by
  obtain ⟨_, ⟨whole, fraction, exponent, htext, hw, _⟩, _⟩ := spells_positiveText h hpos
  obtain ⟨c, tail, rfl⟩ := List.exists_cons_of_ne_nil hw.ne_nil
  exact ⟨c, _, htext, hw.all c List.mem_cons_self⟩

theorem readNumber_of_isDigit {c : Char} (h : c.isDigit = true) (s : Text) :
    readNumber (c :: s) = readUnsigned (c :: s) := by
  unfold readNumber
  split
  · next heq =>
    obtain ⟨rfl, _⟩ := List.cons.inj heq
    exact absurd h (by decide)
  · rfl

theorem readNumber_minus (s : Text) :
    readNumber ('-' :: s) = (readUnsigned s).map fun r => (r.1.neg, r.2) := rfl

theorem readNumber_zero (hr : Delimited rest) : readNumber ('0' :: rest) = some (.zero, rest) := by
  rw [readNumber_of_isDigit (by decide)]
  have hwhole : IsWhole ['0'] := ⟨allDigits_replicate 1, by simp, fun _ => rfl⟩
  have hfraction : AllDigits [] := fun _ hc => absurd hc List.not_mem_nil
  have hread : readUnsigned (spelled ['0'] [] none ++ rest) = _ :=
    readUnsigned_spelled hwhole hfraction nofun hr
  rw [show spelled ['0'] [] none ++ rest = '0' :: rest from rfl] at hread
  rw [hread]
  have hvalue : ((Nat.ofDigitChars 10 (['0'] ++ []) 0 : ℕ) : ℚ) *
      10 ^ (exponentOf none - (([] : Text).length : ℤ)) = 0 := by
    rw [show Nat.ofDigitChars 10 (['0'] ++ []) 0 = 0 from rfl, Nat.cast_zero, zero_mul]
  rw [hvalue, numberOf_of_isBinary64 isBinary64_zero]
  rfl

/-- The text of a finite number: a zero, a sign before that of a positive one, or that. -/
theorem numberText_cases {x : Number} (hx : x.isFinite = true) :
    (numberText x = ['0'] ∧ x.unsigned = .zero) ∨
      (∃ value h, x = .finite value h ∧ value < 0 ∧
        numberText x = '-' :: positiveText (-value)) ∨
      ∃ value h, x = .finite value h ∧ 0 < value ∧ numberText x = positiveText value := by
  cases x with
  | notANumber => exact nomatch hx
  | infinity negative => exact nomatch hx
  | negativeZero => exact Or.inl ⟨rfl, rfl⟩
  | finite value h =>
    by_cases hzero : value = 0
    · subst hzero
      exact Or.inl ⟨rfl, rfl⟩
    by_cases hnegative : value < 0
    · refine Or.inr (Or.inl ⟨value, h, rfl, hnegative, ?_⟩)
      simp only [numberText, if_neg hzero, if_pos hnegative]
    · have hpos : 0 < value := lt_of_le_of_ne (not_lt.mp hnegative) (Ne.symm hzero)
      refine Or.inr (Or.inr ⟨value, h, rfl, hpos, ?_⟩)
      simp only [numberText, if_neg hzero, if_neg hnegative]

/-- A finite number reads back, but for the sign of a zero. -/
theorem readNumber_numberText {x : Number} (hx : x.isFinite = true) (hr : Delimited rest) :
    readNumber (numberText x ++ rest) = some (x.unsigned, rest) := by
  rcases numberText_cases hx with ⟨htext, hzero⟩ | ⟨value, h, rfl, hnegative, htext⟩ |
    ⟨value, h, rfl, hpos, htext⟩
  · rw [htext, hzero]
    exact readNumber_zero hr
  · rw [htext, List.cons_append, readNumber_minus,
      readUnsigned_positiveText h.neg (neg_pos.mpr hnegative) hr, Option.map_some,
      Number.neg_finite h.neg (neg_ne_zero.mpr hnegative.ne),
      Number.finite_congr (neg_neg value) _ h, Number.unsigned]
  · have hread := readUnsigned_positiveText h hpos hr
    obtain ⟨c, tail, hcons, hdigit⟩ := positiveText_cons h hpos
    rw [htext]
    rw [hcons, List.cons_append] at hread ⊢
    rw [readNumber_of_isDigit hdigit, hread]
    rfl

/-- The text of a finite number begins with a digit, or with a sign. -/
theorem numberText_cons {x : Number} (hx : x.isFinite = true) :
    ∃ c tail, numberText x = c :: tail ∧ (c.isDigit = true ∨ c = '-') := by
  rcases numberText_cases hx with ⟨htext, _⟩ | ⟨value, _, _, _, htext⟩ |
    ⟨value, h, _, hpos, htext⟩
  · exact ⟨'0', [], htext, Or.inl (by decide)⟩
  · exact ⟨'-', _, htext, Or.inr rfl⟩
  · obtain ⟨c, tail, hcons, hdigit⟩ := positiveText_cons h hpos
    exact ⟨c, tail, htext.trans hcons, Or.inl hdigit⟩

end

end Infra
