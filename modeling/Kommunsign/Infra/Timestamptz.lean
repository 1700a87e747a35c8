import Kommunsign.Infra.JsonRoundtrip

/-!
# `timestamptz` values, and `to_char` of them

A value is a time of the calendar in UTC, or one of the two infinities. `to_char` with the pattern
`YYYY-MM-DD"T"HH24:MI:SS.US"Z"` is null for an infinity, and writes a year before the era as the
year that it is: the second year before the era and the second year of it are both `0002`.

* `Timestamptz` — a value
* `toChar` — its text
* `EraAlike` — the same value, but for the era or the sign of the infinity
* `toChar_eq_iff` — texts are equal exactly then
-/

namespace Infra

def isLeapYear (year : Int) : Bool := year % 4 = 0 ∧ (year % 100 ≠ 0 ∨ year % 400 = 0)

def daysInMonth (year : Int) (month : Nat) : Nat :=
  if month = 2 then (if isLeapYear year then 29 else 28)
  else if month ∈ [4, 6, 9, 11] then 30
  else 31

theorem daysInMonth_le (year : Int) (month : Nat) : daysInMonth year month ≤ 31 := by
  unfold daysInMonth
  split
  · split <;> omega
  · split <;> omega

/-- Years are counted as astronomers do: the year before year 1 is 0. -/
structure CivilTime where
  year : Int
  month : Nat
  day : Nat
  hour : Nat
  minute : Nat
  second : Nat
  microsecond : Nat
  valid : (1 ≤ month ∧ month ≤ 12) ∧ (1 ≤ day ∧ day ≤ daysInMonth year month) ∧ hour < 24 ∧
    minute < 60 ∧ second < 60 ∧ microsecond < 1000000
  deriving DecidableEq

inductive Timestamptz where
  | minusInfinity
  | finite (time : CivilTime)
  | infinity
  deriving DecidableEq

/-! ## Digits -/

/-- The digits of a number, at least `width` of them. -/
def padded (width n : Nat) : Text :=
  List.replicate (width - (Nat.toDigits 10 n).length) '0' ++ Nat.toDigits 10 n

theorem length_padded {width n : Nat} (hwidth : 0 < width) (h : n < 10 ^ width) :
    (padded width n).length = width := by
  have hle := (Nat.length_toDigits_le_iff (by decide) hwidth).mpr h
  unfold padded
  rw [List.length_append, List.length_replicate]
  omega

theorem ofDigitChars_padded (width n : Nat) : Nat.ofDigitChars 10 (padded width n) 0 = n := by
  rw [padded, Nat.ofDigitChars_append, Nat.ofDigitChars_replicate_zero, Nat.mul_zero,
    Nat.ofDigitChars_ten_toDigits]

theorem padded_injective (width : Nat) : Function.Injective (padded width) := by
  intro n m h
  rw [← ofDigitChars_padded width n, h, ofDigitChars_padded]

theorem isDigit_of_mem_padded {width n : Nat} {c : Char} (h : c ∈ padded width n) :
    c.isDigit = true := by
  rcases List.mem_append.mp h with h | h
  · rw [List.eq_of_mem_replicate h]
    decide
  · exact Nat.isDigit_of_mem_toDigits (by decide) (by decide) h

theorem digit_lt {c : Char} (h : c.isDigit = true) : 48 ≤ c.toNat ∧ c.toNat < 58 := by
  rw [Char.isDigit, Bool.and_eq_true, decide_eq_true_eq, decide_eq_true_eq] at h
  have hle : c.toNat ≤ 57 := h.2
  exact ⟨h.1, by omega⟩

theorem ofDigitChars_lt {s : Text} (h : ∀ c ∈ s, c.isDigit = true) :
    Nat.ofDigitChars 10 s 0 < 10 ^ s.length := by
  induction s with
  | nil => exact Nat.one_pos
  | cons c s ih =>
    rw [List.forall_mem_cons] at h
    have hc := digit_lt h.1
    have hs := ih h.2
    have hle : 10 ^ s.length * (c.toNat - '0'.toNat) ≤ 10 ^ s.length * 9 := by
      refine Nat.mul_le_mul_left _ ?_
      show c.toNat - 48 ≤ 9
      omega
    rw [Nat.ofDigitChars_cons, Nat.ofDigitChars_eq_ofDigitChars_zero, List.length_cons, Nat.pow_succ,
      Nat.mul_zero, Nat.zero_add]
    omega

/-- Digits of one number and one width are the same. -/
theorem eq_of_ofDigitChars_eq {s t : Text} (hs : ∀ c ∈ s, c.isDigit = true)
    (ht : ∀ c ∈ t, c.isDigit = true) (hlength : s.length = t.length)
    (h : Nat.ofDigitChars 10 s 0 = Nat.ofDigitChars 10 t 0) : s = t := by
  induction s generalizing t with
  | nil => exact (List.length_eq_zero_iff.mp hlength.symm).symm
  | cons c s ih =>
    cases t with
    | nil => exact nomatch hlength
    | cons d t =>
      rw [List.forall_mem_cons] at hs ht
      have hrest : s.length = t.length := Nat.succ.inj hlength
      have hc := digit_lt hs.1
      have hd := digit_lt ht.1
      have hslt := ofDigitChars_lt hs.2
      have htlt := ofDigitChars_lt ht.2
      rw [Nat.ofDigitChars_cons, Nat.ofDigitChars_cons, Nat.ofDigitChars_eq_ofDigitChars_zero,
        Nat.ofDigitChars_eq_ofDigitChars_zero (l := t), Nat.mul_zero, Nat.zero_add, Nat.zero_add,
        hrest] at h
      rw [hrest] at hslt
      have hpos : 0 < 10 ^ t.length := Nat.pow_pos (by decide)
      have hdigit : c.toNat - '0'.toNat = d.toNat - '0'.toNat := by
        have hdiv := congrArg (· / 10 ^ t.length) h
        simpa [Nat.mul_add_div hpos, Nat.div_eq_of_lt hslt, Nat.div_eq_of_lt htlt] using hdiv
      have hvalue : Nat.ofDigitChars 10 s 0 = Nat.ofDigitChars 10 t 0 := by
        rw [hdigit] at h
        omega
      have hchar : c = d := by
        refine Char.toNat_inj.mp ?_
        have hzero : '0'.toNat = 48 := rfl
        omega
      rw [hchar, ih hs.2 ht.2 hrest hvalue]

/-- The digits of a text are those of its number. -/
theorem padded_ofDigitChars {s : Text} (h : ∀ c ∈ s, c.isDigit = true) (hne : s ≠ []) :
    padded s.length (Nat.ofDigitChars 10 s 0) = s := by
  have hlength := length_padded (List.length_pos_iff.mpr hne) (ofDigitChars_lt h)
  exact eq_of_ofDigitChars_eq (fun c hc => isDigit_of_mem_padded hc) h hlength
    (ofDigitChars_padded _ _)

/-- A number of a fixed width is read off what begins with it. -/
theorem padded_append_inj {width n m : Nat} {s t : Text} (hwidth : 0 < width) (hn : n < 10 ^ width)
    (hm : m < 10 ^ width) (h : padded width n ++ s = padded width m ++ t) : n = m ∧ s = t := by
  obtain ⟨hdigits, hrest⟩ := List.append_inj h
    ((length_padded hwidth hn).trans (length_padded hwidth hm).symm)
  exact ⟨padded_injective width hdigits, hrest⟩

/-! ## Text -/

namespace CivilTime

/-- The year of its era. -/
def eraYear (t : CivilTime) : Nat := if t.year ≤ 0 then (1 - t.year).toNat else t.year.toNat

/-- The text from the month on. -/
def inYear (t : CivilTime) : Text :=
  padded 2 t.month ++ ('-' :: (padded 2 t.day ++ ('T' :: (padded 2 t.hour ++
    (':' :: (padded 2 t.minute ++ (':' :: (padded 2 t.second ++
      ('.' :: (padded 6 t.microsecond ++ ['Z']))))))))))

def toChar (t : CivilTime) : Text := padded 4 t.eraYear ++ '-' :: t.inYear

/-- The same but for the era. -/
def EraAlike (t u : CivilTime) : Prop :=
  (t.year = u.year ∨ t.year + u.year = 1) ∧ t.month = u.month ∧ t.day = u.day ∧ t.hour = u.hour ∧
    t.minute = u.minute ∧ t.second = u.second ∧ t.microsecond = u.microsecond

instance (t u : CivilTime) : Decidable (EraAlike t u) := inferInstanceAs (Decidable (_ ∧ _))

theorem eraYear_eq_iff {t u : CivilTime} :
    t.eraYear = u.eraYear ↔ t.year = u.year ∨ t.year + u.year = 1 := by
  unfold eraYear
  split <;> split <;> omega

/-- Every number of the text has the digits that it is given. -/
theorem bounds (t : CivilTime) : t.month < 10 ^ 2 ∧ t.day < 10 ^ 2 ∧ t.hour < 10 ^ 2 ∧
    t.minute < 10 ^ 2 ∧ t.second < 10 ^ 2 ∧ t.microsecond < 10 ^ 6 := by
  obtain ⟨⟨_, hmonth⟩, ⟨_, hday⟩, hhour, hminute, hsecond, hmicro⟩ := t.valid
  have hdays := daysInMonth_le t.year t.month
  omega

theorem length_inYear (t : CivilTime) : t.inYear.length = 22 := by
  obtain ⟨hmonth, hday, hhour, hminute, hsecond, hmicro⟩ := t.bounds
  unfold inYear
  simp only [List.length_append, List.length_cons, List.length_nil]
  rw [length_padded (by decide) hmonth, length_padded (by decide) hday,
    length_padded (by decide) hhour, length_padded (by decide) hminute,
    length_padded (by decide) hsecond, length_padded (by decide) hmicro]

theorem inYear_eq {t u : CivilTime} (h : t.inYear = u.inYear) :
    t.month = u.month ∧ t.day = u.day ∧ t.hour = u.hour ∧ t.minute = u.minute ∧
      t.second = u.second ∧ t.microsecond = u.microsecond := by
  obtain ⟨hmonth, hday, hhour, hminute, hsecond, hmicro⟩ := t.bounds
  obtain ⟨hmonth', hday', hhour', hminute', hsecond', hmicro'⟩ := u.bounds
  unfold inYear at h
  obtain ⟨h₁, h⟩ := padded_append_inj (by decide) hmonth hmonth' h
  obtain ⟨h₂, h⟩ := padded_append_inj (by decide) hday hday' (List.cons.inj h).2
  obtain ⟨h₃, h⟩ := padded_append_inj (by decide) hhour hhour' (List.cons.inj h).2
  obtain ⟨h₄, h⟩ := padded_append_inj (by decide) hminute hminute' (List.cons.inj h).2
  obtain ⟨h₅, h⟩ := padded_append_inj (by decide) hsecond hsecond' (List.cons.inj h).2
  obtain ⟨h₆, h⟩ := padded_append_inj (by decide) hmicro hmicro' (List.cons.inj h).2
  exact ⟨h₁, h₂, h₃, h₄, h₅, h₆⟩

theorem toChar_eq_iff {t u : CivilTime} : t.toChar = u.toChar ↔ EraAlike t u := by
  constructor
  · intro h
    -- what follows the year has one length
    obtain ⟨hyear, hrest⟩ := List.append_inj' h (by simp [length_inYear])
    exact ⟨eraYear_eq_iff.mp (padded_injective 4 hyear), inYear_eq (List.cons.inj hrest).2⟩
  · rintro ⟨hyear, hmonth, hday, hhour, hminute, hsecond, hmicro⟩
    unfold toChar inYear
    rw [eraYear_eq_iff.mpr hyear, hmonth, hday, hhour, hminute, hsecond, hmicro]

end CivilTime

namespace Timestamptz

/-- `to_char(t at time zone 'UTC', 'YYYY-MM-DD"T"HH24:MI:SS.US"Z"')` -/
def toChar : Timestamptz → Option Text
  | .finite t => some t.toChar
  | _ => none

def EraAlike : Timestamptz → Timestamptz → Prop
  | .finite t, .finite u => t.EraAlike u
  | .finite _, _ | _, .finite _ => False
  | _, _ => True

theorem toChar_eq_iff {t u : Timestamptz} : t.toChar = u.toChar ↔ EraAlike t u := by
  cases t with
  | finite t =>
    cases u with
    | finite u => exact (Option.some_inj).trans CivilTime.toChar_eq_iff
    | minusInfinity => exact ⟨nofun, False.elim⟩
    | infinity => exact ⟨nofun, False.elim⟩
  | minusInfinity =>
    cases u with
    | finite u => exact ⟨nofun, False.elim⟩
    | minusInfinity => exact ⟨fun _ => trivial, fun _ => rfl⟩
    | infinity => exact ⟨fun _ => trivial, fun _ => rfl⟩
  | infinity =>
    cases u with
    | finite u => exact ⟨nofun, False.elim⟩
    | minusInfinity => exact ⟨fun _ => trivial, fun _ => rfl⟩
    | infinity => exact ⟨fun _ => trivial, fun _ => rfl⟩

end Timestamptz

end Infra
