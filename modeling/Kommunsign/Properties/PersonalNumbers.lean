import Kommunsign.Infra.Transaction
import Kommunsign.Signing.PersonalNumber

/-!
# The number of a person

A number is a date of birth and four digits, the last of which makes the checksum right. It is
written with twelve digits, or with ten while the person is under a hundred.

* `PersonalNumber` — a number
* `inferCentury_eq` — the century of a person under a hundred
-/

namespace Kommunsign

open Infra

/-! ## Numbers -/

def digitSum (n : ℕ) : ℕ := n / 10 + n % 10

def luhnTotal : List ℕ → ℕ
  | [] => 0
  | [d] => digitSum (2 * d)
  | d :: e :: rest => digitSum (2 * d) + e + luhnTotal rest

def digitOf (c : Char) : ℕ := c.toNat - '0'.toNat

/-- A year, or the last two digits of one, a month, a day and a serial number. -/
def numberText (width year month day serial : ℕ) : Text :=
  padded width year ++ (padded 2 month ++ (padded 2 day ++ padded 4 serial))

/-- A personal identity number. Nobody with a number was born in one of the first hundred years. -/
@[ext]
structure PersonalNumber where
  year : ℕ
  month : ℕ
  day : ℕ
  serial : ℕ
  year_bounds : 100 ≤ year ∧ year < 10000
  isDate : IsDate year month day
  serial_lt : serial < 10000
  checksum : luhnTotal ((numberText 2 (year % 100) month day serial).map digitOf) % 10 = 0

namespace PersonalNumber

def twelve (n : PersonalNumber) : Text := numberText 4 n.year n.month n.day n.serial

def ten (n : PersonalNumber) : Text := numberText 2 (n.year % 100) n.month n.day n.serial

def BornBy (referenceDate : ℤ) (n : PersonalNumber) : Prop :=
  utcDay n.year (n.month - 1) n.day * 86400000 ≤ referenceDate

def IsUnderHundred (referenceDate : ℤ) (n : PersonalNumber) : Prop :=
  referenceDate < utcDay (n.year + 100) (n.month - 1) n.day * 86400000

end PersonalNumber

/-! ## Texts of digits -/

theorem readInteger_of_isDigit {s : Text} (h : ∀ c ∈ s, c.isDigit = true) (hne : s ≠ []) :
    readInteger s = some ((Nat.ofDigitChars 10 s 0 : ℕ) : ℤ) := by
  have hall : s.all Char.isDigit = true := List.all_eq_true.mpr h
  match s, hne with
  | c :: rest, hne =>
    have hminus : c ≠ '-' := by
      rintro rfl
      exact absurd (h '-' List.mem_cons_self) (by decide)
    unfold readInteger
    split
    · next heq => exact absurd (List.cons.inj heq).1 hminus
    · rw [if_pos ⟨hne, hall⟩]

theorem readInteger_padded {width : ℕ} (hwidth : 0 < width) {n : ℕ} (h : n < 10 ^ width) :
    readInteger (padded width n) = some ((n : ℕ) : ℤ) := by
  have hne : padded width n ≠ [] := by
    intro hnil
    have hlength := length_padded hwidth h
    rw [hnil] at hlength
    exact absurd hlength.symm hwidth.ne'
  rw [readInteger_of_isDigit (fun c hc => isDigit_of_mem_padded hc) hne, ofDigitChars_padded]

theorem yearText_eq {year : ℕ} : yearText year = padded 4 year := by
  have hnat : ((year : ℤ)).natAbs = year := Int.natAbs_natCast year
  unfold yearText padded
  rw [if_neg (by omega), hnat]

theorem padded_four {year : ℕ} (h : year < 10000) :
    padded 4 year = padded 2 (year / 100) ++ padded 2 (year % 100) := by
  have hhigh : year / 100 < 10 ^ 2 := by omega
  have hlow : year % 100 < 10 ^ 2 := by omega
  apply eq_of_ofDigitChars_eq
  · exact fun c hc => isDigit_of_mem_padded hc
  · exact fun c hc => (List.mem_append.mp hc).elim isDigit_of_mem_padded isDigit_of_mem_padded
  · rw [List.length_append, length_padded (by decide) h, length_padded (by decide) hhigh,
      length_padded (by decide) hlow]
  · rw [ofDigitChars_padded, Nat.ofDigitChars_append, ofDigitChars_padded,
      Nat.ofDigitChars_eq_ofDigitChars_zero, ofDigitChars_padded, length_padded (by decide) hlow]
    omega

section

variable {year month day serial : ℕ}

theorem isDigit_of_mem_numberText {width : ℕ} {c : Char} (h : c ∈ numberText width year month day serial) :
    c.isDigit = true := by
  unfold numberText at h
  simp only [List.mem_append] at h
  rcases h with h | h | h | h <;> exact isDigit_of_mem_padded h

theorem drop_numberText (hyear : year < 10000) :
    (numberText 4 year month day serial).drop 2 = numberText 2 (year % 100) month day serial := by
  have hlength : (padded 2 (year / 100)).length = 2 := length_padded (by decide) (by omega)
  unfold numberText
  rw [padded_four hyear, List.append_assoc, List.drop_left' hlength]

theorem parts_numberText {width : ℕ} (hwidth : 0 < width) (hyear : year < 10 ^ width) (hmonth : month < 100)
    (hday : day < 100) (hserial : serial < 10000) :
    (numberText width year month day serial).take width = padded width year ∧
      ((numberText width year month day serial).drop width).take 2 = padded 2 month ∧
      ((numberText width year month day serial).drop (width + 2)).take 2 = padded 2 day ∧
      (numberText width year month day serial).length = width + 8 := by
  have hlengths := length_padded hwidth hyear
  have hlengthm : (padded 2 month).length = 2 := length_padded (by decide) hmonth
  have hlengthd : (padded 2 day).length = 2 := length_padded (by decide) hday
  have hlengthk : (padded 4 serial).length = 4 := length_padded (by decide) hserial
  unfold numberText
  refine ⟨List.take_left' hlengths, ?_, ?_, ?_⟩
  · rw [List.drop_left' hlengths, List.take_left' hlengthm]
  · rw [← List.drop_drop, List.drop_left' hlengths, List.drop_left' hlengthm,
      List.take_left' hlengthd]
  · simp only [List.length_append, hlengths, hlengthm, hlengthd, hlengthk]

theorem exists_numberText {s : Text} (hs : ∀ c ∈ s, c.isDigit = true) {width : ℕ}
    (hwidth : 0 < width) (hlength : s.length = width + 8) : ∃ year month day serial, year < 10 ^ width ∧ month < 100 ∧
      day < 100 ∧ serial < 10000 ∧ s = numberText width year month day serial := by
  -- the text as four texts
  obtain ⟨a, b, c, d, rfl, ha, hb, hc, hd⟩ : ∃ a b c d : Text, s = a ++ (b ++ (c ++ d)) ∧
      a.length = width ∧ b.length = 2 ∧ c.length = 2 ∧ d.length = 4 := by
    refine ⟨s.take width, (s.drop width).take 2, ((s.drop width).drop 2).take 2,
      ((s.drop width).drop 2).drop 2, ?_, ?_, ?_, ?_, ?_⟩
    · rw [List.take_append_drop, List.take_append_drop, List.take_append_drop]
    all_goals
      simp only [List.length_take, List.length_drop, hlength]
      omega
  simp only [List.forall_mem_append] at hs
  obtain ⟨hsa, hsb, hsc, hsd⟩ := hs
  have hne : ∀ {t : Text} {n : ℕ}, t.length = n → 0 < n → t ≠ [] := by
    rintro t n rfl hpos
    exact List.length_pos_iff.mp hpos
  have hlta := ofDigitChars_lt hsa
  have hltb := ofDigitChars_lt hsb
  have hltc := ofDigitChars_lt hsc
  have hltd := ofDigitChars_lt hsd
  have hpa := padded_ofDigitChars hsa (hne ha hwidth)
  have hpb := padded_ofDigitChars hsb (hne hb (by decide))
  have hpc := padded_ofDigitChars hsc (hne hc (by decide))
  have hpd := padded_ofDigitChars hsd (hne hd (by decide))
  rw [ha] at hlta hpa
  rw [hb] at hltb hpb
  rw [hc] at hltc hpc
  rw [hd] at hltd hpd
  refine ⟨_, _, _, _, hlta, hltb, hltc, hltd, ?_⟩
  unfold numberText
  rw [hpa, hpb, hpc, hpd]

end

/-! ## Dates -/

theorem utcDay_of_le {year month date : ℤ} (h : 100 ≤ year) :
    utcDay year month date = makeDay year month date := by
  unfold utcDay
  rw [if_neg (by omega)]

theorem isCalendarDate_iff {year month day : ℕ} :
    isCalendarDate (some year) (some month) (some day) = true ↔
      100 ≤ year ∧ IsDate year month day := by
  unfold isCalendarDate
  simp only [Bool.and_eq_true, beq_iff_eq]
  constructor
  · rintro ⟨⟨hyear, hmonth⟩, hday⟩
    have hlocate : 0 ≤ monthFromDay (utcDay year (month - 1) day) := Int.natCast_nonneg _
    have hdate := isDate_parts _ hmonth hday (by omega)
    rw [hyear] at hdate
    refine ⟨?_, hdate⟩
    -- the years below would be in the twentieth century
    by_contra hlt
    obtain ⟨m, rfl⟩ : ∃ m, month = m + 1 := ⟨month - 1, by have := hdate.1; omega⟩
    have hcast : ((m + 1 : ℕ) : ℤ) - 1 = m := by omega
    have hm : m < 12 := by
      have := hdate.1
      omega
    have hday : 1 ≤ (day : ℤ) := by
      have := hdate.2
      omega
    have hle : 1900 + (year : ℤ) ≤ yearFromDay (makeDay (1900 + year) m day) :=
      le_yearFromDay_makeDay hm hday
    unfold utcDay at hyear
    rw [if_pos (by omega), hcast] at hyear
    omega
  · rintro ⟨hyear, hdate⟩
    obtain ⟨h₁, h₂, h₃⟩ := parts_makeDay hdate
    rw [utcDay_of_le (by omega)]
    exact ⟨⟨h₁, h₂⟩, h₃⟩

theorem makeDay_bounds {year' : ℤ} {month day : ℕ} (h : IsDate year' month day) (year : ℤ) :
    dayFromYear year ≤ makeDay year (month - 1) day ∧
      makeDay year (month - 1) day < dayFromYear (year + 1) := by
  obtain ⟨hmonth, hday⟩ := h
  obtain ⟨m, rfl⟩ : ∃ m, month = m + 1 := ⟨month - 1, by omega⟩
  have hcast : ((m + 1 : ℕ) : ℤ) - 1 = m := by omega
  have hm : m < 12 := by omega
  have hdays := daysInMonth_le year' (m + 1)
  have hbefore : 0 ≤ daysBefore year m ∧ daysBefore year m + 31 ≤ 365 + leapDay year := by
    have hleap := leapDay_bounds year
    unfold daysBefore monthLengths
    interval_cases m <;> simp <;> omega
  rw [hcast, makeDay_of_lt year hm, dayFromYear_succ]
  omega

/-! ## The checksum -/

theorem luhnSum_eq : ∀ {s : Text} (index : ℕ), (∀ c ∈ s, c.isDigit = true) → index % 2 = 0 →
    luhnSum index s = luhnTotal (s.map digitOf)
  | [], _, _, _ => rfl
  | [c], index, hs, hindex => by
    have hc := digit_lt (hs c List.mem_cons_self)
    simp only [luhnSum, luhnTotal, List.map_cons, List.map_nil, digitSum, hindex, if_true, digitOf]
    rw [show '0'.toNat = 48 from rfl]
    split <;> omega
  | c :: d :: s, index, hs, hindex => by
    rw [List.forall_mem_cons, List.forall_mem_cons] at hs
    obtain ⟨hc, hd, hs⟩ := hs
    have hc := digit_lt hc
    have hd := digit_lt hd
    have hodd : (index + 1) % 2 ≠ 0 := by omega
    have ih := luhnSum_eq (index + 1 + 1) hs (by omega)
    simp only [luhnSum, luhnTotal, List.map_cons, digitSum, hindex, if_true, if_neg hodd, digitOf,
      ih]
    rw [show '0'.toNat = 48 from rfl]
    split <;> split <;> omega

theorem luhnValid_iff {s : Text} (hs : ∀ c ∈ s, c.isDigit = true) (hlength : s.length = 10) :
    luhnValid s = true ↔ luhnTotal (s.map digitOf) % 10 = 0 := by
  unfold luhnValid
  rw [List.all_eq_true.mpr hs, luhnSum_eq 0 hs rfl, hlength]
  simp

/-! ## Twelve digits -/

def IsAcceptable (twelve : Text) : Prop :=
  isCalendarDate (readInteger (twelve.take 4)) (readInteger ((twelve.drop 4).take 2))
    (readInteger ((twelve.drop 6).take 2)) = true ∧ luhnValid (twelve.drop 2) = true

section

variable {year month day serial : ℕ}

theorem isAcceptable_numberText (hyear : year < 10000) (hmonth : month < 100) (hday : day < 100)
    (hserial : serial < 10000) : IsAcceptable (numberText 4 year month day serial) ↔
      100 ≤ year ∧ IsDate year month day ∧
        luhnTotal ((numberText 2 (year % 100) month day serial).map digitOf) % 10 = 0 := by
  have hfour : year < 10 ^ 4 := hyear
  have htwo : year % 100 < 10 ^ 2 := Nat.mod_lt _ (by decide)
  obtain ⟨h₁, h₂, h₃, -⟩ := parts_numberText (by decide) hfour hmonth hday hserial
  obtain ⟨-, -, -, hten⟩ := parts_numberText (by decide) htwo hmonth hday hserial
  unfold IsAcceptable
  rw [h₁, h₂, h₃, readInteger_padded (by decide) hyear, readInteger_padded (by decide) hmonth,
    readInteger_padded (by decide) hday, isCalendarDate_iff, drop_numberText hyear,
    luhnValid_iff (fun c hc => isDigit_of_mem_numberText hc) hten, and_assoc]

theorem isAcceptable_iff {s : Text} (hs : ∀ c ∈ s, c.isDigit = true) (hlength : s.length = 12) :
    IsAcceptable s ↔ ∃ n : PersonalNumber, s = n.twelve := by
  constructor
  · intro h
    obtain ⟨year, month, day, serial, hyear, hmonth, hday, hserial, rfl⟩ :=
      exists_numberText hs (show 0 < 4 by decide) hlength
    obtain ⟨hhundred, hdate, hchecksum⟩ :=
      (isAcceptable_numberText hyear hmonth hday hserial).mp h
    exact ⟨⟨year, month, day, serial, ⟨hhundred, hyear⟩, hdate, hserial, hchecksum⟩, rfl⟩
  · rintro ⟨n, rfl⟩
    have hdays := daysInMonth_le n.year n.month
    have hdate := n.isDate
    unfold IsDate at hdate
    exact (isAcceptable_numberText n.year_bounds.2 (by omega) (by omega) n.serial_lt).mpr
      ⟨n.year_bounds.1, n.isDate, n.checksum⟩

end

/-! ## The century of two digits -/

structure ReferenceDate where
  time : ℤ
  year_bounds : 100 ≤ yearFromDay (dayOfTime time) ∧ yearFromDay (dayOfTime time) < 10000

def inferredYear (referenceDate : ℤ) (yearTwo month day : ℕ) : ℤ :=
  let year := yearFromDay (dayOfTime referenceDate) / 100 * 100 + yearTwo
  if utcDay year (month - 1) day * 86400000 > referenceDate then year - 100 else year

theorem inferCentury_numberText {yearTwo month day serial : ℕ} (hyear : yearTwo < 100)
    (hmonth : month < 100) (hday : day < 100) (hserial : serial < 10000) (referenceDate : ℤ) :
    inferCentury (numberText 2 yearTwo month day serial) referenceDate =
      yearText (inferredYear referenceDate yearTwo month day) ++
        (padded 2 month ++ (padded 2 day ++ padded 4 serial)) := by
  have htwo : yearTwo < 10 ^ 2 := hyear
  obtain ⟨h₁, h₂, h₃, -⟩ := parts_numberText (by decide) htwo hmonth hday hserial
  have hrest : (numberText 2 yearTwo month day serial).drop 2 =
      padded 2 month ++ (padded 2 day ++ padded 4 serial) := by
    unfold numberText
    exact List.drop_left' (length_padded (by decide) htwo)
  unfold inferCentury inferredYear
  rw [h₁, h₂, h₃, ofDigitChars_padded, ofDigitChars_padded, ofDigitChars_padded, hrest]

section

variable {ref : ReferenceDate} {yearTwo month day : ℕ}

theorem inferredYear_bounds (ref : ReferenceDate) (month day : ℕ) (hyear : yearTwo < 100) :
    0 ≤ inferredYear ref.time yearTwo month day ∧
      inferredYear ref.time yearTwo month day < 10000 ∧
      inferredYear ref.time yearTwo month day % 100 = yearTwo := by
  have hbounds := ref.year_bounds
  unfold inferredYear
  dsimp only
  split <;> omega

theorem le_iff_dayOfTime {day time : ℤ} : day * 86400000 ≤ time ↔ day ≤ dayOfTime time := by
  unfold dayOfTime
  omega

theorem inferredYear_iff {year : ℕ} (hyear : yearTwo = year % 100) (hhundred : 100 ≤ year)
    (hdate : IsDate year month day) : inferredYear ref.time yearTwo month day = year ↔
      utcDay year (month - 1) day * 86400000 ≤ ref.time ∧
        ref.time < utcDay (year + 100) (month - 1) day * 86400000 := by
  have hbounds := ref.year_bounds
  obtain ⟨hlow, hhigh⟩ := dayFromYear_yearFromDay (dayOfTime ref.time)
  rw [← not_le, le_iff_dayOfTime, le_iff_dayOfTime, utcDay_of_le (by omega),
    utcDay_of_le (by omega)]
  unfold inferredYear
  dsimp only
  generalize hcurrent : yearFromDay (dayOfTime ref.time) = current at hbounds hlow hhigh ⊢
  have hcandidate : utcDay (current / 100 * 100 + yearTwo) (month - 1) day =
      makeDay (current / 100 * 100 + yearTwo) (month - 1) day := utcDay_of_le (by omega)
  have hlater_iff : utcDay (current / 100 * 100 + yearTwo) (month - 1) day * 86400000 > ref.time ↔
      ¬makeDay (current / 100 * 100 + yearTwo) (month - 1) day ≤ dayOfTime ref.time := by
    rw [hcandidate, gt_iff_lt, ← not_le, le_iff_dayOfTime]
  have hthis := makeDay_bounds hdate year
  have hnext := makeDay_bounds hdate (year + 100)
  constructor
  · intro h
    split at h
    · next hlater =>
      rw [hlater_iff] at hlater
      -- the birth is in the century before
      have hcentury : current / 100 * 100 + (yearTwo : ℤ) = year + 100 := by omega
      rw [hcentury] at hlater
      have hmono := dayFromYear_mono (show (year : ℤ) + 1 ≤ current by omega)
      exact ⟨by omega, hlater⟩
    · next hearlier =>
      rw [hlater_iff, h] at hearlier
      have hmono := dayFromYear_mono (show current + 1 ≤ (year : ℤ) + 100 by omega)
      exact ⟨not_not.mp hearlier, by omega⟩
  · rintro ⟨hborn, hunder⟩
    -- the reference date is at most in the year of the hundredth birthday
    have hle : (year : ℤ) ≤ current := by
      rw [← hcurrent]
      exact le_yearFromDay (by omega)
    have hlt : current < year + 100 + 1 := by
      rw [← hcurrent]
      exact yearFromDay_lt (by omega)
    have hcases : current / 100 * 100 + (yearTwo : ℤ) = year ∨
        current / 100 * 100 + (yearTwo : ℤ) = year + 100 := by omega
    rcases hcases with hcentury | hcentury
    · rw [hcentury] at hlater_iff ⊢
      rw [if_neg fun hlater => hlater_iff.mp hlater hborn]
    · rw [hcentury] at hlater_iff ⊢
      rw [if_pos (hlater_iff.mpr hunder)]
      omega

end

/-! ## What is accepted -/

namespace PersonalNumber

variable {n n' : PersonalNumber}

theorem isDigit_of_mem_twelve {c : Char} (h : c ∈ n.twelve) : c.isDigit = true :=
  isDigit_of_mem_numberText h

theorem bounds (n : PersonalNumber) : n.month < 100 ∧ n.day < 100 := by
  have hdays := daysInMonth_le n.year n.month
  have hdate := n.isDate
  unfold IsDate at hdate
  omega

theorem length_twelve (n : PersonalNumber) : n.twelve.length = 12 :=
  (parts_numberText (by decide) (show n.year < 10 ^ 4 from n.year_bounds.2) n.bounds.1 n.bounds.2
    n.serial_lt).2.2.2

theorem length_ten (n : PersonalNumber) : n.ten.length = 10 :=
  (parts_numberText (by decide) (show n.year % 100 < 10 ^ 2 from Nat.mod_lt _ (by decide))
    n.bounds.1 n.bounds.2 n.serial_lt).2.2.2

theorem twelve_injective (h : n.twelve = n'.twelve) : n = n' := by
  unfold twelve numberText at h
  obtain ⟨hyear, h⟩ := padded_append_inj (by decide) n.year_bounds.2 n'.year_bounds.2 h
  obtain ⟨hmonth, h⟩ := padded_append_inj (by decide) n.bounds.1 n'.bounds.1 h
  obtain ⟨hday, h⟩ := padded_append_inj (by decide) n.bounds.2 n'.bounds.2 h
  exact PersonalNumber.ext hyear hmonth hday (padded_injective 4 h)

end PersonalNumber

def bareDigits (s : Text) : Text := s.filter fun c => !isNumberSeparator c

/-- What stands between the separators is a number, or the last digits of a living person's. -/
def Denotes (ref : ReferenceDate) (n : PersonalNumber) (digits : Text) : Prop :=
  digits = n.twelve ∨ (digits = n.ten ∧ n.BornBy ref.time ∧ n.IsUnderHundred ref.time)

theorem normalizeSwedishPersonalNumber_eq_ok {s r : Text} {time : ℤ} :
    normalizeSwedishPersonalNumber s time = .ok r ↔
      (((bareDigits s).length = 10 ∨ (bareDigits s).length = 12) ∧
        ∀ c ∈ bareDigits s, c.isDigit = true) ∧ IsAcceptable r ∧
      (if (bareDigits s).length = 12 then bareDigits s else inferCentury (bareDigits s) time) =
        r := by
  unfold normalizeSwedishPersonalNumber
  rw [← List.all_eq_true]
  constructor
  · intro h
    obtain ⟨hform, h⟩ := except_guard_eq_ok.mp h
    obtain ⟨hcheck, h⟩ := except_guard_eq_ok.mp h
    have hr := Except.ok.inj h
    rw [not_or, Bool.not_eq_false, Bool.not_eq_false] at hcheck
    refine ⟨not_not.mp hform, ?_, hr⟩
    rw [← hr]
    exact hcheck
  · rintro ⟨hform, hcheck, rfl⟩
    refine except_guard_eq_ok.mpr ⟨not_not.mpr hform, except_guard_eq_ok.mpr ⟨?_, rfl⟩⟩
    rw [not_or, Bool.not_eq_false, Bool.not_eq_false]
    exact hcheck

theorem denotes_of_ten {ref : ReferenceDate} {digits : Text}
    (hdigits : ∀ c ∈ digits, c.isDigit = true) (hlength : digits.length = 10)
    (h : IsAcceptable (inferCentury digits ref.time)) :
    ∃ n : PersonalNumber, Denotes ref n digits ∧ inferCentury digits ref.time = n.twelve := by
  obtain ⟨yearTwo, month, day, serial, hyear, hmonth, hday, hserial, rfl⟩ :=
    exists_numberText hdigits (show 0 < 2 by decide) hlength
  obtain ⟨hlow, hhigh, hmod⟩ := inferredYear_bounds ref month day hyear
  obtain ⟨year, hcast⟩ := Int.eq_ofNat_of_zero_le hlow
  have htwelve : inferCentury (numberText 2 yearTwo month day serial) ref.time =
      numberText 4 year month day serial := by
    rw [inferCentury_numberText hyear hmonth hday hserial, hcast, yearText_eq]
    rfl
  rw [htwelve] at h ⊢
  rw [hcast] at hhigh hmod
  have htwo : yearTwo = year % 100 := by omega
  obtain ⟨hhundred, hdate, hchecksum⟩ :=
    (isAcceptable_numberText (by omega) hmonth hday hserial).mp h
  refine ⟨⟨year, month, day, serial, ⟨hhundred, by omega⟩, hdate, hserial, hchecksum⟩,
    .inr ⟨?_, (inferredYear_iff htwo hhundred hdate).mp hcast⟩, rfl⟩
  rw [htwo]
  rfl

theorem inferCentury_ten {ref : ReferenceDate} {n : PersonalNumber} (hborn : n.BornBy ref.time)
    (hunder : n.IsUnderHundred ref.time) : inferCentury n.ten ref.time = n.twelve := by
  have hmod : n.year % 100 < 100 := Nat.mod_lt _ (by decide)
  have hyear : inferredYear ref.time _ _ _ = _ :=
    (inferredYear_iff rfl n.year_bounds.1 n.isDate).mpr ⟨hborn, hunder⟩
  unfold PersonalNumber.ten
  rw [inferCentury_numberText hmod n.bounds.1 n.bounds.2 n.serial_lt, hyear, yearText_eq]
  rfl

theorem normalize_iff {ref : ReferenceDate} {s r : Text} :
    normalizeSwedishPersonalNumber s ref.time = .ok r ↔
      ∃ n, Denotes ref n (bareDigits s) ∧ r = n.twelve := by
  rw [normalizeSwedishPersonalNumber_eq_ok]
  constructor
  · rintro ⟨⟨hlength, hdigits⟩, hcheck, rfl⟩
    by_cases htwelve : (bareDigits s).length = 12
    · rw [if_pos htwelve] at hcheck ⊢
      obtain ⟨n, hn⟩ := (isAcceptable_iff hdigits htwelve).mp hcheck
      exact ⟨n, .inl hn, hn⟩
    · rw [if_neg htwelve] at hcheck ⊢
      exact denotes_of_ten hdigits (hlength.resolve_right htwelve) hcheck
  · rintro ⟨n, hdenotes | ⟨hten, hborn, hunder⟩, rfl⟩
    all_goals
      have hacceptable : IsAcceptable n.twelve :=
        (isAcceptable_iff (fun c hc => PersonalNumber.isDigit_of_mem_twelve hc)
          n.length_twelve).mpr ⟨n, rfl⟩
    · rw [hdenotes, if_pos n.length_twelve]
      exact ⟨⟨.inr n.length_twelve, fun c hc => PersonalNumber.isDigit_of_mem_twelve hc⟩,
        hacceptable, rfl⟩
    · have hlength := n.length_ten
      rw [hten, if_neg (by omega), inferCentury_ten hborn hunder]
      exact ⟨⟨.inl hlength, fun c hc => isDigit_of_mem_numberText hc⟩, hacceptable, rfl⟩

/-! ## Main result -/

/-- A text without a plus whose characters, but for white space and hyphens, are the twelve digits
of a number, or the ten of somebody born by the reference date and under a hundred then. -/
def IsWritten (ref : ReferenceDate) (n : PersonalNumber) (s : Text) : Prop :=
  '+' ∉ s ∧ Denotes ref n (s.filter fun c => !(isTrimmed c || c == '-'))

theorem bareDigits_of_plus {s : Text} (h : '+' ∉ s) :
    bareDigits s = s.filter fun c => !(isTrimmed c || c == '-') := by
  refine List.filter_congr fun c hc => ?_
  have hplus : (c == '+') = false := by
    rw [beq_eq_false_iff_ne]
    rintro rfl
    exact h hc
  unfold isNumberSeparator
  rw [hplus, Bool.or_false]

theorem bareDigits_twelve (n : PersonalNumber) : bareDigits n.twelve = n.twelve := by
  refine List.filter_eq_self.mpr fun c hc => ?_
  have hdigit := digit_lt (PersonalNumber.isDigit_of_mem_twelve hc)
  have hall : ∀ m < 58, 48 ≤ m → isNumberSeparator (Char.ofNat m) = false := by decide
  have hc := hall c.toNat hdigit.2 hdigit.1
  rw [Char.ofNat_toNat] at hc
  rw [hc]
  rfl

structure NormalizesNumbers (ref : ReferenceDate) : Prop where
  written : ∀ n s, IsWritten ref n s →
    normalizeSwedishPersonalNumber s ref.time = .ok n.twelve
  distinct : ∀ n n' s s', IsWritten ref n s → IsWritten ref n' s' →
    normalizeSwedishPersonalNumber s ref.time = normalizeSwedishPersonalNumber s' ref.time → n = n'
  /-- Also with another reference date. -/
  idempotent : ∀ s r, normalizeSwedishPersonalNumber s ref.time = .ok r →
    ∀ ref' : ReferenceDate, normalizeSwedishPersonalNumber r ref'.time = .ok r
  rejected : ∀ s, '+' ∉ s → (¬∃ n, IsWritten ref n s) →
    normalizeSwedishPersonalNumber s ref.time = .error "PERSONAL_NUMBER_INVALID"

theorem eq_error_of_not_ok {s : Text} {time : ℤ}
    (h : ∀ r, normalizeSwedishPersonalNumber s time ≠ .ok r) :
    normalizeSwedishPersonalNumber s time = .error "PERSONAL_NUMBER_INVALID" := by
  cases hresult : normalizeSwedishPersonalNumber s time with
  | ok r => exact absurd hresult (h r)
  | error e =>
    unfold normalizeSwedishPersonalNumber at hresult
    rcases except_guard_eq_error hresult with rfl | hresult
    · rfl
    rcases except_guard_eq_error hresult with rfl | hresult
    · rfl
    · exact nomatch hresult

/-- **A number has one normal form, whatever separators but a plus it is written with.** -/
theorem normalizesNumbers (ref : ReferenceDate) : NormalizesNumbers ref := by
  have hwritten : ∀ n s, IsWritten ref n s →
      normalizeSwedishPersonalNumber s ref.time = .ok n.twelve := by
    rintro n s ⟨hplus, hdenotes⟩
    rw [← bareDigits_of_plus hplus] at hdenotes
    exact normalize_iff.mpr ⟨n, hdenotes, rfl⟩
  refine ⟨hwritten, ?_, ?_, ?_⟩
  · intro n n' s s' h h' heq
    rw [hwritten n s h, hwritten n' s' h'] at heq
    exact PersonalNumber.twelve_injective (Except.ok.inj heq)
  · intro s r h ref'
    obtain ⟨n, -, rfl⟩ := normalize_iff.mp h
    exact normalize_iff.mpr ⟨n, .inl (bareDigits_twelve n), rfl⟩
  · intro s hplus hnone
    refine eq_error_of_not_ok fun r hok => hnone ?_
    obtain ⟨n, hdenotes, -⟩ := normalize_iff.mp hok
    rw [bareDigits_of_plus hplus] at hdenotes
    exact ⟨n, hplus, hdenotes⟩

/-! ## Other separators -/

/-- A conventional form, where white space does not count: twelve digits, or ten with a hyphen
before the last four, with a plus once the person has turned a hundred. -/
def IsConventional (ref : ReferenceDate) (n : PersonalNumber) (s : Text) : Prop :=
  n.BornBy ref.time ∧
    (s.filter (fun c => !isTrimmed c) = n.twelve ∨
      ∃ mark, s.filter (fun c => !isTrimmed c) = n.ten.take 6 ++ mark :: n.ten.drop 6 ∧
        (mark = '-' ∧ n.IsUnderHundred ref.time ∨ mark = '+' ∧ ¬n.IsUnderHundred ref.time))

def summerDate : ReferenceDate where
  time := 1786000000000
  year_bounds := by decide

/-- Hyphens between all parts are accepted. -/
theorem not_isConventional_hyphens :
    normalizeSwedishPersonalNumber "1990-01-01-0009".toList summerDate.time =
        .ok "199001010009".toList ∧
      ¬∀ (ref : ReferenceDate) (s r : Text), normalizeSwedishPersonalNumber s ref.time = .ok r →
        ∃ n, IsConventional ref n s := by
  have hok : normalizeSwedishPersonalNumber "1990-01-01-0009".toList summerDate.time =
      .ok "199001010009".toList := by decide
  refine ⟨hok, fun hall => ?_⟩
  obtain ⟨n, -, hform⟩ := hall summerDate _ _ hok
  have hfilter : "1990-01-01-0009".toList.filter (fun c => !isTrimmed c) =
      "1990-01-01-0009".toList := by decide
  have hdigits : ∀ {width year : ℕ}, '-' ∉ numberText width year n.month n.day n.serial := by
    intro width year hmem
    exact absurd (isDigit_of_mem_numberText hmem) (by decide)
  rw [hfilter] at hform
  rcases hform with htwelve | ⟨mark, hten, -⟩
  · exact hdigits (htwelve ▸ (by decide : '-' ∈ "1990-01-01-0009".toList))
  · -- there are three of them
    have hcount := congrArg (List.count '-') hten
    have htake : (n.ten.take 6).count '-' = 0 :=
      List.count_eq_zero.mpr fun hmem => hdigits (List.mem_of_mem_take hmem)
    have hdrop : (n.ten.drop 6).count '-' = 0 :=
      List.count_eq_zero.mpr fun hmem => hdigits (List.mem_of_mem_drop hmem)
    have hthree : "1990-01-01-0009".toList.count '-' = 3 := by decide
    rw [hthree, List.count_append, List.count_cons, htake, hdrop] at hcount
    split at hcount <;> omega

end Kommunsign
