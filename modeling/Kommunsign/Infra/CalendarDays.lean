import Mathlib.Algebra.Order.BigOperators.Group.List
import Mathlib.Data.List.GetD
import Mathlib.Tactic.IntervalCases
import Kommunsign.Infra.Timestamptz

/-!
# Days of the calendar

Days are counted from 1970-01-01, months from zero, as a `Date` does; a month or a day that is out
of range is carried over.

* `makeDay` — the day of a year, a month and a day of the month
* `yearFromDay`, `monthFromDay`, `dateFromDay` — the parts of a day
-/

namespace Infra

/-! ## Years -/

/-- The first day of a year. -/
def dayFromYear (year : ℤ) : ℤ :=
  365 * (year - 1970) + (year - 1969) / 4 - (year - 1901) / 100 + (year - 1601) / 400

/-- The day that a leap year has more. -/
def leapDay (year : ℤ) : ℤ := if isLeapYear year then 1 else 0

def yearFromDay (day : ℤ) : ℤ :=
  let year := 1970 + 400 * day / 146097
  if day < dayFromYear year then year - 1
  else if dayFromYear (year + 1) ≤ day then year + 1
  else year

theorem leapDay_bounds (year : ℤ) : 0 ≤ leapDay year ∧ leapDay year ≤ 1 := by
  unfold leapDay
  split <;> decide

theorem dayFromYear_succ (year : ℤ) :
    dayFromYear (year + 1) = dayFromYear year + 365 + leapDay year := by
  unfold dayFromYear leapDay isLeapYear
  split <;> rename_i h <;> simp at h <;> omega

theorem dayFromYear_mono {year year' : ℤ} (h : year ≤ year') :
    dayFromYear year ≤ dayFromYear year' := by
  unfold dayFromYear
  omega

/-- A day is in its year. -/
theorem dayFromYear_yearFromDay (day : ℤ) :
    dayFromYear (yearFromDay day) ≤ day ∧ day < dayFromYear (yearFromDay day + 1) := by
  unfold yearFromDay
  dsimp only
  generalize hyear : 1970 + 400 * day / 146097 = year
  -- the estimate is at most one year off
  have hlow : dayFromYear (year - 1) ≤ day := by
    unfold dayFromYear
    omega
  have hhigh : day < dayFromYear (year + 1 + 1) := by
    unfold dayFromYear
    omega
  split
  · next hlt => exact ⟨hlow, by rwa [Int.sub_add_cancel]⟩
  split
  · next hle => exact ⟨hle, hhigh⟩
  · omega

theorem le_yearFromDay {year day : ℤ} (h : dayFromYear year ≤ day) : year ≤ yearFromDay day := by
  by_contra hlt
  have hmono := dayFromYear_mono (show yearFromDay day + 1 ≤ year by omega)
  have hday := (dayFromYear_yearFromDay day).2
  omega

theorem yearFromDay_lt {year day : ℤ} (h : day < dayFromYear year) : yearFromDay day < year := by
  by_contra hle
  have hmono := dayFromYear_mono (show year ≤ yearFromDay day by omega)
  have hday := (dayFromYear_yearFromDay day).1
  omega

theorem yearFromDay_eq {year day : ℤ} (hle : dayFromYear year ≤ day)
    (hlt : day < dayFromYear (year + 1)) : yearFromDay day = year := by
  have hlow := le_yearFromDay hle
  have hhigh := yearFromDay_lt hlt
  omega

/-! ## Consecutive stretches -/

/-- The stretch that a place is in, of stretches of these lengths. -/
def locate : List ℤ → ℤ → ℕ
  | [], _ => 0
  | length :: lengths, place => if place < length then 0 else locate lengths (place - length) + 1

theorem locate_eq {lengths : List ℤ} (hnonneg : ∀ l ∈ lengths, 0 ≤ l) {i : ℕ} {offset : ℤ}
    (hi : i < lengths.length) (hoffset : 0 ≤ offset ∧ offset < lengths.getD i 0) :
    locate lengths ((lengths.take i).sum + offset) = i := by
  induction lengths generalizing i with
  | nil => exact absurd hi (Nat.not_lt_zero i)
  | cons length lengths ih =>
    rw [List.forall_mem_cons] at hnonneg
    cases i with
    | zero =>
      have hlt : offset < length := hoffset.2
      rw [List.take_zero, List.sum_nil, Int.zero_add, locate, if_pos hlt]
    | succ i =>
      have hsum : 0 ≤ (lengths.take i).sum :=
        List.sum_nonneg fun l hl => hnonneg.2 l (List.mem_of_mem_take hl)
      have hplace : length + (lengths.take i).sum + offset - length =
          (lengths.take i).sum + offset := by omega
      rw [List.take_succ_cons, List.sum_cons, locate, if_neg (by omega), hplace,
        ih hnonneg.2 (Nat.lt_of_succ_lt_succ hi) hoffset]

theorem locate_spec {lengths : List ℤ} {place : ℤ} (hplace : 0 ≤ place ∧ place < lengths.sum) :
    locate lengths place < lengths.length ∧
      (lengths.take (locate lengths place)).sum ≤ place ∧
      place < (lengths.take (locate lengths place)).sum + lengths.getD (locate lengths place) 0 := by
  induction lengths generalizing place with
  | nil =>
    rw [List.sum_nil] at hplace
    omega
  | cons length lengths ih =>
    rw [List.sum_cons] at hplace
    rw [locate]
    by_cases hlt : place < length
    · rw [if_pos hlt]
      refine ⟨Nat.succ_pos _, hplace.1, ?_⟩
      rw [List.take_zero, List.sum_nil, Int.zero_add]
      exact hlt
    · rw [if_neg hlt]
      have hrest : 0 ≤ place - length ∧ place - length < lengths.sum := by omega
      obtain ⟨hlength, hlow, hhigh⟩ := ih hrest
      refine ⟨Nat.succ_lt_succ hlength, ?_, ?_⟩
      · rw [List.take_succ_cons, List.sum_cons]
        omega
      · rw [List.take_succ_cons, List.sum_cons, List.getD_cons_succ]
        omega

/-! ## Months -/

/-- The lengths of the months. -/
def monthLengths (year : ℤ) : List ℤ :=
  [31, 28 + leapDay year, 31, 30, 31, 30, 31, 31, 30, 31, 30, 31]

/-- The days of a year before a month, from zero to eleven. -/
def daysBefore (year : ℤ) (month : ℕ) : ℤ := ((monthLengths year).take month).sum

def makeDay (year month date : ℤ) : ℤ :=
  dayFromYear (year + month / 12) + daysBefore (year + month / 12) (month % 12).toNat + date - 1

def monthFromDay (day : ℤ) : ℤ :=
  locate (monthLengths (yearFromDay day)) (day - dayFromYear (yearFromDay day))

def dateFromDay (day : ℤ) : ℤ :=
  day - dayFromYear (yearFromDay day) - daysBefore (yearFromDay day) (monthFromDay day).toNat + 1

theorem sum_monthLengths (year : ℤ) : (monthLengths year).sum = 365 + leapDay year := by
  simp [monthLengths]
  omega

theorem monthLengths_nonneg (year : ℤ) : ∀ l ∈ monthLengths year, 0 ≤ l := by
  have hleap := leapDay_bounds year
  simp [monthLengths]
  omega

/-- A date of the calendar, its month from one to twelve. -/
def IsDate (year : ℤ) (month day : ℕ) : Prop :=
  (1 ≤ month ∧ month ≤ 12) ∧ (1 ≤ day ∧ day ≤ daysInMonth year month)

instance (year : ℤ) (month day : ℕ) : Decidable (IsDate year month day) :=
  inferInstanceAs (Decidable (_ ∧ _))

theorem daysInMonth_eq (year : ℤ) {month : ℕ} (h : 1 ≤ month ∧ month ≤ 12) :
    (daysInMonth year month : ℤ) = (monthLengths year).getD (month - 1) 0 := by
  obtain ⟨hlow, hhigh⟩ := h
  unfold daysInMonth monthLengths leapDay
  interval_cases month <;> simp
  split <;> rfl

/-! ## Dates -/

theorem makeDay_of_lt (year : ℤ) {month : ℕ} (hmonth : month < 12) (date : ℤ) :
    makeDay year month date = dayFromYear year + daysBefore year month + date - 1 := by
  have hdiv : (month : ℤ) / 12 = 0 := by omega
  have hmod : ((month : ℤ) % 12).toNat = month := by omega
  unfold makeDay
  rw [hdiv, hmod, Int.add_zero]

/-- A day of a month is a day of its year. -/
theorem daysBefore_bounds {year : ℤ} {month : ℕ} {date : ℤ} (hmonth : month < 12)
    (hdate : 1 ≤ date ∧ date ≤ (monthLengths year).getD month 0) :
    0 ≤ daysBefore year month ∧ daysBefore year month + date - 1 < 365 + leapDay year := by
  have hnonneg := monthLengths_nonneg year
  have hlength : month < (monthLengths year).length := hmonth
  constructor
  · exact List.sum_nonneg fun l hl => hnonneg l (List.mem_of_mem_take hl)
  · -- the month and what follows it are the rest of the year
    have hrest : 0 ≤ ((monthLengths year).drop (month + 1)).sum :=
      List.sum_nonneg fun l hl => hnonneg l (List.mem_of_mem_drop hl)
    have hsum := sum_monthLengths year
    rw [← List.take_append_drop month (monthLengths year), List.sum_append,
      List.drop_eq_getElem_cons hlength, List.sum_cons] at hsum
    rw [List.getD_eq_getElem _ _ hlength] at hdate
    unfold daysBefore
    omega

theorem yearFromDay_makeDay {year : ℤ} {month : ℕ} {date : ℤ} (hmonth : month < 12)
    (hdate : 1 ≤ date ∧ date ≤ (monthLengths year).getD month 0) :
    yearFromDay (makeDay year month date) = year := by
  obtain ⟨hlow, hhigh⟩ := daysBefore_bounds hmonth hdate
  rw [makeDay_of_lt year hmonth]
  apply yearFromDay_eq
  · omega
  · rw [dayFromYear_succ]
    omega

/-- The parts of a date are found again. -/
theorem parts_makeDay {year : ℤ} {month day : ℕ} (h : IsDate year month day) :
    yearFromDay (makeDay year (month - 1) day) = year ∧
      monthFromDay (makeDay year (month - 1) day) = month - 1 ∧
      dateFromDay (makeDay year (month - 1) day) = day := by
  obtain ⟨hmonth, hday⟩ := h
  obtain ⟨m, rfl⟩ : ∃ m, month = m + 1 := ⟨month - 1, by omega⟩
  have hcast : ((m + 1 : ℕ) : ℤ) - 1 = m := by omega
  have hm : m < 12 := by omega
  have hdate : 1 ≤ (day : ℤ) ∧ (day : ℤ) ≤ (monthLengths year).getD m 0 := by
    have hlength := daysInMonth_eq year hmonth
    rw [Nat.add_sub_cancel] at hlength
    omega
  rw [hcast]
  have hyear := yearFromDay_makeDay hm hdate
  have hmonthOf : monthFromDay (makeDay year m day) = m := by
    have hplace : makeDay year m day - dayFromYear year =
        ((monthLengths year).take m).sum + (day - 1) := by
      rw [makeDay_of_lt year hm]
      unfold daysBefore
      omega
    unfold monthFromDay
    rw [hyear, hplace, locate_eq (monthLengths_nonneg year) hm (by omega)]
  refine ⟨hyear, hmonthOf, ?_⟩
  unfold dateFromDay
  rw [hyear, hmonthOf, makeDay_of_lt year hm, Int.toNat_natCast]
  omega

/-- The parts of a day are a date. -/
theorem isDate_parts (d : ℤ) {month day : ℕ} (hmonth : monthFromDay d = month - 1)
    (hday : dateFromDay d = day) (hpos : 1 ≤ month) : IsDate (yearFromDay d) month day := by
  obtain ⟨hle, hlt⟩ := dayFromYear_yearFromDay d
  rw [dayFromYear_succ] at hlt
  have hplace : 0 ≤ d - dayFromYear (yearFromDay d) ∧
      d - dayFromYear (yearFromDay d) < (monthLengths (yearFromDay d)).sum := by
    rw [sum_monthLengths]
    omega
  obtain ⟨hlength, hlow, hhigh⟩ := locate_spec hplace
  have hlocate : locate (monthLengths (yearFromDay d)) (d - dayFromYear (yearFromDay d)) =
      month - 1 := by
    have heq := hmonth
    unfold monthFromDay at heq
    omega
  rw [hlocate] at hlength hlow hhigh
  have hbounds : 1 ≤ month ∧ month ≤ 12 := by
    have htwelve : (monthLengths (yearFromDay d)).length = 12 := rfl
    omega
  have hdays := daysInMonth_eq (yearFromDay d) hbounds
  have htoNat : (monthFromDay d).toNat = month - 1 := by omega
  unfold dateFromDay at hday
  rw [htoNat] at hday
  unfold daysBefore at hday
  exact ⟨hbounds, by omega⟩

/-- A year does not end before its first day. -/
theorem le_yearFromDay_makeDay {year : ℤ} {month : ℕ} {date : ℤ} (hmonth : month < 12)
    (hdate : 1 ≤ date) : year ≤ yearFromDay (makeDay year month date) := by
  have hsum : 0 ≤ daysBefore year month :=
    List.sum_nonneg fun l hl => monthLengths_nonneg year l (List.mem_of_mem_take hl)
  rw [makeDay_of_lt year hmonth]
  apply le_yearFromDay
  omega

end Infra
