import Kommunsign.Locale.SwedishTime

/-!
# Swedish local time, to the end of the calendar

* `swedishTime_iff` — offset and text are right until the last summer that `Date` does not see end
-/

namespace Kommunsign.Locale

open Infra

noncomputable def euOffsetHours (time : ℤ) : ℤ :=
  open Classical in if SummerTime time then 2 else 1

/-! ## Last Sundays -/

section

variable {year time : ℤ}

theorem makeDay_eq_add (year month date : ℤ) :
    makeDay year month date = makeDay year month 31 + (date - 31) := by
  unfold makeDay
  omega

theorem weekDay_bounds (day : ℤ) : 0 ≤ weekDay day ∧ weekDay day < 7 := by
  unfold weekDay
  omega

theorem isLastSunday_iff {month day : ℕ} (hmonth : 1 ≤ month ∧ month ≤ 12)
    (hlength : daysInMonth year month = 31) : IsLastSunday year month day ↔
      (day : ℤ) = 31 - weekDay (makeDay year (month - 1) 31) := by
  have hdate : ∀ d : ℕ, IsDate year month d ↔ 1 ≤ d ∧ d ≤ 31 := by
    intro d
    rw [IsDate, and_iff_right hmonth, hlength]
  have hday : ∀ d : ℕ, weekDay (makeDay year (month - 1) d) = 0 ↔
      (makeDay year (month - 1) 31 + d - 31 + 4) % 7 = 0 := by
    intro d
    rw [weekDay, makeDay_eq_add]
    omega
  unfold IsLastSunday
  simp only [hdate, ne_eq, hday]
  unfold weekDay
  generalize makeDay year (month - 1) 31 = last
  constructor
  · rintro ⟨hrange, hsunday, hlater⟩
    have hnext : ¬day + 7 ≤ 31 := fun h =>
      hlater (day + 7) (by omega) (by omega) (by push_cast; omega)
    omega
  · intro h
    exact ⟨by omega, by omega, fun later hlt hrange => by omega⟩

def lastSunday31 (year : ℤ) (month : ℕ) : ℕ :=
  (31 - weekDay (makeDay year (month - 1) 31)).toNat

theorem lastSunday31_spec (year : ℤ) {month : ℕ} (h : month = 3 ∨ month = 10) {day : ℕ} :
    IsLastSunday year month day ↔ day = lastSunday31 year month := by
  have hbounds := weekDay_bounds (makeDay year (month - 1) 31)
  rw [isLastSunday_iff (by omega) (by rcases h with rfl | rfl <;> rfl), lastSunday31]
  omega

theorem lastSunday31_bounds (year : ℤ) (month : ℕ) :
    25 ≤ lastSunday31 year month ∧ lastSunday31 year month ≤ 31 := by
  have hbounds := weekDay_bounds (makeDay year (month - 1) 31)
  unfold lastSunday31
  omega

theorem makeDay_zero (year : ℤ) : makeDay year 3 0 = makeDay year 2 31 ∧
    makeDay year 10 0 = makeDay year 9 31 := by
  constructor <;> simp [makeDay, daysBefore, monthLengths] <;> omega

theorem makeDay_march (year date : ℤ) :
    makeDay year 2 date = dayFromYear year + leapDay year + 58 + date := by
  simp [makeDay, daysBefore, monthLengths]
  omega

theorem makeDay_october (year date : ℤ) :
    makeDay year 9 date = dayFromYear year + leapDay year + 272 + date := by
  simp [makeDay, daysBefore, monthLengths]
  omega

theorem year_of_summer (h : changeTime year 3 (lastSunday31 year 3) ≤ time)
    (h' : time < changeTime year 10 (lastSunday31 year 10)) : yearFromDay (dayOf time) = year := by
  have hfirst := lastSunday31_bounds year 3
  have hlast := lastSunday31_bounds year 10
  have hleap := leapDay_bounds year
  unfold changeTime at h h'
  rw [show ((3 : ℕ) : ℤ) - 1 = 2 from rfl, makeDay_march] at h
  rw [show ((10 : ℕ) : ℤ) - 1 = 9 from rfl, makeDay_october] at h'
  apply yearFromDay_eq
  · unfold dayOf
    omega
  · rw [dayFromYear_succ]
    unfold dayOf
    omega

theorem summerTime_iff : SummerTime time ↔
    changeTime (yearFromDay (dayOf time)) 3 (lastSunday31 (yearFromDay (dayOf time)) 3) ≤ time ∧
      time < changeTime (yearFromDay (dayOf time)) 10
        (lastSunday31 (yearFromDay (dayOf time)) 10) := by
  constructor
  · rintro ⟨year, first, last, hfirst, hlast, h, h'⟩
    obtain rfl := (lastSunday31_spec year (Or.inl rfl)).mp hfirst
    obtain rfl := (lastSunday31_spec year (Or.inr rfl)).mp hlast
    rw [year_of_summer h h']
    exact ⟨h, h'⟩
  · rintro ⟨h, h'⟩
    exact ⟨_, _, _, (lastSunday31_spec _ (Or.inl rfl)).mpr rfl,
      (lastSunday31_spec _ (Or.inr rfl)).mpr rfl, h, h'⟩

/-! ## The offset -/

theorem utc_eq {month hours : ℤ} {date : ℤ} (hyear : 100 ≤ year) :
    utc year month (some date) hours =
      timeClip (makeDay year month date * 86400000 + hours * 3600000) := by
  have hnot : ¬(0 ≤ year ∧ year ≤ 99) := by omega
  show timeClip (makeDay (if 0 ≤ year ∧ year ≤ 99 then 1900 + year else year) month date * 86400000 +
    hours * 3600000) = _
  rw [if_neg hnot]

theorem utc_change (hyear : 100 ≤ year) (day : ℕ) :
    utc year 2 (some (day : ℤ)) 1 = timeClip (changeTime year 3 day) ∧
      utc year 9 (some (day : ℤ)) 1 = timeClip (changeTime year 10 day) := by
  have hmarch : changeTime year 3 day = makeDay year 2 day * 86400000 + 1 * 3600000 := rfl
  have hoctober : changeTime year 10 day = makeDay year 9 day * 86400000 + 1 * 3600000 := rfl
  rw [utc_eq hyear, utc_eq hyear, hmarch, hoctober]
  exact ⟨rfl, rfl⟩

theorem lastSunday_eq {month : ℕ} {index : ℤ} (hindex : index = month - 1)
    (hmonth : month = 3 ∨ month = 10) (hyear : 100 ≤ year) :
    ((utc year (index + 1) (some 0) 0).map fun last =>
        dateFromDay (dayOf last) - weekDay (dayOf last)) =
      if (makeDay year index 31 * 86400000).natAbs ≤ 8640000000000000 then
        some (lastSunday31 year month : ℤ)
      else none := by
  have hzero : makeDay year (index + 1) 0 = makeDay year index 31 := by
    rw [hindex]
    rcases hmonth with rfl | rfl
    · exact (makeDay_zero year).1
    · exact (makeDay_zero year).2
  have hdate : dateFromDay (makeDay year index (31 : ℕ)) = (31 : ℕ) := by
    rw [hindex]
    exact (parts_makeDay (by
      rcases hmonth with rfl | rfl <;> exact ⟨by decide, by decide, le_rfl⟩)).2.2
  have hday : dayOf (makeDay year index 31 * 86400000) = makeDay year index 31 := by
    unfold dayOf
    omega
  have hbounds := weekDay_bounds (makeDay year index 31)
  rw [utc_eq hyear, hzero, Int.zero_mul, Int.add_zero, timeClip]
  split
  · rw [Option.map_some, hday, lastSunday31, ← hindex]
    congr 1
    push_cast at hdate
    omega
  · rfl

theorem year_le (h : time ≤ 8640000000000000) : yearFromDay (dayOf time) ≤ 275760 := by
  have hyear : dayFromYear 275761 = 100000110 := by decide
  have hlt : dayOf time < dayFromYear 275761 := by
    unfold dayOf
    omega
  have := yearFromDay_lt hlt
  omega

/-- The two changes that the code compares with, where `Date` has them. -/
def changes (year : ℤ) : Option ℤ × Option ℤ :=
  (timeClip (changeTime year 3 (lastSunday31 year 3)),
    if (makeDay year 9 31 * 86400000).natAbs ≤ 8640000000000000 then
      timeClip (changeTime year 10 (lastSunday31 year 10)) else none)

theorem swedishUtcOffsetHours_of_changes (hyear : 100 ≤ yearFromDay (dayOf time))
    (hmarch : (makeDay (yearFromDay (dayOf time)) 2 31 * 86400000).natAbs ≤ 8640000000000000) :
    swedishUtcOffsetHours time =
      if (changes (yearFromDay (dayOf time))).1.any (· ≤ time) &&
        (changes (yearFromDay (dayOf time))).2.any (time < ·) then 2 else 1 := by
  unfold swedishUtcOffsetHours changes
  dsimp only
  generalize yearFromDay (dayOf time) = year at *
  have hfirst : ((utc year (2 + 1) (some 0) 0).map fun last =>
      dateFromDay (dayOf last) - weekDay (dayOf last)) = some (lastSunday31 year 3 : ℤ) :=
    (lastSunday_eq (by decide) (Or.inl rfl) hyear).trans (if_pos hmarch)
  have hlast : ((utc year (9 + 1) (some 0) 0).map fun last =>
      dateFromDay (dayOf last) - weekDay (dayOf last)) =
        if (makeDay year 9 31 * 86400000).natAbs ≤ 8640000000000000 then
          some (lastSunday31 year 10 : ℤ) else none :=
    lastSunday_eq (by decide) (Or.inr rfl) hyear
  simp only [hfirst, hlast, (utc_change hyear _).1]
  split
  · rw [(utc_change hyear _).2]
  · rfl

theorem dayFromYear_bounds (h : 100 ≤ year) (h' : year < 275760) :
    -683003 ≤ dayFromYear year ∧ dayFromYear year ≤ 99999379 := by
  have hlow := dayFromYear_mono h
  have hhigh := dayFromYear_mono (show year ≤ 275759 by omega)
  rw [show dayFromYear 100 = -683003 by decide] at hlow
  rw [show dayFromYear 275759 = 99999379 by decide] at hhigh
  exact ⟨hlow, hhigh⟩

theorem swedishUtcOffsetHours_eq (hyear : 100 ≤ yearFromDay (dayOf time))
    (hlast : yearFromDay (dayOf time) < 275760) :
    swedishUtcOffsetHours time = euOffsetHours time := by
  have hdays := dayFromYear_bounds hyear hlast
  have hleap := leapDay_bounds (yearFromDay (dayOf time))
  have hfirst := lastSunday31_bounds (yearFromDay (dayOf time)) 3
  have hend := lastSunday31_bounds (yearFromDay (dayOf time)) 10
  have hmarch := makeDay_march (yearFromDay (dayOf time))
  have hoctober := makeDay_october (yearFromDay (dayOf time))
  rw [swedishUtcOffsetHours_of_changes hyear (by rw [hmarch]; omega)]
  have hchanges : changes (yearFromDay (dayOf time)) =
      (some (changeTime (yearFromDay (dayOf time)) 3 (lastSunday31 (yearFromDay (dayOf time)) 3)),
        some (changeTime (yearFromDay (dayOf time)) 10
          (lastSunday31 (yearFromDay (dayOf time)) 10))) := by
    unfold changes
    rw [if_pos (by rw [hoctober]; omega), timeClip, timeClip, if_pos, if_pos]
    · show (makeDay _ 9 _ * 86400000 + 3600000).natAbs ≤ _
      rw [hoctober]
      omega
    · show (makeDay _ 2 _ * 86400000 + 3600000).natAbs ≤ _
      rw [hmarch]
      omega
  rw [hchanges, euOffsetHours]
  simp only [Option.any_some, Bool.and_eq_true, decide_eq_true_eq, summerTime_iff]

theorem swedishUtcOffsetHours_last (h : yearFromDay (dayOf time) = 275760) :
    swedishUtcOffsetHours time = 1 := by
  have hnone : (changes 275760).2 = none := by
    unfold changes
    rw [makeDay_october, if_neg]
    decide
  rw [swedishUtcOffsetHours_of_changes (by omega) (by rw [h, makeDay_march]; decide), h, hnone]
  simp

/-! ## The text -/

theorem decimal_natCast (n : ℕ) : decimal (some (n : ℤ)) = padded 0 n := by
  have hnonneg : ¬((n : ℤ) < 0) := by omega
  rw [decimal, if_neg hnonneg, Int.natAbs_natCast, List.nil_append, padded, Nat.zero_sub]
  rfl

theorem pad_natCast (n : ℕ) : pad (some (n : ℤ)) = padded 2 n := by
  rw [pad, decimal_natCast, padded, padded, Nat.zero_sub, List.replicate_zero, List.nil_append]

theorem number?_padded (width n : ℕ) : number? (padded width n) = some n := by
  have hne : padded width n ≠ [] :=
    List.append_ne_nil_of_right_ne_nil _ Nat.toDigits_ne_nil
  have hdigits : (padded width n).all Char.isDigit = true :=
    List.all_eq_true.mpr fun c hc => isDigit_of_mem_padded hc
  rw [number?, if_pos ⟨hne, hdigits⟩, ofDigitChars_padded]

theorem exists_padded {n : ℕ} (h : n < 100) : ∃ c c', padded 2 n = [c, c'] :=
  List.length_eq_two.mp (length_padded (by decide) h)

theorem readTimestamp_parts {year month day hour minute offset : ℕ} (hdate : IsDate year month day)
    (hhour : hour < 24) (hminute : minute < 60) (hoffset : offset < 10) :
    readTimestamp (padded 0 year ++ '-' :: padded 2 month ++ '-' :: padded 2 day ++
        ' ' :: (padded 2 hour ++ ':' :: padded 2 minute) ++
        ([' ', '(', 'U', 'T', 'C', '+'] ++ padded 1 offset ++ [')'])) =
      some (makeDay year (month - 1) day * 86400000 + hour * 3600000 + minute * 60000 -
        offset * 3600000) := by
  have hlength := daysInMonth_le year month
  obtain ⟨m, m', hm⟩ := exists_padded (n := month) (by have := hdate.1; omega)
  obtain ⟨d, d', hd⟩ := exists_padded (n := day) (by have := hdate.2; omega)
  obtain ⟨h, h', hh⟩ := exists_padded (n := hour) (by omega)
  obtain ⟨i, i', hi⟩ := exists_padded (n := minute) (by omega)
  obtain ⟨k, hk⟩ := List.length_eq_one_iff.mp (length_padded Nat.one_pos hoffset)
  have hmonth := number?_padded 2 month
  have hday := number?_padded 2 day
  have hhours := number?_padded 2 hour
  have hminutes := number?_padded 2 minute
  have hoffsets := number?_padded 1 offset
  rw [hm] at hmonth
  rw [hd] at hday
  rw [hh] at hhours
  rw [hi] at hminutes
  rw [hk] at hoffsets
  have htext : padded 0 year ++ '-' :: padded 2 month ++ '-' :: padded 2 day ++
      ' ' :: (padded 2 hour ++ ':' :: padded 2 minute) ++
      ([' ', '(', 'U', 'T', 'C', '+'] ++ padded 1 offset ++ [')']) = padded 0 year ++
        ['-', m, m', '-', d, d', ' ', h, h', ':', i, i', ' ', '(', 'U', 'T', 'C', '+', k, ')'] := by
    rw [hm, hd, hh, hi, hk]
    simp
  have htemplate : template = ['-', '#', '#', '-', '#', '#', ' ', '#', '#', ':', '#', '#', ' ', '(',
    'U', 'T', 'C', '+', '#', ')'] := rfl
  rw [htext]
  simp [readTimestamp, htemplate, hmonth, hday, hhours, hminutes, hoffsets, number?_padded, hdate,
    hhour, hminute]

theorem dateFromDay_pos (d : ℤ) : 1 ≤ dateFromDay d := by
  obtain ⟨hle, hlt⟩ := dayFromYear_yearFromDay d
  rw [dayFromYear_succ] at hlt
  have hplace : 0 ≤ d - dayFromYear (yearFromDay d) ∧
      d - dayFromYear (yearFromDay d) < (monthLengths (yearFromDay d)).sum := by
    rw [sum_monthLengths]
    omega
  have hlow := (locate_spec hplace).2.1
  unfold dateFromDay daysBefore monthFromDay
  rw [Int.toNat_natCast]
  omega

theorem makeDay_parts (d : ℤ) : ∃ month day : ℕ, IsDate (yearFromDay d) month day ∧
    monthFromDay d + 1 = month ∧ dateFromDay d = day ∧
      makeDay (yearFromDay d) (month - 1) day = d := by
  have hpos := dateFromDay_pos d
  have hmonth : monthFromDay d = (((monthFromDay d).toNat + 1 : ℕ) : ℤ) - 1 := by
    unfold monthFromDay
    omega
  have hday : dateFromDay d = ((dateFromDay d).toNat : ℤ) := by omega
  have hdate := isDate_parts d hmonth hday (by omega)
  refine ⟨(monthFromDay d).toNat + 1, (dateFromDay d).toNat, hdate, by omega, hday, ?_⟩
  rw [← hmonth, ← hday]
  have hlt : (monthFromDay d).toNat < 12 := by
    have := hdate.1
    omega
  have hcast : monthFromDay d = ((monthFromDay d).toNat : ℤ) := by omega
  rw [hcast, makeDay_of_lt _ hlt]
  unfold dateFromDay
  omega

variable {parseDate : Text → Option ℤ} {instant : Text}

theorem formatted_eq {here : ℤ} (hparse : parseDate instant = some time)
    (hshift : shifted time = some here) : formatSwedishTimestampWithOffset parseDate instant =
      .ok (decimal (some (yearFromDay (dayOf here))) ++
        '-' :: pad (some (monthFromDay (dayOf here) + 1)) ++
        '-' :: pad (some (dateFromDay (dayOf here))) ++
        ' ' :: (pad (some (here % 86400000 / 3600000)) ++ ':' :: pad (some (here % 3600000 / 60000))) ++
        ([' ', '(', 'U', 'T', 'C', '+'] ++ decimal (some (swedishUtcOffsetHours time)) ++ [')'])) := by
  have hread : parse parseDate instant = .ok time := by
    rw [parse, hparse]
    rfl
  simp only [formatSwedishTimestampWithOffset, formatSwedishDateTime, formatSwedishDate,
    formatSwedishTime, hread, bind, Except.bind, pure, Except.pure, hshift, Option.map_some]

theorem offset_cases (time : ℤ) :
    ∃ offset : ℕ, swedishUtcOffsetHours time = offset ∧ offset ≤ 2 := by
  unfold swedishUtcOffsetHours
  dsimp only
  split
  · exact ⟨2, rfl, le_rfl⟩
  · exact ⟨1, rfl, by decide⟩

theorem readTimestamp_formatted (hparse : parseDate instant = some time)
    (hfrom : 820454400000 ≤ time) (hto : time ≤ 8639992800000000) :
    ∃ text, formatSwedishTimestampWithOffset parseDate instant = .ok text ∧
      readTimestamp text = some (time - time % 60000) := by
  obtain ⟨offset, hoffset, hle⟩ := offset_cases time
  obtain ⟨here, hhere⟩ : ∃ here, here = time + offset * 3600000 := ⟨_, rfl⟩
  have hshift : shifted time = some here := by
    rw [shifted, hoffset, ← hhere]
    exact if_pos (by omega)
  obtain ⟨month, day, hdate, hmonth, hday, hmake⟩ := makeDay_parts (dayOf here)
  have hyear : 1996 ≤ yearFromDay (dayOf here) := by
    apply le_yearFromDay
    rw [show dayFromYear 1996 = 9496 by decide, dayOf]
    omega
  obtain ⟨year, hyear⟩ : ∃ year : ℕ, yearFromDay (dayOf here) = year :=
    ⟨(yearFromDay (dayOf here)).toNat, by omega⟩
  obtain ⟨hour, hhour⟩ : ∃ hour : ℕ, here % 86400000 / 3600000 = hour :=
    ⟨(here % 86400000 / 3600000).toNat, by omega⟩
  obtain ⟨minute, hminute⟩ : ∃ minute : ℕ, here % 3600000 / 60000 = minute :=
    ⟨(here % 3600000 / 60000).toNat, by omega⟩
  have hdigit : decimal (some (offset : ℤ)) = padded 1 offset := by
    interval_cases offset <;> rfl
  refine ⟨_, formatted_eq hparse hshift, ?_⟩
  rw [hyear] at hdate hmake
  rw [hyear, hmonth, hday, hhour, hminute, hoffset, hdigit, decimal_natCast, pad_natCast, pad_natCast,
    pad_natCast, pad_natCast, readTimestamp_parts hdate (by omega) (by omega) (by omega), hmake]
  unfold dayOf
  congr 1
  omega

/--
From 1996 on, the offset is that of the summer time of the European Union, and a text states the
minute that it was made of, exactly before the summer that `Date` does not see end.
-/
theorem swedishTime_iff (hparse : parseDate instant = some time) (hfrom : 820454400000 ≤ time)
    (hto : time ≤ 8640000000000000) :
    (swedishUtcOffsetHours time = euOffsetHours time ∧
      ∃ text, formatSwedishTimestampWithOffset parseDate instant = .ok text ∧
        readTimestamp text = some (time - time % 60000)) ↔
      time < changeTime 275760 3 30 := by
  have hstart : changeTime 275760 3 30 = 8639985574800000 := by decide
  have hmarch : lastSunday31 275760 3 = 30 := by decide
  have hlow : 1996 ≤ yearFromDay (dayOf time) := by
    apply le_yearFromDay
    rw [show dayFromYear 1996 = 9496 by decide, dayOf]
    omega
  have hhigh := year_le hto
  constructor
  · rintro ⟨hoffset, -⟩
    by_contra hlate
    have hyear : yearFromDay (dayOf time) = 275760 := by
      have hfirst : dayFromYear 275760 ≤ dayOf time := by
        rw [show dayFromYear 275760 = 99999744 by decide, dayOf]
        omega
      have := le_yearFromDay hfirst
      omega
    -- it is summer, and the code finds no end of it
    have hsummer : SummerTime time := by
      rw [summerTime_iff, hyear, hmarch]
      refine ⟨by omega, ?_⟩
      rw [show changeTime 275760 10 (lastSunday31 275760 10) = 8640003718800000 by decide]
      omega
    rw [swedishUtcOffsetHours_last hyear, euOffsetHours, if_pos hsummer] at hoffset
    exact absurd hoffset (by decide)
  · intro hearly
    refine ⟨?_, readTimestamp_formatted hparse hfrom (by omega)⟩
    by_cases hyear : yearFromDay (dayOf time) < 275760
    · exact swedishUtcOffsetHours_eq (by omega) hyear
    · have hyear : yearFromDay (dayOf time) = 275760 := by omega
      have hwinter : ¬SummerTime time := by
        rw [summerTime_iff, hyear, hmarch]
        omega
      rw [swedishUtcOffsetHours_last hyear, euOffsetHours, if_neg hwinter]

end

/-- The repeated hour of October 2024, while it is still summer. -/
theorem swedishTime_repeated_hour :
    swedishUtcOffsetHours 1729990799999 = euOffsetHours 1729990799999 ∧
      ∃ text, formatSwedishTimestampWithOffset (fun _ => some 1729990799999) [] = .ok text ∧
        readTimestamp text = some (1729990799999 - 1729990799999 % 60000) :=
  (swedishTime_iff rfl (by decide) (by decide)).mpr (by decide)

/-- The last summer begins, and the offset stays that of winter. -/
theorem swedishUtcOffsetHours_last_summer :
    swedishUtcOffsetHours 8639985574800000 ≠ euOffsetHours 8639985574800000 := by
  have hyear : yearFromDay (dayOf 8639985574800000) = 275760 := by decide
  have hsummer : SummerTime 8639985574800000 := by
    rw [summerTime_iff, hyear]
    decide
  rw [swedishUtcOffsetHours_last hyear, euOffsetHours, if_pos hsummer]
  decide

end Kommunsign.Locale
