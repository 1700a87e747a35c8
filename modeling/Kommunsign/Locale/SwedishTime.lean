import Kommunsign.Infra.CalendarDays

/-!
# Swedish local time

The offset and the texts of a time are computed from its parts in UTC, as `Date` has them. A time is
in milliseconds, and what is further from the epoch than `Date` goes is `none`, as `NaN` is.

* `swedishUtcOffsetHours`, `formatSwedishTimestampWithOffset` — the functions of the package
* `SummerTime`, `readTimestamp` — the rule of the European Union, and what a text says
-/

namespace Kommunsign.Locale

open Infra

/-! ## Dates -/

def timeClip (time : ℤ) : Option ℤ := if time.natAbs ≤ 8640000000000000 then some time else none

def dayOf (time : ℤ) : ℤ := time / 86400000

/-- `getUTCDay`, from zero for Sunday, of a day. -/
def weekDay (day : ℤ) : ℤ := (day + 4) % 7

/-- `Date.UTC`, which reads the years below 100 as of the twentieth century. -/
def utc (year month : ℤ) (date : Option ℤ) (hours : ℤ) : Option ℤ := do
  let date ← date
  timeClip (makeDay (if 0 ≤ year ∧ year ≤ 99 then 1900 + year else year) month date * 86400000 +
    hours * 3600000)

/-! ## Offset and texts -/

/-- The instant is a valid one; a comparison with `NaN` is false. -/
def swedishUtcOffsetHours (instant : ℤ) : ℤ :=
  let year := yearFromDay (dayOf instant)
  let lastSunday (month : ℤ) : Option ℤ :=
    (utc year (month + 1) (some 0) 0).map fun last =>
      dateFromDay (dayOf last) - weekDay (dayOf last)
  let summerStart := utc year 2 (lastSunday 2) 1
  let summerEnd := utc year 9 (lastSunday 9) 1
  if summerStart.any (· ≤ instant) && summerEnd.any (instant < ·) then 2 else 1

def shifted (instant : ℤ) : Option ℤ := timeClip (instant + swedishUtcOffsetHours instant * 3600000)

/-- `String(value)` -/
def decimal : Option ℤ → Text
  | none => ['N', 'a', 'N']
  | some value => (if value < 0 then ['-'] else []) ++ Nat.toDigits 10 value.natAbs

/-- `pad(value)`, of width two. -/
def pad (value : Option ℤ) : Text :=
  List.replicate (2 - (decimal value).length) '0' ++ decimal value

structure LocaleError where
  instant : Text
  deriving DecidableEq

section

-- `Date.parse`; `none` is `NaN`.
variable (parseDate : Text → Option ℤ)

def parse (instant : Text) : Except LocaleError ℤ :=
  match parseDate instant with
  | none => throw ⟨instant⟩
  | some time => return time

def formatSwedishDate (instant : Text) : Except LocaleError Text := do
  let here := (shifted (← parse parseDate instant)).map dayOf
  return decimal (here.map yearFromDay) ++ '-' :: pad (here.map (monthFromDay · + 1)) ++
    '-' :: pad (here.map dateFromDay)

def formatSwedishTime (instant : Text) : Except LocaleError Text := do
  let here := shifted (← parse parseDate instant)
  return pad (here.map (· % 86400000 / 3600000)) ++ ':' :: pad (here.map (· % 3600000 / 60000))

def formatSwedishDateTime (instant : Text) : Except LocaleError Text := do
  return (← formatSwedishDate parseDate instant) ++ ' ' :: (← formatSwedishTime parseDate instant)

def formatSwedishTimestampWithOffset (instant : Text) : Except LocaleError Text := do
  let offset := swedishUtcOffsetHours (← parse parseDate instant)
  return (← formatSwedishDateTime parseDate instant) ++
    ([' ', '(', 'U', 'T', 'C', '+'] ++ decimal (some offset) ++ [')'])

end

/-! ## What they should be -/

/-- The last Sunday of a month, from one to twelve. -/
def IsLastSunday (year : ℤ) (month day : ℕ) : Prop :=
  IsDate year month day ∧ weekDay (makeDay year (month - 1) day) = 0 ∧
    ∀ later, day < later → IsDate year month later → weekDay (makeDay year (month - 1) later) ≠ 0

/-- 01:00 UTC of a day. -/
def changeTime (year : ℤ) (month day : ℕ) : ℤ := makeDay year (month - 1) day * 86400000 + 3600000

/-- The summer time of the European Union, from the last Sunday of March to that of October. -/
def SummerTime (time : ℤ) : Prop :=
  ∃ (year : ℤ) (first last : ℕ), IsLastSunday year 3 first ∧ IsLastSunday year 10 last ∧
    changeTime year 3 first ≤ time ∧ time < changeTime year 10 last

/-- Digits, as a number. -/
def number? (s : Text) : Option ℕ :=
  if s ≠ [] ∧ s.all Char.isDigit = true then some (Nat.ofDigitChars 10 s 0) else none

/-- What follows the year; the number signs stand for digits. -/
def template : Text := "-##-## ##:## (UTC+#)".toList

/-- The time that a text states. -/
def readTimestamp (text : Text) : Option ℤ := do
  let rest := text.drop (text.length - 20)
  if (rest.zip template).all fun (c, sign) => sign == '#' || c == sign then
    let year ← number? (text.take (text.length - 20))
    let month ← number? ((rest.drop 1).take 2)
    let day ← number? ((rest.drop 4).take 2)
    let hour ← number? ((rest.drop 7).take 2)
    let minute ← number? ((rest.drop 10).take 2)
    let offset ← number? ((rest.drop 18).take 1)
    if IsDate year month day ∧ hour < 24 ∧ minute < 60 then
      return makeDay year (month - 1) day * 86400000 + hour * 3600000 + minute * 60000 -
        offset * 3600000
  none

end Kommunsign.Locale
