import Kommunsign.Data.Contracts
import Kommunsign.Infra.CalendarDays

/-!
# Swedish personal identity numbers

* `normalizeSwedishPersonalNumber` — twelve digits, of what a person or a service writes
* `inferCentury` — the year that two digits stand for
-/

namespace Kommunsign

open Infra

/-- `[\s+-]` -/
def isNumberSeparator (c : Char) : Bool := isTrimmed c || c == '+' || c == '-'

/-- `Number` of digits, with a minus before them or not; everything else is no number here. -/
def readInteger : Text → Option ℤ
  | '-' :: digits =>
    if digits ≠ [] ∧ digits.all Char.isDigit = true then
      some (-((Nat.ofDigitChars 10 digits 0 : ℕ) : ℤ))
    else none
  | digits =>
    if digits ≠ [] ∧ digits.all Char.isDigit = true then
      some ((Nat.ofDigitChars 10 digits 0 : ℕ) : ℤ)
    else none

/-- `String(year).padStart(4, '0')` -/
def yearText (year : ℤ) : Text :=
  let text := if year < 0 then '-' :: Nat.toDigits 10 year.natAbs else Nat.toDigits 10 year.natAbs
  List.replicate (4 - text.length) '0' ++ text

/-- The day of `Date.UTC`, which reads the years below 100 as of the twentieth century. -/
def utcDay (year month date : ℤ) : ℤ :=
  makeDay (if 0 ≤ year ∧ year ≤ 99 then 1900 + year else year) month date

/-- The day of a time in milliseconds. -/
def dayOfTime (time : ℤ) : ℤ := time / 86400000

/-- `Number` is not a number where one of the parts is none. -/
def isCalendarDate (year month day : Option ℤ) : Bool :=
  match year, month, day with
  | some year, some month, some day =>
    let date := utcDay year (month - 1) day
    yearFromDay date == year && monthFromDay date == month - 1 && dateFromDay date == day
  | _, _, _ => false

/-- The sum of `luhnValid` from `index` on. -/
def luhnSum : ℕ → Text → ℕ
  | _, [] => 0
  | index, c :: rest =>
    let value := (c.toNat - '0'.toNat) * (if index % 2 = 0 then 2 else 1)
    (if value > 9 then value - 9 else value) + luhnSum (index + 1) rest

def luhnValid (tenDigits : Text) : Bool :=
  decide (tenDigits.length = 10) && tenDigits.all Char.isDigit && luhnSum 0 tenDigits % 10 == 0

/-- The digits are ten. -/
def inferCentury (tenDigits : Text) (referenceDate : ℤ) : Text :=
  let yearTwo : ℤ := Nat.ofDigitChars 10 (tenDigits.take 2) 0
  let month : ℤ := Nat.ofDigitChars 10 ((tenDigits.drop 2).take 2) 0
  let day : ℤ := Nat.ofDigitChars 10 ((tenDigits.drop 4).take 2) 0
  let currentYear := yearFromDay (dayOfTime referenceDate)
  let year := currentYear / 100 * 100 + yearTwo
  let candidate := utcDay year (month - 1) day
  let year := if candidate * 86400000 > referenceDate then year - 100 else year
  yearText year ++ tenDigits.drop 2

/-- Normalizes a Swedish personal identity number to YYYYMMDDNNNN and validates date + Luhn. The
reference date is a valid one, in milliseconds. -/
def normalizeSwedishPersonalNumber (input : Text) (referenceDate : ℤ) : Except String Text := do
  let digits := input.filter fun c => !isNumberSeparator c
  if ¬((digits.length = 10 ∨ digits.length = 12) ∧ digits.all Char.isDigit = true) then
    throw "PERSONAL_NUMBER_INVALID"
  let twelve := if digits.length = 12 then digits else inferCentury digits referenceDate
  let year := readInteger (twelve.take 4)
  let month := readInteger ((twelve.drop 4).take 2)
  let day := readInteger ((twelve.drop 6).take 2)
  if isCalendarDate year month day = false ∨ luhnValid (twelve.drop 2) = false then
    throw "PERSONAL_NUMBER_INVALID"
  return twelve

end Kommunsign
