import Mathlib.Data.List.Sort
import Mathlib.Tactic.Common
import Kommunsign.Data.Contracts
import Kommunsign.Data.Rows
import Kommunsign.Infra.Json

/-!
# Texts, as the source and its languages write them

Where an identifier, a digest or a time becomes part of a text: the decimal digits of an
identifier stand for its UUID, a digest is 64 hexadecimal digits, and a time is what
`Date.prototype.toISOString` writes.

* `trim`, `toLowerCase` — methods of a string
* `sortStrings` — `sort` without a comparator
-/

namespace Kommunsign

section Texts

open Infra

def idText (id : Id) : Text := Nat.toDigits 10 id

/-- The last `width` digits of a number in a base, with leading zeros. -/
def digits (base : Nat) : Nat → Nat → Text
  | 0, _ => []
  | width + 1, n => digits base width (n / base) ++ [Json.hexDigit (n % base)]

/-- Hexadecimal, 64 digits. -/
def sha256Text (sha256 : Digest) : Text := digits 16 64 sha256

/-- The year, month and day of a number of days since 1970-01-01. -/
def civilFromDays (days : Nat) : Nat × Nat × Nat :=
  let z := days + 719468
  let era := z / 146097
  let doe := z % 146097
  let yoe := (doe - doe / 1460 + doe / 36524 - doe / 146096) / 365
  let doy := doe - (365 * yoe + yoe / 4 - yoe / 100)
  let mp := (5 * doy + 2) / 153
  let day := doy - (153 * mp + 2) / 5 + 1
  let month := if mp < 10 then mp + 3 else mp - 9
  (yoe + era * 400 + (if month ≤ 2 then 1 else 0), month, day)

/-- `new Date(time).toISOString()`. -/
def isoText (time : Time) : Text :=
  let (year, month, day) := civilFromDays (time / 86400000)
  let inDay := time % 86400000
  (if year < 10000 then digits 10 4 year else '+' :: digits 10 6 year) ++
    '-' :: digits 10 2 month ++ '-' :: digits 10 2 day ++
    'T' :: digits 10 2 (inDay / 3600000) ++ ':' :: digits 10 2 (inDay / 60000 % 60) ++
    ':' :: digits 10 2 (inDay / 1000 % 60) ++ '.' :: digits 10 3 (inDay % 1000) ++ ['Z']

example : isoText 1735689599999 = "2024-12-31T23:59:59.999Z".toList := by decide

end Texts

/-!
# Texts and lists of JavaScript
-/

section JavaScript

open Infra

/-- `String.prototype.trim` -/
def trim (s : Text) : Text := ((s.dropWhile isTrimmed).reverse.dropWhile isTrimmed).reverse

/-- `String.prototype.toLowerCase`; `unicode` is what it does to a text that is not ASCII. -/
def toLowerCase (unicode : Text → Text) (s : Text) : Text :=
  if s.all fun c => decide (c.toNat < 128) then s.map Char.toLower else unicode s

/-- `/^\d{1,3}$/` -/
def isShortNumber (part : Text) : Bool :=
  decide (1 ≤ part.length) && decide (part.length ≤ 3) && part.all Char.isDigit

theorem isShortNumber_toDigits {n : ℕ} (h : n < 256) :
    isShortNumber (Nat.toDigits 10 n) = true := by
  unfold isShortNumber
  have hlength : (Nat.toDigits 10 n).length ≤ 3 :=
    (Nat.length_toDigits_le_iff (by decide) (by decide)).mpr (by omega)
  have hpos : 1 ≤ (Nat.toDigits 10 n).length := Nat.length_toDigits_pos
  rw [Bool.and_eq_true, Bool.and_eq_true, decide_eq_true_eq, decide_eq_true_eq, List.all_eq_true]
  exact ⟨⟨hpos, hlength⟩, fun c hc => Nat.isDigit_of_mem_toDigits (by decide) (by decide) hc⟩

theorem not_isShortNumber {part : Text} {c : Char} (hmem : c ∈ part) (hc : c.isDigit = false) :
    isShortNumber part = false := by
  unfold isShortNumber
  have hall : part.all Char.isDigit = false := List.all_eq_false.mpr ⟨c, hmem, by simp [hc]⟩
  rw [hall, Bool.and_false]

/-- `Array.prototype.sort` without a comparator. -/
def sortStrings (strings : List String) : List String :=
  strings.insertionSort fun a b => Json.unitsLe (Json.utf16 a.toList) (Json.utf16 b.toList) = true

theorem mem_sortStrings {s : String} {strings : List String} :
    s ∈ sortStrings strings ↔ s ∈ strings := List.mem_insertionSort _

/-- What every object has besides its own members. -/
def objectPrototype : List String :=
  ["constructor", "__defineGetter__", "__defineSetter__", "hasOwnProperty", "__lookupGetter__",
    "__lookupSetter__", "isPrototypeOf", "propertyIsEnumerable", "toString", "valueOf",
    "__proto__", "toLocaleString"]

end JavaScript

/-!
# Texts of Java
-/

/-- `Character.isWhitespace` -/
def isJavaWhitespace (c : Char) : Bool :=
  c ∈ ['\t', '\n', '\x0b', '\x0c', '\r', '\x1c', '\x1d', '\x1e', '\x1f', ' ', '\u1680', '\u2028',
    '\u2029', '\u205f', '\u3000'] ||
  (0x2000 ≤ c.toNat && c.toNat ≤ 0x200a && c.toNat ≠ 0x2007)

def javaIsBlank (text : String) : Bool := text.toList.all isJavaWhitespace

/-- Everything up to the space counts. -/
def javaTrim (text : String) : String :=
  let isTrimmed (c : Char) : Bool := decide (c.toNat ≤ 0x20)
  String.ofList (((text.toList.dropWhile isTrimmed).reverse.dropWhile isTrimmed).reverse)

end Kommunsign
