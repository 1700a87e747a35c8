import Mathlib.Data.List.Lex
import Mathlib.Order.Fin.Basic
import Kommunsign.Infra.JsonRoundtrip

/-!
# Strings of code units in a JSON text

A string is a list of code units of 16 bits, and its surrogates need not be paired. The text that
it is quoted in is well formed: two surrogates of a pair stand as their character, and a lone one is
escaped.

* `quoteUnits` — `JSON.stringify` of a string
* `readString` — the string of a JSON text, after its opening quote
-/

namespace Infra

open Json

abbrev CodeUnit := Fin 65536

/-- A string as its code units. -/
abbrev Units := List CodeUnit

local instance codeUnitNeZero : NeZero 65536 := ⟨by decide⟩

def unit (n : ℕ) : CodeUnit := Fin.ofNat 65536 n

theorem unit_val (u : CodeUnit) : unit u.val = u := Fin.ofNat_val_eq_self u

/-- The code units of a character. -/
def charUnits (c : Char) : Units :=
  if c.toNat < 0x10000 then [unit c.toNat]
  else [unit (0xD800 + (c.toNat - 0x10000) / 0x400), unit (0xDC00 + (c.toNat - 0x10000) % 0x400)]

/-- A literal as its code units. -/
def unitsOf (s : String) : Units := s.toList.flatMap charUnits

def isHighSurrogate (u : CodeUnit) : Bool := decide (0xD800 ≤ u.val) && decide (u.val < 0xDC00)

def isLowSurrogate (u : CodeUnit) : Bool := decide (0xDC00 ≤ u.val) && decide (u.val < 0xE000)

/-- The character of a pair of surrogates. -/
def pairChar (high low : CodeUnit) : Char :=
  Char.ofNat (0x10000 + (high.val - 0xD800) * 0x400 + (low.val - 0xDC00))

/-! ## Writing -/

/-- A unit that is not one of a pair. -/
def escapeUnit (u : CodeUnit) : Text :=
  if 0xD800 ≤ u.val ∧ u.val < 0xE000 then
    ['\\', 'u', hexDigit (u.val / 0x1000), hexDigit (u.val / 0x100 % 16),
      hexDigit (u.val / 16 % 16), hexDigit (u.val % 16)]
  else escapeChar (Char.ofNat u.val)

def escapeUnits : Units → Text
  | [] => []
  | [u] => escapeUnit u
  | u :: v :: rest =>
    if isHighSurrogate u && isLowSurrogate v then pairChar u v :: escapeUnits rest
    else escapeUnit u ++ escapeUnits (v :: rest)

def quoteUnits (s : Units) : Text := '"' :: (escapeUnits s ++ ['"'])

/-! ## Reading -/

/-- Puts `units` before what a reader found. -/
def consUnits (units : Units) (found : Option (Units × Text)) : Option (Units × Text) :=
  found.map fun r => (units ++ r.1, r.2)

/-- The rest of a string after its opening quote. -/
def readString : Text → Option (Units × Text)
  | [] => none
  | c :: rest =>
    if c = '"' then some ([], rest)
    else if c = '\\' then
      match rest with
      | [] => none
      | e :: rest =>
        if e = 'u' then
          match rest with
          | a :: b :: c :: d :: rest =>
            match codeUnit a b c d with
            | none => none
            | some n => consUnits [unit n] (readString rest)
          | _ => none
        else
          match simpleEscape e with
          | none => none
          | some c => consUnits (charUnits c) (readString rest)
    else if c.toNat < 0x20 then none
    else consUnits (charUnits c) (readString rest)

/-! ## What is quoted reads back -/

theorem readString_quote (rest : Text) : readString ('"' :: rest) = some ([], rest) := by
  rw [readString.eq_def]
  simp

theorem readString_simpleEscape {e c : Char} (hu : e ≠ 'u') (he : simpleEscape e = some c)
    (rest : Text) :
    readString ('\\' :: e :: rest) = consUnits (charUnits c) (readString rest) := by
  rw [readString.eq_def]
  simp only [show ('\\' = '"') = False from by decide, if_false, if_true, hu, he]

theorem readString_codeUnit {a b c d : Char} {n : ℕ} (h : codeUnit a b c d = some n)
    (rest : Text) : readString ('\\' :: 'u' :: a :: b :: c :: d :: rest) =
      consUnits [unit n] (readString rest) := by
  rw [readString.eq_def]
  simp only [show ('\\' = '"') = False from by decide, if_false, if_true, h]

theorem readString_plain {c : Char} (hq : c ≠ '"') (hb : c ≠ '\\') (hc : ¬c.toNat < 0x20)
    (rest : Text) : readString (c :: rest) = consUnits (charUnits c) (readString rest) := by
  rw [readString.eq_def]
  simp only [hq, hb, hc, if_false]

/-- The escapes of one letter, with the characters that they stand for. -/
theorem readString_escapeChar (c : Char) (rest : Text) :
    readString (escapeChar c ++ rest) = consUnits (charUnits c) (readString rest) := by
  unfold escapeChar
  split
  · next h =>
    rw [h]
    exact readString_simpleEscape (by decide) (by decide) rest
  next hq =>
  split
  · next h =>
    rw [h]
    exact readString_simpleEscape (by decide) (by decide) rest
  next hb =>
  split
  · next h =>
    rw [h]
    exact readString_simpleEscape (by decide) (by decide) rest
  split
  · next h =>
    rw [h]
    exact readString_simpleEscape (by decide) (by decide) rest
  split
  · next h =>
    rw [h]
    exact readString_simpleEscape (by decide) (by decide) rest
  split
  · next h =>
    rw [h]
    exact readString_simpleEscape (by decide) (by decide) rest
  split
  · next h =>
    rw [h]
    exact readString_simpleEscape (by decide) (by decide) rest
  split
  · next hc =>
    have hsmall : c.toNat < 0x10000 := by omega
    have hunits : charUnits c = [unit c.toNat] := if_pos hsmall
    rw [hunits]
    exact readString_codeUnit (codeUnit_control hc) rest
  · next hc => exact readString_plain hq hb hc rest

theorem codeUnit_hexDigits {n : ℕ} (h : n < 65536) :
    codeUnit (hexDigit (n / 0x1000)) (hexDigit (n / 0x100 % 16)) (hexDigit (n / 16 % 16))
      (hexDigit (n % 16)) = some n := by
  have ha := hexValue_hexDigit (n / 0x1000) (by omega)
  have hb := hexValue_hexDigit (n / 0x100 % 16) (by omega)
  have hc := hexValue_hexDigit (n / 16 % 16) (by omega)
  have hd := hexValue_hexDigit (n % 16) (by omega)
  simp only [codeUnit, ha, hb, hc, hd, Option.bind_eq_bind, Option.bind_some, Option.some.injEq]
  omega

theorem toNat_ofNat {n : ℕ} (h : n < 0xD800 ∨ 0xDFFF < n ∧ n < 0x110000) :
    (Char.ofNat n).toNat = n := by
  unfold Char.ofNat
  rw [dif_pos h]
  exact UInt32.toNat_ofNatLT ..

/-- An escaped unit is read as the unit. -/
theorem readString_escapeUnit (u : CodeUnit) (rest : Text) :
    readString (escapeUnit u ++ rest) = consUnits [u] (readString rest) := by
  have hu := u.isLt
  unfold escapeUnit
  by_cases h : 0xD800 ≤ u.val ∧ u.val < 0xE000
  · rw [if_pos h]
    show readString ('\\' :: 'u' :: _ :: _ :: _ :: _ :: rest) = _
    rw [readString_codeUnit (codeUnit_hexDigits hu), unit_val]
  · rw [if_neg h, readString_escapeChar]
    have hnat : (Char.ofNat u.val).toNat = u.val := toNat_ofNat (by omega)
    have hunits : charUnits (Char.ofNat u.val) = [u] := by
      unfold charUnits
      rw [hnat, if_pos hu, unit_val]
    rw [hunits]

theorem charUnits_pairChar {high low : CodeUnit} (hh : isHighSurrogate high = true)
    (hl : isLowSurrogate low = true) :
    0x10000 ≤ (pairChar high low).toNat ∧ charUnits (pairChar high low) = [high, low] := by
  simp only [isHighSurrogate, isLowSurrogate, Bool.and_eq_true, decide_eq_true_eq] at hh hl
  have hnat : (pairChar high low).toNat =
      0x10000 + (high.val - 0xD800) * 0x400 + (low.val - 0xDC00) := toNat_ofNat (by omega)
  refine ⟨by omega, ?_⟩
  unfold charUnits
  rw [if_neg (by omega)]
  have hhigh : 0xD800 + ((pairChar high low).toNat - 0x10000) / 0x400 = high.val := by omega
  have hlow : 0xDC00 + ((pairChar high low).toNat - 0x10000) % 0x400 = low.val := by omega
  rw [hhigh, hlow, unit_val, unit_val]

/-- A quoted string reads back. -/
theorem readString_escapeUnits (s : Units) (rest : Text) :
    readString (escapeUnits s ++ '"' :: rest) = some (s, rest) := by
  induction s using escapeUnits.induct with
  | case1 => exact readString_quote rest
  | case2 u =>
    rw [escapeUnits, readString_escapeUnit, readString_quote]
    rfl
  | case3 u v s hpair ih =>
    obtain ⟨hlarge, hunits⟩ := charUnits_pairChar (Bool.and_eq_true_iff.mp hpair).1
      (Bool.and_eq_true_iff.mp hpair).2
    rw [escapeUnits, if_pos hpair, List.cons_append, readString_plain, hunits, ih]
    · rfl
    · intro h
      rw [h] at hlarge
      exact absurd hlarge (by decide)
    · intro h
      rw [h] at hlarge
      exact absurd hlarge (by decide)
    · omega
  | case4 u v s hpair ih =>
    rw [escapeUnits, if_neg hpair, List.append_assoc, readString_escapeUnit, ih]
    rfl

end Infra
