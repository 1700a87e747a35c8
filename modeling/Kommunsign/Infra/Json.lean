import Mathlib.Algebra.Ring.Nat
import Mathlib.Data.List.Sort

/-!
# JSON values, their text, and reading the text back

A text is its list of characters. Numbers are integers: nothing that is written or read here has
a fraction, and the reader refuses one.

* `render` — `JSON.stringify` without spaces, members in the order they stand in
* `parse` — `JSON.parse`

`Kommunsign/Infra/JsonRoundtrip.lean` proves `parse (render j) = some j`.
-/

namespace Infra

/-- A string as its characters. -/
abbrev Text := List Char

inductive Json where
  | null
  | bool (b : Bool)
  | num (n : Int)
  | str (s : Text)
  | arr (items : List Json)
  | obj (members : List (Text × Json))

namespace Json

/-- An object with its names written as literals. -/
def object (members : List (String × Json)) : Json :=
  .obj (members.map fun m => (m.1.toList, m.2))

/-- A string value written as a literal. -/
def lit (s : String) : Json := .str s.toList

/-- The value under `name`, the last one if the name is repeated. -/
def field (name : String) : Json → Option Json
  | .obj members => (members.reverse.find? fun m => m.1 == name.toList).map (·.2)
  | _ => none

/-! ## UTF-16 order of names -/

/-- The UTF-16 code units of a character. -/
def utf16Units (c : Char) : List Nat :=
  if c.toNat < 0x10000 then [c.toNat]
  else [0xD800 + (c.toNat - 0x10000) / 0x400, 0xDC00 + (c.toNat - 0x10000) % 0x400]

def utf16 (s : Text) : List Nat := s.flatMap utf16Units

/-- Lexicographic order of code units, as `Array.prototype.sort` without a comparator. -/
def unitsLe : List Nat → List Nat → Bool
  | [], _ => true
  | _ :: _, [] => false
  | a :: as, b :: bs => if a = b then unitsLe as bs else decide (a < b)

def nameLe (a b : Text × Json) : Prop := unitsLe (utf16 a.1) (utf16 b.1) = true

instance (a b : Text × Json) : Decidable (nameLe a b) := inferInstanceAs (Decidable (_ = _))

mutual

/-- The same value with every object's members sorted by name. -/
def canonical : Json → Json
  | .arr items => .arr (canonicalItems items)
  | .obj members => .obj ((canonicalMembers members).insertionSort nameLe)
  | .null => .null
  | .bool b => .bool b
  | .num n => .num n
  | .str s => .str s

def canonicalItems : List Json → List Json
  | [] => []
  | item :: items => canonical item :: canonicalItems items

def canonicalMembers : List (Text × Json) → List (Text × Json)
  | [] => []
  | (name, value) :: members => (name, canonical value) :: canonicalMembers members

end

/-! ## Writing -/

def hexDigit (n : Nat) : Char := Char.ofNat (if n < 10 then 0x30 + n else 0x61 + n - 10)

/-- A character inside a JSON string. -/
def escapeChar (c : Char) : Text :=
  if c = '"' then ['\\', '"']
  else if c = '\\' then ['\\', '\\']
  else if c = '\x08' then ['\\', 'b']
  else if c = '\x0c' then ['\\', 'f']
  else if c = '\n' then ['\\', 'n']
  else if c = '\r' then ['\\', 'r']
  else if c = '\t' then ['\\', 't']
  else if c.toNat < 0x20 then ['\\', 'u', '0', '0', hexDigit (c.toNat / 16), hexDigit (c.toNat % 16)]
  else [c]

def escape (s : Text) : Text := s.flatMap escapeChar

def quote (s : Text) : Text := '"' :: (escape s ++ ['"'])

def renderInt : Int → Text
  | .ofNat n => Nat.toDigits 10 n
  | .negSucc n => '-' :: Nat.toDigits 10 (n + 1)

mutual

def render : Json → Text
  | .null => "null".toList
  | .bool true => "true".toList
  | .bool false => "false".toList
  | .num n => renderInt n
  | .str s => quote s
  | .arr items => '[' :: renderItems items
  | .obj members => '{' :: renderMembers members

/-- The items of an array with the bracket that ends it. -/
def renderItems : List Json → Text
  | [] => [']']
  | [item] => render item ++ [']']
  | item :: next :: items => render item ++ ',' :: renderItems (next :: items)

/-- The members of an object with the brace that ends it. -/
def renderMembers : List (Text × Json) → Text
  | [] => ['}']
  | [(name, value)] => quote name ++ ':' :: (render value ++ ['}'])
  | (name, value) :: next :: members =>
    quote name ++ ':' :: (render value ++ ',' :: renderMembers (next :: members))

end

/-! ## Reading -/

def isSpace (c : Char) : Bool := c = ' ' || c = '\n' || c = '\r' || c = '\t'

def skipSpace (s : Text) : Text := s.dropWhile isSpace

def hexValue (c : Char) : Option Nat :=
  if '0' ≤ c && c ≤ '9' then some (c.toNat - 0x30)
  else if 'a' ≤ c && c ≤ 'f' then some (c.toNat - 0x61 + 10)
  else if 'A' ≤ c && c ≤ 'F' then some (c.toNat - 0x41 + 10)
  else none

/-- The code unit of `\uXXXX`. -/
def codeUnit (a b c d : Char) : Option Nat := do
  some ((((← hexValue a) * 16 + (← hexValue b)) * 16 + (← hexValue c)) * 16 + (← hexValue d))

/-- The escapes of one letter. -/
def simpleEscape (c : Char) : Option Char :=
  if c = '"' ∨ c = '\\' ∨ c = '/' then some c
  else if c = 'b' then some '\x08'
  else if c = 'f' then some '\x0c'
  else if c = 'n' then some '\n'
  else if c = 'r' then some '\r'
  else if c = 't' then some '\t'
  else none

/-- Puts `c` before what a string reader found. -/
def consChar (c : Char) : Option (Text × Text) → Option (Text × Text)
  | some (s, rest) => some (c :: s, rest)
  | none => none

/--
The rest of a string after its opening quote.

A pair of escaped surrogates is one character; a lone surrogate is no character and is refused.
-/
def parseString : Text → Option (Text × Text)
  | [] => none
  | c :: rest =>
    if c = '"' then some ([], rest)
    else if c = '\\' then
      match rest with
      | [] => none
      | e :: rest =>
        if e = 'u' then
          match rest with
          | a :: b :: c :: d :: rest =>
            match codeUnit a b c d with
            | none => none
            | some high =>
              if high < 0xD800 ∨ 0xDFFF < high then consChar (Char.ofNat high) (parseString rest)
              else
                match rest with
                | '\\' :: 'u' :: a' :: b' :: c' :: d' :: rest =>
                  match codeUnit a' b' c' d' with
                  | none => none
                  | some low =>
                    if high < 0xDC00 ∧ 0xDC00 ≤ low ∧ low ≤ 0xDFFF then
                      consChar (Char.ofNat (0x10000 + (high - 0xD800) * 0x400 + (low - 0xDC00)))
                        (parseString rest)
                    else none
                | _ => none
          | _ => none
        else
          match simpleEscape e with
          | none => none
          | some c => consChar c (parseString rest)
    else if c.toNat < 0x20 then none
    else consChar c (parseString rest)

/-- The text after `word`, if the text begins with it. -/
def stripWord : Text → Text → Option Text
  | [], s => some s
  | _ :: _, [] => none
  | w :: word, c :: s => if w = c then stripWord word s else none

/-- An unsigned integer: its digits have no leading zero and nothing after them makes a fraction. -/
def parseNat (s : Text) : Option (Nat × Text) :=
  let digits := s.takeWhile Char.isDigit
  let rest := s.dropWhile Char.isDigit
  let n := Nat.ofDigitChars 10 digits 0
  if Nat.toDigits 10 n = digits ∧ rest.head?.all (fun c => c ≠ '.' ∧ c ≠ 'e' ∧ c ≠ 'E') then
    some (n, rest)
  else none

def parseNumber : Text → Option (Json × Text)
  | '-' :: s => (parseNat s).map fun r => (.num (-(r.1 : Int)), r.2)
  | s => (parseNat s).map fun r => (.num r.1, r.2)

def parseScalar (s : Text) : Option (Json × Text) :=
  match stripWord "null".toList s with
  | some rest => some (.null, rest)
  | none =>
    match stripWord "true".toList s with
    | some rest => some (.bool true, rest)
    | none =>
      match stripWord "false".toList s with
      | some rest => some (.bool false, rest)
      | none => parseNumber s

mutual

/-- A value, and the text after it. The fuel bounds the number of calls. -/
def parseValue : Nat → Text → Option (Json × Text)
  | 0, _ => none
  | fuel + 1, s =>
    match skipSpace s with
    | [] => none
    | c :: rest =>
      if c = '"' then (parseString rest).map fun r => (.str r.1, r.2)
      else if c = '[' then
        if (skipSpace rest).head? = some ']' then some (.arr [], (skipSpace rest).tail)
        else (parseItems fuel rest).map fun r => (.arr r.1, r.2)
      else if c = '{' then
        if (skipSpace rest).head? = some '}' then some (.obj [], (skipSpace rest).tail)
        else (parseMembers fuel rest).map fun r => (.obj r.1, r.2)
      else parseScalar (c :: rest)

/-- The items of a nonempty array, through the bracket that ends it. -/
def parseItems : Nat → Text → Option (List Json × Text)
  | 0, _ => none
  | fuel + 1, s =>
    match parseValue fuel s with
    | none => none
    | some (item, rest) =>
      match skipSpace rest with
      | ',' :: rest => (parseItems fuel rest).map fun r => (item :: r.1, r.2)
      | ']' :: rest => some ([item], rest)
      | _ => none

/-- The members of a nonempty object, through the brace that ends it. -/
def parseMembers : Nat → Text → Option (List (Text × Json) × Text)
  | 0, _ => none
  | fuel + 1, s =>
    match skipSpace s with
    | '"' :: rest =>
      match parseString rest with
      | none => none
      | some (name, rest) =>
        match skipSpace rest with
        | ':' :: rest =>
          match parseValue fuel rest with
          | none => none
          | some (value, rest) =>
            match skipSpace rest with
            | ',' :: rest => (parseMembers fuel rest).map fun r => ((name, value) :: r.1, r.2)
            | '}' :: rest => some ([(name, value)], rest)
            | _ => none
        | _ => none
    | _ => none

end

/-- `JSON.parse`: one value and nothing but space after it. -/
def parse (s : Text) : Option Json :=
  match parseValue (2 * s.length + 1) s with
  | some (j, rest) => if skipSpace rest = [] then some j else none
  | none => none

end Json

end Infra
