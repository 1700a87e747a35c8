import Kommunsign.Infra.Bytes
import Kommunsign.Infra.Timestamptz

/-!
# Files and content streams of PDF

* `IsFile` — objects, each where the cross-reference table says
* `tokens` — the words and the literal strings of a content stream
-/

namespace Infra.Pdf

def ascii (s : String) : List UInt8 := utf8 s.toList

def decimal (n : ℕ) : List UInt8 := utf8 (Nat.toDigits 10 n)

/-! ## Files -/

def object (number : ℕ) (body : List UInt8) : List UInt8 :=
  decimal number ++ ascii " 0 obj\n" ++ body ++ ascii "\nendobj\n"

def stream (content : List UInt8) : List UInt8 :=
  ascii "<< /Length " ++ decimal content.length ++ ascii " >>\nstream\n" ++ content ++
    ascii "\nendstream"

/-- The line of an object in the table. -/
def entry (offset : ℕ) : List UInt8 := utf8 (padded 10 offset) ++ ascii " 00000 n \n"

def table (offsets : List ℕ) : List UInt8 :=
  ascii "xref\n0 " ++ decimal (offsets.length + 1) ++ ascii "\n0000000000 65535 f \n" ++
    offsets.flatMap entry

/-- What follows the table, which stands at `start`. -/
def trailer (count start : ℕ) : List UInt8 :=
  ascii "trailer\n<< /Size " ++ decimal (count + 1) ++ ascii " /Root 1 0 R >>\nstartxref\n" ++
    decimal start ++ ascii "\n%%EOF\n"

/--
The objects are numbered from one on, and every offset is where its object begins; the lines of the
table have twenty bytes as long as ten digits are enough.
-/
def IsFile (bytes : List UInt8) (bodies : List (List UInt8)) : Prop :=
  ∃ (offsets : List ℕ) (front : List UInt8), ascii "%PDF-1.4\n" <+: front ∧
    bytes = front ++ table offsets ++ trailer offsets.length front.length ∧
    List.Forall₂ (fun offset (body : List UInt8 × ℕ) =>
      object (body.2 + 1) body.1 <+: bytes.drop offset ∧
        (bytes.length < 10 ^ 10 → (entry offset).length = 20)) offsets bodies.zipIdx

theorem utf8_append (s t : Text) : utf8 (s ++ t) = utf8 s ++ utf8 t := List.flatMap_append

theorem utf8_flatMap {α : Type} (items : List α) (f : α → Text) :
    utf8 (items.flatMap f) = items.flatMap fun a => utf8 (f a) := List.flatMap_assoc

/-- A byte of a character that is not ASCII is not ASCII. -/
theorem mem_utf8EncodeChar {c : Char} {b : UInt8} (h : b ∈ String.utf8EncodeChar c) :
    128 ≤ b.toNat ∨ b.toNat = c.toNat := by
  have hc : c.val.toNat = c.toNat := rfl
  unfold String.utf8EncodeChar at h
  dsimp only at h
  split at h
  · obtain rfl := List.mem_singleton.mp h
    refine Or.inr ?_
    rw [UInt8.toNat_ofNat', ← hc]
    omega
  refine Or.inl ?_
  split at h
  · simp only [List.mem_cons, List.not_mem_nil, or_false] at h
    rcases h with rfl | rfl <;> rw [UInt8.toNat_ofNat'] <;> omega
  split at h
  · simp only [List.mem_cons, List.not_mem_nil, or_false] at h
    rcases h with rfl | rfl | rfl <;> rw [UInt8.toNat_ofNat'] <;> omega
  · simp only [List.mem_cons, List.not_mem_nil, or_false] at h
    rcases h with rfl | rfl | rfl | rfl <;> rw [UInt8.toNat_ofNat'] <;> omega

theorem utf8_digits {s : Text} (h : ∀ c ∈ s, c.isDigit = true) : (utf8 s).length = s.length := by
  induction s with
  | nil => rfl
  | cons c s ih =>
    obtain ⟨hc, hs⟩ := List.forall_mem_cons.mp h
    have hsize : c.utf8Size = 1 := by
      have hdigit := (digit_lt hc).2
      rw [Char.utf8Size_eq_one_iff, UInt32.le_iff_toNat_le]
      show c.toNat ≤ 127
      omega
    have hcons : utf8 (c :: s) = String.utf8EncodeChar c ++ utf8 s := List.flatMap_cons
    rw [hcons, List.length_append, String.length_utf8EncodeChar, hsize, ih hs, List.length_cons,
      Nat.add_comm]

theorem length_entry {offset : ℕ} (h : offset < 10 ^ 10) : (entry offset).length = 20 := by
  have hdigits : (utf8 (padded 10 offset)).length = 10 := by
    rw [utf8_digits fun c hc => isDigit_of_mem_padded hc, length_padded (by decide) h]
  rw [entry, List.length_append, hdigits]
  rfl

/-! ## Content streams -/

inductive Token where
  | word (bytes : List UInt8)
  | literal (bytes : List UInt8)
  deriving DecidableEq

/-- Between tokens, in one of them, or behind the backslash of a literal. -/
inductive Mode where
  | blank
  | word (bytes : List UInt8)
  | literal (bytes : List UInt8)
  | escape (bytes : List UInt8)
  deriving DecidableEq

def isSpace (b : UInt8) : Bool := [0x00, 0x09, 0x0A, 0x0C, 0x0D, 0x20].contains b

/-- `()<>[]\{}%` -/
def isDelimiter (b : UInt8) : Bool :=
  [0x28, 0x29, 0x3C, 0x3E, 0x5B, 0x5D, 0x7B, 0x7D, 0x25].contains b

/-- The tokens here have white space behind them, and the parentheses in a literal are escaped. -/
def Mode.step (b : UInt8) : Mode → Option (List Token × Mode)
  | .blank =>
    if isSpace b then some ([], .blank)
    else if b = 0x28 then some ([], .literal [])
    else if isDelimiter b then none
    else some ([], .word [b])
  | .word bytes =>
    if isSpace b then some ([.word bytes], .blank)
    else if isDelimiter b then none
    else some ([], .word (bytes ++ [b]))
  | .literal bytes =>
    if b = 0x29 then some ([.literal bytes], .blank)
    else if b = 0x28 then none
    else if b = 0x5C then some ([], .escape bytes)
    else some ([], .literal (bytes ++ [b]))
  | .escape bytes =>
    if [0x28, 0x29, 0x5C].contains b then some ([], .literal (bytes ++ [b])) else none

def lex : Mode → List UInt8 → Option (List Token × Mode)
  | mode, [] => some ([], mode)
  | mode, b :: bytes => do
    let (first, mode) ← mode.step b
    let (rest, mode) ← lex mode bytes
    return (first ++ rest, mode)

/-- The tokens of a whole stream. -/
def tokens (content : List UInt8) : Option (List Token) :=
  match lex .blank content with
  | some (found, .blank) => some found
  | some (found, .word bytes) => some (found ++ [.word bytes])
  | _ => none

theorem lex_append {mode mode' mode'' : Mode} {xs ys : List UInt8} {found found' : List Token}
    (h : lex mode xs = some (found, mode')) (h' : lex mode' ys = some (found', mode'')) :
    lex mode (xs ++ ys) = some (found ++ found', mode'') := by
  induction xs generalizing mode found with
  | nil =>
    cases h
    exact h'
  | cons b xs ih =>
    obtain ⟨⟨first, next⟩, hstep, h⟩ := Option.bind_eq_some_iff.mp h
    obtain ⟨⟨rest, last⟩, hrest, h⟩ := Option.bind_eq_some_iff.mp h
    cases h
    rw [List.cons_append, lex, hstep]
    simp only [bind, Option.bind, ih hrest]
    rw [List.append_assoc]
    rfl

/-! ## Texts in literals -/

/-- Every backslash and every parenthesis gets a backslash. -/
def escapeLiteral (s : Text) : Text :=
  s.flatMap fun c => if c ∈ ['\\', '(', ')'] then ['\\', c] else [c]

theorem lex_plain {bytes s : List UInt8} (h : ∀ b ∈ bytes, b ≠ 0x28 ∧ b ≠ 0x29 ∧ b ≠ 0x5C) :
    lex (.literal s) bytes = some ([], .literal (s ++ bytes)) := by
  induction bytes generalizing s with
  | nil => rw [List.append_nil, lex]
  | cons b bytes ih =>
    obtain ⟨⟨hopen, hclose, hescape⟩, hrest⟩ := List.forall_mem_cons.mp h
    have hstep : (Mode.literal s).step b = some ([], .literal (s ++ [b])) := by
      rw [Mode.step, if_neg hclose, if_neg hopen, if_neg hescape]
    rw [lex, hstep]
    simp only [bind, Option.bind, ih hrest]
    rw [List.append_assoc]
    rfl

/-- An escaped text is read back within its literal. -/
theorem lex_escapeLiteral (s : Text) (before : List UInt8) :
    lex (.literal before) (utf8 (escapeLiteral s)) = some ([], .literal (before ++ utf8 s)) := by
  induction s generalizing before with
  | nil => exact congrArg (fun bytes => some ([], Mode.literal bytes)) (List.append_nil before).symm
  | cons c s ih =>
    have hcons : utf8 (c :: s) = String.utf8EncodeChar c ++ utf8 s := List.flatMap_cons
    have hchar : lex (.literal before)
        (utf8 (if c ∈ ['\\', '(', ')'] then ['\\', c] else [c])) =
          some ([], .literal (before ++ String.utf8EncodeChar c)) := by
      by_cases hc : c ∈ ['\\', '(', ')']
      · rw [if_pos hc]
        simp only [List.mem_cons, List.not_mem_nil, or_false] at hc
        rcases hc with rfl | rfl | rfl <;> rfl
      · rw [if_neg hc, show utf8 [c] = String.utf8EncodeChar c from List.append_nil _]
        refine lex_plain fun b hb => ?_
        have hbyte := mem_utf8EncodeChar hb
        have hcode : ∀ d ∈ ['\\', '(', ')'], c.toNat ≠ d.toNat :=
          fun d hd h => hc (Char.toNat_inj.mp h ▸ hd)
        have hescape : c.toNat ≠ 92 := hcode '\\' (by decide)
        have hopen : c.toNat ≠ 40 := hcode '(' (by decide)
        have hclose : c.toNat ≠ 41 := hcode ')' (by decide)
        refine ⟨?_, ?_, ?_⟩
        · rintro rfl
          have hvalue : UInt8.toNat 0x28 = 40 := rfl
          omega
        · rintro rfl
          have hvalue : UInt8.toNat 0x29 = 41 := rfl
          omega
        · rintro rfl
          have hvalue : UInt8.toNat 0x5C = 92 := rfl
          omega
    have htext : escapeLiteral (c :: s) =
        (if c ∈ ['\\', '(', ')'] then ['\\', c] else [c]) ++ escapeLiteral s :=
      List.flatMap_cons
    rw [htext, utf8_append, lex_append hchar (ih _), hcons, List.append_assoc]
    rfl

end Infra.Pdf
