import Mathlib.Data.List.Flatten
import Mathlib.Tactic.Ring
import Kommunsign.Infra.JsonRoundtrip

/-!
# Addresses of the internet protocols, and their texts

An address is its parts from the highest on: four of 8 bits, or eight of 16. An address of version 4
has one text. One of version 6 has many: groups may have leading zeros and letters of both cases,
`::` stands for groups of zeros, and the last two groups may be written as four decimal numbers. A
spelling is what such a text is made of.

* `Address.network` — the bits below a prefix are cleared
* `Ipv4.text`, `Ipv6Spelling.text`, `Ipv6Spelling.address` — texts, and the addresses they stand for
-/

namespace Infra

/-- The parts of an address, `width` bits each, the highest first. -/
@[ext]
structure Address (width count : ℕ) where
  parts : List ℕ
  length_parts : parts.length = count
  lt : ∀ p ∈ parts, p < 2 ^ width
  deriving DecidableEq

abbrev Ipv4 := Address 8 4

abbrev Ipv6 := Address 16 8

def ipv4 (a b c d : Fin 256) : Ipv4 where
  parts := [a.val, b.val, c.val, d.val]
  length_parts := rfl
  lt := by simp [a.isLt, b.isLt, c.isLt, d.isLt]

def ipv6 (a b c d e f g h : Fin 65536) : Ipv6 where
  parts := [a.val, b.val, c.val, d.val, e.val, f.val, g.val, h.val]
  length_parts := rfl
  lt := by simp [a.isLt, b.isLt, c.isLt, d.isLt, e.isLt, f.isLt, g.isLt, h.isLt]

/-! ## Networks -/

/-- Only the first `bits` bits are kept. -/
def maskParts (width : ℕ) : ℕ → List ℕ → List ℕ
  | _, [] => []
  | bits, p :: parts =>
    p / 2 ^ (width - bits) * 2 ^ (width - bits) :: maskParts width (bits - width) parts

theorem length_maskParts (width bits : ℕ) (parts : List ℕ) :
    (maskParts width bits parts).length = parts.length := by
  induction parts generalizing bits with
  | nil => rfl
  | cons p parts ih => rw [maskParts, List.length_cons, ih, List.length_cons]

/-- A prefix of whole parts keeps them and clears the rest. -/
theorem maskParts_mul {width : ℕ} {parts : List ℕ} (h : ∀ p ∈ parts, p < 2 ^ width) (k : ℕ) :
    maskParts width (width * k) parts =
      parts.take k ++ List.replicate (parts.length - k) 0 := by
  induction parts generalizing k with
  | nil => simp [maskParts]
  | cons p parts ih =>
    rw [List.forall_mem_cons] at h
    cases k with
    | zero =>
      have hrest := ih h.2 0
      rw [Nat.mul_zero] at hrest ⊢
      rw [maskParts, Nat.sub_zero, Nat.div_eq_of_lt h.1, Nat.zero_mul, Nat.zero_sub, hrest]
      rfl
    | succ k =>
      have hbits : width * (k + 1) - width = width * k := by
        rw [Nat.mul_succ, Nat.add_sub_cancel]
      have hnone : width - width * (k + 1) = 0 :=
        Nat.sub_eq_zero_of_le (Nat.le_mul_of_pos_right width k.succ_pos)
      rw [maskParts, hbits, hnone, ih h.2, Nat.pow_zero, Nat.div_one, Nat.mul_one, List.length_cons,
        Nat.succ_sub_succ, List.take_succ_cons, List.cons_append]

theorem maskParts_lt {width bits : ℕ} {parts : List ℕ} (h : ∀ p ∈ parts, p < 2 ^ width) :
    ∀ p ∈ maskParts width bits parts, p < 2 ^ width := by
  induction parts generalizing bits with
  | nil => exact fun p hp => nomatch hp
  | cons p parts ih =>
    rw [List.forall_mem_cons] at h
    rw [maskParts, List.forall_mem_cons]
    exact ⟨lt_of_le_of_lt (Nat.div_mul_le_self p _) h.1, ih h.2⟩

namespace Address

variable {width count : ℕ}

/-- The address of the network of a prefix. -/
def network (bits : ℕ) (a : Address width count) : Address width count where
  parts := maskParts width bits a.parts
  length_parts := by rw [length_maskParts, a.length_parts]
  lt := maskParts_lt a.lt

theorem parts_network (a : Address width count) (k : ℕ) :
    (a.network (width * k)).parts = a.parts.take k ++ List.replicate (count - k) 0 := by
  show maskParts width (width * k) a.parts = _
  rw [maskParts_mul a.lt, a.length_parts]

/-- Networks of whole parts are told by the parts they keep. -/
theorem network_eq_iff {a b : Address width count} (k : ℕ) :
    a.network (width * k) = b.network (width * k) ↔ a.parts.take k = b.parts.take k := by
  rw [Address.ext_iff, parts_network, parts_network]
  exact List.append_left_inj _

/-- The block `base/bits`. -/
def InBlock (a base : Address width count) (bits : ℕ) : Prop := a.network bits = base

instance (a base : Address width count) (bits : ℕ) : Decidable (a.InBlock base bits) :=
  inferInstanceAs (Decidable (_ = _))

theorem inBlock_iff {a base : Address width count} {bits : ℕ} :
    a.InBlock base bits ↔ maskParts width bits a.parts = base.parts := Address.ext_iff

end Address

theorem Ipv4.exists_parts (a : Ipv4) : ∃ p q r s, a.parts = [p, q, r, s] ∧
    p < 256 ∧ q < 256 ∧ r < 256 ∧ s < 256 := by
  obtain ⟨parts, hlength, hlt⟩ := a
  match parts, hlength with
  | [p, q, r, s], _ => exact ⟨p, q, r, s, rfl, by simpa using hlt⟩

theorem Ipv6.exists_parts (a : Ipv6) : ∃ p rest, a.parts = p :: rest ∧ rest.length = 7 ∧
    p < 65536 := by
  obtain ⟨parts, hlength, hlt⟩ := a
  match parts, hlength with
  | p :: rest, hlength =>
    exact ⟨p, rest, rfl, Nat.succ.inj hlength, hlt p List.mem_cons_self⟩

/-! ## Texts -/

/-- `a.b.c.d` -/
def Ipv4.text (a : Ipv4) : Text := ['.'].intercalate (a.parts.map (Nat.toDigits 10))

/-- The number that hexadecimal digits stand for. -/
def hexNumber (digits : Text) : ℕ :=
  digits.foldl (fun n c => 16 * n + (Json.hexValue c).getD 0) 0

/-- One to four hexadecimal digits. -/
structure HexGroup where
  digits : Text
  ne_nil : digits ≠ []
  length_le : digits.length ≤ 4
  isHex : ∀ c ∈ digits, (Json.hexValue c).isSome = true
  deriving DecidableEq

theorem foldl_hexNumber (digits : Text) (n : ℕ) :
    digits.foldl (fun n c => 16 * n + (Json.hexValue c).getD 0) n =
      n * 16 ^ digits.length + hexNumber digits := by
  induction digits generalizing n with
  | nil => simp [hexNumber]
  | cons c digits ih =>
    unfold hexNumber
    rw [List.foldl_cons, List.foldl_cons, ih, ih, List.length_cons, pow_succ]
    ring

theorem hexNumber_cons (c : Char) (digits : Text) : hexNumber (c :: digits) =
    (Json.hexValue c).getD 0 * 16 ^ digits.length + hexNumber digits := by
  show digits.foldl _ (16 * 0 + (Json.hexValue c).getD 0) = _
  rw [foldl_hexNumber, Nat.mul_zero, Nat.zero_add]

theorem hexValue_lt {c : Char} {n : ℕ} (h : Json.hexValue c = some n) : n < 16 := by
  unfold Json.hexValue at h
  simp only [Bool.and_eq_true, decide_eq_true_eq, Char.le_def, UInt32.le_iff_toNat_le] at h
  have hnat : c.toNat = c.val.toNat := rfl
  split at h
  · next hdigit =>
    have hle : c.val.toNat ≤ 57 := hdigit.2
    cases h
    omega
  split at h
  · next hlower =>
    have hle : c.val.toNat ≤ 102 := hlower.2
    cases h
    omega
  split at h
  · next hupper =>
    have hle : c.val.toNat ≤ 70 := hupper.2
    cases h
    omega
  · exact nomatch h

theorem hexValue_ascii {c : Char} (h : (Json.hexValue c).isSome = true) : c.toNat < 128 := by
  unfold Json.hexValue at h
  simp only [Bool.and_eq_true, decide_eq_true_eq, Char.le_def, UInt32.le_iff_toNat_le] at h
  have hnat : c.toNat = c.val.toNat := rfl
  split at h
  · next hdigit =>
    have hle : c.val.toNat ≤ 57 := hdigit.2
    omega
  split at h
  · next hlower =>
    have hle : c.val.toNat ≤ 102 := hlower.2
    omega
  split at h
  · next hupper =>
    have hle : c.val.toNat ≤ 70 := hupper.2
    omega
  · exact nomatch h

theorem isHex_of_isDigit {c : Char} (h : c.isDigit = true) :
    (Json.hexValue c).isSome = true := by
  unfold Json.hexValue
  rw [if_pos (by simpa [Char.isDigit, Char.le_def] using h)]
  rfl

/-- A digit in lower case is the one that is written for its value. -/
theorem toLower_of_hexValue {c : Char} {n : ℕ} (h : Json.hexValue c = some n) :
    c.toLower = Json.hexDigit n := by
  have hall : ∀ m < 128, (Json.hexValue (Char.ofNat m)).all
      (fun n => decide ((Char.ofNat m).toLower = Json.hexDigit n)) = true := by decide
  have hc := hall c.toNat (hexValue_ascii (by rw [h]; rfl))
  rw [Char.ofNat_toNat, h] at hc
  exact of_decide_eq_true hc

theorem hexNumber_lt (digits : Text) : hexNumber digits < 16 ^ digits.length := by
  induction digits with
  | nil => exact Nat.one_pos
  | cons c digits ih =>
    have hdigit : (Json.hexValue c).getD 0 ≤ 15 := by
      cases h : Json.hexValue c with
      | none => exact Nat.zero_le _
      | some n => exact Nat.le_of_lt_succ (hexValue_lt h)
    have hle := Nat.mul_le_mul_right (16 ^ digits.length) hdigit
    rw [hexNumber_cons, List.length_cons, pow_succ]
    omega

namespace HexGroup

def value (g : HexGroup) : ℕ := hexNumber g.digits

theorem value_lt (g : HexGroup) : g.value < 2 ^ 16 :=
  lt_of_lt_of_le (hexNumber_lt g.digits) (Nat.pow_le_pow_right (by decide) g.length_le)

/-- The first digit bounds the value from both sides. -/
theorem exists_digits (g : HexGroup) : ∃ c rest n, g.digits = c :: rest ∧ rest.length ≤ 3 ∧
    Json.hexValue c = some n ∧ n * 16 ^ rest.length ≤ g.value ∧
    g.value < (n + 1) * 16 ^ rest.length := by
  obtain ⟨digits, hne, hlength, hhex⟩ := g
  match digits, hne with
  | c :: rest, _ =>
    obtain ⟨n, hn⟩ := Option.isSome_iff_exists.mp (hhex c List.mem_cons_self)
    refine ⟨c, rest, n, rfl, Nat.le_of_succ_le_succ hlength, hn, ?_⟩
    have hlt := hexNumber_lt rest
    show n * 16 ^ rest.length ≤ hexNumber (c :: rest) ∧
      hexNumber (c :: rest) < (n + 1) * 16 ^ rest.length
    rw [hexNumber_cons, hn, Option.getD_some, Nat.add_one_mul]
    omega

/-- A group of four digits. -/
theorem four_digits {g : HexGroup} (h : 4096 ≤ g.value) : ∃ a b c d m n o p,
    g.digits = [a, b, c, d] ∧ Json.hexValue a = some m ∧ Json.hexValue b = some n ∧
      Json.hexValue c = some o ∧ Json.hexValue d = some p ∧
      g.value = m * 4096 + n * 256 + o * 16 + p := by
  obtain ⟨digits, hne, hlength, hhex⟩ := g
  have hlt := hexNumber_lt digits
  have hvalue : 4096 ≤ hexNumber digits := h
  show ∃ a b c d m n o p, digits = [a, b, c, d] ∧ _ ∧ _ ∧ _ ∧ _ ∧
    hexNumber digits = m * 4096 + n * 256 + o * 16 + p
  match digits, hlength with
  | [], _ => simp at hlt; omega
  | [_], _ => simp at hlt; omega
  | [_, _], _ => simp at hlt; omega
  | [_, _, _], _ => simp at hlt; omega
  | [a, b, c, d], _ =>
    simp only [List.forall_mem_cons, List.not_mem_nil, false_implies, implies_true, and_true]
      at hhex
    obtain ⟨ha, hb, hc, hd⟩ := hhex
    obtain ⟨m, hm⟩ := Option.isSome_iff_exists.mp ha
    obtain ⟨n, hn⟩ := Option.isSome_iff_exists.mp hb
    obtain ⟨o, ho⟩ := Option.isSome_iff_exists.mp hc
    obtain ⟨p, hp⟩ := Option.isSome_iff_exists.mp hd
    refine ⟨a, b, c, d, m, n, o, p, rfl, hm, hn, ho, hp, ?_⟩
    show 16 * (16 * (16 * (16 * 0 + (Json.hexValue a).getD 0) + (Json.hexValue b).getD 0) +
      (Json.hexValue c).getD 0) + (Json.hexValue d).getD 0 = _
    rw [hm, hn, ho, hp]
    simp only [Option.getD_some]
    omega

end HexGroup

/-- What the text of an address of version 6 is made of. -/
structure Ipv6Spelling where
  before : List HexGroup
  /-- The groups after `::`, where it stands. -/
  after : Option (List HexGroup)
  /-- The numbers for the last two groups. -/
  quad : Option Ipv4
  size : match after with
    | none => before.length + 2 * quad.toList.length = 8
    | some groups => before.length + groups.length + 2 * quad.toList.length ≤ 7

def quadGroups (a : Ipv4) : List ℕ :=
  match a.parts with
  | [p, q, r, s] => [256 * p + q, 256 * r + s]
  | _ => []

namespace Ipv6Spelling

/-- The groups that are written in hexadecimal digits. -/
def written (σ : Ipv6Spelling) : List HexGroup := σ.before ++ σ.after.getD []

/-- The texts between the colons. -/
def pieces (σ : Ipv6Spelling) : List Text :=
  σ.written.map (·.digits) ++ σ.quad.toList.map Ipv4.text

def text (σ : Ipv6Spelling) : Text :=
  match σ.after with
  | none => [':'].intercalate σ.pieces
  | some groups => [':'].intercalate (σ.before.map (·.digits)) ++ ':' :: ':' ::
      [':'].intercalate (groups.map (·.digits) ++ σ.quad.toList.map Ipv4.text)

/-- As many zeros as there is room for. -/
def zeros (σ : Ipv6Spelling) : List ℕ :=
  List.replicate (8 - σ.written.length - 2 * σ.quad.toList.length) 0

def parts (σ : Ipv6Spelling) : List ℕ :=
  σ.before.map HexGroup.value ++ σ.zeros ++ (σ.after.getD []).map HexGroup.value ++
    σ.quad.toList.flatMap quadGroups

theorem length_quadGroups (a : Ipv4) : (quadGroups a).length = 2 := by
  obtain ⟨p, q, r, s, hparts, _⟩ := a.exists_parts
  unfold quadGroups
  rw [hparts]
  rfl

theorem quadGroups_lt (a : Ipv4) : ∀ n ∈ quadGroups a, n < 2 ^ 16 := by
  obtain ⟨p, q, r, s, hparts, _, _, _, _⟩ := a.exists_parts
  unfold quadGroups
  rw [hparts, List.forall_mem_cons, List.forall_mem_singleton]
  omega

theorem length_quad (σ : Ipv6Spelling) :
    (σ.quad.toList.flatMap quadGroups).length = 2 * σ.quad.toList.length := by
  cases σ.quad with
  | none => rfl
  | some a => simp [length_quadGroups]

theorem length_written (σ : Ipv6Spelling) :
    σ.written.length + 2 * σ.quad.toList.length ≤ 8 := by
  have hsize := σ.size
  unfold written
  cases hafter : σ.after with
  | none =>
    rw [hafter] at hsize
    simp only [Option.getD_none, List.append_nil]
    exact hsize.le
  | some groups =>
    rw [hafter] at hsize
    simp only [Option.getD_some, List.length_append]
    omega

theorem length_parts (σ : Ipv6Spelling) : σ.parts.length = 8 := by
  have hwritten := σ.length_written
  unfold parts zeros
  unfold written at hwritten ⊢
  simp only [List.length_append, List.length_map, List.length_replicate, length_quad] at hwritten ⊢
  omega

theorem parts_lt (σ : Ipv6Spelling) : ∀ p ∈ σ.parts, p < 2 ^ 16 := by
  intro p hp
  unfold parts zeros at hp
  rw [List.mem_append, List.mem_append, List.mem_append] at hp
  rcases hp with ((hp | hp) | hp) | hp
  · obtain ⟨g, _, rfl⟩ := List.mem_map.mp hp
    exact g.value_lt
  · rw [List.eq_of_mem_replicate hp]
    decide
  · obtain ⟨g, _, rfl⟩ := List.mem_map.mp hp
    exact g.value_lt
  · obtain ⟨a, _, hp⟩ := List.mem_flatMap.mp hp
    exact quadGroups_lt a p hp

def address (σ : Ipv6Spelling) : Ipv6 where
  parts := σ.parts
  length_parts := σ.length_parts
  lt := σ.parts_lt

/-! ### What the colons separate -/

theorem colon_notMem_digits (g : HexGroup) : ':' ∉ g.digits := by
  intro hmem
  have hsome := g.isHex ':' hmem
  exact absurd hsome (by decide)

end Ipv6Spelling

theorem Ipv4.mem_text {a : Ipv4} {c : Char} (h : c ∈ a.text) : c = '.' ∨ c.isDigit = true := by
  obtain ⟨p, q, r, s, hparts, _⟩ := a.exists_parts
  unfold Ipv4.text at h
  rw [hparts] at h
  have hdigit : ∀ n, c ∈ Nat.toDigits 10 n → c.isDigit = true :=
    fun n hc => Nat.isDigit_of_mem_toDigits (by decide) (by decide) hc
  simp only [List.map_cons, List.map_nil, List.intercalate_cons_cons, List.intercalate_singleton,
    List.mem_append, List.mem_singleton] at h
  rcases h with (h | h) | (h | h) | (h | h) | h
  all_goals first | exact Or.inl h | exact Or.inr (hdigit _ h)

theorem Ipv4.colon_notMem_text (a : Ipv4) : ':' ∉ a.text := by
  intro h
  rcases Ipv4.mem_text h with h | h
  · exact absurd h (by decide)
  · exact absurd h (by decide)

theorem Ipv4.dot_mem_text (a : Ipv4) : '.' ∈ a.text := by
  obtain ⟨p, q, r, s, hparts, -⟩ := a.exists_parts
  unfold Ipv4.text
  rw [hparts]
  simp [List.intercalate_cons_cons]

/-- The numbers are found again. -/
theorem Ipv4.splitOn_text (a : Ipv4) : a.text.splitOn '.' = a.parts.map (Nat.toDigits 10) := by
  refine List.splitOn_intercalate '.' (List.forall_mem_map.mpr fun p _ hdot => ?_) ?_
  · have hdigit := Nat.isDigit_of_mem_toDigits (by decide) (by decide) hdot
    exact absurd hdigit (by decide)
  · intro hnil
    have hlength := congrArg List.length hnil
    rw [List.length_map, a.length_parts] at hlength
    exact absurd hlength (by decide)

theorem ofDigitChars_map_toDigits (parts : List ℕ) :
    (parts.map (Nat.toDigits 10)).map (fun part => Nat.ofDigitChars 10 part 0) = parts := by
  rw [List.map_map]
  exact List.map_id'' (fun n => Nat.ofDigitChars_ten_toDigits) parts

theorem Ipv4.text_injective : Function.Injective Ipv4.text := by
  intro a b h
  have hsplit := congrArg (fun t : Text => (t.splitOn '.').map fun part =>
    Nat.ofDigitChars 10 part 0) h
  simp only [Ipv4.splitOn_text, ofDigitChars_map_toDigits] at hsplit
  exact Address.ext hsplit

theorem Ipv4.text_ne_nil (a : Ipv4) : a.text ≠ [] := by
  obtain ⟨p, q, r, s, hparts, _⟩ := a.exists_parts
  unfold Ipv4.text
  rw [hparts]
  simp [List.intercalate_cons_cons]

/-- The texts between the separators of a text, where something stands. -/
def splitPieces (c : Char) (s : Text) : List Text := (s.splitOn c).filter (· ≠ [])

theorem splitPieces_append (c : Char) (s t : Text) :
    splitPieces c (s ++ c :: t) = splitPieces c s ++ splitPieces c t := by
  unfold splitPieces
  rw [List.splitOn_append_cons_self, List.filter_append]

theorem splitPieces_nil (c : Char) : splitPieces c [] = [] := by
  unfold splitPieces
  simp

/-- Pieces that are joined are found again. -/
theorem splitPieces_intercalate {c : Char} {pieces : List Text}
    (h : ∀ piece ∈ pieces, piece ≠ [] ∧ c ∉ piece) :
    splitPieces c ([c].intercalate pieces) = pieces := by
  cases pieces with
  | nil => exact splitPieces_nil c
  | cons piece pieces =>
    unfold splitPieces
    rw [List.splitOn_intercalate c (fun p hp => (h p hp).2) (by simp), List.filter_eq_self]
    intro p hp
    simpa using (h p hp).1

theorem mem_intercalate {separator c : Char} {pieces : List Text}
    (h : c ∈ [separator].intercalate pieces) : c = separator ∨ ∃ piece ∈ pieces, c ∈ piece := by
  induction pieces with
  | nil => simp at h
  | cons piece pieces ih =>
    cases pieces with
    | nil =>
      rw [List.intercalate_singleton] at h
      exact .inr ⟨piece, List.mem_cons_self, h⟩
    | cons next pieces =>
      rw [List.intercalate_cons_cons, List.mem_append, List.mem_append, List.mem_singleton] at h
      rcases h with (h | rfl) | h
      · exact .inr ⟨piece, List.mem_cons_self, h⟩
      · exact .inl rfl
      · exact (ih h).imp_right fun ⟨p, hp, hc⟩ => ⟨p, List.mem_cons_of_mem _ hp, hc⟩

namespace Ipv6Spelling

theorem mem_pieces {σ : Ipv6Spelling} {piece : Text} (h : piece ∈ σ.pieces) :
    piece ≠ [] ∧ ':' ∉ piece := by
  unfold pieces at h
  rw [List.mem_append] at h
  rcases h with h | h
  · obtain ⟨g, _, rfl⟩ := List.mem_map.mp h
    exact ⟨g.ne_nil, colon_notMem_digits g⟩
  · obtain ⟨a, _, rfl⟩ := List.mem_map.mp h
    exact ⟨a.text_ne_nil, a.colon_notMem_text⟩

/-- What the colons separate, leaving out what is empty. -/
theorem pieces_text (σ : Ipv6Spelling) : splitPieces ':' σ.text = σ.pieces := by
  have hpieces : ∀ piece ∈ σ.pieces, piece ≠ [] ∧ ':' ∉ piece := fun _ => mem_pieces
  unfold text
  cases hafter : σ.after with
  | none => exact splitPieces_intercalate hpieces
  | some groups =>
    unfold pieces written at hpieces ⊢
    rw [hafter, Option.getD_some, List.map_append, List.append_assoc] at hpieces ⊢
    show splitPieces ':' (_ ++ ':' :: ([] ++ ':' :: _)) = _
    rw [splitPieces_append, splitPieces_append, splitPieces_nil, List.nil_append,
      splitPieces_intercalate fun p hp => hpieces p (List.mem_append_left _ hp),
      splitPieces_intercalate fun p hp => hpieces p (List.mem_append_right _ hp)]

/-! ### Where a text begins -/

theorem exists_intercalate_cons (c : Char) (piece : Text) (pieces : List Text) :
    ∃ rest, [c].intercalate (piece :: pieces) = piece ++ rest := by
  cases pieces with
  | nil => exact ⟨[], by simp⟩
  | cons next pieces => exact ⟨_, by rw [List.intercalate_cons_cons, List.append_assoc]⟩

theorem exists_intercalate_append (c : Char) (pieces : List Text) (piece : Text) :
    ∃ start, [c].intercalate (pieces ++ [piece]) = start ++ piece := by
  induction pieces with
  | nil => exact ⟨[], by simp⟩
  | cons first pieces ih =>
    obtain ⟨start, hstart⟩ := ih
    refine ⟨first ++ [c] ++ start, ?_⟩
    rw [List.cons_append, List.intercalate_cons_of_ne_nil (by simp), hstart]
    simp

variable {σ : Ipv6Spelling}

/-- A group in front is the first one of the address. -/
theorem head_of_before_cons {g : HexGroup} {groups : List HexGroup} (h : σ.before = g :: groups) :
    (∃ rest, σ.parts = g.value :: rest) ∧ ∃ rest, σ.text = g.digits ++ rest := by
  constructor
  · unfold parts
    rw [h]
    exact ⟨_, rfl⟩
  · unfold text pieces written
    rw [h]
    cases σ.after with
    | none =>
      simp only [List.cons_append, List.map_cons]
      exact exists_intercalate_cons _ _ _
    | some more =>
      obtain ⟨rest, hrest⟩ := exists_intercalate_cons ':' g.digits (groups.map (·.digits))
      simp only [List.map_cons, hrest, List.append_assoc]
      exact ⟨_, rfl⟩

theorem exists_after_of_before_nil (h : σ.before = []) : ∃ groups, σ.after = some groups := by
  have hsize := σ.size
  cases hafter : σ.after with
  | some groups => exact ⟨groups, rfl⟩
  | none =>
    -- a quad alone is too short
    rw [h, hafter] at hsize
    cases hquad : σ.quad <;> simp [hquad] at hsize

/-- Without one there is `::`, and the first group is zero. -/
theorem head_of_before_nil (h : σ.before = []) :
    (∃ rest, σ.parts = 0 :: rest) ∧ ∃ rest, σ.text = ':' :: ':' :: rest := by
  obtain ⟨groups, hafter⟩ := exists_after_of_before_nil h
  have hsize := σ.size
  constructor
  · unfold parts zeros written
    rw [h, hafter] at hsize ⊢
    rw [Option.getD_some, List.nil_append]
    have hroom : 8 - groups.length - 2 * σ.quad.toList.length =
        7 - groups.length - 2 * σ.quad.toList.length + 1 := by
      simp only [List.length_nil] at hsize
      omega
    rw [hroom, List.replicate_succ]
    exact ⟨_, rfl⟩
  · unfold text
    rw [h, hafter]
    exact ⟨_, rfl⟩

/-! ### The shortest texts -/

/-- No group stands before a colon that begins the text. -/
theorem before_nil_of_text {rest : Text} (h : σ.text = ':' :: rest) : σ.before = [] := by
  cases hbefore : σ.before with
  | nil => rfl
  | cons g groups =>
    -- the text would begin with a digit
    obtain ⟨rest', hrest'⟩ := (head_of_before_cons hbefore).2
    obtain ⟨c, digits, n, hdigits, -, -, -, -⟩ := g.exists_digits
    rw [hrest', hdigits, List.cons_append, List.cons.injEq] at h
    have hmem : ':' ∈ g.digits := by
      rw [hdigits, ← h.1]
      exact List.mem_cons_self
    exact absurd hmem (colon_notMem_digits g)

/-- `::` stands for nothing but zeros. -/
theorem parts_of_text_unspecified (h : σ.text = "::".toList) : σ.parts = List.replicate 8 0 := by
  have hpieces : σ.pieces = [] := by
    rw [← pieces_text, h]
    decide
  obtain ⟨hwritten, hquad⟩ := List.append_eq_nil_iff.mp hpieces
  have hwritten : σ.written = [] := List.map_eq_nil_iff.mp hwritten
  have hquad : σ.quad.toList = [] := List.map_eq_nil_iff.mp hquad
  have hbefore : σ.before = [] ∧ σ.after.getD [] = [] := List.append_eq_nil_iff.mp hwritten
  unfold parts zeros
  rw [hwritten, hquad, hbefore.1, hbefore.2]
  rfl

/-- `::1` stands for the address that is one. -/
theorem parts_of_text_loopback (h : σ.text = "::1".toList) :
    σ.parts = [0, 0, 0, 0, 0, 0, 0, 1] := by
  have hpieces : σ.pieces = [['1']] := by
    rw [← pieces_text, h]
    decide
  have hbefore := before_nil_of_text h
  unfold pieces written at hpieces
  rw [hbefore, List.nil_append] at hpieces
  rcases List.append_eq_singleton_iff.mp hpieces with ⟨-, hquad⟩ | ⟨hafter, hquad⟩
  · -- a quad has dots
    obtain ⟨a, -, htext⟩ := List.map_eq_singleton_iff.mp hquad
    have hdot := a.dot_mem_text
    rw [htext] at hdot
    exact absurd hdot (by decide)
  · obtain ⟨g, hgroups, hdigits⟩ := List.map_eq_singleton_iff.mp hafter
    have hquad : σ.quad.toList = [] := List.map_eq_nil_iff.mp hquad
    unfold parts zeros written HexGroup.value
    rw [hbefore, hgroups, hquad, List.map_singleton, hdigits]
    rfl

/-! ### The characters of a text -/

theorem mem_text {c : Char} (h : c ∈ σ.text) : c = ':' ∨ ∃ piece ∈ σ.pieces, c ∈ piece := by
  unfold text at h
  cases hafter : σ.after with
  | none =>
    rw [hafter] at h
    exact mem_intercalate h
  | some groups =>
    rw [hafter] at h
    simp only [List.mem_append, List.mem_cons] at h
    unfold pieces written
    rw [hafter, Option.getD_some, List.map_append, List.append_assoc]
    rcases h with h | rfl | rfl | h
    · exact (mem_intercalate h).imp_right fun ⟨p, hp, hc⟩ => ⟨p, List.mem_append_left _ hp, hc⟩
    · exact .inl rfl
    · exact .inl rfl
    · exact (mem_intercalate h).imp_right fun ⟨p, hp, hc⟩ => ⟨p, List.mem_append_right _ hp, hc⟩

/-- Colons, hexadecimal digits, and the dots of a quad. -/
theorem mem_text_cases {c : Char} (h : c ∈ σ.text) :
    c = ':' ∨ (Json.hexValue c).isSome = true ∨ (c = '.' ∧ σ.quad.isSome = true) := by
  refine (mem_text h).imp_right fun ⟨piece, hpiece, hc⟩ => ?_
  rcases List.mem_append.mp hpiece with hpiece | hpiece
  · obtain ⟨g, _, rfl⟩ := List.mem_map.mp hpiece
    exact .inl (g.isHex c hc)
  · obtain ⟨a, ha, rfl⟩ := List.mem_map.mp hpiece
    rcases Ipv4.mem_text hc with rfl | hdigit
    · exact .inr ⟨rfl, Option.isSome_iff_exists.mpr ⟨a, Option.mem_toList.mp ha⟩⟩
    · exact .inl (isHex_of_isDigit hdigit)

theorem colon_mem_text (σ : Ipv6Spelling) : ':' ∈ σ.text := by
  have hsize := σ.size
  unfold text pieces written
  cases hafter : σ.after with
  | some groups => simp
  | none =>
    rw [hafter] at hsize
    -- there are at least six groups
    match hbefore : σ.before with
    | [] => cases hquad : σ.quad <;> simp [hbefore, hquad] at hsize
    | [_] => cases hquad : σ.quad <;> simp [hbefore, hquad] at hsize
    | g :: g' :: groups => simp [List.intercalate_cons_cons]

/-- A quad ends the text. -/
theorem exists_text_append {a : Ipv4} (h : σ.quad = some a) : ∃ start, σ.text = start ++ a.text := by
  unfold text pieces
  rw [h]
  cases σ.after with
  | none => exact exists_intercalate_append _ _ _
  | some groups =>
    obtain ⟨start, hstart⟩ := exists_intercalate_append ':' (groups.map (·.digits)) a.text
    refine ⟨[':'].intercalate (σ.before.map (·.digits)) ++ ':' :: ':' :: start, ?_⟩
    show _ ++ ':' :: ':' :: [':'].intercalate (groups.map (·.digits) ++ [a.text]) = _
    rw [hstart, List.append_assoc]
    rfl

theorem getLast?_digits_ne (g : HexGroup) (start : Text) :
    (start ++ g.digits).getLast? ≠ some ':' := by
  rw [List.getLast?_append_of_ne_nil _ g.ne_nil]
  exact fun h => colon_notMem_digits g (List.mem_of_getLast? h)

/-- A text that ends with a colon ends with `::`. -/
theorem after_of_getLast? (h : σ.text.getLast? = some ':') :
    σ.after = some [] ∧ σ.quad = none := by
  have hsize := σ.size
  cases hquad : σ.quad with
  | some a =>
    obtain ⟨start, hstart⟩ := exists_text_append hquad
    rw [hstart, List.getLast?_append_of_ne_nil _ a.text_ne_nil] at h
    exact absurd (List.mem_of_getLast? h) a.colon_notMem_text
  | none =>
    refine ⟨?_, rfl⟩
    unfold text pieces written at h
    rw [hquad] at h hsize
    cases hafter : σ.after with
    | none =>
      rw [hafter] at h hsize
      simp only [Option.getD_none, List.append_nil, Option.toList_none, List.map_nil] at h
      rcases List.eq_nil_or_concat σ.before with hnil | ⟨groups, g, hgroups⟩
      · rw [hnil] at hsize
        exact absurd hsize (by decide)
      · rw [hgroups, List.concat_eq_append, List.map_append, List.map_singleton] at h
        obtain ⟨start, hstart⟩ := exists_intercalate_append ':' (groups.map (·.digits)) g.digits
        rw [hstart] at h
        exact absurd h (getLast?_digits_ne g start)
    | some after =>
      rw [hafter] at h
      simp only [Option.toList_none, List.map_nil, List.append_nil] at h
      rcases List.eq_nil_or_concat after with hnil | ⟨groups, g, hgroups⟩
      · rw [hnil]
      · rw [hgroups, List.concat_eq_append, List.map_append, List.map_singleton] at h
        obtain ⟨start, hstart⟩ := exists_intercalate_append ':' (groups.map (·.digits)) g.digits
        rw [hstart, ← List.cons_append, ← List.cons_append, ← List.append_assoc] at h
        exact absurd h (getLast?_digits_ne g _)

end Ipv6Spelling

end Infra
