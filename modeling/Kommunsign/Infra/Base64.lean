import Mathlib.Data.List.TakeWhile
import Kommunsign.Infra.BigEndian
import Kommunsign.Infra.Json

/-!
# Base64 of RFC 4648

The bits of the bytes, filled with zeros on the right, are cut into groups of six. Every group is
one character, and `=` fills the characters up to a multiple of four.

* `encode`, `decode` — the characters of bytes, and the bytes of characters
* `decode_encode` — bytes are read back
-/

namespace Infra.Base64

def alphabet : Text :=
  "ABCDEFGHIJKLMNOPQRSTUVWXYZabcdefghijklmnopqrstuvwxyz0123456789+/".toList

/-- The character of a group of six bits. -/
def character (group : ℕ) : Char := alphabet.getD group '='

def group? (c : Char) : Option ℕ := alphabet.idxOf? c

/-- How many groups hold the bits of `count` bytes. -/
def groups (count : ℕ) : ℕ := (8 * count + 5) / 6

def encode (bytes : List UInt8) : Text :=
  let count := groups bytes.length
  let bits := ofBytes bytes * 2 ^ (6 * count - 8 * bytes.length)
  (bigEndian 64 count bits).map character ++ List.replicate ((3 - bytes.length % 3) % 3) '='

/-- What is decoded has its padding, and zeros behind its bits. -/
def decode (text : Text) : Option (List UInt8) := do
  let characters := text.takeWhile (· ≠ '=')
  let padding := text.dropWhile (· ≠ '=')
  let count := 6 * characters.length / 8
  let bits := ofBigEndian 64 (← characters.mapM group?)
  let filler := 2 ^ (6 * characters.length - 8 * count)
  if padding = List.replicate ((3 - count % 3) % 3) '=' ∧ characters.length = groups count ∧
      bits % filler = 0 then
    some ((bigEndian 256 count (bits / filler)).map UInt8.ofNat)
  else none

theorem group?_character {group : ℕ} (h : group < 64) : group? (character group) = some group := by
  have hall : ((List.range 64).all fun group =>
      decide (group? (character group) = some group)) = true := by decide +kernel
  exact of_decide_eq_true (List.all_eq_true.mp hall group (List.mem_range.mpr h))

theorem character_ne {group : ℕ} (h : group < 64) : character group ≠ '=' := by
  have hall : ((List.range 64).all fun group => decide (character group ≠ '=')) = true := by
    decide +kernel
  exact of_decide_eq_true (List.all_eq_true.mp hall group (List.mem_range.mpr h))

theorem groups_spec (count : ℕ) :
    8 * count ≤ 6 * groups count ∧ 6 * groups count / 8 = count := by
  unfold groups
  omega

theorem two_pow_mul (a b : ℕ) : (2 ^ a) ^ b = 2 ^ (a * b) := (Nat.pow_mul 2 a b).symm

/-- The bits of the bytes fit into their groups. -/
theorem bits_lt (bytes : List UInt8) :
    ofBytes bytes * 2 ^ (6 * groups bytes.length - 8 * bytes.length) < 64 ^ groups bytes.length := by
  have hbytes := ofBytes_lt bytes
  rw [show (256 : ℕ) = 2 ^ 8 from rfl, two_pow_mul] at hbytes
  rw [show (64 : ℕ) = 2 ^ 6 from rfl, two_pow_mul]
  have hcount := (groups_spec bytes.length).1
  calc ofBytes bytes * 2 ^ (6 * groups bytes.length - 8 * bytes.length)
      < 2 ^ (8 * bytes.length) * 2 ^ (6 * groups bytes.length - 8 * bytes.length) :=
        Nat.mul_lt_mul_of_pos_right hbytes (Nat.two_pow_pos _)
    _ = 2 ^ (6 * groups bytes.length) := by rw [← Nat.pow_add, Nat.add_sub_cancel' hcount]

theorem mapM_group?_map {digits : List ℕ} (h : ∀ d ∈ digits, d < 64) :
    (digits.map character).mapM group? = some digits := by
  induction digits with
  | nil => rfl
  | cons d digits ih =>
    obtain ⟨hd, hdigits⟩ := List.forall_mem_cons.mp h
    rw [List.map_cons, List.mapM_cons, group?_character hd, ih hdigits]
    rfl

theorem decode_encode (bytes : List UInt8) : decode (encode bytes) = some bytes := by
  obtain ⟨hcount, hback⟩ := groups_spec bytes.length
  have hdigits : ∀ d ∈ bigEndian 64 (groups bytes.length)
      (ofBytes bytes * 2 ^ (6 * groups bytes.length - 8 * bytes.length)), d < 64 :=
    fun d hd => lt_of_mem_bigEndian (by omega) hd
  have hplain : ∀ c ∈ (bigEndian 64 (groups bytes.length)
      (ofBytes bytes * 2 ^ (6 * groups bytes.length - 8 * bytes.length))).map character,
      decide (c ≠ '=') = true := by
    intro c hc
    obtain ⟨d, hd, rfl⟩ := List.mem_map.mp hc
    exact decide_eq_true (character_ne (hdigits d hd))
  have hpadding : ∀ k : ℕ, (List.replicate k '=').takeWhile (fun c => decide (c ≠ '=')) = [] ∧
      (List.replicate k '=').dropWhile (fun c => decide (c ≠ '=')) = List.replicate k '=' := by
    intro k
    cases k with
    | zero => exact ⟨rfl, rfl⟩
    | succ k => exact ⟨rfl, rfl⟩
  unfold decode encode
  simp only [List.takeWhile_append_of_pos hplain, List.dropWhile_append_of_pos hplain, hpadding,
    List.append_nil, mapM_group?_map hdigits, List.length_map, length_bigEndian,
    ofBigEndian_bigEndian, hback, Nat.mod_eq_of_lt (bits_lt bytes), Nat.mul_mod_left,
    Nat.mul_div_cancel _ (Nat.two_pow_pos _), bind, Option.bind, and_self, if_true,
    map_ofNat_bigEndian_ofBytes]

end Infra.Base64
