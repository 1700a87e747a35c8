import Kommunsign.Infra.Base64

/-!
# Base64 of the documents

* `base64Encode` — the characters of bytes, by three bytes at a time
* `base64Encode_roundtrip` — they are the encoding of RFC 4648, and give the bytes back
-/

namespace Kommunsign.Crypto

open Infra

def BASE64_ALPHABET : Text :=
  "ABCDEFGHIJKLMNOPQRSTUVWXYZabcdefghijklmnopqrstuvwxyz0123456789+/".toList

/-- `BASE64_ALPHABET[value & 63]`; the index is below 64, so it is never undefined. -/
def base64Character (value : ℕ) : Char := BASE64_ALPHABET.getD (value &&& 63) '='

/-- What the loop appends for the bytes from `index` on. -/
def base64Quantum (bytes : List UInt8) (index : ℕ) : Text :=
  let first := (bytes[index]?.getD 0).toNat
  let second := (bytes[index + 1]?.getD 0).toNat
  let third := (bytes[index + 2]?.getD 0).toNat
  let combined := (first <<< 16) ||| (second <<< 8) ||| third
  [base64Character (combined >>> 18), base64Character (combined >>> 12),
    if index + 1 < bytes.length then base64Character (combined >>> 6) else '=',
    if index + 2 < bytes.length then base64Character combined else '=']

def base64Encode (bytes : List UInt8) : Text := Id.run do
  let mut output := []
  for index in [0:bytes.length:3] do
    output := output ++ base64Quantum bytes index
  return output

/-! ## The loop -/

theorem base64Encode_eq_flatMap (bytes : List UInt8) :
    base64Encode bytes =
      (List.range' 0 ((bytes.length + 2) / 3) 3).flatMap (base64Quantum bytes) := by
  have hfold : ∀ (indices : List ℕ) (output : Text),
      indices.foldl (fun output index => output ++ base64Quantum bytes index) output =
        output ++ indices.flatMap (base64Quantum bytes) := by
    intro indices
    induction indices with
    | nil => simp
    | cons index indices ih =>
      intro output
      rw [List.foldl_cons, ih, List.flatMap_cons, List.append_assoc]
  simp [base64Encode, Std.Legacy.Range.forIn_eq_forIn_range', Std.Legacy.Range.size, hfold]

theorem base64Encode_cons (a b c : UInt8) (bytes : List UInt8) :
    base64Encode (a :: b :: c :: bytes) = base64Quantum [a, b, c] 0 ++ base64Encode bytes := by
  have hcount : ((a :: b :: c :: bytes).length + 2) / 3 = (bytes.length + 2) / 3 + 1 := by
    simp only [List.length_cons]
    omega
  have hnext : List.range' 3 ((bytes.length + 2) / 3) 3 =
      (List.range' 0 ((bytes.length + 2) / 3) 3).map (3 + ·) := by
    rw [List.map_add_range']
  have hfirst : base64Quantum (a :: b :: c :: bytes) 0 = base64Quantum [a, b, c] 0 := by
    simp [base64Quantum]
  have hrest : ∀ index, base64Quantum (a :: b :: c :: bytes) (3 + index) =
      base64Quantum bytes index := by
    intro index
    have hget : ∀ k, (a :: b :: c :: bytes)[k + 3]? = bytes[k]? := fun _ => rfl
    have hlength : ∀ k, k + 3 < (a :: b :: c :: bytes).length ↔ k < bytes.length := by
      intro k
      simp only [List.length_cons]
      omega
    rw [Nat.add_comm 3 index]
    simp only [base64Quantum, Nat.add_right_comm index 3, hget, hlength]
  rw [base64Encode_eq_flatMap, base64Encode_eq_flatMap, hcount, List.range'_succ,
    List.flatMap_cons, Nat.zero_add, hnext, List.flatMap_map, hfirst]
  simp only [hrest]

/-! ## The bits -/

theorem combined_eq (a b c : UInt8) :
    (a.toNat <<< 16) ||| (b.toNat <<< 8) ||| c.toNat = ofBytes [a, b, c] := by
  have hb : b.toNat <<< 8 < 2 ^ 16 := by
    have := b.toNat_lt
    rw [Nat.shiftLeft_eq]
    omega
  have hc : c.toNat < 2 ^ 8 := c.toNat_lt
  rw [Nat.or_assoc, ← Nat.shiftLeft_add_eq_or_of_lt hc, ← Nat.shiftLeft_add_eq_or_of_lt
    (b := (b.toNat <<< 8) + c.toNat) (i := 16) (by omega)]
  simp only [Nat.shiftLeft_eq, ofBytes_cons, List.length_cons, List.length_nil, ofBytes_nil]
  omega

theorem base64Character_eq (value : ℕ) : base64Character value = Base64.character (value % 64) := by
  have hand : value &&& 63 = value % 64 := Nat.and_two_pow_sub_one_eq_mod value 6
  have halphabet : BASE64_ALPHABET = Base64.alphabet := rfl
  rw [base64Character, hand, halphabet, Base64.character]

theorem base64Quantum_eq (a b c : UInt8) :
    base64Quantum [a, b, c] 0 = (bigEndian 64 4 (ofBytes [a, b, c])).map Base64.character := by
  simp [base64Quantum, combined_eq, base64Character_eq, bigEndian, Nat.shiftRight_eq_div_pow,
    Nat.div_div_eq_div_mul]

theorem encode_cons (a b c : UInt8) (bytes : List UInt8) :
    Base64.encode (a :: b :: c :: bytes) =
      (bigEndian 64 4 (ofBytes [a, b, c])).map Base64.character ++ Base64.encode bytes := by
  have hgroups : Base64.groups (bytes.length + 1 + 1 + 1) = 4 + Base64.groups bytes.length := by
    unfold Base64.groups
    omega
  have hfill : 6 * (4 + Base64.groups bytes.length) - 8 * (bytes.length + 1 + 1 + 1) =
      6 * Base64.groups bytes.length - 8 * bytes.length := by omega
  have hpad : (3 - (bytes.length + 1 + 1 + 1) % 3) % 3 = (3 - bytes.length % 3) % 3 := by omega
  have hpow : 256 ^ bytes.length * 2 ^ (6 * Base64.groups bytes.length - 8 * bytes.length) =
      64 ^ Base64.groups bytes.length := by
    rw [show (256 : ℕ) = 2 ^ 8 from rfl, show (64 : ℕ) = 2 ^ 6 from rfl, Base64.two_pow_mul,
      Base64.two_pow_mul, ← Nat.pow_add, Nat.add_sub_cancel' (Base64.groups_spec bytes.length).1]
  unfold Base64.encode
  simp only [List.length_cons]
  rw [show a :: b :: c :: bytes = [a, b, c] ++ bytes from rfl, ofBytes_append, hgroups, hfill, hpad,
    Nat.add_mul, Nat.mul_assoc, hpow, bigEndian_append (by omega) 4 _ _ (Base64.bits_lt bytes),
    List.map_append, List.append_assoc]

theorem base64Quantum_one (a : UInt8) : base64Quantum [a] 0 = Base64.encode [a] := by
  have hencode : Base64.encode [a] =
      (bigEndian 64 2 (ofBytes [a] * 16)).map Base64.character ++ ['=', '='] := by
    simp [Base64.encode, Base64.groups, List.replicate]
  rw [hencode]
  simp [base64Quantum, base64Character_eq, bigEndian, ofBytes_cons, Nat.shiftLeft_eq,
    Nat.shiftRight_eq_div_pow]
  constructor <;> congr 1 <;> omega

theorem base64Quantum_two (a b : UInt8) : base64Quantum [a, b] 0 = Base64.encode [a, b] := by
  have hcombined : a.toNat <<< 16 ||| b.toNat <<< 8 = ofBytes [a, b] * 256 := by
    have h := combined_eq a b 0
    have hzero : (0 : UInt8).toNat = 0 := rfl
    rw [hzero, Nat.or_zero] at h
    rw [h]
    simp only [ofBytes_cons, List.length_cons, List.length_nil, ofBytes_nil, hzero]
    omega
  have hencode : Base64.encode [a, b] =
      (bigEndian 64 3 (ofBytes [a, b] * 4)).map Base64.character ++ ['='] := by
    simp [Base64.encode, Base64.groups]
  rw [hencode]
  simp [base64Quantum, base64Character_eq, bigEndian, hcombined, Nat.shiftRight_eq_div_pow]
  refine ⟨?_, ?_, ?_⟩ <;> congr 1 <;> omega

theorem base64Encode_eq : ∀ bytes : List UInt8, base64Encode bytes = Base64.encode bytes
  | [] => by rw [base64Encode_eq_flatMap]; rfl
  | [a] => by
    rw [base64Encode_eq_flatMap, ← base64Quantum_one]
    simp
  | [a, b] => by
    rw [base64Encode_eq_flatMap, ← base64Quantum_two]
    simp
  | a :: b :: c :: bytes => by
    rw [base64Encode_cons, base64Encode_eq bytes, encode_cons, base64Quantum_eq]

/--
Bytes of any length are encoded as RFC 4648 says, with padding, and decoding gives them back.
-/
theorem base64Encode_roundtrip (bytes : List UInt8) :
    base64Encode bytes = Base64.encode bytes ∧ Base64.decode (base64Encode bytes) = some bytes := by
  have h := base64Encode_eq bytes
  exact ⟨h, by rw [h, Base64.decode_encode]⟩

end Kommunsign.Crypto
