import Kommunsign.Infra.Json

/-!
# Texts and numbers as bytes

* `utf8` — `new TextEncoder().encode(text)`
* `decodeUtf8`, `decodeUtf8_utf8` — `new TextDecoder('utf-8', { fatal: true }).decode(bytes)`
-/

namespace Infra

def utf8 (s : Text) : List UInt8 := s.flatMap String.utf8EncodeChar

theorem toByteArray_utf8 (s : Text) : (utf8 s).toByteArray = s.utf8Encode := rfl

theorem utf8_injective : Function.Injective utf8 := by
  intro s t h
  have hdecode := congrArg ByteArray.utf8Decode? (congrArg List.toByteArray h)
  rw [toByteArray_utf8, toByteArray_utf8, List.utf8Decode?_utf8Encode,
    List.utf8Decode?_utf8Encode] at hdecode
  exact congrArg Array.toList (Option.some.inj hdecode)

/-- A byte order mark in front of a text is no part of it. -/
def dropByteOrderMark : Text → Text
  | '\uFEFF' :: s => s
  | s => s

def decodeUtf8 (bytes : List UInt8) : Option Text :=
  bytes.toByteArray.utf8Decode?.map fun s => dropByteOrderMark s.toList

theorem decodeUtf8_utf8 (s : Text) : decodeUtf8 (utf8 s) = some (dropByteOrderMark s) := by
  unfold decodeUtf8
  rw [toByteArray_utf8, List.utf8Decode?_utf8Encode, Option.map_some]

/-- The lowest `width` bytes of a number, the lowest first. -/
def littleEndian : Nat → Nat → List UInt8
  | 0, _ => []
  | width + 1, n => UInt8.ofNat n :: littleEndian width (n / 256)

def ofLittleEndian : List UInt8 → Nat
  | [] => 0
  | b :: bs => b.toNat + 256 * ofLittleEndian bs

@[simp] theorem length_littleEndian (width n : Nat) : (littleEndian width n).length = width := by
  induction width generalizing n with
  | zero => rfl
  | succ width ih => rw [littleEndian, List.length_cons, ih]

theorem ofLittleEndian_littleEndian (width n : Nat) :
    ofLittleEndian (littleEndian width n) = n % 256 ^ width := by
  induction width generalizing n with
  | zero => simp [littleEndian, ofLittleEndian, Nat.mod_one]
  | succ width ih =>
    have hbyte : (UInt8.ofNat n).toNat = n % 256 := UInt8.toNat_ofNat'
    rw [littleEndian, ofLittleEndian, ih, hbyte, Nat.pow_succ', Nat.mod_mul]

theorem ofLittleEndian_of_lt {width n : Nat} (h : n < 256 ^ width) :
    ofLittleEndian (littleEndian width n) = n := by
  rw [ofLittleEndian_littleEndian, Nat.mod_eq_of_lt h]

end Infra
