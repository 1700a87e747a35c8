import Kommunsign.Infra.Der

/-!
# The signatures of ES256

A token carries the two coordinates of a signature side by side. The class library takes them as
two integers in DER.

* `joseEcdsaToDer` — `CompactJwsVerifier.joseEcdsaToDer`
* `joseEcdsaToDer_encodes` — a signature becomes the encoding of its two coordinates
-/

namespace Kommunsign.CompactJws

open Infra Infra.Der

abbrev Bytes := List UInt8

/-- A number of a signature, without superfluous zeros and never negative. -/
def positiveInteger (input : Bytes) : Bytes :=
  let digits := input.dropLast.dropWhile (· = 0) ++ input.drop (input.length - 1)
  if 0x80 ≤ digits.head?.getD 0 then 0 :: digits else digits

/-- `none` stands for the exception. -/
def joseEcdsaToDer (joseSignature : Bytes) : Option Bytes :=
  if joseSignature.length ≠ 64 then none
  else
    let r := positiveInteger (joseSignature.take 32)
    let s := positiveInteger (joseSignature.drop 32)
    let payloadLength := 2 + r.length + 2 + s.length
    if 128 ≤ payloadLength then none
    else some (0x30 :: UInt8.ofNat payloadLength :: 0x02 :: UInt8.ofNat r.length ::
      (r ++ 0x02 :: UInt8.ofNat s.length :: s))

section

variable (front : List UInt8) (last : UInt8)

/-- A coordinate without the zeros in front, of which its last byte is none. -/
def coordinateDigits (front : List UInt8) (last : UInt8) : List UInt8 :=
  front.dropWhile (· = 0) ++ [last]

theorem positiveInteger_concat : positiveInteger (front ++ [last]) =
    if 0x80 ≤ (coordinateDigits front last).head?.getD 0 then 0 :: coordinateDigits front last
    else coordinateDigits front last := by
  have hlast : (front ++ [last]).drop ((front ++ [last]).length - 1) = [last] := by simp
  unfold positiveInteger coordinateDigits
  rw [List.dropLast_concat, hlast]

theorem ofBytes_coordinateDigits :
    ofBytes (coordinateDigits front last) = ofBytes (front ++ [last]) := by
  unfold coordinateDigits
  induction front with
  | nil => rfl
  | cons b front ih =>
    by_cases hb : b = 0
    · rw [List.dropWhile_cons_of_pos (by simpa using hb), ih, List.cons_append, ofBytes_cons, hb]
      exact (Nat.zero_add _).symm.trans (congrArg (· + _) (Nat.zero_mul _).symm)
    · rw [List.dropWhile_cons_of_neg (by simpa using hb)]

theorem length_coordinateDigits_le : (coordinateDigits front last).length ≤ front.length + 1 := by
  have := (List.dropWhile_sublist (l := front) (· = 0)).length_le
  simp only [coordinateDigits, List.length_append, List.length_singleton]
  omega

theorem ne_zero_of_coordinateDigits {a b : UInt8} {rest : List UInt8}
    (h : coordinateDigits front last = a :: b :: rest) : a ≠ 0 := by
  unfold coordinateDigits at h
  induction front with
  | nil => cases h
  | cons c front ih =>
    by_cases hc : c = 0
    · exact ih (by rwa [List.dropWhile_cons_of_pos (by simpa using hc)] at h)
    · rw [List.dropWhile_cons_of_neg (by simpa using hc)] at h
      exact (List.cons.inj h).1 ▸ hc

theorem isInteger_positiveInteger :
    IsInteger (ofBytes (front ++ [last])) (positiveInteger (front ++ [last])) := by
  obtain ⟨a, digits, hdigits⟩ := List.exists_cons_of_ne_nil
    (List.append_ne_nil_of_right_ne_nil (front.dropWhile (· = 0)) (List.cons_ne_nil last []))
  change coordinateDigits front last = a :: digits at hdigits
  have hvalue := ofBytes_coordinateDigits front last
  rw [hdigits] at hvalue
  rw [positiveInteger_concat, hdigits, ← hvalue, List.head?_cons, Option.getD_some]
  split
  · -- the sign bit is set: a zero stands in front
    next hbit =>
    have hbit : 128 ≤ a.toNat := hbit
    refine ⟨List.cons_ne_nil _ _, ?_, ?_⟩
    · show (ofBytes (0 :: a :: digits) : ℤ) - 0 = _
      rw [ofBytes_cons, sub_zero]
      exact congrArg Nat.cast ((congrArg (· + _) (Nat.zero_mul _)).trans (Nat.zero_add _))
    · rintro _ _ _ ⟨⟩
      exact ⟨fun h => by omega, fun h => absurd h.1 (by decide)⟩
  · next hbit =>
    have hbit : a.toNat < 128 := Nat.lt_of_not_le hbit
    refine ⟨List.cons_ne_nil _ _, ?_, ?_⟩
    · rw [twosComplement, if_neg (by omega), sub_zero]
    · rintro x y rest hcontents
      obtain ⟨rfl, htail⟩ := List.cons.inj hcontents
      refine ⟨fun h => ?_, fun h => by omega⟩
      exact ne_zero_of_coordinateDigits front last (hdigits.trans hcontents)
        (UInt8.toNat.inj h.1)

theorem length_positiveInteger_le :
    (positiveInteger (front ++ [last])).length ≤ front.length + 2 := by
  have := length_coordinateDigits_le front last
  rw [positiveInteger_concat]
  split
  · rw [List.length_cons]
    omega
  · omega

end

theorem positiveInteger_spec {coordinate : List UInt8} (h : coordinate.length = 32) :
    IsInteger (ofBytes coordinate) (positiveInteger coordinate) ∧
      (positiveInteger coordinate).length ≤ 33 := by
  have hne : coordinate ≠ [] := by
    rintro rfl
    cases h
  rw [← List.dropLast_concat_getLast hne]
  refine ⟨isInteger_positiveInteger _ _, (length_positiveInteger_le _ _).trans ?_⟩
  rw [List.length_dropLast, h]

theorem isElement_short (tag : UInt8) {contents : List UInt8} (h : contents.length < 128) :
    IsElement tag contents (tag :: UInt8.ofNat contents.length :: contents) :=
  ⟨_, .short h, rfl⟩

/--
A signature of 64 bytes becomes the one encoding in DER of the two integers of its halves, with
lengths below 128, and one of another length is refused.
-/
theorem joseEcdsaToDer_encodes (joseSignature : Bytes) :
    match joseEcdsaToDer joseSignature with
    | some der =>
      joseSignature.length = 64 ∧ der.length < 130 ∧
        ∀ octets, IsIntegerPair (ofBytes (joseSignature.take 32))
          (ofBytes (joseSignature.drop 32)) octets ↔ octets = der
    | none => joseSignature.length ≠ 64 := by
  by_cases hlength : joseSignature.length = 64
  · have htake : (joseSignature.take 32).length = 32 := by
      rw [List.length_take]
      omega
    have hdrop : (joseSignature.drop 32).length = 32 := by
      rw [List.length_drop]
      omega
    obtain ⟨hr, hrlength⟩ := positiveInteger_spec htake
    obtain ⟨hs, hslength⟩ := positiveInteger_spec hdrop
    unfold joseEcdsaToDer
    rw [if_neg (by omega)]
    dsimp only
    generalize positiveInteger (joseSignature.take 32) = r at *
    generalize positiveInteger (joseSignature.drop 32) = s at *
    rw [if_neg (by omega)]
    dsimp only
    have hfirst := isElement_short 0x02 (show r.length < 128 by omega)
    have hsecond := isElement_short 0x02 (show s.length < 128 by omega)
    have hpayload : ((0x02 :: UInt8.ofNat r.length :: r) ++
        0x02 :: UInt8.ofNat s.length :: s).length = 2 + r.length + 2 + s.length := by
      simp only [List.length_append, List.length_cons]
      omega
    have hpair := isElement_short 0x30 (hpayload.trans_lt (by omega))
    rw [hpayload] at hpair
    have hder : IsIntegerPair (ofBytes (joseSignature.take 32))
        (ofBytes (joseSignature.drop 32)) _ :=
      ⟨r, s, _, _, hr, hfirst, hs, hsecond, hpair⟩
    refine ⟨hlength, ?_, fun octets => ⟨fun h => h.eq hder, fun h => h ▸ hder⟩⟩
    simp only [List.length_append, List.length_cons]
    omega
  · unfold joseEcdsaToDer
    rw [if_pos hlength]
    exact hlength

end Kommunsign.CompactJws
