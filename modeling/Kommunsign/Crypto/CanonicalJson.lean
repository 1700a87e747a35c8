import Kommunsign.Infra.JsValue
import Kommunsign.Infra.Transaction
import Mathlib.Data.List.Sort

/-!
# Canonical JSON of any value

`Kommunsign/Api/EvidencePayload.lean` has the writer on the values that the evidence payload is
made of. This is the writer on everything that it can be given, with what it refuses.

* `encode` — the writer, over nested arrays and objects
* `CanonicalJsonValue` — a value whose objects have distinct names
-/

namespace Kommunsign.CanonicalJson

open Infra

structure TypeError where
  message : Units
  deriving DecidableEq

/-- A value that the writer can be given: every object has one member of a name. -/
abbrev CanonicalJsonValue := { value : JsValue // value.Keyed }

/-- The order of `Array.prototype.sort` on the names. -/
def keyLe {α : Type} (a b : Units × α) : Prop := a.1 ≤ b.1

instance {α : Type} (a b : Units × α) : Decidable (keyLe a b) := inferInstanceAs (Decidable (_ ≤ _))

instance {α : Type} : Std.Total (keyLe (α := α)) := ⟨fun a b => le_total a.1 b.1⟩

instance {α : Type} : IsTrans (Units × α) keyLe := ⟨fun _ _ _ hab hbc => le_trans hab hbc⟩

def isUndefined : JsValue → Bool
  | .undefined => true
  | _ => false

mutual

def encode : JsValue → Except TypeError Text
  | .null => .ok "null".toList
  | .bool b => .ok (if b then "true".toList else "false".toList)
  | .string s => .ok (quoteUnits s)
  | .number x =>
    if x.isFinite = false then .error ⟨unitsOf "Canonical JSON rejects non-finite numbers"⟩
    else if x = .negativeZero then .ok "0".toList
    else .ok (numberText x)
  -- `Object.keys(undefined)`
  | .undefined => .error ⟨unitsOf "Cannot convert undefined or null to object"⟩
  | .array items => do
    let texts ← encodeItems items
    return '[' :: (joinComma texts ++ [']'])
  | .object members => do
    let entries ← ((encodeMembers members).insertionSort keyLe).mapM (·.2)
    return '{' :: (joinComma entries ++ ['}'])

def encodeItems : List JsValue → Except TypeError (List Text)
  | [] => .ok []
  | item :: items => do
    let text ← encode item
    let texts ← encodeItems items
    return text :: texts

/-- Every key with the entry of its item. -/
def encodeMembers : List (Units × JsValue) → List (Units × Except TypeError Text)
  | [] => []
  | (key, item) :: members =>
    (key,
      if isUndefined item then
        .error ⟨unitsOf "Canonical JSON rejects undefined at key: " ++ key⟩
      else (encode item).map (memberText key)) :: encodeMembers members

end

example : encode (.object [(unitsOf "b", .number .negativeZero),
    (unitsOf "a", .array [.null, .bool true])]) =
      .ok "\x7b\"a\":[null,true],\"b\":0\x7d".toList := by decide +kernel

def canonicalJson (value : CanonicalJsonValue) : Except TypeError Text := encode value.1

mutual

/-- Nothing inside is undefined or a number that is not finite. -/
def Representable : JsValue → Prop
  | .undefined => False
  | .number x => x.isFinite = true
  | .array items => ItemsRepresentable items
  | .object members => MembersRepresentable members
  | .null => True
  | .bool _ => True
  | .string _ => True

def ItemsRepresentable : List JsValue → Prop
  | [] => True
  | item :: items => Representable item ∧ ItemsRepresentable items

def MembersRepresentable : List (Units × JsValue) → Prop
  | [] => True
  | (_, item) :: members => Representable item ∧ MembersRepresentable members

end

/-! ## The nested calls as a list of calls -/

/-- The entry of one member. -/
def encodeMember (m : Units × JsValue) : Except TypeError Text :=
  if isUndefined m.2 then .error ⟨unitsOf "Canonical JSON rejects undefined at key: " ++ m.1⟩
  else (encode m.2).map (memberText m.1)

theorem encodeItems_eq_mapM (items : List JsValue) : encodeItems items = items.mapM encode := by
  induction items with
  | nil => rfl
  | cons item items ih =>
    rw [encodeItems, List.mapM_cons, ih]

theorem encodeMembers_eq_map (members : List (Units × JsValue)) :
    encodeMembers members = members.map fun m => (m.1, encodeMember m) := by
  induction members with
  | nil => rfl
  | cons m members ih =>
    rw [encodeMembers, ih, List.map_cons]
    rfl

theorem map_insertionSort_keyLe {α β : Type} (f : Units × α → β) (members : List (Units × α)) :
    (members.map fun m => (m.1, f m)).insertionSort keyLe =
      (members.insertionSort keyLe).map fun m => (m.1, f m) :=
  (List.map_insertionSort keyLe keyLe (fun m => (m.1, f m)) members fun _ _ _ _ => Iff.rfl).symm

theorem encodeMembers_sorted (members : List (Units × JsValue)) :
    ((encodeMembers members).insertionSort keyLe).mapM (·.2) =
      (members.insertionSort keyLe).mapM encodeMember := by
  rw [encodeMembers_eq_map, map_insertionSort_keyLe, List.mapM_map]
  rfl

theorem itemsRepresentable_iff {items : List JsValue} :
    ItemsRepresentable items ↔ ∀ v ∈ items, Representable v := by
  induction items with
  | nil => simp [ItemsRepresentable]
  | cons item items ih => rw [ItemsRepresentable, ih, List.forall_mem_cons]

theorem membersRepresentable_iff {members : List (Units × JsValue)} :
    MembersRepresentable members ↔ ∀ m ∈ members, Representable m.2 := by
  induction members with
  | nil => simp [MembersRepresentable]
  | cons m members ih => rw [MembersRepresentable, ih, List.forall_mem_cons]

/-! ## What is written at all -/

/-- The text of a value that is written. -/
def textOf (v : JsValue) : Text :=
  match encode v with
  | .ok text => text
  | .error _ => []

theorem textOf_of_encode {v : JsValue} {text : Text} (h : encode v = .ok text) :
    textOf v = text := by
  rw [textOf, h]

theorem encodeMember_of_encode {m : Units × JsValue} {text : Text} (h : encode m.2 = .ok text) :
    encodeMember m = .ok (memberText m.1 text) := by
  have hdefined : isUndefined m.2 = false := by
    cases hm : m.2 with
    | undefined =>
      rw [hm] at h
      exact nomatch h
    | _ => rfl
  rw [encodeMember, hdefined, h]
  rfl

theorem encode_array {items : List JsValue} (h : ∀ v ∈ items, encode v = .ok (textOf v)) :
    encode (.array items) = .ok ('[' :: (joinComma (items.map textOf) ++ [']'])) := by
  rw [encode, encodeItems_eq_mapM, except_mapM_map h]
  rfl

theorem encode_object {members : List (Units × JsValue)}
    (h : ∀ m ∈ members, encode m.2 = .ok (textOf m.2)) :
    encode (.object members) = .ok ('{' :: (joinComma
      ((members.insertionSort keyLe).map fun m => memberText m.1 (textOf m.2)) ++ ['}'])) := by
  rw [encode, encodeMembers_sorted, except_mapM_map fun m hm =>
    encodeMember_of_encode (h m ((List.mem_insertionSort _).mp hm))]
  rfl

theorem encode_number {x : Number} (hx : x.isFinite = true) :
    encode (.number x) = .ok (numberText x) := by
  rw [encode, hx, if_neg (by decide)]
  split
  · next hzero =>
    rw [hzero]
    rfl
  · rfl

theorem encode_of_representable {v : JsValue} (h : Representable v) :
    encode v = .ok (textOf v) := by
  -- it is enough that something is written
  suffices hok : ∃ text, encode v = .ok text by
    obtain ⟨text, htext⟩ := hok
    rw [textOf_of_encode htext]
    exact htext
  induction v using JsValue.induction_on with
  | undefined => exact h.elim
  | null => exact ⟨_, rfl⟩
  | bool b => exact ⟨_, rfl⟩
  | number x => exact ⟨_, encode_number h⟩
  | string s => exact ⟨_, rfl⟩
  | array items ih =>
    rw [Representable, itemsRepresentable_iff] at h
    refine ⟨_, encode_array fun v hv => ?_⟩
    obtain ⟨text, htext⟩ := ih v hv (h v hv)
    rw [textOf_of_encode htext]
    exact htext
  | object members ih =>
    rw [Representable, membersRepresentable_iff] at h
    refine ⟨_, encode_object fun m hm => ?_⟩
    obtain ⟨text, htext⟩ := ih m hm (h m hm)
    rw [textOf_of_encode htext]
    exact htext

theorem representable_of_encode {v : JsValue} {text : Text} (h : encode v = .ok text) :
    Representable v := by
  induction v using JsValue.induction_on generalizing text with
  | undefined => exact nomatch h
  | null => trivial
  | bool b => trivial
  | number x =>
    rw [encode] at h
    split at h
    · exact nomatch h
    · next hx => exact Bool.eq_true_of_not_eq_false hx
  | string s => trivial
  | array items ih =>
    rw [encode, encodeItems_eq_mapM] at h
    obtain ⟨texts, htexts, _⟩ := except_bind_eq_ok.mp h
    refine itemsRepresentable_iff.mpr fun v hv => ?_
    obtain ⟨text, -, htext⟩ := (mem_of_except_mapM htexts).1 v hv
    exact ih v hv htext
  | object members ih =>
    rw [encode, encodeMembers_sorted] at h
    obtain ⟨entries, hentries, _⟩ := except_bind_eq_ok.mp h
    refine membersRepresentable_iff.mpr fun m hm => ?_
    obtain ⟨entry, -, hentry⟩ := (mem_of_except_mapM hentries).1 m
      ((List.mem_insertionSort _).mpr hm)
    rw [encodeMember] at hentry
    split at hentry
    · exact nomatch hentry
    · obtain ⟨text, htext⟩ : ∃ text, encode m.2 = .ok text := by
        cases hitem : encode m.2 with
        | ok text => exact ⟨text, rfl⟩
        | error e =>
          rw [hitem] at hentry
          exact nomatch hentry
      exact ih m hm htext

theorem isOk_encode_iff {v : JsValue} : (∃ text, encode v = .ok text) ↔ Representable v :=
  ⟨fun ⟨_, h⟩ => representable_of_encode h, fun h => ⟨_, encode_of_representable h⟩⟩

end Kommunsign.CanonicalJson
