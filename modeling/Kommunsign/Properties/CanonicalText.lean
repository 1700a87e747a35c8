import Mathlib.Data.List.Perm.Subperm
import Kommunsign.Crypto.CanonicalJson
import Kommunsign.Infra.Lists

/-!
# What the canonical text says about a value

The normal form of a value has its zeros without a sign and the members of its objects in the order
of their names. It is what the text is read as, and values are alike exactly when theirs is the
same.

* `Alike` — equal, up to the order of members and the sign of zeros
* `canonicalJson_faithful` — equal texts are those of values that are alike, a text is parsed to a
  value that is alike, and what is refused is what has no text
-/

namespace Kommunsign.CanonicalJson

open Infra

/-! ## Values that are alike -/

mutual

def Alike : JsValue → JsValue → Prop
  | .undefined, .undefined => True
  | .null, .null => True
  | .bool b, .bool b' => b = b'
  | .number x, .number x' => x.unsigned = x'.unsigned
  | .string s, .string s' => s = s'
  | .array items, .array items' => ItemsAlike items items'
  | .object members, .object members' =>
    members.length = members'.length ∧ MembersAlike members members'
  | _, _ => False

def ItemsAlike : List JsValue → List JsValue → Prop
  | [], [] => True
  | item :: items, item' :: items' => Alike item item' ∧ ItemsAlike items items'
  | _, _ => False

def MembersAlike : List (Units × JsValue) → List (Units × JsValue) → Prop
  | [], _ => True
  | (name, value) :: members, members' =>
    (∃ m ∈ members', m.1 = name ∧ Alike value m.2) ∧ MembersAlike members members'

end

theorem itemsAlike_iff {items items' : List JsValue} :
    ItemsAlike items items' ↔ List.Forall₂ Alike items items' := by
  induction items generalizing items' with
  | nil => cases items' <;> simp [ItemsAlike]
  | cons item items ih => cases items' <;> simp [ItemsAlike, ih]

theorem membersAlike_iff {members members' : List (Units × JsValue)} :
    MembersAlike members members' ↔
      ∀ m ∈ members, ∃ m' ∈ members', m'.1 = m.1 ∧ Alike m.2 m'.2 := by
  induction members with
  | nil => simp [MembersAlike]
  | cons m members ih => rw [MembersAlike, ih, List.forall_mem_cons]

/-! ## The normal form -/

mutual

def normal : JsValue → JsValue
  | .number x => .number x.unsigned
  | .array items => .array (normalItems items)
  | .object members => .object ((normalMembers members).insertionSort keyLe)
  | .undefined => .undefined
  | .null => .null
  | .bool b => .bool b
  | .string s => .string s

def normalItems : List JsValue → List JsValue
  | [] => []
  | item :: items => normal item :: normalItems items

def normalMembers : List (Units × JsValue) → List (Units × JsValue)
  | [] => []
  | (name, value) :: members => (name, normal value) :: normalMembers members

end

theorem normalItems_eq_map (items : List JsValue) : normalItems items = items.map normal := by
  induction items with
  | nil => rfl
  | cons item items ih => rw [normalItems, ih, List.map_cons]

theorem normalMembers_eq_map (members : List (Units × JsValue)) :
    normalMembers members = members.map fun m => (m.1, normal m.2) := by
  induction members with
  | nil => rfl
  | cons m members ih => rw [normalMembers, ih, List.map_cons]

theorem normal_array (items : List JsValue) : normal (.array items) = .array (items.map normal) := by
  rw [normal, normalItems_eq_map]

theorem normal_object (members : List (Units × JsValue)) :
    normal (.object members) =
      .object ((members.insertionSort keyLe).map fun m => (m.1, normal m.2)) := by
  rw [normal, normalMembers_eq_map, map_insertionSort_keyLe]

theorem nodup_names_sorted {members : List (Units × JsValue)} (h : (members.map (·.1)).Nodup) :
    ((members.insertionSort keyLe).map (·.1)).Nodup :=
  ((List.perm_insertionSort keyLe members).map _).nodup_iff.mpr h

theorem keyed_normal {v : JsValue} (h : v.Keyed) : (normal v).Keyed := by
  induction v using JsValue.induction_on with
  | array items ih =>
    rw [JsValue.Keyed, JsValue.itemsKeyed_iff] at h
    rw [normal_array, JsValue.Keyed, JsValue.itemsKeyed_iff]
    exact List.forall_mem_map.mpr fun v hv => ih v hv (h v hv)
  | object members ih =>
    rw [JsValue.Keyed, JsValue.membersKeyed_iff] at h
    rw [normal_object, JsValue.Keyed, JsValue.membersKeyed_iff]
    refine ⟨?_, List.forall_mem_map.mpr fun m hm => ?_⟩
    · rw [List.map_map]
      exact nodup_names_sorted h.1
    · have hmem := (List.mem_insertionSort keyLe).mp hm
      exact ih m hmem (h.2 m hmem)
  | _ => trivial

theorem unsigned_unsigned (x : Number) : x.unsigned.unsigned = x.unsigned := by
  cases x <;> rfl

theorem insertionSort_normalized (members : List (Units × JsValue)) :
    ((members.insertionSort keyLe).map fun m => (m.1, normal m.2)).insertionSort keyLe =
      (members.insertionSort keyLe).map fun m => (m.1, normal m.2) := by
  rw [map_insertionSort_keyLe, (List.pairwise_insertionSort keyLe members).insertionSort_eq]

theorem normal_normal (v : JsValue) : normal (normal v) = normal v := by
  induction v using JsValue.induction_on with
  | number x => rw [normal, normal, unsigned_unsigned]
  | array items ih =>
    rw [normal_array, normal_array, List.map_map]
    exact congrArg _ (List.map_congr_left ih)
  | object members ih =>
    rw [normal_object, normal_object, insertionSort_normalized, List.map_map]
    refine congrArg _ (List.map_congr_left fun m hm => ?_)
    rw [Function.comp_apply, ih m ((List.mem_insertionSort keyLe).mp hm)]
  | _ => rfl

/-! ## The text and the normal form -/

theorem representable_normal {v : JsValue} (h : Representable v) : Representable (normal v) := by
  induction v using JsValue.induction_on with
  | number x => cases x <;> exact h
  | array items ih =>
    rw [Representable, itemsRepresentable_iff] at h
    rw [normal_array, Representable, itemsRepresentable_iff]
    exact List.forall_mem_map.mpr fun v hv => ih v hv (h v hv)
  | object members ih =>
    rw [Representable, membersRepresentable_iff] at h
    rw [normal_object, Representable, membersRepresentable_iff]
    refine List.forall_mem_map.mpr fun m hm => ?_
    have hmem := (List.mem_insertionSort keyLe).mp hm
    exact ih m hmem (h m hmem)
  | _ => exact h

theorem textOf_array {items : List JsValue} (h : Representable (.array items)) :
    textOf (.array items) = '[' :: (joinComma (items.map textOf) ++ [']']) := by
  rw [Representable, itemsRepresentable_iff] at h
  exact textOf_of_encode (encode_array fun v hv => encode_of_representable (h v hv))

theorem textOf_object {members : List (Units × JsValue)} (h : Representable (.object members)) :
    textOf (.object members) = '{' :: (joinComma
      ((members.insertionSort keyLe).map fun m => memberText m.1 (textOf m.2)) ++ ['}']) := by
  rw [Representable, membersRepresentable_iff] at h
  exact textOf_of_encode (encode_object fun m hm => encode_of_representable (h m hm))

theorem textOf_number {x : Number} (hx : x.isFinite = true) :
    textOf (.number x) = numberText x :=
  textOf_of_encode (encode_number hx)

theorem numberText_unsigned (x : Number) : numberText x.unsigned = numberText x := by
  cases x with
  | negativeZero =>
    show numberText .zero = ['0']
    rw [Number.zero, numberText, if_pos rfl]
  | _ => rfl

theorem textOf_normal {v : JsValue} (h : Representable v) : textOf (normal v) = textOf v := by
  induction v using JsValue.induction_on with
  | number x =>
    have hfinite : x.unsigned.isFinite = true := representable_normal h
    rw [normal, textOf_number hfinite, textOf_number h, numberText_unsigned]
  | array items ih =>
    have hnormal := representable_normal h
    rw [normal_array] at hnormal ⊢
    rw [textOf_array hnormal, textOf_array h, List.map_map]
    rw [Representable, itemsRepresentable_iff] at h
    have hitems : items.map (textOf ∘ normal) = items.map textOf :=
      List.map_congr_left fun v hv => ih v hv (h v hv)
    rw [hitems]
  | object members ih =>
    have hnormal := representable_normal h
    rw [normal_object] at hnormal ⊢
    rw [textOf_object hnormal, textOf_object h, insertionSort_normalized, List.map_map]
    rw [Representable, membersRepresentable_iff] at h
    have hentries : ∀ m ∈ members.insertionSort keyLe,
        memberText m.1 (textOf (normal m.2)) = memberText m.1 (textOf m.2) := by
      intro m hm
      have hmem := (List.mem_insertionSort keyLe).mp hm
      rw [ih m hmem (h m hmem)]
    rw [← List.map_congr_left hentries]
    rfl
  | _ => rfl

theorem reads_textOf {v : JsValue} (hkeyed : v.Keyed) (h : Representable v) :
    Reads (textOf v) (normal v) := by
  induction v using JsValue.induction_on with
  | undefined => exact h.elim
  | null => exact reads_null
  | bool b => exact reads_bool b
  | number x =>
    rw [textOf_number h]
    exact reads_number h
  | string s => exact reads_string s
  | array items ih =>
    rw [textOf_array h, normal_array]
    rw [Representable, itemsRepresentable_iff] at h
    rw [JsValue.Keyed, JsValue.itemsKeyed_iff] at hkeyed
    have hread : ∀ p ∈ items.map fun v => (textOf v, normal v), Reads p.1 p.2 :=
      List.forall_mem_map.mpr fun v hv => ih v hv (hkeyed v hv) (h v hv)
    have harray := reads_array hread
    rw [List.map_map, List.map_map] at harray
    exact harray
  | object members ih =>
    rw [textOf_object h, normal_object]
    rw [Representable, membersRepresentable_iff] at h
    rw [JsValue.Keyed, JsValue.membersKeyed_iff] at hkeyed
    -- the entries of the object, in the order in which they are written
    have hread : ∀ e ∈ (members.insertionSort keyLe).map fun m =>
        (⟨m.1, textOf m.2, normal m.2⟩ : Entry), Reads e.text e.value := by
      refine List.forall_mem_map.mpr fun m hm => ?_
      have hmem := (List.mem_insertionSort keyLe).mp hm
      exact ih m hmem (hkeyed.2 m hmem) (h m hmem)
    have hnames : (((members.insertionSort keyLe).map fun m =>
        (⟨m.1, textOf m.2, normal m.2⟩ : Entry)).map (·.name)).Nodup := by
      rw [List.map_map]
      exact nodup_names_sorted hkeyed.1
    have hobject := reads_object hread hnames
    rw [List.map_map, List.map_map] at hobject
    exact hobject

/-! ## Alike values have one normal form -/

theorem map_normal_eq_iff {items items' : List JsValue}
    (h : ∀ v ∈ items, ∀ v' ∈ items', Alike v v' ↔ normal v = normal v') :
    List.Forall₂ Alike items items' ↔ items.map normal = items'.map normal := by
  induction items generalizing items' with
  | nil => cases items' <;> simp
  | cons item items ih =>
    cases items' with
    | nil => simp
    | cons item' items' =>
      have hhead := h item List.mem_cons_self item' List.mem_cons_self
      have htail := ih fun v hv v' hv' =>
        h v (List.mem_cons_of_mem _ hv) v' (List.mem_cons_of_mem _ hv')
      rw [List.forall₂_cons, hhead, htail, List.map_cons, List.map_cons, List.cons.injEq]

theorem insertionSort_keyLe_eq_iff {α : Type} {members members' : List (Units × α)}
    (h : (members.map (·.1)).Nodup) (h' : (members'.map (·.1)).Nodup) :
    members.insertionSort keyLe = members'.insertionSort keyLe ↔
      members.length = members'.length ∧ ∀ m ∈ members, m ∈ members' := by
  constructor
  · intro heq
    have hperm : members.Perm members' := by
      have hsorted := List.perm_insertionSort keyLe members
      rw [heq] at hsorted
      exact hsorted.symm.trans (List.perm_insertionSort keyLe members')
    exact ⟨hperm.length_eq, fun m hm => hperm.subset hm⟩
  · rintro ⟨hlength, hsub⟩
    have hperm : members.Perm members' :=
      (List.subperm_of_subset (List.Nodup.of_map _ h) hsub).perm_of_length_le hlength.ge
    refine insertionSort_eq_of_perm (fun a b => Std.Total.total (r := keyLe) a b)
      (fun a b c => IsTrans.trans (r := keyLe) a b c) hperm fun a ha b hb hab hba => ?_
    exact List.inj_on_of_nodup_map h' ha hb (le_antisymm hab hba)

theorem alike_iff_normal {a b : JsValue} (ha : a.Keyed) (hb : b.Keyed) :
    Alike a b ↔ normal a = normal b := by
  induction a using JsValue.induction_on generalizing b with
  | array items ih =>
    cases b with
    | array items' =>
      rw [JsValue.Keyed, JsValue.itemsKeyed_iff] at ha hb
      rw [Alike, itemsAlike_iff, normal_array, normal_array, JsValue.array.injEq]
      exact map_normal_eq_iff fun v hv v' hv' => ih v hv (ha v hv) (hb v' hv')
    | _ => simp [Alike, normal]
  | object members ih =>
    cases b with
    | object members' =>
      rw [JsValue.Keyed, JsValue.membersKeyed_iff] at ha hb
      have hnames : ∀ {l : List (Units × JsValue)}, (l.map (·.1)).Nodup →
          ((normalMembers l).map (·.1)).Nodup := by
        intro l hl
        rwa [normalMembers_eq_map, List.map_map]
      rw [Alike, membersAlike_iff, normal, normal, JsValue.object.injEq,
        insertionSort_keyLe_eq_iff (hnames ha.1) (hnames hb.1)]
      rw [normalMembers_eq_map, normalMembers_eq_map, List.length_map, List.length_map,
        List.forall_mem_map]
      refine and_congr_right fun _ => forall₂_congr fun m hm => ?_
      rw [List.mem_map]
      refine exists_congr fun m' => and_congr_right fun hm' => ?_
      rw [ih m hm (ha.2 m hm) (hb.2 m' hm'), Prod.mk.injEq]
      exact and_congr_right fun _ => eq_comm
    | _ => simp [Alike, normal]
  | _ => cases b <;> simp [Alike, normal]

/-! ## The canonical text -/

theorem canonicalJson_eq_ok_iff {a : CanonicalJsonValue} {text : Text} :
    canonicalJson a = .ok text ↔ Representable a.1 ∧ textOf a.1 = text := by
  constructor
  · exact fun h => ⟨representable_of_encode h, textOf_of_encode h⟩
  · rintro ⟨h, rfl⟩
    exact encode_of_representable h

theorem alike_normal (a : CanonicalJsonValue) : Alike a.1 (normal a.1) :=
  (alike_iff_normal a.2 (keyed_normal a.2)).mpr (normal_normal a.1).symm

/-- **One text for the values that are alike, and no other.** -/
theorem same_text_iff (a b : CanonicalJsonValue) :
    (∃ text, canonicalJson a = .ok text ∧ canonicalJson b = .ok text) ↔
      Representable a.1 ∧ Representable b.1 ∧ Alike a.1 b.1 := by
  rw [alike_iff_normal a.2 b.2]
  constructor
  · rintro ⟨text, ha, hb⟩
    obtain ⟨hrepa, rfl⟩ := canonicalJson_eq_ok_iff.mp ha
    obtain ⟨hrepb, htext⟩ := canonicalJson_eq_ok_iff.mp hb
    refine ⟨hrepa, hrepb, ?_⟩
    -- the text is parsed to both normal forms
    have hparse := readJson_of_reads (reads_textOf b.2 hrepb)
    rw [htext, readJson_of_reads (reads_textOf a.2 hrepa)] at hparse
    exact Option.some.inj hparse
  · rintro ⟨hrepa, hrepb, hnormal⟩
    refine ⟨textOf a.1, canonicalJson_eq_ok_iff.mpr ⟨hrepa, rfl⟩,
      canonicalJson_eq_ok_iff.mpr ⟨hrepb, ?_⟩⟩
    rw [← textOf_normal hrepb, ← hnormal, textOf_normal hrepa]

/-- **Values that are alike, and no others, have one text; it is parsed to a value that is alike;
and a value is refused exactly when something inside it has no text.** -/
theorem canonicalJson_faithful (a b : CanonicalJsonValue) :
    ((∃ text, canonicalJson a = .ok text ∧ canonicalJson b = .ok text) ↔
      Representable a.1 ∧ Representable b.1 ∧ Alike a.1 b.1) ∧
    (∀ text, canonicalJson a = .ok text →
      ∃ v : CanonicalJsonValue, readJson text = some v.1 ∧ Alike a.1 v.1) ∧
    ((∃ e, canonicalJson a = .error e) ↔ ¬Representable a.1) := by
  refine ⟨same_text_iff a b, fun text h => ?_, ?_⟩
  · obtain ⟨hrep, rfl⟩ := canonicalJson_eq_ok_iff.mp h
    exact ⟨⟨normal a.1, keyed_normal a.2⟩, readJson_of_reads (reads_textOf a.2 hrep),
      alike_normal a⟩
  · rw [← isOk_encode_iff]
    show (∃ e, encode a.1 = .error e) ↔ _
    cases encode a.1 with
    | ok text => simp
    | error e => simp

end Kommunsign.CanonicalJson
