import Kommunsign.Signing.Manifest
import Kommunsign.Properties.CanonicalText

/-!
# What a signing intent is bound to

The manifest is built from documents in any order. It is refused unless the documents are exactly
the ones from first to last, and its bytes tell which they are.

* `IsManifestSet` — what the documents of a manifest have to be
* `buildSigningIntentManifest_binds` — the result on all inputs
-/

namespace Kommunsign.SigningEngine

open Infra CanonicalJson

def IsLowerHexDigest (text : Units) : Prop :=
  text.length = 64 ∧ ∀ u ∈ text, u ∈ unitsOf "0123456789abcdef"

def IsByteCount (x : Number) : Prop :=
  ∃ n : ℕ, 0 < n ∧ n < 2 ^ 53 ∧ x.value? = some (n : ℚ)

/-- The documents from `1` to the last, in any order. -/
structure IsManifestSet (documents : List SigningIntentManifestDocument) : Prop where
  nonempty : documents ≠ []
  ordinals : (documents.map (·.ordinal.value?)).Perm
    ((List.range documents.length).map fun i => some ((i + 1 : ℕ) : ℚ))
  digests : ∀ d ∈ documents, IsLowerHexDigest d.documentSha256
  sizes : ∀ d ∈ documents, IsByteCount d.byteSize
  versions : (documents.map (·.documentVersionId)).Nodup

/-! ## The checks of one document -/

theorem isLowerHexUnit_iff {u : CodeUnit} :
    isLowerHexUnit u = true ↔ u ∈ unitsOf "0123456789abcdef" := by
  have hdigits : unitsOf "0123456789abcdef" = [48, 49, 50, 51, 52, 53, 54, 55, 56, 57,
      97, 98, 99, 100, 101, 102] := by decide
  rw [hdigits]
  simp only [isLowerHexUnit, Bool.or_eq_true, Bool.and_eq_true, decide_eq_true_eq, Fin.le_def,
    List.mem_cons, List.not_mem_nil, or_false, Fin.ext_iff]
  show (48 ≤ u.val ∧ u.val ≤ 57) ∨ (97 ≤ u.val ∧ u.val ≤ 102) ↔ u.val = 48 ∨ u.val = 49 ∨
    u.val = 50 ∨ u.val = 51 ∨ u.val = 52 ∨ u.val = 53 ∨ u.val = 54 ∨ u.val = 55 ∨ u.val = 56 ∨
    u.val = 57 ∨ u.val = 97 ∨ u.val = 98 ∨ u.val = 99 ∨ u.val = 100 ∨ u.val = 101 ∨ u.val = 102
  omega

theorem isSha256Hex_iff {text : Units} : isSha256Hex text = true ↔ IsLowerHexDigest text := by
  unfold isSha256Hex IsLowerHexDigest
  rw [Bool.and_eq_true, decide_eq_true_eq, List.all_eq_true]
  exact and_congr_right fun _ => forall₂_congr fun _ _ => isLowerHexUnit_iff

theorem isByteCount_iff {x : Number} :
    x.isSafeInteger = true ∧ isPositive x = true ↔ IsByteCount x := by
  unfold IsByteCount isPositive Number.isSafeInteger
  cases hx : x.value? with
  | none => simp
  | some q =>
    rw [Number.exceeds_iff hx (show Number.zero.value? = some 0 from rfl)]
    simp only [Option.any_some, Bool.and_eq_true, decide_eq_true_eq, Option.some.injEq]
    constructor
    · rintro ⟨⟨hden, hlt⟩, hpos⟩
      obtain ⟨m, rfl⟩ := den_eq_one_iff.mp hden
      have hm : 0 < m := by exact_mod_cast hpos
      obtain ⟨n, rfl⟩ := Int.eq_ofNat_of_zero_le hm.le
      rw [abs_of_pos hpos] at hlt
      exact ⟨n, by exact_mod_cast hm, by exact_mod_cast hlt, rfl⟩
    · rintro ⟨n, hpos, hlt, rfl⟩
      have hcast : (0 : ℚ) < n := by exact_mod_cast hpos
      refine ⟨⟨rfl, ?_⟩, hcast⟩
      rw [abs_of_pos hcast]
      exact_mod_cast hlt

theorem checkManifestDocument_eq_ok {index : ℕ} {d : SigningIntentManifestDocument} :
    checkManifestDocument index d = .ok () ↔
      d.ordinal.value? = some ((index + 1 : ℕ) : ℚ) ∧ IsLowerHexDigest d.documentSha256 ∧
        IsByteCount d.byteSize := by
  unfold checkManifestDocument
  rw [except_guard_eq_ok, except_guard_eq_ok, except_guard_end_eq_ok, ← isSha256Hex_iff,
    ← isByteCount_iff]
  simp

theorem checkManifestDocuments_eq_ok {documents : List SigningIntentManifestDocument} {index : ℕ} :
    checkManifestDocuments index documents = .ok () ↔
      documents.map (·.ordinal.value?) =
          (List.range' index documents.length).map (fun i => some ((i + 1 : ℕ) : ℚ)) ∧
        ∀ d ∈ documents, IsLowerHexDigest d.documentSha256 ∧ IsByteCount d.byteSize := by
  induction documents generalizing index with
  | nil => simp [checkManifestDocuments]
  | cons d documents ih =>
    rw [checkManifestDocuments, except_bind_eq_ok]
    have hcheck : (∃ u, checkManifestDocument index d = .ok u ∧
        checkManifestDocuments (index + 1) documents = .ok ()) ↔
        checkManifestDocument index d = .ok () ∧
          checkManifestDocuments (index + 1) documents = .ok () := by
      exact ⟨fun ⟨_, h⟩ => h, fun h => ⟨(), h⟩⟩
    rw [hcheck, checkManifestDocument_eq_ok, ih, List.length_cons, List.range'_succ, List.map_cons,
      List.map_cons, List.cons.injEq, List.forall_mem_cons]
    tauto

/-! ## The sorted documents -/

section

variable {documents documents' : List SigningIntentManifestDocument}

def ordinalOf (d : SigningIntentManifestDocument) : ℚ := d.ordinal.value?.getD 0

theorem value?_eq_ordinalOf (h : IsManifestSet documents) :
    ∀ d ∈ documents, d.ordinal.value? = some (ordinalOf d) := by
  intro d hd
  have hmem := h.ordinals.subset (List.mem_map_of_mem (f := (·.ordinal.value?)) hd)
  obtain ⟨i, _, hi⟩ := List.mem_map.mp hmem
  unfold ordinalOf
  rw [← hi]
  rfl

theorem ordinalOf_perm (h : IsManifestSet documents) :
    (documents.map ordinalOf).Perm
      ((List.range documents.length).map fun i => ((i + 1 : ℕ) : ℚ)) := by
  have hperm := h.ordinals.map (·.getD 0)
  rw [List.map_map, List.map_map] at hperm
  exact hperm

theorem sortedLE_range (n : ℕ) :
    ((List.range n).map fun i => ((i + 1 : ℕ) : ℚ)).Pairwise (· ≤ ·) := by
  rw [List.pairwise_map]
  refine List.pairwise_lt_range.imp fun hlt => ?_
  exact_mod_cast (Nat.succ_le_succ hlt.le)

theorem map_ordinalOf_sorted (h : IsManifestSet documents) :
    (documents.insertionSort ordinalLe).map ordinalOf =
      (List.range documents.length).map fun i => ((i + 1 : ℕ) : ℚ) := by
  have hle : ∀ a ∈ documents, ∀ b ∈ documents, ordinalLe a b ↔ ordinalOf a ≤ ordinalOf b := by
    intro a ha b hb
    have hexceeds := Number.exceeds_iff (value?_eq_ordinalOf h a ha) (value?_eq_ordinalOf h b hb)
    rw [← not_lt, ← hexceeds, Bool.not_eq_true]
    rfl
  rw [List.map_insertionSort ordinalLe (· ≤ ·) ordinalOf documents hle]
  have hsorted := (List.perm_insertionSort (· ≤ ·) (documents.map ordinalOf)).trans
    (ordinalOf_perm h)
  exact hsorted.eq_of_pairwise (fun _ _ _ _ hab hba => le_antisymm hab hba)
    (List.pairwise_insertionSort (· ≤ ·) _) (sortedLE_range _)

theorem map_value?_sorted (h : IsManifestSet documents) :
    (documents.insertionSort ordinalLe).map (·.ordinal.value?) =
      (List.range documents.length).map fun i => some ((i + 1 : ℕ) : ℚ) := by
  have hvalues : (documents.insertionSort ordinalLe).map (·.ordinal.value?) =
      ((documents.insertionSort ordinalLe).map ordinalOf).map some := by
    rw [List.map_map]
    exact List.map_congr_left fun d hd =>
      value?_eq_ordinalOf h d ((List.mem_insertionSort _).mp hd)
  rw [hvalues, map_ordinalOf_sorted h, List.map_map]
  rfl

theorem IsManifestSet.perm (h : IsManifestSet documents) (hperm : documents'.Perm documents) :
    IsManifestSet documents' where
  nonempty := fun hnil => h.nonempty ((hnil ▸ hperm).nil_eq ▸ rfl)
  ordinals := by
    rw [hperm.length_eq]
    exact (hperm.map _).trans h.ordinals
  digests d hd := h.digests d (hperm.subset hd)
  sizes d hd := h.sizes d (hperm.subset hd)
  versions := (hperm.map _).nodup_iff.mpr h.versions

theorem ordinalOf_inj (h : IsManifestSet documents) :
    ∀ a ∈ documents, ∀ b ∈ documents, ordinalOf a = ordinalOf b → a = b := by
  have hnodup : (documents.map ordinalOf).Nodup := by
    refine (ordinalOf_perm h).nodup_iff.mpr (List.nodup_range.map fun i j hij => ?_)
    have hij : i + 1 = j + 1 := by exact_mod_cast hij
    omega
  exact fun a ha b hb hab => List.inj_on_of_nodup_map hnodup ha hb hab

theorem sorted_eq_of_perm (h : IsManifestSet documents) (hperm : documents'.Perm documents) :
    documents'.insertionSort ordinalLe = documents.insertionSort ordinalLe := by
  have hordinals : (documents'.insertionSort ordinalLe).map ordinalOf =
      (documents.insertionSort ordinalLe).map ordinalOf := by
    rw [map_ordinalOf_sorted (h.perm hperm), map_ordinalOf_sorted h, hperm.length_eq]
  have hlength : (documents'.insertionSort ordinalLe).length =
      (documents.insertionSort ordinalLe).length := by
    rw [List.length_insertionSort, List.length_insertionSort, hperm.length_eq]
  refine List.ext_getElem hlength fun i hi hi' => ?_
  have hmem' := hperm.subset ((List.mem_insertionSort _).mp (List.getElem_mem hi))
  have hmem := (List.mem_insertionSort _).mp (List.getElem_mem hi')
  refine ordinalOf_inj h _ hmem' _ hmem ?_
  have hget := congrArg (·[i]?) hordinals
  simp only [List.getElem?_map, List.getElem?_eq_getElem hi, List.getElem?_eq_getElem hi',
    Option.map_some] at hget
  exact Option.some.inj hget

end

/-! ## What is built -/

def manifestOf (input : SigningIntentManifestInput) : SigningIntentManifest where
  schema := SIGNING_INTENT_MANIFEST_SCHEMA
  tenantId := input.tenantId
  signatureCaseId := input.signatureCaseId
  signingIntentId := input.signingIntentId
  signerId := input.signerId
  documents := input.documents.insertionSort ordinalLe

theorem isManifestSet_iff {documents : List SigningIntentManifestDocument} :
    IsManifestSet documents ↔ documents.length ≠ 0 ∧
      checkManifestDocuments 0 (documents.insertionSort ordinalLe) = .ok () ∧
      (documents.map (·.documentVersionId)).Nodup := by
  rw [checkManifestDocuments_eq_ok, List.length_insertionSort, ← List.range_eq_range']
  have hmem : ∀ {d}, d ∈ documents.insertionSort ordinalLe ↔ d ∈ documents :=
    List.mem_insertionSort _
  constructor
  · intro h
    refine ⟨fun hlength => h.nonempty (List.length_eq_zero_iff.mp hlength),
      ⟨map_value?_sorted h, fun d hd => ?_⟩, h.versions⟩
    exact ⟨h.digests d (hmem.mp hd), h.sizes d (hmem.mp hd)⟩
  · rintro ⟨hlength, ⟨hordinals, hchecks⟩, hversions⟩
    refine ⟨fun hnil => hlength (List.length_eq_zero_iff.mpr hnil), ?_,
      fun d hd => (hchecks d (hmem.mpr hd)).1, fun d hd => (hchecks d (hmem.mpr hd)).2, hversions⟩
    rw [← hordinals]
    exact ((List.perm_insertionSort ordinalLe documents).map _).symm

theorem length_dedup_map_iff {α β : Type} [DecidableEq β] {f : α → β} {l : List α} :
    (l.map f).dedup.length = l.length ↔ (l.map f).Nodup := by
  have hlength : (l.map f).length = l.length := List.length_map f
  rw [← hlength]
  constructor
  · intro h
    exact List.dedup_eq_self.mp ((List.dedup_sublist _).eq_of_length h)
  · intro h
    rw [h.dedup]

theorem buildSigningIntentManifest_eq_ok {input : SigningIntentManifestInput}
    {manifest : SigningIntentManifest} :
    buildSigningIntentManifest input = .ok manifest ↔
      IsManifestSet input.documents ∧ manifest = manifestOf input := by
  unfold buildSigningIntentManifest
  have hversions : ((input.documents.insertionSort ordinalLe).map
      (·.documentVersionId)).Nodup ↔ (input.documents.map (·.documentVersionId)).Nodup :=
    ((List.perm_insertionSort ordinalLe input.documents).map _).nodup_iff
  rw [except_guard_eq_ok, except_bind_eq_ok, isManifestSet_iff, ← hversions]
  constructor
  · rintro ⟨hlength, _, hchecks, h⟩
    obtain ⟨hversion, h⟩ := except_guard_eq_ok.mp h
    rw [not_not, length_dedup_map_iff] at hversion
    exact ⟨⟨hlength, hchecks, hversion⟩, (Except.ok.inj h).symm⟩
  · rintro ⟨⟨hlength, hchecks, hnodup⟩, rfl⟩
    refine ⟨hlength, (), hchecks, except_guard_eq_ok.mpr ⟨?_, rfl⟩⟩
    rw [not_not, length_dedup_map_iff]
    exact hnodup

/-! ## The bytes -/

theorem isFinite_of_value? {x : Number} {q : ℚ} (h : x.value? = some q) : x.isFinite = true := by
  cases x <;> first | rfl | exact nomatch h

theorem representable_toJsValue {d : SigningIntentManifestDocument}
    (hordinal : d.ordinal.isFinite = true) (hsize : d.byteSize.isFinite = true) :
    Representable d.toJsValue := by
  simp [SigningIntentManifestDocument.toJsValue, Representable, MembersRepresentable, hordinal,
    hsize]

theorem representable_manifestOf {input : SigningIntentManifestInput}
    (h : IsManifestSet input.documents) : Representable (manifestOf input).toJsValue := by
  simp only [SigningIntentManifest.toJsValue, Representable, MembersRepresentable, true_and,
    and_true]
  rw [itemsRepresentable_iff, List.forall_mem_map]
  intro d hd
  have hd := (List.mem_insertionSort _).mp hd
  obtain ⟨n, _, _, hsize⟩ := h.sizes d hd
  exact representable_toJsValue (isFinite_of_value? (value?_eq_ordinalOf h d hd))
    (isFinite_of_value? hsize)

theorem exists_bytes {input : SigningIntentManifestInput} (h : IsManifestSet input.documents) :
    ∃ bytes, signingIntentManifestBytes (manifestOf input) = .ok bytes := by
  refine ⟨utf8 (textOf (manifestOf input).toJsValue), ?_⟩
  unfold signingIntentManifestBytes
  rw [canonicalJson_eq_ok_iff.mpr ⟨representable_manifestOf h, rfl⟩]
  rfl

theorem alike_of_same_bytes {manifest manifest' : SigningIntentManifest} {bytes : List UInt8}
    (h : signingIntentManifestBytes manifest = .ok bytes)
    (h' : signingIntentManifestBytes manifest' = .ok bytes) :
    Alike manifest.toJsValue manifest'.toJsValue := by
  have hwritten : ∀ {m : SigningIntentManifest}, signingIntentManifestBytes m = .ok bytes →
      ∃ text, CanonicalJson.canonicalJson m.toCanonicalJsonValue = .ok text ∧ utf8 text = bytes := by
    intro m hm
    unfold signingIntentManifestBytes at hm
    cases htext : CanonicalJson.canonicalJson m.toCanonicalJsonValue with
    | error e =>
      rw [htext] at hm
      exact nomatch hm
    | ok text =>
      rw [htext] at hm
      exact ⟨text, rfl, Except.ok.inj hm⟩
  obtain ⟨text, htext, hbytes⟩ := hwritten h
  obtain ⟨text', htext', hbytes'⟩ := hwritten h'
  obtain rfl := utf8_injective (hbytes.trans hbytes'.symm)
  exact ((same_text_iff _ _).mp ⟨text, htext, htext'⟩).2.2

/-! ## Alike values, member by member -/

theorem alike_member {members members' : List (Units × JsValue)} {v v' : JsValue}
    (h : Alike (.object members) (.object members')) (hkeyed : (members'.map (·.1)).Nodup)
    (name : String) (hv : (unitsOf name, v) ∈ members) (hv' : (unitsOf name, v') ∈ members') :
    Alike v v' := by
  rw [Alike, membersAlike_iff] at h
  obtain ⟨m, hm, hname, halike⟩ := h.2 _ hv
  have heq : m = (unitsOf name, v') := List.inj_on_of_nodup_map hkeyed hm hv' hname
  rw [heq] at halike
  exact halike

theorem string_member_eq {members members' : List (Units × JsValue)} {s s' : Units}
    (h : Alike (.object members) (.object members')) (hkeyed : (members'.map (·.1)).Nodup)
    (name : String) (hs : (unitsOf name, .string s) ∈ members)
    (hs' : (unitsOf name, .string s') ∈ members') : s = s' :=
  alike_member h hkeyed name hs hs'

theorem number_member_eq {members members' : List (Units × JsValue)} {x y : Number}
    (h : Alike (.object members) (.object members')) (hkeyed : (members'.map (·.1)).Nodup)
    (name : String) (hx : (unitsOf name, .number x) ∈ members)
    (hy : (unitsOf name, .number y) ∈ members') (hxzero : x ≠ .negativeZero)
    (hyzero : y ≠ .negativeZero) : x = y := by
  have hunsigned : x.unsigned = y.unsigned := alike_member h hkeyed name hx hy
  cases x <;> cases y <;>
    first | exact hunsigned | exact absurd rfl hxzero | exact absurd rfl hyzero

theorem eq_of_alike_toJsValue {d d' : SigningIntentManifestDocument}
    (h : Alike d.toJsValue d'.toJsValue)
    (hordinal : d.ordinal ≠ .negativeZero) (hordinal' : d'.ordinal ≠ .negativeZero)
    (hsize : d.byteSize ≠ .negativeZero) (hsize' : d'.byteSize ≠ .negativeZero) : d = d' := by
  have hkeyed := d'.keyed_toJsValue.1
  apply SigningIntentManifestDocument.ext
  · exact number_member_eq h hkeyed "ordinal" (by simp) (by simp) hordinal hordinal'
  · exact string_member_eq h hkeyed "documentVersionId" (by simp) (by simp)
  · exact string_member_eq h hkeyed "documentSha256" (by simp) (by simp)
  · exact string_member_eq h hkeyed "displayName" (by simp) (by simp)
  · exact string_member_eq h hkeyed "mimeType" (by simp) (by simp)
  · exact string_member_eq h hkeyed "profile" (by simp) (by simp)
  · exact number_member_eq h hkeyed "byteSize" (by simp) (by simp) hsize hsize'

theorem ne_negativeZero_of_pos {x : Number} {n : ℕ} (hn : 0 < n) (h : x.value? = some (n : ℚ)) :
    x ≠ .negativeZero := by
  rintro rfl
  have hzero : (0 : ℚ) = n := Option.some.inj h
  have hzero : 0 = n := by exact_mod_cast hzero
  omega

theorem ne_negativeZero_of_mem {documents : List SigningIntentManifestDocument}
    (h : IsManifestSet documents) : ∀ d ∈ documents.insertionSort ordinalLe,
      d.ordinal ≠ .negativeZero ∧ d.byteSize ≠ .negativeZero := by
  intro d hd
  have hd := (List.mem_insertionSort _).mp hd
  obtain ⟨n, hpos, _, hsize⟩ := h.sizes d hd
  have hordinal := h.ordinals.subset (List.mem_map_of_mem (f := (·.ordinal.value?)) hd)
  obtain ⟨i, _, hi⟩ := List.mem_map.mp hordinal
  exact ⟨ne_negativeZero_of_pos i.succ_pos hi.symm, ne_negativeZero_of_pos hpos hsize⟩

theorem eq_of_forall₂_alike {documents documents' : List SigningIntentManifestDocument}
    (h : List.Forall₂ (fun d d' => Alike d.toJsValue d'.toJsValue) documents documents')
    (hnumbers : ∀ d ∈ documents, d.ordinal ≠ .negativeZero ∧ d.byteSize ≠ .negativeZero)
    (hnumbers' : ∀ d ∈ documents', d.ordinal ≠ .negativeZero ∧ d.byteSize ≠ .negativeZero) :
    documents = documents' := by
  induction h with
  | nil => rfl
  | cons halike _ ih =>
    rw [List.forall_mem_cons] at hnumbers hnumbers'
    have hhead := eq_of_alike_toJsValue halike hnumbers.1.1 hnumbers'.1.1 hnumbers.1.2
      hnumbers'.1.2
    rw [hhead, ih hnumbers.2 hnumbers'.2]

theorem manifest_eq_of_alike {input input' : SigningIntentManifestInput}
    (hset : IsManifestSet input.documents) (hset' : IsManifestSet input'.documents)
    (h : Alike (manifestOf input).toJsValue (manifestOf input').toJsValue) :
    manifestOf input = manifestOf input' := by
  have hkeyed := (manifestOf input').keyed_toJsValue.1
  apply SigningIntentManifest.ext
  · rfl
  · exact string_member_eq h hkeyed "tenantId" (by simp) (by simp)
  · exact string_member_eq h hkeyed "signatureCaseId" (by simp) (by simp)
  · exact string_member_eq h hkeyed "signingIntentId" (by simp) (by simp)
  · exact string_member_eq h hkeyed "signerId" (by simp) (by simp)
  · have hitems : Alike (.array ((manifestOf input).documents.map (·.toJsValue)))
        (.array ((manifestOf input').documents.map (·.toJsValue))) :=
      alike_member h hkeyed "documents" (by simp) (by simp)
    rw [Alike, itemsAlike_iff, List.forall₂_map_left_iff, List.forall₂_map_right_iff] at hitems
    exact eq_of_forall₂_alike hitems (ne_negativeZero_of_mem hset) (ne_negativeZero_of_mem hset')

/-! ## Main result -/

/-- **A manifest is built exactly of the documents from one to the last, each with its digest and
its size, and none twice; its bytes are the same for every order in which they come; and manifests
of the same bytes bind the same ids and the same documents in the same order.** -/
theorem buildSigningIntentManifest_binds (input : SigningIntentManifestInput) :
    ((∃ manifest, buildSigningIntentManifest input = .ok manifest) ↔
      IsManifestSet input.documents) ∧
    (∀ manifest, buildSigningIntentManifest input = .ok manifest →
      ∃ bytes, signingIntentManifestBytes manifest = .ok bytes ∧
        ∀ documents : List SigningIntentManifestDocument, documents.Perm input.documents →
          ∃ manifest', buildSigningIntentManifest { input with documents := documents } =
              .ok manifest' ∧
            signingIntentManifestBytes manifest' = .ok bytes) ∧
    (∀ (input' : SigningIntentManifestInput) (manifest manifest' : SigningIntentManifest)
      (bytes : List UInt8), buildSigningIntentManifest input = .ok manifest →
      buildSigningIntentManifest input' = .ok manifest' →
      signingIntentManifestBytes manifest = .ok bytes →
      signingIntentManifestBytes manifest' = .ok bytes → manifest = manifest') := by
  refine ⟨?_, ?_, ?_⟩
  · constructor
    · rintro ⟨manifest, h⟩
      exact (buildSigningIntentManifest_eq_ok.mp h).1
    · intro h
      exact ⟨_, buildSigningIntentManifest_eq_ok.mpr ⟨h, rfl⟩⟩
  · intro manifest h
    obtain ⟨hset, rfl⟩ := buildSigningIntentManifest_eq_ok.mp h
    obtain ⟨bytes, hbytes⟩ := exists_bytes hset
    refine ⟨bytes, hbytes, fun documents hperm => ⟨manifestOf input, ?_, hbytes⟩⟩
    rw [buildSigningIntentManifest_eq_ok]
    refine ⟨hset.perm hperm, ?_⟩
    unfold manifestOf
    rw [sorted_eq_of_perm hset hperm]
  · intro input' manifest manifest' bytes h h' hbytes hbytes'
    obtain ⟨hset, rfl⟩ := buildSigningIntentManifest_eq_ok.mp h
    obtain ⟨hset', rfl⟩ := buildSigningIntentManifest_eq_ok.mp h'
    exact manifest_eq_of_alike hset hset' (alike_of_same_bytes hbytes hbytes')

end Kommunsign.SigningEngine
