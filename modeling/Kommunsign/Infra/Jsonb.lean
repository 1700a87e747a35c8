import Mathlib.Data.Bool.AllAny
import Kommunsign.Infra.JsonStored

/-!
# `jsonb` values and their text

A `jsonb` value has its members in stored order. Its text has a space after each comma and after
each colon, and none of them inside a string, so that without those spaces it is the text that
`render` writes.

* `Jsonb` — a value in stored order
* `spaced` — its text
* `compact` — a text without its spaces, the strings in it aside
* `spaced_injective` — equal texts come from equal values
* `Jsonb.build_inj` — what an object was built from is read off it
-/

namespace Infra

namespace Json

/-! ## The text -/

mutual

/-- `value::text` -/
def spaced : Json → Text
  | .null => "null".toList
  | .bool true => "true".toList
  | .bool false => "false".toList
  | .num n => renderInt n
  | .str s => quote s
  | .arr items => '[' :: spacedItems items
  | .obj members => '{' :: spacedMembers members

def spacedItems : List Json → Text
  | [] => [']']
  | [item] => spaced item ++ [']']
  | item :: next :: items => spaced item ++ ',' :: ' ' :: spacedItems (next :: items)

def spacedMembers : List (Text × Json) → Text
  | [] => ['}']
  | [(name, value)] => quote name ++ ':' :: ' ' :: (spaced value ++ ['}'])
  | (name, value) :: next :: members =>
    quote name ++ ':' :: ' ' :: (spaced value ++ ',' :: ' ' :: spacedMembers (next :: members))

end

/-- Where a reader of the text is. -/
inductive Place where
  | outside | inString | escaped

/-- The text without the spaces that stand outside of its strings. -/
def compact : Place → Text → Text
  | _, [] => []
  | .outside, c :: s =>
    if c = ' ' then compact .outside s
    else if c = '"' then c :: compact .inString s
    else c :: compact .outside s
  | .inString, c :: s =>
    if c = '"' then c :: compact .outside s
    else if c = '\\' then c :: compact .escaped s
    else c :: compact .inString s
  | .escaped, c :: s => c :: compact .inString s

/-! ## Strings are kept -/

theorem hexDigit_plain : ∀ n : Nat, n < 16 → hexDigit n ≠ '"' ∧ hexDigit n ≠ '\\'
  | 0, _ | 1, _ | 2, _ | 3, _ | 4, _ | 5, _ | 6, _ | 7, _ | 8, _ | 9, _ | 10, _ | 11, _ | 12, _
  | 13, _ | 14, _ | 15, _ => by decide
  | _ + 16, h => absurd h (by omega)

theorem compact_inString {c : Char} (h : c ≠ '"' ∧ c ≠ '\\') (s : Text) :
    compact .inString (c :: s) = c :: compact .inString s := by
  rw [compact, if_neg h.1, if_neg h.2]

theorem compact_escapeChar (c : Char) (s : Text) :
    compact .inString (escapeChar c ++ s) = escapeChar c ++ compact .inString s := by
  -- a backslash and the letter after it
  have hpair : ∀ e : Char, compact .inString ('\\' :: e :: s) = '\\' :: e :: compact .inString s := by
    intro e
    rw [compact, if_neg (by decide), if_pos rfl, compact]
  unfold escapeChar
  split
  · exact hpair _
  · split
    · exact hpair _
    · split
      · exact hpair _
      · split
        · exact hpair _
        · split
          · exact hpair _
          · split
            · exact hpair _
            · split
              · exact hpair _
              · split
                · rename_i hcontrol
                  have hhigh := hexDigit_plain (c.toNat / 16) (by omega)
                  have hlow := hexDigit_plain (c.toNat % 16) (by omega)
                  simp only [List.cons_append, List.nil_append]
                  rw [compact, if_neg (by decide), if_pos rfl, compact,
                    compact_inString (by decide), compact_inString (by decide),
                    compact_inString hhigh, compact_inString hlow]
                · rename_i hquote hslash _ _ _ _ _ _
                  exact compact_inString ⟨hquote, hslash⟩ s

theorem compact_quote (s rest : Text) :
    compact .outside (quote s ++ rest) = quote s ++ compact .outside rest := by
  have hinside : ∀ s : Text, compact .inString (escape s ++ '"' :: rest) =
      escape s ++ '"' :: compact .outside rest := by
    intro s
    induction s with
    | nil =>
      show compact .inString ('"' :: rest) = _
      rw [compact, if_pos rfl]
      rfl
    | cons c s ih =>
      unfold escape at ih ⊢
      rw [List.flatMap_cons, List.append_assoc, compact_escapeChar, ih, List.append_assoc]
  unfold quote
  rw [List.cons_append, List.append_assoc, List.cons_append, List.nil_append, compact,
    if_neg (by decide), if_pos rfl, hinside, List.cons_append, List.append_assoc, List.cons_append,
    List.nil_append]

/-! ## What is not a string -/

/-- Neither a space nor the beginning of a string. -/
def IsPlain (c : Char) : Prop := c ≠ ' ' ∧ c ≠ '"'

instance : DecidablePred IsPlain := fun _ => inferInstanceAs (Decidable (_ ∧ _))

theorem compact_cons {c : Char} (h : IsPlain c) (s : Text) :
    compact .outside (c :: s) = c :: compact .outside s := by
  rw [compact, if_neg h.1, if_neg h.2]

theorem compact_plain {word : Text} (h : ∀ c ∈ word, IsPlain c) (rest : Text) :
    compact .outside (word ++ rest) = word ++ compact .outside rest := by
  induction word with
  | nil => rfl
  | cons c word ih =>
    rw [List.cons_append, compact_cons (h c List.mem_cons_self),
      ih fun d hd => h d (List.mem_cons_of_mem c hd), List.cons_append]

theorem isPlain_of_isDigit {c : Char} (h : c.isDigit = true) : IsPlain c := by
  have hrange := isDigit_range h
  constructor
  · rintro rfl
    exact absurd hrange (by decide)
  · rintro rfl
    exact absurd hrange (by decide)

theorem isPlain_renderInt (n : Int) : ∀ c ∈ renderInt n, IsPlain c := by
  have hdigits : ∀ k : Nat, ∀ c ∈ Nat.toDigits 10 k, IsPlain c := fun k c hc =>
    isPlain_of_isDigit (Nat.isDigit_of_mem_toDigits (by omega) (by omega) hc)
  intro c hc
  cases n with
  | ofNat k => exact hdigits k c hc
  | negSucc k =>
    rcases List.mem_cons.mp hc with rfl | hc
    · exact ⟨by decide, by decide⟩
    · exact hdigits _ c hc

theorem compact_space (s : Text) : compact .outside (' ' :: s) = compact .outside s := by
  rw [compact, if_pos rfl]

/-! ## Values -/

mutual

theorem compact_spaced : ∀ (j : Json) (rest : Text),
    compact .outside (spaced j ++ rest) = render j ++ compact .outside rest
  | .null, rest => compact_plain (List.all_iff_forall_prop.mp (by decide)) rest
  | .bool true, rest => compact_plain (List.all_iff_forall_prop.mp (by decide)) rest
  | .bool false, rest => compact_plain (List.all_iff_forall_prop.mp (by decide)) rest
  | .num n, rest => by
    rw [spaced, render, compact_plain (isPlain_renderInt n)]
  | .str s, rest => by
    rw [spaced, render, compact_quote]
  | .arr items, rest => by
    rw [spaced, render, List.cons_append, compact_cons (by decide), compact_spacedItems items]
    rfl
  | .obj members, rest => by
    rw [spaced, render, List.cons_append, compact_cons (by decide), compact_spacedMembers members]
    rfl

theorem compact_spacedItems : ∀ (items : List Json) (rest : Text),
    compact .outside (spacedItems items ++ rest) = renderItems items ++ compact .outside rest
  | [], rest => compact_cons (by decide) rest
  | [item], rest => by
    rw [spacedItems, renderItems, List.append_assoc, List.append_assoc, compact_spaced item,
      List.cons_append, compact_cons (by decide)]
    rfl
  | item :: next :: items, rest => by
    rw [spacedItems, renderItems, List.append_assoc, List.append_assoc, compact_spaced item,
      List.cons_append, compact_cons (by decide), List.cons_append, compact_space,
      compact_spacedItems (next :: items)]
    rfl

theorem compact_spacedMembers : ∀ (members : List (Text × Json)) (rest : Text),
    compact .outside (spacedMembers members ++ rest) =
      renderMembers members ++ compact .outside rest
  | [], rest => compact_cons (by decide) rest
  | [(name, value)], rest => by
    rw [spacedMembers, renderMembers, List.append_assoc, List.append_assoc, compact_quote,
      List.cons_append, compact_cons (by decide), List.cons_append, compact_space,
      List.append_assoc, compact_spaced value, List.cons_append, compact_cons (by decide)]
    simp only [List.nil_append, List.cons_append, List.append_assoc]
  | (name, value) :: next :: members, rest => by
    rw [spacedMembers, renderMembers, List.append_assoc, List.append_assoc, compact_quote,
      List.cons_append, compact_cons (by decide), List.cons_append, compact_space,
      List.append_assoc, compact_spaced value, List.cons_append, compact_cons (by decide),
      List.cons_append, compact_space, compact_spacedMembers (next :: members)]
    simp only [List.cons_append, List.append_assoc]

end

theorem spaced_injective : Function.Injective spaced := by
  intro j j' h
  have hcompact : ∀ k : Json, compact .outside (spaced k) = render k := by
    intro k
    have hk := compact_spaced k []
    rwa [List.append_nil, compact, List.append_nil] at hk
  refine render_injective ?_
  rw [← hcompact, h, hcompact]

end Json

/-! ## Values in stored order -/

structure Jsonb where
  json : Json
  isStored : json.stored = json
  wellNamed : json.WellNamed

theorem Jsonb.ext_json {a b : Jsonb} (h : a.json = b.json) : a = b := by
  cases a
  cases b
  cases h
  rfl

/-- Two orders of elements with the same keys in the same places are the same. -/
theorem eq_of_perm_of_keys {α κ : Type} {key : α → κ} : ∀ {l l' : List α}, (l.map key).Nodup →
    l.map key = l'.map key → l.Perm l' → l = l'
  | [], [], _, _, _ => rfl
  | a :: l, [], _, hkeys, _ => nomatch hkeys
  | [], b :: l', _, hkeys, _ => nomatch hkeys
  | a :: l, b :: l', hnodup, hkeys, hperm => by
    obtain ⟨hkey, hrest⟩ := List.cons.inj hkeys
    have hmem : b ∈ a :: l := hperm.mem_iff.mpr List.mem_cons_self
    have hab : a = b := List.inj_on_of_nodup_map hnodup List.mem_cons_self hmem hkey
    subst hab
    rw [eq_of_perm_of_keys (List.nodup_cons.mp hnodup).2 hrest hperm.cons_inv]

/-- A member of an object that is stored. -/
def Json.storedMember (m : String × Json) : Text × Json := (m.1.toList, m.2.stored)

theorem Json.stored_object (members : List (String × Json)) : (Json.object members).stored =
    .obj ((members.map Json.storedMember).insertionSort Json.storedLe) := by
  unfold Json.object
  rw [Json.stored, Json.storedMembers_eq_map, List.map_map]
  rfl

/-- `jsonb_build_object`: objects of the same names are equal when their values are. -/
theorem Jsonb.build_inj {members members' : List (String × Json)}
    (hnames : (members.map (·.1)).Nodup) (hsame : members.map (·.1) = members'.map (·.1))
    (h : (Json.object members).stored = (Json.object members').stored) :
    members.map (fun m => m.2.stored) = members'.map fun m => m.2.stored := by
  rw [Json.stored_object, Json.stored_object, Json.obj.injEq] at h
  have hfirst : ∀ ms : List (String × Json), (ms.map Json.storedMember).map (·.1) =
      (ms.map (·.1)).map String.toList := by
    intro ms
    rw [List.map_map, List.map_map]
    rfl
  have hsorted := List.perm_insertionSort Json.storedLe (members'.map Json.storedMember)
  rw [← h] at hsorted
  have heq : members.map Json.storedMember = members'.map Json.storedMember := by
    refine @eq_of_perm_of_keys _ _ (·.1) _ _ ?_ ?_
      ((List.perm_insertionSort Json.storedLe _).symm.trans hsorted)
    · rw [hfirst]
      exact hnames.map fun _ _ => String.toList_injective
    · rw [hfirst, hfirst, hsame]
  simpa [List.map_map, Function.comp_def, Json.storedMember] using congrArg (List.map (·.2)) heq

end Infra
