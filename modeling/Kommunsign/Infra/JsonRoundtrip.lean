import Kommunsign.Infra.Json

/-!
# What is rendered reads back

`parse (render j) = some j` for every value. The reader is driven by fuel, so the induction over
the value carries a bound of the fuel by the length of the text: a nested call always follows a
character that has been read, and the calls that have read none cost one unit each.

* `parseString_escape` — a quoted string reads back
* `parseNumber_renderInt` — a number reads back when nothing continues it
* `parse_render` — the round trip
-/

namespace Infra.Json

/-! ## Strings -/

theorem hexValue_hexDigit : ∀ n : Nat, n < 16 → hexValue (hexDigit n) = some n
  | 0, _ | 1, _ | 2, _ | 3, _ | 4, _ | 5, _ | 6, _ | 7, _ | 8, _ | 9, _ | 10, _ | 11, _ | 12, _
  | 13, _ | 14, _ | 15, _ => by decide
  | _ + 16, h => absurd h (by omega)

theorem codeUnit_control {n : Nat} (h : n < 0x20) :
    codeUnit '0' '0' (hexDigit (n / 16)) (hexDigit (n % 16)) = some n := by
  have hzero : hexValue '0' = some 0 := by decide
  have hhi : hexValue (hexDigit (n / 16)) = some (n / 16) := hexValue_hexDigit _ (by omega)
  have hlo : hexValue (hexDigit (n % 16)) = some (n % 16) := hexValue_hexDigit _ (by omega)
  simp only [codeUnit, hzero, hhi, hlo, Option.bind_eq_bind, Option.bind_some, Option.some.injEq]
  omega

theorem parseString_quote (rest : Text) : parseString ('"' :: rest) = some ([], rest) := by
  rw [parseString.eq_def]
  simp

theorem parseString_simpleEscape {e c : Char} (hu : e ≠ 'u') (he : simpleEscape e = some c)
    (rest : Text) : parseString ('\\' :: e :: rest) = consChar c (parseString rest) := by
  rw [parseString.eq_def]
  simp only [show ('\\' = '"') = False from by decide, if_false, if_true, hu, he]

theorem parseString_control {c : Char} (hc : c.toNat < 0x20) (rest : Text) :
    parseString ('\\' :: 'u' :: '0' :: '0' :: hexDigit (c.toNat / 16) :: hexDigit (c.toNat % 16)
      :: rest) = consChar c (parseString rest) := by
  have hlt : c.toNat < 0xD800 := by omega
  rw [parseString.eq_def]
  simp only [show ('\\' = '"') = False from by decide, if_false, if_true, codeUnit_control hc, hlt,
    true_or, Char.ofNat_toNat]

theorem parseString_plain {c : Char} (hq : c ≠ '"') (hb : c ≠ '\\') (hc : ¬c.toNat < 0x20)
    (rest : Text) : parseString (c :: rest) = consChar c (parseString rest) := by
  rw [parseString.eq_def]
  simp only [hq, hb, hc, if_false]

/-- An escaped character is read as the character. -/
theorem parseString_escapeChar (c : Char) (rest : Text) :
    parseString (escapeChar c ++ rest) = consChar c (parseString rest) := by
  unfold escapeChar
  split
  · next h =>
    rw [h]
    exact parseString_simpleEscape (by decide) (by decide) rest
  next hq =>
  split
  · next h =>
    rw [h]
    exact parseString_simpleEscape (by decide) (by decide) rest
  next hb =>
  split
  · next h =>
    rw [h]
    exact parseString_simpleEscape (by decide) (by decide) rest
  split
  · next h =>
    rw [h]
    exact parseString_simpleEscape (by decide) (by decide) rest
  split
  · next h =>
    rw [h]
    exact parseString_simpleEscape (by decide) (by decide) rest
  split
  · next h =>
    rw [h]
    exact parseString_simpleEscape (by decide) (by decide) rest
  split
  · next h =>
    rw [h]
    exact parseString_simpleEscape (by decide) (by decide) rest
  split
  · next hc => exact parseString_control hc rest
  · next hc => exact parseString_plain hq hb hc rest

theorem parseString_escape (s rest : Text) :
    parseString (escape s ++ '"' :: rest) = some (s, rest) := by
  induction s with
  | nil => exact parseString_quote rest
  | cons c s ih =>
    rw [escape, List.flatMap_cons, List.append_assoc, parseString_escapeChar]
    rw [escape] at ih
    rw [ih, consChar]

/-! ## Numbers -/

/-- Nothing at the head of `rest` continues a number. -/
def Delimited (rest : Text) : Prop :=
  ∀ c, rest.head? = some c → c.isDigit = false ∧ c ≠ '.' ∧ c ≠ 'e' ∧ c ≠ 'E'

theorem delimited_nil : Delimited [] := by
  intro c h
  simp at h

theorem delimited_comma (rest : Text) : Delimited (',' :: rest) := by
  intro c h
  cases h
  decide

theorem delimited_bracket (rest : Text) : Delimited (']' :: rest) := by
  intro c h
  cases h
  decide

theorem delimited_brace (rest : Text) : Delimited ('}' :: rest) := by
  intro c h
  cases h
  decide

theorem span_digits {digits rest : Text} (hd : ∀ c ∈ digits, c.isDigit = true)
    (hr : Delimited rest) : (digits ++ rest).takeWhile Char.isDigit = digits ∧
      (digits ++ rest).dropWhile Char.isDigit = rest := by
  induction digits with
  | nil =>
    cases rest with
    | nil => exact ⟨rfl, rfl⟩
    | cons c rest =>
      have hc := (hr c rfl).1
      simp [hc]
  | cons d digits ih =>
    obtain ⟨ht, hdr⟩ := ih fun c hc => hd c (List.mem_cons_of_mem _ hc)
    have hdd := hd d List.mem_cons_self
    simp [hdd, ht, hdr]

theorem parseNat_toDigits (n : Nat) {rest : Text} (hr : Delimited rest) :
    parseNat (Nat.toDigits 10 n ++ rest) = some (n, rest) := by
  have hdigits : ∀ c ∈ Nat.toDigits 10 n, c.isDigit = true :=
    fun c hc => Nat.isDigit_of_mem_toDigits (by omega) (by omega) hc
  obtain ⟨ht, hd⟩ := span_digits hdigits hr
  have hrest : rest.head?.all (fun c => c ≠ '.' ∧ c ≠ 'e' ∧ c ≠ 'E') = true := by
    cases rest with
    | nil => rfl
    | cons c rest =>
      obtain ⟨-, h1, h2, h3⟩ := hr c rfl
      simp [h1, h2, h3]
  unfold parseNat
  simp only [ht, hd, Nat.ofDigitChars_ten_toDigits, true_and, hrest, if_true]

theorem toDigits_cons (n : Nat) :
    ∃ c tail, Nat.toDigits 10 n = c :: tail ∧ c.isDigit = true := by
  cases h : Nat.toDigits 10 n with
  | nil => exact absurd h Nat.toDigits_ne_nil
  | cons c tail =>
    exact ⟨c, tail, rfl, Nat.isDigit_of_mem_toDigits (by omega) (by omega)
      (show c ∈ Nat.toDigits 10 n from h ▸ List.mem_cons_self)⟩

theorem parseNumber_renderInt (i : Int) {rest : Text} (hr : Delimited rest) :
    parseNumber (renderInt i ++ rest) = some (.num i, rest) := by
  cases i with
  | ofNat n =>
    obtain ⟨c, tail, hc, hdigit⟩ := toDigits_cons n
    have hne : c ≠ '-' := by rintro rfl; simp [Char.isDigit] at hdigit
    have hp := parseNat_toDigits n hr
    rw [renderInt]
    rw [hc] at hp ⊢
    rw [List.cons_append] at hp ⊢
    rw [parseNumber]
    · rw [hp]
      rfl
    · intro s hs
      exact hne (by simpa using (List.cons.inj hs).1)
  | negSucc n =>
    rw [renderInt, List.cons_append, parseNumber, parseNat_toDigits _ hr]
    rfl

/-! ## The first character -/

theorem isDigit_range {c : Char} (h : c.isDigit = true) : 48 ≤ c.toNat ∧ c.toNat ≤ 57 := by
  simp only [Char.isDigit, Bool.and_eq_true, decide_eq_true_eq] at h
  exact ⟨h.1, h.2⟩

/-- What a rendered value begins with. -/
def BeginsValue (c : Char) : Prop :=
  isSpace c = false ∧ c ≠ ']' ∧ c ≠ '}'

theorem beginsValue_of_isDigit {c : Char} (h : c.isDigit = true) : BeginsValue c := by
  have hr := isDigit_range h
  refine ⟨?_, ?_, ?_⟩
  · by_contra hs
    simp only [isSpace, Bool.not_eq_false, Bool.or_eq_true, decide_eq_true_eq] at hs
    rcases hs with ((rfl | rfl) | rfl) | rfl <;> revert h <;> decide
  · rintro rfl
    revert h
    decide
  · rintro rfl
    revert h
    decide

theorem render_cons (j : Json) : ∃ c tail, render j = c :: tail ∧ BeginsValue c := by
  cases j with
  | null => exact ⟨'n', "ull".toList, by decide, by decide, by decide, by decide⟩
  | bool b =>
    cases b with
    | true => exact ⟨'t', "rue".toList, by decide, by decide, by decide, by decide⟩
    | false => exact ⟨'f', "alse".toList, by decide, by decide, by decide, by decide⟩
  | num n =>
    cases n with
    | ofNat n =>
      obtain ⟨c, tail, hc, hd⟩ := toDigits_cons n
      exact ⟨c, tail, by rw [render, renderInt, hc], beginsValue_of_isDigit hd⟩
    | negSucc n => exact ⟨'-', _, by rw [render, renderInt], by decide, by decide, by decide⟩
  | str s => exact ⟨'"', _, by rw [render, quote], by decide, by decide, by decide⟩
  | arr items => exact ⟨'[', _, by rw [render], by decide, by decide, by decide⟩
  | obj members => exact ⟨'{', _, by rw [render], by decide, by decide, by decide⟩

theorem skipSpace_cons {c : Char} (h : isSpace c = false) (s : Text) :
    skipSpace (c :: s) = c :: s := by
  simp [skipSpace, h]

/-! ## Scalars -/

theorem stripWord_of_ne {w c : Char} (h : w ≠ c) (word rest : Text) :
    stripWord (w :: word) (c :: rest) = none := by
  rw [stripWord, if_neg h]

theorem parseScalar_of_number {c : Char} {s : Text} (h : c ≠ 'n' ∧ c ≠ 't' ∧ c ≠ 'f') :
    parseScalar (c :: s) = parseNumber (c :: s) := by
  have hn : stripWord "null".toList (c :: s) = none := stripWord_of_ne h.1.symm _ _
  have ht : stripWord "true".toList (c :: s) = none := stripWord_of_ne h.2.1.symm _ _
  have hf : stripWord "false".toList (c :: s) = none := stripWord_of_ne h.2.2.symm _ _
  simp only [parseScalar, hn, ht, hf]

/-- What a number begins with. -/
theorem renderInt_cons (i : Int) : ∃ c tail, renderInt i = c :: tail ∧ BeginsValue c ∧
    (c ≠ '"' ∧ c ≠ '[' ∧ c ≠ '{') ∧ c ≠ 'n' ∧ c ≠ 't' ∧ c ≠ 'f' := by
  cases i with
  | ofNat n =>
    obtain ⟨c, tail, hc, hd⟩ := toDigits_cons n
    have hne : ∀ d : Char, d.isDigit = false → c ≠ d := by
      rintro d hf rfl
      rw [hd] at hf
      cases hf
    exact ⟨c, tail, hc, beginsValue_of_isDigit hd,
      ⟨hne _ (by decide), hne _ (by decide), hne _ (by decide)⟩,
      hne _ (by decide), hne _ (by decide), hne _ (by decide)⟩
  | negSucc n =>
    exact ⟨'-', _, rfl, ⟨by decide, by decide, by decide⟩, by decide, by decide⟩

/-! ## Values -/

/-- A value whose first character opens neither a string, an array nor an object. -/
theorem parseValue_scalar {fuel : Nat} {c : Char} {s : Text} (hs : isSpace c = false)
    (hc : c ≠ '"' ∧ c ≠ '[' ∧ c ≠ '{') :
    parseValue (fuel + 1) (c :: s) = parseScalar (c :: s) := by
  rw [parseValue, skipSpace_cons hs]
  simp only [hc.1, hc.2.1, hc.2.2, if_false]

theorem parseValue_number (i : Int) {fuel : Nat} {rest : Text} (hr : Delimited rest) :
    parseValue (fuel + 1) (renderInt i ++ rest) = some (.num i, rest) := by
  obtain ⟨c, tail, hc, hb, hopen, hword⟩ := renderInt_cons i
  have hn := parseNumber_renderInt i hr
  rw [hc, List.cons_append] at hn ⊢
  rw [parseValue_scalar hb.1 hopen, parseScalar_of_number hword, hn]

theorem renderItems_cons (item : Json) (items : List Json) :
    ∃ tail, renderItems (item :: items) = render item ++ tail := by
  cases items with
  | nil => exact ⟨[']'], by rw [renderItems]⟩
  | cons next items => exact ⟨_, by rw [renderItems]⟩

theorem renderMembers_cons (name : Text) (value : Json) (members : List (Text × Json)) :
    ∃ tail, renderMembers ((name, value) :: members) = '"' :: tail := by
  cases members with
  | nil => exact ⟨_, by rw [renderMembers, quote, List.cons_append]⟩
  | cons next members => exact ⟨_, by rw [renderMembers, quote, List.cons_append]⟩

mutual

/-- **A rendered value reads back, with whatever stands after it left over.** -/
theorem parseValue_render : ∀ (j : Json) (fuel : Nat) (rest : Text),
    2 * (render j ++ rest).length < fuel → Delimited rest →
      parseValue fuel (render j ++ rest) = some (j, rest)
  | j, 0, _, hf, _ => absurd hf (by omega)
  | .null, fuel + 1, rest, _, _ => by
    rw [render]
    show parseValue (fuel + 1) ('n' :: _) = _
    rw [parseValue_scalar (by decide) (by decide)]
    rfl
  | .bool true, fuel + 1, rest, _, _ => by
    rw [render]
    show parseValue (fuel + 1) ('t' :: _) = _
    rw [parseValue_scalar (by decide) (by decide)]
    rfl
  | .bool false, fuel + 1, rest, _, _ => by
    rw [render]
    show parseValue (fuel + 1) ('f' :: _) = _
    rw [parseValue_scalar (by decide) (by decide)]
    rfl
  | .num i, fuel + 1, rest, _, hr => by
    rw [render]
    exact parseValue_number i hr
  | .str s, fuel + 1, rest, _, _ => by
    rw [render, quote, List.cons_append, List.append_assoc, parseValue,
      skipSpace_cons (by decide)]
    simp only [if_true, List.cons_append, List.nil_append, parseString_escape, Option.map_some]
  | .arr [], fuel + 1, rest, _, _ => by
    rw [render, renderItems]
    rfl
  | .arr (item :: items), fuel + 1, rest, hf, hr => by
    rw [render, List.cons_append] at hf ⊢
    rw [List.length_cons] at hf
    have hi := parseItems_render item items fuel rest (by omega)
    obtain ⟨tail, htail⟩ := renderItems_cons item items
    obtain ⟨c, tail', hc, hb⟩ := render_cons item
    have hhead : (skipSpace (renderItems (item :: items) ++ rest)).head? ≠ some ']' := by
      rw [htail, hc, List.cons_append, List.cons_append, skipSpace_cons hb.1]
      simpa using hb.2.1
    rw [parseValue, skipSpace_cons (by decide)]
    simp only [show ('[' = '"') = False from by decide, if_false, if_true, hhead, hi,
      Option.map_some]
  | .obj [], fuel + 1, rest, _, _ => by
    rw [render, renderMembers]
    rfl
  | .obj ((name, value) :: members), fuel + 1, rest, hf, hr => by
    rw [render, List.cons_append] at hf ⊢
    rw [List.length_cons] at hf
    have hm := parseMembers_render name value members fuel rest (by omega)
    obtain ⟨tail, htail⟩ := renderMembers_cons name value members
    have hhead : (skipSpace (renderMembers ((name, value) :: members) ++ rest)).head? ≠
        some '}' := by
      rw [htail, List.cons_append, skipSpace_cons (by decide), List.head?_cons]
      decide
    rw [parseValue, skipSpace_cons (by decide)]
    simp only [show ('{' = '"') = False from by decide, show ('{' = '[') = False from by decide,
      if_false, if_true, hhead, hm, Option.map_some]

theorem parseItems_render : ∀ (item : Json) (items : List Json) (fuel : Nat) (rest : Text),
    2 * (renderItems (item :: items) ++ rest).length + 1 < fuel →
      parseItems fuel (renderItems (item :: items) ++ rest) = some (item :: items, rest)
  | _, _, 0, _, hf => absurd hf (by omega)
  | item, [], fuel + 1, rest, hf => by
    rw [renderItems, List.append_assoc, List.cons_append, List.nil_append] at hf ⊢
    rw [parseItems, parseValue_render item _ _ (by omega) (delimited_bracket _)]
    simp only [skipSpace_cons (show isSpace ']' = false from by decide)]
  | item, next :: items, fuel + 1, rest, hf => by
    rw [renderItems, List.append_assoc, List.cons_append] at hf ⊢
    have hv := parseValue_render item fuel _ (by omega)
      (delimited_comma (renderItems (next :: items) ++ rest))
    rw [List.length_append, List.length_cons] at hf
    have hi := parseItems_render next items fuel rest (by omega)
    rw [parseItems, hv]
    simp only [skipSpace_cons (show isSpace ',' = false from by decide), hi, Option.map_some]

theorem parseMembers_render : ∀ (name : Text) (value : Json) (members : List (Text × Json))
    (fuel : Nat) (rest : Text),
    2 * (renderMembers ((name, value) :: members) ++ rest).length + 1 < fuel →
      parseMembers fuel (renderMembers ((name, value) :: members) ++ rest) =
        some ((name, value) :: members, rest)
  | _, _, _, 0, _, hf => absurd hf (by omega)
  | name, value, [], fuel + 1, rest, hf => by
    rw [renderMembers, quote] at hf ⊢
    simp only [List.cons_append, List.append_assoc, List.nil_append] at hf ⊢
    simp only [List.length_cons, List.length_append] at hf
    have hv := parseValue_render value fuel ('}' :: rest)
      (by simp only [List.length_append, List.length_cons]; omega) (delimited_brace _)
    rw [parseMembers, skipSpace_cons (by decide)]
    simp only [parseString_escape, skipSpace_cons (show isSpace ':' = false from by decide), hv,
      skipSpace_cons (show isSpace '}' = false from by decide)]
  | name, value, (name', value') :: members, fuel + 1, rest, hf => by
    rw [renderMembers, quote] at hf ⊢
    simp only [List.cons_append, List.append_assoc, List.nil_append] at hf ⊢
    simp only [List.length_cons, List.length_append] at hf
    have hv := parseValue_render value fuel
      (',' :: (renderMembers ((name', value') :: members) ++ rest))
      (by simp only [List.length_append, List.length_cons]; omega) (delimited_comma _)
    have hm := parseMembers_render name' value' members fuel rest
      (by simp only [List.length_append]; omega)
    rw [parseMembers, skipSpace_cons (by decide)]
    simp only [parseString_escape, skipSpace_cons (show isSpace ':' = false from by decide), hv,
      skipSpace_cons (show isSpace ',' = false from by decide), hm, Option.map_some]

end

/-- **The round trip.** -/
theorem parse_render (j : Json) : parse (render j) = some j := by
  have h := parseValue_render j (2 * (render j).length + 1) [] (by simp)
    delimited_nil
  rw [List.append_nil] at h
  simp only [parse, h, skipSpace, List.dropWhile_nil, if_true]

/-- Equal texts come from equal values. -/
theorem render_injective {j j' : Json} (h : render j = render j') : j = j' := by
  have hp : some j = some j' := by rw [← parse_render j, ← parse_render j', h]
  exact Option.some.inj hp

/-- Values are equal exactly when their texts are. -/
instance : DecidableEq Json := fun j j' =>
  decidable_of_iff (render j = render j') ⟨render_injective, fun h => h ▸ rfl⟩

/-!
# What canonical JSON keeps

Sorting the members of an object loses their order and nothing else: two values with one canonical
text have the same members up to their order, all the way down.
-/

theorem canonicalItems_eq_map (items : List Json) : canonicalItems items = items.map canonical := by
  induction items with
  | nil => rfl
  | cons item items ih => rw [canonicalItems, ih, List.map_cons]

theorem canonicalMembers_eq_map (members : List (Text × Json)) :
    canonicalMembers members = members.map fun m => (m.1, canonical m.2) := by
  induction members with
  | nil => rfl
  | cons m members ih =>
    obtain ⟨name, value⟩ := m
    rw [canonicalMembers, ih, List.map_cons]

theorem eq_of_canonical_render_eq {j j' : Json}
    (h : (canonical j).render = (canonical j').render) : canonical j = canonical j' :=
  render_injective h

/-- The canonical members are the members, in some order. -/
theorem canonical_obj_perm {members members' : List (Text × Json)}
    (h : canonical (.obj members) = canonical (.obj members')) :
    (canonicalMembers members).Perm (canonicalMembers members') := by
  rw [canonical, canonical, Json.obj.injEq] at h
  have hsorted := List.perm_insertionSort nameLe (canonicalMembers members)
  rw [h] at hsorted
  exact hsorted.symm.trans (List.perm_insertionSort nameLe (canonicalMembers members'))

theorem exists_mem_of_canonical_eq {members members' : List (Text × Json)}
    (h : canonical (.obj members) = canonical (.obj members')) {m : Text × Json}
    (hm : m ∈ members) : ∃ m' ∈ members', m'.1 = m.1 ∧ canonical m'.2 = canonical m.2 := by
  have hcanonical : (m.1, canonical m.2) ∈ canonicalMembers members := by
    rw [canonicalMembers_eq_map]
    exact List.mem_map_of_mem hm
  have hmem := (canonical_obj_perm h).subset hcanonical
  rw [canonicalMembers_eq_map, List.mem_map] at hmem
  obtain ⟨m', hm', heq⟩ := hmem
  rw [Prod.mk.injEq] at heq
  exact ⟨m', hm', heq.1, heq.2⟩

/-- The same for objects with their names written as literals. -/
theorem exists_mem_of_canonical_object_eq {members members' : List (String × Json)}
    (h : canonical (object members) = canonical (object members')) {name : String} {value : Json}
    (hm : (name, value) ∈ members) :
    ∃ value', (name, value') ∈ members' ∧ canonical value' = canonical value := by
  obtain ⟨m, hm', hname, hvalue⟩ :=
    exists_mem_of_canonical_eq h (List.mem_map_of_mem (f := fun m => (m.1.toList, m.2)) hm)
  obtain ⟨⟨name', value'⟩, hmem, rfl⟩ := List.mem_map.mp hm'
  obtain rfl : name' = name := String.toList_injective hname
  exact ⟨value', hmem, hvalue⟩

theorem forall₂_of_canonical_eq {items items' : List Json}
    (h : canonical (.arr items) = canonical (.arr items')) :
    List.Forall₂ (fun item item' => canonical item = canonical item') items items' := by
  rw [canonical, canonical, Json.arr.injEq, canonicalItems_eq_map, canonicalItems_eq_map] at h
  rw [← List.forall₂_map_right_iff, ← List.forall₂_map_left_iff, List.forall₂_eq_eq_eq]
  exact h

end Infra.Json
