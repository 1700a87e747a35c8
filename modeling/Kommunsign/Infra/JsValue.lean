import Kommunsign.Infra.JsString
import Kommunsign.Infra.NumberText

/-!
# Values of JavaScript that are data, and `JSON.parse`

Objects are their own members in the order of their creation. Numbers are binary64, strings are
code units.

* `JsValue.Keyed` — no object has two members of one name
* `readJson` — `JSON.parse`
-/

namespace Infra

open Json

inductive JsValue where
  | undefined
  | null
  | bool (b : Bool)
  | number (x : Number)
  | string (s : Units)
  | array (items : List JsValue)
  | object (members : List (Units × JsValue))

namespace JsValue

mutual

/-- No object inside has two members of one name. -/
def Keyed : JsValue → Prop
  | .array items => ItemsKeyed items
  | .object members => (members.map (·.1)).Nodup ∧ MembersKeyed members
  | .undefined => True
  | .null => True
  | .bool _ => True
  | .number _ => True
  | .string _ => True

def ItemsKeyed : List JsValue → Prop
  | [] => True
  | item :: items => item.Keyed ∧ ItemsKeyed items

def MembersKeyed : List (Units × JsValue) → Prop
  | [] => True
  | (_, value) :: members => value.Keyed ∧ MembersKeyed members

end

theorem itemsKeyed_iff {items : List JsValue} : ItemsKeyed items ↔ ∀ v ∈ items, v.Keyed := by
  induction items with
  | nil => simp [ItemsKeyed]
  | cons item items ih => rw [ItemsKeyed, ih, List.forall_mem_cons]

theorem membersKeyed_iff {members : List (Units × JsValue)} :
    MembersKeyed members ↔ ∀ m ∈ members, m.2.Keyed := by
  induction members with
  | nil => simp [MembersKeyed]
  | cons m members ih => rw [MembersKeyed, ih, List.forall_mem_cons]

/-- What holds of a value when it holds of the values inside it holds of every value. -/
theorem induction_on {P : JsValue → Prop} (undefined : P .undefined) (null : P .null)
    (bool : ∀ b, P (.bool b)) (number : ∀ x, P (.number x)) (string : ∀ s, P (.string s))
    (array : ∀ items, (∀ v ∈ items, P v) → P (.array items))
    (object : ∀ members : List (Units × JsValue), (∀ m ∈ members, P m.2) → P (.object members))
    (v : JsValue) : P v :=
  JsValue.rec (motive_1 := P) (motive_2 := fun items => ∀ v ∈ items, P v)
    (motive_3 := fun members => ∀ m ∈ members, P m.2) (motive_4 := fun m => P m.2)
    undefined null bool number string array object
    (fun _ h => nomatch h) (fun _ _ hitem hitems => List.forall_mem_cons.mpr ⟨hitem, hitems⟩)
    (fun _ h => nomatch h) (fun _ _ hm hmembers => List.forall_mem_cons.mpr ⟨hm, hmembers⟩)
    (fun _ _ hvalue => hvalue) v

end JsValue

/-! ## Reading -/

/-- `object[name] = value`: a property keeps its place. -/
def setMember (members : List (Units × JsValue)) (m : Units × JsValue) : List (Units × JsValue) :=
  if members.any fun old => old.1 == m.1 then
    members.map fun old => if old.1 == m.1 then m else old
  else members ++ [m]

/-- The object of the members that a text lists. A repeated name has its last value. -/
def collectMembers (members : List (Units × JsValue)) : List (Units × JsValue) :=
  members.foldl setMember []

def readScalar (s : Text) : Option (JsValue × Text) :=
  match stripWord "null".toList s with
  | some rest => some (.null, rest)
  | none =>
    match stripWord "true".toList s with
    | some rest => some (.bool true, rest)
    | none =>
      match stripWord "false".toList s with
      | some rest => some (.bool false, rest)
      | none => (readNumber s).map fun r => (.number r.1, r.2)

mutual

/-- A value, and the text after it. The fuel bounds the number of calls. -/
def readValue : ℕ → Text → Option (JsValue × Text)
  | 0, _ => none
  | fuel + 1, s =>
    match skipSpace s with
    | [] => none
    | c :: rest =>
      if c = '"' then (readString rest).map fun r => (.string r.1, r.2)
      else if c = '[' then
        if (skipSpace rest).head? = some ']' then some (.array [], (skipSpace rest).tail)
        else (readItems fuel rest).map fun r => (.array r.1, r.2)
      else if c = '{' then
        if (skipSpace rest).head? = some '}' then some (.object [], (skipSpace rest).tail)
        else (readMembers fuel rest).map fun r => (.object (collectMembers r.1), r.2)
      else readScalar (c :: rest)

/-- The items of a nonempty array, through the bracket that ends it. -/
def readItems : ℕ → Text → Option (List JsValue × Text)
  | 0, _ => none
  | fuel + 1, s =>
    match readValue fuel s with
    | none => none
    | some (item, rest) =>
      match skipSpace rest with
      | ',' :: rest => (readItems fuel rest).map fun r => (item :: r.1, r.2)
      | ']' :: rest => some ([item], rest)
      | _ => none

/-- The members of a nonempty object, through the brace that ends it. -/
def readMembers : ℕ → Text → Option (List (Units × JsValue) × Text)
  | 0, _ => none
  | fuel + 1, s =>
    match skipSpace s with
    | '"' :: rest =>
      match readString rest with
      | none => none
      | some (name, rest) =>
        match skipSpace rest with
        | ':' :: rest =>
          match readValue fuel rest with
          | none => none
          | some (value, rest) =>
            match skipSpace rest with
            | ',' :: rest => (readMembers fuel rest).map fun r => ((name, value) :: r.1, r.2)
            | '}' :: rest => some ([(name, value)], rest)
            | _ => none
        | _ => none
    | _ => none

end

/-- `JSON.parse`: one value and nothing but space after it. -/
def readJson (s : Text) : Option JsValue :=
  match readValue (2 * s.length + 1) s with
  | some (v, rest) => if skipSpace rest = [] then some v else none
  | none => none

/-! ## Texts that are read as a value -/

/-- Whatever stands after `text`, it is read as `value`. -/
structure Reads (text : Text) (value : JsValue) : Prop where
  cons : ∃ c tail, text = c :: tail ∧ BeginsValue c
  read : ∀ fuel rest, 2 * (text ++ rest).length < fuel → Delimited rest →
    readValue fuel (text ++ rest) = some (value, rest)

theorem readJson_of_reads {text : Text} {value : JsValue} (h : Reads text value) :
    readJson text = some value := by
  have hread := h.read (2 * text.length + 1) [] (by simp) delimited_nil
  rw [List.append_nil] at hread
  simp only [readJson, hread, skipSpace, List.dropWhile_nil, if_true]

/-- A value whose first character opens neither a string, an array nor an object. -/
theorem readValue_scalar {fuel : ℕ} {c : Char} {s : Text} (hs : isSpace c = false)
    (hc : c ≠ '"' ∧ c ≠ '[' ∧ c ≠ '{') :
    readValue (fuel + 1) (c :: s) = readScalar (c :: s) := by
  rw [readValue, skipSpace_cons hs]
  simp only [hc.1, hc.2.1, hc.2.2, if_false]

/-- A scalar is read in one call. -/
theorem reads_of_readScalar {c : Char} {tail : Text} {value : JsValue} (hb : BeginsValue c)
    (hc : c ≠ '"' ∧ c ≠ '[' ∧ c ≠ '{')
    (hread : ∀ rest, Delimited rest → readScalar (c :: (tail ++ rest)) = some (value, rest)) :
    Reads (c :: tail) value := by
  refine ⟨⟨c, tail, rfl, hb⟩, fun fuel rest hfuel hrest => ?_⟩
  cases fuel with
  | zero => exact absurd hfuel (by omega)
  | succ fuel =>
    rw [List.cons_append, readValue_scalar hb.1 hc]
    exact hread rest hrest

theorem reads_null : Reads "null".toList .null :=
  reads_of_readScalar ⟨by decide, by decide, by decide⟩ (by decide) fun _ _ => rfl

theorem reads_bool (b : Bool) : Reads (if b then "true".toList else "false".toList) (.bool b) := by
  cases b with
  | true => exact reads_of_readScalar ⟨by decide, by decide, by decide⟩ (by decide) fun _ _ => rfl
  | false => exact reads_of_readScalar ⟨by decide, by decide, by decide⟩ (by decide) fun _ _ => rfl

theorem reads_string (s : Units) : Reads (quoteUnits s) (.string s) := by
  refine ⟨⟨'"', _, rfl, by decide, by decide, by decide⟩, fun fuel rest hfuel _ => ?_⟩
  cases fuel with
  | zero => exact absurd hfuel (by omega)
  | succ fuel =>
    rw [quoteUnits, List.cons_append, List.append_assoc, readValue, skipSpace_cons (by decide)]
    simp only [if_true, List.cons_append, List.nil_append, readString_escapeUnits, Option.map_some]

theorem reads_number {x : Number} (hx : x.isFinite = true) :
    Reads (numberText x) (.number x.unsigned) := by
  obtain ⟨c, tail, hcons, hc⟩ := numberText_cons hx
  have hne : ∀ d : Char, d.isDigit = false → d ≠ '-' → c ≠ d := by
    rintro d hdigit hminus rfl
    rcases hc with h | h
    · rw [hdigit] at h
      exact nomatch h
    · exact hminus h
  have hb : BeginsValue c := by
    rcases hc with h | rfl
    · exact beginsValue_of_isDigit h
    · exact ⟨by decide, by decide, by decide⟩
  rw [hcons]
  refine reads_of_readScalar hb ⟨hne _ (by decide) (by decide), hne _ (by decide) (by decide),
    hne _ (by decide) (by decide)⟩ fun rest hrest => ?_
  have hread := readNumber_numberText hx hrest
  rw [hcons, List.cons_append] at hread
  -- no literal name begins with a digit or a sign
  have hn : stripWord "null".toList (c :: (tail ++ rest)) = none :=
    stripWord_of_ne (hne 'n' (by decide) (by decide)).symm _ _
  have ht : stripWord "true".toList (c :: (tail ++ rest)) = none :=
    stripWord_of_ne (hne 't' (by decide) (by decide)).symm _ _
  have hf : stripWord "false".toList (c :: (tail ++ rest)) = none :=
    stripWord_of_ne (hne 'f' (by decide) (by decide)).symm _ _
  simp only [readScalar, hn, ht, hf, hread, Option.map_some]

/-! ## Arrays and objects -/

/-- Texts one after another with a comma between two. -/
def joinComma (texts : List Text) : Text := [','].intercalate texts

theorem joinComma_cons_cons (text next : Text) (texts : List Text) :
    joinComma (text :: next :: texts) = text ++ ',' :: joinComma (next :: texts) := by
  rw [joinComma, List.intercalate_cons_cons, List.append_assoc]
  rfl

theorem joinComma_singleton (text : Text) : joinComma [text] = text :=
  List.intercalate_singleton

theorem joinComma_cons (text : Text) (texts : List Text) :
    ∃ tail, joinComma (text :: texts) = text ++ tail := by
  cases texts with
  | nil => exact ⟨[], by rw [joinComma_singleton, List.append_nil]⟩
  | cons next texts => exact ⟨_, joinComma_cons_cons text next texts⟩

/-- Items that are read one by one are read as the items of an array. -/
theorem readItems_joinComma (item : Text × JsValue) (items : List (Text × JsValue)) (rest : Text)
    (h : ∀ p ∈ item :: items, Reads p.1 p.2) (fuel : ℕ)
    (hfuel : 2 * (joinComma ((item :: items).map (·.1)) ++ ']' :: rest).length + 1 < fuel) :
    readItems fuel (joinComma ((item :: items).map (·.1)) ++ ']' :: rest) =
      some ((item :: items).map (·.2), rest) := by
  induction items generalizing item fuel with
  | nil =>
    have hitem := h item List.mem_cons_self
    simp only [List.map_cons, List.map_nil, joinComma_singleton] at hfuel ⊢
    obtain ⟨fuel, rfl⟩ : ∃ n, fuel = n + 1 := ⟨fuel - 1, by omega⟩
    rw [readItems, hitem.read fuel _ (by omega) (delimited_bracket rest)]
    simp only [skipSpace_cons (show isSpace ']' = false from by decide)]
  | cons next items ih =>
    have hitem := h item List.mem_cons_self
    simp only [List.map_cons, joinComma_cons_cons, List.append_assoc, List.cons_append]
      at hfuel ⊢
    obtain ⟨fuel, rfl⟩ : ∃ n, fuel = n + 1 := ⟨fuel - 1, by omega⟩
    have hread := hitem.read fuel (',' :: (joinComma (next.1 :: items.map (·.1)) ++ ']' :: rest))
      (by omega) (delimited_comma _)
    have hrest := ih next (fun p hp => h p (List.mem_cons_of_mem _ hp)) fuel (by
      simp only [List.length_append, List.length_cons, List.map_cons] at hfuel ⊢
      omega)
    rw [List.map_cons] at hrest
    rw [readItems, hread]
    simp only [skipSpace_cons (show isSpace ',' = false from by decide), hrest, Option.map_some,
      List.map_cons]

theorem reads_array {items : List (Text × JsValue)} (h : ∀ p ∈ items, Reads p.1 p.2) :
    Reads ('[' :: (joinComma (items.map (·.1)) ++ [']'])) (.array (items.map (·.2))) := by
  refine ⟨⟨'[', _, rfl, by decide, by decide, by decide⟩, fun fuel rest hfuel _ => ?_⟩
  obtain ⟨fuel, rfl⟩ : ∃ n, fuel = n + 1 := ⟨fuel - 1, by omega⟩
  rw [List.cons_append, List.append_assoc, List.cons_append, List.nil_append] at hfuel ⊢
  rw [readValue, skipSpace_cons (by decide)]
  simp only [show ('[' = '"') = False from by decide, if_false, if_true]
  cases items with
  | nil =>
    have hskip := skipSpace_cons (show isSpace ']' = false from by decide) rest
    simp only [List.map_nil, joinComma, List.intercalate_nil, List.nil_append, hskip,
      List.head?_cons, if_true, List.tail_cons]
  | cons item items =>
    -- what follows the bracket begins an item, so the array is not empty
    have hhead : (skipSpace (joinComma ((item :: items).map (·.1)) ++ ']' :: rest)).head? ≠
        some ']' := by
      obtain ⟨c, tail, hcons, hb⟩ := (h item List.mem_cons_self).cons
      obtain ⟨tail', htail⟩ := joinComma_cons item.1 (items.map (·.1))
      rw [List.map_cons, htail, hcons, List.cons_append, List.cons_append, skipSpace_cons hb.1]
      simpa using hb.2.1
    have hread := readItems_joinComma item items rest h fuel (by
      rw [List.length_cons] at hfuel
      omega)
    simp only [hhead, if_false, hread, Option.map_some]

/-- A member of an object, with the text of its value. -/
structure Entry where
  name : Units
  text : Text
  value : JsValue

def Entry.member (e : Entry) : Units × JsValue := (e.name, e.value)

def memberText (name : Units) (text : Text) : Text := quoteUnits name ++ ':' :: text

/-- The text of a member. -/
def Entry.written (e : Entry) : Text := memberText e.name e.text

theorem memberText_append (name : Units) (text rest : Text) :
    memberText name text ++ rest = '"' :: (escapeUnits name ++ '"' :: ':' :: (text ++ rest)) := by
  simp only [memberText, quoteUnits, List.cons_append, List.append_assoc, List.nil_append]

/-- Members whose values are read are read as the members of an object. -/
theorem readMembers_joinComma (entry : Entry) (entries : List Entry) (rest : Text)
    (h : ∀ e ∈ entry :: entries, Reads e.text e.value) (fuel : ℕ)
    (hfuel : 2 * (joinComma ((entry :: entries).map Entry.written) ++ '}' :: rest).length + 1 <
      fuel) :
    readMembers fuel (joinComma ((entry :: entries).map Entry.written) ++ '}' :: rest) =
      some ((entry :: entries).map Entry.member, rest) := by
  induction entries generalizing entry fuel with
  | nil =>
    have hentry := h entry List.mem_cons_self
    simp only [List.map_cons, List.map_nil, joinComma_singleton, Entry.written,
      memberText_append] at hfuel ⊢
    obtain ⟨fuel, rfl⟩ : ∃ n, fuel = n + 1 := ⟨fuel - 1, by omega⟩
    have hread := hentry.read fuel ('}' :: rest) (by
      simp only [List.length_append, List.length_cons] at hfuel ⊢
      omega) (delimited_brace rest)
    rw [readMembers, skipSpace_cons (by decide)]
    simp only [readString_escapeUnits, skipSpace_cons (show isSpace ':' = false from by decide),
      hread, skipSpace_cons (show isSpace '}' = false from by decide), Entry.member]
  | cons next entries ih =>
    have hentry := h entry List.mem_cons_self
    have hrest := ih next (fun e he => h e (List.mem_cons_of_mem _ he))
    simp only [List.map_cons, joinComma_cons_cons, List.append_assoc, List.cons_append]
      at hfuel hrest ⊢
    rw [Entry.written, memberText_append] at hfuel ⊢
    simp only [List.length_append, List.length_cons] at hfuel hrest
    obtain ⟨fuel, rfl⟩ : ∃ n, fuel = n + 1 := ⟨fuel - 1, by omega⟩
    have hread := hentry.read fuel _ (by
      simp only [List.length_append, List.length_cons]
      omega) (delimited_comma
        (joinComma (next.written :: entries.map Entry.written) ++ '}' :: rest))
    rw [readMembers, skipSpace_cons (by decide)]
    simp only [readString_escapeUnits, skipSpace_cons (show isSpace ':' = false from by decide),
      hread, skipSpace_cons (show isSpace ',' = false from by decide), hrest fuel (by omega),
      Option.map_some, Entry.member]

/-- Members of distinct names are the object. -/
theorem collectMembers_of_nodup {members : List (Units × JsValue)}
    (h : (members.map (·.1)).Nodup) : collectMembers members = members := by
  -- what has been collected shares no name with what is to come
  suffices hfold : ∀ (later done : List (Units × JsValue)), ((done ++ later).map (·.1)).Nodup →
      later.foldl setMember done = done ++ later from hfold members [] h
  intro later
  induction later with
  | nil => exact fun done _ => (List.append_nil done).symm
  | cons m later ih =>
    intro done hnodup
    have hnew : (done.any fun old => old.1 == m.1) = false := by
      rw [List.any_eq_false]
      intro old hold heq
      rw [List.map_append, List.nodup_append'] at hnodup
      refine hnodup.2.2 (List.mem_map_of_mem hold) ?_
      rw [eq_of_beq heq]
      exact List.mem_cons_self
    have hset : setMember done m = done ++ [m] := by
      rw [setMember, if_neg (by rw [hnew]; decide)]
    rw [List.foldl_cons, hset, ih]
    · rw [List.append_assoc, List.singleton_append]
    · rwa [List.append_assoc, List.singleton_append]

theorem reads_object {entries : List Entry} (h : ∀ e ∈ entries, Reads e.text e.value)
    (hnames : (entries.map (·.name)).Nodup) :
    Reads ('{' :: (joinComma (entries.map Entry.written) ++ ['}']))
      (.object (entries.map Entry.member)) := by
  refine ⟨⟨'{', _, rfl, by decide, by decide, by decide⟩, fun fuel rest hfuel _ => ?_⟩
  obtain ⟨fuel, rfl⟩ : ∃ n, fuel = n + 1 := ⟨fuel - 1, by omega⟩
  rw [List.cons_append, List.append_assoc, List.cons_append, List.nil_append] at hfuel ⊢
  rw [readValue, skipSpace_cons (by decide)]
  simp only [show ('{' = '"') = False from by decide, show ('{' = '[') = False from by decide,
    if_false, if_true]
  cases entries with
  | nil =>
    have hskip := skipSpace_cons (show isSpace '}' = false from by decide) rest
    simp only [List.map_nil, joinComma, List.intercalate_nil, List.nil_append, hskip,
      List.head?_cons, if_true, List.tail_cons]
  | cons entry entries =>
    have hhead : (skipSpace (joinComma ((entry :: entries).map Entry.written) ++ '}' :: rest)).head?
        ≠ some '}' := by
      obtain ⟨tail, htail⟩ := joinComma_cons entry.written (entries.map Entry.written)
      rw [List.map_cons, htail, List.append_assoc, Entry.written, memberText_append,
        skipSpace_cons (by decide), List.head?_cons]
      decide
    have hread := readMembers_joinComma entry entries rest h fuel (by
      rw [List.length_cons] at hfuel
      omega)
    have hcollect : collectMembers ((entry :: entries).map Entry.member) =
        (entry :: entries).map Entry.member :=
      collectMembers_of_nodup (by rwa [List.map_map])
    simp only [hhead, if_false, hread, Option.map_some, hcollect]

end Infra
