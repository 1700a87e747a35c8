import Kommunsign.Infra.Table

/-!
# Tables whose rows have moved

The rows of a table before and after a statement that inserts and deletes nothing correspond one
by one. A relation on rows says what may have happened to each.

* `Moved R rows rows'` — the rows are those before, each moved by `R`
* `Moved.refl`, `Moved.trans`, `Moved.assign` — how moves arise and compose
* `Moved.exists_before`, `Moved.exists_after` — the row before, and the row after
* `Moved.map_eq` — a column that no move changes
* `Moved.find?_eq_some`, `Moved.find?_before` — lookups after the move, and before it
* `Extends R new rows rows'` — the rows are those before, each moved by `R`, and then new ones;
  the same lemmas for it
-/

namespace Infra

variable {ρ κ : Type} {R : ρ → ρ → Prop} {rows rows' rows'' : List ρ}

section Forall₂

variable {σ : Type} {Q : ρ → σ → Prop} {left : List ρ} {right : List σ}

theorem exists_left_of_forall₂ (h : List.Forall₂ Q left right) {b : σ} (hb : b ∈ right) :
    ∃ a ∈ left, Q a b := by
  induction h with
  | nil => exact absurd hb List.not_mem_nil
  | cons hq _ ih =>
    rcases List.mem_cons.mp hb with rfl | hb
    · exact ⟨_, List.mem_cons_self, hq⟩
    · obtain ⟨a, ha, hQ⟩ := ih hb
      exact ⟨a, List.mem_cons_of_mem _ ha, hQ⟩

theorem exists_right_of_forall₂ (h : List.Forall₂ Q left right) {a : ρ} (ha : a ∈ left) :
    ∃ b ∈ right, Q a b := by
  induction h with
  | nil => exact absurd ha List.not_mem_nil
  | cons hq _ ih =>
    rcases List.mem_cons.mp ha with rfl | ha
    · exact ⟨_, List.mem_cons_self, hq⟩
    · obtain ⟨b, hb, hQ⟩ := ih ha
      exact ⟨b, List.mem_cons_of_mem _ hb, hQ⟩

end Forall₂

/-- The same rows in the same order, each related to the one before. -/
def Moved (R : ρ → ρ → Prop) (rows rows' : List ρ) : Prop := List.Forall₂ R rows rows'

namespace Moved

theorem refl (h : ∀ row, R row row) (rows : List ρ) : Moved R rows rows :=
  List.forall₂_same.mpr fun row _ => h row

theorem trans (htrans : ∀ a b c, R a b → R b c → R a c) :
    ∀ {rows rows' rows'' : List ρ}, Moved R rows rows' → Moved R rows' rows'' → Moved R rows rows''
  | [], _, _, h, h' => by
    cases h
    cases h'
    exact List.Forall₂.nil
  | _ :: _, _, _, h, h' => by
    cases h with
    | cons hr hrest =>
      cases h' with
      | cons hr' hrest' => exact List.Forall₂.cons (htrans _ _ _ hr hr') (trans htrans hrest hrest')

theorem assign {p : ρ → Bool} {f : ρ → ρ} (hrefl : ∀ row, R row row)
    (h : ∀ row ∈ rows, p row = true → R row (f row)) : Moved R rows (Infra.assign p f rows) := by
  induction rows with
  | nil => exact List.Forall₂.nil
  | cons row rows ih =>
    refine List.Forall₂.cons ?_ (ih fun r hr => h r (List.mem_cons_of_mem _ hr))
    show R row (if p row then f row else row)
    by_cases hp : p row = true
    · rw [if_pos hp]
      exact h row List.mem_cons_self hp
    · rw [if_neg hp]
      exact hrefl row

theorem exists_before (h : Moved R rows rows') {row' : ρ} (hrow : row' ∈ rows') :
    ∃ row ∈ rows, R row row' := exists_left_of_forall₂ h hrow

theorem exists_after (h : Moved R rows rows') {row : ρ} (hrow : row ∈ rows) :
    ∃ row' ∈ rows', R row row' := exists_right_of_forall₂ h hrow

/-- A column that no move changes is the same before and after. -/
theorem map_eq (h : Moved R rows rows') {g : ρ → κ} (hg : ∀ a b, R a b → g b = g a) :
    rows'.map g = rows.map g := by
  induction h with
  | nil => rfl
  | cons hr _ ih => rw [List.map_cons, List.map_cons, ih, hg _ _ hr]

/-- A lookup by a key that no move changes finds the moved row. -/
theorem find?_eq_some [BEq κ] (h : Moved R rows rows') {key : ρ → κ} {k : κ}
    (hkey : ∀ a b, R a b → key b = key a) {row : ρ}
    (hrow : rows.find? (fun r => key r == k) = some row) :
    ∃ row', rows'.find? (fun r => key r == k) = some row' ∧ R row row' := by
  induction h with
  | nil => simp at hrow
  | @cons a b _ _ hr _ ih =>
    have hsame : (key b == k) = (key a == k) := by rw [hkey _ _ hr]
    rw [List.find?_cons] at hrow ⊢
    rw [hsame]
    cases hk : key a == k with
    | true =>
      rw [hk] at hrow
      cases hrow
      exact ⟨b, rfl, hr⟩
    | false =>
      rw [hk] at hrow
      exact ih hrow

/-- What a lookup finds after the move, it has found before. -/
theorem find?_before [BEq κ] (h : Moved R rows rows') {key : ρ → κ} {k : κ}
    (hkey : ∀ a b, R a b → key b = key a) {row' : ρ}
    (hrow : rows'.find? (fun r => key r == k) = some row') :
    ∃ row, rows.find? (fun r => key r == k) = some row ∧ R row row' := by
  cases hbefore : rows.find? (fun r => key r == k) with
  | some row =>
    obtain ⟨row'', hrow'', hR⟩ := h.find?_eq_some hkey hbefore
    obtain rfl := Option.some.inj (hrow.symm.trans hrow'')
    exact ⟨row, rfl, hR⟩
  | none =>
    -- the row that was moved would have had the key already
    obtain ⟨row, hmem, hR⟩ := h.exists_before (List.mem_of_find?_eq_some hrow)
    have hk := List.find?_some hrow
    rw [hkey _ _ hR] at hk
    exact absurd hk (List.find?_eq_none.mp hbefore row hmem)

/-- The rows of two tables, one after the other, move apart. -/
theorem split : ∀ {rows rest rows' : List ρ}, Moved R (rows ++ rest) rows' →
    ∃ moved moved', Moved R rows moved ∧ Moved R rest moved' ∧ rows' = moved ++ moved'
  | [], _, rows', h => ⟨[], rows', List.Forall₂.nil, h, rfl⟩
  | _ :: _, _, _, h => by
    cases h with
    | cons hr hrest =>
      obtain ⟨moved, moved', hmoved, hmoved', rfl⟩ := split hrest
      exact ⟨_ :: moved, moved', List.Forall₂.cons hr hmoved, hmoved', rfl⟩

end Moved

/-! ## Moved rows, and rows after them -/

/-- The rows before, each moved by `R`, and then rows that satisfy `new`. -/
def Extends (R : ρ → ρ → Prop) (new : ρ → Prop) (rows rows' : List ρ) : Prop :=
  ∃ moved added, Moved R rows moved ∧ rows' = moved ++ added ∧ ∀ row ∈ added, new row

namespace Extends

variable {new : ρ → Prop}

theorem of_moved (h : Moved R rows rows') : Extends R new rows rows' :=
  ⟨rows', [], h, (List.append_nil _).symm, fun _ hrow => absurd hrow List.not_mem_nil⟩

theorem refl (h : ∀ row, R row row) (rows : List ρ) : Extends R new rows rows :=
  of_moved (Moved.refl h rows)

theorem append (hrefl : ∀ row, R row row) {added : List ρ} (h : ∀ row ∈ added, new row) :
    Extends R new rows (rows ++ added) :=
  ⟨rows, added, Moved.refl hrefl rows, rfl, h⟩

/-- What is new stays new when it is moved. -/
theorem trans (htrans : ∀ a b c, R a b → R b c → R a c) (hnew : ∀ a b, R a b → new a → new b)
    (h : Extends R new rows rows') (h' : Extends R new rows' rows'') :
    Extends R new rows rows'' := by
  obtain ⟨moved, added, hmoved, rfl, hadded⟩ := h
  obtain ⟨moved', added', hmoved', rfl, hadded'⟩ := h'
  obtain ⟨kept, rest, hkept, hrest, rfl⟩ := hmoved'.split
  refine ⟨kept, rest ++ added', hmoved.trans htrans hkept, List.append_assoc _ _ _, ?_⟩
  intro row hrow
  rcases List.mem_append.mp hrow with hmem | hmem
  · obtain ⟨before, hbefore, hR⟩ := Moved.exists_before hrest hmem
    exact hnew _ _ hR (hadded _ hbefore)
  · exact hadded' _ hmem

theorem exists_before (h : Extends R new rows rows') {row' : ρ} (hrow : row' ∈ rows') :
    (∃ row ∈ rows, R row row') ∨ new row' := by
  obtain ⟨moved, added, hmoved, rfl, hadded⟩ := h
  rcases List.mem_append.mp hrow with hmem | hmem
  · exact Or.inl (hmoved.exists_before hmem)
  · exact Or.inr (hadded _ hmem)

theorem exists_after (h : Extends R new rows rows') {row : ρ} (hrow : row ∈ rows) :
    ∃ row' ∈ rows', R row row' := by
  obtain ⟨moved, added, hmoved, rfl, -⟩ := h
  obtain ⟨row', hmem, hR⟩ := hmoved.exists_after hrow
  exact ⟨row', List.mem_append_left _ hmem, hR⟩

/-- A lookup by a key that no move changes finds the moved row, whatever comes after it. -/
theorem find?_eq_some [BEq κ] (h : Extends R new rows rows') (key : ρ → κ) {k : κ}
    (hkey : ∀ a b, R a b → key b = key a) {row : ρ}
    (hrow : rows.find? (fun r => key r == k) = some row) :
    ∃ row', rows'.find? (fun r => key r == k) = some row' ∧ R row row' := by
  obtain ⟨moved, added, hmoved, rfl, -⟩ := h
  obtain ⟨row', hfound, hR⟩ := hmoved.find?_eq_some hkey hrow
  refine ⟨row', ?_, hR⟩
  rw [List.find?_append, hfound, Option.some_or]

/-- Nothing is new when nothing may be. -/
theorem moved (h : Extends R new rows rows') (hnone : ∀ row, ¬new row) : Moved R rows rows' := by
  obtain ⟨moved, added, hmoved, rfl, hadded⟩ := h
  have hnil : added = [] := by
    cases added with
    | nil => rfl
    | cons row rest => exact absurd (hadded row List.mem_cons_self) (hnone row)
  rw [hnil, List.append_nil]
  exact hmoved

end Extends

end Infra
