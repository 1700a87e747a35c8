import Mathlib.Data.List.Find
import Mathlib.Data.List.Sort
import Kommunsign.Infra.Transaction

/-!
# Tables with row triggers

A table is a list of rows somewhere in a state, together with the checks its triggers make before
a row is inserted, replaced or deleted. A statement succeeds only if every row it touches passes
its check, and otherwise the transaction it belongs to fails.

The checks see the state the statement began in. That is the row trigger semantics for a check
which does not read the table it guards.

* `insert_eq_ok`, `update_eq_ok`, `delete_eq_ok` — when a statement succeeds, and what it leaves
* `forEach_insert` — the same for a statement that inserts several rows
* `map_assign` — a column that no assignment touches stays as it was
* `find?_of_mem` — a key that occurs once finds its row
* `mem_assign_key`, `nodup_assign_key`, `Table.update_key_cases` — an update by a key
* `minBy_eq_some` — `order by … limit 1`
-/

namespace Infra

variable {σ ε ρ κ : Type}

/-- Where the rows of a table are, and what its triggers check. -/
structure Table (σ ε ρ : Type) where
  rows : σ → List ρ
  put : List ρ → σ → σ
  onInsert : σ → ρ → Except ε Unit
  onUpdate : σ → ρ → ρ → Except ε Unit
  onDelete : σ → ρ → Except ε Unit

/-- The check of the first row that fails, or success when they all pass. -/
def checkAll (check : ρ → Except ε Unit) : List ρ → Except ε Unit
  | [] => .ok ()
  | row :: rows =>
    match check row with
    | .error e => .error e
    | .ok _ => checkAll check rows

/-- The rows after `set f where p`. -/
def assign (p : ρ → Bool) (f : ρ → ρ) (rows : List ρ) : List ρ :=
  rows.map fun row => if p row then f row else row

namespace Table

variable (T : Table σ ε ρ)

/-- `insert into T values (row)`. -/
def insert (row : ρ) : Transaction σ ε Unit := do
  Transaction.check fun s => T.onInsert s row
  Transaction.rewrite fun s => T.put (T.rows s ++ [row]) s

/-- `update T set f where p`; the answer is the row count. -/
def update (p : ρ → Bool) (f : ρ → ρ) : Transaction σ ε Nat := do
  Transaction.check fun s => checkAll (fun row => T.onUpdate s row (f row)) ((T.rows s).filter p)
  let before ← Transaction.read
  Transaction.rewrite fun s => T.put (assign p f (T.rows s)) s
  pure ((T.rows before).countP p)

/-- `delete from T where p`. -/
def delete (p : ρ → Bool) : Transaction σ ε Unit := do
  Transaction.check fun s => checkAll (T.onDelete s) ((T.rows s).filter p)
  Transaction.rewrite fun s => T.put ((T.rows s).filter fun row => !p row) s

end Table

/-! ## When a statement succeeds -/

theorem checkAll_eq_ok {check : ρ → Except ε Unit} {rows : List ρ} :
    checkAll check rows = .ok () ↔ ∀ row ∈ rows, check row = .ok () := by
  induction rows with
  | nil => simp [checkAll]
  | cons row rows ih =>
    rw [List.forall_mem_cons, ← ih, checkAll]
    cases check row with
    | error e => simp
    | ok u => simp

theorem exists_of_checkAll_error {check : ρ → Except ε Unit} {e : ε} : ∀ {rows : List ρ},
    checkAll check rows = .error e → ∃ row ∈ rows, check row = .error e
  | [], h => nomatch h
  | row :: rows, h => by
    rw [checkAll] at h
    cases hrow : check row with
    | error e' =>
      rw [hrow] at h
      cases h
      exact ⟨row, List.mem_cons_self, hrow⟩
    | ok u =>
      rw [hrow] at h
      obtain ⟨row', hmem, he⟩ := exists_of_checkAll_error h
      exact ⟨row', List.mem_cons_of_mem _ hmem, he⟩

namespace Table

variable {T : Table σ ε ρ} {s s' : σ} {p : ρ → Bool} {f : ρ → ρ} {row : ρ} {u : Unit}

theorem insert_eq_ok : T.insert row s = .ok (u, s') ↔
    T.onInsert s row = .ok () ∧ s' = T.put (T.rows s ++ [row]) s := by
  rw [insert, Transaction.bind_eq_ok]
  constructor
  · rintro ⟨_, _, hc, hr⟩
    obtain ⟨hc, rfl⟩ := Transaction.check_eq_ok.mp hc
    exact ⟨hc, Transaction.rewrite_eq_ok.mp hr⟩
  · rintro ⟨hc, hr⟩
    exact ⟨(), s, Transaction.check_eq_ok.mpr ⟨hc, rfl⟩, Transaction.rewrite_eq_ok.mpr hr⟩

theorem update_eq_ok {n : Nat} : T.update p f s = .ok (n, s') ↔
    (∀ row ∈ T.rows s, p row = true → T.onUpdate s row (f row) = .ok ()) ∧
      s' = T.put (assign p f (T.rows s)) s ∧ n = (T.rows s).countP p := by
  have hall : (checkAll (fun row => T.onUpdate s row (f row)) ((T.rows s).filter p) = .ok ()) ↔
      ∀ row ∈ T.rows s, p row = true → T.onUpdate s row (f row) = .ok () := by
    rw [checkAll_eq_ok]
    simp only [List.mem_filter, and_imp]
  rw [← hall]
  simp only [update, Transaction.bind_eq_ok, Transaction.check_eq_ok, Transaction.read_eq_ok,
    Transaction.rewrite_eq_ok, Transaction.pure_eq_ok]
  constructor
  · rintro ⟨_, _, ⟨hc, rfl⟩, _, _, ⟨rfl, rfl⟩, _, _, rfl, rfl, rfl⟩
    exact ⟨hc, rfl, rfl⟩
  · rintro ⟨hc, rfl, rfl⟩
    exact ⟨(), s, ⟨hc, rfl⟩, s, s, ⟨rfl, rfl⟩, (), _, rfl, rfl, rfl⟩

/-- An update that fails has refused one of its rows. -/
theorem exists_of_update_error {e : ε} (h : T.update p f s = .error e) :
    ∃ row ∈ T.rows s, p row = true ∧ T.onUpdate s row (f row) = .error e := by
  have hcheck : checkAll (fun row => T.onUpdate s row (f row)) ((T.rows s).filter p) = .error e := by
    cases hc : checkAll (fun row => T.onUpdate s row (f row)) ((T.rows s).filter p) with
    | ok u =>
      have hok : T.update p f s = .ok ((T.rows s).countP p, T.put (assign p f (T.rows s)) s) := by
        refine update_eq_ok.mpr ⟨fun row hrow hp => ?_, rfl, rfl⟩
        exact checkAll_eq_ok.mp hc row (List.mem_filter.mpr ⟨hrow, hp⟩)
      rw [hok] at h
      cases h
    | error e' =>
      simp only [update, bind, Transaction.check, hc] at h
      rw [Except.error.inj h]
  obtain ⟨row, hrow, he⟩ := exists_of_checkAll_error hcheck
  obtain ⟨hmem, hp⟩ := List.mem_filter.mp hrow
  exact ⟨row, hmem, hp, he⟩

theorem delete_eq_ok : T.delete p s = .ok (u, s') ↔
    (∀ row ∈ T.rows s, p row = true → T.onDelete s row = .ok ()) ∧
      s' = T.put ((T.rows s).filter fun row => !p row) s := by
  have hall : (checkAll (T.onDelete s) ((T.rows s).filter p) = .ok ()) ↔
      ∀ row ∈ T.rows s, p row = true → T.onDelete s row = .ok () := by
    rw [checkAll_eq_ok]
    simp only [List.mem_filter, and_imp]
  rw [← hall]
  simp only [delete, Transaction.bind_eq_ok, Transaction.check_eq_ok, Transaction.rewrite_eq_ok]
  constructor
  · rintro ⟨_, _, ⟨hc, rfl⟩, rfl⟩
    exact ⟨hc, rfl⟩
  · rintro ⟨hc, rfl⟩
    exact ⟨(), s, ⟨hc, rfl⟩, rfl⟩

/-- An update fails as its first refused row does. -/
theorem failsWith_update {P : ε → Prop} (hP : ∀ row ∈ T.rows s, p row = true →
    ∀ e, T.onUpdate s row (f row) = .error e → P e) :
    Transaction.FailsWith P (T.update p f) s ↔
      ∃ row ∈ T.rows s, p row = true ∧ T.onUpdate s row (f row) ≠ .ok () := by
  constructor
  · rintro ⟨e, he, -⟩
    obtain ⟨row, hrow, hp, hrefused⟩ := exists_of_update_error he
    exact ⟨row, hrow, hp, fun hok => nomatch hrefused.symm.trans hok⟩
  · rintro ⟨row, hrow, hp, hrefused⟩
    cases hu : T.update p f s with
    | ok r =>
      obtain ⟨n, s'⟩ := r
      exact absurd ((update_eq_ok.mp hu).1 row hrow hp) hrefused
    | error e =>
      obtain ⟨row', hrow', hp', he⟩ := exists_of_update_error hu
      exact ⟨e, hu, hP row' hrow' hp' e he⟩

theorem not_failsWith_update {P : ε → Prop} (hP : ∀ row ∈ T.rows s, p row = true →
    ∀ e, T.onUpdate s row (f row) = .error e → ¬P e) : ¬Transaction.FailsWith P (T.update p f) s := by
  rintro ⟨e, he, hPe⟩
  obtain ⟨row, hrow, hp, hrefused⟩ := exists_of_update_error he
  exact hP row hrow hp e hrefused hPe

theorem not_failsWith_insert {P : ε → Prop} (hP : ∀ e, T.onInsert s row = .error e → ¬P e) :
    ¬Transaction.FailsWith P (T.insert row) s := by
  rw [insert, Transaction.failsWith_bind]
  rintro (⟨e, he, hPe⟩ | ⟨_, s₁, -, hfails⟩)
  · refine hP e ?_ hPe
    simp only [Transaction.check] at he
    cases hc : T.onInsert s row with
    | ok u => simp [hc] at he
    | error e' => simpa [hc] using he
  · exact Transaction.not_failsWith_rewrite _ hfails

/-- Several rows at once: every row has been checked against the rows before it. -/
theorem forEach_insert {α : Type} {g : α → ρ} (hrows : ∀ rs s, T.rows (T.put rs s) = rs)
    (hput : ∀ rs rs' s, T.put rs (T.put rs' s) = T.put rs s) (hself : ∀ s, T.put (T.rows s) s = s) :
    ∀ {items : List α} {s s' : σ} {u : Unit},
      Transaction.forEach (fun item => T.insert (g item)) items s = .ok (u, s') →
        s' = T.put (T.rows s ++ items.map g) s ∧
          ∀ before item after, items = before ++ item :: after →
            T.onInsert (T.put (T.rows s ++ before.map g) s) (g item) = .ok ()
  | [], s, s', _, h => by
    obtain ⟨-, rfl⟩ := Transaction.pure_eq_ok.mp h
    simp [hself]
  | item :: items, s, s', _, h => by
    obtain ⟨_, s₁, h₁, h₂⟩ := Transaction.bind_eq_ok.mp h
    obtain ⟨hok, rfl⟩ := insert_eq_ok.mp h₁
    obtain ⟨heq, hrest⟩ := forEach_insert hrows hput hself h₂
    simp only [hrows, hput, List.append_assoc, List.singleton_append] at heq hrest
    refine ⟨by rw [heq, List.map_cons], ?_⟩
    rintro (_ | ⟨first, before⟩) item' after hitems
    · obtain ⟨rfl, -⟩ := List.cons_eq_cons.mp hitems
      simpa [hself] using hok
    · obtain ⟨rfl, htail⟩ := List.cons_eq_cons.mp hitems
      simpa using hrest before item' after htail

end Table

/-! ## What an assignment leaves alone -/

section Assign

variable {p : ρ → Bool} {f : ρ → ρ} {rows : List ρ}

theorem mem_assign {row : ρ} :
    row ∈ assign p f rows ↔ ∃ old ∈ rows, row = if p old then f old else old := by
  simp only [assign, List.mem_map, eq_comm]

/-- After `set row where p` a row is either untouched or the new one. -/
theorem mem_assign_const {row row' : ρ} (h : row' ∈ assign p (fun _ => row) rows) :
    (row' ∈ rows ∧ p row' = false) ∨ (row' = row ∧ ∃ old ∈ rows, p old = true) := by
  obtain ⟨old, hold, rfl⟩ := mem_assign.mp h
  by_cases hp : p old = true
  · exact Or.inr ⟨if_pos hp, old, hold, hp⟩
  · rw [if_neg hp]
    exact Or.inl ⟨hold, by simpa using hp⟩

theorem map_assign {g : ρ → κ} (h : ∀ row ∈ rows, p row = true → g (f row) = g row) :
    (assign p f rows).map g = rows.map g := by
  rw [assign, List.map_map]
  refine List.map_congr_left fun row hrow => ?_
  by_cases hp : p row = true
  · rw [Function.comp_apply, if_pos hp, h row hrow hp]
  · rw [Function.comp_apply, if_neg hp]

theorem assign_eq_self (h : ∀ row ∈ rows, p row = false) : assign p f rows = rows := by
  rw [assign]
  conv => rhs; rw [← List.map_id rows]
  exact List.map_congr_left fun row hrow => by simp [h row hrow]

/-- Every row stands in the relation to what the assignment has made of it. -/
theorem forall₂_assign {R : ρ → ρ → Prop} (hrefl : ∀ row, R row row)
    (h : ∀ row ∈ rows, p row = true → R row (f row)) :
    List.Forall₂ R rows (assign p f rows) := by
  refine List.forall₂_map_right_iff.mpr (List.forall₂_same.mpr fun row hrow => ?_)
  by_cases hp : p row = true
  · rw [if_pos hp]
    exact h row hrow hp
  · rw [if_neg hp]
    exact hrefl row

/-- Two assignments to the same rows are one. -/
theorem assign_assign {g : ρ → ρ} (h : ∀ row ∈ rows, p row = true → p (f row) = true) :
    assign p g (assign p f rows) = assign p (fun row => g (f row)) rows := by
  rw [assign, assign, List.map_map]
  refine List.map_congr_left fun row hrow => ?_
  by_cases hp : p row = true
  · rw [Function.comp_apply, if_pos hp, if_pos hp, if_pos (h row hrow hp)]
  · rw [Function.comp_apply, if_neg hp, if_neg hp, if_neg hp]

end Assign

/-- An update without a row to update. -/
theorem Table.update_of_none {T : Table σ ε ρ} {s : σ} {p : ρ → Bool} {f : ρ → ρ}
    (hself : T.put (T.rows s) s = s) (h : ∀ row ∈ T.rows s, p row = false) :
    T.update p f s = .ok (0, s) := by
  refine update_eq_ok.mpr ⟨fun row hrow hp => ?_, ?_, ?_⟩
  · rw [h row hrow] at hp
    cases hp
  · rw [assign_eq_self h, hself]
  · exact (List.countP_eq_zero.mpr fun row hrow => Bool.eq_false_iff.mp (h row hrow)).symm

theorem assign_append {p : ρ → Bool} {f : ρ → ρ} {rows rest : List ρ} :
    assign p f (rows ++ rest) = assign p f rows ++ assign p f rest := by
  rw [assign, List.map_append]
  rfl

/-- An assignment by a key that only the last row has. -/
theorem assign_last [BEq κ] [LawfulBEq κ] (key : ρ → κ) {f : ρ → ρ} {rows : List ρ} {row : ρ}
    (h : ∀ r ∈ rows, key r ≠ key row) :
    assign (fun r => key r == key row) f (rows ++ [row]) = rows ++ [f row] := by
  rw [assign_append, assign_eq_self fun r hr => beq_false_of_ne (h r hr)]
  simp [assign]

/-- A selection that the assigned rows neither enter nor leave is assigned in its own right. -/
theorem filter_assign {p q : ρ → Bool} {f : ρ → ρ} {rows : List ρ}
    (h : ∀ row ∈ rows, p row = true → q (f row) = q row) :
    (assign p f rows).filter q = assign p f (rows.filter q) := by
  rw [assign, assign, List.filter_map]
  congr 1
  refine List.filter_congr fun row hrow => ?_
  by_cases hp : p row = true
  · rw [Function.comp_apply, if_pos hp, h row hrow hp]
  · rw [Function.comp_apply, if_neg hp]

/-! ## Lookups -/

theorem exists_of_find?_key [BEq κ] [LawfulBEq κ] {key : ρ → κ} {rows : List ρ} {k : κ} {row : ρ}
    (h : rows.find? (fun r => key r == k) = some row) : row ∈ rows ∧ key row = k :=
  ⟨List.mem_of_find?_eq_some h, by simpa using List.find?_some h⟩

/-- A row with a key of its own is found after it has been added. -/
theorem find?_append_new [BEq κ] [LawfulBEq κ] (key : ρ → κ) {rows : List ρ} {row : ρ} {k : κ}
    (hnew : ∀ r ∈ rows, key r ≠ k) (hkey : key row = k) :
    (rows ++ [row]).find? (fun r => key r == k) = some row := by
  have hnone : rows.find? (fun r => key r == k) = none := by
    rw [List.find?_eq_none]
    intro r hr hkey
    exact hnew r hr (beq_iff_eq.mp hkey)
  rw [List.find?_append, hnone]
  simp [hkey]

theorem find?_of_mem [BEq κ] [LawfulBEq κ] {key : ρ → κ} {rows : List ρ} {row : ρ}
    (hkeys : (rows.map key).Nodup) (hrow : row ∈ rows) :
    rows.find? (fun r => key r == key row) = some row := by
  induction rows with
  | nil => exact absurd hrow (List.not_mem_nil)
  | cons head tail ih =>
    rw [List.map_cons, List.nodup_cons] at hkeys
    rcases List.mem_cons.mp hrow with rfl | htail
    · simp
    · have hne : key head ≠ key row := fun he =>
        hkeys.1 (he ▸ List.mem_map_of_mem htail)
      rw [List.find?_cons_of_neg (by simpa using hne), ih hkeys.2 htail]

/-- A lookup by a key that the assignment leaves alone finds the assigned row. -/
theorem find?_assign [BEq κ] (key : ρ → κ) {p : ρ → Bool} {f : ρ → ρ} {rows : List ρ} {k : κ}
    (h : ∀ row ∈ rows, p row = true → key (f row) = key row) :
    (assign p f rows).find? (fun r => key r == k) =
      (rows.find? fun r => key r == k).map fun r => if p r then f r else r := by
  rw [assign, List.find?_map]
  congr 1
  refine List.find?_congr fun row hrow => ?_
  by_cases hp : p row = true
  · rw [Function.comp_apply, if_pos hp, h row hrow hp]
  · rw [Function.comp_apply, if_neg hp]

theorem nodup_concat_key {key : ρ → κ} {rows : List ρ} {row : ρ} (hkeys : (rows.map key).Nodup)
    (hfresh : ∀ other ∈ rows, key other ≠ key row) : ((rows ++ [row]).map key).Nodup := by
  rw [List.map_append, List.nodup_append]
  refine ⟨hkeys, List.nodup_singleton _, fun k hk k' hk' => ?_⟩
  obtain ⟨other, hother, rfl⟩ := List.mem_map.mp hk
  rw [List.mem_singleton.mp hk']
  exact hfresh other hother

/-- Rows that were inserted one by one, each with a key that no row before it had. -/
theorem nodup_append_of_fresh {key : ρ → κ} {rows : List ρ} : ∀ {items : List ρ},
    (rows.map key).Nodup →
      (∀ before item after, items = before ++ item :: after →
        ∀ row ∈ rows ++ before, key row ≠ key item) → ((rows ++ items).map key).Nodup
  | [], hrows, _ => by
    rw [List.append_nil]
    exact hrows
  | item :: items, hrows, hfresh => by
    have hitem : ((rows ++ [item]).map key).Nodup := nodup_concat_key hrows fun row hrow =>
      hfresh [] item items rfl row (List.mem_append_left _ hrow)
    have hrest : (((rows ++ [item]) ++ items).map key).Nodup := by
      refine nodup_append_of_fresh hitem fun before item' after heq row hrow => ?_
      refine hfresh (item :: before) item' after (by rw [heq, List.cons_append]) row ?_
      rw [List.append_assoc, List.singleton_append] at hrow
      exact hrow
    rw [List.append_assoc, List.singleton_append] at hrest
    exact hrest

theorem eq_of_key_eq {key : ρ → κ} {rows : List ρ} {a b : ρ} (hkeys : (rows.map key).Nodup)
    (ha : a ∈ rows) (hb : b ∈ rows) (h : key a = key b) : a = b :=
  List.inj_on_of_nodup_map hkeys ha hb h

/-! ## Updates by a key -/

section Keyed

variable [BEq κ] [LawfulBEq κ] {key : ρ → κ} {rows : List ρ} {row : ρ} {f : ρ → ρ}

theorem mem_assign_key (hkeys : (rows.map key).Nodup) (hrow : row ∈ rows) {new : ρ} :
    new ∈ assign (fun r => key r == key row) f rows ↔
      new = f row ∨ new ∈ rows ∧ key new ≠ key row := by
  rw [mem_assign]
  constructor
  · rintro ⟨old, hold, rfl⟩
    by_cases hkey : key old = key row
    · obtain rfl := eq_of_key_eq hkeys hold hrow hkey
      exact Or.inl (if_pos (beq_self_eq_true _))
    · rw [if_neg (mt beq_iff_eq.mp hkey)]
      exact Or.inr ⟨hold, hkey⟩
  · rintro (rfl | ⟨hnew, hkey⟩)
    · exact ⟨row, hrow, by rw [if_pos (beq_self_eq_true _)]⟩
    · exact ⟨new, hnew, by rw [if_neg (mt beq_iff_eq.mp hkey)]⟩

/-- A row that does not take the key of another one keeps the keys apart. -/
theorem nodup_assign_key (hkeys : (rows.map key).Nodup) (hrow : row ∈ rows)
    (hfresh : ∀ other ∈ rows, key other ≠ key row → key other ≠ key (f row)) :
    ((assign (fun r => key r == key row) f rows).map key).Nodup := by
  rw [assign, List.map_map]
  refine List.Nodup.map_on (fun a ha b hb hsame => ?_) (List.Nodup.of_map key hkeys)
  rw [Function.comp_apply, Function.comp_apply] at hsame
  by_cases hka : key a = key row
  · obtain rfl := eq_of_key_eq hkeys ha hrow hka
    by_cases hkb : key b = key a
    · exact (eq_of_key_eq hkeys hb hrow hkb).symm
    · rw [if_pos (beq_self_eq_true _), if_neg (mt beq_iff_eq.mp hkb)] at hsame
      exact absurd hsame.symm (hfresh b hb hkb)
  · by_cases hkb : key b = key row
    · obtain rfl := eq_of_key_eq hkeys hb hrow hkb
      rw [if_neg (mt beq_iff_eq.mp hka), if_pos (beq_self_eq_true _)] at hsame
      exact absurd hsame (hfresh a ha hka)
    · rw [if_neg (mt beq_iff_eq.mp hka), if_neg (mt beq_iff_eq.mp hkb)] at hsame
      exact eq_of_key_eq hkeys ha hb hsame

/-- An update by a key has no row to update, or one. -/
theorem Table.update_key_cases {T : Table σ ε ρ} {s s' : σ} {k : κ}
    (h : (T.update (fun r => key r == k) f).outcome s = some s') :
    (∀ row ∈ T.rows s, key row ≠ k) ∧ s' = T.put (T.rows s) s ∨
      ∃ row ∈ T.rows s, key row = k ∧ T.onUpdate s row (f row) = .ok () ∧
        s' = T.put (assign (fun r => key r == key row) f (T.rows s)) s := by
  obtain ⟨_, h⟩ := Transaction.outcome_eq_some.mp h
  obtain ⟨hchecks, rfl, -⟩ := Table.update_eq_ok.mp h
  by_cases hany : ∃ row ∈ T.rows s, key row = k
  · obtain ⟨row, hrow, rfl⟩ := hany
    exact Or.inr ⟨row, hrow, rfl, hchecks row hrow (beq_self_eq_true _), rfl⟩
  · have hnone : ∀ row ∈ T.rows s, key row ≠ k := fun row hrow hkey => hany ⟨row, hrow, hkey⟩
    refine Or.inl ⟨hnone, ?_⟩
    rw [assign_eq_self fun row hrow => beq_false_of_ne (hnone row hrow)]

end Keyed

/-- The first row with the least key: `order by key limit 1`, or `desc` with the key negated. -/
def minBy (key : ρ → Int) : List ρ → Option ρ
  | [] => none
  | row :: rows =>
    match minBy key rows with
    | none => some row
    | some least => if key row ≤ key least then some row else some least

theorem minBy_eq_none {key : ρ → Int} {rows : List ρ} : minBy key rows = none ↔ rows = [] := by
  cases rows with
  | nil => simp [minBy]
  | cons head tail =>
    rw [minBy]
    cases minBy key tail with
    | none => simp
    | some least => by_cases h : key head ≤ key least <;> simp [h]

/-- The least row is one of the rows, and no row is before it. -/
theorem minBy_eq_some {key : ρ → Int} : ∀ {rows : List ρ} {row : ρ},
    minBy key rows = some row → row ∈ rows ∧ ∀ other ∈ rows, key row ≤ key other
  | [], _, h => by simp [minBy] at h
  | head :: tail, row, h => by
    rw [minBy] at h
    cases ht : minBy key tail with
    | none =>
      rw [ht] at h
      cases h
      rw [minBy_eq_none.mp ht]
      simp
    | some least =>
      obtain ⟨hmem, hle⟩ := minBy_eq_some ht
      rw [ht] at h
      by_cases hc : key head ≤ key least
      · simp only [hc, if_true, Option.some.injEq] at h
        subst h
        exact ⟨List.mem_cons_self, List.forall_mem_cons.mpr
          ⟨le_refl _, fun other ho => hc.trans (hle other ho)⟩⟩
      · simp only [hc, if_false, Option.some.injEq] at h
        subst h
        exact ⟨List.mem_cons_of_mem _ hmem, List.forall_mem_cons.mpr ⟨(not_le.mp hc).le, hle⟩⟩

/-- Replacing rows by rows of the same key replaces the least row alike. -/
theorem minBy_map {key : ρ → Int} {g : ρ → ρ} : ∀ {rows : List ρ},
    (∀ row ∈ rows, key (g row) = key row) → minBy key (rows.map g) = (minBy key rows).map g
  | [], _ => rfl
  | head :: tail, hg => by
    have hhead := hg head List.mem_cons_self
    rw [List.map_cons, minBy, minBy, minBy_map fun row hrow => hg row (List.mem_cons_of_mem _ hrow)]
    cases ht : minBy key tail with
    | none => rfl
    | some least =>
      have hleast := hg least (List.mem_cons_of_mem _ (minBy_eq_some ht).1)
      simp only [Option.map_some, hhead, hleast]
      split <;> rfl

/-- A key that no row has. -/
def freshKey (keys : List Nat) : Nat := keys.foldr (fun k n => max (k + 1) n) 0

theorem lt_freshKey {keys : List Nat} {k : Nat} (h : k ∈ keys) : k < freshKey keys := by
  induction keys with
  | nil => exact absurd h List.not_mem_nil
  | cons head tail ih =>
    rw [freshKey, List.foldr_cons]
    rcases List.mem_cons.mp h with rfl | ht
    · exact lt_of_lt_of_le (Nat.lt_succ_self _) (le_max_left _ _)
    · exact lt_of_lt_of_le (ih ht) (le_max_right _ _)

theorem freshKey_not_mem (keys : List Nat) : freshKey keys ∉ keys :=
  fun h => lt_irrefl _ (lt_freshKey h)

end Infra
