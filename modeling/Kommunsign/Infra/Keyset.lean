import Mathlib.Data.List.Sort
import Kommunsign.Infra.Run

/-!
# Listings that are paged by a key

A page is cut from the rows that a cursor lets pass, in the order of their keys. A client that
follows the cursors asks for one page after another, each time of the table as it then is.

* `Keyset` — the key of a row, the rows a cursor lets pass, the cursor made of a row
* `Keyset.page` — one page
* `follow` — what the client does with a page

A page is never empty while rows pass its cursor, and the cursor of the next page lets fewer rows
pass: the number of rows that pass is the measure.
-/

namespace Infra

structure Page (β γ : Type) where
  data : List β
  nextCursor : Option γ
  deriving DecidableEq

/-- The same page with its rows and its cursor written in another way. -/
def Page.map {β β' γ γ' : Type} (f : β → β') (g : γ → γ') (page : Page β γ) : Page β' γ' :=
  ⟨page.data.map f, page.nextCursor.map g⟩

/-! ## The client -/

section Client

variable {τ β β' γ γ' : Type}

/-- `next` is what to ask for: nothing more, the first page, or the page behind a cursor. -/
structure Follower (β γ : Type) where
  yielded : List β
  next : Option (Option γ)
  deriving DecidableEq

def Follower.start : Follower β γ := ⟨[], some none⟩

def Follower.map (f : β → β') (g : γ → γ') (s : Follower β γ) : Follower β' γ' :=
  ⟨s.yielded.map f, s.next.map (Option.map g)⟩

/-- One request, answered from the table as it is then. -/
def follow (fetch : τ → Option γ → Option (Page β γ)) (s : Follower β γ) (table : τ) :
    Option (Follower β γ) :=
  match s.next with
  | none => none
  | some cursor =>
    (fetch table cursor).map fun page => ⟨s.yielded ++ page.data, page.nextCursor.map some⟩

theorem follow_eq_some {fetch : τ → Option γ → Option (Page β γ)} {s s' : Follower β γ}
    {table : τ} (h : follow fetch s table = some s') :
    ∃ cursor page, s.next = some cursor ∧ fetch table cursor = some page ∧
      s' = ⟨s.yielded ++ page.data, page.nextCursor.map some⟩ := by
  unfold follow at h
  split at h
  · exact nomatch h
  · rename_i cursor hnext
    obtain ⟨page, hpage, rfl⟩ := Option.map_eq_some_iff.mp h
    exact ⟨cursor, page, hnext, hpage, rfl⟩

section Map

variable {f : β → β'} {g : γ → γ'} {fetch : τ → Option γ → Option (Page β γ)}
  {fetch' : τ → Option γ' → Option (Page β' γ')}
  (hfetch : ∀ table cursor, fetch' table (cursor.map g) = (fetch table cursor).map (Page.map f g))

include hfetch

/-- A client that sees rows and cursors in another form goes through the same requests. -/
theorem follow_map (s : Follower β γ) (table : τ) :
    follow fetch' (s.map f g) table = (follow fetch s table).map (Follower.map f g) := by
  obtain ⟨yielded, next⟩ := s
  cases next with
  | none => rfl
  | some cursor =>
    simp only [follow, Follower.map, Option.map_some, hfetch]
    cases fetch table cursor with
    | none => rfl
    | some page => simp [Page.map, Follower.map, Function.comp_def]

theorem run_follow_map (s : Follower β γ) (tables : List τ) :
    run (follow fetch') (s.map f g) tables =
      (run (follow fetch) s tables).map (Follower.map f g) := by
  induction tables generalizing s with
  | nil => rfl
  | cons table tables ih =>
    simp only [run, follow_map hfetch]
    cases follow fetch s table with
    | none => rfl
    | some s₁ => exact ih s₁

theorem meets_follow_map (hg : Function.Injective g) (condition : Option γ → τ → Prop)
    (s : Follower β γ) (tables : List τ) :
    Meets (follow fetch') (fun s table =>
        ∀ cursor : Option γ, s.next = some (cursor.map g) → condition cursor table)
      (s.map f g) tables ↔
    Meets (follow fetch) (fun s table => ∀ cursor, s.next = some cursor → condition cursor table)
      s tables := by
  induction tables generalizing s with
  | nil => exact Iff.rfl
  | cons table tables ih =>
    refine and_congr ?_ ?_
    · refine forall_congr' fun cursor => imp_congr_left ?_
      obtain ⟨yielded, next⟩ := s
      cases next with
      | none => simp [Follower.map]
      | some c => simp [Follower.map, (Option.map_injective hg).eq_iff]
    · rw [follow_map hfetch]
      cases follow fetch s table with
      | none => simp
      | some s₁ => simpa using ih s₁

end Map

end Client

/-! ## Pages by key -/

/--
`passes` is the condition of the query behind a cursor. It lets pass whatever sorts behind a row
that it lets pass, and nothing that sorts before the row the cursor was made of.
-/
structure Keyset (ρ κ γ : Type) [LinearOrder κ] where
  key : ρ → κ
  passes : γ → ρ → Bool
  cursorAt : ρ → γ
  passes_of_le : ∀ c r r', passes c r = true → key r ≤ key r' → passes c r' = true
  lt_of_passes : ∀ r r', passes (cursorAt r) r' = true → key r < key r'

namespace Keyset

variable {ρ κ γ : Type} [LinearOrder κ] (k : Keyset ρ κ γ)

/-- The rows that a request reads from, in the order of the listing. -/
def rows (table : List ρ) (cursor : Option γ) : List ρ :=
  (table.filter fun r => cursor.all (k.passes · r)).insertionSort fun a b => k.key a ≤ k.key b

/-- One more row than the page holds tells whether another page follows. -/
def page (limit : Nat) (table : List ρ) (cursor : Option γ) : Page ρ γ :=
  let answer := (k.rows table cursor).take (limit + 1)
  let rows := answer.take limit
  ⟨rows, if limit < answer.length then rows.getLast?.map k.cursorAt else none⟩

/-- The last row of the page, if another page follows. -/
def boundary (limit : Nat) (table : List ρ) (cursor : Option γ) : Option ρ :=
  if limit < (k.rows table cursor).length then ((k.rows table cursor).take limit).getLast? else none

theorem page_data (limit : Nat) (table : List ρ) (cursor : Option γ) :
    (k.page limit table cursor).data = (k.rows table cursor).take limit := by
  simp [page, List.take_take]

theorem page_nextCursor (limit : Nat) (table : List ρ) (cursor : Option γ) :
    (k.page limit table cursor).nextCursor =
      (k.boundary limit table cursor).map k.cursorAt := by
  unfold page boundary
  simp only [List.take_take, List.length_take]
  by_cases h : limit < (k.rows table cursor).length
  · rw [if_pos (by omega), if_pos h, Nat.min_eq_left (Nat.le_succ limit)]
  · rw [if_neg (by omega), if_neg h]
    rfl

theorem mem_rows {table : List ρ} {cursor : Option γ} {r : ρ} :
    r ∈ k.rows table cursor ↔ r ∈ table ∧ ∀ c, cursor = some c → k.passes c r = true := by
  unfold rows
  rw [List.mem_insertionSort, List.mem_filter]
  cases cursor <;> simp

theorem rows_sorted {table : List ρ} (hkeys : (table.map k.key).Nodup) (cursor : Option γ) :
    (k.rows table cursor).Pairwise fun a b => k.key a < k.key b := by
  have hle : (k.rows table cursor).Pairwise fun a b => k.key a ≤ k.key b :=
    List.pairwise_insertionSort (fun a b => k.key a ≤ k.key b) _
  have hne : (k.rows table cursor).Pairwise fun a b => k.key a ≠ k.key b := by
    have hperm := (List.perm_insertionSort (fun a b => k.key a ≤ k.key b)
      (table.filter fun r => cursor.all (k.passes · r))).map k.key
    have hnodup := hperm.nodup_iff.mpr (hkeys.sublist (List.filter_sublist.map k.key))
    exact List.pairwise_map.mp hnodup
  exact (hle.and hne).imp fun h => lt_of_le_of_ne h.1 h.2

/-- What stands behind the boundary of a page, and what the page holds. -/
theorem mem_take_or_lt {limit : Nat} {table : List ρ} {cursor : Option γ} {r last : ρ}
    (hkeys : (table.map k.key).Nodup) (hlast : k.boundary limit table cursor = some last)
    (hr : r ∈ k.rows table cursor) :
    r ∈ (k.rows table cursor).take limit ∨ k.key last < k.key r := by
  unfold boundary at hlast
  split at hlast
  · have hsorted := k.rows_sorted hkeys cursor
    rw [← List.take_append_drop limit (k.rows table cursor), List.pairwise_append] at hsorted
    rw [← List.take_append_drop limit (k.rows table cursor), List.mem_append] at hr
    exact hr.imp_right fun hdrop => hsorted.2.2 last (List.mem_of_getLast? hlast) r hdrop
  · exact nomatch hlast

theorem le_of_mem_take {limit : Nat} {table : List ρ} {cursor : Option γ} {r last : ρ}
    (hkeys : (table.map k.key).Nodup) (hlast : k.boundary limit table cursor = some last)
    (hr : r ∈ (k.rows table cursor).take limit) : k.key r ≤ k.key last := by
  unfold boundary at hlast
  split at hlast
  · have hsorted := (k.rows_sorted hkeys cursor).sublist (List.take_sublist limit _)
    obtain ⟨front, hfront⟩ := List.getLast?_eq_some_iff.mp hlast
    rw [hfront] at hr hsorted
    rw [List.mem_append, List.mem_singleton] at hr
    rcases hr with hr | rfl
    · exact ((List.pairwise_append.mp hsorted).2.2 r hr last List.mem_cons_self).le
    · exact le_rfl
  · exact nomatch hlast

theorem boundary_mem {limit : Nat} {table : List ρ} {cursor : Option γ} {last : ρ}
    (hlast : k.boundary limit table cursor = some last) :
    last ∈ (k.rows table cursor).take limit := by
  unfold boundary at hlast
  split at hlast
  · exact List.mem_of_getLast? hlast
  · exact nomatch hlast

/-- A page without a successor holds all that its request reads from. -/
theorem take_of_boundary_none {limit : Nat} {table : List ρ} {cursor : Option γ} (hpos : 0 < limit)
    (hlast : k.boundary limit table cursor = none) :
    (k.rows table cursor).take limit = k.rows table cursor := by
  unfold boundary at hlast
  split at hlast
  · rename_i hlength
    rw [List.getLast?_eq_none_iff, List.take_eq_nil_iff] at hlast
    rcases hlast with h | h
    · omega
    · rw [h] at hlength
      exact absurd hlength (Nat.not_lt_zero _)
  · exact List.take_of_length_le (by omega)

/-! ## Following the cursors -/

/-- What answers the client. -/
def fetch (limit : Nat) (table : List ρ) (cursor : Option γ) : Option (Page ρ γ) :=
  some (k.page limit table cursor)

/-- The rows seen so far are in order, and the cursor was made of the last of them. -/
structure Followed (s : Follower ρ γ) : Prop where
  sorted : s.yielded.Pairwise fun a b => k.key a < k.key b
  first : s.next = some none → s.yielded = []
  cursor : ∀ c, s.next = some (some c) →
    ∃ last, s.yielded.getLast? = some last ∧ c = k.cursorAt last

theorem followed_start : k.Followed .start where
  sorted := List.Pairwise.nil
  first _ := rfl
  cursor _ h := nomatch h

variable {k}

theorem Followed.le_last {s : Follower ρ γ} (hs : k.Followed s) {last r : ρ}
    (hlast : s.yielded.getLast? = some last) (hr : r ∈ s.yielded) : k.key r ≤ k.key last := by
  obtain ⟨front, hfront⟩ := List.getLast?_eq_some_iff.mp hlast
  have hsorted := hs.sorted
  rw [hfront] at hr hsorted
  rw [List.mem_append, List.mem_singleton] at hr
  rcases hr with hr | rfl
  · exact ((List.pairwise_append.mp hsorted).2.2 r hr last List.mem_cons_self).le
  · exact le_rfl

/-- What a request reads from stands behind all that was seen before. -/
theorem Followed.lt_of_mem_rows {s : Follower ρ γ} (hs : k.Followed s) {cursor : Option γ}
    (hnext : s.next = some cursor) {table : List ρ} {a b : ρ} (ha : a ∈ s.yielded)
    (hb : b ∈ k.rows table cursor) : k.key a < k.key b := by
  cases cursor with
  | none =>
    rw [hs.first hnext] at ha
    exact absurd ha List.not_mem_nil
  | some c =>
    obtain ⟨last, hlast, rfl⟩ := hs.cursor c hnext
    have hpasses := (k.mem_rows.mp hb).2 _ rfl
    exact lt_of_le_of_lt (hs.le_last hlast ha) (k.lt_of_passes last b hpasses)

theorem follow_fetch_eq_some {limit : Nat} {s s' : Follower ρ γ} {table : List ρ}
    (h : follow (k.fetch limit) s table = some s') :
    ∃ cursor, s.next = some cursor ∧
      s' = ⟨s.yielded ++ (k.rows table cursor).take limit,
        ((k.boundary limit table cursor).map k.cursorAt).map some⟩ := by
  obtain ⟨cursor, page, hnext, hpage, rfl⟩ := follow_eq_some h
  obtain rfl := Option.some.inj hpage
  exact ⟨cursor, hnext, by rw [page_data, page_nextCursor]⟩

theorem Followed.step {limit : Nat} {s s' : Follower ρ γ} {table : List ρ} (hs : k.Followed s)
    (hkeys : (table.map k.key).Nodup) (h : follow (k.fetch limit) s table = some s') :
    k.Followed s' := by
  obtain ⟨cursor, hnext, rfl⟩ := follow_fetch_eq_some h
  refine ⟨?_, ?_, ?_⟩
  · refine List.pairwise_append.mpr ⟨hs.sorted,
      (k.rows_sorted hkeys cursor).sublist (List.take_sublist _ _), ?_⟩
    intro a ha b hb
    exact hs.lt_of_mem_rows hnext ha (List.mem_of_mem_take hb)
  · intro hfirst
    cases hlast : k.boundary limit table cursor <;> simp [hlast] at hfirst
  · intro c hc
    cases hlast : k.boundary limit table cursor with
    | none => simp [hlast] at hc
    | some last =>
      refine ⟨last, ?_, by simpa [hlast] using hc.symm⟩
      have hmem := hlast
      unfold boundary at hmem
      split at hmem
      · rw [List.getLast?_append, hmem]
        rfl
      · exact nomatch hmem

/-! ## What the cursors hide -/

variable (k)

/-- Every row of the standing keys behind the last row of the page passes the next cursor. -/
def HidesNone (standing : List κ) (limit : Nat) (cursor : Option γ) (table : List ρ) : Prop :=
  ∀ last, k.boundary limit table cursor = some last →
    ∀ r ∈ table, k.key r ∈ standing → k.key last < k.key r → k.passes (k.cursorAt last) r = true

/-- The condition on a request of the client. -/
def RequestHidesNone (standing : List κ) (limit : Nat) (s : Follower ρ γ) (table : List ρ) : Prop :=
  ∀ cursor, s.next = some cursor → k.HidesNone standing limit cursor table

variable {k}

/-- The rows seen later all pass the cursor that is followed now. -/
theorem passes_of_yielded_later {limit : Nat} {c : γ} :
    ∀ {tables : List (List ρ)} {s s' : Follower ρ γ},
      (∀ c', s.next = some (some c') → ∀ r, k.passes c' r = true → k.passes c r = true) →
      s.next ≠ some none → run (follow (k.fetch limit)) s tables = some s' →
      ∀ r ∈ s'.yielded, r ∈ s.yielded ∨ k.passes c r = true
  | [], _, _, _, _, hr, r, h => by
    cases hr
    exact .inl h
  | table :: _, s, s', hc, hfirst, hr, r, h => by
    obtain ⟨s₁, hs₁, hr₁⟩ := run_cons_eq_some.mp hr
    obtain ⟨cursor, hnext, rfl⟩ := follow_fetch_eq_some hs₁
    obtain ⟨c', rfl⟩ : ∃ c', cursor = some c' :=
      Option.ne_none_iff_exists'.mp fun hnone => hfirst (hnone ▸ hnext)
    have hpass := hc c' hnext
    have hrows : ∀ r ∈ (k.rows table (some c')).take limit, k.passes c r = true := fun r hr =>
      hpass r ((k.mem_rows.mp (List.mem_of_mem_take hr)).2 c' rfl)
    have hlater := passes_of_yielded_later (c := c) ?_ ?_ hr₁ r h
    · rcases hlater with hmem | hpasses
      · exact (List.mem_append.mp hmem).imp_right (hrows r)
      · exact .inr hpasses
    · -- the next cursor lies behind a row that passes this one
      intro c'' hc'' r hr
      cases hlast : k.boundary limit table (some c') with
      | none => simp [hlast] at hc''
      | some last =>
        obtain rfl : k.cursorAt last = c'' := by simpa [hlast] using hc''
        exact k.passes_of_le c last r (hrows last (k.boundary_mem hlast))
          (k.lt_of_passes last r hr).le
    · cases hlast : k.boundary limit table (some c') <;> simp

/-- A row that a page hides is never seen. -/
theorem not_mem_yielded_of_hidden {limit : Nat} {tables : List (List ρ)} {s s₁ s' : Follower ρ γ}
    {cursor : Option γ} {table : List ρ} {last r : ρ} (hs : k.Followed s)
    (hkeys : (table.map k.key).Nodup) (hnext : s.next = some cursor)
    (hs₁ : follow (k.fetch limit) s table = some s₁)
    (hlast : k.boundary limit table cursor = some last) (hlt : k.key last < k.key r)
    (hhidden : k.passes (k.cursorAt last) r = false)
    (hr : run (follow (k.fetch limit)) s₁ tables = some s') :
    ∀ r' ∈ s'.yielded, k.key r' ≠ k.key r := by
  intro r' hmem hkey
  obtain ⟨cursor', hnext', rfl⟩ := follow_fetch_eq_some hs₁
  obtain rfl := Option.some.inj (hnext.symm.trans hnext')
  have hlater := passes_of_yielded_later (c := k.cursorAt last) ?_ ?_ hr r' hmem
  · rcases hlater with hseen | hpasses
    · have hle : k.key r' ≤ k.key last := by
        rcases List.mem_append.mp hseen with h | h
        · exact (hs.lt_of_mem_rows hnext h (List.mem_of_mem_take (k.boundary_mem hlast))).le
        · exact k.le_of_mem_take hkeys hlast h
      exact absurd hlt (hkey ▸ hle).not_gt
    · rw [k.passes_of_le _ r' r hpasses hkey.le] at hhidden
      exact nomatch hhidden
  · intro c hc r'' hpass
    obtain rfl : k.cursorAt last = c := by simpa [hlast] using hc
    exact hpass
  · simp [hlast]

/-- Seen, or still to come. -/
def SeenOrAhead (k : Keyset ρ κ γ) (s : Follower ρ γ) (a : κ) : Prop :=
  a ∈ s.yielded.map k.key ∨
    ∃ cursor, s.next = some cursor ∧ ∀ r, k.key r = a → ∀ c, cursor = some c → k.passes c r = true

theorem SeenOrAhead.step {limit : Nat} (hpos : 0 < limit) {s s₁ : Follower ρ γ} {table : List ρ}
    {standing : List κ} (hkeys : (table.map k.key).Nodup)
    (hstanding : ∀ a ∈ standing, a ∈ table.map k.key)
    (hcond : k.RequestHidesNone standing limit s table)
    (h : follow (k.fetch limit) s table = some s₁) (hs : ∀ a ∈ standing, k.SeenOrAhead s a) :
    ∀ a ∈ standing, k.SeenOrAhead s₁ a := by
  intro a ha
  obtain ⟨cursor, hnext, rfl⟩ := follow_fetch_eq_some h
  obtain ⟨r, hr, rfl⟩ := List.mem_map.mp (hstanding a ha)
  rcases hs _ ha with hseen | ⟨cursor', hnext', hahead⟩
  · exact .inl (by rw [List.map_append]; exact List.mem_append_left _ hseen)
  · obtain rfl := Option.some.inj (hnext.symm.trans hnext')
    have hmem : r ∈ k.rows table cursor := k.mem_rows.mpr ⟨hr, hahead r rfl⟩
    cases hlast : k.boundary limit table cursor with
    | none =>
      left
      rw [k.take_of_boundary_none hpos hlast, List.map_append]
      exact List.mem_append_right _ (List.mem_map_of_mem hmem)
    | some last =>
      rcases k.mem_take_or_lt hkeys hlast hmem with htake | hlt
      · exact .inl (by rw [List.map_append]; exact List.mem_append_right _ (List.mem_map_of_mem htake))
      · refine .inr ⟨some (k.cursorAt last), rfl, fun r' hr' c hc => ?_⟩
        cases hc
        have hpasses := hcond cursor hnext last hlast r hr ha hlt
        exact k.passes_of_le _ r r' hpasses hr'.ge

/-- The standing keys are all seen exactly when no page of the run hides one. -/
theorem standing_seen_iff {limit : Nat} (hpos : 0 < limit) {standing : List κ} :
    ∀ {tables : List (List ρ)} {s s' : Follower ρ γ}, k.Followed s →
      (∀ table ∈ tables, (table.map k.key).Nodup ∧ ∀ a ∈ standing, a ∈ table.map k.key) →
      (∀ a ∈ standing, k.SeenOrAhead s a) →
      run (follow (k.fetch limit)) s tables = some s' → s'.next = none →
      ((∀ a ∈ standing, a ∈ s'.yielded.map k.key) ↔
        Meets (follow (k.fetch limit)) (k.RequestHidesNone standing limit) s tables)
  | [], s, s', _, _, hahead, hr, hend => by
    cases hr
    refine ⟨fun _ => trivial, fun _ a ha => ?_⟩
    rcases hahead a ha with h | ⟨cursor, hnext, _⟩
    · exact h
    · exact nomatch hend.symm.trans hnext
  | table :: tables, s, s', hs, htables, hahead, hr, hend => by
    obtain ⟨s₁, hs₁, hr₁⟩ := run_cons_eq_some.mp hr
    obtain ⟨hkeys, hstanding⟩ := htables table List.mem_cons_self
    have hs₁' := hs.step hkeys hs₁
    by_cases hcond : k.RequestHidesNone standing limit s table
    · have hrest := standing_seen_iff hpos hs₁' (fun t ht => htables t (List.mem_cons_of_mem _ ht))
        (SeenOrAhead.step hpos hkeys hstanding hcond hs₁ hahead) hr₁ hend
      refine hrest.trans ⟨fun h => ⟨hcond, fun s₂ hs₂ => ?_⟩, fun h => h.2 s₁ hs₁⟩
      obtain rfl := Option.some.inj (hs₁.symm.trans hs₂)
      exact h
    · refine ⟨fun hall => absurd ?_ hcond, fun h => absurd h.1 hcond⟩
      intro cursor hnext last hlast r hr ha hlt
      by_contra hhidden
      obtain ⟨r', hr', hkey⟩ := List.mem_map.mp (hall _ ha)
      exact not_mem_yielded_of_hidden hs hkeys hnext hs₁ hlast hlt
        (Bool.not_eq_true _ ▸ hhidden) hr₁ r' hr' hkey

/-! ## The rows that stay -/

variable (k)

/-- The keys that every table has, in order. -/
def standingKeys : List (List ρ) → List κ
  | [] => []
  | table :: tables =>
    ((table.map k.key).filter fun a => tables.all fun t => a ∈ t.map k.key).insertionSort (· ≤ ·)

variable {k}

theorem mem_standingKeys {tables : List (List ρ)} {a : κ} (ha : a ∈ k.standingKeys tables) :
    ∀ table ∈ tables, a ∈ table.map k.key := by
  cases tables with
  | nil => exact absurd ha List.not_mem_nil
  | cons first rest =>
    unfold standingKeys at ha
    rw [List.mem_insertionSort, List.mem_filter, List.all_eq_true] at ha
    intro table htable
    rcases List.mem_cons.mp htable with rfl | hrest
    · exact ha.1
    · exact of_decide_eq_true (ha.2 table hrest)

theorem standingKeys_sorted {tables : List (List ρ)}
    (hkeys : ∀ table ∈ tables, (table.map k.key).Nodup) :
    (k.standingKeys tables).Pairwise (· < ·) := by
  cases tables with
  | nil => exact List.Pairwise.nil
  | cons first rest =>
    have hle := List.pairwise_insertionSort (· ≤ ·)
      ((first.map k.key).filter fun a => rest.all fun t => a ∈ t.map k.key)
    have hne : (k.standingKeys (first :: rest)).Nodup :=
      (List.perm_insertionSort _ _).nodup_iff.mpr
        ((hkeys first List.mem_cons_self).sublist List.filter_sublist)
    exact (hle.and hne).imp fun h => lt_of_le_of_ne h.1 h.2

/-- What was seen was read from one of the tables. -/
theorem exists_table_of_yielded {limit : Nat} {r : ρ} :
    ∀ {tables : List (List ρ)} {s s' : Follower ρ γ},
      run (follow (k.fetch limit)) s tables = some s' → r ∈ s'.yielded →
      r ∈ s.yielded ∨ ∃ table ∈ tables, r ∈ table
  | [], _, _, hr, h => by
    cases hr
    exact .inl h
  | table :: tables, s, s', hr, h => by
    obtain ⟨s₁, hs₁, hr₁⟩ := run_cons_eq_some.mp hr
    obtain ⟨cursor, _, rfl⟩ := follow_fetch_eq_some hs₁
    rcases exists_table_of_yielded hr₁ h with hmem | ⟨t, ht, hrt⟩
    · rcases List.mem_append.mp hmem with hseen | hnew
      · exact .inl hseen
      · exact .inr ⟨table, List.mem_cons_self, (k.mem_rows.mp (List.mem_of_mem_take hnew)).1⟩
    · exact .inr ⟨t, List.mem_cons_of_mem _ ht, hrt⟩

theorem followed_of_run {limit : Nat} {tables : List (List ρ)} {s s' : Follower ρ γ}
    (hs : k.Followed s) (hkeys : ∀ table ∈ tables, (table.map k.key).Nodup)
    (hr : run (follow (k.fetch limit)) s tables = some s') : k.Followed s' := by
  induction tables generalizing s with
  | nil =>
    cases hr
    exact hs
  | cons table tables ih =>
    obtain ⟨s₁, hs₁, hr₁⟩ := run_cons_eq_some.mp hr
    exact ih (hs.step (hkeys table List.mem_cons_self) hs₁)
      (fun t ht => hkeys t (List.mem_cons_of_mem _ ht)) hr₁

/-- The ids stand in the order of their keys, each of them once. -/
structure YieldsEach {κ ι : Type} [DecidableEq ι] (idOf : κ → ι) (standing : List κ)
    (ids : List ι) : Prop where
  inOrder : (standing.map idOf).Sublist ids
  once : ∀ a ∈ standing, ids.count (idOf a) = 1

section Ids

variable {ι : Type} {idOf : κ → ι}

theorem nodup_keys_of_ids {table : List ρ} (h : (table.map fun r => idOf (k.key r)).Nodup) :
    (table.map k.key).Nodup := by
  have hmap : (table.map fun r => idOf (k.key r)) = (table.map k.key).map idOf := by simp
  rw [hmap] at h
  exact List.Nodup.of_map idOf h

/-- A row with the id of a standing key has that key: both are in one table. -/
theorem key_eq_of_id {limit : Nat} {tables : List (List ρ)} {s : Follower ρ γ}
    (hids : ∀ table ∈ tables, (table.map fun r => idOf (k.key r)).Nodup)
    (hr : run (follow (k.fetch limit)) .start tables = some s) {r : ρ} (hmem : r ∈ s.yielded)
    {a : κ} (ha : a ∈ k.standingKeys tables) (hid : idOf (k.key r) = idOf a) : k.key r = a := by
  rcases exists_table_of_yielded hr hmem with h | ⟨table, htable, hrt⟩
  · exact absurd h List.not_mem_nil
  · obtain ⟨r', hr', rfl⟩ := List.mem_map.mp (mem_standingKeys ha table htable)
    rw [List.inj_on_of_nodup_map (hids table htable) hrt hr' hid]

variable [DecidableEq ι]

theorem yieldsEach_iff_seen {limit : Nat} {tables : List (List ρ)} {s : Follower ρ γ}
    (hids : ∀ table ∈ tables, (table.map fun r => idOf (k.key r)).Nodup)
    (hr : run (follow (k.fetch limit)) .start tables = some s) :
    YieldsEach idOf (k.standingKeys tables) (s.yielded.map fun r => idOf (k.key r)) ↔
      ∀ a ∈ k.standingKeys tables, a ∈ s.yielded.map k.key := by
  have hkeys := fun table htable => nodup_keys_of_ids (k := k) (hids table htable)
  have hsorted := (followed_of_run k.followed_start hkeys hr).sorted
  have hnodup : (s.yielded.map k.key).Nodup :=
    (List.pairwise_map.mpr hsorted).imp ne_of_lt
  constructor
  · intro h a ha
    obtain ⟨r, hmem, hid⟩ := List.mem_map.mp
      (h.inOrder.subset (List.mem_map_of_mem (f := idOf) ha))
    exact List.mem_map.mpr ⟨r, hmem, key_eq_of_id hids hr hmem ha hid⟩
  · intro h
    refine ⟨?_, fun a ha => ?_⟩
    · have hstanding := standingKeys_sorted hkeys
      have hsub : (k.standingKeys tables).Sublist (s.yielded.map k.key) :=
        List.sublist_of_subperm_of_pairwise
          (List.subperm_of_subset (hstanding.imp ne_of_lt) h)
          (hstanding.imp le_of_lt) ((List.pairwise_map.mpr hsorted).imp le_of_lt)
      simpa [Function.comp_def] using hsub.map idOf
    · -- the rows with this id are the rows with this key
      have hcount : (s.yielded.map fun r => idOf (k.key r)).count (idOf a) =
          (s.yielded.map k.key).count a := by
        simp only [List.count, List.countP_map]
        refine List.countP_congr fun r hmem => ?_
        simp only [Function.comp_apply, beq_iff_eq]
        exact ⟨fun hid => key_eq_of_id hids hr hmem ha hid, fun hkey => by rw [hkey]⟩
      rw [hcount]
      exact List.count_eq_one_of_mem hnodup (h a ha)

/--
The client sees every row that stays, once and in order, exactly when no page of the run hides one.
-/
theorem yieldsStanding_iff {limit : Nat} (hpos : 0 < limit) {tables : List (List ρ)}
    {s : Follower ρ γ} (hids : ∀ table ∈ tables, (table.map fun r => idOf (k.key r)).Nodup)
    (hr : run (follow (k.fetch limit)) .start tables = some s) (hend : s.next = none) :
    YieldsEach idOf (k.standingKeys tables) (s.yielded.map fun r => idOf (k.key r)) ↔
      Meets (follow (k.fetch limit)) (k.RequestHidesNone (k.standingKeys tables) limit) .start
        tables := by
  rw [yieldsEach_iff_seen hids hr]
  refine standing_seen_iff hpos k.followed_start (fun table htable => ?_) (fun a _ => ?_) hr hend
  · exact ⟨nodup_keys_of_ids (hids table htable), fun a ha => mem_standingKeys ha table htable⟩
  · exact .inr ⟨none, rfl, fun _ _ _ h => nomatch h⟩

end Ids

/-! ## Coming to an end -/

/-- The rows that a client has still to ask for. -/
def remaining (k : Keyset ρ κ γ) (table : List ρ) (s : Follower ρ γ) : Nat :=
  match s.next with
  | none => 0
  | some cursor => (k.rows table cursor).length + 1

theorem length_rows_lt {limit : Nat} {table : List ρ} {cursor : Option γ} {last : ρ}
    (hlast : k.boundary limit table cursor = some last) :
    (k.rows table (some (k.cursorAt last))).length < (k.rows table cursor).length := by
  have hmem := k.mem_rows.mp (List.mem_of_mem_take (k.boundary_mem hlast))
  have hlt : ∀ r, k.passes (k.cursorAt last) r = true → cursor.all (k.passes · r) = true := by
    intro r hr
    cases cursor with
    | none => rfl
    | some c => exact k.passes_of_le c last r (hmem.2 c rfl) (k.lt_of_passes last r hr).le
  have hfilter : table.filter (k.passes (k.cursorAt last)) =
      (table.filter fun r => cursor.all (k.passes · r)).filter (k.passes (k.cursorAt last)) := by
    rw [List.filter_filter]
    refine List.filter_congr fun r _ => ?_
    cases hr : k.passes (k.cursorAt last) r with
    | false => simp
    | true => simp [hlt r hr]
  simp only [rows, List.length_insertionSort, Option.all_some]
  rw [hfilter, List.length_filter_lt_length_iff_exists]
  -- the row itself passes the old cursor and not the one made of it
  refine ⟨last, List.mem_filter.mpr ⟨hmem.1, ?_⟩, fun hpasses => ?_⟩
  · cases cursor with
    | none => rfl
    | some c => exact hmem.2 c rfl
  · exact lt_irrefl _ (k.lt_of_passes last last hpasses)

/-- Asked often enough of one table, the client comes to an end. -/
theorem follow_finishes (k : Keyset ρ κ γ) (limit : Nat) (table : List ρ) :
    ∀ (n : Nat) (s : Follower ρ γ), k.remaining table s ≤ n →
      ∃ m s', run (follow (k.fetch limit)) s (List.replicate m table) = some s' ∧ s'.next = none
  | n, s, hn => by
    cases hnext : s.next with
    | none => exact ⟨0, s, rfl, hnext⟩
    | some cursor =>
      cases n with
      | zero => simp [remaining, hnext] at hn
      | succ n =>
        have hstep : follow (k.fetch limit) s table =
            some ⟨s.yielded ++ (k.page limit table cursor).data,
              (k.page limit table cursor).nextCursor.map some⟩ := by
          simp [follow, hnext, fetch]
        have hrest : k.remaining table ⟨s.yielded ++ (k.page limit table cursor).data,
            (k.page limit table cursor).nextCursor.map some⟩ ≤ n := by
          rw [page_nextCursor]
          cases hlast : k.boundary limit table cursor with
          | none => exact Nat.zero_le n
          | some last =>
            have hlt := length_rows_lt hlast
            simp only [remaining, hnext, Option.map_some] at hn ⊢
            omega
        obtain ⟨m, s', hr, hend⟩ := follow_finishes k limit table n _ hrest
        exact ⟨m + 1, s', run_cons_eq_some.mpr ⟨_, hstep, hr⟩, hend⟩

end Keyset

end Infra
