import Mathlib.Data.List.Lex
import Kommunsign.Infra.JsonRoundtrip

/-!
# JSON as the database stores it

A `jsonb` value keeps no order of its members: they come back shorter names first, and names of one
length in the order of their bytes.

* `stored` — the value as it is read back
* `WellNamed` — no object has a name twice
-/

namespace Infra.Json

/-- The length of a character in UTF-8. -/
def utf8Length (c : Char) : Nat :=
  if c.toNat < 0x80 then 1 else if c.toNat < 0x800 then 2 else if c.toNat < 0x10000 then 3 else 4

def byteLength (s : Text) : Nat := (s.map utf8Length).sum

/-- UTF-8 keeps the order of code points. -/
def codesLe : Text → Text → Bool
  | [], _ => true
  | _ :: _, [] => false
  | a :: as, b :: bs => if a = b then codesLe as bs else decide (a.toNat < b.toNat)

/-- Shorter names first. -/
def storedLe (a b : Text × Json) : Prop :=
  byteLength a.1 < byteLength b.1 ∨ byteLength a.1 = byteLength b.1 ∧ codesLe a.1 b.1 = true

instance (a b : Text × Json) : Decidable (storedLe a b) := inferInstanceAs (Decidable (_ ∨ _))

mutual

def stored : Json → Json
  | .arr items => .arr (storedItems items)
  | .obj members => .obj ((storedMembers members).insertionSort storedLe)
  | .null => .null
  | .bool b => .bool b
  | .num n => .num n
  | .str s => .str s

def storedItems : List Json → List Json
  | [] => []
  | item :: items => stored item :: storedItems items

def storedMembers : List (Text × Json) → List (Text × Json)
  | [] => []
  | (name, value) :: members => (name, stored value) :: storedMembers members

end

mutual

/-- No object has a name twice, at any depth: an object of the source cannot. -/
def WellNamed : Json → Prop
  | .arr items => WellNamedItems items
  | .obj members => (members.map (·.1)).Nodup ∧ WellNamedMembers members
  | _ => True

def WellNamedItems : List Json → Prop
  | [] => True
  | item :: items => WellNamed item ∧ WellNamedItems items

def WellNamedMembers : List (Text × Json) → Prop
  | [] => True
  | (_, value) :: members => WellNamed value ∧ WellNamedMembers members

end

theorem storedMembers_eq_map (members : List (Text × Json)) :
    storedMembers members = members.map fun m => (m.1, stored m.2) := by
  induction members with
  | nil => rfl
  | cons m members ih =>
    obtain ⟨name, value⟩ := m
    rw [storedMembers, ih, List.map_cons]

/-! ## The order of names -/

theorem unitsLe_iff : ∀ {as bs : List Nat}, unitsLe as bs = true ↔ as ≤ bs
  | [], [] => by simp [unitsLe]
  | [], b :: bs => by
    simp [unitsLe, (List.nil_lt_cons b bs).le]
  | a :: as, [] => by
    simp [unitsLe, List.nil_lt_cons a as]
  | a :: as, b :: bs => by
    unfold unitsLe
    rw [← not_lt, List.cons_lt_cons_iff, not_or, not_and, not_lt]
    by_cases h : a = b
    · subst h
      rw [if_pos rfl, unitsLe_iff]
      simp
    · rw [if_neg h, decide_eq_true_eq]
      omega

/-- A character is read off the units that begin with its own. -/
theorem utf16Units_append_inj {a b : Char} {as bs : List Nat}
    (h : utf16Units a ++ as = utf16Units b ++ bs) : a = b ∧ as = bs := by
  have hvalid : ∀ c : Char, c.toNat < 0xD800 ∨ 0xDFFF < c.toNat ∧ c.toNat < 0x110000 := by
    intro c
    exact c.valid
  have ha := hvalid a
  have hb := hvalid b
  unfold utf16Units at h
  split at h <;> split at h <;> simp only [List.cons_append, List.nil_append, List.cons.injEq] at h
  · exact ⟨Char.toNat_inj.mp h.1, h.2⟩
  · omega
  · omega
  · refine ⟨Char.toNat_inj.mp ?_, h.2.2⟩
    omega

theorem utf16_cons_ne_nil (c : Char) (s : Text) : utf16 (c :: s) ≠ [] := by
  rw [utf16, List.flatMap_cons]
  unfold utf16Units
  split <;> simp

theorem utf16_injective : Function.Injective utf16 := by
  intro s
  induction s with
  | nil =>
    intro t h
    cases t with
    | nil => rfl
    | cons b t =>
      exact absurd h.symm (utf16_cons_ne_nil b t)
  | cons a s ih =>
    intro t h
    cases t with
    | nil =>
      exact absurd h (utf16_cons_ne_nil a s)
    | cons b t =>
      simp only [utf16, List.flatMap_cons] at h
      obtain ⟨rfl, hrest⟩ := utf16Units_append_inj h
      rw [ih hrest]

instance : Std.Total nameLe where
  total a b := by
    simp only [nameLe, unitsLe_iff]
    exact le_total _ _

instance : IsTrans (Text × Json) nameLe where
  trans a b c hab hbc := by
    simp only [nameLe, unitsLe_iff] at hab hbc ⊢
    exact le_trans hab hbc

theorem name_eq_of_nameLe {a b : Text × Json} (hab : nameLe a b) (hba : nameLe b a) : a.1 = b.1 := by
  simp only [nameLe, unitsLe_iff] at hab hba
  exact utf16_injective (le_antisymm hab hba)

/-- Members with distinct names have one sorted order. -/
theorem sort_eq_of_perm {members members' : List (Text × Json)}
    (hnames : (members.map (·.1)).Nodup) (h : members.Perm members') :
    members.insertionSort nameLe = members'.insertionSort nameLe := by
  have hperm : (members.insertionSort nameLe).Perm (members'.insertionSort nameLe) :=
    ((List.perm_insertionSort _ _).trans h).trans (List.perm_insertionSort _ _).symm
  refine hperm.eq_of_pairwise (fun a b ha hb hab hba => ?_)
    (List.pairwise_insertionSort _ _) (List.pairwise_insertionSort _ _)
  have ha' := (List.mem_insertionSort _).mp ha
  have hb' := h.mem_iff.mpr ((List.mem_insertionSort _).mp hb)
  exact List.inj_on_of_nodup_map hnames ha' hb' (name_eq_of_nameLe hab hba)

/-! ## What storing keeps -/

mutual

/-- The canonical form does not depend on the order that is lost. -/
theorem canonical_stored : ∀ {j : Json}, WellNamed j → canonical (stored j) = canonical j
  | .arr items, h => by
    rw [stored, canonical, canonical, canonicalItems_stored h]
  | .obj members, h => by
    obtain ⟨hnames, hmembers⟩ := h
    have hperm := (List.perm_insertionSort storedLe (storedMembers members))
    rw [stored, canonical, canonical, Json.obj.injEq, ← canonicalMembers_stored hmembers,
      canonicalMembers_eq_map, canonicalMembers_eq_map]
    refine sort_eq_of_perm ?_ (hperm.map _)
    rw [List.map_map]
    have hmap : (storedMembers members).map (·.1) = members.map (·.1) := by
      rw [storedMembers_eq_map, List.map_map]
      rfl
    exact ((hperm.map (·.1)).nodup_iff).mpr (hmap ▸ hnames)
  | .null, _ => rfl
  | .bool _, _ => rfl
  | .num _, _ => rfl
  | .str _, _ => rfl

theorem canonicalItems_stored : ∀ {items : List Json}, WellNamedItems items →
    canonicalItems (storedItems items) = canonicalItems items
  | [], _ => rfl
  | item :: items, h => by
    rw [storedItems, canonicalItems, canonicalItems, canonical_stored h.1,
      canonicalItems_stored h.2]

theorem canonicalMembers_stored : ∀ {members : List (Text × Json)}, WellNamedMembers members →
    canonicalMembers (storedMembers members) = canonicalMembers members
  | [], _ => rfl
  | (name, value) :: members, h => by
    rw [storedMembers, canonicalMembers, canonicalMembers, canonical_stored h.1,
      canonicalMembers_stored h.2]

end

end Infra.Json
