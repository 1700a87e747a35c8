import Kommunsign.Federation.Assertions
import Kommunsign.Infra.JsonStored
import Kommunsign.Infra.Lists
import Kommunsign.Scim.Users

/-!
# The roles that groups are resolved to

A login and a directory look the groups up as members of a plain object. A group that has no entry
grants nothing, unless it bears the name of a member that every object has: then it is taken for one
whose role may not be assigned, and the login or the request fails.

* `gatherRoles` — the loop that both have in common
* `groupRoles_iff` — the same of the login and of the directory
* `not_resolvesRoles_toString` — a group that is named `toString`
-/

namespace Kommunsign

open Infra

section Law

variable {α γ ε : Type} (groups : α → List γ) (own : γ → Option String) (assignable : List String)

def Permitted (input : α) : Prop :=
  ∀ group ∈ groups input, ∀ role, own group = some role → role ∈ assignable

/-- `ready`: what is asked of the input besides. -/
structure ResolvesRoles (ready : α → Prop) (resolve : α → Option (List String)) (input : α) :
    Prop where
  exactly : ∀ roles, resolve input = some roles →
    ∀ role, role ∈ roles ↔ ∃ group ∈ groups input, own group = some role
  within : ∀ roles, resolve input = some roles → ∀ role ∈ roles, role ∈ assignable
  /-- Order, repetition and groups without an entry make no difference. -/
  settled : ∀ input', (∀ group, (own group).isSome = true →
      (group ∈ groups input' ↔ group ∈ groups input)) →
    ∀ roles roles', resolve input = some roles → resolve input' = some roles' → roles' = roles
  succeeds : (resolve input).isSome = true ↔ ready input ∧ Permitted groups own assignable input

/-! ## The loop -/

def gatherRoles (roleOf : γ → Except ε (Option String)) (roles : List String) :
    List γ → Except ε (List String)
  | [] => return roles
  | group :: groups => do
    match ← roleOf group with
    | none => gatherRoles roleOf roles groups
    | some role =>
      gatherRoles roleOf (if roles.contains role then roles else roles ++ [role]) groups

/-- A group is granted its own role if that may be assigned, and ignored if its name says nothing. -/
structure LooksUp (builtIn : γ → Bool) (roleOf : γ → Except ε (Option String)) : Prop where
  granted : ∀ group role, roleOf group = .ok (some role) ↔ own group = some role ∧ role ∈ assignable
  ignored : ∀ group, roleOf group = .ok none ↔ own group = none ∧ builtIn group = false

variable {groups own assignable} {roleOf : γ → Except ε (Option String)} {builtIn : γ → Bool}
  {roles result : List String} {listed : List γ}

theorem gatherRoles_cons {group : γ} : gatherRoles roleOf roles (group :: listed) = .ok result ↔
    ∃ role?, roleOf group = .ok role? ∧ gatherRoles roleOf
      (role?.elim roles fun role => if roles.contains role then roles else roles ++ [role])
        listed = .ok result := by
  rw [gatherRoles, except_bind_eq_ok]
  refine exists_congr fun role? => and_congr_right fun _ => ?_
  cases role? <;> rfl

theorem mem_withRole {role role' : String} :
    role' ∈ (if roles.contains role then roles else roles ++ [role]) ↔
      role' ∈ roles ∨ role' = role := by
  split
  · rename_i hmem
    refine ⟨Or.inl, ?_⟩
    rintro (h | rfl)
    · exact h
    · exact List.contains_iff_mem.mp hmem
  · rw [List.mem_append, List.mem_singleton]

theorem nodup_withRole {role : String} (h : roles.Nodup) :
    (if roles.contains role then roles else roles ++ [role]).Nodup := by
  split
  · exact h
  · rename_i hmem
    refine List.nodup_append.mpr ⟨h, List.nodup_singleton role, ?_⟩
    rintro a ha b hb rfl
    rw [List.mem_singleton.mp hb] at ha
    exact hmem (List.contains_iff_mem.mpr ha)

theorem exists_gatherRoles : (∃ result, gatherRoles roleOf roles listed = .ok result) ↔
    ∀ group ∈ listed, ∃ role?, roleOf group = .ok role? := by
  induction listed generalizing roles with
  | nil => exact ⟨fun _ _ h => absurd h List.not_mem_nil, fun _ => ⟨roles, rfl⟩⟩
  | cons group listed ih =>
    simp only [gatherRoles_cons, List.forall_mem_cons]
    constructor
    · rintro ⟨result, role?, hrole, hrest⟩
      exact ⟨⟨role?, hrole⟩, ih.mp ⟨result, hrest⟩⟩
    · rintro ⟨⟨role?, hrole⟩, hrest⟩
      obtain ⟨result, hresult⟩ := ih.mpr hrest
      exact ⟨result, role?, hrole, hresult⟩

theorem mem_gatherRoles (h : gatherRoles roleOf roles listed = .ok result) {role : String} :
    role ∈ result ↔ role ∈ roles ∨ ∃ group ∈ listed, roleOf group = .ok (some role) := by
  induction listed generalizing roles with
  | nil =>
    cases h
    exact ⟨Or.inl, fun h => h.elim id fun ⟨_, hmem, _⟩ => absurd hmem List.not_mem_nil⟩
  | cons group listed ih =>
    obtain ⟨role?, hrole, hrest⟩ := gatherRoles_cons.mp h
    rw [ih hrest, List.exists_mem_cons_iff, hrole]
    cases role? with
    | none => simp
    | some role' =>
      rw [Option.elim_some, mem_withRole, or_assoc, Except.ok.injEq, Option.some.injEq, eq_comm]

theorem nodup_gatherRoles (h : gatherRoles roleOf roles listed = .ok result)
    (hroles : roles.Nodup) : result.Nodup := by
  induction listed generalizing roles with
  | nil =>
    cases h
    exact hroles
  | cons group listed ih =>
    obtain ⟨role?, -, hrest⟩ := gatherRoles_cons.mp h
    refine ih hrest ?_
    cases role? with
    | none => exact hroles
    | some role => exact nodup_withRole hroles

theorem sortStrings_eq {strings strings' : List String} (h : strings.Nodup) (h' : strings'.Nodup)
    (hmem : ∀ s, s ∈ strings' ↔ s ∈ strings) : sortStrings strings' = sortStrings strings := by
  unfold sortStrings
  refine insertionSort_eq_of_perm (fun a b => ?_) (fun a b c hab hbc => ?_)
    ((List.perm_ext_iff_of_nodup h' h).mpr hmem) fun a _ b _ hab hba => ?_
  · rw [Json.unitsLe_iff, Json.unitsLe_iff]
    exact le_total _ _
  · rw [Json.unitsLe_iff] at hab hbc ⊢
    exact hab.trans hbc
  · rw [Json.unitsLe_iff] at hab hba
    exact String.toList_inj.mp (Json.utf16_injective (le_antisymm hab hba))

/-! ## The law -/

theorem LooksUp.exists_ok_iff (h : LooksUp own assignable builtIn roleOf) {group : γ} :
    (∃ role?, roleOf group = .ok role?) ↔ (∀ role, own group = some role → role ∈ assignable) ∧
      (own group = none → builtIn group = false) := by
  constructor
  · rintro ⟨role?, hrole⟩
    cases role? with
    | none =>
      obtain ⟨hown, hname⟩ := (h.ignored group).mp hrole
      exact ⟨fun role hown' => (nomatch hown.symm.trans hown'), fun _ => hname⟩
    | some role =>
      obtain ⟨hown, hassignable⟩ := (h.granted group role).mp hrole
      refine ⟨fun role' hown' => ?_, fun hnone => nomatch hown.symm.trans hnone⟩
      obtain rfl := Option.some.inj (hown.symm.trans hown')
      exact hassignable
  · rintro ⟨hassignable, hname⟩
    cases hown : own group with
    | none => exact ⟨none, (h.ignored group).mpr ⟨hown, hname hown⟩⟩
    | some role => exact ⟨some role, (h.granted group role).mpr ⟨hown, hassignable role hown⟩⟩

theorem looksUp_of_eq (refused : γ → String → ε) (denied : γ → ε)
    (h : ∀ group, roleOf group = match own group with
      | some role =>
        if assignable.contains role then pure (some role) else throw (refused group role)
      | none => if builtIn group then throw (denied group) else pure none) :
    LooksUp own assignable builtIn roleOf where
  granted group role := by
    rw [h group]
    cases own group with
    | none =>
      dsimp only
      split
      · exact ⟨nofun, nofun⟩
      · exact ⟨nofun, nofun⟩
    | some role' =>
      dsimp only
      split
      · rename_i hmem
        refine ⟨fun heq => ?_, ?_⟩
        · cases heq
          exact ⟨rfl, List.contains_iff_mem.mp hmem⟩
        · rintro ⟨heq, -⟩
          cases heq
          rfl
      · rename_i hmem
        refine ⟨nofun, ?_⟩
        rintro ⟨heq, hrole⟩
        cases heq
        exact absurd (List.contains_iff_mem.mpr hrole) hmem
  ignored group := by
    rw [h group]
    cases own group with
    | none =>
      dsimp only
      split
      · rename_i hname
        exact ⟨nofun, fun hnot => nomatch hname.symm.trans hnot.2⟩
      · rename_i hname
        exact ⟨fun _ => ⟨rfl, Bool.eq_false_iff.mpr hname⟩, fun _ => rfl⟩
    | some role =>
      dsimp only
      split
      · exact ⟨nofun, nofun⟩
      · exact ⟨nofun, nofun⟩

variable {ready : α → Prop} {resolve : α → Option (List String)} {input : α}

def ResolvesBy (groups : α → List γ) (roleOf : γ → Except ε (Option String)) (ready : α → Prop)
    (resolve : α → Option (List String)) : Prop :=
  ∀ input roles, resolve input = some roles ↔ ready input ∧
    ∃ gathered, gatherRoles roleOf [] (groups input) = .ok gathered ∧ roles = sortStrings gathered

theorem ResolvesBy.isSome_iff (h : ResolvesBy groups roleOf ready resolve) :
    (resolve input).isSome = true ↔
      ready input ∧ ∀ group ∈ groups input, ∃ role?, roleOf group = .ok role? := by
  have hall : (∃ gathered, gatherRoles roleOf [] (groups input) = .ok gathered) ↔
      ∀ group ∈ groups input, ∃ role?, roleOf group = .ok role? := exists_gatherRoles
  rw [Option.isSome_iff_exists, ← hall]
  constructor
  · rintro ⟨roles, hroles⟩
    obtain ⟨hready, gathered, hgathered, -⟩ := (h input roles).mp hroles
    exact ⟨hready, gathered, hgathered⟩
  · rintro ⟨hready, gathered, hgathered⟩
    exact ⟨_, (h input _).mpr ⟨hready, gathered, hgathered, rfl⟩⟩

theorem ResolvesBy.mem_iff (h : ResolvesBy groups roleOf ready resolve)
    (hlooks : LooksUp own assignable builtIn roleOf) {roles : List String}
    (hroles : resolve input = some roles) {role : String} :
    role ∈ roles ↔ ∃ group ∈ groups input, own group = some role := by
  obtain ⟨-, gathered, hgathered, rfl⟩ := (h input roles).mp hroles
  have hall := exists_gatherRoles.mp ⟨gathered, hgathered⟩
  rw [mem_sortStrings, mem_gatherRoles hgathered, or_iff_right List.not_mem_nil]
  refine exists_congr fun group => and_congr_right fun hgroup => ?_
  rw [hlooks.granted]
  -- a group that has been looked up may be granted the role it has
  exact ⟨And.left, fun hown => ⟨hown, (hlooks.exists_ok_iff.mp (hall group hgroup)).1 role hown⟩⟩

theorem resolvesRoles_iff (hlooks : LooksUp own assignable builtIn roleOf)
    (h : ResolvesBy groups roleOf ready resolve) :
    ResolvesRoles groups own assignable ready resolve input ↔
      (ready input → Permitted groups own assignable input →
        ∀ group ∈ groups input, own group = none → builtIn group = false) := by
  constructor
  · intro hlaw hready hpermitted group hgroup hown
    obtain ⟨-, hall⟩ := h.isSome_iff.mp (hlaw.succeeds.mpr ⟨hready, hpermitted⟩)
    exact (hlooks.exists_ok_iff.mp (hall group hgroup)).2 hown
  · intro hnames
    refine ⟨fun roles hroles role => h.mem_iff hlooks hroles, ?_, ?_, ?_⟩
    · intro roles hroles role hrole
      obtain ⟨group, hgroup, hown⟩ := (h.mem_iff hlooks hroles).mp hrole
      obtain ⟨-, hall⟩ := h.isSome_iff.mp (Option.isSome_iff_exists.mpr ⟨roles, hroles⟩)
      exact (hlooks.exists_ok_iff.mp (hall group hgroup)).1 role hown
    · intro input' hsame roles roles' hroles hroles'
      have hmem : ∀ role, role ∈ roles' ↔ role ∈ roles := by
        intro role
        rw [h.mem_iff hlooks hroles, h.mem_iff hlooks hroles']
        refine exists_congr fun group => and_congr_left fun hown => hsame group ?_
        rw [hown, Option.isSome_some]
      obtain ⟨-, gathered, hgathered, rfl⟩ := (h input roles).mp hroles
      obtain ⟨-, gathered', hgathered', rfl⟩ := (h input' roles').mp hroles'
      refine sortStrings_eq (nodup_gatherRoles hgathered List.nodup_nil)
        (nodup_gatherRoles hgathered' List.nodup_nil) fun role => ?_
      exact mem_sortStrings.symm.trans ((hmem role).trans mem_sortStrings)
    · rw [h.isSome_iff]
      refine and_congr_right fun hready => ⟨fun hall group hgroup => ?_, fun hpermitted => ?_⟩
      · exact (hlooks.exists_ok_iff.mp (hall group hgroup)).1
      · intro group hgroup
        exact hlooks.exists_ok_iff.mpr
          ⟨hpermitted group hgroup, hnames hready hpermitted group hgroup⟩

end Law

/-! ## Both implementations -/

def FederationConfig.mapped (config : FederationConfig) (group : String) : Option String :=
  (config.groupToRole.find? (·.1 == group)).map (·.2)

def ScimContext.mapped (context : ScimContext) (group : Text) : Option String :=
  (context.groupToRole.find? (·.1 == group)).map (·.2)

def FederationConfig.listed (config : FederationConfig) (assertion : WorkforceAssertion) :
    List String :=
  (attributeValues assertion config.groupsAttribute).getD []

def FederationConfig.Identifies (config : FederationConfig) (assertion : WorkforceAssertion) :
    Prop :=
  isBlank (((attributeValues assertion config.subjectAttribute).bind (·.head?)).getD
    assertion.subject) = false ∧ ∃ group ∈ config.listed assertion, (config.mapped group).isSome = true

def federatedRoles (config : FederationConfig) (binding : FederationRequestBinding)
    (assertion : WorkforceAssertion) : Option (List String) :=
  ((mapWorkforceIdentity assertion config binding).toOption).map (·.roles)

section Implementations

variable {config : FederationConfig} {binding : FederationRequestBinding} {context : ScimContext}

theorem looksUp_roleOfGroup : LooksUp config.mapped config.assignableRoles
    (fun group => objectPrototype.contains group) (roleOfGroup config) := by
  refine looksUp_of_eq roleOutOfScope (roleOutOfScope · "of no name") fun group => ?_
  unfold roleOfGroup FederationConfig.mapped
  cases config.groupToRole.find? (·.1 == group) <;> rfl

theorem rolesOfGroups_eq (roles : List String) (groups : List String) :
    rolesOfGroups config roles groups = gatherRoles (roleOfGroup config) roles groups := by
  induction groups generalizing roles with
  | nil => rfl
  | cons group groups ih =>
    rw [rolesOfGroups, gatherRoles]
    congr 1
    funext role?
    cases role? with
    | none => exact ih roles
    | some role => exact ih _

theorem looksUp_mappedRole : LooksUp context.mapped context.assignableRoles
    (fun group => objectPrototype.contains (String.ofList group)) (mappedRole context) := by
  refine looksUp_of_eq
    (fun group role => roleNotAssignable ("Group " ++ String.ofList group ++ " maps to role " ++
      role ++ ", which this provisioning client may not assign"))
    (fun group => roleNotAssignable ("Group " ++ String.ofList group ++
      " maps to a role which this provisioning client may not assign")) fun group => ?_
  unfold mappedRole ScimContext.mapped
  cases context.groupToRole.find? (·.1 == group) <;> rfl

theorem resolveGroups_eq (roles : List String) (groups : List Text) :
    resolveGroups context roles groups = gatherRoles (mappedRole context) roles groups := by
  induction groups generalizing roles with
  | nil => rfl
  | cons group groups ih =>
    rw [resolveGroups, gatherRoles]
    congr 1
    funext role?
    cases role? with
    | none => exact ih roles
    | some role => exact ih _

theorem resolvesBy_resolveScimRoles : ResolvesBy id (mappedRole context) (fun _ => True)
    (fun groups => (resolveScimRoles context groups).toOption) := by
  intro groups roles
  dsimp only [id]
  rw [true_and, ← resolveGroups_eq, resolveScimRoles]
  cases resolveGroups context [] groups with
  | error e => exact ⟨nofun, fun ⟨_, h, _⟩ => nomatch h⟩
  | ok gathered =>
    refine ⟨fun h => ⟨gathered, rfl, (Option.some.inj h).symm⟩, ?_⟩
    rintro ⟨_, h, rfl⟩
    cases h
    rfl

theorem gathered_ne_nil_iff {assertion : WorkforceAssertion} {gathered : List String}
    (h : gatherRoles (roleOfGroup config) [] (config.listed assertion) = .ok gathered) :
    gathered ≠ [] ↔ ∃ group ∈ config.listed assertion, (config.mapped group).isSome = true := by
  have hall := exists_gatherRoles.mp ⟨gathered, h⟩
  constructor
  · intro hne
    obtain ⟨role, hrole⟩ := List.exists_mem_of_ne_nil gathered hne
    rw [mem_gatherRoles h, or_iff_right List.not_mem_nil] at hrole
    obtain ⟨group, hgroup, hok⟩ := hrole
    exact ⟨group, hgroup, Option.isSome_iff_exists.mpr
      ⟨role, ((looksUp_roleOfGroup.granted group role).mp hok).1⟩⟩
  · rintro ⟨group, hgroup, hmapped⟩
    obtain ⟨role, hrole⟩ := Option.isSome_iff_exists.mp hmapped
    have hassignable := (looksUp_roleOfGroup.exists_ok_iff.mp (hall group hgroup)).1 role hrole
    have hok := (looksUp_roleOfGroup.granted group role).mpr ⟨hrole, hassignable⟩
    exact List.ne_nil_of_mem ((mem_gatherRoles h).mpr (Or.inr ⟨group, hgroup, hok⟩))

theorem resolvesBy_federatedRoles : ResolvesBy config.listed (roleOfGroup config) config.Identifies
    (federatedRoles config binding) := by
  intro assertion roles
  have hok : federatedRoles config binding assertion = some roles ↔
      ∃ identity, mapWorkforceIdentity assertion config binding = .ok identity ∧
        identity.roles = roles := by
    unfold federatedRoles
    rw [Option.map_eq_some_iff]
    simp only [toOption_eq_some]
  rw [hok]
  unfold mapWorkforceIdentity
  simp only [except_guard_eq_ok, except_bind_eq_ok]
  constructor
  · rintro ⟨identity, ⟨hsubject, gathered, hgathered, hne, heq⟩, rfl⟩
    cases heq
    rw [rolesOfGroups_eq] at hgathered
    exact ⟨⟨Bool.eq_false_iff.mpr hsubject, (gathered_ne_nil_iff hgathered).mp hne⟩,
      gathered, hgathered, rfl⟩
  · rintro ⟨⟨hsubject, hmapped⟩, gathered, hgathered, rfl⟩
    have hne := (gathered_ne_nil_iff hgathered).mpr hmapped
    rw [← rolesOfGroups_eq] at hgathered
    exact ⟨_, ⟨Bool.eq_false_iff.mp hsubject, gathered, hgathered, hne, rfl⟩, rfl⟩

end Implementations

def FederatedRolesLaw (config : FederationConfig) (binding : FederationRequestBinding)
    (assertion : WorkforceAssertion) : Prop :=
  ResolvesRoles config.listed config.mapped config.assignableRoles config.Identifies
    (federatedRoles config binding) assertion

def ScimRolesLaw (context : ScimContext) (groups : List Text) : Prop :=
  ResolvesRoles id context.mapped context.assignableRoles (fun _ => True)
    (fun groups => (resolveScimRoles context groups).toOption) groups

/-- Both keep the law where no listed group without an entry has a name that every object knows. -/
theorem groupRoles_iff (config : FederationConfig) (binding : FederationRequestBinding)
    (assertion : WorkforceAssertion) (context : ScimContext) (groups : List Text) :
    (FederatedRolesLaw config binding assertion ↔
      (config.Identifies assertion →
        Permitted config.listed config.mapped config.assignableRoles assertion →
        ∀ group ∈ config.listed assertion, config.mapped group = none →
          group ∉ objectPrototype)) ∧
    (ScimRolesLaw context groups ↔
      (Permitted id context.mapped context.assignableRoles groups →
        ∀ group ∈ groups, context.mapped group = none →
          String.ofList group ∉ objectPrototype)) := by
  constructor
  · refine (resolvesRoles_iff looksUp_roleOfGroup resolvesBy_federatedRoles).trans ?_
    simp only [List.contains_eq_mem, decide_eq_false_iff_not]
  · refine (resolvesRoles_iff looksUp_mappedRole resolvesBy_resolveScimRoles).trans ?_
    simp only [List.contains_eq_mem, decide_eq_false_iff_not, true_implies, id]

/-- The second group has no entry and is ignored, if only it had another name. -/
theorem not_resolvesRoles_toString :
    ¬((∀ config binding assertion, FederatedRolesLaw config binding assertion) ∧
      ∀ context groups, ScimRolesLaw context groups) := by
  rintro ⟨-, hall⟩
  let context : ScimContext := ⟨"t", ["case_worker"], [("Registrator".toList, "case_worker")]⟩
  have hlaw := hall context ["Registrator".toList, "toString".toList]
  have hsucceeds := hlaw.succeeds.mpr ⟨trivial, ?_⟩
  · revert hsucceeds
    decide
  · unfold Permitted
    decide

end Kommunsign
