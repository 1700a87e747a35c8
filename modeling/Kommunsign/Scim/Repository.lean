import Kommunsign.Scim.Users

/-!
# SCIM users in the database

A SCIM user is a row of `app.users` with its memberships and their role assignments. A request reads
the user in one transaction and saves it in another one. The first statement of a save locks the
user's row, so two saves of one user do not overlap.

* `StoredUser` — the rows of one user
* `getUser` — the user as the source reads it, roles of all memberships in one list
-/

namespace Kommunsign

open Infra

structure RoleAssignment where
  role : String
  departmentId : Option UUID
  deriving DecidableEq

inductive MembershipStatus where
  | active
  | disabled
  deriving DecidableEq

/-- A membership without a department is for the whole tenant. -/
structure MembershipRow where
  id : UUID
  departmentId : Option UUID
  status : MembershipStatus
  assignments : List RoleAssignment
  deriving DecidableEq

structure UserRow where
  id : UUID
  displayName : Text
  email : Option Text
  disabledAt : Option Int
  scimExternalId : Option Text
  scimUserName : Option Text
  deriving DecidableEq

structure StoredUser where
  row : UserRow
  memberships : List MembershipRow
  deriving DecidableEq

/-- The rest of the tenant: its roles, and what the unique indexes hold of the other users. -/
structure ScimTenant where
  roleKeys : List String
  externalIdTaken : Text → Bool
  userNameTaken : Text → Bool

def StoredUser.isDisabled (stored : StoredUser) : Bool := stored.row.disabledAt.isSome

def StoredUser.roles (stored : StoredUser) : List String :=
  stored.memberships.flatMap fun m => m.assignments.map (·.role)

/-! ## Reading -/

def toScimUser (stored : StoredUser) : ScimUser where
  id := stored.row.id
  tenantId := ""
  externalId := stored.row.scimExternalId
  userName := stored.row.scimUserName.getD stored.row.id.toList
  displayName := some stored.row.displayName
  email := stored.row.email
  active := stored.row.disabledAt.isNone
  roles := sortStrings stored.roles

/--
`USER_SELECT` has an aggregate beside plain columns and no `group by`. `grouped` says whether the
database answers it, one row a user; PostgreSQL refuses it.
-/
def getUser (grouped : Bool) (stored : StoredUser) : ScimResult ScimUser :=
  if grouped then return toScimUser stored else throw .internal

/-- The credential says which tenant the user is of. -/
def loadUser (context : ScimContext) (user : ScimUser) : ScimUser :=
  { user with tenantId := context.tenantId }

/-! ## Saving -/

/-- `users_scim_external_id_format` and `users_scim_external_id_unique` -/
def externalIdRefused (tenant : ScimTenant) (externalId : Option Text) : Bool :=
  externalId.any fun e => decide (e.length < 1 ∨ 256 < e.length) || tenant.externalIdTaken e

def updateUser (tenant : ScimTenant) (now : Int) (user : ScimUser) (row : UserRow) :
    ScimResult UserRow := do
  if user.displayName.isNone || externalIdRefused tenant user.externalId ||
      tenant.userNameTaken user.userName then
    throw .internal
  return {
    id := row.id
    displayName := user.displayName.getD []
    email := user.email.filter (· ≠ [])
    disabledAt := if user.active then none else some (row.disabledAt.getD now)
    scimExternalId := user.externalId
    scimUserName := some user.userName }

/-- `update app.memberships set status=…` -/
def setStatus (active : Bool) (membership : MembershipRow) : MembershipRow :=
  { membership with status := if active then .active else .disabled }

def isTenantWide (membership : MembershipRow) : Bool := membership.departmentId.isNone

/-- The memberships with a tenant-wide one among them, and its id. -/
def ensureMembership (newId : UUID) (memberships : List MembershipRow) :
    ScimResult (List MembershipRow × UUID) :=
  match memberships.find? isTenantWide with
  | some found => return (memberships, found.id)
  | none =>
    if memberships.any (·.id == newId) then throw .internal
    else return (memberships ++ [⟨newId, none, .active, []⟩], newId)

/-- The assignments that are inserted: one for each role of the tenant that is granted. -/
def grantedAssignments (tenant : ScimTenant) (granted : List String) : List RoleAssignment :=
  (tenant.roleKeys.filter (granted.contains ·)).map (⟨·, none⟩)

/-- Replaces the assignments of one membership. -/
def assignRoles (tenant : ScimTenant) (membershipId : UUID) (granted : List String)
    (membership : MembershipRow) : MembershipRow :=
  if membership.id = membershipId then
    { membership with assignments := grantedAssignments tenant granted }
  else membership

def applyRoles (tenant : ScimTenant) (context : ScimContext) (newId : UUID) (roles : List String)
    (memberships : List MembershipRow) : ScimResult (List MembershipRow) := do
  let (memberships, membershipId) ← ensureMembership newId memberships
  let granted := roles.filter (context.assignableRoles.contains ·)
  if granted.length ≠ roles.length then
    throw (roleNotAssignable "A role outside this client’s scope was requested")
  return memberships.map (assignRoles tenant membershipId granted)

/-- `newId` is the id of a membership that has to be made. -/
def saveUser (tenant : ScimTenant) (context : ScimContext) (now : Int) (newId : UUID)
    (user : ScimUser) (stored : StoredUser) : ScimResult StoredUser := do
  let row ← updateUser tenant now user stored.row
  let memberships ← applyRoles tenant context newId user.roles
    (stored.memberships.map (setStatus user.active))
  return ⟨row, memberships⟩

/-- A request that nothing comes between. -/
def handleScimUser (unicode : Text → Text) (grouped : Bool) (tenant : ScimTenant)
    (context : ScimContext) (request : ScimRequest) (now : Int) (newId : UUID)
    (stored : StoredUser) : ScimResult StoredUser := do
  let user ← getUser grouped stored
  let next ← request.prepare unicode context (loadUser context user)
  saveUser tenant context now newId next stored

/-! ## What a save leaves -/

section

variable {tenant : ScimTenant} {context : ScimContext} {now : Int} {newId : UUID}
  {user : ScimUser} {stored saved : StoredUser}

/-- The membership whose roles are replaced. -/
def rolesMembership (newId : UUID) (memberships : List MembershipRow) : UUID :=
  ((memberships.find? isTenantWide).map (·.id)).getD newId

/-- The memberships that roles are then assigned in. -/
def withTenantWide (newId : UUID) (memberships : List MembershipRow) : List MembershipRow :=
  if (memberships.find? isTenantWide).isSome then memberships
  else memberships ++ [⟨newId, none, .active, []⟩]

theorem ensureMembership_eq_ok {memberships result : List MembershipRow} {id : UUID} :
    ensureMembership newId memberships = .ok (result, id) ↔
      result = withTenantWide newId memberships ∧ id = rolesMembership newId memberships ∧
        (memberships.find? isTenantWide = none → ∀ m ∈ memberships, m.id ≠ newId) := by
  unfold ensureMembership withTenantWide rolesMembership
  cases hfind : memberships.find? isTenantWide with
  | some found =>
    simp only [Option.isSome_some, if_true, Option.map_some, Option.getD_some]
    constructor
    · intro h
      cases h
      exact ⟨rfl, rfl, nofun⟩
    · rintro ⟨rfl, rfl, -⟩
      rfl
  | none =>
    simp only [Option.isSome_none, Bool.false_eq_true, if_false, Option.map_none, Option.getD_none]
    constructor
    · intro h
      split at h
      · exact nomatch h
      · rename_i hfree
        cases h
        refine ⟨rfl, rfl, fun _ m hm heq => hfree ?_⟩
        exact List.any_eq_true.mpr ⟨m, hm, by simpa using heq⟩
    · rintro ⟨rfl, rfl, hfree⟩
      rw [if_neg]
      · rfl
      · rw [List.any_eq_true]
        rintro ⟨m, hm, heq⟩
        exact hfree trivial m hm (by simpa using heq)

theorem filter_length_eq {roles : List String} :
    (roles.filter (context.assignableRoles.contains ·)).length = roles.length ↔
      ∀ role ∈ roles, role ∈ context.assignableRoles := by
  rw [List.length_filter_eq_length_iff]
  simp

theorem find?_map_setStatus (active : Bool) (memberships : List MembershipRow) :
    (memberships.map (setStatus active)).find? isTenantWide =
      (memberships.find? isTenantWide).map (setStatus active) := by
  rw [List.find?_map]
  rfl

theorem rolesMembership_map_setStatus (active : Bool) (memberships : List MembershipRow) :
    rolesMembership newId (memberships.map (setStatus active)) =
      rolesMembership newId memberships := by
  rw [rolesMembership, rolesMembership, find?_map_setStatus, Option.map_map]
  rfl

theorem mem_withTenantWide {memberships : List MembershipRow} {m : MembershipRow} :
    m ∈ withTenantWide newId memberships ↔
      m ∈ memberships ∨
        memberships.find? isTenantWide = none ∧ m = ⟨newId, none, .active, []⟩ := by
  unfold withTenantWide
  cases hfind : memberships.find? isTenantWide with
  | none => simp
  | some found => simp

theorem rolesMembership_of_none {memberships : List MembershipRow}
    (h : memberships.find? isTenantWide = none) : rolesMembership newId memberships = newId := by
  rw [rolesMembership, h]
  rfl

theorem exists_rolesMembership (newId : UUID) (memberships : List MembershipRow) :
    ∃ m ∈ withTenantWide newId memberships, m.id = rolesMembership newId memberships := by
  cases hfind : memberships.find? isTenantWide with
  | none =>
    exact ⟨_, mem_withTenantWide.mpr (.inr ⟨hfind, rfl⟩), (rolesMembership_of_none hfind).symm⟩
  | some found =>
    refine ⟨found, mem_withTenantWide.mpr (.inl (List.mem_of_find?_eq_some hfind)), ?_⟩
    rw [rolesMembership, hfind]
    rfl

theorem saveUser_eq_ok : saveUser tenant context now newId user stored = .ok saved ↔
    updateUser tenant now user stored.row = .ok saved.row ∧
      (∀ role ∈ user.roles, role ∈ context.assignableRoles) ∧
      (stored.memberships.find? isTenantWide = none → ∀ m ∈ stored.memberships, m.id ≠ newId) ∧
      saved.memberships =
        (withTenantWide newId (stored.memberships.map (setStatus user.active))).map
          (assignRoles tenant (rolesMembership newId stored.memberships) user.roles) := by
  have hfind : (stored.memberships.map (setStatus user.active)).find? isTenantWide = none ↔
      stored.memberships.find? isTenantWide = none := by
    rw [find?_map_setStatus, Option.map_eq_none_iff]
  have hids : (∀ m ∈ stored.memberships.map (setStatus user.active), m.id ≠ newId) ↔
      ∀ m ∈ stored.memberships, m.id ≠ newId := List.forall_mem_map
  have hroles : ∀ roles : List String, (∀ role ∈ roles, role ∈ context.assignableRoles) →
      roles.filter (context.assignableRoles.contains ·) = roles := by
    intro roles h
    exact List.filter_eq_self.mpr fun role hrole => by simpa using h role hrole
  constructor
  · intro h
    obtain ⟨row, hrow, h⟩ := except_bind_eq_ok.mp h
    obtain ⟨memberships, happly, h⟩ := except_bind_eq_ok.mp h
    cases h
    obtain ⟨⟨rows, id⟩, hensure, h⟩ := except_bind_eq_ok.mp happly
    obtain ⟨hgranted, h⟩ := except_guard_eq_ok.mp h
    cases h
    obtain ⟨rfl, rfl, hfree⟩ := ensureMembership_eq_ok.mp hensure
    have hassignable := filter_length_eq.mp (not_not.mp hgranted)
    rw [hfind, hids] at hfree
    refine ⟨hrow, hassignable, hfree, ?_⟩
    rw [hroles _ hassignable, rolesMembership_map_setStatus]
  · rintro ⟨hrow, hassignable, hfree, hmemberships⟩
    refine except_bind_eq_ok.mpr ⟨saved.row, hrow, except_bind_eq_ok.mpr ⟨saved.memberships, ?_, rfl⟩⟩
    refine except_bind_eq_ok.mpr ⟨_, ensureMembership_eq_ok.mpr
      ⟨rfl, rfl, by rw [hfind, hids]; exact hfree⟩, ?_⟩
    refine except_guard_eq_ok.mpr ⟨not_not.mpr (filter_length_eq.mpr hassignable), ?_⟩
    rw [hmemberships, hroles _ hassignable, rolesMembership_map_setStatus]
    rfl

theorem updateUser_eq_ok {row next : UserRow} : updateUser tenant now user row = .ok next ↔
    ∃ displayName, user.displayName = some displayName ∧
      externalIdRefused tenant user.externalId = false ∧
      tenant.userNameTaken user.userName = false ∧
      next = {
        id := row.id
        displayName := displayName
        email := user.email.filter (· ≠ [])
        disabledAt := if user.active then none else some (row.disabledAt.getD now)
        scimExternalId := user.externalId
        scimUserName := some user.userName } := by
  rw [updateUser, except_guard_eq_ok]
  cases hname : user.displayName with
  | none => simp
  | some displayName =>
    simp only [Option.isNone_some, Bool.false_or, Bool.or_eq_true, not_or, Bool.not_eq_true,
      Option.some.injEq, exists_eq_left', Option.getD_some, and_assoc]
    exact and_congr_right' (and_congr_right' ⟨fun h => (Except.ok.inj h).symm, fun h => h ▸ rfl⟩)

/-! ## What the database checks -/

/-- The keys and constraints that the rows of a user meet. -/
structure StoredUser.Valid (tenant : ScimTenant) (stored : StoredUser) : Prop where
  membershipIds : (stored.memberships.map (·.id)).Nodup
  roles : ∀ role ∈ stored.roles, role ∈ tenant.roleKeys
  externalId : externalIdRefused tenant stored.row.scimExternalId = false
  userName : ∀ userName, stored.row.scimUserName = some userName →
    tenant.userNameTaken userName = false

theorem mem_roles {role : String} : role ∈ stored.roles ↔
    ∃ m ∈ stored.memberships, ∃ a ∈ m.assignments, a.role = role := by
  simp [StoredUser.roles]

theorem assignRoles_id (id : UUID) (granted : List String) (m : MembershipRow) :
    (assignRoles tenant id granted m).id = m.id := by
  unfold assignRoles
  split <;> rfl

theorem mem_grantedAssignments {granted : List String} {a : RoleAssignment} :
    a ∈ grantedAssignments tenant granted ↔
      a.departmentId = none ∧ a.role ∈ granted ∧ a.role ∈ tenant.roleKeys := by
  obtain ⟨role, departmentId⟩ := a
  simp only [grantedAssignments, List.mem_map, List.mem_filter, List.contains_iff_mem,
    RoleAssignment.mk.injEq]
  constructor
  · rintro ⟨r, ⟨hkey, hgranted⟩, rfl, rfl⟩
    exact ⟨rfl, hgranted, hkey⟩
  · rintro ⟨rfl, hgranted, hkey⟩
    exact ⟨role, ⟨hkey, hgranted⟩, rfl, rfl⟩

theorem saveUser_valid (hvalid : stored.Valid tenant)
    (h : saveUser tenant context now newId user stored = .ok saved) : saved.Valid tenant := by
  obtain ⟨hrow, -, hfree, hmemberships⟩ := saveUser_eq_ok.mp h
  obtain ⟨_, -, hexternal, huser, hrow⟩ := updateUser_eq_ok.mp hrow
  refine ⟨?_, ?_, by rw [hrow]; exact hexternal, ?_⟩
  · have hids : saved.memberships.map (·.id) =
        (withTenantWide newId (stored.memberships.map (setStatus user.active))).map (·.id) := by
      rw [hmemberships, List.map_map]
      exact List.map_congr_left fun m _ => assignRoles_id _ _ m
    have hstatus : (stored.memberships.map (setStatus user.active)).map (·.id) =
        stored.memberships.map (·.id) := by
      rw [List.map_map]
      rfl
    rw [hids, withTenantWide]
    split
    · rw [hstatus]
      exact hvalid.membershipIds
    · rename_i hnone
      rw [find?_map_setStatus, Option.isSome_map, Option.not_isSome_iff_eq_none] at hnone
      rw [List.map_append, hstatus, List.nodup_append]
      refine ⟨hvalid.membershipIds, List.nodup_singleton _, fun id hid id' hid' heq => ?_⟩
      obtain ⟨m, hm, rfl⟩ := List.mem_map.mp hid
      exact hfree hnone m hm (heq.trans (List.mem_singleton.mp hid'))
  · intro role hrole
    obtain ⟨m, hm, a, ha, rfl⟩ := mem_roles.mp hrole
    rw [hmemberships] at hm
    obtain ⟨m', hm', rfl⟩ := List.mem_map.mp hm
    unfold assignRoles at ha
    split at ha
    · exact (mem_grantedAssignments.mp ha).2.2
    · -- the roles of the other memberships are those they had
      have hold : m' ∈ stored.memberships.map (setStatus user.active) := by
        rcases mem_withTenantWide.mp hm' with hm' | ⟨-, rfl⟩
        · exact hm'
        · exact absurd ha List.not_mem_nil
      obtain ⟨m₀, hm₀, rfl⟩ := List.mem_map.mp hold
      exact hvalid.roles _ (mem_roles.mpr ⟨m₀, hm₀, a, ha, rfl⟩)
  · intro userName huserName
    rw [hrow] at huserName
    cases huserName
    exact huser

end

end Kommunsign
