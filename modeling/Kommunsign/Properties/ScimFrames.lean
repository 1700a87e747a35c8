import Kommunsign.Infra.ReadCommitted
import Kommunsign.Scim.Repository

/-!
# What a SCIM request leaves of a user

A save writes every column of the user, gives all memberships one status, and replaces the roles of
one membership by those that were read off all of them.

* `Keeps` — an attribute has its stored effect
* `Restorable` — the stored user is one that a save of what was read leaves as it is
* `scim_serial_of_fresh` — in every interleaving of fresh requests, no change is lost
-/

namespace Kommunsign

open Infra

/-! ## Effects -/

def StoredUser.Assigns (stored : StoredUser) (membershipId : UUID) (a : RoleAssignment) : Prop :=
  ∃ m ∈ stored.memberships, m.id = membershipId ∧ a ∈ m.assignments

instance (stored : StoredUser) (membershipId : UUID) (a : RoleAssignment) :
    Decidable (stored.Assigns membershipId a) :=
  inferInstanceAs (Decidable (∃ m ∈ stored.memberships, m.id = membershipId ∧ a ∈ m.assignments))

/-- The effect of an attribute in the database: a membership is granted or not, with which roles. -/
def Keeps (stored saved : StoredUser) : ScimAttribute → Prop
  | .active => saved.row.disabledAt = stored.row.disabledAt ∧
      ∀ m ∈ stored.memberships, ∀ m' ∈ saved.memberships, m'.id = m.id → m'.status = m.status
  | .displayName => saved.row.displayName = stored.row.displayName
  | .userName => saved.row.scimUserName = stored.row.scimUserName
  | .externalId => saved.row.scimExternalId = stored.row.scimExternalId
  | .emails => saved.row.email = stored.row.email
  | .groups => ∀ membershipId a, saved.Assigns membershipId a ↔ stored.Assigns membershipId a

/-- The roles of a save whose request names no groups: a `PUT` has none then. -/
def ScimRequest.rolesKept (request : ScimRequest) (stored : StoredUser) : List String :=
  match request with
  | .patch _ => stored.roles
  | .put _ | .delete => []

/-- The roles that a save assigns are the assignments of the membership it assigns them in. -/
def RolesInPlace (stored : StoredUser) (roles : List String) : Prop :=
  match stored.memberships.find? isTenantWide with
  | some m => ∀ a, a ∈ m.assignments ↔ a.departmentId = none ∧ a.role ∈ roles
  | none => roles = []

/-- The status that a save gives to every membership of a user whose `active` is not named. -/
def StoredUser.commonStatus (stored : StoredUser) : MembershipStatus :=
  if stored.isDisabled then .disabled else .active

structure Restorable (unicode : Text → Text) (request : ScimRequest) (stored : StoredUser) :
    Prop where
  statuses : request.names unicode .active = false →
    ∀ m ∈ stored.memberships, m.status = stored.commonStatus
  email : request.names unicode .emails = false → stored.row.email ≠ some []
  roles : request.names unicode .groups = false →
    RolesInPlace stored (request.rolesKept stored)

/-! ## What a request that succeeds has saved -/

section

variable {unicode : Text → Text} {grouped : Bool} {tenant : ScimTenant} {context : ScimContext}
  {request : ScimRequest} {now : Int} {newId : UUID} {stored saved : StoredUser}

theorem handleScimUser_eq_ok :
    handleScimUser unicode grouped tenant context request now newId stored = .ok saved ↔
      grouped = true ∧ ∃ next,
        request.prepare unicode context (loadUser context (toScimUser stored)) = .ok next ∧
        saveUser tenant context now newId next stored = .ok saved := by
  rw [handleScimUser, except_bind_eq_ok, getUser]
  cases grouped with
  | true =>
    constructor
    · rintro ⟨user, huser, h⟩
      cases huser
      exact ⟨rfl, except_bind_eq_ok.mp h⟩
    · rintro ⟨-, h⟩
      exact ⟨_, rfl, except_bind_eq_ok.mpr h⟩
  | false =>
    constructor
    · rintro ⟨user, huser, -⟩
      exact nomatch huser
    · rintro ⟨h, -⟩
      exact nomatch h

theorem mem_roles_of_prepare {next : ScimUser} (hrequest : request ≠ .delete)
    (hnamed : request.names unicode .groups = false)
    (h : request.prepare unicode context (loadUser context (toScimUser stored)) = .ok next)
    {role : String} : role ∈ next.roles ↔ role ∈ request.rolesKept stored := by
  cases request with
  | delete => exact absurd rfl hrequest
  | patch operations =>
    have hroles : next.roles = sortStrings stored.roles :=
      prepare_keeps hnamed (.inr ⟨operations, rfl⟩) h
    rw [hroles, mem_sortStrings]
    rfl
  | put write =>
    obtain ⟨_, -, h⟩ := except_bind_eq_ok.mp h
    obtain ⟨_, -, h⟩ := except_bind_eq_ok.mp h
    obtain ⟨_, -, h⟩ := except_bind_eq_ok.mp h
    obtain ⟨roles, hroles, h⟩ := except_bind_eq_ok.mp h
    cases h
    have hgroups : write.groups = none := by
      simpa [ScimRequest.names, ScimUserWrite.names] using hnamed
    rw [groupsFrom, hgroups] at hroles
    cases hroles
    exact Iff.rfl

theorem assigns_saved {next : ScimUser}
    (h : saveUser tenant context now newId next stored = .ok saved) (id : UUID)
    (a : RoleAssignment) :
    saved.Assigns id a ↔
      if id = rolesMembership newId stored.memberships then a ∈ grantedAssignments tenant next.roles
      else stored.Assigns id a := by
  obtain ⟨-, -, hfree, hmemberships⟩ := saveUser_eq_ok.mp h
  have hsaved : saved.Assigns id a ↔
      ∃ m ∈ withTenantWide newId (stored.memberships.map (setStatus next.active)),
        m.id = id ∧ if m.id = rolesMembership newId stored.memberships
          then a ∈ grantedAssignments tenant next.roles else a ∈ m.assignments := by
    unfold StoredUser.Assigns
    rw [hmemberships]
    simp only [List.mem_map, exists_exists_and_eq_and, assignRoles_id]
    refine exists_congr fun m => and_congr_right' (and_congr_right' ?_)
    unfold assignRoles
    split <;> rfl
  have hrm := @rolesMembership_map_setStatus newId next.active stored.memberships
  rw [hsaved]
  split
  · -- the membership that the roles are assigned in
    rename_i hid
    subst hid
    constructor
    · rintro ⟨m, -, hm, ha⟩
      rwa [if_pos hm] at ha
    · intro ha
      obtain ⟨m, hm, hmid⟩ :=
        exists_rolesMembership newId (stored.memberships.map (setStatus next.active))
      rw [hrm] at hmid
      exact ⟨m, hm, hmid, by rwa [if_pos hmid]⟩
  · rename_i hid
    constructor
    · rintro ⟨m, hm, rfl, ha⟩
      rw [if_neg hid] at ha
      rcases mem_withTenantWide.mp hm with hm | ⟨hnone, rfl⟩
      · obtain ⟨m₀, hm₀, rfl⟩ := List.mem_map.mp hm
        exact ⟨m₀, hm₀, rfl, ha⟩
      · exact absurd ha List.not_mem_nil
    · rintro ⟨m, hm, rfl, ha⟩
      have hsame : (setStatus next.active m).id ≠ rolesMembership newId stored.memberships := hid
      refine ⟨setStatus next.active m, mem_withTenantWide.mpr (.inl (List.mem_map_of_mem hm)), rfl, ?_⟩
      rw [if_neg hsame]
      exact ha

theorem status_saved {next : ScimUser}
    (h : saveUser tenant context now newId next stored = .ok saved) {m m' : MembershipRow}
    (hm : m ∈ stored.memberships) (hm' : m' ∈ saved.memberships) (hid : m'.id = m.id) :
    m'.status = if next.active then .active else .disabled := by
  obtain ⟨-, -, hfree, hmemberships⟩ := saveUser_eq_ok.mp h
  rw [hmemberships] at hm'
  obtain ⟨m₁, hm₁, rfl⟩ := List.mem_map.mp hm'
  have hstatus : (assignRoles tenant (rolesMembership newId stored.memberships) next.roles m₁).status =
      m₁.status := by
    unfold assignRoles
    split <;> rfl
  rw [hstatus]
  rcases mem_withTenantWide.mp hm₁ with hold | ⟨hnone, rfl⟩
  · obtain ⟨m₀, -, rfl⟩ := List.mem_map.mp hold
    rfl
  · -- a membership that was made has an id of its own
    rw [find?_map_setStatus, Option.map_eq_none_iff] at hnone
    rw [assignRoles_id] at hid
    exact absurd hid.symm (hfree hnone m hm)

/-! ## The attributes that are not named -/

theorem keeps_groups_iff {roles : List String} {next : ScimUser} (hvalid : stored.Valid tenant)
    (hroles : ∀ role, role ∈ next.roles ↔ role ∈ roles) (hkeys : ∀ role ∈ roles, role ∈ stored.roles)
    (h : saveUser tenant context now newId next stored = .ok saved) :
    Keeps stored saved .groups ↔ RolesInPlace stored roles := by
  have hgranted : ∀ a, a ∈ grantedAssignments tenant next.roles ↔
      a.departmentId = none ∧ a.role ∈ roles := by
    intro a
    rw [mem_grantedAssignments, hroles]
    exact and_congr_right' (and_iff_left_of_imp fun ha => hvalid.roles _ (hkeys _ ha))
  have hplace : Keeps stored saved .groups ↔ ∀ a, (a.departmentId = none ∧ a.role ∈ roles) ↔
      stored.Assigns (rolesMembership newId stored.memberships) a := by
    constructor
    · intro hkeeps a
      rw [← hgranted, ← hkeeps, assigns_saved h, if_pos rfl]
    · intro hassigns id a
      rw [assigns_saved h]
      split
      · rename_i hid
        rw [hgranted, hassigns, hid]
      · exact Iff.rfl
  rw [hplace, RolesInPlace]
  obtain ⟨-, -, hfree, -⟩ := saveUser_eq_ok.mp h
  cases hfind : stored.memberships.find? isTenantWide with
  | none =>
    -- no assignment is in a membership that was not there
    rw [rolesMembership_of_none hfind]
    have hnone : ∀ a, ¬stored.Assigns newId a := by
      rintro a ⟨m, hm, hid, -⟩
      exact hfree hfind m hm hid
    constructor
    · intro hassigns
      refine List.eq_nil_iff_forall_not_mem.mpr fun role hrole => ?_
      exact hnone ⟨role, none⟩ ((hassigns ⟨role, none⟩).mp ⟨rfl, hrole⟩)
    · rintro rfl a
      exact ⟨fun ha => absurd ha.2 List.not_mem_nil, fun ha => absurd ha (hnone a)⟩
  | some m =>
    have hm := List.mem_of_find?_eq_some hfind
    have hid : rolesMembership newId stored.memberships = m.id := by
      rw [rolesMembership, hfind]
      rfl
    refine forall_congr' fun a => ?_
    have hassigns : stored.Assigns m.id a ↔ a ∈ m.assignments := by
      refine ⟨?_, fun ha => ⟨m, hm, rfl, ha⟩⟩
      rintro ⟨m', hm', heq, ha⟩
      rwa [List.inj_on_of_nodup_map hvalid.membershipIds hm' hm heq] at ha
    rw [hid, hassigns]
    exact ⟨Iff.symm, Iff.symm⟩

theorem exists_saved {next : ScimUser}
    (h : saveUser tenant context now newId next stored = .ok saved) {m : MembershipRow}
    (hm : m ∈ stored.memberships) : ∃ m' ∈ saved.memberships, m'.id = m.id := by
  rw [(saveUser_eq_ok.mp h).2.2.2]
  exact ⟨_, List.mem_map_of_mem (mem_withTenantWide.mpr (.inl (List.mem_map_of_mem hm))),
    assignRoles_id _ _ _⟩

theorem keeps_active_iff {next : ScimUser}
    (hactive : next.active = stored.row.disabledAt.isNone)
    (h : saveUser tenant context now newId next stored = .ok saved) :
    Keeps stored saved .active ↔ ∀ m ∈ stored.memberships, m.status = stored.commonStatus := by
  obtain ⟨_, -, -, -, hrow⟩ := updateUser_eq_ok.mp (saveUser_eq_ok.mp h).1
  have hdisabled : saved.row.disabledAt = stored.row.disabledAt := by
    rw [hrow]
    dsimp only
    rw [hactive]
    cases stored.row.disabledAt <;> rfl
  have hcommon : stored.commonStatus = if next.active then .active else .disabled := by
    rw [StoredUser.commonStatus, StoredUser.isDisabled, hactive]
    cases stored.row.disabledAt <;> rfl
  rw [Keeps, and_iff_right hdisabled, hcommon]
  constructor
  · intro hkeeps m hm
    obtain ⟨m', hm', hid⟩ := exists_saved h hm
    exact (hkeeps m hm m' hm' hid).symm.trans (status_saved h hm hm' hid)
  · intro hsame m hm m' hm' hid
    exact (status_saved h hm hm' hid).trans (hsame m hm).symm

theorem keeps_iff_restorable (hvalid : stored.Valid tenant)
    (hscim : stored.row.scimUserName.isSome = true) (hrequest : request ≠ .delete)
    (h : handleScimUser unicode grouped tenant context request now newId stored = .ok saved) :
    (∀ kept, request.names unicode kept = false → Keeps stored saved kept) ↔
      Restorable unicode request stored := by
  obtain ⟨-, next, hprepare, hsave⟩ := handleScimUser_eq_ok.mp h
  obtain ⟨displayName, hname, -, -, hrow⟩ := updateUser_eq_ok.mp (saveUser_eq_ok.mp hsave).1
  have hagrees : ∀ {kept}, request.names unicode kept = false → kept ≠ .groups →
      next.Agrees (loadUser context (toScimUser stored)) kept :=
    fun hnamed hkept => prepare_keeps hnamed (.inl hkept) hprepare
  have hemail : request.names unicode .emails = false →
      (Keeps stored saved .emails ↔ stored.row.email ≠ some []) := by
    intro hnamed
    have hsame : next.email = stored.row.email := hagrees hnamed nofun
    rw [Keeps, hrow]
    dsimp only
    rw [hsame]
    cases stored.row.email with
    | none => simp
    | some email => simp [Option.filter]
  have hactive : request.names unicode .active = false →
      (Keeps stored saved .active ↔ ∀ m ∈ stored.memberships, m.status = stored.commonStatus) :=
    fun hnamed => keeps_active_iff (hagrees hnamed nofun) hsave
  have hgroups : request.names unicode .groups = false →
      (Keeps stored saved .groups ↔ RolesInPlace stored (request.rolesKept stored)) := by
    intro hnamed
    refine keeps_groups_iff hvalid (fun role => mem_roles_of_prepare hrequest hnamed hprepare) ?_ hsave
    cases request with
    | patch operations => exact fun role hrole => hrole
    | put write => exact fun role hrole => absurd hrole List.not_mem_nil
    | delete => exact absurd rfl hrequest
  constructor
  · intro hkeeps
    exact {
      statuses := fun hnamed => (hactive hnamed).mp (hkeeps .active hnamed)
      email := fun hnamed => (hemail hnamed).mp (hkeeps .emails hnamed)
      roles := fun hnamed => (hgroups hnamed).mp (hkeeps .groups hnamed) }
  · intro hrestorable kept hnamed
    cases kept with
    | active => exact (hactive hnamed).mpr (hrestorable.statuses hnamed)
    | emails => exact (hemail hnamed).mpr (hrestorable.email hnamed)
    | groups => exact (hgroups hnamed).mpr (hrestorable.roles hnamed)
    | displayName =>
      have hsame : next.displayName = some stored.row.displayName := hagrees hnamed nofun
      rw [Keeps, hrow]
      exact Option.some.inj (hname.symm.trans hsame)
    | externalId =>
      have hsame : next.externalId = stored.row.scimExternalId := hagrees hnamed nofun
      rw [Keeps, hrow]
      exact hsame
    | userName =>
      have hsame : next.userName = stored.row.scimUserName.getD stored.row.id.toList :=
        hagrees hnamed nofun
      obtain ⟨userName, huser⟩ := Option.isSome_iff_exists.mp hscim
      rw [Keeps, hrow]
      dsimp only
      rw [hsame, huser]
      rfl

/-! ## Deactivation -/

/-- The operation sets `active` to `false`, and does nothing else. -/
def ScimPatchOperation.Deactivates (unicode : Text → Text) (operation : ScimPatchOperation) : Prop :=
  (toLowerCase unicode operation.op = "replace".toList ∨
    toLowerCase unicode operation.op = "add".toList) ∧
  match operation.path with
  | some path => patchablePath unicode path = some .active ∧
      activeValue unicode operation.value = .ok false
  | none => ∃ key value, operation.value = some (.obj [(key, value)]) ∧
      patchablePath unicode key = some .active ∧ activeValue unicode (some value) = .ok false

/-- The request sets `active` to `false`, and does nothing else. -/
def ScimRequest.Deactivates (unicode : Text → Text) : ScimRequest → Prop
  | .patch operations => operations ≠ [] ∧ ∀ operation ∈ operations, operation.Deactivates unicode
  | .put write => ∃ value, write = ⟨none, none, none, none, some value, none⟩ ∧
      activeValue unicode (some value) = .ok false
  | .delete => False

theorem patchablePath_lower {path : Text} {named : ScimAttribute}
    (h : patchablePath unicode path = some named) :
    patchablePath unicode (toLowerCase unicode path) = some named := by
  have hmem := List.mem_of_find?_eq_some h
  have hpath : toLowerCase unicode path = named.path.toList := by
    have heq := List.find?_some h
    rw [beq_iff_eq] at heq
    rw [heq, String.toList_ofList]
  rw [hpath]
  simp only [List.mem_cons, List.not_mem_nil, or_false] at hmem
  rcases hmem with rfl | rfl | rfl | rfl | rfl <;>
    simp [patchablePath, toLowerCase, ScimAttribute.path]

theorem applySingleAttribute_active {path : Text} {value : Option Json}
    (hpath : patchablePath unicode path = some .active)
    (hvalue : activeValue unicode value = .ok false) (user : ScimUser) :
    applySingleAttribute unicode user path value = .ok { user with active := false } := by
  unfold applySingleAttribute
  rw [hpath]
  exact except_bind_eq_ok.mpr ⟨false, hvalue, rfl⟩

theorem applyOperation_of_deactivates {operation : ScimPatchOperation}
    (h : operation.Deactivates unicode) (user : ScimUser) :
    applyOperation unicode user operation = .ok { user with active := false } := by
  obtain ⟨hop, hset⟩ := h
  have hsets : ∃ op, ScimPatchOp.ofText unicode operation.op = .ok op ∧ op ≠ .remove := by
    rcases hop with hop | hop
    · exact ⟨.replace, by rw [ScimPatchOp.ofText, if_pos hop]; rfl, nofun⟩
    · refine ⟨.add, ?_, nofun⟩
      rw [ScimPatchOp.ofText, hop, if_neg (by decide), if_pos rfl]
      rfl
  obtain ⟨op, hop, hremove⟩ := hsets
  refine except_bind_eq_ok.mpr ⟨op, hop, ?_⟩
  cases hpath : operation.path with
  | some path =>
    rw [hpath] at hset
    obtain ⟨hactive, hvalue⟩ := hset
    refine except_guard_eq_ok.mpr ⟨by simp [hactive], ?_⟩
    rw [if_neg hremove]
    exact applySingleAttribute_active (patchablePath_lower hactive) hvalue user
  | none =>
    rw [hpath] at hset
    obtain ⟨key, value, hobject, hactive, hvalue⟩ := hset
    refine except_guard_eq_ok.mpr ⟨hremove, except_bind_eq_ok.mpr ⟨.obj [(key, value)], ?_, ?_⟩⟩
    · rw [hobject]
      rfl
    · exact except_bind_eq_ok.mpr ⟨_, applySingleAttribute_active hactive hvalue user, rfl⟩

theorem applyOperations_of_deactivates : ∀ {operations : List ScimPatchOperation},
    operations ≠ [] → (∀ operation ∈ operations, operation.Deactivates unicode) →
    ∀ user, applyOperations unicode user operations = .ok { user with active := false }
  | [], h, _, _ => absurd rfl h
  | [_], _, h, user =>
    except_bind_eq_ok.mpr ⟨_, applyOperation_of_deactivates (h _ List.mem_cons_self) user, rfl⟩
  | _ :: next :: rest, _, h, user =>
    except_bind_eq_ok.mpr ⟨_, applyOperation_of_deactivates (h _ List.mem_cons_self) user,
      applyOperations_of_deactivates (List.cons_ne_nil next rest)
        (fun o ho => h o (List.mem_cons_of_mem _ ho)) { user with active := false }⟩

theorem prepare_of_deactivates (h : request.Deactivates unicode) :
    ∃ roles, (∀ role, role ∈ roles ↔ role ∈ request.rolesKept stored) ∧
      request.prepare unicode context (loadUser context (toScimUser stored)) =
        .ok { loadUser context (toScimUser stored) with active := false, roles := roles } := by
  have htenant : assertScimTenant context (loadUser context (toScimUser stored)) = .ok () :=
    if_neg (not_not.mpr rfl)
  cases request with
  | delete => exact absurd h id
  | patch operations =>
    obtain ⟨hne, hall⟩ := h
    refine ⟨sortStrings stored.roles, fun role => mem_sortStrings, ?_⟩
    rw [ScimRequest.prepare, patchUser, except_guard_eq_ok]
    refine ⟨by simpa using hne, except_bind_eq_ok.mpr ⟨(), htenant, ?_⟩⟩
    exact applyOperations_of_deactivates hne hall _
  | put write =>
    obtain ⟨value, rfl, hvalue⟩ := h
    refine ⟨[], fun role => Iff.rfl, ?_⟩
    have hoperation : ScimPatchOperation.Deactivates unicode
        ⟨"replace".toList, none, some (.obj [("active".toList, value)])⟩ := by
      refine ⟨.inl (by simp [toLowerCase]), "active".toList, value, rfl, ?_, hvalue⟩
      exact @patchablePath_name unicode .active (by decide)
    refine except_bind_eq_ok.mpr ⟨.obj [("active".toList, value)], rfl, ?_⟩
    refine except_bind_eq_ok.mpr ⟨{ loadUser context (toScimUser stored) with active := false }, ?_, ?_⟩
    · refine except_bind_eq_ok.mpr ⟨(), htenant, ?_⟩
      exact except_bind_eq_ok.mpr ⟨_, applyOperation_of_deactivates hoperation _, rfl⟩
    · have htenant' : assertScimTenant context
          { loadUser context (toScimUser stored) with active := false } = .ok () :=
        if_neg (not_not.mpr rfl)
      exact except_bind_eq_ok.mpr ⟨(), htenant', rfl⟩

def StoredUser.IsDeactivated (stored : StoredUser) : Prop :=
  stored.isDisabled = true ∧ ∀ m ∈ stored.memberships, m.status = .disabled

/-- The client may assign all the roles that are saved, and no membership has to be made. -/
structure CanDeactivate (grouped : Bool) (context : ScimContext) (request : ScimRequest)
    (stored : StoredUser) : Prop where
  answered : grouped = true
  assignable : ∀ role ∈ request.rolesKept stored, role ∈ context.assignableRoles
  tenantWide : (stored.memberships.find? isTenantWide).isSome = true

theorem deactivates_iff (hvalid : stored.Valid tenant)
    (hscim : stored.row.scimUserName.isSome = true) (h : request.Deactivates unicode) :
    (∃ saved, handleScimUser unicode grouped tenant context request now newId stored = .ok saved ∧
      saved.IsDeactivated) ↔ CanDeactivate grouped context request stored := by
  obtain ⟨roles, hroles, hprepare⟩ := @prepare_of_deactivates unicode context request stored h
  constructor
  · rintro ⟨saved, hsaved, -, hstatus⟩
    obtain ⟨hgrouped, next, hnext, hsave⟩ := handleScimUser_eq_ok.mp hsaved
    obtain rfl : _ = next := Except.ok.inj (hprepare.symm.trans hnext)
    obtain ⟨-, hassignable, -, hmemberships⟩ := saveUser_eq_ok.mp hsave
    refine ⟨hgrouped, fun role hrole => hassignable role ((hroles role).mpr hrole), ?_⟩
    -- a membership that was made is active
    rw [← Option.ne_none_iff_isSome]
    intro hnone
    have hmade : ⟨newId, none, .active, []⟩ ∈
        withTenantWide newId (stored.memberships.map (setStatus false)) :=
      mem_withTenantWide.mpr (.inr ⟨by rw [find?_map_setStatus, hnone]; rfl, rfl⟩)
    have hactive := hstatus _ (hmemberships ▸ List.mem_map_of_mem hmade)
    unfold assignRoles at hactive
    split at hactive <;> exact nomatch hactive
  · rintro ⟨hgrouped, hassignable, hwide⟩
    obtain ⟨userName, huser⟩ := Option.isSome_iff_exists.mp hscim
    have hfree : stored.memberships.find? isTenantWide ≠ none := Option.ne_none_iff_isSome.mpr hwide
    refine ⟨⟨_, _⟩, handleScimUser_eq_ok.mpr ⟨hgrouped, _, hprepare, saveUser_eq_ok.mpr
      ⟨updateUser_eq_ok.mpr ⟨stored.row.displayName, rfl, hvalid.externalId, ?_, rfl⟩,
        fun role hrole => hassignable role ((hroles role).mp hrole),
        fun hnone => absurd hnone hfree, rfl⟩⟩, rfl, ?_⟩
    · have hname : (toScimUser stored).userName = userName := by
        rw [toScimUser, huser]
        rfl
      exact hname ▸ hvalid.userName userName huser
    · intro m hm
      obtain ⟨m₁, hm₁, rfl⟩ := List.mem_map.mp hm
      rcases mem_withTenantWide.mp hm₁ with hold | ⟨hnone, -⟩
      · obtain ⟨m₀, -, rfl⟩ := List.mem_map.mp hold
        unfold assignRoles
        split <;> rfl
      · rw [find?_map_setStatus, Option.map_eq_none_iff] at hnone
        exact absurd hnone hfree

/--
For every stored user and every request of a client: a `PATCH` or `PUT` that succeeds keeps what it
does not name exactly when the user is restorable, and one that only sets `active` to `false` takes
effect exactly when the client may assign what is saved.
-/
theorem scim_keeps_iff (hvalid : stored.Valid tenant)
    (hscim : stored.row.scimUserName.isSome = true) (hrequest : request ≠ .delete) :
    (∀ saved, handleScimUser unicode grouped tenant context request now newId stored = .ok saved →
      ((∀ kept, request.names unicode kept = false → Keeps stored saved kept) ↔
        Restorable unicode request stored)) ∧
    (request.Deactivates unicode →
      ((∃ saved,
          handleScimUser unicode grouped tenant context request now newId stored = .ok saved ∧
          saved.IsDeactivated) ↔
        CanDeactivate grouped context request stored)) :=
  ⟨fun _ h => keeps_iff_restorable hvalid hscim hrequest h,
    fun h => deactivates_iff hvalid hscim h⟩

end

/-! ## A department's role -/

def departmentTenant : ScimTenant := ⟨["readonly", "document_sender"], fun _ => false, fun _ => false⟩

def departmentClient : ScimContext where
  tenantId := "99999999-1111-4999-8999-999999999999"
  assignableRoles := ["readonly", "document_sender"]
  groupToRole := []

def departmentUser (departmentRoles : List RoleAssignment) : StoredUser where
  row := ⟨"99999999-3333-4999-8999-999999999999", "Anna Andersson".toList,
    some "anna@kungalv.se".toList, none, some "dir-0001".toList, some "anna@kungalv.se".toList⟩
  memberships := [
    ⟨"99999999-4444-4999-8999-999999999991", none, .active, [⟨"readonly", none⟩]⟩,
    ⟨"99999999-4444-4999-8999-999999999992", some "99999999-6666-4999-8999-999999999999", .active,
      departmentRoles⟩]

def renameRequest : ScimRequest :=
  .patch [⟨"replace".toList, some "displayName".toList, some (.lit "Anna Ny")⟩]

def renamed (departmentRoles : List RoleAssignment) : ScimResult StoredUser :=
  handleScimUser id true departmentTenant departmentClient renameRequest 0
    "99999999-5555-4999-8999-999999999999" (departmentUser departmentRoles)

def deactivateRequest : ScimRequest :=
  .patch [⟨"replace".toList, some "active".toList, some (.bool false)⟩]

def deactivated (departmentRoles : List RoleAssignment) : ScimResult StoredUser :=
  handleScimUser id true departmentTenant { departmentClient with assignableRoles := ["readonly"] }
    deactivateRequest 0 "99999999-5555-4999-8999-999999999999" (departmentUser departmentRoles)

/--
A change of the display name gives the role of the department in the whole tenant, and a
deactivation fails over a role that it does not mention.
-/
theorem rename_widens_role :
    (∃ saved, renamed [⟨"document_sender", none⟩] = .ok saved ∧
      ¬∀ kept, renameRequest.names id kept = false →
        Keeps (departmentUser [⟨"document_sender", none⟩]) saved kept) ∧
    (deactivated [⟨"document_sender", none⟩]).toOption = none := by
  have hrun : ((renamed [⟨"document_sender", none⟩]).toOption.map fun saved =>
      decide (saved.Assigns "99999999-4444-4999-8999-999999999991" ⟨"document_sender", none⟩)) =
      some true := by
    decide +kernel
  obtain ⟨saved, hsaved, hassigns⟩ := Option.map_eq_some_iff.mp hrun
  refine ⟨⟨saved, toOption_eq_some.mp hsaved, fun hkeeps => ?_⟩, by decide +kernel⟩
  have hkept := (hkeeps .groups (by decide +kernel) _ _).mp (of_decide_eq_true hassigns)
  exact absurd hkept (by decide)

/-- Where the department's role is one of the whole tenant, both requests do what they say. -/
theorem rename_keeps_role :
    (∃ saved, renamed [⟨"readonly", none⟩] = .ok saved ∧
      ∀ kept, renameRequest.names id kept = false →
        Keeps (departmentUser [⟨"readonly", none⟩]) saved kept) ∧
    ∃ saved, deactivated [⟨"readonly", none⟩] = .ok saved ∧ saved.IsDeactivated := by
  have hvalid : (departmentUser [⟨"readonly", none⟩]).Valid departmentTenant :=
    ⟨by decide, by decide, by decide, fun _ _ => rfl⟩
  have hplace : RolesInPlace (departmentUser [⟨"readonly", none⟩]) ["readonly", "readonly"] := by
    rintro ⟨role, departmentId⟩
    simp [and_comm]
  have hrun : ((renamed [⟨"readonly", none⟩]).toOption).isSome = true := by decide +kernel
  obtain ⟨saved, hsaved⟩ := Option.isSome_iff_exists.mp hrun
  have hrename : renameRequest ≠ .delete := nofun
  have hdeactivate : deactivateRequest ≠ .delete := nofun
  refine ⟨⟨saved, toOption_eq_some.mp hsaved, ?_⟩, ?_⟩
  · exact ((scim_keeps_iff hvalid rfl hrename).1 saved (toOption_eq_some.mp hsaved)).mpr
      ⟨fun _ => by decide, fun _ => by decide, fun _ => hplace⟩
  · refine ((scim_keeps_iff hvalid rfl hdeactivate).2 ⟨List.cons_ne_nil _ _, ?_⟩).mpr
      ⟨rfl, by decide, rfl⟩
    intro operation hoperation
    rw [List.mem_singleton.mp hoperation]
    exact ⟨.inl (by decide), by decide +kernel, by decide⟩

/-!
# SCIM requests on one user at the same time

A request reads the user, works out the new one in memory, and saves all of it. What another request
has saved in between is written over, unless it makes no difference to what is saved.
-/

open ReadThenWrite

abbrev ScimCall := ScimContext × ScimRequest

section

variable (unicode : Text → Text) (grouped : Bool) (tenant : ScimTenant)

abbrev ScimSave := Int × UUID

def scimService : Service StoredUser ScimCall ScimUser ScimUser ScimSave where
  read stored := (getUser grouped stored).toOption
  prepare call user := (call.2.prepare unicode call.1 (loadUser call.1 user)).toOption
  write call save user stored := (saveUser tenant call.1 save.1 save.2 user stored).toOption

/-- Only a request that names `active` enables a user. -/
def KeepsDisabled (s : Exchange StoredUser ScimCall ScimUser ScimSave) :
    Action ScimCall ScimSave → Prop
  | .read _ _ => True
  | .write i save => ∀ call seen s', s.pending i = some (call, seen) →
      call.2.names unicode .active = false → s.stored.isDisabled = true →
      (scimService unicode grouped tenant).step s (.write i save) = some s' →
      s'.stored.isDisabled = true

end

section

variable {unicode : Text → Text} {grouped : Bool} {tenant : ScimTenant}

theorem saveUser_isDisabled {context : ScimContext} {now : Int} {newId : UUID} {user : ScimUser}
    {stored saved : StoredUser} (h : saveUser tenant context now newId user stored = .ok saved) :
    saved.isDisabled = !user.active := by
  obtain ⟨_, -, -, -, hrow⟩ := updateUser_eq_ok.mp (saveUser_eq_ok.mp h).1
  rw [StoredUser.isDisabled, hrow]
  cases user.active <;> rfl

theorem keepsDisabled_of_fresh {s : Exchange StoredUser ScimCall ScimUser ScimSave}
    {action : Action ScimCall ScimSave}
    (hfresh : (scimService unicode grouped tenant).Fresh s action) :
    KeepsDisabled unicode grouped tenant s action := by
  cases action with
  | read i call => trivial
  | write i save =>
    intro call seen s' hpending hnamed hdisabled hstep
    rcases Service.step_cases hstep with ⟨hstored, -⟩ | ⟨j, added, call', seen', heq, hpending', hwrite, -⟩
    · rw [hstored]
      exact hdisabled
    · cases heq
      obtain ⟨rfl, rfl⟩ : call = call' ∧ seen = seen' := by
        simpa using hpending.symm.trans hpending'
      obtain ⟨next, hnext, hsave⟩ := Option.bind_eq_some_iff.mp hwrite
      have hsave' := toOption_eq_some.mp hsave
      -- the request makes the same of the stored user as of the one that was read
      obtain ⟨now, hread, hsame⟩ := Option.map_eq_some_iff.mp (hfresh call seen hpending)
      have hprepare := toOption_eq_some.mp (hsame.trans hnext)
      have hactive := prepare_keeps hnamed (.inl nofun) hprepare
      have hnow : now = toScimUser s.stored := by
        have hread := toOption_eq_some.mp hread
        unfold getUser at hread
        split at hread
        · exact (Except.ok.inj hread).symm
        · exact nomatch hread
      have hstays : next.active = now.active := hactive
      rw [saveUser_isDisabled hsave', hstays, hnow, toScimUser]
      unfold StoredUser.isDisabled at hdisabled
      cases hat : s.stored.row.disabledAt with
      | none => rw [hat] at hdisabled; exact nomatch hdisabled
      | some at' => rfl

/--
When every save is fresh, the stored user is that of the answered requests one after another, and
no request that does not name `active` has enabled a disabled user.
-/
theorem scim_serial_of_fresh {stored : StoredUser} {actions : List (Action ScimCall ScimSave)}
    {s : Exchange StoredUser ScimCall ScimUser ScimSave}
    (hr : run (scimService unicode grouped tenant).step (start stored) actions = some s)
    (hfresh : Meets (scimService unicode grouped tenant).step
      (scimService unicode grouped tenant).Fresh (start stored) actions) :
    (scimService unicode grouped tenant).Serial stored s ∧
      Meets (scimService unicode grouped tenant).step (KeepsDisabled unicode grouped tenant)
        (start stored) actions :=
  ⟨Service.serial_of_fresh hfresh hr, hfresh.imp fun _ _ => keepsDisabled_of_fresh⟩

end

/-! ## A deactivation and a rename -/

def exampleTenant : ScimTenant := ⟨["readonly"], fun _ => false, fun _ => false⟩

def exampleScimUser : StoredUser where
  row := ⟨"99999999-3333-4999-8999-999999999999", "Anna Andersson".toList,
    some "anna@kungalv.se".toList, none, some "dir-0001".toList, some "anna@kungalv.se".toList⟩
  memberships := [⟨"99999999-4444-4999-8999-999999999999", none, .active, [⟨"readonly", none⟩]⟩]

def exampleScimClient : ScimContext where
  tenantId := "99999999-1111-4999-8999-999999999999"
  assignableRoles := ["readonly"]
  groupToRole := [("CN=Kommunsign-Lasare".toList, "readonly")]

def deactivation : ScimCall :=
  (exampleScimClient, .patch [⟨"replace".toList, some "active".toList, some (.bool false)⟩])

def rename : ScimCall :=
  (exampleScimClient, .patch [⟨"replace".toList, some "displayName".toList, some (.lit "Anna Ny")⟩])

def exampleSave : ScimSave := (0, "99999999-5555-4999-8999-999999999999")

abbrev exampleService : Service StoredUser ScimCall ScimUser ScimUser ScimSave :=
  scimService id true exampleTenant

/-- The rename saves the user as it was before the deactivation: no order of the two does that. -/
theorem rename_enables_again :
    ∃ s, run exampleService.step (start exampleScimUser)
        [.read 0 deactivation, .read 1 rename, .write 0 exampleSave, .write 1 exampleSave] =
          some s ∧
      s.answered.length = 2 ∧ s.stored.isDisabled = false ∧
      run exampleService.apply exampleScimUser
        [(deactivation, exampleSave), (rename, exampleSave)] ≠ some s.stored ∧
      run exampleService.apply exampleScimUser
        [(rename, exampleSave), (deactivation, exampleSave)] ≠ some s.stored := by
  have hrun : (run exampleService.step (start exampleScimUser)
      [.read 0 deactivation, .read 1 rename, .write 0 exampleSave, .write 1 exampleSave]).map
        (fun s => (s.answered.length, s.stored.isDisabled,
          run exampleService.apply exampleScimUser
            [(deactivation, exampleSave), (rename, exampleSave)] != some s.stored,
          run exampleService.apply exampleScimUser
            [(rename, exampleSave), (deactivation, exampleSave)] != some s.stored)) =
      some (2, false, true, true) := by
    decide +kernel
  obtain ⟨s, hs, heq⟩ := Option.map_eq_some_iff.mp hrun
  simp only [Prod.mk.injEq, bne_iff_ne] at heq
  exact ⟨s, hs, heq⟩

/-- One after the other, the user is renamed and stays disabled. -/
theorem rename_after_deactivation :
    ∃ s, run exampleService.step (start exampleScimUser)
        [.read 0 deactivation, .write 0 exampleSave, .read 1 rename, .write 1 exampleSave] =
          some s ∧
      s.stored.isDisabled = true ∧ exampleService.Serial exampleScimUser s := by
  have hrun : (run exampleService.step (start exampleScimUser)
      [.read 0 deactivation, .write 0 exampleSave, .read 1 rename, .write 1 exampleSave]).map
        (·.stored.isDisabled) = some true := by
    decide +kernel
  have hfresh : Meets exampleService.step exampleService.Fresh (start exampleScimUser)
      [.read 0 deactivation, .write 0 exampleSave, .read 1 rename, .write 1 exampleSave] := by
    decide +kernel
  obtain ⟨s, hs, heq⟩ := Option.map_eq_some_iff.mp hrun
  exact ⟨s, hs, heq, (scim_serial_of_fresh hs hfresh).1⟩

/-! ## What no interleaving takes away -/

theorem roles_of_saveUser {tenant : ScimTenant} {context : ScimContext} {now : Int} {newId : UUID}
    {user : ScimUser} {stored saved : StoredUser}
    (h : saveUser tenant context now newId user stored = .ok saved) :
    ∀ role ∈ saved.roles, role ∈ stored.roles ∨ role ∈ context.assignableRoles := by
  obtain ⟨-, hassignable, -, hmemberships⟩ := saveUser_eq_ok.mp h
  intro role hrole
  obtain ⟨m, hm, a, ha, rfl⟩ := mem_roles.mp hrole
  rw [hmemberships] at hm
  obtain ⟨m', hm', rfl⟩ := List.mem_map.mp hm
  unfold assignRoles at ha
  split at ha
  · exact Or.inr (hassignable _ (mem_grantedAssignments.mp ha).2.1)
  · rcases mem_withTenantWide.mp hm' with hold | ⟨-, rfl⟩
    · obtain ⟨m₀, hm₀, rfl⟩ := List.mem_map.mp hold
      exact Or.inl (mem_roles.mpr ⟨m₀, hm₀, a, ha, rfl⟩)
    · exact absurd ha List.not_mem_nil

/--
However the requests interleave, the user meets the constraints of the database, and has no role
that it did not have before and that no client of a request that was carried out may assign.
-/
theorem scim_roles_granted {unicode : Text → Text} {grouped : Bool} {tenant : ScimTenant}
    {stored : StoredUser} {actions : List (Action ScimCall ScimSave)}
    {s : Exchange StoredUser ScimCall ScimUser ScimSave} (hvalid : stored.Valid tenant)
    (hr : run (scimService unicode grouped tenant).step (start stored) actions = some s) :
    s.stored.Valid tenant ∧ ∀ role ∈ s.stored.roles,
      role ∈ stored.roles ∨ ∃ answer ∈ s.answered, role ∈ answer.1.1.assignableRoles := by
  let granted (s : Exchange StoredUser ScimCall ScimUser ScimSave) : Prop :=
    s.stored.Valid tenant ∧ ∀ role ∈ s.stored.roles,
      role ∈ stored.roles ∨ ∃ answer ∈ s.answered, role ∈ answer.1.1.assignableRoles
  suffices hall : granted s from hall
  refine run_invariant ?_ ⟨hvalid, fun role hrole => Or.inl hrole⟩ hr
  rintro s action s' ⟨hvalid, hroles⟩ hstep
  rcases Service.step_cases hstep with ⟨hstored, hanswered⟩ |
    ⟨i, save, call, seen, -, -, hwrite, hanswered⟩
  · refine ⟨hstored ▸ hvalid, ?_⟩
    rw [hstored, hanswered]
    exact hroles
  · obtain ⟨next, -, hsave⟩ := Option.bind_eq_some_iff.mp hwrite
    have hok := toOption_eq_some.mp hsave
    refine ⟨saveUser_valid hvalid hok, fun role hrole => ?_⟩
    rw [hanswered]
    rcases roles_of_saveUser hok role hrole with hbefore | hassignable
    · refine (hroles role hbefore).imp_right ?_
      rintro ⟨answer, hanswer, hmay⟩
      exact ⟨answer, List.mem_append_left _ hanswer, hmay⟩
    · exact Or.inr ⟨_, List.mem_append_right _ List.mem_cons_self, hassignable⟩

/-- Even where the rename undoes the deactivation. -/
theorem scim_roles_of_rename : ∃ s, run exampleService.step (start exampleScimUser)
    [.read 0 deactivation, .read 1 rename, .write 0 exampleSave, .write 1 exampleSave] = some s ∧
      s.stored.Valid exampleTenant := by
  have hvalid : exampleScimUser.Valid exampleTenant :=
    ⟨by decide, by decide, by decide, fun _ _ => rfl⟩
  have hrun := (Option.some_get (by decide +kernel : (run exampleService.step
    (start exampleScimUser) [.read 0 deactivation, .read 1 rename, .write 0 exampleSave,
      .write 1 exampleSave]).isSome)).symm
  exact ⟨_, hrun, (scim_roles_granted hvalid hrun).1⟩

end Kommunsign
