import Kommunsign.Data.Policy
import Kommunsign.Data.Texts
import Kommunsign.Infra.Transaction

/-!
# What a SCIM request means

A directory changes a user by `PATCH`, replaces one by `PUT` and removes one by `DELETE`. Each is
worked out on the user as it was read, in memory.

* `applyScimPatch` — the operations of a `PATCH`, in their order
* `resolveScimRoles`, `applyGroupMembership` — the roles that groups stand for
-/

namespace Kommunsign

open Infra

inductive ScimErrorCode where
  | SCIM_TENANT_MISMATCH
  | SCIM_INVALID_VALUE
  | SCIM_INVALID_PATH
  | SCIM_ROLE_NOT_ASSIGNABLE
  deriving DecidableEq

/-- Whatever is not a `ScimError` is answered with 500. -/
inductive ScimFailure where
  | scim (code : ScimErrorCode) (message : Text)
  | internal
  deriving DecidableEq

structure ScimUser where
  id : UUID
  tenantId : UUID
  externalId : Option Text
  userName : Text
  displayName : Option Text
  email : Option Text
  active : Bool
  roles : List String
  deriving DecidableEq

structure ScimContext where
  tenantId : UUID
  assignableRoles : List String
  groupToRole : List (Text × String)

abbrev ScimResult := Except ScimFailure

def scimError (code : ScimErrorCode) (message : String) : ScimFailure := .scim code message.toList

def assertScimTenant (context : ScimContext) (user : ScimUser) : ScimResult Unit := do
  if user.tenantId ≠ context.tenantId then
    throw (scimError .SCIM_TENANT_MISMATCH "Resource does not exist")

/-! ## Values -/

/-- `none` is `undefined`. -/
def requireNonEmpty (value : Option Json) (field : String) : ScimResult Text :=
  match value with
  | some (.str s) =>
    if trim s = [] then throw (scimError .SCIM_INVALID_VALUE (field ++ " is required"))
    else return trim s
  | _ => throw (scimError .SCIM_INVALID_VALUE (field ++ " is required"))

/-- `emails.find((entry) => entry.primary)`; `null` has no members to ask for. -/
def findPrimary : List Json → ScimResult (Option Json)
  | [] => return none
  | .null :: _ => throw .internal
  | entry :: entries =>
    if Json.isTruthy (entry.field "primary") then return some entry
    else findPrimary entries

section

variable (unicode : Text → Text)

def primaryEmail (emails : List Json) : ScimResult (Option Text) := do
  let found ← findPrimary emails
  match (found.or emails.head?).bind (·.field "value") with
  | some (.str s) => return if s.contains '@' then some (toLowerCase unicode (trim s)) else none
  | _ => return none

/-! ## PATCH -/

structure ScimPatchOperation where
  op : Text
  path : Option Text
  value : Option Json

/-- The attributes of a user that a request may set, and the groups that stand for roles. -/
inductive ScimAttribute where
  | active
  | displayName
  | userName
  | externalId
  | emails
  | groups
  deriving DecidableEq

/-- `PATCHABLE_PATHS`, in lower case. -/
def ScimAttribute.path : ScimAttribute → String
  | .active => "active"
  | .displayName => "displayname"
  | .userName => "username"
  | .externalId => "externalid"
  | .emails => "emails"
  | .groups => "groups"

/-- Groups cannot be patched. -/
def patchablePath (path : Text) : Option ScimAttribute :=
  [.active, .displayName, .userName, .externalId, .emails].find?
    fun patchable => ScimAttribute.path patchable == String.ofList (toLowerCase unicode path)

/-- Entra sends booleans, some directories send the strings "True"/"False". -/
def activeValue (value : Option Json) : ScimResult Bool :=
  match value with
  | some (.bool b) => return b
  | some (.str s) =>
    if toLowerCase unicode s = "true".toList then return true
    else if toLowerCase unicode s = "false".toList then return false
    else throw (scimError .SCIM_INVALID_VALUE "active must be a boolean")
  | _ => throw (scimError .SCIM_INVALID_VALUE "active must be a boolean")

/-- `value === null ? null : requireNonEmpty(value, field)` -/
def nullOrNonEmpty (value : Option Json) (field : String) : ScimResult (Option Text) :=
  match value with
  | some .null => return none
  | _ => some <$> requireNonEmpty value field

def notWritable (path : Text) : ScimFailure :=
  scimError .SCIM_INVALID_PATH ("Attribute " ++ String.ofList path ++ " is not writable over SCIM")

def applySingleAttribute (user : ScimUser) (path : Text) (value : Option Json) :
    ScimResult ScimUser :=
  match patchablePath unicode path with
  | some .active => do return { user with active := ← activeValue unicode value }
  | some .displayName => do return { user with displayName := ← nullOrNonEmpty value "displayName" }
  | some .userName => do return { user with userName := ← requireNonEmpty value "userName" }
  | some .externalId => do return { user with externalId := ← nullOrNonEmpty value "externalId" }
  | some .emails => do
    let emails := match value with
      | some (.arr items) => items
      | _ => []
    return { user with email := ← primaryEmail unicode emails }
  | some .groups | none => throw (notWritable path)

/-- `Object.entries`: the items of an array under their positions. -/
def entries : Json → List (Text × Json)
  | .obj members => members
  | .arr items => items.zipIdx.map fun (item, i) => (Nat.toDigits 10 i, item)
  | _ => []

def applyEntries (user : ScimUser) : List (Text × Json) → ScimResult ScimUser
  | [] => return user
  | (key, value) :: rest => do
    let next ← applySingleAttribute unicode user key (some value)
    applyEntries next rest

inductive ScimPatchOp where
  | replace
  | add
  | remove
  deriving DecidableEq

def ScimPatchOp.ofText (op : Text) : ScimResult ScimPatchOp :=
  if toLowerCase unicode op = "replace".toList then return .replace
  else if toLowerCase unicode op = "add".toList then return .add
  else if toLowerCase unicode op = "remove".toList then return .remove
  else throw (scimError .SCIM_INVALID_VALUE ("Unsupported patch operation " ++ String.ofList op))

/-- `!operation.value || typeof operation.value !== 'object'` -/
def objectValue (value : Option Json) : ScimResult Json :=
  match value with
  | some (.arr items) => return .arr items
  | some (.obj members) => return .obj members
  | _ => throw (scimError .SCIM_INVALID_VALUE "Patch without a path requires an object value")

def applyOperation (user : ScimUser) (operation : ScimPatchOperation) : ScimResult ScimUser := do
  let op ← ScimPatchOp.ofText unicode operation.op
  match operation.path with
  | none =>
    if op = .remove then throw (scimError .SCIM_INVALID_PATH "remove requires a path")
    let value ← objectValue operation.value
    applyEntries unicode user (entries value)
  | some path =>
    if (patchablePath unicode path).isNone then throw (notWritable path)
    applySingleAttribute unicode user (toLowerCase unicode path)
      (if op = .remove then some .null else operation.value)

def applyOperations (user : ScimUser) : List ScimPatchOperation → ScimResult ScimUser
  | [] => return user
  | operation :: rest => do
    let next ← applyOperation unicode user operation
    applyOperations next rest

def applyScimPatch (context : ScimContext) (user : ScimUser)
    (operations : List ScimPatchOperation) : ScimResult ScimUser := do
  assertScimTenant context user
  applyOperations unicode user operations

/-! ## Groups -/

def roleNotAssignable (message : String) : ScimFailure :=
  scimError .SCIM_ROLE_NOT_ASSIGNABLE message

/-- `context.groupToRole[group]`; a member of every object is not the name of a role. -/
def mappedRole (context : ScimContext) (group : Text) : ScimResult (Option String) :=
  match context.groupToRole.find? (·.1 == group) with
  | some (_, role) =>
    if context.assignableRoles.contains role then return some role
    else throw (roleNotAssignable ("Group " ++ String.ofList group ++ " maps to role " ++ role ++
      ", which this provisioning client may not assign"))
  | none =>
    if objectPrototype.contains (String.ofList group) then
      throw (roleNotAssignable ("Group " ++ String.ofList group ++
        " maps to a role which this provisioning client may not assign"))
    else return none

def resolveGroups (context : ScimContext) (roles : List String) :
    List Text → ScimResult (List String)
  | [] => return roles
  | group :: groups => do
    match ← mappedRole context group with
    | none => resolveGroups context roles groups
    | some role => resolveGroups context (if roles.contains role then roles else roles ++ [role]) groups

def resolveScimRoles (context : ScimContext) (groups : List Text) : ScimResult (List String) :=
  sortStrings <$> resolveGroups context [] groups

def applyGroupMembership (context : ScimContext) (user : ScimUser) (groups : List Text) :
    ScimResult ScimUser := do
  assertScimTenant context user
  return { user with roles := ← resolveScimRoles context groups }

/-- With history or without, the row stays. -/
def deprovisionScimUser (context : ScimContext) (user : ScimUser) : ScimResult ScimUser := do
  assertScimTenant context user
  return { user with active := false }

/-! ## Requests -/

structure ScimGroupRef where
  value : Option Json
  display : Option Json

structure ScimUserWrite where
  userName : Option Json
  displayName : Option Json
  externalId : Option Json
  emails : Option Json
  active : Option Json
  groups : Option (List ScimGroupRef)

/-- Group values as the directory sends them. -/
def groupsFrom (write : ScimUserWrite) : List Text :=
  (write.groups.getD []).filterMap fun group =>
    match (match group.display with
      | none | some .null => group.value
      | some display => some display) with
    | some (.str s) => if trim s = [] then none else some s
    | _ => none

def writeAsAttributes (write : ScimUserWrite) : ScimResult Json :=
  let attributes := [("userName", write.userName), ("displayName", write.displayName),
    ("externalId", write.externalId), ("emails", write.emails), ("active", write.active)].filterMap
      fun (name, value) => value.map fun v => (name.toList, v)
  if attributes.isEmpty then throw (scimError .SCIM_INVALID_VALUE "No writable attribute was supplied")
  else return .obj attributes

inductive ScimRequest where
  | put (write : ScimUserWrite)
  | patch (operations : List ScimPatchOperation)
  | delete

def replaceUser (context : ScimContext) (user : ScimUser) (write : ScimUserWrite) :
    ScimResult ScimUser := do
  let attributes ← writeAsAttributes write
  let replaced ← applyScimPatch unicode context user [⟨"replace".toList, none, some attributes⟩]
  applyGroupMembership context replaced (groupsFrom write)

def patchUser (context : ScimContext) (user : ScimUser) (operations : List ScimPatchOperation) :
    ScimResult ScimUser := do
  if operations.isEmpty then
    throw (scimError .SCIM_INVALID_VALUE "A PATCH must carry at least one operation")
  applyScimPatch unicode context user operations

def deleteUser (context : ScimContext) (user : ScimUser) : ScimResult ScimUser := do
  let outcome ← deprovisionScimUser context user
  return { outcome with roles := [] }

/-- What is saved, of the user that was read. -/
def ScimRequest.prepare (request : ScimRequest) (context : ScimContext) (user : ScimUser) :
    ScimResult ScimUser :=
  match request with
  | .put write => replaceUser unicode context user write
  | .patch operations => patchUser unicode context user operations
  | .delete => deleteUser context user

/-! ## What a request names -/

def ScimPatchOperation.names (operation : ScimPatchOperation) (named : ScimAttribute) : Bool :=
  match operation.path with
  | some path => patchablePath unicode (toLowerCase unicode path) == some named
  | none =>
    ((operation.value.map entries).getD []).any fun entry => patchablePath unicode entry.1 == some named

def ScimUserWrite.names (write : ScimUserWrite) : ScimAttribute → Bool
  | .active => write.active.isSome
  | .displayName => write.displayName.isSome
  | .userName => write.userName.isSome
  | .externalId => write.externalId.isSome
  | .emails => write.emails.isSome
  | .groups => write.groups.isSome

def ScimRequest.names (request : ScimRequest) (named : ScimAttribute) : Bool :=
  match request with
  | .put write => write.names named
  | .patch operations => operations.any (·.names unicode named)
  | .delete => named == .active || named == .groups

end

/-- The users have the same value of an attribute. -/
def ScimUser.Agrees (user other : ScimUser) : ScimAttribute → Prop
  | .active => user.active = other.active
  | .displayName => user.displayName = other.displayName
  | .userName => user.userName = other.userName
  | .externalId => user.externalId = other.externalId
  | .emails => user.email = other.email
  | .groups => user.roles = other.roles

theorem ScimUser.Agrees.refl (user : ScimUser) : ∀ kept, user.Agrees user kept
  | .active | .displayName | .userName | .externalId | .emails | .groups => rfl

theorem ScimUser.Agrees.trans {a b c : ScimUser} :
    ∀ {kept}, a.Agrees b kept → b.Agrees c kept → a.Agrees c kept
  | .active, h, h' => Eq.trans h h'
  | .displayName, h, h' => Eq.trans h h'
  | .userName, h, h' => Eq.trans h h'
  | .externalId, h, h' => Eq.trans h h'
  | .emails, h, h' => Eq.trans h h'
  | .groups, h, h' => Eq.trans h h'

section

variable {unicode : Text → Text}

theorem applySingleAttribute_keeps {user next : ScimUser} {path : Text} {value : Option Json}
    {kept : ScimAttribute} (hnamed : patchablePath unicode path ≠ some kept)
    (h : applySingleAttribute unicode user path value = .ok next) : next.Agrees user kept := by
  unfold applySingleAttribute at h
  cases hpath : patchablePath unicode path with
  | none => simp only [hpath] at h; exact nomatch h
  | some named =>
    have hne : named ≠ kept := fun heq => hnamed (heq ▸ hpath)
    simp only [hpath] at h
    cases named with
    | groups => exact nomatch h
    | active | displayName | userName | externalId | emails =>
      obtain ⟨_, -, hnext⟩ := except_bind_eq_ok.mp h
      cases hnext
      -- only the named attribute has changed
      cases kept <;> first | rfl | exact absurd rfl hne

theorem applyEntries_keeps {kept : ScimAttribute} :
    ∀ {members : List (Text × Json)} {user next : ScimUser},
      (∀ entry ∈ members, patchablePath unicode entry.1 ≠ some kept) →
      applyEntries unicode user members = .ok next → next.Agrees user kept
  | [], user, _, _, h => by
    cases h
    exact ScimUser.Agrees.refl user kept
  | (key, value) :: rest, user, next, hnamed, h => by
    obtain ⟨mid, hmid, hrest⟩ := except_bind_eq_ok.mp h
    have hfirst := applySingleAttribute_keeps (hnamed _ List.mem_cons_self) hmid
    exact (applyEntries_keeps (fun e he => hnamed e (List.mem_cons_of_mem _ he)) hrest).trans hfirst

theorem objectValue_eq_ok {value : Option Json} {object : Json}
    (h : objectValue value = .ok object) : value = some object := by
  unfold objectValue at h
  split at h
  · cases h; rfl
  · cases h; rfl
  · exact nomatch h

theorem applyOperation_keeps {user next : ScimUser} {operation : ScimPatchOperation}
    {kept : ScimAttribute} (hnamed : operation.names unicode kept = false)
    (h : applyOperation unicode user operation = .ok next) : next.Agrees user kept := by
  unfold applyOperation at h
  unfold ScimPatchOperation.names at hnamed
  obtain ⟨op, -, h⟩ := except_bind_eq_ok.mp h
  cases hpath : operation.path with
  | none =>
    simp only [hpath] at h hnamed
    obtain ⟨-, h⟩ := except_guard_eq_ok.mp h
    obtain ⟨object, hobject, h⟩ := except_bind_eq_ok.mp h
    rw [objectValue_eq_ok hobject] at hnamed
    refine applyEntries_keeps (fun entry hentry => ?_) h
    simpa using List.any_eq_false.mp hnamed entry hentry
  | some path =>
    simp only [hpath] at h hnamed
    obtain ⟨-, h⟩ := except_guard_eq_ok.mp h
    exact applySingleAttribute_keeps (by simpa using hnamed) h

theorem applyOperations_keeps {kept : ScimAttribute} :
    ∀ {operations : List ScimPatchOperation} {user next : ScimUser},
      operations.any (·.names unicode kept) = false →
      applyOperations unicode user operations = .ok next → next.Agrees user kept
  | [], user, _, _, h => by
    cases h
    exact ScimUser.Agrees.refl user kept
  | operation :: rest, user, next, hnamed, h => by
    rw [List.any_cons, Bool.or_eq_false_iff] at hnamed
    obtain ⟨mid, hmid, hrest⟩ := except_bind_eq_ok.mp h
    exact (applyOperations_keeps hnamed.2 hrest).trans (applyOperation_keeps hnamed.1 hmid)

theorem applyScimPatch_keeps {context : ScimContext} {user next : ScimUser}
    {operations : List ScimPatchOperation} {kept : ScimAttribute}
    (hnamed : operations.any (·.names unicode kept) = false)
    (h : applyScimPatch unicode context user operations = .ok next) : next.Agrees user kept := by
  obtain ⟨_, -, h⟩ := except_bind_eq_ok.mp h
  exact applyOperations_keeps hnamed h

/-- The name of an attribute in a body. -/
def ScimAttribute.name : ScimAttribute → String
  | .active => "active"
  | .displayName => "displayName"
  | .userName => "userName"
  | .externalId => "externalId"
  | .emails => "emails"
  | .groups => "groups"

theorem patchablePath_name {named : ScimAttribute} (h : named ≠ .groups) :
    patchablePath unicode named.name.toList = some named := by
  cases named with
  | groups => exact absurd rfl h
  | active | displayName | userName | externalId | emails =>
    simp [patchablePath, toLowerCase, ScimAttribute.path, ScimAttribute.name]

theorem writeAsAttributes_names {write : ScimUserWrite} {attributes : Json} {kept : ScimAttribute}
    (hnamed : write.names kept = false) (h : writeAsAttributes write = .ok attributes) :
    ScimPatchOperation.names unicode ⟨"replace".toList, none, some attributes⟩ kept = false := by
  unfold writeAsAttributes at h
  dsimp only at h
  split at h
  · exact nomatch h
  cases h
  rw [ScimPatchOperation.names, List.any_eq_false]
  intro entry hentry
  obtain ⟨⟨name, value⟩, hmem, hentry⟩ := List.mem_filterMap.mp hentry
  obtain ⟨v, hv, rfl⟩ := Option.map_eq_some_iff.mp hentry
  have hname : ∃ named : ScimAttribute, named ≠ .groups ∧ name = named.name ∧
      (write.names named = false → value = none) := by
    simp only [List.mem_cons, Prod.mk.injEq, List.not_mem_nil, or_false] at hmem
    rcases hmem with ⟨rfl, rfl⟩ | ⟨rfl, rfl⟩ | ⟨rfl, rfl⟩ | ⟨rfl, rfl⟩ | ⟨rfl, rfl⟩
    · exact ⟨.userName, nofun, rfl, by simp [ScimUserWrite.names]⟩
    · exact ⟨.displayName, nofun, rfl, by simp [ScimUserWrite.names]⟩
    · exact ⟨.externalId, nofun, rfl, by simp [ScimUserWrite.names]⟩
    · exact ⟨.emails, nofun, rfl, by simp [ScimUserWrite.names]⟩
    · exact ⟨.active, nofun, rfl, by simp [ScimUserWrite.names]⟩
  obtain ⟨named, hgroups, rfl, hnone⟩ := hname
  rw [patchablePath_name hgroups, beq_iff_eq, Option.some.injEq]
  rintro rfl
  exact nomatch hv.symm.trans (hnone hnamed)

theorem prepare_keeps {request : ScimRequest} {context : ScimContext} {user next : ScimUser}
    {kept : ScimAttribute} (hnamed : request.names unicode kept = false)
    (hkept : kept ≠ .groups ∨ ∃ operations, request = .patch operations)
    (h : request.prepare unicode context user = .ok next) : next.Agrees user kept := by
  cases request with
  | put write =>
    obtain ⟨attributes, hattributes, h⟩ := except_bind_eq_ok.mp h
    obtain ⟨replaced, hreplaced, h⟩ := except_bind_eq_ok.mp h
    obtain ⟨_, -, h⟩ := except_bind_eq_ok.mp h
    obtain ⟨roles, -, h⟩ := except_bind_eq_ok.mp h
    cases h
    have hnames := @writeAsAttributes_names unicode _ _ _ hnamed hattributes
    have hagrees := applyScimPatch_keeps (by rw [List.any_cons, hnames, List.any_nil]; rfl) hreplaced
    rcases hkept with hkept | ⟨_, hput⟩
    · cases kept <;> first | exact hagrees | exact absurd rfl hkept
    · exact nomatch hput
  | patch operations =>
    rw [ScimRequest.prepare, patchUser, except_guard_eq_ok] at h
    exact applyScimPatch_keeps hnamed h.2
  | delete =>
    obtain ⟨_, h', h⟩ := except_bind_eq_ok.mp h
    obtain ⟨_, -, h'⟩ := except_bind_eq_ok.mp h'
    cases h'
    cases h
    cases kept <;> first | rfl | exact nomatch hnamed

end

end Kommunsign
