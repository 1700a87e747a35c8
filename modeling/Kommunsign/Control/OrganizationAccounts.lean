import Kommunsign.Data.Rows
import Kommunsign.Infra.Lists
import Kommunsign.Infra.Run
import Kommunsign.Infra.Table
import Kommunsign.Scim.Repository

/-!
# The accounts of one organization

An invitation of a user is a row of the control plane; what gives access are the rows of the data
plane: the user, its memberships and their roles. `inviteOrganizationUser` goes through several
transactions with calls of the identity provider between them, and so does
`setOrganizationUserStatus`. A blind index is represented by its purpose and the address.

* `provisionTenantUser`, `setTenantUserEnabled`, `saveScimUser` — the transactions of the data plane
* `recordInvitation` — the upsert of the control plane
-/

namespace Kommunsign

open Infra

/-- The role keys that `provisionTenantUser` replaces. -/
def managedRoleKeys : List String :=
  ["tenant_admin", "tenant_security_admin", "tenant_integration_admin", "tenant_archive_admin",
    "department_admin", "document_creator", "document_sender", "approver", "auditor", "readonly"]

structure AddressIndex where
  purpose : String
  value : Text
  deriving DecidableEq

/-- A row of `app.users`. -/
structure AccountUser where
  id : Id
  externalSubject : Text
  displayName : Text
  emailBlindIndex : Option AddressIndex
  disabledAt : Option Time
  createdAt : Time
  deriving DecidableEq

/-- A row of `app.memberships`. -/
structure AccountMembership where
  id : Id
  userId : Id
  departmentId : Option Id
  status : MembershipStatus
  createdAt : Time
  deriving DecidableEq

/-- A row of `app.role_assignments`, with the key of its role. -/
structure AccountRole where
  membershipId : Id
  roleKey : String
  departmentId : Option Id
  deriving DecidableEq

inductive InvitationStatus where
  | invited | active | disabled | revoked | failed
  deriving DecidableEq

/-- A row of `control.organization_account_invitations`. -/
structure AccountInvitation where
  id : Id
  providerUserId : Text
  displayName : Text
  email : Text
  roleKey : String
  status : InvitationStatus
  idempotencyKey : String
  acceptedAt : Option Time
  disabledAt : Option Time
  deriving DecidableEq

structure OrganizationUserInput where
  email : Text
  displayName : Text
  roleKey : String
  deriving DecidableEq

/-! ## The data plane -/

structure TenantUsers where
  roles : List String
  users : List AccountUser
  memberships : List AccountMembership
  assignments : List AccountRole
  deriving DecidableEq

namespace TenantUsers

/-- `order by created_at limit 1` of the users with the subject or with the address. -/
def findUser (s : TenantUsers) (subject email : Text) : Option AccountUser :=
  minBy (fun user => (user.createdAt : Int)) (s.users.filter fun user =>
    user.externalSubject == subject || user.emailBlindIndex == some ⟨"tenant.user_email", email⟩)

def findMembership (s : TenantUsers) (userId : Id) : Option AccountMembership :=
  minBy (fun m => (m.createdAt : Int)) (s.memberships.filter (·.userId == userId))

/-- The user is updated, or inserted with a new id; `none`: the unique subject is taken. -/
def upsertUser (s : TenantUsers) (subject displayName email : Text) (newId : Id) (now : Time) :
    Option (Id × TenantUsers) :=
  match s.findUser subject email with
  | some user =>
    if s.users.any fun other => other.id != user.id && other.externalSubject == subject then none
    else some (user.id, { s with
      users := assign (·.id == user.id) (fun user => { user with
        externalSubject := subject
        displayName := displayName
        emailBlindIndex := some ⟨"tenant.user_email", email⟩
        disabledAt := none }) s.users })
  | none =>
    if s.users.any (·.id == newId) then none
    else some (newId, { s with users := s.users ++
      [⟨newId, subject, displayName, some ⟨"tenant.user_email", email⟩, none, now⟩] })

def upsertMembership (s : TenantUsers) (userId newId : Id) (now : Time) :
    Option (Id × TenantUsers) :=
  match s.findMembership userId with
  | some m =>
    some (m.id, { s with
      memberships := assign (·.id == m.id) (fun m => { m with status := .active }) s.memberships })
  | none =>
    if s.memberships.any (·.id == newId) then none
    else some (newId, { s with memberships := s.memberships ++ [⟨newId, userId, none, .active, now⟩] })

def replaceRole (s : TenantUsers) (membershipId : Id) (roleKey : String) : Option TenantUsers :=
  -- `ORGANIZATION_ROLE_NOT_PROVISIONED`
  if !s.roles.contains roleKey then none
  else some { s with
    assignments := (s.assignments.filter fun a =>
      !(a.membershipId == membershipId && managedRoleKeys.contains a.roleKey)) ++
        [⟨membershipId, roleKey, none⟩] }

/-- `none`: the transaction fails and leaves nothing. -/
def provisionTenantUser (s : TenantUsers) (subject : Text) (input : OrganizationUserInput)
    (newUserId newMembershipId : Id) (now : Time) : Option TenantUsers :=
  match s.upsertUser subject input.displayName input.email newUserId now with
  | none => none
  | some (userId, s₁) =>
    match s₁.upsertMembership userId newMembershipId now with
    | none => none
    | some (membershipId, s₂) => s₂.replaceRole membershipId input.roleKey

/-- `none` is `ORGANIZATION_USER_NOT_FOUND`. -/
def setTenantUserEnabled (s : TenantUsers) (subject : Text) (enabled : Bool) (now : Time) :
    Option TenantUsers :=
  match s.users.find? (·.externalSubject == subject) with
  | none => none
  | some user =>
    some { s with
      users := assign (·.externalSubject == subject)
        (fun user => { user with disabledAt := if enabled then none else some now }) s.users
      memberships := assign (·.userId == user.id)
        (fun m => { m with status := if enabled then .active else .disabled }) s.memberships }

/-- `saveUser` of the SCIM repository, on a user that has a membership for the whole tenant. -/
def saveScimUser (s : TenantUsers) (userId : Id) (displayName : Text)
    (emailBlindIndex : Option AddressIndex) (active : Bool) (granted : List String) (now : Time) :
    Option TenantUsers :=
  match s.memberships.find? fun m => m.userId == userId && m.departmentId.isNone with
  | none => none
  | some tenantWide =>
    some { s with
      users := assign (·.id == userId) (fun user => { user with
        displayName := displayName
        emailBlindIndex := emailBlindIndex
        disabledAt := if active then none else some (user.disabledAt.getD now) }) s.users
      memberships := assign (·.userId == userId)
        (fun m => { m with status := if active then .active else .disabled }) s.memberships
      assignments := (s.assignments.filter fun a => a.membershipId != tenantWide.id) ++
        ((s.roles.filter granted.contains).map fun roleKey => ⟨tenantWide.id, roleKey, none⟩) }

end TenantUsers

/-! ## The calls under way -/

/-- What `inviteOrFindUser` answers. -/
inductive ProviderState where
  | invited | pending | active
  deriving DecidableEq

inductive InviteStage where
  /-- After the lookup; `none` when there is no row, or one that has failed. -/
  | lookedUp (existing : Option AccountInvitation)
  /-- `assertOrganizationAccountProvisionable` has passed. -/
  | admitted (existing : Option AccountInvitation)
  | answered (providerUserId : Text) (state : ProviderState)
  | recorded (invitationId : Id) (providerUserId : Text) (state : ProviderState)
  /-- The user of a new invitation is provisioned. -/
  | granted (invitationId : Id) (state : ProviderState)
  /-- The user of an invitation that was there already is provisioned again. -/
  | repeated
  /-- Something was thrown after the invitation was recorded. -/
  | failing (invitationId : Id)
  deriving DecidableEq

structure InviteCall where
  key : String
  input : OrganizationUserInput
  /-- A call with this key and input has returned before this one began. -/
  replay : Bool
  stage : InviteStage
  deriving DecidableEq

structure StatusCall where
  accountId : Id
  providerUserId : Text
  enabled : Bool
  /-- The data plane is done. -/
  applied : Bool
  deriving DecidableEq

inductive AccountCall where
  | invite (call : InviteCall)
  | status (call : StatusCall)
  deriving DecidableEq

structure OrganizationAccounts where
  /-- What `assertOrganizationAccountProvisionable` looks at besides the role. -/
  environmentReady : Bool
  invitations : List AccountInvitation
  tenant : TenantUsers
  calls : List (Option AccountCall)
  /-- The calls of `inviteOrganizationUser` that have returned. -/
  completed : List (String × OrganizationUserInput)
  deriving DecidableEq

namespace OrganizationAccounts

def setCall (s : OrganizationAccounts) (i : Nat) (call : Option AccountCall) :
    OrganizationAccounts :=
  { s with calls := s.calls.set i call }

def setInvite (s : OrganizationAccounts) (i : Nat) (call : InviteCall) (stage : InviteStage) :
    OrganizationAccounts :=
  s.setCall i (some (.invite { call with stage := stage }))

def inviteAt (s : OrganizationAccounts) (i : Nat) : Option InviteCall :=
  match s.calls[i]?.join with
  | some (.invite call) => some call
  | _ => none

/-- The start of `inviteOrganizationUser`; `none` is `IDEMPOTENCY_CONFLICT`. -/
def lookUpInvitation (s : OrganizationAccounts) (key : String) (input : OrganizationUserInput) :
    Option (Option AccountInvitation) :=
  match s.invitations.find? (·.idempotencyKey == key) with
  | none => some none
  | some row =>
    if row.email ≠ input.email ∨ row.displayName ≠ input.displayName ∨
        row.roleKey ≠ input.roleKey then none
    else if row.status ≠ .failed then some (some row)
    else some none

/-- `unique (tenant_id, idempotency_key)` and `organization_account_invitations_active_email_idx` -/
def conflicts (row other : AccountInvitation) : Bool :=
  other.id != row.id && (other.idempotencyKey == row.idempotencyKey ||
    other.email == row.email && [.invited, .active].contains other.status)

/-- `insert … on conflict(tenant_id,provider,provider_user_id) do update` -/
def recordInvitation (s : OrganizationAccounts) (call : InviteCall) (providerUserId : Text)
    (state : ProviderState) (newId : Id) (now : Time) : Option (Id × OrganizationAccounts) :=
  let status : InvitationStatus := if state = .active then .active else .invited
  match s.invitations.find? (·.providerUserId == providerUserId) with
  | some old =>
    let row : AccountInvitation :=
      ⟨old.id, providerUserId, call.input.displayName, call.input.email, call.input.roleKey, status,
        call.key, if status = .active then some (old.acceptedAt.getD now) else old.acceptedAt, none⟩
    if s.invitations.any (conflicts row) then none
    else some (old.id, { s with
      invitations := assign (·.providerUserId == providerUserId) (fun _ => row) s.invitations })
  | none =>
    let row : AccountInvitation :=
      ⟨newId, providerUserId, call.input.displayName, call.input.email, call.input.roleKey, status,
        call.key, if status = .active then some now else none, none⟩
    if s.invitations.any (·.id == newId) || s.invitations.any (conflicts row) then none
    else some (newId, { s with invitations := s.invitations ++ [row] })

/-- `set status='failed' … where id=…` -/
def markInvitationFailed (s : OrganizationAccounts) (invitationId : Id) : OrganizationAccounts :=
  { s with
    invitations := assign (·.id == invitationId) (fun row => { row with status := .failed })
      s.invitations }

def complete (s : OrganizationAccounts) (i : Nat) (call : InviteCall) : OrganizationAccounts :=
  { s.setCall i none with completed := s.completed ++ [(call.key, call.input)] }

end OrganizationAccounts

inductive AccountAction where
  /-- `inviteOrganizationUser`, by its transactions and calls. -/
  | invite (key : String) (input : OrganizationUserInput)
  | assertProvisionable (i : Nat)
  | answer (i : Nat) (providerUserId : Text) (state : ProviderState)
  | record (i : Nat) (newId : Id) (now : Time)
  | provision (i : Nat) (newUserId newMembershipId : Id) (now : Time)
  /-- Provisioning or the mail for a new password fails. -/
  | fail (i : Nat)
  | markFailed (i : Nat)
  | return (i : Nat)
  /-- `setOrganizationUserStatus`, by its transactions. -/
  | setStatus (accountId : Id) (enabled : Bool)
  | applyStatus (i : Nat) (now : Time)
  | recordStatus (i : Nat) (now : Time)
  /-- The call throws, or the process is gone. -/
  | abandon (i : Nat)
  /-- `markInvitationAccepted` -/
  | accept (providerUserId : Text) (now : Time)
  | saveScimUser (userId : Id) (displayName : Text) (emailBlindIndex : Option AddressIndex)
      (active : Bool) (granted : List String) (now : Time)
  | setEnvironment (ready : Bool)
  deriving DecidableEq

/-- `none`: the step throws, or no call is at that point. -/
def accountStep (s : OrganizationAccounts) : AccountAction → Option OrganizationAccounts
  | .invite key input =>
    match s.lookUpInvitation key input with
    | none => none
    | some existing =>
      let call : InviteCall := ⟨key, input, s.completed.contains (key, input), .lookedUp existing⟩
      some { s with calls := s.calls ++ [some (.invite call)] }
  | .assertProvisionable i =>
    match s.inviteAt i with
    | some ⟨key, input, replay, .lookedUp existing⟩ =>
      if s.environmentReady && s.tenant.roles.contains input.roleKey then
        some (s.setInvite i ⟨key, input, replay, .lookedUp existing⟩ (.admitted existing))
      else none
    | _ => none
  | .answer i providerUserId state =>
    match s.inviteAt i with
    | some ⟨key, input, replay, .admitted none⟩ =>
      some (s.setInvite i ⟨key, input, replay, .admitted none⟩ (.answered providerUserId state))
    | _ => none
  | .record i newId now =>
    match s.inviteAt i with
    | some ⟨key, input, replay, .answered providerUserId state⟩ =>
      let call : InviteCall := ⟨key, input, replay, .answered providerUserId state⟩
      match s.recordInvitation call providerUserId state newId now with
      | none => none
      | some (id, s') => some (s'.setInvite i call (.recorded id providerUserId state))
    | _ => none
  | .provision i newUserId newMembershipId now =>
    match s.inviteAt i with
    | some ⟨key, input, replay, .admitted (some row)⟩ =>
      let call : InviteCall := ⟨key, input, replay, .admitted (some row)⟩
      match s.tenant.provisionTenantUser row.providerUserId input newUserId newMembershipId now with
      | none => none
      | some tenant => some ({ s with tenant := tenant }.setInvite i call .repeated)
    | some ⟨key, input, replay, .recorded id providerUserId state⟩ =>
      let call : InviteCall := ⟨key, input, replay, .recorded id providerUserId state⟩
      match s.tenant.provisionTenantUser providerUserId input newUserId newMembershipId now with
      | none => none
      | some tenant => some ({ s with tenant := tenant }.setInvite i call (.granted id state))
    | _ => none
  | .fail i =>
    match s.inviteAt i with
    | some ⟨key, input, replay, .recorded id providerUserId state⟩ =>
      some (s.setInvite i ⟨key, input, replay, .recorded id providerUserId state⟩ (.failing id))
    | some ⟨key, input, replay, .granted id state⟩ =>
      some (s.setInvite i ⟨key, input, replay, .granted id state⟩ (.failing id))
    | _ => none
  | .markFailed i =>
    match s.inviteAt i with
    | some ⟨_, _, _, .failing id⟩ => some ((s.markInvitationFailed id).setCall i none)
    | _ => none
  | .return i =>
    match s.inviteAt i with
    | some ⟨key, input, replay, .granted id state⟩ =>
      some (s.complete i ⟨key, input, replay, .granted id state⟩)
    | some ⟨key, input, replay, .repeated⟩ => some (s.complete i ⟨key, input, replay, .repeated⟩)
    | _ => none
  | .setStatus accountId enabled =>
    match s.invitations.find? (·.id == accountId) with
    | none => none
    | some account =>
      if enabled && account.status == .active || !enabled && account.status == .disabled then some s
      else if enabled && account.acceptedAt.isNone then none
      else some { s with
        calls := s.calls ++ [some (.status ⟨accountId, account.providerUserId, enabled, false⟩)] }
  | .applyStatus i now =>
    match s.calls[i]?.join with
    | some (.status ⟨accountId, providerUserId, enabled, false⟩) =>
      match s.tenant.setTenantUserEnabled providerUserId enabled now with
      | none => none
      | some tenant => some ({ s with tenant := tenant }.setCall i
          (some (.status ⟨accountId, providerUserId, enabled, true⟩)))
    | _ => none
  | .recordStatus i now =>
    match s.calls[i]?.join with
    | some (.status ⟨accountId, _, enabled, true⟩) =>
      some ({ s with
        invitations := assign (·.id == accountId) (fun row => { row with
          status := if enabled then .active else .disabled
          disabledAt := if enabled then none else some now }) s.invitations }.setCall i none)
    | _ => none
  | .abandon i =>
    match s.calls[i]?.join with
    | some _ => some (s.setCall i none)
    | none => none
  | .accept providerUserId now =>
    some { s with
      invitations := assign
        (fun row => row.providerUserId == providerUserId && row.status == .invited)
        (fun row => { row with status := .active, acceptedAt := some (row.acceptedAt.getD now) })
        s.invitations }
  | .saveScimUser userId displayName emailBlindIndex active granted now =>
    match s.tenant.saveScimUser userId displayName emailBlindIndex active granted now with
    | none => none
    | some tenant => some { s with tenant := tenant }
  | .setEnvironment ready => some { s with environmentReady := ready }

/-- An organization whose roles are there and that has no users. -/
def OrganizationAccounts.initial : OrganizationAccounts :=
  ⟨true, [], ⟨managedRoleKeys, [], [], []⟩, [], []⟩

end Kommunsign
