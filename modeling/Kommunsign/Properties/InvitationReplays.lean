import Kommunsign.Control.OrganizationAccounts

/-!
# Replays of an invitation that was completed

A call of `inviteOrganizationUser` whose key has an invitation provisions the user once more, so
that a call that was cut off is made good by its retry. It does the same for a call that had
returned long ago: the user is enabled, the membership made active and the roles set to the invited
one, whatever has been done to them since. A key that a later invitation of the same user has taken
over is not known any more, and its replay goes through all of the call.

* `SameAccess` — what a step leaves of everybody's access
* `replay_keeps_access_iff` — the runs whose replays have no effect
* `disabled_account_enabled` — the retry that comes after a deactivation
-/

namespace Kommunsign

open Infra

/-! ## Access -/

def AccountUser.access (user : AccountUser) : Id × Text × Bool :=
  (user.id, user.externalSubject, user.disabledAt.isSome)

def AccountMembership.access (m : AccountMembership) : Id × Id × MembershipStatus :=
  (m.id, m.userId, m.status)

/-- The same accounts are enabled, the same memberships active, and they have the same roles. -/
structure TenantUsers.SameAccess (s s' : TenantUsers) : Prop where
  users : s'.users.map AccountUser.access = s.users.map AccountUser.access
  memberships : s'.memberships.map AccountMembership.access =
    s.memberships.map AccountMembership.access
  roles : ∀ a, a ∈ s'.assignments ↔ a ∈ s.assignments

def OrganizationAccounts.accountDisabled (s : OrganizationAccounts) (subject : Text) : Bool :=
  s.invitations.any fun row => row.providerUserId == subject && row.status == .disabled

structure SameAccess (s s' : OrganizationAccounts) : Prop where
  tenant : s.tenant.SameAccess s'.tenant
  accounts : ∀ subject, s'.accountDisabled subject = s.accountDisabled subject

def OrganizationAccounts.replays (s : OrganizationAccounts) : AccountAction → Bool
  | .invite key input => s.completed.contains (key, input)
  | .assertProvisionable i | .answer i _ _ | .record i _ _ | .provision i _ _ _ | .fail i
  | .markFailed i | .return i => (s.inviteAt i).any (·.replay)
  | _ => false

def ReplayKeepsAccess (s : OrganizationAccounts) (action : AccountAction) : Prop :=
  ∀ s', accountStep s action = some s' → s.replays action = true → SameAccess s s'

/-! ## The condition -/

/--
The access of the user is what the invitation gives: the user that provisioning finds is enabled
under the subject, its first membership is active, and has of the managed roles the invited one.
-/
def TenantUsers.Granted (s : TenantUsers) (subject : Text) (input : OrganizationUserInput) : Prop :=
  match s.findUser subject input.email with
  | none => False
  | some user =>
    user.externalSubject = subject ∧ user.disabledAt = none ∧
      match s.findMembership user.id with
      | none => False
      | some m =>
        m.status = .active ∧ ⟨m.id, input.roleKey, none⟩ ∈ s.assignments ∧
          ∀ a ∈ s.assignments, a.membershipId = m.id → a.roleKey ∈ managedRoleKeys →
            a = ⟨m.id, input.roleKey, none⟩

instance (s : TenantUsers) (subject : Text) (input : OrganizationUserInput) :
    Decidable (s.Granted subject input) := by
  unfold TenantUsers.Granted
  split
  · infer_instance
  · have (user : AccountUser) : Decidable (match s.findMembership user.id with
        | none => False
        | some m =>
          m.status = .active ∧ ⟨m.id, input.roleKey, none⟩ ∈ s.assignments ∧
            ∀ a ∈ s.assignments, a.membershipId = m.id → a.roleKey ∈ managedRoleKeys →
              a = ⟨m.id, input.roleKey, none⟩) := by
      split <;> infer_instance
    infer_instance

def ReplayChangesNothing (s : OrganizationAccounts) : AccountAction → Prop
  | .provision i _ _ _ =>
    match s.inviteAt i with
    | some ⟨_, input, true, .admitted (some row)⟩ => s.tenant.Granted row.providerUserId input
    | some ⟨_, input, true, .recorded _ subject _⟩ => s.tenant.Granted subject input
    | _ => True
  | .record i _ _ =>
    match s.inviteAt i with
    | some ⟨_, _, true, .answered subject _⟩ => s.accountDisabled subject = false
    | _ => True
  | .markFailed i =>
    match s.inviteAt i with
    | some ⟨_, _, true, .failing id⟩ => ∀ row ∈ s.invitations, row.id = id → row.status ≠ .disabled
    | _ => True
  | _ => True

instance (s : OrganizationAccounts) (action : AccountAction) :
    Decidable (ReplayChangesNothing s action) := by
  unfold ReplayChangesNothing
  split
  · split <;> infer_instance
  · split <;> infer_instance
  · split <;> infer_instance
  · infer_instance

/-! ## Provisioning once more -/

section

variable {s s' s₁ s₂ : TenantUsers}

theorem TenantUsers.SameAccess.refl (s : TenantUsers) : s.SameAccess s := ⟨rfl, rfl, fun _ => Iff.rfl⟩

structure TenantUsers.Keyed (s : TenantUsers) : Prop where
  users : (s.users.map (·.id)).Nodup
  memberships : (s.memberships.map (·.id)).Nodup

theorem findUser_mem {subject email : Text} {user : AccountUser}
    (h : s.findUser subject email = some user) : user ∈ s.users :=
  List.mem_of_mem_filter (minBy_eq_some h).1

theorem findMembership_mem {userId : Id} {m : AccountMembership}
    (h : s.findMembership userId = some m) : m ∈ s.memberships :=
  List.mem_of_mem_filter (minBy_eq_some h).1

theorem map_assign_key_iff {ρ κ : Type} {key : ρ → Id} {g : ρ → κ} {f : ρ → ρ} {rows : List ρ}
    {row : ρ} (hkeys : (rows.map key).Nodup) (hrow : row ∈ rows) :
    (assign (fun r => key r == key row) f rows).map g = rows.map g ↔ g (f row) = g row := by
  rw [assign, List.map_map, List.map_inj_left]
  constructor
  · intro h
    have := h row hrow
    simpa using this
  · intro h other hother
    by_cases hkey : key other = key row
    · obtain rfl := eq_of_key_eq hkeys hother hrow hkey
      simpa using h
    · simp [hkey]

theorem replaceRole_eq_some {membershipId : Id} {roleKey : String}
    (h : s.replaceRole membershipId roleKey = some s') :
    s'.users = s.users ∧ s'.memberships = s.memberships ∧
      ((∀ a, a ∈ s'.assignments ↔ a ∈ s.assignments) ↔
        ⟨membershipId, roleKey, none⟩ ∈ s.assignments ∧
          ∀ a ∈ s.assignments, a.membershipId = membershipId → a.roleKey ∈ managedRoleKeys →
            a = ⟨membershipId, roleKey, none⟩) := by
  unfold TenantUsers.replaceRole at h
  split at h
  · exact nomatch h
  · obtain rfl := Option.some.inj h
    refine ⟨rfl, rfl, ?_⟩
    simp only [List.mem_append, List.mem_filter, List.mem_singleton, Bool.not_eq_true',
      Bool.and_eq_false_iff, beq_eq_false_iff_ne, List.contains_eq_mem, decide_eq_false_iff_not]
    constructor
    · intro hsame
      refine ⟨(hsame _).mp (.inr rfl), fun a ha hm hrole => ?_⟩
      rcases (hsame a).mpr ha with ⟨_, hother⟩ | hnew
      · exact absurd hother (by simp [hm, hrole])
      · exact hnew
    · rintro ⟨hnew, hold⟩ a
      constructor
      · rintro (⟨ha, _⟩ | rfl)
        · exact ha
        · exact hnew
      · intro ha
        by_cases hm : a.membershipId = membershipId
        · by_cases hrole : a.roleKey ∈ managedRoleKeys
          · exact .inr (hold a ha hm hrole)
          · exact .inl ⟨ha, .inr hrole⟩
        · exact .inl ⟨ha, .inl hm⟩

theorem upsertMembership_eq_some (hs : (s.memberships.map (·.id)).Nodup)
    {userId newId membershipId : Id} {now : Time}
    (h : s.upsertMembership userId newId now = some (membershipId, s')) :
    s'.users = s.users ∧ s'.assignments = s.assignments ∧
      ((s'.memberships.map AccountMembership.access = s.memberships.map AccountMembership.access) ↔
        ∃ m, s.findMembership userId = some m ∧ m.id = membershipId ∧ m.status = .active) ∧
      (∀ m, s.findMembership userId = some m → m.id = membershipId) := by
  unfold TenantUsers.upsertMembership at h
  cases hfound : s.findMembership userId with
  | none =>
    rw [hfound] at h
    simp only at h
    split at h
    · exact nomatch h
    · obtain ⟨rfl, rfl⟩ := Prod.mk.inj (Option.some.inj h)
      refine ⟨rfl, rfl, ?_, fun m hm => nomatch hm⟩
      constructor
      · intro hsame
        have hlength := congrArg List.length hsame
        simp at hlength
      · rintro ⟨m, hm, _⟩
        exact nomatch hm
  | some m =>
    rw [hfound] at h
    obtain ⟨rfl, rfl⟩ := Prod.mk.inj (Option.some.inj h)
    refine ⟨rfl, rfl, ?_, fun m' hm => (Option.some.inj hm) ▸ rfl⟩
    rw [map_assign_key_iff hs (findMembership_mem hfound)]
    simp only [AccountMembership.access, Prod.mk.injEq, true_and, Option.some.injEq, exists_eq_left']
    exact eq_comm

theorem upsertUser_eq_some (hs : (s.users.map (·.id)).Nodup) {subject displayName email : Text}
    {newId userId : Id} {now : Time}
    (h : s.upsertUser subject displayName email newId now = some (userId, s')) :
    s'.memberships = s.memberships ∧ s'.assignments = s.assignments ∧
      ((s'.users.map AccountUser.access = s.users.map AccountUser.access) ↔
        ∃ user, s.findUser subject email = some user ∧ user.externalSubject = subject ∧
          user.disabledAt = none) ∧
      (∀ user, s.findUser subject email = some user → user.id = userId) := by
  unfold TenantUsers.upsertUser at h
  cases hfound : s.findUser subject email with
  | none =>
    rw [hfound] at h
    simp only at h
    split at h
    · exact nomatch h
    · obtain ⟨rfl, rfl⟩ := Prod.mk.inj (Option.some.inj h)
      refine ⟨rfl, rfl, ?_, fun user huser => nomatch huser⟩
      constructor
      · intro hsame
        have hlength := congrArg List.length hsame
        simp at hlength
      · rintro ⟨user, huser, _⟩
        exact nomatch huser
  | some user =>
    rw [hfound] at h
    simp only at h
    split at h
    · exact nomatch h
    · obtain ⟨rfl, rfl⟩ := Prod.mk.inj (Option.some.inj h)
      refine ⟨rfl, rfl, ?_, fun user' huser => (Option.some.inj huser) ▸ rfl⟩
      rw [map_assign_key_iff hs (findUser_mem hfound)]
      simp only [AccountUser.access, Prod.mk.injEq, true_and, Option.some.injEq, exists_eq_left',
        Option.isSome_none]
      refine and_congr eq_comm ?_
      rw [eq_comm, Option.isSome_eq_false_iff, Option.isNone_iff_eq_none]

theorem provisionTenantUser_same_iff (hs : s.Keyed) {subject : Text}
    {input : OrganizationUserInput} {newUserId newMembershipId : Id} {now : Time}
    (h : s.provisionTenantUser subject input newUserId newMembershipId now = some s') :
    s.SameAccess s' ↔ s.Granted subject input := by
  unfold TenantUsers.provisionTenantUser at h
  split at h
  · exact nomatch h
  · rename_i userId s₁ huser
    split at h
    · exact nomatch h
    · rename_i membershipId s₂ hmembership
      obtain ⟨hm₁, ha₁, husers, huserId⟩ := upsertUser_eq_some hs.users huser
      have hs₁ : (s₁.memberships.map (·.id)).Nodup := by
        rw [hm₁]
        exact hs.memberships
      obtain ⟨hu₂, ha₂, hmemberships, hmembershipId⟩ := upsertMembership_eq_some hs₁ hmembership
      obtain ⟨hu₃, hm₃, hroles⟩ := replaceRole_eq_some h
      have hfind : s₁.findMembership userId = s.findMembership userId := by
        unfold TenantUsers.findMembership
        rw [hm₁]
      rw [hm₁, hfind] at hmemberships
      rw [hfind] at hmembershipId
      rw [ha₂, ha₁] at hroles
      constructor
      · intro hsame
        have husers' := hsame.users
        have hmemberships' := hsame.memberships
        rw [hu₃, hu₂] at husers'
        rw [hm₃] at hmemberships'
        obtain ⟨user, hfound, hsubject, henabled⟩ := husers.mp husers'
        obtain ⟨m, hm, rfl, hactive⟩ := hmemberships.mp hmemberships'
        obtain rfl := huserId user hfound
        simp only [TenantUsers.Granted, hfound, hm]
        exact ⟨hsubject, henabled, hactive, hroles.mp hsame.roles⟩
      · intro hgranted
        unfold TenantUsers.Granted at hgranted
        split at hgranted
        · exact hgranted.elim
        · rename_i user hfound
          obtain ⟨hsubject, henabled, hgranted⟩ := hgranted
          obtain rfl := huserId user hfound
          split at hgranted
          · exact hgranted.elim
          · rename_i m hm
            obtain rfl := hmembershipId m hm
            refine ⟨?_, ?_, hroles.mpr hgranted.2⟩
            · rw [hu₃, hu₂]
              exact husers.mpr ⟨user, hfound, hsubject, henabled⟩
            · rw [hm₃]
              exact hmemberships.mpr ⟨m, hm, rfl, hgranted.1⟩

end

/-! ## The other transactions -/

section

variable {s s' : OrganizationAccounts}

structure OrganizationAccounts.Keyed (s : OrganizationAccounts) : Prop where
  tenant : s.tenant.Keyed
  invitations : (s.invitations.map (·.id)).Nodup
  subjects : (s.invitations.map (·.providerUserId)).Nodup

theorem accountDisabled_iff {subject : Text} : s.accountDisabled subject = true ↔
    ∃ row ∈ s.invitations, row.providerUserId = subject ∧ row.status = .disabled := by
  simp only [OrganizationAccounts.accountDisabled, List.any_eq_true, Bool.and_eq_true, beq_iff_eq]

theorem recordInvitation_eq_some {call : InviteCall} {subject : Text} {state : ProviderState}
    {newId id : Id} {now : Time}
    (h : s.recordInvitation call subject state newId now = some (id, s')) :
    ∃ row : AccountInvitation, row.id = id ∧ row.providerUserId = subject ∧
      row.status ≠ .disabled ∧
      ((∃ old ∈ s.invitations, old.providerUserId = subject ∧ old.id = id ∧
          s' = { s with
            invitations := assign (·.providerUserId == subject) (fun _ => row) s.invitations }) ∨
        ((∀ old ∈ s.invitations, old.providerUserId ≠ subject ∧ old.id ≠ id) ∧
          s' = { s with invitations := s.invitations ++ [row] })) := by
  have hstatus : (if state = .active then InvitationStatus.active else .invited) ≠ .disabled := by
    split
    · decide
    · decide
  unfold OrganizationAccounts.recordInvitation at h
  simp only at h
  generalize (if state = .active then InvitationStatus.active else .invited) = status at h hstatus
  split at h
  · rename_i old hold
    obtain ⟨hmem, hsubject⟩ := exists_of_find?_key hold
    generalize (if status = .active then some (old.acceptedAt.getD now) else old.acceptedAt) =
      acceptedAt at h
    split at h
    · exact nomatch h
    · obtain ⟨rfl, rfl⟩ := Prod.mk.inj (Option.some.inj h)
      exact ⟨⟨old.id, subject, _, _, _, status, _, acceptedAt, none⟩, rfl, rfl, hstatus,
        .inl ⟨old, hmem, hsubject, rfl, rfl⟩⟩
  · rename_i hnone
    generalize (if status = .active then some now else none) = acceptedAt at h
    split at h
    · exact nomatch h
    · rename_i hfresh
      obtain ⟨rfl, rfl⟩ := Prod.mk.inj (Option.some.inj h)
      refine ⟨_, rfl, rfl, hstatus, .inr ⟨fun old hold => ⟨fun hsubject => ?_, fun hid => ?_⟩, rfl⟩⟩
      · exact List.find?_eq_none.mp hnone old hold (beq_iff_eq.mpr hsubject)
      · refine hfresh (Bool.or_eq_true_iff.mpr (.inl ?_))
        exact List.any_eq_true.mpr ⟨old, hold, beq_iff_eq.mpr hid⟩

theorem recordInvitation_tenant {call : InviteCall} {subject : Text} {state : ProviderState}
    {newId id : Id} {now : Time}
    (h : s.recordInvitation call subject state newId now = some (id, s')) :
    s'.tenant = s.tenant := by
  obtain ⟨_, -, -, -, ⟨_, -, -, -, rfl⟩ | ⟨-, rfl⟩⟩ := recordInvitation_eq_some h
  · rfl
  · rfl

theorem recordInvitation_disabled {call : InviteCall} {subject : Text} {state : ProviderState}
    {newId id : Id} {now : Time}
    (h : s.recordInvitation call subject state newId now = some (id, s')) (other : Text) :
    s'.accountDisabled other = true ↔ other ≠ subject ∧ s.accountDisabled other = true := by
  rw [accountDisabled_iff, accountDisabled_iff]
  obtain ⟨row, -, hsubject, hstatus, ⟨old, -, -, -, rfl⟩ | ⟨hnone, rfl⟩⟩ :=
    recordInvitation_eq_some h
  · constructor
    · rintro ⟨r, hr, rfl, hdisabled⟩
      obtain ⟨r₀, hr₀, rfl⟩ := mem_assign.mp hr
      split at hdisabled
      · exact absurd hdisabled hstatus
      · rename_i hne
        rw [if_neg hne]
        exact ⟨fun heq => hne (beq_iff_eq.mpr heq), r₀, hr₀, rfl, hdisabled⟩
    · rintro ⟨hne, r, hr, rfl, hdisabled⟩
      exact ⟨r, mem_assign.mpr ⟨r, hr, by rw [if_neg (by simpa using hne)]⟩, rfl, hdisabled⟩
  · constructor
    · rintro ⟨r, hr, rfl, hdisabled⟩
      rcases List.mem_append.mp hr with hr | hr
      · exact ⟨(hnone r hr).1, r, hr, rfl, hdisabled⟩
      · obtain rfl := List.mem_singleton.mp hr
        exact absurd hdisabled hstatus
    · rintro ⟨-, r, hr, hother, hdisabled⟩
      exact ⟨r, List.mem_append_left _ hr, hother, hdisabled⟩

theorem recordInvitation_same_iff {call : InviteCall} {subject : Text} {state : ProviderState}
    {newId id : Id} {now : Time}
    (h : s.recordInvitation call subject state newId now = some (id, s')) :
    (∀ other, s'.accountDisabled other = s.accountDisabled other) ↔
      s.accountDisabled subject = false := by
  constructor
  · intro hsame
    rw [← hsame subject, ← Bool.not_eq_true, recordInvitation_disabled h]
    exact fun hdisabled => hdisabled.1 rfl
  · intro henabled other
    rw [Bool.eq_iff_iff, recordInvitation_disabled h]
    constructor
    · exact And.right
    · intro hdisabled
      refine ⟨?_, hdisabled⟩
      rintro rfl
      exact nomatch henabled.symm.trans hdisabled

theorem recordInvitation_keyed {call : InviteCall} {subject : Text} {state : ProviderState}
    {newId id : Id} {now : Time} (hs : s.Keyed)
    (h : s.recordInvitation call subject state newId now = some (id, s')) : s'.Keyed := by
  obtain ⟨row, hid, hsubject, -, ⟨old, hold, hold', holdId, rfl⟩ | ⟨hnone, rfl⟩⟩ :=
    recordInvitation_eq_some h
  · refine ⟨hs.tenant, ?_, ?_⟩
    · -- there is only one invitation of the subject, and it keeps its id
      rw [map_assign]
      · exact hs.invitations
      · intro r hr hr'
        obtain rfl := eq_of_key_eq hs.subjects hr hold ((beq_iff_eq.mp hr').trans hold'.symm)
        exact hid.trans holdId.symm
    · rw [map_assign]
      · exact hs.subjects
      · intro r _ hr'
        exact hsubject.trans (beq_iff_eq.mp hr').symm
  · refine ⟨hs.tenant, ?_, ?_⟩
    · rw [List.map_append, List.nodup_append]
      refine ⟨hs.invitations, List.nodup_singleton _, ?_⟩
      rintro _ hr _ hrow rfl
      obtain ⟨r, hr, hrid⟩ := List.mem_map.mp hr
      exact (hnone r hr).2 (hrid.trans ((List.mem_singleton.mp hrow).trans hid))
    · rw [List.map_append, List.nodup_append]
      refine ⟨hs.subjects, List.nodup_singleton _, ?_⟩
      rintro _ hr _ hrow rfl
      obtain ⟨r, hr, hrid⟩ := List.mem_map.mp hr
      exact (hnone r hr).1 (hrid.trans ((List.mem_singleton.mp hrow).trans hsubject))

theorem markInvitationFailed_same_iff (hs : s.Keyed) (id : Id) :
    (∀ other, (s.markInvitationFailed id).accountDisabled other = s.accountDisabled other) ↔
      ∀ row ∈ s.invitations, row.id = id → row.status ≠ .disabled := by
  constructor
  · rintro hsame row hrow rfl hdisabled
    have hbefore : s.accountDisabled row.providerUserId = true :=
      accountDisabled_iff.mpr ⟨row, hrow, rfl, hdisabled⟩
    rw [← hsame, accountDisabled_iff] at hbefore
    obtain ⟨r, hr, hsubject, hstatus⟩ := hbefore
    obtain ⟨r₀, hr₀, rfl⟩ := mem_assign.mp hr
    split at hstatus
    · exact nomatch hstatus
    · rename_i hne
      rw [if_neg hne] at hsubject
      obtain rfl := eq_of_key_eq hs.subjects hr₀ hrow hsubject
      exact hne (beq_self_eq_true _)
  · intro hall other
    rw [Bool.eq_iff_iff, accountDisabled_iff, accountDisabled_iff]
    constructor
    · rintro ⟨r, hr, rfl, hdisabled⟩
      obtain ⟨r₀, hr₀, rfl⟩ := mem_assign.mp hr
      split at hdisabled
      · exact nomatch hdisabled
      · rename_i hne
        rw [if_neg hne]
        exact ⟨r₀, hr₀, rfl, hdisabled⟩
    · rintro ⟨r, hr, rfl, hdisabled⟩
      refine ⟨r, mem_assign.mpr ⟨r, hr, ?_⟩, rfl, hdisabled⟩
      rw [if_neg]
      exact fun hid => hall r hr (beq_iff_eq.mp hid) hdisabled

/-! ## One step -/

section

variable {action : AccountAction}

theorem same_of_rows (htenant : s'.tenant = s.tenant) (hrows : s'.invitations = s.invitations) :
    SameAccess s s' := by
  refine ⟨?_, fun subject => ?_⟩
  · rw [htenant]
    exact .refl s.tenant
  · unfold OrganizationAccounts.accountDisabled
    rw [hrows]

theorem same_iff_of_tenant (hrows : s'.invitations = s.invitations) :
    SameAccess s s' ↔ s.tenant.SameAccess s'.tenant := by
  constructor
  · exact fun h => h.tenant
  · intro h
    refine ⟨h, fun subject => ?_⟩
    unfold OrganizationAccounts.accountDisabled
    rw [hrows]

theorem same_iff_of_accounts (htenant : s'.tenant = s.tenant) :
    SameAccess s s' ↔ ∀ subject, s'.accountDisabled subject = s.accountDisabled subject := by
  constructor
  · exact fun h => h.accounts
  · intro h
    refine ⟨?_, h⟩
    rw [htenant]
    exact .refl s.tenant

theorem replayKeepsAccess_iff (hs : s.Keyed) (h : accountStep s action = some s') :
    ReplayKeepsAccess s action ↔ ReplayChangesNothing s action := by
  unfold ReplayKeepsAccess
  rw [h]
  simp only [Option.some.injEq, forall_eq']
  cases action with
  | provision i newUserId newMembershipId now =>
    simp only [accountStep] at h
    split at h
    · rename_i key input replay row hcall
      split at h
      · exact nomatch h
      · rename_i tenant htenant
        obtain rfl := Option.some.inj h
        cases replay with
        | false => simp [OrganizationAccounts.replays, ReplayChangesNothing, hcall]
        | true =>
          simp only [OrganizationAccounts.replays, ReplayChangesNothing, hcall, Option.any_some,
            true_imp_iff]
          refine (same_iff_of_tenant ?_).trans ?_
          · rfl
          · exact provisionTenantUser_same_iff hs.tenant htenant
    · rename_i key input replay id subject state hcall
      split at h
      · exact nomatch h
      · rename_i tenant htenant
        obtain rfl := Option.some.inj h
        cases replay with
        | false => simp [OrganizationAccounts.replays, ReplayChangesNothing, hcall]
        | true =>
          simp only [OrganizationAccounts.replays, ReplayChangesNothing, hcall, Option.any_some,
            true_imp_iff]
          refine (same_iff_of_tenant ?_).trans ?_
          · rfl
          · exact provisionTenantUser_same_iff hs.tenant htenant
    · exact nomatch h
  | record i newId now =>
    simp only [accountStep] at h
    split at h
    · rename_i key input replay subject state hcall
      split at h
      · exact nomatch h
      · rename_i id s₁ hrecord
        obtain rfl := Option.some.inj h
        cases replay with
        | false => simp [OrganizationAccounts.replays, ReplayChangesNothing, hcall]
        | true =>
          simp only [OrganizationAccounts.replays, ReplayChangesNothing, hcall, Option.any_some,
            true_imp_iff]
          have htenant : s₁.tenant = s.tenant := recordInvitation_tenant hrecord
          have hsame := recordInvitation_same_iff hrecord
          refine (same_iff_of_accounts ?_).trans ?_
          · exact htenant
          · exact hsame
    · exact nomatch h
  | markFailed i =>
    simp only [accountStep] at h
    split at h
    · rename_i key input replay id hcall
      obtain rfl := Option.some.inj h
      cases replay with
      | false => simp [OrganizationAccounts.replays, ReplayChangesNothing, hcall]
      | true =>
        simp only [OrganizationAccounts.replays, ReplayChangesNothing, hcall, Option.any_some,
          true_imp_iff]
        refine (same_iff_of_accounts ?_).trans ?_
        · rfl
        · exact markInvitationFailed_same_iff hs id
    · exact nomatch h
  | invite key input =>
    simp only [accountStep] at h
    split at h
    · exact nomatch h
    · obtain rfl := Option.some.inj h
      exact iff_of_true (fun _ => same_of_rows rfl rfl) trivial
  | assertProvisionable i =>
    simp only [accountStep] at h
    split at h
    · split at h
      · obtain rfl := Option.some.inj h
        exact iff_of_true (fun _ => same_of_rows rfl rfl) trivial
      · exact nomatch h
    · exact nomatch h
  | answer i providerUserId state =>
    simp only [accountStep] at h
    split at h
    · obtain rfl := Option.some.inj h
      exact iff_of_true (fun _ => same_of_rows rfl rfl) trivial
    · exact nomatch h
  | fail i =>
    simp only [accountStep] at h
    split at h
    · obtain rfl := Option.some.inj h
      exact iff_of_true (fun _ => same_of_rows rfl rfl) trivial
    · obtain rfl := Option.some.inj h
      exact iff_of_true (fun _ => same_of_rows rfl rfl) trivial
    · exact nomatch h
  | «return» i =>
    simp only [accountStep] at h
    split at h
    · obtain rfl := Option.some.inj h
      exact iff_of_true (fun _ => same_of_rows rfl rfl) trivial
    · obtain rfl := Option.some.inj h
      exact iff_of_true (fun _ => same_of_rows rfl rfl) trivial
    · exact nomatch h
  -- nobody else replays an invitation
  | setStatus | applyStatus | recordStatus | abandon | accept | saveScimUser | setEnvironment =>
    exact iff_of_true (fun hreplays => nomatch hreplays) trivial

/-! ## Keys -/

section

variable {t t' : TenantUsers}

theorem upsertUser_keyed (ht : t.Keyed) {subject displayName email : Text} {newId userId : Id}
    {now : Time} (h : t.upsertUser subject displayName email newId now = some (userId, t')) :
    t'.Keyed := by
  unfold TenantUsers.upsertUser at h
  split at h
  · split at h
    · exact nomatch h
    · obtain ⟨-, rfl⟩ := Prod.mk.inj (Option.some.inj h)
      refine ⟨?_, ht.memberships⟩
      rw [map_assign (by intro _ _ _; rfl)]
      exact ht.users
  · split at h
    · exact nomatch h
    · rename_i hfresh
      obtain ⟨-, rfl⟩ := Prod.mk.inj (Option.some.inj h)
      refine ⟨?_, ht.memberships⟩
      rw [List.map_append, List.nodup_append]
      refine ⟨ht.users, List.nodup_singleton _, ?_⟩
      rintro _ hr _ hrow rfl
      obtain ⟨r, hr, hrid⟩ := List.mem_map.mp hr
      rw [List.mem_singleton.mp hrow] at hrid
      exact hfresh (List.any_eq_true.mpr ⟨r, hr, beq_iff_eq.mpr hrid⟩)

theorem upsertMembership_keyed (ht : t.Keyed) {userId newId membershipId : Id} {now : Time}
    (h : t.upsertMembership userId newId now = some (membershipId, t')) : t'.Keyed := by
  unfold TenantUsers.upsertMembership at h
  split at h
  · obtain ⟨-, rfl⟩ := Prod.mk.inj (Option.some.inj h)
    refine ⟨ht.users, ?_⟩
    rw [map_assign (by intro _ _ _; rfl)]
    exact ht.memberships
  · split at h
    · exact nomatch h
    · rename_i hfresh
      obtain ⟨-, rfl⟩ := Prod.mk.inj (Option.some.inj h)
      refine ⟨ht.users, ?_⟩
      rw [List.map_append, List.nodup_append]
      refine ⟨ht.memberships, List.nodup_singleton _, ?_⟩
      rintro _ hr _ hrow rfl
      obtain ⟨r, hr, hrid⟩ := List.mem_map.mp hr
      rw [List.mem_singleton.mp hrow] at hrid
      exact hfresh (List.any_eq_true.mpr ⟨r, hr, beq_iff_eq.mpr hrid⟩)

theorem provisionTenantUser_keyed (ht : t.Keyed) {subject : Text} {input : OrganizationUserInput}
    {newUserId newMembershipId : Id} {now : Time}
    (h : t.provisionTenantUser subject input newUserId newMembershipId now = some t') :
    t'.Keyed := by
  unfold TenantUsers.provisionTenantUser at h
  split at h
  · exact nomatch h
  · rename_i huser
    split at h
    · exact nomatch h
    · rename_i hmembership
      have ht₂ := upsertMembership_keyed (upsertUser_keyed ht huser) hmembership
      obtain ⟨husers, hmemberships, -⟩ := replaceRole_eq_some h
      exact ⟨husers ▸ ht₂.users, hmemberships ▸ ht₂.memberships⟩

theorem setTenantUserEnabled_keyed (ht : t.Keyed) {subject : Text} {enabled : Bool} {now : Time}
    (h : t.setTenantUserEnabled subject enabled now = some t') : t'.Keyed := by
  unfold TenantUsers.setTenantUserEnabled at h
  split at h
  · cases h
  · obtain rfl := Option.some.inj h
    refine ⟨?_, ?_⟩
    · rw [map_assign (by intro _ _ _; rfl)]
      exact ht.users
    · rw [map_assign (by intro _ _ _; rfl)]
      exact ht.memberships

theorem saveScimUser_keyed (ht : t.Keyed) {userId : Id} {displayName : Text}
    {emailBlindIndex : Option AddressIndex} {active : Bool} {granted : List String} {now : Time}
    (h : t.saveScimUser userId displayName emailBlindIndex active granted now = some t') :
    t'.Keyed := by
  unfold TenantUsers.saveScimUser at h
  split at h
  · cases h
  · obtain rfl := Option.some.inj h
    refine ⟨?_, ?_⟩
    · rw [map_assign (by intro _ _ _; rfl)]
      exact ht.users
    · rw [map_assign (by intro _ _ _; rfl)]
      exact ht.memberships

end

theorem keyed_of_assign (hs : s.Keyed) {p : AccountInvitation → Bool}
    {f : AccountInvitation → AccountInvitation} (htenant : s'.tenant = s.tenant)
    (hrows : s'.invitations = assign p f s.invitations) (hid : ∀ row, (f row).id = row.id)
    (hsubject : ∀ row, (f row).providerUserId = row.providerUserId) : s'.Keyed := by
  refine ⟨?_, ?_, ?_⟩
  · rw [htenant]
    exact hs.tenant
  · rw [hrows, map_assign (fun row _ _ => hid row)]
    exact hs.invitations
  · rw [hrows, map_assign (fun row _ _ => hsubject row)]
    exact hs.subjects

theorem accountStep_keyed (hs : s.Keyed) (h : accountStep s action = some s') : s'.Keyed := by
  cases action with
  | invite key input =>
    simp only [accountStep] at h
    split at h
    · exact nomatch h
    · obtain rfl := Option.some.inj h
      exact ⟨hs.tenant, hs.invitations, hs.subjects⟩
  | assertProvisionable i =>
    simp only [accountStep] at h
    split at h
    · split at h
      · obtain rfl := Option.some.inj h
        exact ⟨hs.tenant, hs.invitations, hs.subjects⟩
      · exact nomatch h
    · exact nomatch h
  | answer i providerUserId state =>
    simp only [accountStep] at h
    split at h
    · obtain rfl := Option.some.inj h
      exact ⟨hs.tenant, hs.invitations, hs.subjects⟩
    · exact nomatch h
  | record i newId now =>
    simp only [accountStep] at h
    split at h
    · split at h
      · exact nomatch h
      · rename_i hrecord
        obtain rfl := Option.some.inj h
        have hs₁ := recordInvitation_keyed hs hrecord
        exact ⟨hs₁.tenant, hs₁.invitations, hs₁.subjects⟩
    · exact nomatch h
  | provision i newUserId newMembershipId now =>
    simp only [accountStep] at h
    split at h
    · split at h
      · exact nomatch h
      · rename_i htenant
        obtain rfl := Option.some.inj h
        exact ⟨provisionTenantUser_keyed hs.tenant htenant, hs.invitations, hs.subjects⟩
    · split at h
      · exact nomatch h
      · rename_i htenant
        obtain rfl := Option.some.inj h
        exact ⟨provisionTenantUser_keyed hs.tenant htenant, hs.invitations, hs.subjects⟩
    · exact nomatch h
  | fail i =>
    simp only [accountStep] at h
    split at h
    · obtain rfl := Option.some.inj h
      exact ⟨hs.tenant, hs.invitations, hs.subjects⟩
    · obtain rfl := Option.some.inj h
      exact ⟨hs.tenant, hs.invitations, hs.subjects⟩
    · exact nomatch h
  | markFailed i =>
    simp only [accountStep] at h
    split at h
    · obtain rfl := Option.some.inj h
      exact keyed_of_assign hs rfl rfl (fun _ => rfl) (fun _ => rfl)
    · exact nomatch h
  | «return» i =>
    simp only [accountStep] at h
    split at h
    · obtain rfl := Option.some.inj h
      exact ⟨hs.tenant, hs.invitations, hs.subjects⟩
    · obtain rfl := Option.some.inj h
      exact ⟨hs.tenant, hs.invitations, hs.subjects⟩
    · exact nomatch h
  | setStatus accountId enabled =>
    simp only [accountStep] at h
    split at h
    · exact nomatch h
    · split at h
      · obtain rfl := Option.some.inj h
        exact hs
      · split at h
        · exact nomatch h
        · obtain rfl := Option.some.inj h
          exact ⟨hs.tenant, hs.invitations, hs.subjects⟩
  | applyStatus i now =>
    simp only [accountStep] at h
    split at h
    · split at h
      · exact nomatch h
      · rename_i htenant
        obtain rfl := Option.some.inj h
        exact ⟨setTenantUserEnabled_keyed hs.tenant htenant, hs.invitations, hs.subjects⟩
    · exact nomatch h
  | recordStatus i now =>
    simp only [accountStep] at h
    split at h
    · obtain rfl := Option.some.inj h
      exact keyed_of_assign hs rfl rfl (fun _ => rfl) (fun _ => rfl)
    · exact nomatch h
  | abandon i =>
    simp only [accountStep] at h
    split at h
    · obtain rfl := Option.some.inj h
      exact ⟨hs.tenant, hs.invitations, hs.subjects⟩
    · exact nomatch h
  | accept providerUserId now =>
    obtain rfl := Option.some.inj h
    exact keyed_of_assign hs rfl rfl (fun _ => rfl) (fun _ => rfl)
  | saveScimUser userId displayName emailBlindIndex active granted now =>
    simp only [accountStep] at h
    split at h
    · exact nomatch h
    · rename_i htenant
      obtain rfl := Option.some.inj h
      exact ⟨saveScimUser_keyed hs.tenant htenant, hs.invitations, hs.subjects⟩
  | setEnvironment ready =>
    obtain rfl := Option.some.inj h
    exact ⟨hs.tenant, hs.invitations, hs.subjects⟩

/-! ## Runs -/

/--
In a run from any organization, the replays of completed invitations have no effect on anybody's
access exactly when every one of their steps writes what is there already.
-/
theorem replay_keeps_access_iff {actions : List AccountAction} (hs : s.Keyed)
    (hrun : run accountStep s actions = some s') :
    Meets accountStep ReplayKeepsAccess s actions ↔
      Meets accountStep ReplayChangesNothing s actions :=
  meets_iff_meets (fun _ _ _ hs _ h => accountStep_keyed hs h)
    (fun _ _ _ hs h => replayKeepsAccess_iff hs h) hs hrun

end

end

theorem initial_keyed : OrganizationAccounts.initial.Keyed :=
  ⟨⟨List.nodup_nil, List.nodup_nil⟩, List.nodup_nil, List.nodup_nil⟩

def invitedAnna : OrganizationUserInput := ⟨"anna@kommun.se".toList, "Anna".toList, "approver"⟩

def annaInvited : List AccountAction :=
  [.invite "nyckel-1" invitedAnna, .assertProvisionable 0, .answer 0 "u1".toList .invited,
    .record 0 1 10, .provision 0 1 1 11, .return 0, .accept "u1".toList 20]

def annaRetried : List AccountAction :=
  [.invite "nyckel-1" invitedAnna, .assertProvisionable 1, .provision 1 2 2 40, .return 1]

/-- A retry that finds the account as the invitation left it. -/
theorem retried_at_once : Meets accountStep ReplayKeepsAccess OrganizationAccounts.initial
    (annaInvited ++ annaRetried) :=
  (replay_keeps_access_iff initial_keyed
    (Option.some_get (by decide +kernel : Option.isSome _)).symm).mpr (by decide +kernel)

/-- The retry after a deactivation enables the account and makes the membership active. -/
theorem disabled_account_enabled :
    ¬ ∀ (s s' : OrganizationAccounts) (actions : List AccountAction), s.Keyed →
      run accountStep s actions = some s' → Meets accountStep ReplayKeepsAccess s actions := by
  intro hall
  let before := annaInvited ++ [.setStatus 1 false, .applyStatus 1 30, .recordStatus 1 31] ++
    [.invite "nyckel-1" invitedAnna, .assertProvisionable 2]
  let retried : AccountAction := .provision 2 2 2 40
  have hdisabled : (run accountStep OrganizationAccounts.initial before).map (fun s =>
      (s.replays retried, s.tenant.users.map (·.disabledAt))) = some (true, [some 30]) := by
    decide +kernel
  have henabled : (run accountStep OrganizationAccounts.initial (before ++ [retried])).map
      (·.tenant.users.map (·.disabledAt)) = some [none] := by decide +kernel
  obtain ⟨s₁, h₁, hdisabled⟩ := Option.map_eq_some_iff.mp hdisabled
  obtain ⟨s₂, hrun, henabled⟩ := Option.map_eq_some_iff.mp henabled
  obtain ⟨hreplays, hdisabled⟩ := Prod.mk.inj hdisabled
  obtain ⟨s', h₁', h₂⟩ := run_append.mp hrun
  obtain rfl : s₁ = s' := Option.some.inj (h₁.symm.trans h₁')
  obtain ⟨s₃, hstep, hlast⟩ := run_cons_eq_some.mp h₂
  obtain rfl : s₃ = s₂ := Option.some.inj hlast
  have hkeeps := (meets_append (hall _ s₃ _ initial_keyed hrun) h₁).2.1
  have husers := (hkeeps s₃ hstep hreplays).tenant.users
  have hsame := congrArg (List.map (·.2.2)) husers
  simp only [List.map_map] at hsame
  have hbool : ∀ users : List AccountUser,
      users.map ((fun access : Id × Text × Bool => access.2.2) ∘ AccountUser.access) =
        (users.map (·.disabledAt)).map Option.isSome := fun users => by
    rw [List.map_map]
    rfl
  rw [hbool, hbool, hdisabled, henabled] at hsame
  exact nomatch hsame

end Kommunsign
