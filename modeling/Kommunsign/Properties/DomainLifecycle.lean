import Kommunsign.Control.CustomDomains

/-!
# The status of a custom domain and the map of its transitions

The map is that of `custom-domains`, and a domain that was removed is to stay so. What the last
transaction of an operation writes does not depend on the status that it finds: the first positive
DNS check passes over `dns_verified`, a challenge takes an attached domain back, and a check that
was under way when the domain was removed makes it active again.

* `domain_follows_map_iff` — the runs that follow the map are the runs that are answered in time
* `removed_domain_routed_again` — the check that outlives the removal
-/

namespace Kommunsign

open Infra

def FollowsMap (s : DomainSystem) (action : DomainAction) : Prop :=
  ∀ s', domainStep s action = some s' →
    s'.row.status = s.row.status ∨ assertDomainTransition s.row.status s'.row.status = true

def RemovedFinal (actions : List DomainAction) : Prop :=
  ∀ (before after : List DomainAction) (s₁ s₂ : DomainSystem), actions = before ++ after →
    run domainStep DomainSystem.requested before = some s₁ → s₁.row.status = .removed →
    run domainStep s₁ after = some s₂ → s₂.row.status = .removed

/--
The answer comes while it is still about the domain as it is. The guard of the primary domain lets
no status but `active` in, and without a DNS check the domain does not become active.
-/
def DomainSystem.AnsweredInTime (s : DomainSystem) : DomainOperation → DomainAnswer → Prop
  | .createChallenge, .challenge _ | .verifyAndAttach, .dns false =>
    s.row.isPrimary = true ∨ s.row.status ∉ [.certificatePending, .active, .removed]
  | .verifyAndAttach, .dns true =>
    s.row.isPrimary = true ∨ s.row.status ∈ [.certificatePending, .failed]
  | .checkCertificateAndHealth, .check .issued _ .healthy =>
    s.row.dnsVerifiedAt = none ∨ s.row.status ∈ [.certificatePending, .active]
  | .checkCertificateAndHealth, .check .issued _ _ =>
    s.row.isPrimary = true ∨ s.row.status ≠ .removed
  | _, _ => True

def AnsweredInTime (s : DomainSystem) : DomainAction → Prop
  | .finish i answer _ =>
    match s.underWay[i]?.join with
    | some operation => s.AnsweredInTime operation answer
    | none => True
  | _ => True

instance (s : DomainSystem) (operation : DomainOperation) (answer : DomainAnswer) :
    Decidable (s.AnsweredInTime operation answer) := by
  unfold DomainSystem.AnsweredInTime
  split <;> infer_instance

instance (s : DomainSystem) (action : DomainAction) : Decidable (AnsweredInTime s action) := by
  unfold AnsweredInTime
  split
  · split <;> infer_instance
  · infer_instance

/-! ## What an update leaves -/

theorem accepts_of_inactive {old new : CustomDomain} (hprimary : new.isPrimary = old.isPrimary)
    (hstatus : new.status ≠ .active) : old.accepts new = !old.isPrimary := by
  simp only [CustomDomain.accepts, hprimary]
  cases old.isPrimary with
  | true => simp [hstatus]
  | false => simp [hstatus]

theorem accepts_of_healthy {old new : CustomDomain} (hprimary : new.isPrimary = old.isPrimary)
    (hstatus : new.status = .active) (hverified : new.dnsVerifiedAt = old.dnsVerifiedAt)
    (hissued : new.certificateIssuedAt.isSome) (hhealth : new.lastHealthStatus = some .healthy)
    (hactivated : new.activatedAt.isSome) : old.accepts new = old.dnsVerifiedAt.isSome := by
  simp only [CustomDomain.accepts, hprimary, hstatus, hverified, hissued, hhealth, hactivated]
  cases old.isPrimary with
  | true => simp
  | false => simp

theorem write_row (s : DomainSystem) (row : CustomDomain)
    (challenges : List VerificationChallenge) :
    (s.write row challenges).row = if s.row.accepts row then row else s.row := by
  unfold DomainSystem.write
  split
  · rfl
  · rfl

theorem write_inactive_iff {s : DomainSystem} {row : CustomDomain}
    (challenges : List VerificationChallenge) (hprimary : row.isPrimary = s.row.isPrimary)
    (hstatus : row.status ≠ .active) :
    ((s.write row challenges).row.status = s.row.status ∨
        assertDomainTransition s.row.status (s.write row challenges).row.status = true) ↔
      s.row.isPrimary = true ∨ row.status = s.row.status ∨
        assertDomainTransition s.row.status row.status = true := by
  rw [write_row, accepts_of_inactive hprimary hstatus]
  cases s.row.isPrimary with
  | true => simp
  | false => simp

/-! ## The states of a run -/

def DomainState.grown : List DomainState :=
  [.requested, .dnsChallengeCreated, .dnsVerificationPending, .certificatePending, .active,
    .removed, .failed]

structure DomainSystem.Grown (s : DomainSystem) : Prop where
  status : s.row.status ∈ DomainState.grown
  /-- A challenge was created. -/
  challenged : s.challenges ≠ [] → s.row.status ≠ .requested
  /-- The check of a challenge is under way. -/
  verifying : ∀ i : Nat, s.underWay[i]?.join = some .verifyAndAttach → s.challenges ≠ []

theorem DomainSystem.Grown.requested : DomainSystem.requested.Grown where
  status := by decide
  challenged := fun h => absurd rfl h
  verifying := fun i h => by simp [DomainSystem.requested] at h

theorem DomainSystem.Grown.write {s : DomainSystem} (hs : s.Grown) {row : CustomDomain}
    {challenges : List VerificationChallenge}
    (hstatus : row.status ∈ [.dnsChallengeCreated, .dnsVerificationPending, .certificatePending,
      .active, .removed, .failed])
    (hchallenges : s.challenges ≠ [] → challenges ≠ []) : (s.write row challenges).Grown := by
  unfold DomainSystem.write
  split
  · refine ⟨?_, ?_, ?_⟩
    · exact List.mem_cons_of_mem _ hstatus
    · intro _ hrequested
      simp only at hrequested
      rw [hrequested] at hstatus
      exact absurd hstatus (by decide)
    · exact fun i hi => hchallenges (hs.verifying i hi)
  · exact hs

theorem finishOperation_grown {s s' : DomainSystem} {now : Time} {operation : DomainOperation}
    {answer : DomainAnswer} (hs : s.Grown)
    (h : s.finishOperation now operation answer = some s') : s'.Grown := by
  unfold DomainSystem.finishOperation at h
  split at h
  · obtain rfl := Option.some.inj h
    exact hs.write (by simp) (fun _ => by simp)
  · obtain rfl := Option.some.inj h
    exact hs.write (by simp) id
  · obtain rfl := Option.some.inj h
    exact hs.write (by simp) (fun hne => by simpa using hne)
  · split at h
    · obtain rfl := Option.some.inj h
      exact hs
    · obtain rfl := Option.some.inj h
      refine hs.write ?_ id
      simp only
      split
      · simp
      · simp
  · obtain rfl := Option.some.inj h
    exact hs.write (by simp) id
  · obtain rfl := Option.some.inj h
    exact ⟨hs.status, hs.challenged, hs.verifying⟩
  · exact nomatch h

theorem challenges_ne_nil_of_current {s : DomainSystem} {now : Time}
    (h : s.currentChallenge now = true) : s.challenges ≠ [] := by
  intro hnil
  simp [DomainSystem.currentChallenge, hnil] at h

theorem domainStep_grown {s s' : DomainSystem} {action : DomainAction} (hs : s.Grown)
    (h : domainStep s action = some s') : s'.Grown := by
  cases action with
  | start operation now =>
    simp only [domainStep] at h
    split at h
    · rename_i hstart
      obtain rfl := Option.some.inj h
      refine ⟨hs.status, hs.challenged, fun i hi => ?_⟩
      rcases slot_append hi with hi | ⟨_, hi⟩
      · exact hs.verifying i hi
      · rw [Option.join_eq_some_iff, List.getElem?_singleton] at hi
        split at hi
        · cases hi
          exact challenges_ne_nil_of_current hstart
        · cases hi
    · cases h
  | finish i answer now =>
    simp only [domainStep] at h
    split at h
    · split at h
      · rename_i s₁ hfinish
        obtain rfl := Option.some.inj h
        have hs₁ := finishOperation_grown hs hfinish
        refine ⟨hs₁.status, hs₁.challenged, fun j hj => ?_⟩
        rcases slot_set hj with ⟨_, hset⟩ | ⟨_, hj⟩
        · cases hset
        · exact hs₁.verifying j hj
      · cases h
    · cases h
  | abandon i =>
    simp only [domainStep] at h
    split at h
    · obtain rfl := Option.some.inj h
      refine ⟨hs.status, hs.challenged, fun j hj => ?_⟩
      rcases slot_set hj with ⟨_, hset⟩ | ⟨_, hj⟩
      · cases hset
      · exact hs.verifying j hj
    · cases h
  | otherMadePrimary =>
    obtain rfl := Option.some.inj h
    exact ⟨hs.status, hs.challenged, hs.verifying⟩

/-! ## One operation that ends -/

theorem challengeCreated_edge_iff : ∀ d ∈ DomainState.grown,
    (.dnsChallengeCreated = d ∨ assertDomainTransition d .dnsChallengeCreated = true ↔
      d ∉ [.certificatePending, .active, .removed]) := by
  decide

theorem verificationPending_edge_iff : ∀ d ∈ DomainState.grown, d ≠ .requested →
    (.dnsVerificationPending = d ∨ assertDomainTransition d .dnsVerificationPending = true ↔
      d ∉ [.certificatePending, .active, .removed]) := by
  decide

theorem certificatePending_edge_iff : ∀ d ∈ DomainState.grown,
    (.certificatePending = d ∨ assertDomainTransition d .certificatePending = true ↔
      d ∈ [.certificatePending, .failed]) := by
  decide

theorem active_edge_iff : ∀ d ∈ DomainState.grown,
    (.active = d ∨ assertDomainTransition d .active = true ↔
      d ∈ [.certificatePending, .active]) := by
  decide

theorem failed_edge_iff : ∀ d ∈ DomainState.grown,
    (.failed = d ∨ assertDomainTransition d .failed = true ↔ d ≠ .removed) := by
  decide

theorem removed_edge : ∀ d ∈ DomainState.grown,
    .removed = d ∨ assertDomainTransition d .removed = true := by
  decide

theorem finishOperation_follows_iff {s s' : DomainSystem} {now : Time}
    {operation : DomainOperation} {answer : DomainAnswer} (hs : s.Grown)
    (hverifying : operation = .verifyAndAttach → s.row.status ≠ .requested)
    (h : s.finishOperation now operation answer = some s') :
    (s'.row.status = s.row.status ∨ assertDomainTransition s.row.status s'.row.status = true) ↔
      s.AnsweredInTime operation answer := by
  have hstatus : s.row.status ∈ DomainState.grown := hs.status
  unfold DomainSystem.finishOperation at h
  split at h
  · obtain rfl := Option.some.inj h
    refine (write_inactive_iff _ ?_ ?_).trans (or_congr_right ?_)
    · rfl
    · simp
    · exact challengeCreated_edge_iff _ hstatus
  · obtain rfl := Option.some.inj h
    refine (write_inactive_iff _ ?_ ?_).trans (or_congr_right ?_)
    · rfl
    · simp
    · exact verificationPending_edge_iff _ hstatus (hverifying rfl)
  · obtain rfl := Option.some.inj h
    refine (write_inactive_iff _ ?_ ?_).trans (or_congr_right ?_)
    · rfl
    · simp
    · exact certificatePending_edge_iff _ hstatus
  · rename_i certificate issuedAt health
    split at h
    · -- `CUSTOM_DOMAIN_CERTIFICATE_NOT_READY`
      rename_i hissued
      obtain rfl := Option.some.inj h
      cases certificate with
      | issued => exact absurd rfl hissued
      | _ => simp [DomainSystem.AnsweredInTime]
    · rename_i hissued
      obtain rfl := Option.some.inj h
      obtain rfl := Decidable.not_not.mp hissued
      cases health with
      | healthy =>
        rw [write_row, accepts_of_healthy (by rfl) (by rfl) (by rfl) (by rfl) (by rfl) (by rfl)]
        simp only [DomainSystem.AnsweredInTime]
        cases hverified : s.row.dnsVerifiedAt with
        | none => simp
        | some verifiedAt =>
          simp only [Option.isSome_some, if_true, reduceCtorEq, false_or]
          exact active_edge_iff _ hstatus
      | degraded =>
        refine (write_inactive_iff _ ?_ ?_).trans (or_congr_right ?_)
        · rfl
        · simp
        · exact failed_edge_iff _ hstatus
      | failed =>
        refine (write_inactive_iff _ ?_ ?_).trans (or_congr_right ?_)
        · rfl
        · simp
        · exact failed_edge_iff _ hstatus
  · obtain rfl := Option.some.inj h
    refine (write_inactive_iff _ ?_ ?_).trans (iff_of_true ?_ trivial)
    · rfl
    · simp
    · exact .inr (removed_edge _ hstatus)
  · obtain rfl := Option.some.inj h
    exact iff_of_true (.inl rfl) trivial
  · exact nomatch h

theorem followsMap_iff {s s' : DomainSystem} {action : DomainAction} (hs : s.Grown)
    (h : domainStep s action = some s') : FollowsMap s action ↔ AnsweredInTime s action := by
  unfold FollowsMap
  rw [h]
  simp only [Option.some.injEq, forall_eq']
  cases action with
  | start operation now =>
    simp only [domainStep] at h
    split at h
    · obtain rfl := Option.some.inj h
      exact iff_of_true (.inl rfl) trivial
    · exact nomatch h
  | finish i answer now =>
    simp only [domainStep] at h
    split at h
    · rename_i operation hslot
      split at h
      · rename_i s₁ hfinish
        obtain rfl := Option.some.inj h
        have hverifying : operation = .verifyAndAttach → s.row.status ≠ .requested :=
          fun hop => hs.challenged (hs.verifying i (hop ▸ hslot))
        simp only [AnsweredInTime, hslot]
        exact finishOperation_follows_iff hs hverifying hfinish
      · exact nomatch h
    · exact nomatch h
  | abandon i =>
    simp only [domainStep] at h
    split at h
    · obtain rfl := Option.some.inj h
      exact iff_of_true (.inl rfl) trivial
    · exact nomatch h
  | otherMadePrimary =>
    obtain rfl := Option.some.inj h
    exact iff_of_true (.inl rfl) trivial

/-! ## Runs -/

theorem removed_of_follows {s s' : DomainSystem} {action : DomainAction}
    (hremoved : s.row.status = .removed) (hfollows : FollowsMap s action)
    (h : domainStep s action = some s') : s'.row.status = .removed := by
  rcases hfollows s' h with hsame | hedge
  · exact hsame.trans hremoved
  · rw [hremoved] at hedge
    exact nomatch hedge

theorem removedFinal_of_follows {actions : List DomainAction}
    (hfollows : Meets domainStep FollowsMap DomainSystem.requested actions) :
    RemovedFinal actions := by
  rintro before after s₁ s₂ rfl h₁ hremoved h₂
  obtain ⟨_, hafter⟩ := meets_append hfollows h₁
  have hinv : ∀ (s : DomainSystem) (action : DomainAction) (s' : DomainSystem),
      s.row.status = .removed → FollowsMap s action → domainStep s action = some s' →
        s'.row.status = .removed := fun _ _ _ => removed_of_follows
  exact run_invariant_of_meets hinv hremoved hafter h₂

/--
The status follows the map, and removal is final, in exactly the runs in which every operation is
answered while its answer is still about the domain as it is.
-/
theorem domain_follows_map_iff {actions : List DomainAction} {s : DomainSystem}
    (hrun : run domainStep DomainSystem.requested actions = some s) :
    Meets domainStep FollowsMap DomainSystem.requested actions ∧ RemovedFinal actions ↔
      Meets domainStep AnsweredInTime DomainSystem.requested actions := by
  have hmeets : Meets domainStep FollowsMap DomainSystem.requested actions ↔
      Meets domainStep AnsweredInTime DomainSystem.requested actions :=
    meets_iff_meets (fun _ _ _ hs _ h => domainStep_grown hs h)
      (fun _ _ _ hs h => followsMap_iff hs h) DomainSystem.Grown.requested hrun
  constructor
  · exact fun h => hmeets.mp h.1
  · exact fun h => ⟨hmeets.mpr h, removedFinal_of_follows (hmeets.mpr h)⟩

/-- A domain whose first check of DNS is negative, and that is repaired, attached and removed. -/
def repairedDomain : List DomainAction :=
  [.start .createChallenge 0, .finish 0 (.challenge 100) 1, .start .verifyAndAttach 2,
    .finish 1 (.dns false) 3, .start .checkCertificateAndHealth 4,
    .finish 2 (.check .issued none .failed) 5, .start .verifyAndAttach 6, .finish 3 (.dns true) 7,
    .start .checkCertificateAndHealth 8, .finish 4 (.check .issued none .healthy) 9,
    .start .remove 10, .finish 5 .removed 11]

theorem repairedDomain_follows_map :
    Meets domainStep FollowsMap DomainSystem.requested repairedDomain ∧
      RemovedFinal repairedDomain :=
  (domain_follows_map_iff (Option.some_get (by decide : Option.isSome _)).symm).mpr (by decide)

def removedDomain : List DomainAction :=
  [.start .createChallenge 0, .finish 0 (.challenge 100) 1, .start .verifyAndAttach 2,
    .finish 1 (.dns true) 3, .start .checkCertificateAndHealth 4, .start .remove 5,
    .finish 3 .removed 6]

/-- The check that was under way when the domain was removed makes it active again. -/
theorem removed_domain_routed_again :
    ¬ ∀ (actions : List DomainAction) (s : DomainSystem),
      run domainStep DomainSystem.requested actions = some s →
        Meets domainStep FollowsMap DomainSystem.requested actions ∧ RemovedFinal actions := by
  intro hall
  let active : DomainAction := .finish 2 (.check .issued none .healthy) 7
  have hlast : (run domainStep DomainSystem.requested (removedDomain ++ [active])).map
      (·.row.status) = some .active := by decide
  obtain ⟨s₂, hrun, hactive⟩ := Option.map_eq_some_iff.mp hlast
  have hfirst : (run domainStep DomainSystem.requested removedDomain).map (·.row.status) =
      some .removed := by decide
  obtain ⟨s₁, hremoved, hstatus⟩ := Option.map_eq_some_iff.mp hfirst
  obtain ⟨s', h₁, h₂⟩ := run_append.mp hrun
  obtain rfl : s₁ = s' := Option.some.inj (hremoved.symm.trans h₁)
  have hfinal := (hall _ s₂ hrun).2 removedDomain [active] s₁ s₂ rfl hremoved hstatus h₂
  rw [hactive] at hfinal
  exact nomatch hfinal

end Kommunsign
