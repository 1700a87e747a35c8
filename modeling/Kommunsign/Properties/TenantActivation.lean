import Kommunsign.Control.Activation

/-!
# How a tenant becomes active

The readiness of a tenant is looked at when its activation is requested. The approval of another
user looks neither at the assessments nor at the status of the tenant, which is set to `active`
whatever it was: an assessment that has failed since, or a suspension, does not stop a request that
is still pending. The worker's job looks at both, but nothing ever gives it an approved request.

* `activated_in_order_iff` — the runs in which tenants are activated as they should
* `suspended_tenant_reactivated` — the request that outlives a suspension
-/

namespace Kommunsign

open Infra

/--
A tenant becomes active by the approval of a user other than the requester, while it is being taken
on and its latest assessment has no blocking finding.
-/
def ActivatedInOrder (s : Onboarding) (action : OnboardingAction) : Prop :=
  ∀ (s' : Onboarding) (tenantId : Id), onboardingStep s action = some s' →
    s.tenantStatus tenantId ≠ some .active → s'.tenantStatus tenantId = some .active →
      ∃ (requestId : Id) (reason : Text) (approver : String) (request : ActivationRequest)
        (status : TenantStatus) (readiness : ReadinessResult),
        action = .decideActivation requestId .approve reason approver ∧
          s.request requestId = some request ∧ request.tenantId = tenantId ∧
          request.requestedBy ≠ approver ∧
          s.tenantStatus tenantId = some status ∧ status.isOnboarding = true ∧
          s.latestReadiness tenantId = some readiness ∧ readiness.blockingChecks = []

/-- Once suspended or decommissioned, a tenant is not active whatever comes. -/
def NeverReactivated (actions : List OnboardingAction) : Prop :=
  ∀ (before after : List OnboardingAction) (s₁ s₂ : Onboarding) (tenantId : Id)
    (status : TenantStatus), actions = before ++ after →
    run onboardingStep Onboarding.initial before = some s₁ →
    s₁.tenantStatus tenantId = some status →
    status ∈ [.suspended, .decommissioning, .decommissioned] →
    run onboardingStep s₁ after = some s₂ → s₂.tenantStatus tenantId ≠ some .active

/--
An approval is given while the tenant is being taken on and its latest assessment is good, or when
the tenant is active already.
-/
def ApprovedInTime (s : Onboarding) : OnboardingAction → Prop
  | .decideActivation requestId .approve _ _ =>
    match s.request requestId with
    | some request =>
      s.tenantStatus request.tenantId = some .active ∨
        (s.tenantStatus request.tenantId).any TenantStatus.isOnboarding = true ∧
          (s.latestReadiness request.tenantId).any (·.ready) = true
    | none => True
  | _ => True

instance (s : Onboarding) (action : OnboardingAction) : Decidable (ApprovedInTime s action) := by
  unfold ApprovedInTime
  split
  · split <;> infer_instance
  · infer_instance

/-! ## The status of one tenant -/

section

variable {s s' : Onboarding} {tenantId : Id}

theorem tenantStatus_setTenant (s : Onboarding) (target tenantId : Id)
    (condition : TenantStatus → Bool) (status : TenantStatus) :
    (s.setTenant target condition status).tenantStatus tenantId =
      (s.tenantStatus tenantId).map fun old =>
        if tenantId = target ∧ condition old = true then status else old := by
  unfold Onboarding.tenantStatus Onboarding.setTenant
  rw [find?_assign PlatformTenant.id (by intro _ _ _; rfl)]
  cases hrow : s.tenants.find? (·.id == tenantId) with
  | none => rfl
  | some row =>
    obtain ⟨_, rfl⟩ := exists_of_find?_key hrow
    simp only [Option.map_some, Bool.and_eq_true, beq_iff_eq]
    split
    · rfl
    · rfl

@[simp] theorem tenantStatus_setRequest (requestId : Id) (status : ActivationStatus) :
    (s.setRequest requestId status).tenantStatus tenantId = s.tenantStatus tenantId := rfl

@[simp] theorem tenantStatus_setApplication (applicationId : Id)
    (source target : ApplicationStatus) :
    (s.setApplication applicationId source target).tenantStatus tenantId =
      s.tenantStatus tenantId := rfl

theorem tenantStatus_reserved {status : TenantStatus} (row : PlatformTenant)
    (h : s.tenantStatus tenantId = some status) :
    ((s.tenants ++ [row]).find? (·.id == tenantId)).map (·.status) = some status := by
  obtain ⟨found, hfound, rfl⟩ := Option.map_eq_some_iff.mp h
  rw [List.find?_append, hfound]
  rfl

end

def Approves (s : Onboarding) (action : OnboardingAction) (tenantId : Id) : Prop :=
  ∃ (requestId : Id) (reason : Text) (approver : String) (request : ActivationRequest),
    action = .decideActivation requestId .approve reason approver ∧
      s.request requestId = some request ∧ request.tenantId = tenantId ∧
      assertDistinctApprovers request.requestedBy approver = true

inductive TenantMove (s : Onboarding) (action : OnboardingAction) (tenantId : Id) :
    TenantStatus → TenantStatus → Prop where
  | stays (status : TenantStatus) : TenantMove s action tenantId status status
  | completes : TenantMove s action tenantId .provisioning .onboarding
  | closes {old new : TenantStatus} (hopen : new.isOnboarding = false) (hactive : new ≠ .active) :
    TenantMove s action tenantId old new
  | activates {old : TenantStatus} (happroves : Approves s action tenantId) :
    TenantMove s action tenantId old .active

structure Onboarding.Recorded (s : Onboarding) : Prop where
  results : ∀ row ∈ s.results, row.result.ready = row.result.blockingChecks.isEmpty
  /-- Nothing approves a request without activating the tenant. -/
  requests : ∀ request ∈ s.requests, request.status ≠ .approved
  tenants : ∀ request ∈ s.requests, s.tenantStatus request.tenantId ≠ none

/-! ## The operations -/

section

variable {s s' : Onboarding}

theorem decideActivation_eq_some {requestId : Id} {decision : ActivationDecision} {reason : Text}
    {subjectId : String} (h : s.decideActivation requestId decision reason subjectId = some s') :
    ∃ request, s.request requestId = some request ∧ request.status = .pending_approval ∧
      assertDistinctApprovers request.requestedBy subjectId = true ∧
      s'.results = s.results ∧
      ∃ status, status ≠ .approved ∧ s'.requests = (s.setRequest requestId status).requests ∧
        ∀ tenantId, s'.tenantStatus tenantId = (s.tenantStatus tenantId).map fun old =>
          if decision = .approve ∧ tenantId = request.tenantId then .active else old := by
  unfold Onboarding.decideActivation at h
  cases hrequest : s.request requestId with
  | none =>
    rw [hrequest] at h
    exact nomatch h
  | some request =>
    simp only [hrequest] at h
    split at h
    · exact nomatch h
    · rename_i hguard
      obtain ⟨hpending, hdistinct⟩ := not_or.mp hguard
      cases hreason : cleanText reason 2 5000 with
      | none =>
        simp only [hreason] at h
        exact nomatch h
      | some cleaned =>
        simp only [hreason] at h
        refine ⟨request, rfl, Decidable.not_not.mp hpending, by simpa using hdistinct, ?_⟩
        cases decision with
        | reject =>
          obtain rfl := Option.some.inj h
          refine ⟨rfl, .rejected, by decide, rfl, fun tenantId => ?_⟩
          simp only [reduceCtorEq, false_and, if_false, Option.map_id']
          rfl
        | approve =>
          obtain rfl := Option.some.inj h
          refine ⟨rfl, .activated, by decide, rfl, fun tenantId => ?_⟩
          rw [tenantStatus_setApplication, tenantStatus_setTenant]
          simp only [true_and, and_true]
          rfl

theorem handleTenantActivation_eq_some (hs : s.Recorded) {requestId tenantId : Id}
    (h : s.handleTenantActivation requestId tenantId = some s') : s' = s := by
  unfold Onboarding.handleTenantActivation at h
  split at h
  · exact nomatch h
  · rename_i request hrequest
    have hmem := List.mem_of_find?_eq_some hrequest
    split at h
    · exact (Option.some.inj h).symm
    · rw [if_pos (hs.requests request hmem)] at h
      exact nomatch h

theorem createActivationRequest_eq_some {requestId tenantId : Id} {subjectId : String}
    (h : s.createActivationRequest requestId tenantId subjectId = some s') :
    ∃ request, s' = { s with requests := s.requests ++ [request] } ∧
      request.status = .pending_approval ∧ s.tenantStatus request.tenantId ≠ none := by
  unfold Onboarding.createActivationRequest at h
  split at h
  · exact nomatch h
  · split at h
    · exact nomatch h
    · split at h
      · exact nomatch h
      · split at h
        · exact nomatch h
        · rename_i hguard
          obtain rfl := Option.some.inj h
          refine ⟨_, rfl, rfl, ?_⟩
          intro hnone
          simp [hnone] at hguard

theorem reserveTenant_eq_some {application : OnboardingApplication}
    (h : s.reserveTenant application = some s') :
    s' = { s with
      tenants := s.tenants ++ [⟨application.linkedTenantId, .provisioning⟩]
      applications := s.applications ++ [application] } := by
  unfold Onboarding.reserveTenant at h
  split at h
  · exact nomatch h
  · exact (Option.some.inj h).symm

theorem recordReadiness_eq_some {tenantId : Id} {environment : EnvironmentName}
    {checks : List ReadinessCheck} {checkedAt : Time}
    (h : s.recordReadiness tenantId environment checks checkedAt = some s') :
    s' = { s with
      results := s.results ++ [⟨tenantId, evaluateReadiness environment checks, checkedAt⟩] } := by
  unfold Onboarding.recordReadiness at h
  split at h
  · exact nomatch h
  · exact (Option.some.inj h).symm

end

/-! ## One step -/

section

variable {s s' : Onboarding} {action : OnboardingAction} {tenantId : Id}

theorem move_of_same {old : TenantStatus}
    (hsame : s'.tenantStatus tenantId = s.tenantStatus tenantId)
    (hold : s.tenantStatus tenantId = some old) :
    ∃ new, s'.tenantStatus tenantId = some new ∧ TenantMove s action tenantId old new :=
  ⟨old, hsame.trans hold, .stays old⟩

theorem tenantStatus_step (hs : s.Recorded) (h : onboardingStep s action = some s')
    {old : TenantStatus} (hold : s.tenantStatus tenantId = some old) :
    ∃ new, s'.tenantStatus tenantId = some new ∧ TenantMove s action tenantId old new := by
  cases action with
  | reserveTenant application =>
    obtain rfl := reserveTenant_eq_some h
    exact ⟨old, tenantStatus_reserved _ hold, .stays old⟩
  | completeProvisioning target applicationId =>
    obtain rfl := Option.some.inj h
    rw [tenantStatus_setApplication, tenantStatus_setTenant, hold, Option.map_some]
    refine ⟨_, rfl, ?_⟩
    split
    · rename_i hcompleted
      obtain rfl : old = .provisioning := by simpa using hcompleted.2
      exact .completes
    · exact .stays old
  | moveApplication applicationId source target =>
    simp only [onboardingStep] at h
    split at h
    · obtain rfl := Option.some.inj h
      exact move_of_same rfl hold
    · exact nomatch h
  | setStatus target status =>
    simp only [onboardingStep] at h
    split at h
    · rename_i hclosed
      obtain rfl := Option.some.inj h
      rw [tenantStatus_setTenant, hold, Option.map_some]
      refine ⟨_, rfl, ?_⟩
      split
      · cases status with
        | provisioning | onboarding | active => exact absurd hclosed (by decide)
        | paused | suspended | decommissioning | decommissioned => exact .closes rfl (by decide)
      · exact .stays old
    · exact nomatch h
  | recordReadiness target environment checks checkedAt =>
    obtain rfl := recordReadiness_eq_some h
    exact move_of_same rfl hold
  | createActivationRequest requestId target subjectId =>
    obtain ⟨request, rfl, -, -⟩ := createActivationRequest_eq_some h
    exact move_of_same rfl hold
  | decideActivation requestId decision reason subjectId =>
    obtain ⟨request, hrequest, -, hdistinct, -, -, -, -, hstatus⟩ := decideActivation_eq_some h
    rw [hstatus, hold, Option.map_some]
    refine ⟨_, rfl, ?_⟩
    split
    · rename_i happroved
      obtain ⟨rfl, rfl⟩ := happroved
      exact .activates ⟨requestId, reason, subjectId, request, rfl, hrequest, rfl, hdistinct⟩
    · exact .stays old
  | handleTenantActivation requestId target =>
    obtain rfl := handleTenantActivation_eq_some hs h
    exact move_of_same rfl hold

theorem tenantStatus_of_none (hs : s.Recorded) (h : onboardingStep s action = some s')
    (hnone : s.tenantStatus tenantId = none) : s'.tenantStatus tenantId ≠ some .active := by
  cases action with
  | reserveTenant application =>
    obtain rfl := reserveTenant_eq_some h
    have hfind : s.tenants.find? (·.id == tenantId) = none := Option.map_eq_none_iff.mp hnone
    simp only [Onboarding.tenantStatus, List.find?_append, hfind, Option.none_or,
      List.find?_singleton]
    split
    · simp
    · simp
  | completeProvisioning target applicationId =>
    obtain rfl := Option.some.inj h
    rw [tenantStatus_setApplication, tenantStatus_setTenant, hnone]
    simp
  | moveApplication applicationId source target =>
    simp only [onboardingStep] at h
    split at h
    · obtain rfl := Option.some.inj h
      rw [tenantStatus_setApplication, hnone]
      simp
    · exact nomatch h
  | setStatus target status =>
    simp only [onboardingStep] at h
    split at h
    · obtain rfl := Option.some.inj h
      rw [tenantStatus_setTenant, hnone]
      simp
    · exact nomatch h
  | recordReadiness target environment checks checkedAt =>
    obtain rfl := recordReadiness_eq_some h
    exact fun hactive => nomatch hnone.symm.trans hactive
  | createActivationRequest requestId target subjectId =>
    obtain ⟨request, rfl, -, -⟩ := createActivationRequest_eq_some h
    exact fun hactive => nomatch hnone.symm.trans hactive
  | decideActivation requestId decision reason subjectId =>
    obtain ⟨request, -, -, -, -, -, -, -, hstatus⟩ := decideActivation_eq_some h
    rw [hstatus, hnone]
    simp
  | handleTenantActivation requestId target =>
    obtain rfl := handleTenantActivation_eq_some hs h
    exact fun hactive => nomatch hnone.symm.trans hactive

theorem tenantStatus_ne_none (hs : s.Recorded) (h : onboardingStep s action = some s')
    (hsome : s.tenantStatus tenantId ≠ none) : s'.tenantStatus tenantId ≠ none := by
  obtain ⟨old, hold⟩ := Option.ne_none_iff_exists'.mp hsome
  obtain ⟨new, hnew, _⟩ := tenantStatus_step hs h hold
  exact fun hnone => nomatch hnone.symm.trans hnew

theorem rows_step (hs : s.Recorded) (h : onboardingStep s action = some s') :
    (∀ row ∈ s'.results, row ∈ s.results ∨
      row.result.ready = row.result.blockingChecks.isEmpty) ∧
    (∀ request ∈ s'.requests,
      (request.status ≠ .approved ∧ s.tenantStatus request.tenantId ≠ none)) := by
  have hrequests : ∀ request ∈ s.requests,
      request.status ≠ .approved ∧ s.tenantStatus request.tenantId ≠ none :=
    fun request hmem => ⟨hs.requests request hmem, hs.tenants request hmem⟩
  cases action with
  | reserveTenant application =>
    obtain rfl := reserveTenant_eq_some h
    exact ⟨fun _ => Or.inl, hrequests⟩
  | completeProvisioning target applicationId =>
    obtain rfl := Option.some.inj h
    exact ⟨fun _ => Or.inl, hrequests⟩
  | moveApplication applicationId source target =>
    simp only [onboardingStep] at h
    split at h
    · obtain rfl := Option.some.inj h
      exact ⟨fun _ => Or.inl, hrequests⟩
    · exact nomatch h
  | setStatus target status =>
    simp only [onboardingStep] at h
    split at h
    · obtain rfl := Option.some.inj h
      exact ⟨fun _ => Or.inl, hrequests⟩
    · exact nomatch h
  | recordReadiness target environment checks checkedAt =>
    obtain rfl := recordReadiness_eq_some h
    refine ⟨fun row hrow => ?_, hrequests⟩
    rcases List.mem_append.mp hrow with hrow | hrow
    · exact .inl hrow
    · obtain rfl := List.mem_singleton.mp hrow
      exact .inr rfl
  | createActivationRequest requestId target subjectId =>
    obtain ⟨new, rfl, hpending, htenant⟩ := createActivationRequest_eq_some h
    refine ⟨fun _ => Or.inl, fun request hrequest => ?_⟩
    rcases List.mem_append.mp hrequest with hrequest | hrequest
    · exact hrequests request hrequest
    · obtain rfl := List.mem_singleton.mp hrequest
      exact ⟨by rw [hpending]; decide, htenant⟩
  | decideActivation requestId decision reason subjectId =>
    obtain ⟨_, -, -, -, hresults, status, hstatus, hrows, -⟩ := decideActivation_eq_some h
    rw [hresults, hrows]
    refine ⟨fun _ => Or.inl, fun request hrequest => ?_⟩
    obtain ⟨old, hold, rfl⟩ := mem_assign.mp hrequest
    split
    · exact ⟨hstatus, (hrequests old hold).2⟩
    · exact hrequests old hold
  | handleTenantActivation requestId target =>
    obtain rfl := handleTenantActivation_eq_some hs h
    exact ⟨fun _ => Or.inl, hrequests⟩

theorem recorded_step (hs : s.Recorded) (h : onboardingStep s action = some s') :
    s'.Recorded := by
  obtain ⟨hresults, hrequests⟩ := rows_step hs h
  refine ⟨fun row hrow => ?_, fun request hmem => (hrequests request hmem).1,
    fun request hmem => tenantStatus_ne_none hs h (hrequests request hmem).2⟩
  rcases hresults row hrow with hold | hnew
  · exact hs.results row hold
  · exact hnew

end

theorem recorded_initial : Onboarding.initial.Recorded where
  results := fun _ h => nomatch h
  requests := fun _ h => nomatch h
  tenants := fun _ h => nomatch h

/-! ## Approvals -/

section

variable {s s' : Onboarding} {action : OnboardingAction} {tenantId : Id}

theorem ready_iff (hs : s.Recorded) {readiness : ReadinessResult}
    (h : s.latestReadiness tenantId = some readiness) :
    readiness.ready = true ↔ readiness.blockingChecks = [] := by
  obtain ⟨row, hrow, rfl⟩ := Option.map_eq_some_iff.mp h
  rw [hs.results row (List.mem_of_mem_filter (minBy_eq_some hrow).1), List.isEmpty_iff]

theorem distinct_of_assert {initiatedBy approvedBy : String}
    (h : assertDistinctApprovers initiatedBy approvedBy = true) : initiatedBy ≠ approvedBy := by
  simp only [assertDistinctApprovers, Bool.and_eq_true, bne_iff_ne] at h
  exact h.2

theorem activatedInOrder_of_approved (hs : s.Recorded) (happroved : ApprovedInTime s action) :
    ActivatedInOrder s action := by
  intro s' tenantId h hbefore hafter
  cases hold : s.tenantStatus tenantId with
  | none => exact absurd hafter (tenantStatus_of_none hs h hold)
  | some old =>
    obtain ⟨new, hnew, hmove⟩ := tenantStatus_step hs h hold
    obtain rfl : new = .active := Option.some.inj (hnew.symm.trans hafter)
    cases hmove with
    | stays => exact absurd hold hbefore
    | closes _ hactive => exact absurd rfl hactive
    | activates happroves =>
      obtain ⟨requestId, reason, approver, request, rfl, hrequest, rfl, hdistinct⟩ := happroves
      simp only [ApprovedInTime, hrequest] at happroved
      rcases happroved with hactive | ⟨hopen, hready⟩
      · exact absurd hactive hbefore
      · rw [hold] at hopen
        cases hlatest : s.latestReadiness request.tenantId with
        | none =>
          rw [hlatest] at hready
          exact nomatch hready
        | some readiness =>
          rw [hlatest] at hready
          exact ⟨requestId, reason, approver, request, old, readiness, rfl, hrequest, rfl,
            distinct_of_assert hdistinct, rfl, hopen, rfl, (ready_iff hs hlatest).mp hready⟩

theorem approved_of_activatedInOrder (hs : s.Recorded) (h : onboardingStep s action = some s')
    (horder : ActivatedInOrder s action) : ApprovedInTime s action := by
  unfold ApprovedInTime
  split
  · rename_i requestId reason approver
    have hdecide : s.decideActivation requestId .approve reason approver = some s' := h
    obtain ⟨request, hrequest, -, -, -, -, -, -, hstatus⟩ := decideActivation_eq_some hdecide
    simp only [hrequest]
    refine or_iff_not_imp_left.mpr fun hbefore => ?_
    have htenant := hs.tenants request (List.mem_of_find?_eq_some hrequest)
    obtain ⟨old, hold⟩ := Option.ne_none_iff_exists'.mp htenant
    have hafter : s'.tenantStatus request.tenantId = some .active := by
      rw [hstatus, hold]
      simp
    obtain ⟨_, _, _, _, status, readiness, -, -, -, -, hstatus, hopen, hlatest, hblocking⟩ :=
      horder s' request.tenantId h hbefore hafter
    refine ⟨?_, ?_⟩
    · rw [hstatus]
      exact hopen
    · rw [hlatest]
      exact (ready_iff hs hlatest).mpr hblocking
  · trivial

end

/-! ## Runs -/

def Onboarding.Closed (tenantId : Id) (s : Onboarding) : Prop :=
  ∃ status, s.tenantStatus tenantId = some status ∧ status.isOnboarding = false ∧ status ≠ .active

theorem closed_step {s s' : Onboarding} {action : OnboardingAction} {tenantId : Id}
    (hs : s.Recorded) (hclosed : s.Closed tenantId) (horder : ActivatedInOrder s action)
    (h : onboardingStep s action = some s') : s'.Closed tenantId := by
  obtain ⟨old, hold, hopen, hactive⟩ := hclosed
  obtain ⟨new, hnew, hmove⟩ := tenantStatus_step hs h hold
  cases hmove with
  | stays => exact ⟨old, hnew, hopen, hactive⟩
  | completes => exact nomatch hopen
  | closes hopen' hactive' => exact ⟨new, hnew, hopen', hactive'⟩
  | activates =>
    have hbefore : s.tenantStatus tenantId ≠ some .active := by
      rw [hold]
      exact fun hsome => hactive (Option.some.inj hsome)
    obtain ⟨_, _, _, _, status, _, -, -, -, -, hstatus, hopen', -⟩ :=
      horder s' tenantId h hbefore hnew
    obtain rfl : old = status := Option.some.inj (hold.symm.trans hstatus)
    exact nomatch hopen.symm.trans hopen'

theorem neverReactivated_of_order {actions : List OnboardingAction}
    (horder : Meets onboardingStep ActivatedInOrder Onboarding.initial actions) :
    NeverReactivated actions := by
  rintro before after s₁ s₂ tenantId status rfl h₁ hstatus hclosed h₂
  obtain ⟨_, hafter⟩ := meets_append horder h₁
  have hrecorded : s₁.Recorded :=
    run_invariant (fun _ _ _ hs h => recorded_step hs h) recorded_initial h₁
  have hfirst : s₁.Closed tenantId := by
    refine ⟨status, hstatus, ?_⟩
    revert hclosed
    cases status <;> decide
  have hinv : ∀ (s : Onboarding) (action : OnboardingAction) (s' : Onboarding),
      s.Recorded ∧ s.Closed tenantId → ActivatedInOrder s action →
        onboardingStep s action = some s' → s'.Recorded ∧ s'.Closed tenantId :=
    fun _ _ _ hs horder h => ⟨recorded_step hs.1 h, closed_step hs.1 hs.2 horder h⟩
  obtain ⟨_, new, hnew, -, hactive⟩ :=
    run_invariant_of_meets hinv ⟨hrecorded, hfirst⟩ hafter h₂
  rw [hnew]
  exact fun hsome => hactive (Option.some.inj hsome)

/--
Tenants become active as they should, and no suspended or decommissioned tenant becomes active
again, in exactly the runs whose approvals are given in time.
-/
theorem activated_in_order_iff {actions : List OnboardingAction} {s : Onboarding}
    (hrun : run onboardingStep Onboarding.initial actions = some s) :
    Meets onboardingStep ActivatedInOrder Onboarding.initial actions ∧ NeverReactivated actions ↔
      Meets onboardingStep ApprovedInTime Onboarding.initial actions := by
  have hmeets : Meets onboardingStep ActivatedInOrder Onboarding.initial actions ↔
      Meets onboardingStep ApprovedInTime Onboarding.initial actions :=
    meets_iff_meets (fun _ _ _ hs _ h => recorded_step hs h)
      (fun _ _ _ hs h => ⟨approved_of_activatedInOrder hs h, activatedInOrder_of_approved hs⟩)
      recorded_initial hrun
  constructor
  · exact fun h => hmeets.mp h.1
  · exact fun h => ⟨hmeets.mpr h, neverReactivated_of_order (hmeets.mpr h)⟩

/-- A tenant that is provisioned, assessed as ready, and whose activation is requested. -/
def activationRequested : List OnboardingAction :=
  [.reserveTenant ⟨1, 1, .provisioning, 0⟩, .completeProvisioning 1 1,
    .recordReadiness 1 .production [⟨"DPA_NOT_ACCEPTED", true, .blocking⟩] 10,
    .createActivationRequest 1 1 "anna"]

/-- Approved by somebody else while nothing has changed. -/
theorem tenant_activated :
    let actions := activationRequested ++
      [.decideActivation 1 .approve "Klart".toList "bertil", .setStatus 1 .suspended]
    Meets onboardingStep ActivatedInOrder Onboarding.initial actions ∧
      NeverReactivated actions :=
  (activated_in_order_iff (Option.some_get (by decide +kernel : Option.isSome _)).symm).mpr
    (by decide +kernel)

/-- The request is still pending when the tenant is suspended, and its approval activates it. -/
theorem suspended_tenant_reactivated :
    ¬ ∀ (actions : List OnboardingAction) (s : Onboarding),
      run onboardingStep Onboarding.initial actions = some s →
        Meets onboardingStep ActivatedInOrder Onboarding.initial actions ∧
          NeverReactivated actions := by
  intro hall
  let before := activationRequested ++
    [.recordReadiness 1 .production [⟨"DPA_NOT_ACCEPTED", false, .blocking⟩] 20,
      .setStatus 1 .suspended]
  let after : List OnboardingAction := [.decideActivation 1 .approve "Klart".toList "bertil"]
  have hsuspended : (run onboardingStep Onboarding.initial before).map (·.tenantStatus 1) =
      some (some .suspended) := by decide +kernel
  have hactive : (run onboardingStep Onboarding.initial (before ++ after)).map
      (·.tenantStatus 1) = some (some .active) := by decide +kernel
  obtain ⟨s₁, h₁, hstatus₁⟩ := Option.map_eq_some_iff.mp hsuspended
  obtain ⟨s₂, hrun, hstatus₂⟩ := Option.map_eq_some_iff.mp hactive
  obtain ⟨s', h₁', h₂⟩ := run_append.mp hrun
  obtain rfl : s₁ = s' := Option.some.inj (h₁.symm.trans h₁')
  exact (hall _ s₂ hrun).2 before after s₁ s₂ 1 .suspended rfl h₁ hstatus₁ (by decide) h₂ hstatus₂

end Kommunsign
