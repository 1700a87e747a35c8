import Kommunsign.Infra.Run
import Kommunsign.Privacy.Requests
import Kommunsign.Properties.PrivacyErasure

/-!
# The stored state of a privacy request and the lifecycle of the library

The job walks a request through the library in memory, and only then writes: `FULFILLED` over a row
that is `IN_PROGRESS`, and `DELIVERED` over that. No row is ever `IN_PROGRESS`, and of one that were
the job would not know the identity.

* `persists_lifecycle_iff` — it does exactly when the library does not deliver
* `delivered_not_persisted` — a request that the library delivers
* `delivered_answerable` — the requests that are delivered, refused, or at their end
* `delivered_without_search` — an answer with a store that nobody has searched
-/

namespace Kommunsign

open Infra

def PrivacyRequestRow.identity (row : PrivacyRequestRow) (subjectId : UUID) :
    Option SubjectIdentityVerification := do
  let verifiedAt ← row.identityVerifiedAt
  let method ← row.identityMethod
  let assurance ← row.identityAssurance
  return { verified := true, method := method, assuranceLevel := assurance, subjectId := subjectId,
           verifiedAt := ⟨some verifiedAt⟩ }

def PrivacyRequestRow.storedJob (row : PrivacyRequestRow) (tenantId : UUID) :
    Except PrivacyError PrivacyRequestJob := do
  let job ← row.job tenantId
  return { job with identity := if row.state = .RECEIVED then none else row.identity job.subjectId }

def fulfilInProgress (job : PrivacyRequestJob) (coverage : List StoreCoverage)
    (legalHoldActive restrictionActive : Bool) : Except PrivacyError PrivacyRequestJob :=
  if job.state = .IN_PROGRESS then fulfilRequest job coverage legalHoldActive restrictionActive
  else pure job

def lifecycle (row : PrivacyRequestRow) (tenantId : UUID) (coverage : List StoreCoverage)
    (legalHoldActive restrictionActive : Bool) : Except PrivacyError PrivacyRequestJob := do
  let job ← row.storedJob tenantId
  let begun ← advanceToInProgress job row tenantId
  let fulfilled ← fulfilInProgress begun coverage legalHoldActive restrictionActive
  deliverResponse fulfilled

section

variable (env : PrivacyEnvironment) (stores : PersonalData) (tenantId privacyRequestId : UUID)

def PersonalData.lifecycle (row : PrivacyRequestRow) (coverage : List StoreCoverage) :
    Except PrivacyError PrivacyRequestJob :=
  Kommunsign.lifecycle row tenantId coverage
    (stores.legalHoldActive row.subjectIdentifierBlindIndex)
    (stores.restrictionActive row.subjectIdentifierBlindIndex row.id)

def LifecycleDelivers : Prop :=
  ∃ row coverage delivered, stores.requests.find? (·.id == privacyRequestId) = some row ∧
    row.state ≠ .DELIVERED ∧ row.state ≠ .REFUSED ∧
    (gatherCoverage env row stores).1 = .ok coverage ∧
    stores.lifecycle tenantId row coverage = .ok delivered

/-- A rule refuses the request, whatever the stores answer or with what they do answer. -/
def LifecycleRefuses : Prop :=
  ∃ row, stores.requests.find? (·.id == privacyRequestId) = some row ∧
    ((∀ coverage, ∃ e, stores.lifecycle tenantId row coverage = .error e) ∨
      ∃ coverage e, (gatherCoverage env row stores).1 = .ok coverage ∧
        stores.lifecycle tenantId row coverage = .error e)

/--
The job ends with `DELIVERED` where the library delivers, and persists no state that the library has
not reached.
-/
def PersistsLifecycle (now : Int) : Prop :=
  let final := handlePrivacyRequestExecute env tenantId privacyRequestId now stores
  (LifecycleDelivers env stores tenantId privacyRequestId →
    final.1 = .ok () ∧ final.2.requestState? privacyRequestId = some .DELIVERED) ∧
  (final.2.requestState? privacyRequestId ≠ stores.requestState? privacyRequestId →
    (final.2.requestState? privacyRequestId = some .DELIVERED ∧
      LifecycleDelivers env stores tenantId privacyRequestId) ∨
    (final.2.requestState? privacyRequestId = some .REFUSED ∧
      LifecycleRefuses env stores tenantId privacyRequestId))

end

/-! ## What a refusal and an answer leave of the state -/

section

variable {env : PrivacyEnvironment} {s : PersonalData} {tenantId privacyRequestId : UUID}
  {now : Int} {row : PrivacyRequestRow} {job : PrivacyRequestJob}

/-- The state is what it was, or `REFUSED`. -/
def StaysOrRefused (privacyRequestId : UUID) (s s' : PersonalData) : Prop :=
  s'.requestState? privacyRequestId = s.requestState? privacyRequestId ∨
    s'.requestState? privacyRequestId = some .REFUSED

theorem staysOrRefused_refuseFor (refused : UUID) (e : PrivacyError) :
    Process.Within (StaysOrRefused privacyRequestId) (refuseFor env refused e) := by
  have hrefusal (code message : String) : Process.Within (StaysOrRefused privacyRequestId)
      (recordRefusal env refused code message) := by
    refine within_transaction (fun _ => .inl rfl) fun s => ?_
    refine .bind (fun a b c h h' => ?_) ?_ fun _ s₁ _ =>
      (within_appendAudit s₁).mono fun s s' h => .inl h.requestState?
    · rcases h' with h' | h'
      · exact h.imp h'.trans h'.trans
      · exact .inr h'
    · intro n s' h
      unfold StaysOrRefused
      rw [requestState?_update (fun _ => by rfl) h]
      unfold PersonalData.requestState?
      cases s.requests.find? (·.id == privacyRequestId) with
      | none => exact .inl rfl
      | some row =>
        -- the row is refused by this statement, or left alone
        simp only [Option.map_some]
        split
        · exact .inr rfl
        · exact .inl rfl
  cases e with
  | executionError code message => exact hrefusal code.text message
  | requestError code message => exact hrefusal code message
  | invalidTimeValue => exact .raise (fun _ => .inl rfl) _

theorem requestState?_concludeRequest {fulfilled : PrivacyRequestJob}
    {coverage : List StoreCoverage} {held restricted : Bool}
    (hjob : row.inProgress tenantId = .ok job)
    (hfulfil : fulfilRequest job coverage held restricted = .ok fulfilled)
    (hstate : s.requestState? privacyRequestId = some row.state) :
    (concludeRequest env now row coverage fulfilled s).2.requestState? privacyRequestId =
      some row.state := by
  have hreceived := received_of_identity hjob (fulfilRequest_eq_ok hfulfil).2.1
  rw [hreceived] at hstate ⊢
  have hstays : Process.Within (StaysReceived privacyRequestId)
      (concludeRequest env now row coverage fulfilled) := by
    unfold concludeRequest
    split
    · exact .raise (fun _ => id) _
    · split
      · exact .raise (fun _ => id) _
      · exact within_transaction (fun _ => id) staysReceived_recordResponse
  exact hstays s hstate

theorem requestState?_gatherCoverage (env : PrivacyEnvironment) (s : PersonalData)
    (row : PrivacyRequestRow) :
    (gatherCoverage env row s).2.requestState? privacyRequestId =
      s.requestState? privacyRequestId := by
  rcases gatherCoverage_cases env s row with ⟨-, -, h⟩ | ⟨-, h⟩
  · rw [h]
    rfl
  · rw [h]

/-! ## Where the library refuses -/

theorem verifyReceived_eq_ok {verified : PrivacyRequestJob}
    (h : verifyReceived job row = .ok verified) :
    verified.request = job.request ∧ verified.response = job.response := by
  unfold verifyReceived at h
  split at h
  · split at h
    · obtain ⟨-, h⟩ := except_guard_eq_ok.mp h
      obtain ⟨_, -, h⟩ := except_bind_eq_ok.mp h
      obtain ⟨_, -, h⟩ := except_bind_eq_ok.mp h
      obtain ⟨-, h⟩ := except_guard_eq_ok.mp h
      obtain ⟨-, h⟩ := except_guard_eq_ok.mp h
      obtain ⟨-, h⟩ := except_guard_eq_ok.mp h
      cases h
      exact ⟨rfl, rfl⟩
    · exact nomatch h
  · cases h
    exact ⟨rfl, rfl⟩

theorem advanceToInProgress_eq_ok {begun : PrivacyRequestJob}
    (h : advanceToInProgress job row tenantId = .ok begun) :
    begun.request = job.request ∧ begun.response = job.response := by
  obtain ⟨verified, hverified, h⟩ := except_bind_eq_ok.mp h
  obtain ⟨hrequest, hresponse⟩ := verifyReceived_eq_ok hverified
  rw [← hrequest, ← hresponse]
  split at h
  · split at h
    · exact nomatch h
    · obtain ⟨_, -, h⟩ := except_bind_eq_ok.mp h
      obtain ⟨-, h⟩ := except_guard_eq_ok.mp h
      cases h
      exact ⟨rfl, rfl⟩
  · cases h
    exact ⟨rfl, rfl⟩

theorem advanceToInProgress_ok_of_identity {identity : Option SubjectIdentityVerification}
    {begun : PrivacyRequestJob}
    (h : advanceToInProgress { job with identity := identity } row tenantId = .ok begun) :
    ∃ begun', advanceToInProgress job row tenantId = .ok begun' := by
  by_cases hreceived : job.state = .RECEIVED
  · -- the identity is the one that is verified here
    have hsame : verifyReceived { job with identity := identity } row = verifyReceived job row := by
      unfold verifyReceived
      rw [if_pos hreceived, if_pos hreceived]
      rfl
    unfold advanceToInProgress at h
    rw [hsame] at h
    exact ⟨begun, h⟩
  · have hpure (job : PrivacyRequestJob) (hstate : job.state ≠ .RECEIVED) :
        verifyReceived job row = .ok job := by
      unfold verifyReceived
      rw [if_neg hstate]
      rfl
    unfold advanceToInProgress at h ⊢
    rw [hpure { job with identity := identity } hreceived] at h
    rw [hpure job hreceived]
    obtain ⟨_, ⟨⟩, h⟩ := except_bind_eq_ok.mp h
    split at h
    · rename_i hverified
      cases hhandled : row.handledBy with
      | none =>
        rw [hhandled] at h
        exact nomatch h
      | some handledBy =>
        rw [hhandled] at h
        obtain ⟨_, hstate, h⟩ := except_bind_eq_ok.mp h
        obtain ⟨htenant, -⟩ := except_guard_eq_ok.mp h
        refine ⟨{ job with state := .IN_PROGRESS, handledBy := some handledBy },
          except_bind_eq_ok.mpr ⟨job, rfl, ?_⟩⟩
        dsimp only
        rw [if_pos hverified]
        exact except_bind_eq_ok.mpr ⟨(), assertPrivacyState_eq_ok.mpr hverified,
          except_guard_eq_ok.mpr ⟨htenant, rfl⟩⟩
    · rename_i hverified
      refine ⟨job, except_bind_eq_ok.mpr ⟨job, rfl, ?_⟩⟩
      rw [if_neg hverified]
      rfl

theorem lifecycle_error_of_inProgress {e : PrivacyError} (h : row.inProgress tenantId = .error e)
    (coverage : List StoreCoverage) (held restricted : Bool) :
    ∃ e', lifecycle row tenantId coverage held restricted = .error e' := by
  cases hlife : lifecycle row tenantId coverage held restricted with
  | error e' => exact ⟨e', rfl⟩
  | ok delivered =>
    exfalso
    obtain ⟨stored, hstored, hlife⟩ := except_bind_eq_ok.mp hlife
    obtain ⟨begun, hbegun, -⟩ := except_bind_eq_ok.mp hlife
    obtain ⟨job, hjob, hstored⟩ := except_bind_eq_ok.mp hstored
    cases hstored
    obtain ⟨begun', hbegun'⟩ := advanceToInProgress_ok_of_identity hbegun
    have hok : row.inProgress tenantId = .ok begun' :=
      except_bind_eq_ok.mpr ⟨job, hjob, hbegun'⟩
    rw [h] at hok
    cases hok

theorem lifecycle_error_of_held (hright : row.rightRequested = .ERASURE) {held restricted : Bool}
    (h : held = true ∨ restricted = true) (coverage : List StoreCoverage) :
    ∃ e, lifecycle row tenantId coverage held restricted = .error e := by
  cases hlife : lifecycle row tenantId coverage held restricted with
  | error e => exact ⟨e, rfl⟩
  | ok delivered =>
    exfalso
    obtain ⟨stored, hstored, hlife⟩ := except_bind_eq_ok.mp hlife
    obtain ⟨begun, hbegun, hlife⟩ := except_bind_eq_ok.mp hlife
    obtain ⟨fulfilled, hfulfilled, hdeliver⟩ := except_bind_eq_ok.mp hlife
    obtain ⟨job, hjob, hstored⟩ := except_bind_eq_ok.mp hstored
    cases hstored
    obtain ⟨receivedAt, -, hjob⟩ := except_bind_eq_ok.mp hjob
    cases hjob
    obtain ⟨hrequest, hresponse⟩ := advanceToInProgress_eq_ok hbegun
    unfold fulfilInProgress at hfulfilled
    split at hfulfilled
    · have hfree := (fulfilRequest_eq_ok hfulfilled).2.2 (by rw [hrequest]; exact hright)
      rcases h with h | h
      · exact Bool.false_ne_true (hfree.1.symm.trans h)
      · exact Bool.false_ne_true (hfree.2.symm.trans h)
    · -- a request that is not in progress has no response to deliver
      cases hfulfilled
      obtain ⟨_, -, hdeliver⟩ := except_bind_eq_ok.mp hdeliver
      rw [hresponse] at hdeliver
      exact nomatch hdeliver

/-! ## Every run -/

theorem requestState?_answer (hjob : row.inProgress tenantId = .ok job)
    (hstate : s.requestState? privacyRequestId = some row.state) {held restricted : Bool}
    (coverage : List StoreCoverage) :
    (answerRequest env now row job held restricted coverage s).2.requestState? privacyRequestId =
        some row.state ∨
      (answerRequest env now row job held restricted coverage s).2.requestState?
        privacyRequestId = some .REFUSED := by
  unfold answerRequest
  cases hfulfil : fulfilRequest job coverage held restricted with
  | error e => exact (staysOrRefused_refuseFor row.id e s).imp_left (·.trans hstate)
  | ok fulfilled => exact .inl (requestState?_concludeRequest hjob hfulfil hstate)

theorem requestState?_handle (env : PrivacyEnvironment) (s : PersonalData)
    (tenantId privacyRequestId : UUID) (now : Int) :
    (handlePrivacyRequestExecute env tenantId privacyRequestId now s).2.requestState?
        privacyRequestId = s.requestState? privacyRequestId ∨
      (handlePrivacyRequestExecute env tenantId privacyRequestId now s).2.requestState?
          privacyRequestId = some .REFUSED ∧
        (LifecycleDelivers env s tenantId privacyRequestId ∨
          LifecycleRefuses env s tenantId privacyRequestId) := by
  unfold handlePrivacyRequestExecute
  by_cases hload : env.fails .load = true
  · rw [Process.bind_of_error (reading_eq.trans (if_pos hload))]
    exact .inl rfl
  rw [Process.bind_of_ok (reading_eq.trans (if_neg hload))]
  cases hfind : s.requests.find? (·.id == privacyRequestId) with
  | none => exact .inl rfl
  | some row =>
    by_cases hclosed : row.state = .DELIVERED ∨ row.state = .REFUSED
    · simp only [if_pos hclosed]
      exact .inl rfl
    simp only [if_neg hclosed]
    have hstate : s.requestState? privacyRequestId = some row.state := by
      unfold PersonalData.requestState?
      rw [hfind]
      rfl
    cases hjob : row.inProgress tenantId with
    | error e =>
      refine (staysOrRefused_refuseFor row.id e s).imp_right fun h => ⟨h, .inr ⟨row, hfind, .inl ?_⟩⟩
      exact fun coverage => lifecycle_error_of_inProgress hjob coverage _ _
    | ok job =>
      simp only
      unfold executeRequest
      by_cases hholds : env.fails .holds = true
      · rw [Process.bind_of_error (reading_eq.trans (if_pos hholds))]
        exact .inl rfl
      rw [Process.bind_of_ok (reading_eq.trans (if_neg hholds))]
      by_cases hheld : row.rightRequested = .ERASURE ∧
          (s.legalHoldActive row.subjectIdentifierBlindIndex = true ∨
            s.restrictionActive row.subjectIdentifierBlindIndex row.id = true)
      · simp only [if_pos hheld]
        unfold refuseHeld
        cases fulfilRequest job [] (s.legalHoldActive row.subjectIdentifierBlindIndex)
            (s.restrictionActive row.subjectIdentifierBlindIndex row.id) with
        | error e =>
          refine (staysOrRefused_refuseFor row.id e s).imp_right fun h =>
            ⟨h, .inr ⟨row, hfind, .inl fun coverage => ?_⟩⟩
          exact lifecycle_error_of_held hheld.1 hheld.2 coverage
        | ok _ => exact .inl rfl
      simp only [if_neg hheld]
      have hafter : (gatherCoverage env row s).2.requestState? privacyRequestId =
          some row.state := (requestState?_gatherCoverage env s row).trans hstate
      rw [hstate]
      refine Process.bind_post (Q := fun s' : PersonalData =>
        s'.requestState? privacyRequestId = some row.state ∨ s'.requestState? privacyRequestId = some .REFUSED ∧ _) (.inl hafter) fun coverage hgather => ?_
      refine (requestState?_answer hjob hafter coverage).imp_right fun h => ⟨h, ?_⟩
      -- with this coverage the library delivers, or a rule of it refuses
      cases hlife : s.lifecycle tenantId row coverage with
      | ok delivered =>
        obtain ⟨hdelivered, hrefused⟩ := not_or.mp hclosed
        exact .inl ⟨row, coverage, delivered, hfind, hdelivered, hrefused, hgather, hlife⟩
      | error e => exact .inr ⟨row, hfind, .inr ⟨coverage, e, hgather, hlife⟩⟩

end

/--
The stored state of a request follows the lifecycle exactly when the library does not deliver the
request.
-/
theorem persists_lifecycle_iff (env : PrivacyEnvironment) (stores : PersonalData)
    (tenantId privacyRequestId : UUID) (now : Int) :
    PersistsLifecycle env stores tenantId privacyRequestId now ↔
      ¬LifecycleDelivers env stores tenantId privacyRequestId := by
  have hfinal := requestState?_handle env stores tenantId privacyRequestId now
  constructor
  · rintro ⟨hdelivered, -⟩ hlife
    obtain ⟨-, hstate⟩ := hdelivered hlife
    obtain ⟨row, coverage, delivered, hfind, hopen, -⟩ := hlife
    rw [hstate] at hfinal
    rcases hfinal with h | ⟨h, -⟩
    · unfold PersonalData.requestState? at h
      rw [hfind] at h
      exact hopen (Option.some.inj h).symm
    · exact nomatch h
  · intro hlife
    refine ⟨fun h => absurd h hlife, fun hchanged => ?_⟩
    rcases hfinal with h | ⟨h, hrule⟩
    · exact absurd h hchanged
    · exact .inr ⟨h, hrule.resolve_left hlife⟩

/-- Somebody asks for what is stored about them; their identity is verified. -/
def PersonalData.accessRequest : PersonalData :=
  { PersonalData.sample with
    requests := [{ PrivacyRequestRow.sample with rightRequested := .ACCESS }] }

/-- The library delivers the answer, and the row stays `RECEIVED`. -/
theorem delivered_not_persisted :
    ¬∀ env stores tenantId privacyRequestId now,
      PersistsLifecycle env stores tenantId privacyRequestId now := by
  intro h
  have hdelivers : LifecycleDelivers .sample .accessRequest "tenant" "request" := by
    refine ⟨{ PrivacyRequestRow.sample with rightRequested := .ACCESS }, _, _, rfl, by decide,
      by decide, rfl, rfl⟩
  have hstate := ((h .sample .accessRequest "tenant" "request" 0).1 hdelivers).2
  revert hstate
  decide +kernel

/-!
# The life of a data subject's request

Whatever is called on a recorded request, in whatever order, it is only delivered with a verified
identity, a handler and an answer that accounts for every store. A store that is exempted with a
ground need not be searched.
-/

inductive PrivacyCall where
  | verify (identity : SubjectIdentityVerification)
  | begin (handledBy tenantId : UUID)
  | fulfil (coverage : List StoreCoverage) (legalHoldActive restrictionActive : Bool)
  | deliver
  | refuse (ground : String)
  deriving DecidableEq

def privacyCall (job : PrivacyRequestJob) : PrivacyCall → Option PrivacyRequestJob
  | .verify identity => (verifySubjectIdentity job identity).toOption
  | .begin handledBy tenantId => (beginHandling job handledBy tenantId).toOption
  | .fulfil coverage legalHoldActive restrictionActive =>
    (fulfilRequest job coverage legalHoldActive restrictionActive).toOption
  | .deliver => (deliverResponse job).toOption
  | .refuse ground => (refuseRequest job ground).toOption

def PrivacyRequestState.way : PrivacyRequestState → List PrivacyRequestState
  | .RECEIVED => [.RECEIVED, .IDENTITY_VERIFIED, .IN_PROGRESS, .FULFILLED, .DELIVERED]
  | .IDENTITY_VERIFIED => [.IDENTITY_VERIFIED, .IN_PROGRESS, .FULFILLED, .DELIVERED]
  | .IN_PROGRESS => [.IN_PROGRESS, .FULFILLED, .DELIVERED]
  | .FULFILLED => [.FULFILLED, .DELIVERED]
  | .DELIVERED => [.DELIVERED]
  | .REFUSED => []

structure CoversEveryStore (coverage : List StoreCoverage) : Prop where
  once : ∀ store ∈ PERSONAL_DATA_STORES, (coverage.map (·.store)).count store = 1
  accounted : ∀ entry ∈ coverage, entry.Accounted

/-! ## What a request keeps -/

/-- What is kept of the request that was recorded, by the calls that have been made. -/
structure Answerable (recorded : PrivacyRequestJob) (made : List PrivacyCall)
    (job : PrivacyRequestJob) : Prop where
  request : job.request = recorded.request
  subject : job.subjectId = recorded.subjectId
  identity : job.state ∈ PrivacyRequestState.IDENTITY_VERIFIED.way →
    ∃ identity, job.identity = some identity ∧ identity.Suffices recorded
  handler : job.state ∈ PrivacyRequestState.IN_PROGRESS.way →
    ∃ handledBy, job.handledBy = some handledBy ∧
      .begin handledBy recorded.request.tenantId ∈ made
  response : job.state ∈ PrivacyRequestState.FULFILLED.way →
    ∃ response legalHoldActive restrictionActive, job.response = some response ∧
      .fulfil response.coverage legalHoldActive restrictionActive ∈ made ∧
      CoversEveryStore response.coverage ∧
      (recorded.request.right = .ERASURE → legalHoldActive = false ∧ restrictionActive = false)
  ground : job.state = .REFUSED → ∃ ground, job.refusalGround = some ground ∧ isBlank ground = false

section Calls

variable {recorded job job' : PrivacyRequestJob} {made : List PrivacyCall} {i : PrivacyCall}

theorem suffices_congr {identity : SubjectIdentityVerification}
    (hrequest : job.request = recorded.request) (hsubject : job.subjectId = recorded.subjectId)
    (h : identity.Suffices job) : identity.Suffices recorded :=
  ⟨h.verified, h.subject.trans hsubject, hrequest ▸ h.assurance⟩

theorem coversEveryStore_of_nodup {coverage : List StoreCoverage}
    (hnodup : (coverage.map (·.store)).Nodup)
    (hall : ∀ store ∈ PERSONAL_DATA_STORES, store ∈ coverage.map (·.store))
    (haccounted : ∀ entry ∈ coverage, entry.Accounted) : CoversEveryStore coverage :=
  ⟨fun store hstore => List.count_eq_one_of_mem hnodup (hall store hstore), haccounted⟩

theorem Answerable.after (h : Answerable recorded made job) (i : PrivacyCall) :
    Answerable recorded (made ++ [i]) job := by
  refine ⟨h.request, h.subject, h.identity, fun hstate => ?_, fun hstate => ?_, h.ground⟩
  · obtain ⟨handledBy, hhandled, hmade⟩ := h.handler hstate
    exact ⟨handledBy, hhandled, List.mem_append_left _ hmade⟩
  · obtain ⟨response, hold, restriction, hresponse, hmade, hcovers⟩ := h.response hstate
    exact ⟨response, hold, restriction, hresponse, List.mem_append_left _ hmade, hcovers⟩

theorem answerable_of_privacyCall (h : Answerable recorded made job)
    (hcall : privacyCall job i = some job') : Answerable recorded (made ++ [i]) job' := by
  have hafter := h.after i
  cases i with
  | verify identity =>
    obtain ⟨hreceived, hsuffices, rfl⟩ := verifySubjectIdentity_eq_ok (toOption_eq_some.mp hcall)
    have hidentity := suffices_congr h.request h.subject hsuffices
    refine ⟨h.request, h.subject, fun _ => ⟨identity, rfl, hidentity⟩, ?_, ?_, nofun⟩
    · simp [PrivacyRequestState.way]
    · simp [PrivacyRequestState.way]
  | begin handledBy tenantId =>
    obtain ⟨hverified, rfl, rfl⟩ := beginHandling_eq_ok (toOption_eq_some.mp hcall)
    refine ⟨h.request, h.subject, fun _ => h.identity ?_, fun _ => ⟨handledBy, rfl, ?_⟩, ?_, nofun⟩
    · rw [hverified]
      exact List.mem_cons_self
    · rw [← h.request]
      exact List.mem_append_right _ List.mem_cons_self
    · simp [PrivacyRequestState.way]
  | fulfil coverage hold restriction =>
    have hok := toOption_eq_some.mp hcall
    obtain ⟨hprogress, -, herasure⟩ := fulfilRequest_eq_ok hok
    obtain ⟨response, rfl, rfl, hnodup, hall, haccounted⟩ := response_of_fulfilRequest hok
    refine ⟨h.request, h.subject, fun _ => h.identity ?_, fun _ => hafter.handler ?_, fun _ => ?_,
      nofun⟩
    · rw [hprogress]
      decide
    · rw [hprogress]
      decide
    · exact ⟨response, hold, restriction, rfl, List.mem_append_right _ List.mem_cons_self,
        coversEveryStore_of_nodup hnodup hall haccounted, h.request ▸ herasure⟩
  | deliver =>
    obtain ⟨hfulfilled, rfl⟩ := deliverResponse_eq_ok (toOption_eq_some.mp hcall)
    refine ⟨h.request, h.subject, fun _ => h.identity ?_, fun _ => hafter.handler ?_,
      fun _ => hafter.response ?_, nofun⟩
    all_goals
      rw [hfulfilled]
      decide
  | refuse ground =>
    obtain ⟨-, trimmed, hground, rfl⟩ := refuseRequest_eq_ok (toOption_eq_some.mp hcall)
    refine ⟨h.request, h.subject, ?_, ?_, ?_, fun _ => ⟨trimmed, rfl, hground⟩⟩
    all_goals
      intro hstate
      simp [PrivacyRequestState.way] at hstate

/-! ## The way of a request -/

theorem way_eq_nil {state : PrivacyRequestState} : state.way = [] ↔ state = .REFUSED := by
  cases state <;> simp [PrivacyRequestState.way]

theorem state_of_privacyCall (h : privacyCall job i = some job') :
    (job'.state ≠ .REFUSED ∧ job'.state ≠ job.state ∧
      job.state.way = job.state :: job'.state.way) ∨
    (job'.state = .REFUSED ∧ job.state ≠ .DELIVERED) := by
  cases i with
  | verify identity =>
    obtain ⟨hstate, -, rfl⟩ := verifySubjectIdentity_eq_ok (toOption_eq_some.mp h)
    rw [hstate]
    exact Or.inl ⟨nofun, nofun, rfl⟩
  | begin handledBy tenantId =>
    obtain ⟨hstate, -, rfl⟩ := beginHandling_eq_ok (toOption_eq_some.mp h)
    rw [hstate]
    exact Or.inl ⟨nofun, nofun, rfl⟩
  | fulfil coverage hold restriction =>
    obtain ⟨hstate, -, -⟩ := fulfilRequest_eq_ok (toOption_eq_some.mp h)
    obtain ⟨response, rfl, -⟩ := response_of_fulfilRequest (toOption_eq_some.mp h)
    rw [hstate]
    exact Or.inl ⟨nofun, nofun, rfl⟩
  | deliver =>
    obtain ⟨hstate, rfl⟩ := deliverResponse_eq_ok (toOption_eq_some.mp h)
    rw [hstate]
    exact Or.inl ⟨nofun, nofun, rfl⟩
  | refuse ground =>
    obtain ⟨hstate, trimmed, -, rfl⟩ := refuseRequest_eq_ok (toOption_eq_some.mp h)
    exact Or.inr ⟨rfl, hstate⟩

theorem state_of_call (job : PrivacyRequestJob) (i : PrivacyCall) :
    (call privacyCall job i).state = job.state ∨
      ((call privacyCall job i).state ≠ job.state ∧
        job.state.way = job.state :: (call privacyCall job i).state.way) ∨
      (call privacyCall job i).state = .REFUSED := by
  rcases call_cases privacyCall job i with hstep | hsame
  · rcases state_of_privacyCall hstep with ⟨-, hway⟩ | ⟨hrefused, -⟩
    · exact Or.inr (Or.inl hway)
    · exact Or.inr (Or.inr hrefused)
  · exact Or.inl (congrArg (·.state) hsame)

def PrivacyRequestState.isTerminal : PrivacyRequestState → Bool
  | .DELIVERED | .REFUSED => true
  | .RECEIVED | .IDENTITY_VERIFIED | .IN_PROGRESS | .FULFILLED => false

theorem state_of_terminal (h : job.state.isTerminal = true) (i : PrivacyCall) :
    (call privacyCall job i).state = job.state := by
  have hterminal : job.state = .DELIVERED ∨ job.state = .REFUSED := by
    cases hstate : job.state with
    | DELIVERED => exact Or.inl rfl
    | REFUSED => exact Or.inr rfl
    | RECEIVED | IDENTITY_VERIFIED | IN_PROGRESS | FULFILLED =>
      rw [hstate] at h
      cases h
  rcases call_cases privacyCall job i with hstep | hsame
  · rcases state_of_privacyCall hstep with ⟨halive, -, hway⟩ | ⟨hrefused, hdelivered⟩
    · rcases hterminal with hstate | hstate
      · rw [hstate] at hway
        exact absurd (way_eq_nil.mp (List.cons.inj hway).2.symm) halive
      · rw [hstate] at hway
        cases hway
    · exact hrefused.trans (hterminal.resolve_left hdelivered).symm
  · rw [hsame]

end Calls

/-! ## Runs of calls -/

structure LifeOfDelivered (recorded delivered : PrivacyRequestJob) (made : List PrivacyCall)
    (states : List PrivacyRequestState) : Prop where
  way : states.destutter (· ≠ ·) =
    [.RECEIVED, .IDENTITY_VERIFIED, .IN_PROGRESS, .FULFILLED, .DELIVERED]
  identity : ∃ identity, delivered.identity = some identity ∧ identity.Suffices recorded
  handler : ∃ handledBy, delivered.handledBy = some handledBy ∧
    .begin handledBy recorded.request.tenantId ∈ made
  response : ∃ response legalHoldActive restrictionActive, delivered.response = some response ∧
    .fulfil response.coverage legalHoldActive restrictionActive ∈ made ∧
    CoversEveryStore response.coverage ∧
    (recorded.request.right = .ERASURE → legalHoldActive = false ∧ restrictionActive = false)

/--
Whatever is called on a recorded request: if it is delivered in the end, it has gone through all the
states in their order, with an identity that suffices, a handler, and an answer that accounts for
every store once; if it is refused, a ground has been given; and where it has ended it stays.
-/
theorem delivered_answerable {recorded : PrivacyRequestJob} (hreceived : recorded.state = .RECEIVED)
    (made : List PrivacyCall) :
    ((calls privacyCall recorded made).state = .DELIVERED →
      LifeOfDelivered recorded (calls privacyCall recorded made) made
        (visited privacyCall (·.state) recorded made)) ∧
    ((calls privacyCall recorded made).state = .REFUSED →
      ∃ ground, (calls privacyCall recorded made).refusalGround = some ground ∧
        isBlank ground = false) ∧
    ((calls privacyCall recorded made).state.isTerminal = true → ∀ more,
      (calls privacyCall recorded (made ++ more)).state = (calls privacyCall recorded made).state) := by
  have hstart : Answerable recorded [] recorded := by
    refine ⟨rfl, rfl, ?_, ?_, ?_, ?_⟩
    all_goals
      rw [hreceived]
      intro hstate
      simp [PrivacyRequestState.way] at hstate
  have hafter : Answerable recorded made (calls privacyCall recorded made) := by
    refine calls_history (Answerable recorded) hstart ?_ made
    intro made job i h
    rcases call_cases privacyCall job i with hstep | hsame
    · exact answerable_of_privacyCall h hstep
    · rw [hsame]
      exact h.after i
  refine ⟨fun hdelivered => ⟨?_, hafter.identity ?_, hafter.handler ?_, hafter.response ?_⟩,
    hafter.ground, fun hterminal more => ?_⟩
  · have hrefused (job : PrivacyRequestJob) (i : PrivacyCall) (h : job.state = .REFUSED) :
        (call privacyCall job i).state = .REFUSED :=
      (state_of_terminal (by rw [h]; rfl) i).trans h
    have hpath := visited_eq_path (fun job : PrivacyRequestJob => job.state)
      PrivacyRequestState.way (· = .REFUSED) .DELIVERED rfl nofun state_of_call hrefused recorded
      made hdelivered
    rw [hpath, hreceived]
    rfl
  · rw [hdelivered]
    decide
  · rw [hdelivered]
    decide
  · rw [hdelivered]
    decide
  · rw [calls_append]
    have hstays (job : PrivacyRequestJob) (i : PrivacyCall)
        (h : job.state = (calls privacyCall recorded made).state) :
        (call privacyCall job i).state = (calls privacyCall recorded made).state :=
      (state_of_terminal (by rw [h]; exact hterminal) i).trans h
    exact dead_of_calls (fun job : PrivacyRequestJob => job.state)
      (· = (calls privacyCall recorded made).state) hstays rfl more

/-! ## Requests that are delivered -/

def PrivacyRequestJob.sample (right : DataSubjectRight) : PrivacyRequestJob where
  request := ⟨"tenant", "request", right, ⟨some 0⟩, false⟩
  state := .RECEIVED
  subjectId := "subject"
  identity := none
  handledBy := none
  refusalGround := none
  response := none

def PrivacyCall.delivering (coverage : List StoreCoverage) : List PrivacyCall :=
  [.verify ⟨true, "bankid", .HIGH, "subject", ⟨some 1⟩⟩, .begin "handler" "tenant",
    .fulfil coverage false false, .deliver]

def searchedStores : List StoreCoverage :=
  PERSONAL_DATA_STORES.map fun store => ⟨store, 1, true, none⟩

/-- The audit log is left out, with the ground that the library has for it. -/
def exemptedStores : List StoreCoverage :=
  PERSONAL_DATA_STORES.map fun store =>
    ⟨store, 0, store ≠ .AUDIT_LOG, if store = .AUDIT_LOG then erasureExemption store else none⟩

theorem delivered_answerable_erasure :
    (calls privacyCall (.sample .ERASURE)
      (.deliver :: PrivacyCall.delivering searchedStores ++ [.refuse "late"])).state = .DELIVERED ∧
    ∃ identity, (calls privacyCall (.sample .ERASURE)
      (.deliver :: PrivacyCall.delivering searchedStores ++ [.refuse "late"])).identity =
        some identity ∧ identity.Suffices (.sample .ERASURE) := by
  have hdelivered : (calls privacyCall (.sample .ERASURE)
      (.deliver :: PrivacyCall.delivering searchedStores ++ [.refuse "late"])).state = .DELIVERED := by
    decide +kernel
  exact ⟨hdelivered, ((delivered_answerable rfl _).1 hdelivered).identity⟩

/-- An answer is delivered though nobody has searched the audit log. -/
theorem delivered_without_search : ¬∀ (recorded : PrivacyRequestJob) (made : List PrivacyCall),
    recorded.state = .RECEIVED → (calls privacyCall recorded made).state = .DELIVERED →
    ∃ response, (calls privacyCall recorded made).response = some response ∧
      ∀ store ∈ PERSONAL_DATA_STORES, ∃ entry ∈ response.coverage,
        entry.store = store ∧ entry.searched = true := by
  intro hall
  obtain ⟨response, hresponse, hsearched⟩ := hall (.sample .ERASURE)
    (PrivacyCall.delivering exemptedStores) rfl (by decide +kernel)
  obtain ⟨entry, hentry, hstore, hsearched⟩ := hsearched .AUDIT_LOG (by decide)
  have hcoverage : (calls privacyCall (.sample .ERASURE)
      (PrivacyCall.delivering exemptedStores)).response.map (·.coverage) = some exemptedStores := by
    decide +kernel
  rw [hresponse] at hcoverage
  have hcoverage' : response.coverage = exemptedStores := Option.some.inj hcoverage
  rw [hcoverage'] at hentry
  have hnone : ∀ entry ∈ exemptedStores, entry.store = .AUDIT_LOG → entry.searched = false := by
    decide +kernel
  rw [hnone entry hentry hstore] at hsearched
  cases hsearched

end Kommunsign
