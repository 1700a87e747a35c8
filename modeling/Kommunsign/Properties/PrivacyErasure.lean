import Kommunsign.Worker.PrivacyRequests

/-!
# What the execution of a privacy request erases

Going through the stores clears the identifiers of the signers that match, and only then the
library decides whether the request is fulfilled. No run delivers a request: an identity is only on
the job if the row is `RECEIVED`, and a response to such a row is rolled back.

* `not_delivered` — no run delivers a request
* `untouched_or_delivered_iff` — when a run erases nothing that it does not deliver
* `identityObjects_erased_iff` — when the objects of the subject are found and deleted
-/

namespace Kommunsign

open Infra

structure SubjectUntouched (stores stores' : PersonalData) : Prop where
  signers : stores'.signers = stores.signers
  users : stores'.users = stores.users
  onboardingApplications : stores'.onboardingApplications = stores.onboardingApplications
  onboardingContacts : stores'.onboardingContacts = stores.onboardingContacts
  intents : stores'.intents = stores.intents
  identityArtifacts : stores'.identityArtifacts = stores.identityArtifacts
  objects : stores'.objects = stores.objects

namespace SubjectUntouched

theorem refl (stores : PersonalData) : SubjectUntouched stores stores :=
  ⟨rfl, rfl, rfl, rfl, rfl, rfl, rfl⟩

theorem trans {a b c : PersonalData} (h : SubjectUntouched a b) (h' : SubjectUntouched b c) :
    SubjectUntouched a c :=
  ⟨h'.signers.trans h.signers, h'.users.trans h.users,
    h'.onboardingApplications.trans h.onboardingApplications,
    h'.onboardingContacts.trans h.onboardingContacts, h'.intents.trans h.intents,
    h'.identityArtifacts.trans h.identityArtifacts, h'.objects.trans h.objects⟩

end SubjectUntouched

def OnlyAnswered (stores stores' : PersonalData) : Prop :=
  SubjectUntouched stores stores' ∧ stores'.requests = stores.requests

theorem OnlyAnswered.refl (stores : PersonalData) : OnlyAnswered stores stores := ⟨.refl _, rfl⟩

theorem OnlyAnswered.trans (a b c : PersonalData) (h : OnlyAnswered a b) (h' : OnlyAnswered b c) :
    OnlyAnswered a c :=
  ⟨h.1.trans h'.1, h'.2.trans h.2⟩

/-! ## What the statements about the request change -/

section Request

variable {env : PrivacyEnvironment}

theorem within_transaction {α : Type} {R : PersonalData → PersonalData → Prop}
    (hrefl : ∀ s, R s s) {stage : PrivacyStage} {tx : PrivacyTx α}
    (h : ∀ s, Transaction.Within R tx s) : Process.Within R (env.transaction stage tx) :=
  Process.Within.ite (Process.Within.raise hrefl _) (Process.Within.commit hrefl h)

theorem within_updateRequests {p : PrivacyRequestRow → Bool}
    {f : PrivacyRequestRow → PrivacyRequestRow} (s : PersonalData) :
    Transaction.Within SubjectUntouched (privacyRequests.update p f) s := by
  intro n s' h
  obtain ⟨-, rfl, -⟩ := Table.update_eq_ok.mp h
  exact ⟨rfl, rfl, rfl, rfl, rfl, rfl, rfl⟩

theorem within_appendAudit {eventType : String} {privacyRequestId : UUID} (s : PersonalData) :
    Transaction.Within OnlyAnswered (appendPrivacyAudit eventType privacyRequestId) s :=
  .rewrite ⟨⟨rfl, rfl, rfl, rfl, rfl, rfl, rfl⟩, rfl⟩

theorem within_insertCoverage {privacyRequestId : UUID} {right : DataSubjectRight}
    (entry : StoreCoverage) (s : PersonalData) :
    Transaction.Within OnlyAnswered (insertCoverage privacyRequestId right entry) s := by
  refine .bind OnlyAnswered.trans (.read .refl) fun stores s₁ _ => ?_
  refine .ite (fun _ => .pure .refl _) fun _ => ?_
  exact .bind OnlyAnswered.trans (.check .refl _) fun _ _ _ =>
    .rewrite ⟨⟨rfl, rfl, rfl, rfl, rfl, rfl, rfl⟩, rfl⟩

theorem within_insertCoverages {privacyRequestId : UUID} {right : DataSubjectRight}
    {coverage : List StoreCoverage} (s : PersonalData) : Transaction.Within OnlyAnswered
      (Transaction.forEach (insertCoverage privacyRequestId right) coverage) s :=
  .forEach .refl OnlyAnswered.trans (fun _ _ => True)
    (fun entry _ s _ => ⟨within_insertCoverage entry s, fun _ _ _ => trivial⟩) trivial

theorem within_insertResponse {privacyRequestId : UUID} {response : DataSubjectResponse}
    (s : PersonalData) :
    Transaction.Within OnlyAnswered (insertResponse privacyRequestId response) s := by
  refine .bind OnlyAnswered.trans (.read .refl) fun stores s₁ _ => ?_
  refine .ite (fun _ => .pure .refl _) fun _ => ?_
  exact .bind OnlyAnswered.trans (.rewrite ⟨⟨rfl, rfl, rfl, rfl, rfl, rfl, rfl⟩, rfl⟩)
    fun _ _ _ => .pure .refl _

theorem within_recordResponse {R : PersonalData → PersonalData → Prop} (hrefl : ∀ s, R s s)
    (htrans : ∀ a b c, R a b → R b c → R a c) (honly : ∀ s s', OnlyAnswered s s' → R s s')
    (hfulfil : ∀ {id s}, Transaction.Within R (advanceRequest id .IN_PROGRESS fun request =>
      { request with state := .FULFILLED }) s)
    (hdeliver : ∀ {id now s}, Transaction.Within R (advanceRequest id .FULFILLED fun request =>
      { request with state := .DELIVERED, deliveredAt := some now }) s)
    {now : Int} {row : PrivacyRequestRow} {coverage : List StoreCoverage}
    {response : DataSubjectResponse} (s : PersonalData) :
    Transaction.Within R (recordResponse now row coverage response) s := by
  refine .bind htrans hfulfil fun fulfilled s₁ _ => ?_
  refine .bind htrans ((within_insertCoverages s₁).mono honly) fun _ s₂ _ => ?_
  refine .bind htrans ((within_insertResponse s₂).mono honly) fun inserted s₃ _ => ?_
  refine .bind htrans hdeliver fun delivered s₄ _ => ?_
  exact .bind htrans ((within_appendAudit s₄).mono honly) fun _ s₅ _ => .check hrefl _

theorem within_recordRefusal {privacyRequestId : UUID} {code message : String} :
    Process.Within SubjectUntouched (recordRefusal env privacyRequestId code message) :=
  within_transaction .refl fun s =>
    .bind (fun _ _ _ => .trans) (within_updateRequests s) fun _ s₁ _ =>
      (within_appendAudit s₁).mono fun _ _ h => h.1

theorem within_refuseFor {privacyRequestId : UUID} (e : PrivacyError) :
    Process.Within SubjectUntouched (refuseFor env privacyRequestId e) := by
  cases e with
  | executionError code message => exact within_recordRefusal
  | requestError code message => exact within_recordRefusal
  | invalidTimeValue => exact .raise .refl _

theorem within_concludeRequest {now : Int} {row : PrivacyRequestRow}
    {coverage : List StoreCoverage} (fulfilled : PrivacyRequestJob) :
    Process.Within SubjectUntouched (concludeRequest env now row coverage fulfilled) := by
  unfold concludeRequest
  split
  · exact .raise .refl _
  · split
    · exact .raise .refl _
    · exact within_transaction .refl (within_recordResponse .refl (fun _ _ _ => .trans)
        (fun _ _ h => h.1) (within_updateRequests _) (within_updateRequests _))

end Request

/-! ## What going through the stores leaves -/

/-- The guards of `app.signers` let the erasure of this row pass. -/
def SubjectSigner.Erasable (signer : SubjectSigner) : Prop :=
  (signer.status = .pending ∨
    signer.expectedIdentifierCiphertext = none ∧ signer.expectedIdentifierBlindIndex = none) ∧
  signer.erased.bindingConsistent = true

theorem guarded_eq_ok {checks : Checks} : guarded checks = .ok () ↔ refuse checks = .ok () := by
  unfold guarded
  cases refuse checks with
  | error failure => exact iff_of_false nofun nofun
  | ok u => exact iff_of_true rfl rfl

theorem erasable_iff {stores : PersonalData} {signer : SubjectSigner} :
    subjectSigners.onUpdate stores signer signer.erased = .ok () ↔ signer.Erasable := by
  have hguard : subjectSigners.onUpdate stores signer signer.erased =
      guarded (protectSubjectBinding signer signer.erased ++
        violates (!signer.erased.bindingConsistent) "signers_identifier_binding_consistent") := rfl
  rw [hguard, guarded_eq_ok, refuse_append, protectSubjectBinding, refuse_raises, refuse_violates]
  unfold SubjectSigner.Erasable
  refine and_congr ?_ (by rw [Bool.not_eq_eq_eq_not, Bool.not_false])
  rw [Bool.and_eq_false_iff, Bool.or_eq_false_iff]
  simp only [bne_eq_false_iff_eq, SubjectSigner.erased]
  exact or_congr_right (and_congr eq_comm eq_comm)

def PersonalData.erase (stores : PersonalData) (subject : BlindIndex) : PersonalData :=
  { stores with signers := assign (·.matches subject) SubjectSigner.erased stores.signers }

theorem not_matches_erased (signer : SubjectSigner) (subject : BlindIndex) :
    signer.erased.matches subject = false := rfl

theorem matches_of_mem_erase {stores : PersonalData} {subject : BlindIndex}
    {signer : SubjectSigner} (h : signer ∈ (stores.erase subject).signers) :
    signer.matches subject = false := by
  obtain ⟨old, -, rfl⟩ := mem_assign.mp h
  by_cases hold : old.matches subject = true
  · rw [if_pos hold]
    exact not_matches_erased old subject
  · rw [if_neg hold]
    exact Bool.eq_false_iff.mpr hold

theorem identityObjectKeys_of_none {stores : PersonalData} {subject : BlindIndex}
    (h : ∀ signer ∈ stores.signers, signer.matches subject = false) :
    stores.identityObjectKeys subject = [] := by
  have hnone : stores.signers.filter (·.matches subject) = [] :=
    List.filter_eq_nil_iff.mpr fun signer hsigner => by simp [h signer hsigner]
  rw [PersonalData.identityObjectKeys, hnone]
  rfl

section Gathering

variable {env : PrivacyEnvironment} {s : PersonalData} {subject : BlindIndex}
  {right : DataSubjectRight}

/-- The database erasure of an erasure request takes effect, as far as there is anything to erase. -/
def ErasesData (env : PrivacyEnvironment) (s : PersonalData) (subject : BlindIndex)
    (right : DataSubjectRight) : Prop :=
  right = .ERASURE ∧ env.fails .data = false ∧
    ∀ signer ∈ s.signers, signer.matches subject = true → signer.Erasable

theorem erase_of_none (h : ∀ signer ∈ s.signers, signer.matches subject = false) :
    s.erase subject = s := by
  unfold PersonalData.erase
  rw [assign_eq_self h]

/-- What is reported of the `DATA` store. -/
def PersonalData.dataCoverage (s : PersonalData) (subject : BlindIndex) : StoreCoverage :=
  ⟨.DATA, (s.signers.countP (·.matches subject) + s.users.count (some subject) : Nat), true, none⟩

theorem searchData_eq : searchData env subject right s =
    if env.fails .data then (.error (.unavailable .data), s)
    else if right ≠ .ERASURE ∨
        s.signers.countP (·.matches subject) + s.users.count (some subject) = 0 then
      (.ok (s.dataCoverage subject), s)
    else match subjectSigners.update (·.matches subject) SubjectSigner.erased s with
      | .error e => (.error e, s)
      | .ok (_, s') => (.ok (s.dataCoverage subject), s') := by
  unfold searchData PrivacyEnvironment.transaction
  by_cases hfails : env.fails .data = true
  · rw [if_pos hfails, if_pos hfails]
    rfl
  rw [if_neg hfails, if_neg hfails]
  by_cases hnothing : right ≠ .ERASURE ∨
      s.signers.countP (·.matches subject) + s.users.count (some subject) = 0
  · rw [if_pos hnothing]
    refine Process.commit_of_ok ?_
    rw [Transaction.read_bind, if_pos hnothing]
    rfl
  · rw [if_neg hnothing]
    cases hupdate : subjectSigners.update (·.matches subject) SubjectSigner.erased s with
    | error e =>
      refine Process.commit_of_error ?_
      rw [Transaction.read_bind, if_neg hnothing]
      simp only [bind, hupdate]
    | ok r =>
      refine Process.commit_of_ok ?_
      rw [Transaction.read_bind, if_neg hnothing]
      exact Transaction.bind_eq_ok.mpr ⟨r.1, r.2, hupdate, rfl⟩

theorem searchData_cases (env : PrivacyEnvironment) (s : PersonalData) (subject : BlindIndex)
    (right : DataSubjectRight) :
    (ErasesData env s subject right ∧
      searchData env subject right s = (.ok (s.dataCoverage subject), s.erase subject)) ∨
    (¬ErasesData env s subject right ∧ right ≠ .ERASURE ∧
      searchData env subject right s = (.ok (s.dataCoverage subject), s)) ∨
    (¬ErasesData env s subject right ∧ ∃ e, searchData env subject right s = (.error e, s)) := by
  rw [searchData_eq]
  by_cases hfails : env.fails .data = true
  · rw [if_pos hfails]
    exact .inr (.inr ⟨fun h => Bool.false_ne_true (h.2.1.symm.trans hfails), _, rfl⟩)
  rw [if_neg hfails]
  have hfails := Bool.eq_false_iff.mpr hfails
  by_cases hright : right = .ERASURE
  · by_cases hcount : s.signers.countP (·.matches subject) + s.users.count (some subject) = 0
    · have hnone : ∀ signer ∈ s.signers, signer.matches subject = false := by
        have hsigners := List.countP_eq_zero.mp (Nat.add_eq_zero_iff.mp hcount).1
        exact fun signer hsigner => Bool.eq_false_iff.mpr (hsigners signer hsigner)
      rw [if_pos (.inr hcount), erase_of_none hnone]
      exact .inl ⟨⟨hright, hfails, fun signer hsigner h =>
        absurd h (Bool.eq_false_iff.mp (hnone signer hsigner))⟩, rfl⟩
    · rw [if_neg (not_or.mpr ⟨not_not.mpr hright, hcount⟩)]
      cases hupdate : subjectSigners.update (·.matches subject) SubjectSigner.erased s with
      | error e =>
        refine .inr (.inr ⟨fun h => ?_, e, rfl⟩)
        have hok := Table.update_eq_ok.mpr ⟨fun signer hsigner hmatches =>
          erasable_iff.mpr (h.2.2 signer hsigner hmatches), rfl, rfl⟩
        exact nomatch hupdate.symm.trans hok
      | ok r =>
        obtain ⟨n, s'⟩ := r
        obtain ⟨hall, rfl, -⟩ := Table.update_eq_ok.mp hupdate
        exact .inl ⟨⟨hright, hfails, fun signer hsigner hmatches =>
          erasable_iff.mp (hall signer hsigner hmatches)⟩, rfl⟩
  · rw [if_pos (.inl hright)]
    exact .inr (.inl ⟨fun h => hright h.1, hright, rfl⟩)

theorem reading_eq {α : Type} {stage : PrivacyStage} {f : PersonalData → α} :
    env.transaction stage (do return f (← Transaction.read)) s =
      if env.fails stage then (.error (.unavailable stage), s) else (.ok (f s), s) := by
  unfold PrivacyEnvironment.transaction
  by_cases hfails : env.fails stage = true
  · rw [if_pos hfails, if_pos hfails]
    rfl
  · rw [if_neg hfails, if_neg hfails]
    rfl

theorem reading_state {α : Type} {stage : PrivacyStage} {f : PersonalData → α} :
    (env.transaction stage (do return f (← Transaction.read)) s).2 = s := by
  rw [reading_eq]
  split <;> rfl

theorem searchObjectStorage_state (h : right = .ERASURE → s.identityObjectKeys subject = []) :
    (searchObjectStorage env subject right s).2 = s := by
  unfold searchObjectStorage
  by_cases hfails : env.fails .objects = true
  · rw [Process.bind_of_error (reading_eq.trans (if_pos hfails))]
  · rw [Process.bind_of_ok (reading_eq.trans (if_neg hfails))]
    by_cases hright : right = .ERASURE
    · rw [if_neg (not_not.mpr hright), h hright]
      split <;> rfl
    · rw [if_pos hright]
      rfl

theorem gatherRest_state {row : PrivacyRequestRow} {control data : StoreCoverage}
    (h : row.rightRequested = .ERASURE →
      s.identityObjectKeys row.subjectIdentifierBlindIndex = []) :
    ((do
      let objects ← searchObjectStorage env row.subjectIdentifierBlindIndex row.rightRequested
      let auditLog ← searchAuditLog env row.id row.rightRequested
      return [control, data, objects, auditLog, backupCoverage] : PrivacyProcess _) s).2 = s :=
  Process.bind_state (searchObjectStorage_state h) fun _ =>
    Process.bind_state reading_state fun _ => rfl

theorem gatherCoverage_cases (env : PrivacyEnvironment) (s : PersonalData)
    (row : PrivacyRequestRow) :
    (env.fails .control = false ∧
      ErasesData env s row.subjectIdentifierBlindIndex row.rightRequested ∧
      (gatherCoverage env row s).2 = s.erase row.subjectIdentifierBlindIndex) ∨
    (¬(env.fails .control = false ∧
      ErasesData env s row.subjectIdentifierBlindIndex row.rightRequested) ∧
      (gatherCoverage env row s).2 = s) := by
  unfold gatherCoverage searchControl
  by_cases hcontrol : env.fails .control = true
  · rw [Process.bind_of_error (reading_eq.trans (if_pos hcontrol))]
    exact .inr ⟨fun h => Bool.false_ne_true (h.1.symm.trans hcontrol), rfl⟩
  rw [Process.bind_of_ok (reading_eq.trans (if_neg hcontrol))]
  rcases searchData_cases env s row.subjectIdentifierBlindIndex
    row.rightRequested with ⟨hdata, heq⟩ | ⟨hdata, hright, heq⟩ | ⟨hdata, e, heq⟩
  · rw [Process.bind_of_ok heq]
    refine .inl ⟨Bool.eq_false_iff.mpr hcontrol, hdata, gatherRest_state fun _ => ?_⟩
    exact identityObjectKeys_of_none fun signer => matches_of_mem_erase
  · rw [Process.bind_of_ok heq]
    exact .inr ⟨fun h => hdata h.2, gatherRest_state fun h => absurd h hright⟩
  · rw [Process.bind_of_error heq]
    exact .inr ⟨fun h => hdata h.2, rfl⟩

end Gathering

/-! ## No run delivers -/

section Delivery

variable {env : PrivacyEnvironment} {s : PersonalData} {privacyRequestId : UUID}

theorem requestState?_update {p : PrivacyRequestRow → Bool}
    {f : PrivacyRequestRow → PrivacyRequestRow} (hid : ∀ row, (f row).id = row.id) {n : Nat}
    {s' : PersonalData} (h : privacyRequests.update p f s = .ok (n, s')) :
    s'.requestState? privacyRequestId =
      (s.requests.find? (·.id == privacyRequestId)).map fun row =>
        if p row then (f row).state else row.state := by
  obtain ⟨-, rfl, -⟩ := Table.update_eq_ok.mp h
  unfold PersonalData.requestState?
  have hfind : (assign p f s.requests).find? (·.id == privacyRequestId) = _ :=
    find?_assign (fun row : PrivacyRequestRow => row.id) fun row _ _ => hid row
  show ((assign p f s.requests).find? _).map _ = _
  rw [hfind, Option.map_map]
  congr 1
  funext row
  rw [Function.comp_apply]
  split <;> rfl

/-- A request that is `RECEIVED` stays so. -/
def StaysReceived (privacyRequestId : UUID) (s s' : PersonalData) : Prop :=
  s.requestState? privacyRequestId = some .RECEIVED →
    s'.requestState? privacyRequestId = some .RECEIVED

theorem OnlyAnswered.requestState? {s' : PersonalData} (h : OnlyAnswered s s') :
    s'.requestState? privacyRequestId = s.requestState? privacyRequestId := by
  unfold PersonalData.requestState?
  rw [h.2]

theorem staysReceived_advance {id : UUID} {old : PrivacyRequestState} (hold : old ≠ .RECEIVED)
    {f : PrivacyRequestRow → PrivacyRequestRow} (hid : ∀ row, (f row).id = row.id) :
    Transaction.Within (StaysReceived privacyRequestId) (advanceRequest id old f) s := by
  intro n s' h hs
  rw [requestState?_update hid h]
  obtain ⟨row, hfind, hstate⟩ := Option.map_eq_some_iff.mp hs
  rw [hfind, Option.map_some, if_neg, hstate]
  rw [hstate, Bool.and_eq_true, beq_iff_eq, beq_iff_eq]
  exact fun h => hold h.2.symm

theorem staysReceived_recordResponse {now : Int} {row : PrivacyRequestRow}
    {coverage : List StoreCoverage} {response : DataSubjectResponse} (s : PersonalData) :
    Transaction.Within (StaysReceived privacyRequestId)
      (recordResponse now row coverage response) s :=
  within_recordResponse (fun _ => id) (fun _ _ _ h h' hs => h' (h hs))
    (fun _ _ h hs => h.requestState?.trans hs)
    (staysReceived_advance (by decide) fun _ => by rfl)
    (staysReceived_advance (by decide) fun _ => by rfl) s

def StaysUndelivered (privacyRequestId : UUID) (s s' : PersonalData) : Prop :=
  s.requestState? privacyRequestId ≠ some .DELIVERED →
    s'.requestState? privacyRequestId ≠ some .DELIVERED

theorem staysUndelivered_recordRefusal {code message : String} (refused : UUID) :
    Process.Within (StaysUndelivered privacyRequestId) (recordRefusal env refused code message) := by
  refine within_transaction (fun _ => id) fun s => ?_
  refine .bind (fun _ _ _ h h' hs => h' (h hs)) ?_ fun _ s₁ _ =>
    (within_appendAudit s₁).mono fun s s' h hs => h.requestState? ▸ hs
  intro n s' h hs hdelivered
  rw [requestState?_update (fun _ => by rfl) h] at hdelivered
  obtain ⟨row, hfind, hstate⟩ := Option.map_eq_some_iff.mp hdelivered
  -- The row is refused by this statement, or was delivered before it.
  split at hstate
  · exact nomatch hstate
  · refine hs ?_
    unfold PersonalData.requestState?
    rw [hfind, Option.map_some, hstate]

theorem staysUndelivered_refuseFor (refused : UUID) (e : PrivacyError) :
    Process.Within (StaysUndelivered privacyRequestId) (refuseFor env refused e) := by
  cases e with
  | executionError code message => exact staysUndelivered_recordRefusal refused
  | requestError code message => exact staysUndelivered_recordRefusal refused
  | invalidTimeValue => exact .raise (fun _ => id) _

theorem received_of_identity {row : PrivacyRequestRow} {tenantId : UUID}
    {job : PrivacyRequestJob} (hjob : row.inProgress tenantId = .ok job) (h : job.identity ≠ none) :
    row.state = .RECEIVED := by
  obtain ⟨start, hstart, hadvance⟩ := except_bind_eq_ok.mp hjob
  obtain ⟨receivedAt, -, hjob⟩ := except_bind_eq_ok.mp hstart
  cases hjob
  by_contra hstate
  obtain ⟨verified, hverified, hadvance⟩ := except_bind_eq_ok.mp hadvance
  rw [verifyReceived, if_neg hstate] at hverified
  cases hverified
  split at hadvance
  · cases hhandled : row.handledBy with
    | none =>
      rw [hhandled] at hadvance
      exact nomatch hadvance
    | some handledBy =>
      rw [hhandled] at hadvance
      obtain ⟨_, -, hadvance⟩ := except_bind_eq_ok.mp hadvance
      obtain ⟨-, hadvance⟩ := except_guard_eq_ok.mp hadvance
      cases hadvance
      exact h rfl
  · cases hadvance
    exact h rfl

theorem within_answerRequest {now : Int} {row : PrivacyRequestRow} {job : PrivacyRequestJob}
    {held restricted : Bool} (coverage : List StoreCoverage) :
    Process.Within SubjectUntouched
      (answerRequest env now row job held restricted coverage) := by
  unfold answerRequest
  split
  · exact within_refuseFor _
  · exact within_concludeRequest _

theorem within_refuseHeld {row : PrivacyRequestRow} {job : PrivacyRequestJob}
    {held restricted : Bool} :
    Process.Within SubjectUntouched (refuseHeld env row job held restricted) := by
  unfold refuseHeld
  split
  · exact within_refuseFor _
  · exact .raise .refl _

theorem not_delivered_of_answer {now : Int} {row : PrivacyRequestRow} {tenantId : UUID}
    {job : PrivacyRequestJob} (hjob : row.inProgress tenantId = .ok job)
    (hstate : s.requestState? privacyRequestId = some row.state) (hopen : row.state ≠ .DELIVERED)
    {held restricted : Bool} (coverage : List StoreCoverage) :
    (answerRequest env now row job held restricted coverage s).2.requestState?
      privacyRequestId ≠ some .DELIVERED := by
  have hundelivered : s.requestState? privacyRequestId ≠ some .DELIVERED := by
    rw [hstate]
    exact fun h => hopen (Option.some.inj h)
  unfold answerRequest
  cases hfulfil : fulfilRequest job coverage held restricted with
  | error e => exact staysUndelivered_refuseFor _ e s hundelivered
  | ok fulfilled =>
    have hreceived := received_of_identity hjob (fulfilRequest_eq_ok hfulfil).2.1
    rw [hreceived] at hstate
    have hstays : Process.Within (StaysReceived privacyRequestId)
        (concludeRequest env now row coverage fulfilled) := by
      unfold concludeRequest
      split
      · exact .raise (fun _ => id) _
      · split
        · exact .raise (fun _ => id) _
        · exact within_transaction (fun _ => id) staysReceived_recordResponse
    rw [hstays s hstate]
    exact nofun

end Delivery

/-! ## When a run erases -/

/--
A run gets as far as the erasure: the request is open, its identity and handler let it into
progress, nothing holds or restricts the data and none of the calls before the erasure fails; and
there is a signer to erase, with no matching signer that a guard protects.
-/
structure ErasureTakesEffect (env : PrivacyEnvironment) (stores : PersonalData)
    (tenantId privacyRequestId : UUID) (row : PrivacyRequestRow) : Prop where
  found : stores.requests.find? (·.id == privacyRequestId) = some row
  erasure : row.rightRequested = .ERASURE
  undecided : row.state ≠ .DELIVERED ∧ row.state ≠ .REFUSED
  advances : ∃ job, row.inProgress tenantId = .ok job
  reaches : env.fails .load = false ∧ env.fails .holds = false ∧ env.fails .control = false ∧
    env.fails .data = false
  free : stores.legalHoldActive row.subjectIdentifierBlindIndex = false ∧
    stores.restrictionActive row.subjectIdentifierBlindIndex row.id = false
  matching : ∃ signer ∈ stores.signers, signer.matches row.subjectIdentifierBlindIndex = true
  erasable : ∀ signer ∈ stores.signers,
    signer.matches row.subjectIdentifierBlindIndex = true → signer.Erasable

section Run

variable {env : PrivacyEnvironment} {s : PersonalData} {tenantId privacyRequestId : UUID}
  {now : Int}

/-- The request is undelivered, and the subject is as the erasure leaves it. -/
def ErasedUndelivered (env : PrivacyEnvironment) (s : PersonalData)
    (tenantId privacyRequestId : UUID) (s' : PersonalData) : Prop :=
  ∃ row, ErasureTakesEffect env s tenantId privacyRequestId row ∧
    SubjectUntouched (s.erase row.subjectIdentifierBlindIndex) s' ∧
    s'.requestState? privacyRequestId ≠ some .DELIVERED

theorem executeRequest_leaves {row : PrivacyRequestRow} {job : PrivacyRequestJob}
    (hload : env.fails .load = false)
    (hfind : s.requests.find? (·.id == privacyRequestId) = some row)
    (hopen : row.state ≠ .DELIVERED ∧ row.state ≠ .REFUSED)
    (hjob : row.inProgress tenantId = .ok job) :
    ErasedUndelivered env s tenantId privacyRequestId (executeRequest env now row job s).2 ∨
      (¬ErasureTakesEffect env s tenantId privacyRequestId row ∧
        SubjectUntouched s (executeRequest env now row job s).2) := by
  unfold executeRequest
  by_cases hholds : env.fails .holds = true
  · rw [Process.bind_of_error (reading_eq.trans (if_pos hholds))]
    exact .inr ⟨fun h => Bool.false_ne_true (h.reaches.2.1.symm.trans hholds), .refl _⟩
  rw [Process.bind_of_ok (reading_eq.trans (if_neg hholds))]
  by_cases hheld : row.rightRequested = .ERASURE ∧
      (s.legalHoldActive row.subjectIdentifierBlindIndex = true ∨
        s.restrictionActive row.subjectIdentifierBlindIndex row.id = true)
  · simp only [if_pos hheld]
    refine .inr ⟨fun h => ?_, within_refuseHeld s⟩
    rcases hheld.2 with hlegal | hrestricted
    · exact Bool.false_ne_true (h.free.1.symm.trans hlegal)
    · exact Bool.false_ne_true (h.free.2.symm.trans hrestricted)
  simp only [if_neg hheld]
  rcases gatherCoverage_cases env s row with
    ⟨hcontrol, hdata, hgathered⟩ | ⟨hnot, hgathered⟩
  · by_cases hmatching : ∃ signer ∈ s.signers,
        signer.matches row.subjectIdentifierBlindIndex = true
    · left
      obtain ⟨hlegal, hrestricted⟩ := not_or.mp (not_and.mp hheld hdata.1)
      refine ⟨row, ⟨hfind, hdata.1, hopen, ⟨job, hjob⟩, ⟨hload, Bool.eq_false_iff.mpr hholds,
        hcontrol, hdata.2.1⟩, ⟨Bool.eq_false_iff.mpr hlegal, Bool.eq_false_iff.mpr hrestricted⟩,
        hmatching, hdata.2.2⟩, ?_⟩
      have hstate : (s.erase row.subjectIdentifierBlindIndex).requestState? privacyRequestId =
          some row.state := by
        show (s.requests.find? _).map _ = _
        rw [hfind]
        rfl
      refine Process.bind_post (Q := fun s' => SubjectUntouched _ s' ∧
        s'.requestState? privacyRequestId ≠ some .DELIVERED) ?_ fun coverage _ => ?_
      · rw [hgathered, hstate]
        exact ⟨.refl _, fun h => hopen.1 (Option.some.inj h)⟩
      · rw [hgathered]
        exact ⟨within_answerRequest coverage _,
          not_delivered_of_answer hjob hstate hopen.1 coverage⟩
    · refine .inr ⟨fun h => hmatching h.matching, ?_⟩
      have hsame : s.erase row.subjectIdentifierBlindIndex = s := erase_of_none
        fun signer hsigner => Bool.eq_false_iff.mpr fun h => hmatching ⟨signer, hsigner, h⟩
      rw [hsame] at hgathered
      refine Process.bind_post (Q := SubjectUntouched s) ?_ fun coverage _ => ?_
      · rw [hgathered]
        exact .refl _
      · rw [hgathered]
        exact within_answerRequest coverage s
  · refine .inr ⟨fun h => hnot ⟨h.reaches.2.2.1, h.erasure, h.reaches.2.2.2, h.erasable⟩, ?_⟩
    refine Process.bind_post (Q := SubjectUntouched s) ?_ fun coverage _ => ?_
    · rw [hgathered]
      exact .refl _
    · rw [hgathered]
      exact within_answerRequest coverage s

theorem handle_leaves (env : PrivacyEnvironment) (s : PersonalData)
    (tenantId privacyRequestId : UUID) (now : Int) :
    ErasedUndelivered env s tenantId privacyRequestId
      (handlePrivacyRequestExecute env tenantId privacyRequestId now s).2 ∨
    ((¬∃ row, ErasureTakesEffect env s tenantId privacyRequestId row) ∧
      SubjectUntouched s (handlePrivacyRequestExecute env tenantId privacyRequestId now s).2) := by
  unfold handlePrivacyRequestExecute
  by_cases hload : env.fails .load = true
  · rw [Process.bind_of_error (reading_eq.trans (if_pos hload))]
    exact .inr ⟨fun ⟨_, h⟩ => Bool.false_ne_true (h.reaches.1.symm.trans hload), .refl _⟩
  rw [Process.bind_of_ok (reading_eq.trans (if_neg hload))]
  -- Any run that gets further is about the row that has been loaded.
  have hrow : ∀ {row}, s.requests.find? (·.id == privacyRequestId) = some row →
      ¬ErasureTakesEffect env s tenantId privacyRequestId row →
      ¬∃ row, ErasureTakesEffect env s tenantId privacyRequestId row := by
    rintro row hfind hnot ⟨row', h⟩
    cases hfind.symm.trans h.found
    exact hnot h
  cases hfind : s.requests.find? (·.id == privacyRequestId) with
  | none =>
    refine .inr ⟨?_, .refl _⟩
    rintro ⟨row, h⟩
    exact nomatch hfind.symm.trans h.found
  | some row =>
    by_cases hclosed : row.state = .DELIVERED ∨ row.state = .REFUSED
    · simp only [if_pos hclosed]
      exact .inr ⟨hrow hfind fun h => not_or.mpr h.undecided hclosed, .refl _⟩
    simp only [if_neg hclosed]
    cases hjob : row.inProgress tenantId with
    | error e =>
      refine .inr ⟨hrow hfind fun h => ?_, within_refuseFor e s⟩
      obtain ⟨job, hok⟩ := h.advances
      exact nomatch hjob.symm.trans hok
    | ok job =>
      have hload := Bool.eq_false_iff.mpr hload
      exact (executeRequest_leaves hload hfind (not_or.mp hclosed) hjob).imp_right
        fun h => ⟨hrow hfind h.1, h.2⟩

end Run

/--
Nothing of the data subject is different after a run that does not deliver the request, exactly if
the run does not get as far as an erasure.
-/
theorem untouched_or_delivered_iff {env : PrivacyEnvironment} {stores : PersonalData}
    {tenantId privacyRequestId : UUID} {now : Int} :
    (SubjectUntouched stores
        (handlePrivacyRequestExecute env tenantId privacyRequestId now stores).2 ∨
      (handlePrivacyRequestExecute env tenantId privacyRequestId now stores).2.requestState?
        privacyRequestId = some .DELIVERED) ↔
    ¬∃ row, ErasureTakesEffect env stores tenantId privacyRequestId row := by
  rcases handle_leaves env stores tenantId privacyRequestId now with
    ⟨row, heffect, hafter, hstate⟩ | h
  · refine iff_of_false (not_or.mpr ⟨fun huntouched => ?_, hstate⟩) (not_not.mpr ⟨row, heffect⟩)
    -- The signer that matched is still there and matches no more.
    obtain ⟨signer, hsigner, hmatches⟩ := heffect.matching
    rw [← huntouched.signers, hafter.signers] at hsigner
    exact Bool.false_ne_true ((matches_of_mem_erase hsigner).symm.trans hmatches)
  · exact iff_of_true (.inl h.2) h.1

/-! ### An erasure that is rolled back at its end -/

def PrivacyRequestRow.sample : PrivacyRequestRow :=
  ⟨"request", .RECEIVED, .ERASURE, 7, none, 0, some 0, some "BANKID", some .HIGH, some "handler",
    none, none⟩

/-- Somebody who has signed with a discovered identity, and whose evidence is stored. -/
def PersonalData.sample : PersonalData where
  requests := [.sample]
  coverage := []
  responses := []
  signers := [⟨"signer", "case", .signed, none, none, none, none, none, some "ciphertext", some 7,
    some .BANKID_DISCOVERED, some "UNKNOWN_AT_INVITATION", none, some "approver", some 0⟩]
  users := []
  onboardingApplications := []
  onboardingContacts := []
  legalHolds := []
  intents := [⟨"intent", "signer"⟩]
  identityArtifacts := [⟨"intent", some "evidence/collect.json", none, none, none⟩]
  auditEvents := []
  objects := ["evidence/collect.json"]

def PrivacyEnvironment.sample : PrivacyEnvironment := ⟨fun _ => false, true⟩

/-- The response is rejected, the request is still received, and the signer has been erased. -/
theorem not_untouched_of_received :
    (handlePrivacyRequestExecute .sample "tenant" "request" 0 .sample).1 =
        .error (.database (.raised "PRIVACY_RESPONSE_BEFORE_FULFILMENT")) ∧
      (handlePrivacyRequestExecute .sample "tenant" "request" 0 .sample).2.requestState?
        "request" = some .RECEIVED ∧
      (handlePrivacyRequestExecute .sample "tenant" "request" 0 .sample).2.signers =
        PersonalData.sample.signers.map SubjectSigner.erased ∧
      (handlePrivacyRequestExecute .sample "tenant" "request" 0 .sample).2.signers ≠
        PersonalData.sample.signers := by
  decide +kernel

/-! ## What the search of the object storage finds -/

section Objects

variable {env : PrivacyEnvironment} {s s' : PersonalData} {row : PrivacyRequestRow}
  {coverage : List StoreCoverage}

theorem searchObjectStorage_none {subject : BlindIndex} {cov : StoreCoverage}
    (hkeys : s.identityObjectKeys subject = [])
    (h : searchObjectStorage env subject .ERASURE s = (.ok cov, s')) :
    cov.store = .OBJECT_STORAGE ∧ cov.recordCount = 0 := by
  unfold searchObjectStorage at h
  by_cases hfails : env.fails .objects = true
  · rw [Process.bind_of_error (reading_eq.trans (if_pos hfails))] at h
    exact nomatch h
  rw [Process.bind_of_ok (reading_eq.trans (if_neg hfails)), if_neg (not_not.mpr rfl), hkeys] at h
  split at h
  · cases h
    exact ⟨rfl, rfl⟩
  · cases h
    exact ⟨rfl, rfl⟩

theorem gatherCoverage_objects (hright : row.rightRequested = .ERASURE)
    (h : gatherCoverage env row s = (.ok coverage, s')) :
    (∃ entry ∈ coverage, entry.store = .OBJECT_STORAGE) ∧
      ∀ entry ∈ coverage, entry.store = .OBJECT_STORAGE → entry.recordCount = 0 := by
  unfold gatherCoverage searchControl at h
  obtain ⟨control, s₁, hcontrol, h⟩ := Process.bind_eq_ok.mp h
  rw [reading_eq] at hcontrol
  split at hcontrol
  · cases hcontrol
  cases hcontrol
  obtain ⟨data, s₂, hdata, h⟩ := Process.bind_eq_ok.mp h
  obtain ⟨objects, s₃, hobjects, h⟩ := Process.bind_eq_ok.mp h
  obtain ⟨auditLog, s₄, haudit, h⟩ := Process.bind_eq_ok.mp h
  unfold searchAuditLog at haudit
  rw [reading_eq] at haudit
  split at haudit
  · cases haudit
  cases haudit
  cases h
  have hgathered : data.store = .DATA ∧
      s₂.identityObjectKeys row.subjectIdentifierBlindIndex = [] := by
    rcases searchData_cases env s row.subjectIdentifierBlindIndex row.rightRequested with
      ⟨-, heq⟩ | ⟨-, hne, -⟩ | ⟨-, e, heq⟩
    · cases heq.symm.trans hdata
      exact ⟨rfl, identityObjectKeys_of_none fun signer => matches_of_mem_erase⟩
    · exact absurd hright hne
    · cases heq.symm.trans hdata
  rw [hright] at hobjects
  obtain ⟨hstore, hcount⟩ := searchObjectStorage_none hgathered.2 hobjects
  refine ⟨⟨objects, by simp, hstore⟩, fun entry hentry hobject => ?_⟩
  simp only [List.mem_cons, List.not_mem_nil, or_false] at hentry
  rcases hentry with rfl | rfl | rfl | rfl | rfl
  · cases hobject
  · cases hgathered.1.symm.trans hobject
  · exact hcount
  · cases hobject
  · cases hobject

/--
When an erasure has gone through the stores, every object with identity evidence of a matching
signer has been counted and deleted exactly if there was none: the search comes after the erasure
of the blind indexes that it searches by.
-/
theorem identityObjects_erased_iff (hright : row.rightRequested = .ERASURE)
    (h : gatherCoverage env row s = (.ok coverage, s')) :
    ((∀ key ∈ s.identityObjectKeys row.subjectIdentifierBlindIndex, key ∉ s'.objects) ∧
      ∃ entry ∈ coverage, entry.store = .OBJECT_STORAGE ∧
        entry.recordCount = (s.identityObjectKeys row.subjectIdentifierBlindIndex).length) ↔
    s.identityObjectKeys row.subjectIdentifierBlindIndex = [] := by
  obtain ⟨⟨entry, hentry, hstore⟩, hnone⟩ := gatherCoverage_objects hright h
  constructor
  · rintro ⟨-, entry, hentry, hstore, hcount⟩
    rw [hnone entry hentry hstore] at hcount
    exact List.length_eq_zero_iff.mp (Int.ofNat_eq_zero.mp hcount.symm)
  · intro hkeys
    rw [hkeys]
    exact ⟨nofun, entry, hentry, hstore, hnone entry hentry hstore⟩

end Objects

/-! ### Evidence that is searched for after the erasure -/

theorem identityObjects_erased_iff_withoutArtifacts : ∃ coverage s',
    gatherCoverage .sample .sample { PersonalData.sample with identityArtifacts := [] } =
      (.ok coverage, s') ∧
    ∃ entry ∈ coverage, entry.store = .OBJECT_STORAGE ∧ entry.recordCount = 0 := by
  obtain ⟨coverage, s', h⟩ : ∃ coverage s',
      gatherCoverage .sample .sample { PersonalData.sample with identityArtifacts := [] } =
        (.ok coverage, s') := ⟨_, _, rfl⟩
  exact ⟨coverage, s', h, ((identityObjects_erased_iff rfl h).mpr (by decide)).2⟩

/-- The object of the signer is still stored, and the store counts as searched and empty. -/
theorem not_identityObjects_erased_of_artifact : ∃ coverage s',
    gatherCoverage .sample .sample .sample = (.ok coverage, s') ∧
    "evidence/collect.json" ∈ PersonalData.sample.identityObjectKeys 7 ∧
    "evidence/collect.json" ∈ s'.objects ∧
    ⟨.OBJECT_STORAGE, 0, true, none⟩ ∈ coverage :=
  ⟨_, _, rfl, by decide, by decide, by decide⟩

end Kommunsign
