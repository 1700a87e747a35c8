import Mathlib.Order.Lattice
import Kommunsign.Api.Delivery

/-!
# What download links open, and how often

The row lock of the update keeps the count of a grant right, whoever redeems and revokes at the same
time. But the update runs under a policy that shows no row to a session without a tenant.

* `Delivers` — a redemption finds the live grant of its token, and ends before the grant does
* `deliverySafe_throughout_iff` — all is as it should be if and only if every redemption does
* `not_deliverySafe_without_tenant` — a live link that opens nothing
-/

namespace Kommunsign

open Infra

structure SameLink (issued grant : DownloadGrant) : Prop where
  key : issued.key = grant.key
  tokenHash : issued.tokenHash = grant.tokenHash
  signatureCaseId : issued.signatureCaseId = grant.signatureCaseId
  artifact : issued.artifact = grant.artifact

structure Counted (s : Delivery) (grant : DownloadGrant) : Prop where
  events : grant.useCount = s.events.countP (·.key == grant.key)
  limit : grant.useCount ≤ grant.maximumUses

structure DeliverySafe (s : Delivery) : Prop where
  counted : ∀ grant ∈ s.grants, Counted s grant
  unrevoked : ∀ redemption ∈ s.redemptions, redemption.afterRevocation = false
  unexpired : ∀ redemption ∈ s.redemptions, redemption.committedAt < redemption.grant.expiresAt
  redeemed : ∀ denial ∈ s.denials, denial.live = false
  issued : ∀ redemption ∈ s.redemptions, ∃ issued ∈ s.issued,
    issued.tokenHash = redemption.tokenHash ∧ SameLink issued redemption.grant

def HasLive (grants : List DownloadGrant) (tokenHash : String) (now : Int) : Prop :=
  ∃ grant ∈ grants, grant.tokenHash = tokenHash ∧ grant.isLive now = true

def DeliveryCall.Delivers (s : Delivery) : DeliveryCall → Prop
  | .redeeming session tokenHash now _ => HasLive s.grants tokenHash now →
      HasLive (s.grants.filter fun grant => isVisible session grant.tenantId) tokenHash now
  | .recorded _ grant _ => s.clock < grant.expiresAt
  | .redeemed .. | .revoking .. | .revoked .. => True

def Delivers (s : Delivery) : DeliveryStep → Prop
  | .next i => ∀ call ∈ s.calls i, call.Delivers s
  | .time _ | .cases _ | .issue .. | .redeem .. | .revoke .. | .abort _ => True

/-! ## The row locks -/

structure HeldBy (s : Delivery) (i : Nat) (grant : DownloadGrant) : Prop where
  holder : s.holder grant.key = some i
  committed : grant ∈ s.grants
  unrevoked : grant.revokedAt = none

def DeliveryCall.Holds (s : Delivery) (i : Nat) : DeliveryCall → Prop
  | .redeeming .. | .revoking .. => True
  | .redeemed tokenHash grant _ | .recorded tokenHash grant _ =>
    HeldBy s i grant ∧ grant.tokenHash = tokenHash ∧ grant.useCount < grant.maximumUses
  | .revoked grant _ _ => HeldBy s i grant

structure DeliveryOk (s : Delivery) : Prop where
  keys : (s.grants.map (·.key)).Nodup
  checked : ∀ grant ∈ s.grants, refuse (downloadGrantChecks grant) = .ok ()
  counted : ∀ grant ∈ s.grants, Counted s grant
  events : ∀ event ∈ s.events, ∃ grant ∈ s.grants, grant.key = event.key
  issued : ∀ grant ∈ s.grants, ∃ issued ∈ s.issued, SameLink issued grant
  calls : ∀ i call, s.calls i = some call → call.Holds s i

section Locks

variable {s s' : Delivery} {i j : Nat} {grant : DownloadGrant} {call : DeliveryCall}

theorem DeliveryCall.Holds.mono (h : call.Holds s i)
    (hheld : ∀ grant, HeldBy s i grant → HeldBy s' i grant) : call.Holds s' i := by
  cases call with
  | redeeming session tokenHash now client => trivial
  | redeemed tokenHash grant client => exact ⟨hheld grant h.1, h.2⟩
  | recorded tokenHash grant client => exact ⟨hheld grant h.1, h.2⟩
  | revoking tenantId grantId subjectId startedAt => trivial
  | revoked grant subjectId startedAt => exact hheld grant h

theorem DeliveryOk.of_calls (hok : DeliveryOk s) (hgrants : s'.grants = s.grants)
    (hevents : s'.events = s.events) (hissued : s'.issued = s.issued)
    (hcalls : ∀ i call, s'.calls i = some call → call.Holds s' i) : DeliveryOk s' := by
  refine ⟨hgrants ▸ hok.keys, hgrants ▸ hok.checked, fun grant hgrant => ?_, ?_, ?_, hcalls⟩
  · rw [hgrants] at hgrant
    exact ⟨by rw [hevents]; exact (hok.counted grant hgrant).events,
      (hok.counted grant hgrant).limit⟩
  · rw [hgrants, hevents]
    exact hok.events
  · rw [hgrants, hissued]
    exact hok.issued

theorem DeliveryOk.update (hok : DeliveryOk s) (hgrants : s'.grants = s.grants)
    (hevents : s'.events = s.events) (hissued : s'.issued = s.issued)
    (hcalls : ∃ after, s'.calls = Function.update s.calls i after ∧
      ∀ call ∈ after, call.Holds s' i)
    (hheld : ∀ j grant, j ≠ i → HeldBy s j grant → HeldBy s' j grant) : DeliveryOk s' := by
  obtain ⟨after, hcalls, hafter⟩ := hcalls
  refine hok.of_calls hgrants hevents hissued fun j call hcall => ?_
  rw [hcalls] at hcall
  by_cases hj : j = i
  · subst hj
    rw [Function.update_self] at hcall
    exact hafter call hcall
  · rw [Function.update_of_ne hj] at hcall
    exact (hok.calls j call hcall).mono fun grant => hheld j grant hj

theorem heldBy_finish (hj : j ≠ i) (h : HeldBy s j grant) : HeldBy (s.finish i) j grant := by
  refine ⟨?_, h.committed, h.unrevoked⟩
  have hne : s.holder grant.key ≠ some i := by
    rw [h.holder]
    exact fun hsame => hj (Option.some.inj hsame)
  exact (if_neg hne).trans h.holder

theorem DeliveryOk.finish (hok : DeliveryOk s) (i : Nat) : DeliveryOk (s.finish i) :=
  hok.update rfl rfl rfl ⟨none, rfl, fun _ h => nomatch h⟩ fun _ _ hj h => heldBy_finish hj h

theorem DeliveryOk.take (hok : DeliveryOk s) (hfree : s.holder grant.key = none)
    (hafter : HeldBy (s.take i grant call) i grant → call.Holds (s.take i grant call) i)
    (hgrant : grant ∈ s.grants) (hunrevoked : grant.revokedAt = none) :
    DeliveryOk (s.take i grant call) := by
  have hself : HeldBy (s.take i grant call) i grant :=
    ⟨Function.update_self .., hgrant, hunrevoked⟩
  refine hok.update rfl rfl rfl ⟨some call, rfl, fun after hcall => ?_⟩ fun j other _ h => ?_
  · obtain rfl := Option.some.inj hcall
    exact hafter hself
  · refine ⟨?_, h.committed, h.unrevoked⟩
    have hne : other.key ≠ grant.key := fun hsame => by
      rw [← hsame, h.holder] at hfree
      cases hfree
    exact (Function.update_of_ne hne ..).trans h.holder

/-! ## The statements -/

theorem checks_iff {new : DownloadGrant} : refuse (downloadGrantChecks new) = .ok () ↔
    1 ≤ new.maximumUses ∧ new.maximumUses ≤ 50 ∧ new.useCount ≤ new.maximumUses ∧
      new.createdAt < new.expiresAt := by
  simp only [downloadGrantChecks, refuse_append, refuse_violates, Bool.or_eq_false_iff,
    decide_eq_false_iff_not, not_lt, not_le, and_assoc]

theorem onUpdate_used (hchecked : refuse (downloadGrantChecks grant) = .ok ())
    (huses : grant.useCount < grant.maximumUses) :
    downloadGrants.onUpdate s grant grant.used = .ok () := by
  obtain ⟨hleast, hmost, -, hexpiry⟩ := checks_iff.mp hchecked
  have hchecks : refuse (downloadGrantChecks grant.used) = .ok () :=
    checks_iff.mpr ⟨hleast, hmost, huses, hexpiry⟩
  have hkept : (grant.revokedAt.isSome && grant.revokedAt.isNone) = false := by
    cases grant.revokedAt <;> rfl
  simp only [downloadGrants, assertDownloadGrantUseMonotonic, refuse_append, refuse_raises, hchecks,
    and_true]
  exact ⟨⟨⟨decide_eq_false (not_lt.mpr (Nat.le_succ _)), bne_self_eq_false _⟩,
    bne_self_eq_false _⟩, hkept⟩

theorem isLive_iff {now : Int} : grant.isLive now = true ↔
    grant.revokedAt = none ∧ now < grant.expiresAt ∧ grant.useCount < grant.maximumUses := by
  rw [DownloadGrant.isLive, Bool.and_eq_true, Bool.and_eq_true, Option.isNone_iff_eq_none,
    decide_eq_true_iff, decide_eq_true_iff, gt_iff_lt, and_assoc]

theorem redeem_cases (hok : DeliveryOk s) {session : Option UUID} {tokenHash : String} {now : Int}
    {client : DownloadClient} (h : s.redeem i session tokenHash now client = some s') :
    (¬HasLive (s.grants.filter fun grant => isVisible session grant.tenantId) tokenHash now ∧
      s' = { s.finish i with denials := s.denials ++ [⟨tokenHash, s.grants.any fun grant =>
        grant.tokenHash == tokenHash && grant.isLive now⟩] }) ∨
    ∃ grant ∈ s.grants, isVisible session grant.tenantId = true ∧ grant.tokenHash = tokenHash ∧
      grant.isLive now = true ∧ s.holder grant.key = none ∧
      s' = s.take i grant (.redeemed tokenHash grant client) := by
  unfold Delivery.redeem at h
  split at h
  · next hfind =>
    refine Or.inl ⟨?_, (Option.some.inj h).symm⟩
    rintro ⟨grant, hgrant, hhash, hlive⟩
    obtain ⟨hgrant, hvisible⟩ := List.mem_filter.mp hgrant
    refine List.find?_eq_none.mp hfind grant hgrant ?_
    rw [hvisible, hlive, beq_iff_eq.mpr hhash]
    rfl
  · next grant hfind =>
    have hgrant := List.mem_of_find?_eq_some hfind
    have hmatch := List.find?_some hfind
    rw [Bool.and_eq_true, Bool.and_eq_true, beq_iff_eq] at hmatch
    obtain ⟨⟨hvisible, hhash⟩, hlive⟩ := hmatch
    split at h
    · next hfree =>
      rw [onUpdate_used (hok.checked grant hgrant) (isLive_iff.mp hlive).2.2] at h
      exact Or.inr ⟨grant, hgrant, hvisible, hhash, hlive, hfree, (Option.some.inj h).symm⟩
    · cases h

theorem revoke_cases {tenantId grantId subjectId : UUID} {startedAt : Int}
    (h : s.revoke i tenantId grantId subjectId startedAt = some s') : s' = s.finish i ∨
      ∃ grant ∈ s.grants, grant.revokedAt = none ∧ s.holder grant.key = none ∧
        s' = s.take i grant (.revoked grant subjectId startedAt) := by
  unfold Delivery.revoke at h
  split at h
  · exact Or.inl (Option.some.inj h).symm
  · next grant hfind =>
    have hmatch := List.find?_some hfind
    rw [Bool.and_eq_true, Option.isNone_iff_eq_none] at hmatch
    split at h
    · next hfree =>
      split at h
      · exact Or.inl (Option.some.inj h).symm
      · exact Or.inr ⟨grant, List.mem_of_find?_eq_some hfind, hmatch.2, hfree,
          (Option.some.inj h).symm⟩
    · cases h

theorem heldBy_assign {other : DownloadGrant} {f : DownloadGrant → DownloadGrant}
    (hkeys : (s.grants.map (·.key)).Nodup) (hheld : HeldBy s i grant) (hj : j ≠ i)
    (h : HeldBy s j other) {after : Delivery}
    (hgrants : after.grants = assign (·.key == grant.key) f s.grants)
    (hholder : after.holder = (s.finish i).holder) : HeldBy after j other := by
  have hne : other.key ≠ grant.key := fun hsame => by
    have hboth := h.holder
    rw [hsame, hheld.holder] at hboth
    exact hj (Option.some.inj hboth).symm
  refine ⟨?_, ?_, h.unrevoked⟩
  · rw [hholder]
    exact (heldBy_finish hj h).holder
  · rw [hgrants]
    exact (mem_assign_key hkeys hheld.committed).mpr (Or.inr ⟨h.committed, hne⟩)

theorem DeliveryOk.commit (hok : DeliveryOk s) (hheld : HeldBy s i grant) {row : DownloadGrant}
    (hlink : SameLink grant row) (hchecked : refuse (downloadGrantChecks row) = .ok ())
    {after : Delivery} (hgrants : after.grants = assign (·.key == grant.key) (fun _ => row) s.grants)
    (hcounted : Counted after row)
    (hothers : ∀ other ∈ s.grants, other.key ≠ grant.key → Counted after other)
    (hevents : ∀ event ∈ after.events, event ∈ s.events ∨ event.key = grant.key)
    (hissued : after.issued = s.issued) (hcalls : after.calls = Function.update s.calls i none)
    (hholder : after.holder = (s.finish i).holder) : DeliveryOk after := by
  have hmem {other : DownloadGrant} : other ∈ after.grants ↔
      other = row ∨ other ∈ s.grants ∧ other.key ≠ grant.key := by
    rw [hgrants]
    exact mem_assign_key hok.keys hheld.committed
  refine ⟨?_, fun other hother => ?_, fun other hother => ?_, fun event hevent => ?_,
    fun other hother => ?_, fun j call hcall => ?_⟩
  · rw [hgrants]
    refine nodup_assign_key hok.keys hheld.committed fun _ _ h => ?_
    rw [← hlink.key]
    exact h
  · rcases hmem.mp hother with rfl | ⟨hother, -⟩
    · exact hchecked
    · exact hok.checked other hother
  · rcases hmem.mp hother with rfl | ⟨hother, hne⟩
    · exact hcounted
    · exact hothers other hother hne
  · have hsame : ∃ other ∈ s.grants, other.key = event.key := by
      rcases hevents event hevent with hold | hnew
      · exact hok.events event hold
      · exact ⟨grant, hheld.committed, hnew.symm⟩
    obtain ⟨other, hother, hkey⟩ := hsame
    by_cases hrow : other.key = grant.key
    · exact ⟨row, hmem.mpr (Or.inl rfl), hlink.key.symm.trans (hrow.symm.trans hkey)⟩
    · exact ⟨other, hmem.mpr (Or.inr ⟨hother, hrow⟩), hkey⟩
  · rw [hissued]
    rcases hmem.mp hother with rfl | ⟨hother, -⟩
    · obtain ⟨issued, hmem, hsame⟩ := hok.issued grant hheld.committed
      exact ⟨issued, hmem, hsame.key.trans hlink.key, hsame.tokenHash.trans hlink.tokenHash,
        hsame.signatureCaseId.trans hlink.signatureCaseId, hsame.artifact.trans hlink.artifact⟩
    · exact hok.issued other hother
  · rw [hcalls] at hcall
    by_cases hj : j = i
    · rw [hj, Function.update_self] at hcall
      cases hcall
    · rw [Function.update_of_ne hj] at hcall
      exact (hok.calls j call hcall).mono fun other h =>
        heldBy_assign hok.keys hheld hj h hgrants hholder

theorem DeliveryOk.commitRedemption (hok : DeliveryOk s) {tokenHash : String}
    {client : DownloadClient} (hheld : HeldBy s i grant)
    (huses : grant.useCount < grant.maximumUses) :
    DeliveryOk (s.commitRedemption i tokenHash grant client) := by
  obtain ⟨hleast, hmost, -, hexpiry⟩ := checks_iff.mp (hok.checked grant hheld.committed)
  refine hok.commit hheld (show SameLink grant grant.used from ⟨rfl, rfl, rfl, rfl⟩)
    (checks_iff.mpr ⟨hleast, hmost, huses, hexpiry⟩) rfl ⟨?_, huses⟩ (fun other hother hne => ?_)
    (fun event hevent => ?_) rfl rfl rfl
  · -- the event that is added is the use that is counted
    have hbefore := (hok.counted grant hheld.committed).events
    show grant.useCount + 1 = (s.events ++ [_]).countP _
    rw [List.countP_append, hbefore]
    exact congrArg _ (List.countP_singleton.trans (if_pos (beq_self_eq_true grant.key))).symm
  · have hbefore := hok.counted other hother
    refine ⟨?_, hbefore.limit⟩
    show other.useCount = (s.events ++ [_]).countP _
    have hnot : (DownloadEvent.key ⟨grant.tenantId, grant.id, client.network,
        client.userAgentFamily⟩ == other.key) = false := beq_false_of_ne (Ne.symm hne)
    rw [List.countP_append, ← hbefore.events, List.countP_singleton, hnot]
    rfl
  · refine (List.mem_append.mp hevent).imp_right fun hnew => ?_
    rw [List.mem_singleton.mp hnew]
    rfl

theorem DeliveryOk.commitRevocation (hok : DeliveryOk s) (hheld : HeldBy s i grant)
    (subjectId : UUID) (startedAt : Int) :
    DeliveryOk (s.commitRevocation i grant subjectId startedAt) := by
  have hcounted := hok.counted grant hheld.committed
  exact hok.commit hheld (show SameLink grant (grant.withdrawn subjectId startedAt) from
      ⟨rfl, rfl, rfl, rfl⟩) (hok.checked grant hheld.committed) rfl ⟨hcounted.events, hcounted.limit⟩
    (fun other hother _ => ⟨(hok.counted other hother).events, (hok.counted other hother).limit⟩)
    (fun _ hevent => Or.inl hevent) rfl rfl rfl

theorem issue_cases {tenantId id : UUID} {tokenHash : String} {input : IssueInput}
    (h : s.issue tenantId id tokenHash input = some s') :
    ∃ grant, s' = { s with grants := s.grants ++ [grant], issued := s.issued ++ [grant] } ∧
      grant.useCount = 0 ∧ refuse (downloadGrantChecks grant) = .ok () ∧
      ∀ other ∈ s.grants, other.key ≠ grant.key := by
  unfold Delivery.issue at h
  obtain ⟨_, -, h⟩ := Option.bind_eq_some_iff.mp h
  obtain ⟨next, hinsert, h⟩ := Option.bind_eq_some_iff.mp h
  obtain ⟨_, hinsert⟩ := Transaction.outcome_eq_some.mp hinsert
  obtain ⟨hguards, rfl⟩ := Table.insert_eq_ok.mp hinsert
  simp only [downloadGrants, refuse_append, refuse_violates] at hguards
  obtain ⟨⟨⟨-, hchecked⟩, hfresh⟩, -⟩ := hguards
  refine ⟨_, (Option.some.inj h).symm, rfl, hchecked, fun other hother hsame => ?_⟩
  have hnone := List.any_eq_false.mp hfresh other hother
  exact hnone (beq_iff_eq.mpr hsame)

theorem DeliveryOk.issue (hok : DeliveryOk s) {tenantId id : UUID} {tokenHash : String}
    {input : IssueInput} (h : s.issue tenantId id tokenHash input = some s') : DeliveryOk s' := by
  obtain ⟨grant, rfl, hunused, hchecked, hfresh⟩ := issue_cases h
  have hmem {other : DownloadGrant} (hother : other ∈ s.grants ++ [grant]) :
      other ∈ s.grants ∨ other = grant := by
    simpa using hother
  refine ⟨nodup_concat_key hok.keys hfresh, fun other hother => ?_, fun other hother => ?_,
    fun event hevent => ?_, fun other hother => ?_, fun i call hcall => ?_⟩
  · rcases hmem hother with hold | rfl
    · exact hok.checked other hold
    · exact hchecked
  · rcases hmem hother with hold | rfl
    · exact ⟨(hok.counted other hold).events, (hok.counted other hold).limit⟩
    · refine ⟨?_, hunused ▸ Nat.zero_le _⟩
      -- an event of the key would belong to a grant that was there before
      have hnone : s.events.countP (·.key == other.key) = 0 := by
        refine List.countP_eq_zero.mpr fun event hevent hkey => ?_
        obtain ⟨before, hbefore, hsame⟩ := hok.events event hevent
        exact hfresh before hbefore (hsame.trans (beq_iff_eq.mp hkey))
      exact hunused.trans hnone.symm
  · obtain ⟨other, hother, hkey⟩ := hok.events event hevent
    exact ⟨other, List.mem_append_left _ hother, hkey⟩
  · rcases hmem hother with hold | rfl
    · obtain ⟨issued, hissued, hsame⟩ := hok.issued other hold
      exact ⟨issued, List.mem_append_left _ hissued, hsame⟩
    · exact ⟨other, List.mem_append_right _ (List.mem_singleton_self _), ⟨rfl, rfl, rfl, rfl⟩⟩
  · exact (hok.calls i call hcall).mono fun other h =>
      ⟨h.holder, List.mem_append_left _ h.committed, h.unrevoked⟩

theorem deliveryOk_step {step : DeliveryStep} (hok : DeliveryOk s)
    (h : deliveryStep s step = some s') : DeliveryOk s' := by
  cases step with
  | time now =>
    cases h
    exact hok.of_calls rfl rfl rfl fun i call hcall => (hok.calls i call hcall).mono
      fun _ h => ⟨h.holder, h.committed, h.unrevoked⟩
  | cases cases =>
    cases h
    exact hok.of_calls rfl rfl rfl fun i call hcall => (hok.calls i call hcall).mono
      fun _ h => ⟨h.holder, h.committed, h.unrevoked⟩
  | issue tenantId id tokenHash input => exact hok.issue h
  | redeem i session tokenHash client =>
    rw [deliveryStep] at h
    split at h
    · cases h
      refine hok.update rfl rfl rfl ⟨_, rfl, fun call hcall => ?_⟩
        fun _ _ _ h => ⟨h.holder, h.committed, h.unrevoked⟩
      cases hcall
      trivial
    · cases h
  | revoke i tenantId grantId subjectId =>
    rw [deliveryStep] at h
    split at h
    · cases h
      refine hok.update rfl rfl rfl ⟨_, rfl, fun call hcall => ?_⟩
        fun _ _ _ h => ⟨h.holder, h.committed, h.unrevoked⟩
      cases hcall
      trivial
    · cases h
  | next i =>
    obtain ⟨call, hcall, h⟩ := Option.bind_eq_some_iff.mp h
    have hholds := hok.calls i call hcall
    cases call with
    | redeeming session tokenHash now client =>
      rcases redeem_cases hok h with ⟨-, rfl⟩ | ⟨grant, hgrant, -, hhash, hlive, hfree, rfl⟩
      · exact (hok.finish i).of_calls rfl rfl rfl fun j call hcall =>
          ((hok.finish i).calls j call hcall).mono fun _ h => ⟨h.holder, h.committed, h.unrevoked⟩
      · obtain ⟨hunrevoked, -, huses⟩ := isLive_iff.mp hlive
        exact hok.take hfree (fun hself => ⟨hself, hhash, huses⟩) hgrant hunrevoked
    | redeemed tokenHash grant client =>
      cases h
      refine hok.update rfl rfl rfl ⟨_, rfl, fun call hcall => ?_⟩
        fun _ _ _ h => ⟨h.holder, h.committed, h.unrevoked⟩
      cases hcall
      exact ⟨⟨hholds.1.holder, hholds.1.committed, hholds.1.unrevoked⟩, hholds.2⟩
    | recorded tokenHash grant client =>
      cases h
      exact hok.commitRedemption hholds.1 hholds.2.2
    | revoking tenantId grantId subjectId startedAt =>
      rcases revoke_cases h with rfl | ⟨grant, hgrant, hunrevoked, hfree, rfl⟩
      · exact hok.finish i
      · exact hok.take hfree (fun hself => hself) hgrant hunrevoked
    | revoked grant subjectId startedAt =>
      cases h
      exact hok.commitRevocation hholds subjectId startedAt
  | abort i =>
    cases h
    exact hok.finish i

end Locks

/-! ## What is committed, and what is denied -/

section Steps

variable {s s' : Delivery}

theorem DeliverySafe.of_ok (hP : DeliverySafe s) (hok : DeliveryOk s')
    (hredemptions : s'.redemptions = s.redemptions) (hdenials : s'.denials = s.denials)
    (hissued : ∀ grant ∈ s.issued, grant ∈ s'.issued) : DeliverySafe s' := by
  refine ⟨hok.counted, ?_, ?_, ?_, fun redemption hredemption => ?_⟩
  · rw [hredemptions]
    exact hP.unrevoked
  · rw [hredemptions]
    exact hP.unexpired
  · rw [hdenials]
    exact hP.redeemed
  · rw [hredemptions] at hredemption
    obtain ⟨issued, hmem, hsame⟩ := hP.issued redemption hredemption
    exact ⟨issued, hissued issued hmem, hsame⟩

theorem any_isLive_iff {tokenHash : String} {now : Int} {grants : List DownloadGrant} :
    (grants.any fun grant => grant.tokenHash == tokenHash && grant.isLive now) = true ↔
      HasLive grants tokenHash now := by
  simp only [List.any_eq_true, Bool.and_eq_true, beq_iff_eq, HasLive]

theorem deliverySafe_denied (hP : DeliverySafe s) (hok : DeliveryOk s') {denial : DownloadDenial}
    (hredemptions : s'.redemptions = s.redemptions) (hdenials : s'.denials = s.denials ++ [denial])
    (hissued : s'.issued = s.issued) : DeliverySafe s' ↔ denial.live = false := by
  constructor
  · intro h
    refine h.redeemed denial ?_
    rw [hdenials]
    exact List.mem_append_right _ (List.mem_singleton_self _)
  · intro h
    refine ⟨hok.counted, hredemptions ▸ hP.unrevoked, hredemptions ▸ hP.unexpired, ?_, ?_⟩
    · intro other hother
      rw [hdenials] at hother
      rcases List.mem_append.mp hother with hold | hnew
      · exact hP.redeemed other hold
      · rw [List.mem_singleton.mp hnew]
        exact h
    · rw [hredemptions, hissued]
      exact hP.issued

theorem deliverySafe_commitRedemption {i : Nat} {tokenHash : String} {grant : DownloadGrant}
    {client : DownloadClient} (hok : DeliveryOk s) (hP : DeliverySafe s)
    (hcall : s.calls i = some (.recorded tokenHash grant client)) :
    DeliverySafe (s.commitRedemption i tokenHash grant client) ↔ s.clock < grant.expiresAt := by
  obtain ⟨hheld, hhash, huses⟩ := hok.calls i _ hcall
  have hnew : (⟨tokenHash, grant, s.clock, s.grants.any fun row =>
      row.key == grant.key && row.revokedAt.isSome⟩ : DownloadRedemption) ∈
        (s.commitRedemption i tokenHash grant client).redemptions :=
    List.mem_append_right _ (List.mem_singleton_self _)
  have hunrevoked : (s.grants.any fun row => row.key == grant.key && row.revokedAt.isSome) = false := by
    refine List.any_eq_false.mpr fun row hrow hmatch => ?_
    obtain ⟨hkey, hrevoked⟩ := Bool.and_eq_true_iff.mp hmatch
    obtain rfl := eq_of_key_eq hok.keys hrow hheld.committed (beq_iff_eq.mp hkey)
    rw [hheld.unrevoked] at hrevoked
    cases hrevoked
  constructor
  · intro h
    exact h.unexpired _ hnew
  · intro hexpiry
    have hmem {redemption : DownloadRedemption}
        (h : redemption ∈ (s.commitRedemption i tokenHash grant client).redemptions) :
        redemption ∈ s.redemptions ∨ redemption = ⟨tokenHash, grant, s.clock, s.grants.any fun row =>
          row.key == grant.key && row.revokedAt.isSome⟩ :=
      (List.mem_append.mp h).imp_right List.mem_singleton.mp
    refine ⟨(hok.commitRedemption hheld huses).counted, fun redemption h => ?_,
      fun redemption h => ?_, hP.redeemed, fun redemption h => ?_⟩
    · rcases hmem h with hold | rfl
      · exact hP.unrevoked redemption hold
      · exact hunrevoked
    · rcases hmem h with hold | rfl
      · exact hP.unexpired redemption hold
      · exact hexpiry
    · rcases hmem h with hold | rfl
      · exact hP.issued redemption hold
      · obtain ⟨issued, hissued, hsame⟩ := hok.issued grant hheld.committed
        exact ⟨issued, hissued, hsame.tokenHash.trans hhash, hsame⟩

theorem deliverySafe_step {step : DeliveryStep} (hok : DeliveryOk s) (hP : DeliverySafe s)
    (h : deliveryStep s step = some s') : DeliverySafe s' ↔ Delivers s step := by
  have hok' := deliveryOk_step hok h
  cases step with
  | time now =>
    cases h
    exact iff_of_true (hP.of_ok hok' rfl rfl fun _ h => h) trivial
  | cases cases =>
    cases h
    exact iff_of_true (hP.of_ok hok' rfl rfl fun _ h => h) trivial
  | issue tenantId id tokenHash input =>
    obtain ⟨grant, rfl, -⟩ := issue_cases h
    exact iff_of_true (hP.of_ok hok' rfl rfl fun _ h => List.mem_append_left _ h) trivial
  | redeem i session tokenHash client =>
    rw [deliveryStep] at h
    split at h
    · cases h
      exact iff_of_true (hP.of_ok hok' rfl rfl fun _ h => h) trivial
    · cases h
  | revoke i tenantId grantId subjectId =>
    rw [deliveryStep] at h
    split at h
    · cases h
      exact iff_of_true (hP.of_ok hok' rfl rfl fun _ h => h) trivial
    · cases h
  | next i =>
    obtain ⟨call, hcall, h⟩ := Option.bind_eq_some_iff.mp h
    have hdelivers : Delivers s (.next i) ↔ call.Delivers s := by
      show (∀ other ∈ s.calls i, other.Delivers s) ↔ _
      rw [hcall]
      exact ⟨fun h => h call rfl, fun h other hother => Option.some.inj hother ▸ h⟩
    rw [hdelivers]
    cases call with
    | redeeming session tokenHash now client =>
      rcases redeem_cases hok h with ⟨hnone, rfl⟩ | ⟨grant, hgrant, hvisible, hhash, hlive, -, rfl⟩
      · refine (deliverySafe_denied hP hok' rfl rfl rfl).trans ?_
        rw [← Bool.not_eq_true, any_isLive_iff]
        exact ⟨fun h hlive => absurd hlive h, fun h hlive => hnone (h hlive)⟩
      · refine iff_of_true (hP.of_ok hok' rfl rfl fun _ h => h) fun _ => ?_
        exact ⟨grant, List.mem_filter.mpr ⟨hgrant, hvisible⟩, hhash, hlive⟩
    | redeemed tokenHash grant client =>
      cases h
      exact iff_of_true (hP.of_ok hok' rfl rfl fun _ h => h) trivial
    | recorded tokenHash grant client =>
      cases h
      exact deliverySafe_commitRedemption hok hP hcall
    | revoking tenantId grantId subjectId startedAt =>
      rcases revoke_cases h with rfl | ⟨grant, -, -, -, rfl⟩
      · exact iff_of_true (hP.of_ok hok' rfl rfl fun _ h => h) trivial
      · exact iff_of_true (hP.of_ok hok' rfl rfl fun _ h => h) trivial
    | revoked grant subjectId startedAt =>
      cases h
      exact iff_of_true (hP.of_ok hok' rfl rfl fun _ h => h) trivial
  | abort i =>
    cases h
    exact iff_of_true (hP.of_ok hok' rfl rfl fun _ h => h) trivial

end Steps

/-! ## Runs of the clients -/

/--
Whatever statements interleave: the counts, the limits, the revocations and the artifacts are right,
no redemption commits after the expiry and no live grant is denied, if and only if every redemption
of a live token runs in a session that sees a live grant of it, and no grant expires between the
start of its redemption and the commit.
-/
theorem deliverySafe_throughout_iff {clock : Int} {cases : List DeliverableCase}
    {steps : List DeliveryStep} {s : Delivery}
    (h : run deliveryStep (.new clock cases) steps = some s) :
    Throughout deliveryStep DeliverySafe (.new clock cases) steps ↔
      Meets deliveryStep Delivers (.new clock cases) steps := by
  refine throughout_iff_meets (fun s step s' hok h => deliveryOk_step hok h)
    (fun s step s' hok hP h => deliverySafe_step hok hP h) ?_ ?_ h
  · exact ⟨List.nodup_nil, List.forall_mem_nil _, List.forall_mem_nil _, List.forall_mem_nil _,
      List.forall_mem_nil _, fun _ _ h => nomatch h⟩
  · exact ⟨List.forall_mem_nil _, List.forall_mem_nil _, List.forall_mem_nil _,
      List.forall_mem_nil _, List.forall_mem_nil _⟩

def deliverableCase : DeliverableCase := ⟨"tenant-1", "case-1", "completed", true⟩

def singleUse : DeliveryStep :=
  .issue "tenant-1" "grant-1" "hash-1" ⟨"case-1", .SIGNED_DOCUMENT, 3600, 1⟩

def redemption (session : Option UUID) : List DeliveryStep :=
  [.redeem 0 session "hash-1" ⟨none, none⟩, .next 0, .next 0, .next 0]

instance (grants : List DownloadGrant) (tokenHash : String) (now : Int) :
    Decidable (HasLive grants tokenHash now) :=
  inferInstanceAs (Decidable (∃ grant ∈ grants, grant.tokenHash = tokenHash ∧ grant.isLive now = true))

instance (s : Delivery) : (call : DeliveryCall) → Decidable (call.Delivers s)
  | .redeeming _ tokenHash now _ => inferInstanceAs (Decidable (HasLive s.grants tokenHash now → _))
  | .recorded _ grant _ => inferInstanceAs (Decidable (s.clock < grant.expiresAt))
  | .redeemed .. | .revoking .. | .revoked .. => isTrue trivial

instance (s : Delivery) : (step : DeliveryStep) → Decidable (Delivers s step)
  | .next i => inferInstanceAs (Decidable (∀ call ∈ s.calls i, call.Delivers s))
  | .time _ | .cases _ | .issue .. | .redeem .. | .revoke .. | .abort _ => isTrue trivial

theorem deliverySafe_throughout_redeemed : Throughout deliveryStep DeliverySafe
    (.new 0 [deliverableCase])
    (singleUse :: redemption (some "tenant-1") ++ [.revoke 1 "tenant-1" "grant-1" "user-1", .next 1,
      .next 1]) := by
  obtain ⟨s, hs⟩ := Option.isSome_iff_exists.mp (show (run deliveryStep (.new 0 [deliverableCase])
    (singleUse :: redemption (some "tenant-1") ++ [.revoke 1 "tenant-1" "grant-1" "user-1", .next 1,
      .next 1])).isSome = true by decide +kernel)
  exact (deliverySafe_throughout_iff hs).mpr (by decide +kernel)

/-- The token alone opens the session: the policy shows it no row. -/
theorem not_deliverySafe_without_tenant : ¬∀ (clock : Int) (cases : List DeliverableCase)
    (steps : List DeliveryStep) (s : Delivery),
    run deliveryStep (.new clock cases) steps = some s →
      Throughout deliveryStep DeliverySafe (.new clock cases) steps := by
  intro hall
  have hrun : (run deliveryStep (.new 0 [deliverableCase])
      (singleUse :: (redemption none).take 2)).map (·.denials) = some [⟨"hash-1", true⟩] := by
    decide +kernel
  obtain ⟨s, hs, hdenials⟩ := Option.map_eq_some_iff.mp hrun
  have hlast : DeliverySafe s := (hall _ _ _ s hs).last hs
  have hredeemed := hlast.redeemed
  rw [hdenials] at hredeemed
  exact absurd (hredeemed _ List.mem_cons_self) (by decide)

end Kommunsign
