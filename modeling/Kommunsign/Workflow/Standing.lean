import Kommunsign.Workflow.Effects

/-!
# What stands in every reachable state

* `Standing` — keys that occur once, signers that satisfy their constraints, invitations of
  signers whose turn has come, sessions of intents that exist, and cases that are never in progress
* `case?_of_isEnded` — a case that has ended stays as it is
-/

namespace Kommunsign

open Infra

/-- The statuses that a case of the workflow can have: nothing makes it `in_progress`. -/
def CaseStatus.isReached : CaseStatus → Bool
  | .ready | .sent | .declined | .expired | .cancelled => true
  | _ => false

theorem eq_sent_of_isOpen {status : CaseStatus} (hreached : status.isReached = true)
    (hopen : status.isOpen = true) : status = .sent := by
  cases status <;> revert hreached hopen <;> decide

structure Standing (s : Sys) : Prop where
  casesKeyed : (s.db.cases.map (·.id)).Nodup
  signersKeyed : (s.db.signers.map (·.id)).Nodup
  reached : ∀ c ∈ s.db.cases, c.status.isReached = true
  consistent : ∀ signer ∈ s.db.signers,
    refuse (Tables.signerConstraints s.db signer) = .ok ()
  invitations : ∀ i ∈ s.db.invitations, i.createdAt ≤ s.clock ∧
    ∃ signer ∈ s.db.signers, signer.id = i.signerId ∧ 1 ≤ signer.status.stage
  sessions : ∀ t ∈ s.db.identityTransactions, ∀ i ∈ t.signingIntentId,
    (s.db.intent? i).isSome = true

/-! ## Rows before and after -/

section Rows

variable {e : Effect} {now : Time} {db db' : Db}

theorem Leaves.case? (h : Leaves e now db db') {id : Id} {c : SignatureCase}
    (hc : db.case? id = some c) : ∃ c', db'.case? id = some c' ∧ CaseChange e c c' :=
  h.cases.find?_eq_some (fun _ _ hchange => hchange.id) hc

theorem Leaves.signer? (h : Leaves e now db db') {id : Id} {s : Signer}
    (hs : db.signer? id = some s) : ∃ s', db'.signer? id = some s' ∧ SignerChange e s s' :=
  h.signers.find?_eq_some (fun _ _ hchange => hchange.id) hs

theorem Leaves.case?_before (h : Leaves e now db db') {id : Id} {c' : SignatureCase}
    (hc : db'.case? id = some c') : ∃ c, db.case? id = some c ∧ CaseChange e c c' :=
  h.cases.find?_before (fun _ _ hchange => hchange.id) hc

theorem Leaves.signer?_before (h : Leaves e now db db') {id : Id} {s' : Signer}
    (hs : db'.signer? id = some s') : ∃ s, db.signer? id = some s ∧ SignerChange e s s' :=
  h.signers.find?_before (fun _ _ hchange => hchange.id) hs

theorem Leaves.casesKeyed (h : Leaves e now db db') (hkeys : (db.cases.map (·.id)).Nodup) :
    (db'.cases.map (·.id)).Nodup := by
  rw [h.cases.map_eq fun _ _ hchange => hchange.id]
  exact hkeys

theorem Leaves.signersKeyed (h : Leaves e now db db') (hkeys : (db.signers.map (·.id)).Nodup) :
    (db'.signers.map (·.id)).Nodup := by
  rw [h.signers.map_eq fun _ _ hchange => hchange.id]
  exact hkeys

theorem Leaves.consistent (h : Leaves e now db db')
    (hconsistent : ∀ s ∈ db.signers, refuse (Tables.signerConstraints db s) = .ok ()) :
    ∀ s ∈ db'.signers, refuse (Tables.signerConstraints db' s) = .ok () := by
  intro s' hs'
  obtain ⟨s, hs, hchange⟩ := h.signers.exists_before hs'
  have hold := hconsistent s hs
  simp only [Tables.signerConstraints, refuse_append, refuse_violates] at hold ⊢
  obtain ⟨⟨hcase, horder⟩, hmode⟩ := hold
  obtain ⟨c, hc⟩ := Option.isSome_iff_exists.mp (Option.isNone_eq_false_iff.mp hcase)
  obtain ⟨c', hc', -⟩ := h.case? hc
  refine ⟨⟨?_, ?_⟩, ?_⟩
  · rw [hchange.toSignerMove.signatureCaseId, hc']
    rfl
  · rw [show s'.signingOrder = s.signingOrder from congrArg (·.signingOrder) hchange.binding]
    exact horder
  · have hsame : Tables.bindingConsistent s' = Tables.bindingConsistent s := by
      unfold Tables.bindingConsistent
      rw [hchange.mode, hchange.exception,
        show s'.expectedIdentifier = s.expectedIdentifier from
          congrArg (·.expectedIdentifier) hchange.binding]
    rw [hsame]
    exact hmode

end Rows

/-! ## Every step keeps it -/

variable {s s' : Sys}

theorem clock_le_of_step {i : Step} (h : Sys.step s i = some s') : s.clock ≤ s'.clock := by
  cases i with
  | tick duration =>
    cases h
    exact Nat.le_add_right _ _
  | prepareCase | send | cancel | expire | remind | delivery | markOpened | decline
  | sessionStatus | cancelSession | pollIdentity =>
    obtain ⟨_, _, rfl⟩ := Sys.commit_eq_some.mp h
    exact le_rfl
  | collectEvidence | failIdentity | buildPackage =>
    obtain ⟨_, _, _, rfl⟩ := Sys.work_eq_some.mp h
    exact le_rfl
  | startSession =>
    obtain ⟨_, _, _, rfl⟩ := step_startSession h
    exact le_rfl
  | recordSession =>
    obtain ⟨_, _, _, _, rfl⟩ := step_recordSession h
    exact le_rfl
  | completeSession =>
    obtain ⟨_, _, _, rfl⟩ := step_completeSession h
    exact le_rfl
  | readEvidence =>
    obtain ⟨_, _, rfl⟩ := step_readEvidence h
    exact le_rfl
  | recordVerification =>
    obtain ⟨_, _, _, _, rfl⟩ := step_recordVerification h
    exact le_rfl
  | startCreate =>
    obtain ⟨_, _, _, rfl⟩ := step_startCreate h
    exact le_rfl
  | markSigning =>
    obtain ⟨_, _, _, _, _, _, rfl⟩ := step_markSigning h
    exact le_rfl
  | skipDocument =>
    obtain ⟨_, _, _, _, _, _, rfl⟩ := step_skipDocument h
    exact le_rfl
  | loadRevision =>
    obtain ⟨_, _, _, _, _, _, _, _, rfl⟩ := step_loadRevision h
    exact le_rfl
  | commitSignature =>
    obtain ⟨_, _, _, _, _, _, _, _, _, rfl⟩ := step_commitSignature h
    exact le_rfl
  | dropCreate =>
    cases h
    exact le_rfl
  | readValidate =>
    obtain ⟨_, _, _, rfl⟩ := step_readValidate h
    exact le_rfl
  | commitValidation =>
    obtain ⟨_, _, _, _, rfl⟩ := step_commitValidation h
    exact le_rfl

theorem isReached_of_effect {i : Step} {id : Id} {old new : CaseStatus}
    (hmay : (stepEffect s i).case id old new) (hallowed : new ∈ old.allowed)
    (hold : old.isReached = true) : new.isReached = true := by
  cases caseTransition_of_effect hmay with
  | sends | cancels | expires | declines => rfl
  | completes =>
    -- only a case in progress could be completed
    cases old <;> revert hallowed hold <;> decide

theorem Standing.of_leaves {e : Effect} {now : Time} (h : Standing s)
    (hleaves : Leaves e now s.db s'.db) (hnow : now ≤ s'.clock) (hclock : s.clock ≤ s'.clock)
    (hreached : ∀ id old new, e.case id old new → new ∈ CaseStatus.allowed old →
      old.isReached = true → new.isReached = true) : Standing s' where
  casesKeyed := hleaves.casesKeyed h.casesKeyed
  signersKeyed := hleaves.signersKeyed h.signersKeyed
  reached := by
    intro c' hc'
    obtain ⟨c, hc, hchange⟩ := hleaves.cases.exists_before hc'
    exact hchange.change.keeps (fun a b hallowed hmay => hreached _ a b hmay hallowed)
      (h.reached c hc)
  consistent := hleaves.consistent h.consistent
  invitations := by
    intro i' hi'
    rcases hleaves.invitations i' hi' with ⟨i, hi, hmove⟩ | ⟨hle, -, hexists⟩
    · obtain ⟨hle, signer, hs, hid, hstage⟩ := h.invitations i hi
      obtain ⟨signer', hs', hchange⟩ := hleaves.signers.exists_after hs
      exact ⟨hmove.createdAt ▸ hle.trans hclock, signer', hs',
        (hchange.id.trans hid).trans hmove.signerId.symm, hstage.trans hchange.stage_le⟩
    · exact ⟨hle.trans hnow, hexists⟩
  sessions := by
    intro t' ht'
    rcases hleaves.sessions t' ht' with ⟨t, ht, hintent⟩ | hnew
    · rw [hintent]
      exact fun i hi => isSome_intent? hleaves.intents (h.sessions t ht i hi)
    · exact hnew

theorem Standing.withCase (h : Standing s) {intake : Intake} (haccepted : intake.Accepted s.db) :
    Standing { s with db := s.db.withCase intake } where
  casesKeyed := by
    refine nodup_append_of_fresh h.casesKeyed fun before c after heq row hrow => ?_
    cases before with
    | nil =>
      obtain ⟨rfl, -⟩ := List.cons_eq_cons.mp heq
      rw [List.append_nil] at hrow
      exact haccepted.newCase row hrow
    | cons first before => simp at heq
  signersKeyed := nodup_append_of_fresh h.signersKeyed haccepted.signers
  reached := by
    intro c hc
    rcases List.mem_append.mp hc with hold | hnew
    · exact h.reached c hold
    · rw [List.mem_singleton.mp hnew]
      have hready := haccepted.ready
      simp only [Intake.isReady, Bool.and_eq_true, beq_iff_eq] at hready
      rw [hready.1.1.1]
      rfl
  consistent := by
    intro signer hs
    rcases List.mem_append.mp hs with hold | hnew
    · have hrow := h.consistent signer hold
      simp only [Tables.signerConstraints, refuse_append, refuse_violates] at hrow ⊢
      obtain ⟨⟨hcase, horder⟩, hmode⟩ := hrow
      obtain ⟨c, hc⟩ := Option.isSome_iff_exists.mp (Option.isNone_eq_false_iff.mp hcase)
      refine ⟨⟨?_, horder⟩, hmode⟩
      rw [Db.case?] at hc
      rw [Db.case?, Db.withCase, List.find?_append, hc]
      rfl
    · exact haccepted.consistent signer hnew
  invitations := by
    intro i hi
    obtain ⟨hle, signer, hs, hid⟩ := h.invitations i hi
    exact ⟨hle, signer, List.mem_append_left _ hs, hid⟩
  sessions := h.sessions

/-! ## Rows after a step -/

theorem intake_or_leaves {i : Step} (hstep : Sys.step s i = some s') :
    (∃ intake, i = .prepareCase intake ∧ intake.Accepted s.db ∧
      s' = { s with db := s.db.withCase intake }) ∨ Leaves (stepEffect s i) s.clock s.db s'.db := by
  by_cases hintake : ∃ intake, i = .prepareCase intake
  · obtain ⟨intake, rfl⟩ := hintake
    obtain ⟨db, hok, rfl⟩ := Sys.commit_eq_some.mp hstep
    obtain ⟨haccepted, rfl⟩ := prepareCase_eq hok
    exact Or.inl ⟨intake, rfl, haccepted, rfl⟩
  · exact Or.inr (leaves_of_step hstep fun intake heq => hintake ⟨intake, heq⟩)

theorem case?_of_step {i : Step} (hstep : Sys.step s i = some s') {id : Id} {c : SignatureCase}
    (hc : s.db.case? id = some c) :
    ∃ c', s'.db.case? id = some c' ∧ CaseChange (stepEffect s i) c c' := by
  rcases intake_or_leaves hstep with ⟨intake, rfl, -, rfl⟩ | hleaves
  · refine ⟨c, ?_, CaseChange.refl _ c⟩
    rw [Db.case?] at hc
    rw [Db.case?, Db.withCase, List.find?_append, hc]
    rfl
  · exact hleaves.case? hc

theorem case?_before_step {i : Step} (hstep : Sys.step s i = some s') {id : Id}
    {c' : SignatureCase} (hc' : s'.db.case? id = some c') :
    (∃ c, s.db.case? id = some c ∧ CaseChange (stepEffect s i) c c') ∨
      s.db.case? id = none ∧ c'.status = .ready := by
  rcases intake_or_leaves hstep with ⟨intake, rfl, haccepted, rfl⟩ | hleaves
  · rw [Db.case?, Db.withCase, List.find?_append] at hc'
    cases hold : s.db.case? id with
    | some c =>
      rw [Db.case?] at hold
      rw [hold, Option.some_or, Option.some.injEq] at hc'
      exact Or.inl ⟨c, rfl, hc' ▸ CaseChange.refl _ c⟩
    | none =>
      rw [Db.case?] at hold
      rw [hold, Option.none_or] at hc'
      have hready := haccepted.ready
      simp only [Intake.isReady, Bool.and_eq_true, List.all_eq_true, beq_iff_eq] at hready
      obtain rfl := List.mem_singleton.mp (List.mem_of_find?_eq_some hc')
      exact Or.inr ⟨rfl, hready.1.1.1⟩
  · exact Or.inl (hleaves.case?_before hc')

theorem signer?_of_step {i : Step} (hstep : Sys.step s i = some s') {id : Id} {signer : Signer}
    (hsigner : s.db.signer? id = some signer) :
    ∃ signer', s'.db.signer? id = some signer' ∧ SignerChange (stepEffect s i) signer signer' := by
  rcases intake_or_leaves hstep with ⟨intake, rfl, -, rfl⟩ | hleaves
  · refine ⟨signer, ?_, SignerChange.refl _ signer⟩
    rw [Db.signer?] at hsigner
    rw [Db.signer?, Db.withCase, List.find?_append, hsigner]
    rfl
  · exact hleaves.signer? hsigner

theorem signer?_before_step {i : Step} (hstep : Sys.step s i = some s') {id : Id}
    {signer' : Signer} (hsigner' : s'.db.signer? id = some signer') :
    (∃ signer, s.db.signer? id = some signer ∧ SignerChange (stepEffect s i) signer signer') ∨
      s.db.signer? id = none ∧ s.db.case? signer'.signatureCaseId = none ∧
        signer'.status = .pending := by
  rcases intake_or_leaves hstep with ⟨intake, rfl, haccepted, rfl⟩ | hleaves
  · rw [Db.signer?, Db.withCase, List.find?_append] at hsigner'
    cases hold : s.db.signer? id with
    | some signer =>
      rw [Db.signer?] at hold
      rw [hold, Option.some_or, Option.some.injEq] at hsigner'
      exact Or.inl ⟨signer, rfl, hsigner' ▸ SignerChange.refl _ signer⟩
    | none =>
      rw [Db.signer?] at hold
      rw [hold, Option.none_or] at hsigner'
      have hready := haccepted.ready
      simp only [Intake.isReady, Bool.and_eq_true, List.all_eq_true, beq_iff_eq] at hready
      obtain ⟨hcase, hpending⟩ := hready.2 signer' (List.mem_of_find?_eq_some hsigner')
      refine Or.inr ⟨rfl, ?_, hpending⟩
      rw [hcase, Db.case?, List.find?_eq_none]
      intro c hc hid
      exact haccepted.newCase c hc (beq_iff_eq.mp hid)
  · exact Or.inl (hleaves.signer?_before hsigner')

/-! ## Cases that have ended -/

/-- The statuses that a case can leave only for the archive. -/
def CaseStatus.isEnded : CaseStatus → Bool
  | .completed | .declined | .expired | .cancelled | .failed => true
  | _ => false

theorem case?_of_isEnded {i : Step} (hstep : Sys.step s i = some s') {id : Id} {c : SignatureCase}
    (hc : s.db.case? id = some c) (hended : c.status.isEnded = true) :
    ∃ c', s'.db.case? id = some c' ∧ c'.status = c.status := by
  obtain ⟨c', hc', hchange⟩ := case?_of_step hstep hc
  refine ⟨c', hc', hchange.change.keeps (P := fun status => status = c.status) ?_ rfl⟩
  rintro status new hallowed hmay rfl
  -- every transition out of an ended status goes to the archive
  have harchive : new = .archiving := by
    revert hallowed hended
    cases c.status <;> simp [CaseStatus.allowed, CaseStatus.isEnded]
  subst harchive
  cases caseTransition_of_effect hmay

/-! ## Every reachable state -/

theorem standing_of_step {i : Step} (h : Standing s) (hstep : Sys.step s i = some s') :
    Standing s' := by
  rcases intake_or_leaves hstep with ⟨intake, -, haccepted, rfl⟩ | hleaves
  · exact h.withCase haccepted
  · have hclock := clock_le_of_step hstep
    exact h.of_leaves hleaves hclock hclock fun _ _ _ hmay hallowed hold =>
      isReached_of_effect hmay hallowed hold

theorem standing_start (tenantId : Text) (organizationName : Option Text) (rollout : Bool)
    (clock : Time) : Standing (Sys.start tenantId organizationName rollout clock) where
  casesKeyed := List.nodup_nil
  signersKeyed := List.nodup_nil
  reached _ h := absurd h List.not_mem_nil
  consistent _ h := absurd h List.not_mem_nil
  invitations _ h := absurd h List.not_mem_nil
  sessions _ h := absurd h List.not_mem_nil

theorem standing_of_reachable (h : s.Reachable) : Standing s := by
  refine h.induction standing_start ?_
  intro _ _ _ _ hinv hstep
  exact standing_of_step hinv hstep

end Kommunsign
