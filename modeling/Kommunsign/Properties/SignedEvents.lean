import Kommunsign.Workflow.InFlight

/-!
# The announcement of a signed signer

When the last signature of a signer is admitted, `handlePadesValidate` moves the signer from
`signing` to `signed`, packages the intent, uses up the invitations and announces `signer.signed`.
Only the first of these asks for the signer's status, and its row count is not looked at.

* `CompletesSigning` — the last signature of a signer is admitted while the signer is signing
* `meets_announcesSigned_iff` — the steps of a run do the former exactly when they do the latter
-/

namespace Kommunsign

open Infra

/-- `signer.signed` is announced for signed signers only, at most once on each channel. -/
structure SignedAnnounced (s : Sys) : Prop where
  signed : ∀ channel id, ⟨channel, .signer_signed, id⟩ ∈ s.db.events →
    (s.db.signer? id).map (·.status) = some .signed
  once : ∀ channel id, s.db.events.count ⟨channel, .signer_signed, id⟩ ≤ 1

/-- A validation changes an intent, or uses up an invitation, for a signer who is then signed. -/
def FinishesSigned (s : Sys) (i : Step) (s' : Sys) : Prop :=
  ∀ index run, i = .commitValidation index → s.validates[index]? = some run →
    s'.db.intents ≠ s.db.intents ∨
      (∃ invitation ∈ s'.db.invitations, invitation.usedAt.isSome = true ∧
        invitation ∉ s.db.invitations) →
    (s'.db.signer? run.signerId).map (·.status) = some .signed

def AnnouncesSigned (s : Sys) (i : Step) : Prop :=
  ∀ s', Sys.step s i = some s' → SignedAnnounced s' ∧ FinishesSigned s i s'

/-- A validation that leaves nothing outstanding is that of a signer who is signing. -/
def CompletesSigning (s : Sys) (i : Step) : Prop :=
  ∀ index run, i = .commitValidation index → s.validates[index]? = some run →
    s.db.completes run = true → (s.db.signer? run.signerId).map (·.status) = some .signing

structure AnnouncedInv (s : Sys) : Prop extends SignedAnnounced s where
  announced : ∀ channel id, (s.db.signer? id).map (·.status) = some .signed →
    ⟨channel, .signer_signed, id⟩ ∈ s.db.events

section Steps

variable {s s' : Sys} {i : Step} {channel : Channel} {id : Id}

def Completes (s : Sys) (i : Step) (id : Id) : Prop :=
  ∃ index run, i = .commitValidation index ∧ s.validates[index]? = some run ∧
    s.db.completes run = true ∧ run.signerId = id

theorem count_signer_signed (hstep : Sys.step s i = some s') (hnot : ¬Completes s i id) :
    s'.db.events.count ⟨channel, .signer_signed, id⟩ =
      s.db.events.count ⟨channel, .signer_signed, id⟩ := by
  rcases intake_or_leaves hstep with ⟨intake, rfl, -, rfl⟩ | hleaves
  · rfl
  rcases hleaves.events ⟨channel, .signer_signed, id⟩ rfl with hsame | hannounced
  · exact hsame
  · cases i with
    | commitValidation index =>
      obtain ⟨-, run, hrun, hid, hcompletes⟩ := hannounced
      exact absurd ⟨index, run, rfl, hrun, hcompletes, hid⟩ hnot
    | buildPackage c signerId =>
      cases signerId with
      | some signerId => cases hannounced
      | none => cases hannounced.1
    | tick | prepareCase | send | cancel | expire | remind | delivery | markOpened | decline
    | startSession | recordSession | sessionStatus | cancelSession | pollIdentity
    | completeSession | collectEvidence | failIdentity | readEvidence | recordVerification
    | startCreate | markSigning | skipDocument | loadRevision | commitSignature | dropCreate
    | readValidate => cases hannounced

theorem signed_iff_of_step (hstep : Sys.step s i = some s') (hnot : ¬Completes s i id) :
    (s'.db.signer? id).map (·.status) = some .signed ↔
      (s.db.signer? id).map (·.status) = some .signed := by
  constructor
  · intro hsigned
    obtain ⟨signer', hsigner', hstatus⟩ := Option.map_eq_some_iff.mp hsigned
    rcases signer?_before_step hstep hsigner' with ⟨signer, hsigner, hchange⟩ | ⟨-, -, hpending⟩
    · rw [hsigner, Option.map_some, Option.some.injEq]
      by_contra hunsigned
      refine hchange.change.keeps (P := fun status => status ≠ .signed) ?_ hunsigned hstatus
      rintro old new - hmay - rfl
      cases signerTransition_of_effect hmay with
      | signs index run hrun hid hcompletes =>
        rw [(exists_of_find?_key hsigner).2] at hid
        exact hnot ⟨index, run, rfl, hrun, hcompletes, hid⟩
    · rw [hpending] at hstatus
      cases hstatus
  · intro hsigned
    obtain ⟨signer, hsigner, hstatus⟩ := Option.map_eq_some_iff.mp hsigned
    obtain ⟨signer', hsigner', hchange⟩ := signer?_of_step hstep hsigner
    rw [hsigner', Option.map_some, Option.some.injEq]
    refine hchange.change.keeps (P := fun status => status = .signed) ?_ hstatus
    -- nothing follows `signed` in the table
    rintro old new hallowed - rfl
    cases hallowed

theorem leaves_of_completes {index : Nat} {run : PadesValidateRun}
    (hstep : Sys.step s (.commitValidation index) = some s')
    (hrun : s.validates[index]? = some run) (hcompletes : s.db.completes run = true) :
    Leaves (Effect.inviting (s.db.withValidation run) s.clock run) s.clock
      ((s.db.withValidation run).withSigned s.clock run) s'.db := by
  obtain ⟨run₁, db, hrun₁, hok, rfl⟩ := step_commitValidation hstep
  obtain rfl := Option.some.inj (hrun.symm.trans hrun₁)
  rcases commitValidation_eq hok with ⟨hrefused, -⟩ | ⟨-, ⟨-, hnot, -⟩ | ⟨-, hsigner⟩⟩
  · rw [Db.completes, hrefused] at hcompletes
    cases hcompletes
  · rw [hcompletes] at hnot
    cases hnot
  · exact completeSigner_leaves rfl (fun _ _ hcalled => ⟨rfl, rfl, hcalled⟩) (fun _ _ => id) hsigner

theorem count_of_completes {index : Nat} {run : PadesValidateRun}
    (hstep : Sys.step s (.commitValidation index) = some s')
    (hrun : s.validates[index]? = some run) (hcompletes : s.db.completes run = true) :
    s'.db.events.count ⟨channel, .signer_signed, run.signerId⟩ =
      s.db.events.count ⟨channel, .signer_signed, run.signerId⟩ + 1 := by
  have hleaves := leaves_of_completes hstep hrun hcompletes
  rcases hleaves.events ⟨channel, .signer_signed, run.signerId⟩ rfl with hsame | hannounced
  · rw [hsame, Db.withSigned, Db.withValidation, List.count_append, List.count_append,
      List.count_append]
    cases channel <;> simp
  · cases hannounced

theorem signed_iff_of_completes {index : Nat} {run : PadesValidateRun}
    (hstep : Sys.step s (.commitValidation index) = some s')
    (hrun : s.validates[index]? = some run) (hcompletes : s.db.completes run = true) :
    (s'.db.signer? run.signerId).map (·.status) = some .signed ↔
      (s.db.signer? run.signerId).map (·.status) = some .signing ∨
        (s.db.signer? run.signerId).map (·.status) = some .signed := by
  have hleaves := leaves_of_completes hstep hrun hcompletes
  have hfind : ((s.db.withValidation run).withSigned s.clock run).signer? run.signerId =
      (s.db.signer? run.signerId).map fun row =>
        if (row.id == run.signerId && row.status == .signing) = true then
          { row with status := .signed } else row :=
    find?_assign (fun row : Signer => row.id) fun _ _ _ => rfl
  cases hrow : s.db.signer? run.signerId with
  | none =>
    rw [hrow, Option.map_none] at hfind
    refine iff_of_false (fun hsigned => ?_) (by simp)
    obtain ⟨signer', hsigner', -⟩ := Option.map_eq_some_iff.mp hsigned
    obtain ⟨signer, hsigner, -⟩ := hleaves.signer?_before hsigner'
    rw [hfind] at hsigner
    cases hsigner
  | some row =>
    rw [hrow, Option.map_some] at hfind
    have hid : row.id = run.signerId := (exists_of_find?_key hrow).2
    obtain ⟨signer', hsigner', hchange⟩ := hleaves.signer? hfind
    -- inviting others neither signs the signer nor takes a signature back
    have hsame : signer'.status = .signed ↔
        (if (row.id == run.signerId && row.status == .signing) = true then
          { row with status := .signed } else row).status = .signed := by
      constructor
      · intro hsigned
        by_contra hunsigned
        refine hchange.change.keeps (P := fun status => status ≠ .signed) ?_ hunsigned hsigned
        rintro old new - ⟨-, rfl, -⟩ -
        exact nofun
      · intro hsigned
        refine hchange.change.keeps (P := fun status => status = .signed) ?_ hsigned
        rintro old new hallowed - rfl
        cases hallowed
    rw [hsigner', Option.map_some, Option.map_some, Option.some.injEq, Option.some.injEq,
      Option.some.injEq, hsame]
    by_cases hsigning : row.status = .signing
    · simp [hid, hsigning]
    · simp [hsigning]

theorem finishesSigned_of_not_completes (hstep : Sys.step s i = some s')
    (hnot : ∀ id, ¬Completes s i id) : FinishesSigned s i s' := by
  rintro index run rfl hrun hfinishes
  exfalso
  obtain ⟨run₁, db, hrun₁, hok, rfl⟩ := step_commitValidation hstep
  obtain rfl := Option.some.inj (hrun.symm.trans hrun₁)
  have hsame : db.intents = s.db.intents ∧ db.invitations = s.db.invitations := by
    rcases commitValidation_eq hok with ⟨-, hrefuse⟩ | ⟨-, ⟨-, -, rfl⟩ | ⟨hcompletes, -⟩⟩
    · obtain ⟨hintents, hinvitations, -⟩ := refuseSignature_eq hrefuse
      exact ⟨hintents, hinvitations⟩
    · exact ⟨rfl, rfl⟩
    · exact absurd ⟨index, run, rfl, hrun, hcompletes, rfl⟩ (hnot run.signerId)
  rcases hfinishes with hintents | ⟨invitation, hmem, -, hnew⟩
  · exact hintents hsame.1
  · exact hnew (hsame.2 ▸ hmem)

theorem announcedInv_of_not_completes (h : AnnouncedInv s) (hstep : Sys.step s i = some s')
    (hnot : ∀ id, ¬Completes s i id) : AnnouncedInv s' := by
  have hmem : ∀ channel id, ⟨channel, .signer_signed, id⟩ ∈ s'.db.events ↔
      ⟨channel, .signer_signed, id⟩ ∈ s.db.events := by
    intro channel id
    rw [← List.count_pos_iff, ← List.count_pos_iff, count_signer_signed hstep (hnot id)]
  refine ⟨⟨fun channel id hevent => ?_, fun channel id => ?_⟩, fun channel id hsigned => ?_⟩
  · rw [signed_iff_of_step hstep (hnot id)]
    exact h.signed channel id ((hmem channel id).mp hevent)
  · rw [count_signer_signed hstep (hnot id)]
    exact h.once channel id
  · rw [hmem]
    exact h.announced channel id ((signed_iff_of_step hstep (hnot id)).mp hsigned)

theorem eq_of_completes {index : Nat} {run : PadesValidateRun}
    (hrun : s.validates[index]? = some run) (h : Completes s (.commitValidation index) id) :
    run.signerId = id := by
  obtain ⟨index₁, run₁, heq, hrun₁, -, hid⟩ := h
  cases heq
  obtain rfl := Option.some.inj (hrun.symm.trans hrun₁)
  exact hid

theorem announcedInv_of_completes (h : AnnouncedInv s) {index : Nat} {run : PadesValidateRun}
    (hstep : Sys.step s (.commitValidation index) = some s')
    (hrun : s.validates[index]? = some run) (hcompletes : s.db.completes run = true)
    (hsigning : (s.db.signer? run.signerId).map (·.status) = some .signing) : AnnouncedInv s' := by
  have hsigned : (s'.db.signer? run.signerId).map (·.status) = some .signed :=
    (signed_iff_of_completes hstep hrun hcompletes).mpr (Or.inl hsigning)
  have hzero : ∀ channel, s.db.events.count ⟨channel, .signer_signed, run.signerId⟩ = 0 := by
    intro channel
    rw [List.count_eq_zero]
    intro hmem
    have hbefore := h.signed channel run.signerId hmem
    rw [hsigning] at hbefore
    cases hbefore
  have hcount : ∀ channel, s'.db.events.count ⟨channel, .signer_signed, run.signerId⟩ = 1 := by
    intro channel
    rw [count_of_completes hstep hrun hcompletes, hzero]
  have hother : ∀ id, id ≠ run.signerId → ¬Completes s (.commitValidation index) id :=
    fun id hne hother => hne (eq_of_completes hrun hother).symm
  have hmem : ∀ channel id, id ≠ run.signerId →
      (⟨channel, .signer_signed, id⟩ ∈ s'.db.events ↔
        ⟨channel, .signer_signed, id⟩ ∈ s.db.events) := by
    intro channel id hne
    rw [← List.count_pos_iff, ← List.count_pos_iff, count_signer_signed hstep (hother id hne)]
  refine ⟨⟨fun channel id hevent => ?_, fun channel id => ?_⟩, fun channel id hrow => ?_⟩
  · by_cases hid : id = run.signerId
    · rw [hid]
      exact hsigned
    · rw [signed_iff_of_step hstep (hother id hid)]
      exact h.signed channel id ((hmem channel id hid).mp hevent)
  · by_cases hid : id = run.signerId
    · rw [hid, hcount channel]
    · rw [count_signer_signed hstep (hother id hid)]
      exact h.once channel id
  · by_cases hid : id = run.signerId
    · rw [hid, ← List.count_pos_iff, hcount channel]
      exact Nat.one_pos
    · rw [hmem channel id hid]
      exact h.announced channel id ((signed_iff_of_step hstep (hother id hid)).mp hrow)

theorem announcedInv_of_step (h : AnnouncedInv s) (hsigning : CompletesSigning s i)
    (hstep : Sys.step s i = some s') : AnnouncedInv s' := by
  by_cases hcompletes : ∃ id, Completes s i id
  · obtain ⟨id, index, run, rfl, hrun, hcompletes, rfl⟩ := hcompletes
    exact announcedInv_of_completes h hstep hrun hcompletes
      (hsigning index run rfl hrun hcompletes)
  · exact announcedInv_of_not_completes h hstep fun id hid => hcompletes ⟨id, hid⟩

theorem announcesSigned_iff (h : AnnouncedInv s) (hstep : Sys.step s i = some s') :
    AnnouncesSigned s i ↔ CompletesSigning s i := by
  constructor
  · rintro hannounces index run rfl hrun hcompletes
    obtain ⟨hannounced, -⟩ := hannounces s' hstep
    have hcount : s'.db.events.count ⟨.audit, .signer_signed, run.signerId⟩ =
        s.db.events.count ⟨.audit, .signer_signed, run.signerId⟩ + 1 :=
      count_of_completes hstep hrun hcompletes
    have hmem : ⟨.audit, .signer_signed, run.signerId⟩ ∈ s'.db.events := by
      rw [← List.count_pos_iff, hcount]
      exact Nat.succ_pos _
    have hsigned := hannounced.signed .audit run.signerId hmem
    rcases (signed_iff_of_completes hstep hrun hcompletes).mp hsigned with hsigning | halready
    · exact hsigning
    · -- the signer was announced before, and is now announced again
      have hbefore := List.count_pos_iff.mpr (h.announced .audit run.signerId halready)
      have honce := hannounced.once .audit run.signerId
      omega
  · intro hsigning s₁ hs₁
    obtain rfl : s' = s₁ := Option.some.inj (hstep.symm.trans hs₁)
    refine ⟨(announcedInv_of_step h hsigning hstep).toSignedAnnounced, ?_⟩
    by_cases hcompletes : ∃ id, Completes s i id
    · rintro index run rfl hrun -
      obtain ⟨id, index₁, run₁, heq, hrun₁, hcompletes, -⟩ := hcompletes
      cases heq
      obtain rfl := Option.some.inj (hrun.symm.trans hrun₁)
      exact (signed_iff_of_completes hstep hrun hcompletes).mpr
        (Or.inl (hsigning index run rfl hrun hcompletes))
    · exact finishesSigned_of_not_completes hstep fun id hid => hcompletes ⟨id, hid⟩

end Steps

/-! ## Runs -/

/-- The steps of a run announce signed signers only exactly when they complete signing ones only. -/
theorem meets_announcesSigned_iff {tenantId : Text} {organizationName : Option Text}
    {rollout : Bool} {clock : Time} {steps : List Step} {s : Sys}
    (hrun : run Sys.step (Sys.start tenantId organizationName rollout clock) steps = some s) :
    Meets Sys.step AnnouncesSigned (Sys.start tenantId organizationName rollout clock) steps ↔
      Meets Sys.step CompletesSigning (Sys.start tenantId organizationName rollout clock) steps := by
  refine meets_iff_meets (fun _ _ _ hinv hsigning hstep => announcedInv_of_step hinv hsigning hstep)
    (fun _ _ _ hinv hstep => announcesSigned_iff hinv hstep) ?_ hrun
  refine ⟨⟨fun channel id hmem => absurd hmem List.not_mem_nil, fun channel id => ?_⟩,
    fun channel id hsigned => ?_⟩
  · exact Nat.zero_le 1
  · cases hsigned

/-- A run in which the signer is signed and announced. -/
theorem meets_announcesSigned_iff_signed : ∃ steps s, Sys.after steps = some s ∧
    ⟨.audit, .signer_signed, 0⟩ ∈ s.db.events ∧
    (Meets Sys.step AnnouncesSigned (Sys.start "1".toList none true 0) steps ↔
      Meets Sys.step CompletesSigning (Sys.start "1".toList none true 0) steps) := by
  obtain ⟨s, hs, hevent⟩ : ∃ s ∈ Sys.after
      (.prepareCase (Intake.sample 1 [(1, true)]) :: .send 1 idText :: Step.identify 0 0 ++
        Step.sign 0 1 100 200 ++ Step.validate ⟨0, 1, 1, 0, .signed 0 0⟩),
      ⟨.audit, .signer_signed, 0⟩ ∈ s.db.events := by decide +kernel
  exact ⟨_, s, hs, hevent, meets_announcesSigned_iff hs⟩

/-- Two runs of the same validation overlap, and the signer is announced twice. -/
theorem not_announcesSigned_of_overlap : ¬∀ (s : Sys) i, s.Reachable → AnnouncesSigned s i := by
  intro hall
  obtain ⟨s, hs, s', hs', htwice⟩ : ∃ s ∈ Sys.after
      (.prepareCase (Intake.sample 1 [(1, true)]) :: .send 1 idText :: Step.identify 0 0 ++
        Step.sign 0 1 100 200 ++ [.readValidate ⟨0, 1, 1, 0, .signed 0 0⟩ Step.passed,
          .readValidate ⟨0, 1, 1, 0, .signed 0 0⟩ Step.passed, .commitValidation 0]),
      ∃ s' ∈ Sys.step s (.commitValidation 0),
        s'.db.events.count ⟨.audit, .signer_signed, 0⟩ = 2 := by decide +kernel
  obtain ⟨hannounced, -⟩ := hall s (.commitValidation 0) (Sys.reachable_of_after hs) s' hs'
  have honce := hannounced.once .audit 0
  omega

end Kommunsign
