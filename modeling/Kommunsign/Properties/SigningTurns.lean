import Kommunsign.Workflow.Turns

/-!
# Whose turn it is, and who is invited

An activation invites the pending signers of the first signing order that nobody blocks. The
predicate of the database looks at required signers only, so a group of optional signers blocks
nobody: the group after it has its turn at the same time, and is not invited.

* `Db.TurnsKept` — nobody is invited before the turn, or left uninvited when it has come
* `Sys.GatesNext` — the groups that the step gives their turn have a required signer, or are the last
* `turnsKept_throughout_iff` — the runs that keep the turns are those whose steps do that
-/

namespace Kommunsign

open Infra

structure Db.TurnsKept (db : Db) : Prop where
  /-- A signer who is not pending has been invited. -/
  invited : ∀ signer ∈ db.signers, signer.status ≠ .pending →
    db.signingTurnBlocked signer.id = false
  uninvited : ∀ signer ∈ db.signers, signer.status = .pending →
    ∀ c ∈ db.case? signer.signatureCaseId, c.status.isOpen = true →
      db.signingTurnBlocked signer.id = true

/-- Of every pending signer whose turn it is: the signer's order has a required signer, or is last. -/
def Db.GroupsGate (db : Db) (signatureCaseId : Id) : Prop :=
  ∀ signer ∈ db.signers, signer.signatureCaseId = signatureCaseId → signer.status = .pending →
    db.signingTurnBlocked signer.id = false →
      (∃ other ∈ db.signers, other.signatureCaseId = signatureCaseId ∧
        other.signingOrder = signer.signingOrder ∧ other.required = true) ∨
      ∀ other ∈ db.signers, other.signatureCaseId = signatureCaseId →
        other.signingOrder ≤ signer.signingOrder

/-- The groups gate the later ones when the case is sent, and when a signer of it is signed. -/
def Sys.GatesNext (s : Sys) : Step → Prop
  | .send c _ => s.db.GroupsGate c
  | .commitValidation index => ∀ run ∈ s.validates[index]?, s.db.completes run = true →
      ∀ c ∈ s.db.case? run.signatureCaseId, c.status.isOpen = true →
        (s.db.withSigned s.clock run).GroupsGate run.signatureCaseId
  | _ => True

instance (db : Db) (c : Id) : Decidable (db.GroupsGate c) :=
  inferInstanceAs (Decidable (∀ signer ∈ db.signers, _ → _ → _ → _ ∨ ∀ other ∈ db.signers, _ → _))

instance (s : Sys) : ∀ i, Decidable (s.GatesNext i)
  | .send c _ => inferInstanceAs (Decidable (s.db.GroupsGate c))
  | .commitValidation index => inferInstanceAs (Decidable (∀ run ∈ s.validates[index]?, _ →
      ∀ c ∈ s.db.case? run.signatureCaseId, _ → (s.db.withSigned s.clock run).GroupsGate _))
  | .tick _ | .prepareCase _ | .cancel _ | .expire _ | .remind _ | .delivery _ _ | .markOpened _
  | .decline _ | .startSession _ | .recordSession _ _ | .sessionStatus _ _ | .cancelSession _
  | .pollIdentity _ _ | .completeSession _ | .collectEvidence _ _ | .failIdentity _
  | .readEvidence _ | .recordVerification _ _ | .startCreate _ | .markSigning _ | .skipDocument _
  | .loadRevision _ _ | .commitSignature _ _ _ _ | .dropCreate _ | .readValidate _ _
  | .buildPackage _ _ => isTrue trivial

/-! ## In terms of turns -/

def Db.IsOpenCase (db : Db) (c : Id) : Prop :=
  ∃ row, db.case? c = some row ∧ row.status.isOpen = true

section Turns

variable {db : Db} (hkeys : (db.signers.map (·.id)).Nodup)
include hkeys

theorem turnsKept_iff : db.TurnsKept ↔
    (∀ c, (db.turns c).Called) ∧ ∀ c, db.IsOpenCase c → (db.turns c).Waits := by
  constructor
  · rintro ⟨hinvited, huninvited⟩
    refine ⟨fun c x hx hwaiting => ?_, fun c ⟨row, hrow, hopen⟩ x hx hwaiting => ?_⟩
    · obtain ⟨signer, hsigner, hmem, rfl, rfl⟩ := signer?_of_member hx
      rw [turns_waiting hsigner] at hwaiting
      rw [blocked_iff hkeys hsigner, hinvited signer hmem hwaiting]
      exact Bool.false_ne_true
    · obtain ⟨signer, hsigner, hmem, rfl, rfl⟩ := signer?_of_member hx
      rw [turns_waiting hsigner] at hwaiting
      exact (blocked_iff hkeys hsigner).mpr (huninvited signer hmem hwaiting row hrow hopen)
  · rintro ⟨hcalled, hwaits⟩
    refine ⟨fun signer hmem hstatus => ?_, fun signer hmem hpending row hrow hopen => ?_⟩
    · have hsigner := signer?_of_mem hkeys hmem
      rw [← Bool.not_eq_true, ← blocked_iff hkeys hsigner]
      exact hcalled _ _ ((turns_member hsigner).mpr rfl) (mt (turns_waiting hsigner).mp hstatus)
    · have hsigner := signer?_of_mem hkeys hmem
      rw [← blocked_iff hkeys hsigner]
      exact hwaits _ ⟨row, hrow, hopen⟩ _ ((turns_member hsigner).mpr rfl)
        ((turns_waiting hsigner).mpr hpending)

theorem groupsGate_iff {c : Id} :
    db.GroupsGate c ↔ ∀ x, (db.turns c).Free x → (db.turns c).Gates x := by
  have hgates {signer : Signer} (hsigner : db.signer? signer.id = some signer) :
      (db.turns c).Gates signer.id ↔ (∃ other ∈ db.signers, other.signatureCaseId = c ∧
        other.signingOrder = signer.signingOrder ∧ other.required = true) ∨
      ∀ other ∈ db.signers, other.signatureCaseId = c →
        other.signingOrder ≤ signer.signingOrder := by
    unfold Turns.Gates
    rw [turns_group hsigner]
    refine or_congr ⟨?_, ?_⟩ ⟨fun h other hother hcase => ?_, fun h y hy => ?_⟩
    · rintro ⟨z, hz, hgroup, hrequired⟩
      obtain ⟨other, hother, hmem, rfl, hcase⟩ := signer?_of_member hz
      rw [turns_group hother] at hgroup
      exact ⟨other, hmem, hcase, hgroup, (turns_required hother).mp hrequired⟩
    · rintro ⟨other, hmem, hcase, horder, hrequired⟩
      have hother := signer?_of_mem hkeys hmem
      refine ⟨other.id, (turns_member hother).mpr hcase, ?_, (turns_required hother).mpr hrequired⟩
      rw [turns_group hother]
      exact horder
    · have hfound := signer?_of_mem hkeys hother
      rw [← turns_group (c := c) hfound]
      exact h other.id ((turns_member hfound).mpr hcase)
    · obtain ⟨other, hother, hmem, -, hcase⟩ := signer?_of_member hy
      rw [turns_group hother]
      exact h other hmem hcase
  constructor
  · intro h x hx
    obtain ⟨signer, hsigner, hmem, rfl, -⟩ := signer?_of_member hx.1
    obtain ⟨hcase, hpending, hblocked⟩ := (free_iff hkeys hsigner).mp hx
    exact (hgates hsigner).mpr (h signer hmem hcase hpending hblocked)
  · intro h signer hmem hcase hpending hblocked
    have hsigner := signer?_of_mem hkeys hmem
    exact (hgates hsigner).mp (h _ ((free_iff hkeys hsigner).mpr ⟨hcase, hpending, hblocked⟩))

end Turns

/-! ## What a step does to the turns -/

section Steps

variable {s s' : Sys} {i : Step}

theorem called_of_step (h : s.Reachable) (hstep : Sys.step s i = some s')
    (hcalled : ∀ c, (s.db.turns c).Called) (c : Id) : (s'.db.turns c).Called := by
  have hstanding := standing_of_reachable h
  cases hrow : s.db.case? c with
  | none =>
    -- the signers of a new case are pending
    intro x hx hnot
    obtain ⟨signer', hsigner', -, -, hcase⟩ := signer?_of_member hx
    rw [turns_waiting hsigner'] at hnot
    rcases signer?_before_step hstep hsigner' with ⟨signer, hsigner, hchange⟩ | ⟨-, -, hpending⟩
    · have hrows := hstanding.consistent signer (List.mem_of_find?_eq_some hsigner)
      simp only [Tables.signerConstraints, refuse_append, refuse_violates] at hrows
      rw [← hchange.toSignerMove.signatureCaseId, hcase, hrow] at hrows
      cases hrows.1.1
    · exact absurd hpending hnot
  | some row =>
    have hadvances := advances_of_step hstep hrow
    refine Turns.called_of_advances hadvances (hcalled c) fun x hx hbefore hafter => ?_
    obtain ⟨signer, hsigner, hmem, rfl, hcase⟩ := signer?_of_member hx
    obtain ⟨signer', hsigner', hchange⟩ := signer?_of_step hstep hsigner
    have hpending := (turns_waiting hsigner).mp hbefore
    rw [turns_waiting hsigner'] at hafter
    rcases called_of_change hchange hpending hafter with
      ⟨c', nonce, rfl, other, hother, hid, -⟩ | ⟨index, run, rfl, hrun, hcompletes, group, hgroup, hx'⟩
    · obtain ⟨hotherMem, hotherCase⟩ := mem_signersInOrder.mp hother
      obtain rfl := eq_of_key_eq hstanding.signersKeyed hotherMem hmem hid
      obtain rfl : c' = c := hotherCase.symm.trans hcase
      exact (calls_of_send h hstep).1.not_blocked hx hbefore
        (mt (turns_waiting hsigner').mp hafter)
    · obtain ⟨run', db, hrun', hok, rfl⟩ := step_commitValidation hstep
      obtain rfl := Option.some.inj (hrun.symm.trans hrun')
      obtain ⟨db₁, hactivate, rfl⟩ := activate_of_completes hcompletes hok
      have hkeys := keyed_withSigned (s.db.withValidation run) hstanding.signersKeyed s.clock run
      obtain ⟨before, hbefore', hbeforeId, hbeforeCase, -⟩ := mem_groupSigners.mp hx'
      have hfound := signer?_of_mem hkeys hbefore'
      rw [hbeforeId] at hfound
      have hmember : ((s.db.withSigned s.clock run).turns c).member signer.id :=
        ((turns_withSigned s.db s.clock run c).1.member signer.id).mpr hx
      obtain rfl : run.signatureCaseId = c :=
        hbeforeCase.symm.trans ((turns_member hfound).mp hmember)
      rw [turns_withCaseJob]
      intro hblocked
      exact not_blocked_of_group hkeys hgroup hx'
        (((activate_leaves hactivate).advances _).blocked hmember hblocked)

def Sys.Calls (s : Sys) (i : Step) (c : Id) : Prop :=
  (∃ nonce, i = .send c nonce) ∨ ∃ index run, i = .commitValidation index ∧
    s.validates[index]? = some run ∧ s.db.completes run = true ∧ run.signatureCaseId = c

theorem waits_of_step (h : s.Reachable) (hstep : Sys.step s i = some s') {c : Id}
    (hnot : ¬s.Calls i c) (hwaits : s.db.IsOpenCase c → (s.db.turns c).Waits)
    (hopen : s'.db.IsOpenCase c) : (s'.db.turns c).Waits := by
  obtain ⟨row', hrow', hopen'⟩ := hopen
  obtain ⟨row, hrow, hbefore⟩ : ∃ row, s.db.case? c = some row ∧ row.status.isOpen = true := by
    rcases case?_before_step hstep hrow' with ⟨row, hrow, hchange⟩ | ⟨-, hready⟩
    · refine ⟨row, hrow, (isOpen_before hchange hopen').resolve_right ?_⟩
      rw [(exists_of_find?_key hrow).2]
      exact fun hsend => hnot (Or.inl hsend)
    · rw [hready] at hopen'
      cases hopen'
  have hadvances := advances_of_step hstep hrow
  intro x hx hwaiting
  have hx' := (hadvances.member x).mp hx
  obtain ⟨signer', hsigner', hpending⟩ := hwaiting
  obtain ⟨signer, hsigner, -⟩ := signer?_of_member hx'
  obtain ⟨_, hfound, hchange⟩ := signer?_of_step hstep hsigner
  obtain rfl := Option.some.inj (hsigner'.symm.trans hfound)
  obtain ⟨y, hy, hlt, hrequired, hdone⟩ := hwaits ⟨row, hrow, hbefore⟩ x hx'
    ((turns_waiting hsigner).mpr (hchange.toSignerMove.pending hpending))
  refine ⟨y, (hadvances.member y).mpr hy, ?_, (hadvances.required y hy).mpr hrequired, fun hd => ?_⟩
  · rw [hadvances.group y hy, hadvances.group x hx']
    exact hlt
  · -- whoever is signed by the step is of the case of the run
    obtain ⟨lower, hlower, -, rfl, hcase⟩ := signer?_of_member hy
    obtain ⟨lower', hlower', hmove⟩ := signer?_of_step hstep hlower
    rw [turns_done hlower] at hdone
    rw [turns_done hlower'] at hd
    obtain ⟨index, run, rfl, hrun, hcompletes, hid⟩ := signed_of_change hmove hdone hd
    obtain ⟨signer, _, hrunSigner, hrunCase, -⟩ :=
      signer?_of_validates h (List.mem_of_getElem? hrun)
    rw [hid, hlower, Option.some.injEq] at hrunSigner
    subst hrunSigner
    exact hnot (Or.inr ⟨index, run, rfl, hrun, hcompletes, hrunCase.symm.trans hcase⟩)

theorem waits_iff_of_send (h : s.Reachable) {c : Id} {nonce : Id → Text}
    (hstep : Sys.step s (.send c nonce) = some s') : (s'.db.turns c).Waits ↔ s.db.GroupsGate c := by
  obtain ⟨hcalls, hfresh⟩ := calls_of_send h hstep
  rw [groupsGate_iff (standing_of_reachable h).signersKeyed]
  exact hcalls.waits_iff hfresh fun _ _ => not_done_of_waiting

theorem waits_iff_of_completes (h : s.Reachable) (hkept : s.db.TurnsKept) {index : Nat}
    {run : PadesValidateRun} (hrun : s.validates[index]? = some run)
    (hcompletes : s.db.completes run = true) (hopen : s.db.IsOpenCase run.signatureCaseId)
    (hstep : Sys.step s (.commitValidation index) = some s') :
    (s'.db.turns run.signatureCaseId).Waits ↔
      (s.db.withSigned s.clock run).GroupsGate run.signatureCaseId := by
  have hkeys := (standing_of_reachable h).signersKeyed
  obtain ⟨hcalled, hwaits⟩ := (turnsKept_iff hkeys).mp hkept
  obtain ⟨hadvances, hwaiting⟩ := turns_withSigned s.db s.clock run run.signatureCaseId
  have hfresh := Turns.fresh_of_waits hadvances (fun x _ => hwaiting x) (hcalled _) (hwaits _ hopen)
  obtain ⟨row, hrow, hrowOpen⟩ := hopen
  have hcalls := calls_of_completes h hrun hcompletes hrow hrowOpen hstep
  rw [groupsGate_iff (keyed_withSigned s.db hkeys _ _)]
  exact hcalls.waits_iff hfresh fun _ _ => not_done_of_waiting

theorem turnsKept_step_iff (h : s.Reachable) (hkept : s.db.TurnsKept)
    (hstep : Sys.step s i = some s') : s'.db.TurnsKept ↔ s.GatesNext i := by
  obtain ⟨hcalled, hwaits⟩ := (turnsKept_iff (standing_of_reachable h).signersKeyed).mp hkept
  rw [turnsKept_iff (standing_of_reachable (h.of_step hstep)).signersKeyed,
    and_iff_right (called_of_step h hstep hcalled)]
  have hquiet {c : Id} (hnot : ¬s.Calls i c) : s'.db.IsOpenCase c → (s'.db.turns c).Waits :=
    waits_of_step h hstep hnot (hwaits c)
  cases i with
  | send c nonce =>
    constructor
    · intro hall
      obtain ⟨row, hrow, hsent⟩ := case?_of_send hstep
      refine (waits_iff_of_send h hstep).mp (hall c ⟨row, hrow, ?_⟩)
      rw [hsent]
      rfl
    · intro hgate c' hopen
      by_cases hsame : c' = c
      · subst hsame
        exact (waits_iff_of_send h hstep).mpr hgate
      · refine hquiet ?_ hopen
        rintro (⟨_, heq⟩ | ⟨_, _, heq, -⟩)
        · exact hsame (Step.send.inj heq).1.symm
        · cases heq
  | commitValidation index =>
    obtain ⟨run, _, hrun, -, -⟩ := step_commitValidation hstep
    have hcalls {c : Id} (hc : s.Calls (.commitValidation index) c) :
        s.db.completes run = true ∧ run.signatureCaseId = c := by
      rcases hc with ⟨_, heq⟩ | ⟨_, run', heq, hrun', hcompletes, hcase⟩
      · cases heq
      · cases heq
        obtain rfl := Option.some.inj (hrun.symm.trans hrun')
        exact ⟨hcompletes, hcase⟩
    constructor
    · intro hall run' hrun' hcompletes row hrow hopen
      obtain rfl := Option.some.inj (hrun.symm.trans hrun')
      refine (waits_iff_of_completes h hkept hrun hcompletes ⟨row, hrow, hopen⟩ hstep).mp (hall _ ?_)
      obtain ⟨row', hrow', hchange⟩ := case?_of_step hstep hrow
      refine ⟨row', hrow', hchange.change.keeps (P := fun status => status.isOpen = true) ?_ hopen⟩
      intro old new _ hmay
      cases caseTransition_of_effect hmay
    · intro hgate c hopen
      by_cases hc : s.Calls (.commitValidation index) c
      · obtain ⟨hcompletes, rfl⟩ := hcalls hc
        obtain ⟨row', hrow', hopen'⟩ := hopen
        obtain ⟨row, hrow, hbefore⟩ :
            ∃ row, s.db.case? run.signatureCaseId = some row ∧ row.status.isOpen = true := by
          rcases case?_before_step hstep hrow' with ⟨row, hrow, hchange⟩ | ⟨-, hready⟩
          · refine ⟨row, hrow, (isOpen_before hchange hopen').resolve_right ?_⟩
            nofun
          · rw [hready] at hopen'
            cases hopen'
        exact (waits_iff_of_completes h hkept hrun hcompletes ⟨row, hrow, hbefore⟩ hstep).mpr
          (hgate run hrun hcompletes row hrow hbefore)
      · exact hquiet hc hopen
  | tick | prepareCase | cancel | expire | remind | delivery | markOpened | decline | startSession
  | recordSession | sessionStatus | cancelSession | pollIdentity | completeSession | collectEvidence
  | failIdentity | readEvidence | recordVerification | startCreate | markSigning | skipDocument
  | loadRevision | commitSignature | dropCreate | readValidate | buildPackage =>
    refine iff_of_true (fun c hopen => hquiet ?_ hopen) trivial
    rintro (⟨_, heq⟩ | ⟨_, _, heq, -⟩) <;> cases heq

end Steps

/-! ## Runs -/

/-- A run keeps the turns in every state exactly if the groups gate whenever a group has its turn. -/
theorem turnsKept_throughout_iff {tenantId : Text} {organizationName : Option Text} {rollout : Bool}
    {clock : Time} {steps : List Step} {s : Sys}
    (hrun : run Sys.step (Sys.start tenantId organizationName rollout clock) steps = some s) :
    Throughout Sys.step (fun s => s.db.TurnsKept)
        (Sys.start tenantId organizationName rollout clock) steps ↔
      Meets Sys.step Sys.GatesNext (Sys.start tenantId organizationName rollout clock) steps := by
  refine throughout_iff_meets (fun _ _ _ h hstep => Sys.Reachable.of_step h hstep)
    (fun _ _ _ h hkept hstep => turnsKept_step_iff h hkept hstep) ?_ ?_ hrun
  · exact ⟨_, _, _, _, [], rfl⟩
  · exact ⟨fun _ hmem => absurd hmem List.not_mem_nil, fun _ hmem => absurd hmem List.not_mem_nil⟩

namespace SigningTurns

def untilSigned (signers : List (Nat × Bool)) : List Step :=
  .prepareCase (Intake.sample 1 signers) :: .send 1 idText :: Step.identify 0 0 ++
    Step.sign 0 1 100 200 ++ Step.validate ⟨0, 1, 1, 0, .signed 0 0⟩

end SigningTurns

/-- A required signer, an optional one at the same time, and a required signer after them. -/
theorem turnsKept_throughout_iff_gated :
    Throughout Sys.step (fun s => s.db.TurnsKept) (Sys.start "1".toList none true 0)
      (SigningTurns.untilSigned [(1, true), (1, false), (2, true)]) := by
  obtain ⟨s, hs, hgates⟩ : ∃ s ∈ Sys.after (SigningTurns.untilSigned [(1, true), (1, false), (2, true)]),
      Meets Sys.step Sys.GatesNext (Sys.start "1".toList none true 0)
        (SigningTurns.untilSigned [(1, true), (1, false), (2, true)]) := by decide +kernel
  exact (turnsKept_throughout_iff hs).mpr hgates

/-- An optional signer between two required ones: when the first is signed the last is not invited. -/
theorem not_turnsKept_of_optional_group : ¬∀ s : Sys, s.Reachable → s.db.TurnsKept := by
  intro hall
  obtain ⟨s, hs, signer, hsigner, hpending, hopen, hblocked⟩ :
      ∃ s ∈ Sys.after (SigningTurns.untilSigned [(1, true), (2, false), (3, true)]),
        ∃ signer ∈ s.db.signers, signer.status = .pending ∧
          (∃ c ∈ s.db.case? signer.signatureCaseId, c.status.isOpen = true) ∧
          s.db.signingTurnBlocked signer.id = false := by decide +kernel
  obtain ⟨c, hc, hcopen⟩ := hopen
  rw [(hall s (Sys.reachable_of_after hs)).uninvited signer hsigner hpending c hc hcopen] at hblocked
  cases hblocked

end Kommunsign
