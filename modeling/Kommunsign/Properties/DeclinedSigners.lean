import Kommunsign.Workflow.Identified
import Kommunsign.Workflow.InFlight

/-!
# Signers who decline

`decline` moves the signer's row only from three statuses, and ends the invitation and the case
whether the row has moved or not. Evidence that was collected before is checked afterwards, and
`handleSignatureValidate` queues the signing without looking at the status of the signer.

* `respectsDecline_of_run` — in a run whose steps all meet the second, they all meet the first
* `not_respectsDecline_of_identified` — a signer who declines after being identified
-/

namespace Kommunsign

open Infra

/-- The statuses that `decline` asks for. -/
def SignerStatus.isDeclinable (status : SignerStatus) : Bool :=
  status == .invited || status == .opened || status == .identity_started

def Sys.declining? (s : Sys) : Step → Option Signer
  | .decline invitationId => do
    let invitation ← (openInvitation s.db s.clock invitationId).toOption
    s.db.signer? invitation.signerId
  | _ => none

def Sys.verifying? (s : Sys) : Step → Option Signer
  | .recordVerification index true => do
    let t ← s.checks[index]?
    let row ← (loadStarted s.db t).toOption
    if row.2.status = .evidence_collected then s.db.signer? row.2.signerId else none
  | _ => none

def Db.DeclinedBy (db : Db) (signatureCaseId : Id) : Prop :=
  ∃ id, ∃ signer ∈ db.signer? id, signer.signatureCaseId = signatureCaseId ∧
    signer.required = true ∧ signer.status = .declined

/-- What a step makes of a decline, and what the state after it says of those who have declined. -/
structure RespectsDecline (s : Sys) (i : Step) (s' : Sys) : Prop where
  recorded : ∀ signer ∈ s.declining? i, ∃ signer' ∈ s'.db.signer? signer.id,
    signer'.status = .declined
  unrecorded : ∀ signer ∈ s.declining? i,
    (∀ signer' ∈ s'.db.signer? signer.id, signer'.status ≠ .declined) →
      s'.db.cases = s.db.cases ∧ s'.db.invitations = s.db.invitations ∧ s'.db.events = s.db.events
  stays : ∀ id, ∀ signer ∈ s.db.signer? id, signer.status = .declined →
    ∃ signer' ∈ s'.db.signer? id, signer'.status = .declined
  attempts : ∀ a ∈ s'.db.attempts, ∀ signer ∈ s'.db.signer? a.signerId, signer.status ≠ .declined
  artifacts : ∀ artifact ∈ s'.db.artifacts, ∀ a ∈ s'.db.attempt? artifact.signatureAttemptId,
    ∀ signer ∈ s'.db.signer? a.signerId, signer.status ≠ .declined
  cases : ∀ id, ∀ c ∈ s'.db.case? id, c.status = .declined → s'.db.DeclinedBy id

/--
A decline that is accepted finds its signer in one of the statuses that it asks for, and no evidence
is found valid that was collected of a signer who has declined since.
-/
structure DeclinesInTime (s : Sys) (i : Step) : Prop where
  declines : ∀ signer ∈ s.declining? i, signer.status.isDeclinable = true
  verifies : ∀ signer ∈ s.verifying? i, signer.status ≠ .declined

instance (s : Sys) (i : Step) : Decidable (DeclinesInTime s i) :=
  decidable_of_iff ((∀ signer ∈ s.declining? i, signer.status.isDeclinable = true) ∧
    ∀ signer ∈ s.verifying? i, signer.status ≠ .declined)
    ⟨fun h => ⟨h.1, h.2⟩, fun h => ⟨h.declines, h.verifies⟩⟩

def Db.PastIdentity (db : Db) (signerId : Id) : Prop :=
  ∃ signer, db.signer? signerId = some signer ∧ 3 ≤ signer.status.stage ∧ signer.status ≠ .declined

/-- Whatever is signed, or is going to be, is of signers who have been identified. -/
structure DeclinedUnsigned (s : Sys) : Prop where
  intents : ∀ si ∈ s.db.intents, si.status.isVerified = true → s.db.PastIdentity si.signerId
  runs : ∀ run ∈ s.creates, s.db.PastIdentity run.intent.signerId
  attempts : ∀ a ∈ s.db.attempts, s.db.PastIdentity a.signerId
  cases : ∀ id, ∀ c ∈ s.db.case? id, c.status = .declined → s.db.DeclinedBy id

/-! ## A decline -/

theorem decline_eq {db db' : Db} {now : Time} {invitationId : Id} {u : Unit}
    (h : decline now invitationId db = .ok (u, db')) : ∃ invitation row,
      openInvitation db now invitationId = .ok invitation ∧
      db.signer? invitation.signerId = some row ∧
      db'.signers = assign (fun s => s.id == invitation.signerId && s.status.isDeclinable)
        (fun s => { s with status := .declined }) db.signers := by
  obtain ⟨invitation, hopen, h⟩ := reading_eq_ok h
  rw [Transaction.read_bind] at h
  simp only [Transaction.bind_eq_ok] at h
  obtain ⟨row, db₁, hdemand, _, db₂, hsigner, _, db₃, hinvitation, hrest⟩ := h
  obtain ⟨hrow, rfl⟩ := Transaction.demand_eq_ok.mp hdemand
  obtain ⟨-, rfl, -⟩ := Table.update_eq_ok.mp hsigner
  obtain ⟨-, rfl, -⟩ := Table.update_eq_ok.mp hinvitation
  refine ⟨invitation, row, hopen, hrow, ?_⟩
  -- ending the case leaves the signers as they are
  split at hrest
  · obtain ⟨_, db₄, hend, houtbox⟩ := Transaction.bind_eq_ok.mp hrest
    obtain ⟨-, rfl, -⟩ := Table.update_eq_ok.mp hend
    obtain rfl := Transaction.rewrite_eq_ok.mp houtbox
    rfl
  · obtain rfl := Transaction.rewrite_eq_ok.mp hrest
    rfl

theorem mem_declining? {s : Sys} {invitationId : Id} {signer : Signer} :
    signer ∈ s.declining? (.decline invitationId) ↔ ∃ invitation,
      openInvitation s.db s.clock invitationId = .ok invitation ∧
        s.db.signer? invitation.signerId = some signer := by
  simp only [Sys.declining?, Option.mem_def, Option.bind_eq_bind, Option.bind_eq_some_iff,
    toOption_eq_some]

theorem mem_verifying? {s : Sys} {index : Nat} {signer : Signer} :
    signer ∈ s.verifying? (.recordVerification index true) ↔ ∃ t row, s.checks[index]? = some t ∧
      loadStarted s.db t = .ok row ∧ row.2.status = .evidence_collected ∧
        s.db.signer? row.2.signerId = some signer := by
  simp only [Sys.verifying?, Option.mem_def, Option.bind_eq_bind, Option.bind_eq_some_iff,
    toOption_eq_some, Option.ite_none_right_eq_some]
  constructor
  · rintro ⟨t, ht, row, hrow, hstatus, hsigner⟩
    exact ⟨t, row, ht, hrow, hstatus, hsigner⟩
  · rintro ⟨t, row, ht, hrow, hstatus, hsigner⟩
    exact ⟨t, ht, row, hrow, hstatus, hsigner⟩

section Steps

variable {s s' : Sys} {i : Step} {id : Id}

theorem signer?_declining (hstep : Sys.step s i = some s') {signer : Signer}
    (hsigner : signer ∈ s.declining? i) (hdeclinable : signer.status.isDeclinable = true) :
    ∃ signer' ∈ s'.db.signer? signer.id, signer'.status = .declined := by
  cases i with
  | decline invitationId =>
    obtain ⟨db, hok, rfl⟩ := Sys.commit_eq_some.mp hstep
    obtain ⟨invitation, hopen, hfound⟩ := mem_declining?.mp hsigner
    obtain ⟨invitation', row, hopen', hrow, hsigners⟩ := decline_eq hok
    obtain rfl := Except.ok.inj (hopen.symm.trans hopen')
    have hid : signer.id = invitation.signerId := (exists_of_find?_key hfound).2
    have hfind : (assign (fun s => s.id == invitation.signerId && s.status.isDeclinable)
        (fun s => { s with status := .declined }) s.db.signers).find? (fun s => s.id == signer.id) =
          (s.db.signer? signer.id).map fun s =>
            if (s.id == invitation.signerId && s.status.isDeclinable) = true
              then { s with status := .declined } else s :=
      find?_assign (fun s : Signer => s.id) fun _ _ _ => rfl
    refine ⟨{ signer with status := .declined }, ?_, rfl⟩
    have hmoved : (signer.id == invitation.signerId && signer.status.isDeclinable) = true := by
      rw [hid, hdeclinable, beq_self_eq_true]
      rfl
    rw [← hid] at hfound
    rw [Option.mem_def, Db.signer?, hsigners, hfind, hfound, Option.map_some, if_pos hmoved]
  | _ => cases hsigner

theorem declined_of_step (hstep : Sys.step s i = some s') {signer : Signer}
    (hsigner : s.db.signer? id = some signer) (hdeclined : signer.status = .declined) :
    ∃ signer', s'.db.signer? id = some signer' ∧ signer'.status = .declined ∧
      signer'.toSignerBinding = signer.toSignerBinding := by
  obtain ⟨signer', hsigner', hchange⟩ := signer?_of_step hstep hsigner
  refine ⟨signer', hsigner', ?_, hchange.binding⟩
  refine hchange.status.keeps (P := fun status => status = .declined) ?_ hdeclined
  rintro old new hallowed rfl
  cases hallowed

theorem PastIdentity.of_step (h : s.db.PastIdentity id) (hstep : Sys.step s i = some s') :
    s'.db.PastIdentity id := by
  obtain ⟨signer, hsigner, hstage, hnot⟩ := h
  obtain ⟨signer', hsigner', hchange⟩ := signer?_of_step hstep hsigner
  refine ⟨signer', hsigner', ?_⟩
  refine hchange.change.keeps (P := fun status => 3 ≤ status.stage ∧ status ≠ .declined) ?_
    ⟨hstage, hnot⟩
  rintro old new hallowed hmay ⟨hold, -⟩
  refine ⟨hold.trans (SignerStatus.stage_le (Relation.ReflTransGen.single hallowed)), ?_⟩
  rintro rfl
  cases signerTransition_of_effect hmay with
  | declines _ _ hdeclinable =>
    -- who has been identified is in none of the statuses that a decline asks for
    rcases hdeclinable with rfl | rfl | rfl <;> exact absurd hold (by decide)

theorem DeclinedBy.of_step {c : Id} (h : s.db.DeclinedBy c) (hstep : Sys.step s i = some s') :
    s'.db.DeclinedBy c := by
  obtain ⟨id, signer, hsigner, hcase, hrequired, hdeclined⟩ := h
  obtain ⟨signer', hsigner', hdeclined', hbinding⟩ := declined_of_step hstep hsigner hdeclined
  refine ⟨id, signer', hsigner', ?_, ?_, hdeclined'⟩
  · rw [hbinding, hcase]
  · rw [hbinding, hrequired]

theorem declinedBy_of_step (h : DeclinedUnsigned s) (htime : DeclinesInTime s i)
    (hstep : Sys.step s i = some s') {c' : SignatureCase} (hc' : s'.db.case? id = some c')
    (hdeclined : c'.status = .declined) : s'.db.DeclinedBy id := by
  rcases case?_before_step hstep hc' with ⟨c, hc, hchange⟩ | ⟨-, hready⟩
  · by_cases hbefore : c.status = .declined
    · exact DeclinedBy.of_step (h.cases id c hc hbefore) hstep
    · have hid : c.id = id := (exists_of_find?_key hc).2
      obtain ⟨invitationId, rfl, invitation, row, hopen, hrow, hrequired, hcase⟩ :
          ∃ invitationId, i = .decline invitationId ∧ s.DeclinesCase invitationId c.id := by
        refine hchange.change.keeps (P := fun status => status = .declined →
          ∃ invitationId, i = .decline invitationId ∧ s.DeclinesCase invitationId c.id) ?_
          (fun hold => absurd hold hbefore) hdeclined
        rintro old new - hmay - rfl
        cases caseTransition_of_effect hmay with
        | declines invitationId _ _ hdeclines => exact ⟨invitationId, rfl, hdeclines⟩
      -- the signer who ends the case is found in a status that the decline asks for
      have hdeclining := mem_declining?.mpr ⟨invitation, hopen, hrow⟩
      obtain ⟨signer', hsigner', hstatus⟩ :=
        signer?_declining hstep hdeclining (htime.declines row hdeclining)
      obtain ⟨signer₁, hsigner₁, hmove⟩ := signer?_of_step hstep hrow
      rw [← (exists_of_find?_key hrow).2] at hsigner₁
      obtain rfl := Option.some.inj (hsigner₁.symm.trans hsigner')
      refine ⟨row.id, signer₁, hsigner', ?_, ?_, hstatus⟩
      · rw [hmove.toSignerMove.signatureCaseId, hcase, hid]
      · rw [hmove.binding, hrequired]
  · rw [hready] at hdeclined
    cases hdeclined

/-! ## The check of the evidence -/

theorem pastIdentity_of_verification (h : DeclinedUnsigned s) (hreachable : s.Reachable)
    {index : Nat} (htime : DeclinesInTime s (.recordVerification index true))
    (hstep : Sys.step s (.recordVerification index true) = some s') {si' : SigningIntent}
    (hsi' : si' ∈ s'.db.intents) (hverified : si'.status.isVerified = true) :
    s'.db.PastIdentity si'.signerId := by
  have hidentified := identified_of_reachable hreachable
  have hprepared := prepared_of_reachable hreachable
  obtain ⟨signer', hsigner', hstage'⟩ :=
    stages_of_recordVerification hidentified hprepared hstep si' hsi'
  have hthree : 3 ≤ signer'.status.stage := by
    revert hstage' hverified
    cases si'.status <;> simp [IntentStatus.isVerified, IntentStatus.stage]
  obtain ⟨t, db, ht, hok, hs'⟩ := step_recordVerification hstep
  obtain ⟨row, hrow, hchecked⟩ := recordVerification_eq hok
  have hintents : s'.db.intents = db.intents := by
    rw [hs']
  rw [hintents, hchecked.intents] at hsi'
  obtain ⟨si, hsi, rfl⟩ := mem_assign.mp hsi'
  by_cases hp : (si.id == row.2.id && si.status == .evidence_collected) = true
  · rw [if_pos hp] at hsigner' ⊢
    rw [Bool.and_eq_true, beq_iff_eq, beq_iff_eq] at hp
    obtain rfl := eq_of_key_eq hprepared.keyed hsi (hidentified.of_loadStarted hrow).1 hp.1
    refine ⟨signer', hsigner', hthree, ?_⟩
    obtain ⟨signer, hsigner, -⟩ := hidentified.stages row.2 hsi
    obtain ⟨signer₁, hsigner₁, hchange⟩ := signer?_of_step hstep hsigner
    obtain rfl := Option.some.inj (hsigner₁.symm.trans hsigner')
    -- the signer has not declined before, and the check leaves no signer declined
    refine hchange.change.keeps (P := fun status => status ≠ .declined) ?_
      (htime.verifies signer (mem_verifying?.mpr ⟨t, row, ht, hrow, hp.2, hsigner⟩))
    rintro old new - (⟨-, rfl⟩ | ⟨rfl, -⟩) - hdeclined <;> cases hdeclined
  · rw [if_neg hp] at hverified ⊢
    exact PastIdentity.of_step (h.intents si hsi hverified) hstep

/-! ## Steps -/

theorem declinedUnsigned_of_step (h : DeclinedUnsigned s) (hreachable : s.Reachable)
    (htime : DeclinesInTime s i) (hstep : Sys.step s i = some s') : DeclinedUnsigned s' where
  intents := by
    intro si' hsi' hverified
    by_cases hpass : ∃ index, i = .recordVerification index true
    · obtain ⟨index, rfl⟩ := hpass
      exact pastIdentity_of_verification h hreachable htime hstep hsi' hverified
    · obtain ⟨si, hsi, hpayload, hbefore⟩ :=
        isVerified_before hstep (fun index heq => hpass ⟨index, heq⟩) hsi' hverified
      have hsame : si.signerId = si'.signerId := congrArg (·.signerId) hpayload
      rw [← hsame]
      exact PastIdentity.of_step (h.intents si hsi hbefore) hstep
  runs := by
    intro run' hrun'
    rcases (runsAfter_of_step hstep).creates run' hrun' with
      ⟨run, hrun, hcontinues⟩ | ⟨intentId, rfl, hstart⟩
    · rw [hcontinues.intent]
      exact PastIdentity.of_step (h.runs run hrun) hstep
    · obtain ⟨hintent, hverified, -, -, -, -⟩ := startPadesCreate_eq hstart
      obtain ⟨si, _, signer, _, hsi, -, hsigner, -, heq⟩ := loadIntent_eq_ok hintent
      rw [heq] at hverified
      have hpast := h.intents si (List.mem_of_find?_eq_some hsi)
        (by rw [show si.status = .verified from hverified]; rfl)
      have hid : run'.intent.signerId = si.signerId := by
        rw [heq]
        exact (exists_of_find?_key hsigner).2
      rw [hid]
      exact PastIdentity.of_step hpast hstep
  attempts := by
    intro a' ha'
    rcases attempts_of_step hstep a' ha' with ⟨a, ha, -, hsigner⟩ | ⟨run, hrun, -, -, hsigner⟩
    · rw [← hsigner]
      exact PastIdentity.of_step (h.attempts a ha) hstep
    · rw [← hsigner]
      exact PastIdentity.of_step (h.runs run hrun) hstep
  cases _ _ hc' hdeclined := declinedBy_of_step h htime hstep hc' hdeclined

theorem respectsDecline_of_step (h : DeclinedUnsigned s) (hreachable : s.Reachable)
    (htime : DeclinesInTime s i) (hstep : Sys.step s i = some s') : RespectsDecline s i s' := by
  have hafter := declinedUnsigned_of_step h hreachable htime hstep
  have hrecorded (signer : Signer) (hsigner : signer ∈ s.declining? i) :=
    signer?_declining hstep hsigner (htime.declines signer hsigner)
  have hattempts : ∀ a ∈ s'.db.attempts, ∀ signer ∈ s'.db.signer? a.signerId,
      signer.status ≠ .declined := by
    intro a ha signer hsigner
    obtain ⟨signer₁, hsigner₁, -, hnot⟩ := hafter.attempts a ha
    obtain rfl := Option.some.inj (hsigner₁.symm.trans hsigner)
    exact hnot
  refine ⟨hrecorded, ?_, ?_, hattempts, ?_, hafter.cases⟩
  · intro signer hsigner hnot
    obtain ⟨signer', hsigner', hdeclined⟩ := hrecorded signer hsigner
    exact absurd hdeclined (hnot signer' hsigner')
  · intro id signer hsigner hdeclined
    obtain ⟨signer', hsigner', hdeclined', -⟩ := declined_of_step hstep hsigner hdeclined
    exact ⟨signer', hsigner', hdeclined'⟩
  · intro artifact _ a ha
    exact hattempts a (List.mem_of_find?_eq_some ha)

end Steps

/-! ## Runs -/

/-- In a run whose declines are in time, a signer who has declined is declined and never signs. -/
theorem respectsDecline_of_run {tenantId : Text} {organizationName : Option Text} {rollout : Bool}
    {clock : Time} {steps : List Step}
    (h : Meets Sys.step DeclinesInTime (Sys.start tenantId organizationName rollout clock) steps) :
    Meets Sys.step (fun s i => ∀ s', Sys.step s i = some s' → RespectsDecline s i s')
      (Sys.start tenantId organizationName rollout clock) steps := by
  refine meets_of_meets
    (fun _ _ _ (hinv : Sys.Reachable _ ∧ DeclinedUnsigned _) htime hstep =>
      ⟨hinv.1.of_step hstep, declinedUnsigned_of_step hinv.2 hinv.1 htime hstep⟩)
    (fun _ _ hinv htime _ hstep => respectsDecline_of_step hinv.2 hinv.1 htime hstep) ?_ h
  refine ⟨⟨tenantId, organizationName, rollout, clock, [], rfl⟩, ?_⟩
  exact ⟨fun si hsi => absurd hsi List.not_mem_nil, fun run hrun => absurd hrun List.not_mem_nil,
    fun a ha => absurd ha List.not_mem_nil,
    fun id c hc => absurd (List.mem_of_find?_eq_some hc) List.not_mem_nil⟩

/-- One signer signs, and the other declines while identifying; the case ends. -/
theorem respectsDecline_of_run_started : ∃ steps, (∃ s ∈ Sys.after steps, s.db.artifacts ≠ [] ∧
      (s.db.case? 1).map (·.status) = some .declined ∧
      (s.db.signer? 1).map (·.status) = some .declined) ∧
    Meets Sys.step (fun s i => ∀ s', Sys.step s i = some s' → RespectsDecline s i s')
      (Sys.start "1".toList none true 0) steps :=
  ⟨.prepareCase (Intake.sample 1 [(1, true), (1, true)]) :: .send 1 idText ::
      Step.identify 0 0 ++ Step.sign 0 1 100 200 ++
      [.startSession 1, .recordSession 0 1, .decline 1],
    by decide +kernel, respectsDecline_of_run (by decide +kernel)⟩

/-- A signer who has been identified declines: the case is declined, and the signer is not. -/
theorem not_respectsDecline_of_identified : ¬∀ (s : Sys) i s', s.Reachable →
    Sys.step s i = some s' → RespectsDecline s i s' := by
  intro hall
  obtain ⟨s, hs, s', hs', signer, hsigner, hnot⟩ :
      ∃ s ∈ Sys.after (.prepareCase (Intake.sample 1 [(1, true)]) :: .send 1 idText ::
        Step.identify 0 0),
      ∃ s' ∈ Sys.step s (.decline 0), ∃ signer ∈ s.declining? (.decline 0),
        ∀ signer' ∈ s'.db.signer? signer.id, signer'.status ≠ .declined := by decide +kernel
  obtain ⟨signer', hsigner', hdeclined⟩ :=
    (hall s _ s' (Sys.reachable_of_after hs) hs').recorded signer hsigner
  exact hnot signer' hsigner' hdeclined

end Kommunsign
