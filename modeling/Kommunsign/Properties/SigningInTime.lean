import Kommunsign.Workflow.InFlight

/-!
# Signatures of signers who are no longer signing

`handlePadesCreate` reads the intent when it starts, moves the signer to `signing` if it still can,
and then signs one document after the other. Neither the read of the intent nor the row count of
the move stops a run whose signer or case has ended by then.

* `signsWhileSigning_of_run` — in a run whose steps all meet the second, they all meet the first
* `respectsEnd_of_run` — in a run whose steps all meet the second, they all meet the first
-/

namespace Kommunsign

open Infra

def Db.IsSigning (db : Db) (signerId : Id) : Prop :=
  ∃ signer ∈ db.signer? signerId, signer.status = .signing ∧
    ∃ c ∈ db.case? signer.signatureCaseId, c.status.isOpen = true

def Db.MaySign (db : Db) (signerId : Id) : Prop :=
  ∃ signer ∈ db.signer? signerId, (signer.status = .identity_verified ∨ signer.status = .signing) ∧
    ∃ c ∈ db.case? signer.signatureCaseId, c.status.isOpen = true

/-- What is new after a step has been signed by signers who were signing before it. -/
structure SignsWhileSigning (s s' : Sys) : Prop where
  attempts : ∀ a' ∈ s'.db.attempts, (∀ a ∈ s.db.attempts, a.id ≠ a'.id) →
    s.db.IsSigning a'.signerId
  artifacts : ∀ artifact ∈ s'.db.artifacts, artifact ∉ s.db.artifacts →
    ∃ a, s'.db.attempt? artifact.signatureAttemptId = some a ∧ s.db.IsSigning a.signerId

def Sys.Ends (s : Sys) (signer : Signer) : Step → Prop
  | .cancel c | .expire c => c = signer.signatureCaseId
  | .decline i => s.DeclinesCase i signer.signatureCaseId
  | .failIdentity t => s.db.SessionOf t signer.id
  | .recordVerification index pass =>
    pass = false ∧ ∃ t ∈ s.checks[index]?, s.db.SessionOf t signer.id
  | .commitValidation index => ∃ run ∈ s.validates[index]?, run.signerId = signer.id ∧
      (run.admits = false ∨ s.db.completes run = true)
  | _ => False

/-- A run is started for a signer who may sign; as long as it has documents left nothing ends that. -/
structure KeepsSigning (s : Sys) (i : Step) : Prop where
  starts : ∀ si ∈ s.created? i, s.db.MaySign si.signerId
  ends : ∀ run ∈ s.creates, run.documents ≠ [] →
    ∀ signer ∈ s.db.signer? run.intent.signerId, ¬s.Ends signer i

instance (db : Db) (signerId : Id) : Decidable (db.MaySign signerId) :=
  inferInstanceAs (Decidable (∃ signer ∈ db.signer? signerId, _ ∧ ∃ c ∈ _, _))

instance (s : Sys) (signer : Signer) : ∀ i, Decidable (s.Ends signer i)
  | .cancel c | .expire c => inferInstanceAs (Decidable (c = signer.signatureCaseId))
  | .decline i => inferInstanceAs (Decidable (s.DeclinesCase i signer.signatureCaseId))
  | .failIdentity t => inferInstanceAs (Decidable (s.db.SessionOf t signer.id))
  | .recordVerification index pass =>
    inferInstanceAs (Decidable (pass = false ∧ ∃ t ∈ s.checks[index]?, s.db.SessionOf t signer.id))
  | .commitValidation index => inferInstanceAs (Decidable (∃ run ∈ s.validates[index]?,
      run.signerId = signer.id ∧ (run.admits = false ∨ s.db.completes run = true)))
  | .tick _ | .prepareCase _ | .send _ _ | .remind _ | .delivery _ _ | .markOpened _
  | .startSession _ | .recordSession _ _ | .sessionStatus _ _ | .cancelSession _ | .pollIdentity _ _
  | .completeSession _ | .collectEvidence _ _ | .readEvidence _ | .startCreate _ | .markSigning _
  | .skipDocument _ | .loadRevision _ _ | .commitSignature _ _ _ _ | .dropCreate _
  | .readValidate _ _ | .buildPackage _ _ => isFalse id

instance (s : Sys) (i : Step) : Decidable (KeepsSigning s i) :=
  decidable_of_iff ((∀ si ∈ s.created? i, s.db.MaySign si.signerId) ∧
    ∀ run ∈ s.creates, run.documents ≠ [] →
      ∀ signer ∈ s.db.signer? run.intent.signerId, ¬s.Ends signer i)
    ⟨fun h => ⟨h.1, h.2⟩, fun h => ⟨h.starts, h.ends⟩⟩

/-- The run's signer may sign, and if the run is marked is signing, in an open case. -/
def Db.SignsFor (db : Db) (run : PadesCreateRun) : Prop :=
  ∃ signer, db.signer? run.intent.signerId = some signer ∧
    (signer.status = .signing ∨ run.marked = false ∧ signer.status = .identity_verified) ∧
    ∃ c, db.case? signer.signatureCaseId = some c ∧ c.status.isOpen = true

structure RunsSign (s : Sys) : Prop where
  standing : Standing s
  signs : ∀ run ∈ s.creates, run.documents ≠ [] → s.db.SignsFor run

section Steps

variable {s s' : Sys} {i : Step} {signer : Signer}

theorem signing_or_ends {old new : SignerStatus}
    (hmay : (stepEffect s i).signer signer.id signer.signatureCaseId old new)
    (hallowed : new ∈ old.allowed) (hold : old = .signing ∨ old = .identity_verified) :
    new = .signing ∨ s.Ends signer i := by
  cases signerTransition_of_effect hmay with
  | invitesFirst | starts => rcases hold with rfl | rfl <;> simp [SignerStatus.allowed] at hallowed
  | expires => exact Or.inr rfl
  | opens | verifies | invitesNext => rcases hold with h | h <;> cases h
  | declines _ _ h => rcases hold with rfl | rfl <;> rcases h with h | h | h <;> cases h
  | failsIdentity t _ hsession => exact Or.inr hsession
  | failsVerification index t _ ht hsession => exact Or.inr ⟨rfl, t, ht, hsession⟩
  | marks => exact Or.inl rfl
  | refuses index run hrun hid hrefused => exact Or.inr ⟨run, hrun, hid, Or.inl hrefused⟩
  | signs index run hrun hid hcompletes => exact Or.inr ⟨run, hrun, hid, Or.inr hcompletes⟩

theorem ends_of_sent {new : CaseStatus}
    (hmay : (stepEffect s i).case signer.signatureCaseId .sent new)
    (hallowed : new ∈ CaseStatus.allowed .sent) : s.Ends signer i := by
  cases caseTransition_of_effect hmay with
  | sends | completes => simp [CaseStatus.allowed] at hallowed
  | cancels | expires => exact rfl
  | declines invitationId _ _ hdeclines => exact hdeclines

theorem maySign_of_step (hstanding : Standing s) (hstep : Sys.step s i = some s')
    {id : Id} (hsigner : s.db.signer? id = some signer) (hends : ¬s.Ends signer i)
    {c : SignatureCase} (hc : s.db.case? signer.signatureCaseId = some c)
    (hopen : c.status.isOpen = true) :
    ∃ signer', s'.db.signer? id = some signer' ∧
      (signer.status = .signing → signer'.status = .signing) ∧
      (signer.status = .identity_verified →
        signer'.status = .signing ∨ signer'.status = .identity_verified) ∧
      ∃ c', s'.db.case? signer'.signatureCaseId = some c' ∧ c'.status.isOpen = true := by
  obtain ⟨signer', hsigner', hchange⟩ := signer?_of_step hstep hsigner
  obtain ⟨c', hc', hcase⟩ := case?_of_step hstep hc
  obtain ⟨hmem, hid⟩ := exists_of_find?_key hc
  have hsent : c.status = .sent := eq_sent_of_isOpen (hstanding.reached c hmem) hopen
  refine ⟨signer', hsigner', fun hsigning => ?_, fun hverified => ?_, c', ?_, ?_⟩
  · refine hchange.change.keeps (P := fun status => status = .signing) ?_ hsigning
    rintro old new hallowed hmay rfl
    exact (signing_or_ends hmay hallowed (Or.inl rfl)).resolve_right hends
  · refine hchange.change.keeps (P := fun status =>
      status = .signing ∨ status = .identity_verified) ?_ (Or.inr hverified)
    intro old new hallowed hmay hold
    exact Or.inl ((signing_or_ends hmay hallowed hold).resolve_right hends)
  · rw [hchange.toSignerMove.signatureCaseId]
    exact hc'
  · have hstays : c'.status = .sent := by
      refine hcase.change.keeps (P := fun status => status = .sent) ?_ hsent
      rintro old new hallowed hmay rfl
      rw [hid] at hmay
      exact absurd (ends_of_sent hmay hallowed) hends
    rw [hstays]
    rfl

theorem runsSign_of_step (h : RunsSign s) (hkeeps : KeepsSigning s i)
    (hstep : Sys.step s i = some s') : RunsSign s' := by
  refine ⟨standing_of_step h.standing hstep, fun run' hrun' hdocuments => ?_⟩
  rcases (runsAfter_of_step hstep).creates run' hrun' with
    ⟨run, hrun, hcontinues⟩ | ⟨intentId, rfl, hstart⟩
  · -- a run that goes on: its signer is kept, and marking it leaves the signer signing
    have hdocuments' := hcontinues.documents hdocuments
    obtain ⟨signer, hsigner, hstatus, c, hc, hopen⟩ := h.signs run hrun hdocuments'
    have hends := hkeeps.ends run hrun hdocuments' signer hsigner
    obtain ⟨signer', hsigner', hsigning, hverified, hcase⟩ :=
      maySign_of_step h.standing hstep hsigner hends hc hopen
    unfold Db.SignsFor
    rw [hcontinues.intent]
    refine ⟨signer', hsigner', ?_, hcase⟩
    rcases hstatus with hstatus | ⟨hunmarked, hstatus⟩
    · exact Or.inl (hsigning hstatus)
    · cases hmarked : run'.marked with
      | false => exact (hverified hstatus).imp_right fun h => ⟨rfl, h⟩
      | true =>
        obtain ⟨index, rfl, hindex⟩ := hcontinues.marked hunmarked hmarked
        obtain ⟨run₁, n, db, hrun₁, -, hok, rfl⟩ := step_markSigning hstep
        obtain rfl := Option.some.inj (hindex.symm.trans hrun₁)
        obtain ⟨signer₁, hsigner₁, -, hstatus₁⟩ := signer?_markSigning hok hsigner
        obtain rfl := Option.some.inj (hsigner'.symm.trans hsigner₁)
        rw [if_pos hstatus] at hstatus₁
        exact Or.inl hstatus₁
  · -- a run that has just been started: its signer may sign
    obtain ⟨-, run, hstart', rfl⟩ := step_startCreate hstep
    obtain ⟨hintent, -, -, -, hunmarked, -⟩ := startPadesCreate_eq hstart
    obtain ⟨si, _, signer, _, hsi, -, hsigner, -, heq⟩ := loadIntent_eq_ok hintent
    obtain ⟨signer₁, hsigner₁, hstatus, hcase⟩ := hkeeps.starts si hsi
    obtain rfl := Option.some.inj (hsigner.symm.trans hsigner₁)
    have hid : run'.intent.signerId = si.signerId := by
      rw [heq]
      exact (exists_of_find?_key hsigner).2
    refine ⟨signer, ?_, ?_, hcase⟩
    · rw [hid]
      exact hsigner
    · exact hstatus.elim (fun h => Or.inr ⟨hunmarked, h⟩) Or.inl

theorem isSigning_of_marked (h : RunsSign s) {run : PadesCreateRun} (hrun : run ∈ s.creates)
    (hmarked : run.marked = true) (hdocuments : run.documents ≠ []) :
    s.db.IsSigning run.intent.signerId := by
  obtain ⟨signer, hsigner, hstatus, c, hc, hopen⟩ := h.signs run hrun hdocuments
  rcases hstatus with hsigning | ⟨hunmarked, -⟩
  · exact ⟨signer, hsigner, hsigning, c, hc, hopen⟩
  · rw [hmarked] at hunmarked
    cases hunmarked

theorem signsWhileSigning_of_step (h : RunsSign s) (hstep : Sys.step s i = some s') :
    SignsWhileSigning s s' where
  attempts := by
    intro a' ha' hnew
    rcases attempts_of_step hstep a' ha' with ⟨a, ha, hid, -⟩ | ⟨run, hrun, hmarked, hleft, hsigner⟩
    · exact absurd hid (hnew a ha)
    · rw [← hsigner]
      exact isSigning_of_marked h hrun hmarked hleft
  artifacts := by
    intro artifact hartifact hnew
    rcases artifacts_of_step hstep artifact hartifact with
      hold | ⟨run, hrun, hmarked, hleft, a, ha, hsigner⟩
    · exact absurd hold hnew
    · refine ⟨a, ha, ?_⟩
      rw [← hsigner]
      exact isSigning_of_marked h hrun hmarked hleft

end Steps

/-! ## Runs -/

/-- In a run of such steps every signature is that of a signer who is signing. -/
theorem signsWhileSigning_of_run {tenantId : Text} {organizationName : Option Text} {rollout : Bool}
    {clock : Time} {steps : List Step}
    (h : Meets Sys.step KeepsSigning (Sys.start tenantId organizationName rollout clock) steps) :
    Meets Sys.step (fun s i => ∀ s', Sys.step s i = some s' → SignsWhileSigning s s')
      (Sys.start tenantId organizationName rollout clock) steps := by
  refine meets_of_meets (fun _ _ _ hinv hkeeps hstep => runsSign_of_step hinv hkeeps hstep)
    (fun _ _ hinv _ _ hstep => signsWhileSigning_of_step hinv hstep) ?_ h
  refine ⟨standing_start tenantId organizationName rollout clock, ?_⟩
  intro run hrun
  exact absurd hrun List.not_mem_nil

namespace SigningInTime

/-- A signer is identified, and the run that signs has read its first revision. -/
def untilLoaded : List Step :=
  .prepareCase (Intake.sample 1 [(1, true)]) :: .send 1 idText :: Step.identify 0 0 ++
    [.startCreate 0, .markSigning 0, .loadRevision 0 fun _ => 100]

end SigningInTime

/-- A run in which the signer signs. -/
theorem signsWhileSigning_of_run_signing : ∃ steps, (∃ s ∈ Sys.after steps, s.db.artifacts ≠ []) ∧
    Meets Sys.step (fun s i => ∀ s', Sys.step s i = some s' → SignsWhileSigning s s')
      (Sys.start "1".toList none true 0) steps :=
  ⟨SigningInTime.untilLoaded ++ [.commitSignature 0 1 100 200], by decide +kernel,
    signsWhileSigning_of_run (by decide +kernel)⟩

/-- The case expires between the read of the revision and the signature. -/
theorem not_signsWhileSigning_of_expired : ¬∀ (s : Sys) i s', s.Reachable →
    Sys.step s i = some s' → SignsWhileSigning s s' := by
  intro hall
  obtain ⟨s, hs, s', hs', ⟨a, ha, hsigner⟩, hnone, hexpired⟩ : ∃ s ∈ Sys.after
      (SigningInTime.untilLoaded ++ [.tick 2000000, .expire 1]),
      ∃ s' ∈ Sys.step s (.commitSignature 0 1 100 200),
        (∃ a ∈ s'.db.attempts, a.signerId = 0) ∧ s.db.attempts = [] ∧
          (s.db.signer? 0).map (·.status) = some .expired := by decide +kernel
  have hattempts := (hall s _ s' (Sys.reachable_of_after hs) hs').attempts a ha
  rw [hnone, hsigner] at hattempts
  obtain ⟨signer, hrow, hsigning, -⟩ := hattempts nofun
  rw [Option.mem_def.mp hrow, Option.map_some, hsigning] at hexpired
  cases hexpired

/-!
# Cases that have been declined, cancelled or have expired

Ending a case leaves its intents, sessions and queued jobs as they are, and cancelling or declining
leaves its signers too. A run of `handlePadesCreate` does not look at the status of the case.
-/

def CaseStatus.isTerminated : CaseStatus → Bool
  | .declined | .cancelled | .expired => true
  | _ => false

def Db.Terminated (db : Db) (signer : Signer) : Prop :=
  ∃ c ∈ db.case? signer.signatureCaseId, c.status.isTerminated = true

structure RespectsEnd (s s' : Sys) : Prop where
  cases : ∀ c id, s.db.case? id = some c → c.status.isTerminated = true →
    ∃ c', s'.db.case? id = some c' ∧ c'.status = c.status
  signers : ∀ id signer signer', s.db.signer? id = some signer → s.db.Terminated signer →
    s'.db.signer? id = some signer' → signer'.status = .signing ∨ signer'.status = .signed →
      signer'.status = signer.status
  attempts : ∀ a' ∈ s'.db.attempts, (∀ a ∈ s.db.attempts, a.id ≠ a'.id) →
    ∀ signer, s.db.signer? a'.signerId = some signer → ¬s.db.Terminated signer
  artifacts : ∀ artifact ∈ s'.db.artifacts, artifact ∉ s.db.artifacts →
    ∃ a, s'.db.attempt? artifact.signatureAttemptId = some a ∧
      ∀ signer, s.db.signer? a.signerId = some signer → ¬s.db.Terminated signer

/-- The step declines or cancels the case, and leaves its signers as they are. -/
def Sys.Abandons (s : Sys) (signatureCaseId : Id) : Step → Prop
  | .cancel c => c = signatureCaseId
  | .decline i => s.DeclinesCase i signatureCaseId
  | _ => False

def Sys.Terminates (s : Sys) (signatureCaseId : Id) (i : Step) : Prop :=
  i = .expire signatureCaseId ∨ s.Abandons signatureCaseId i

/--
No run is started for a case that has ended, and no case ends while a run with documents left is
about to sign for it; nor is it declined or cancelled while one of its signers is signing.
-/
structure EndsQuietly (s : Sys) (i : Step) : Prop where
  starts : ∀ si ∈ s.created? i, ∀ signer ∈ s.db.signer? si.signerId, ¬s.db.Terminated signer
  runs : ∀ run ∈ s.creates, run.documents ≠ [] → ∀ signer ∈ s.db.signer? run.intent.signerId,
    ¬s.Terminates signer.signatureCaseId i
  signers : ∀ signer ∈ s.db.signers, signer.status = .signing →
    ¬s.Abandons signer.signatureCaseId i

instance (db : Db) (signer : Signer) : Decidable (db.Terminated signer) :=
  inferInstanceAs (Decidable (∃ c ∈ db.case? signer.signatureCaseId, _))

instance (s : Sys) (signatureCaseId : Id) : ∀ i, Decidable (s.Abandons signatureCaseId i)
  | .cancel c => inferInstanceAs (Decidable (c = signatureCaseId))
  | .decline i => inferInstanceAs (Decidable (s.DeclinesCase i signatureCaseId))
  | .tick _ | .prepareCase _ | .send _ _ | .expire _ | .remind _ | .delivery _ _ | .markOpened _
  | .startSession _ | .recordSession _ _ | .sessionStatus _ _ | .cancelSession _ | .pollIdentity _ _
  | .completeSession _ | .collectEvidence _ _ | .failIdentity _ | .readEvidence _
  | .recordVerification _ _ | .startCreate _ | .markSigning _ | .skipDocument _ | .loadRevision _ _
  | .commitSignature _ _ _ _ | .dropCreate _ | .readValidate _ _ | .commitValidation _
  | .buildPackage _ _ => isFalse id

instance (s : Sys) (signatureCaseId : Id) : ∀ i, Decidable (s.Terminates signatureCaseId i)
  | .expire c => decidable_of_iff (c = signatureCaseId)
      ⟨fun h => Or.inl (congrArg Step.expire h), fun h => h.elim Step.expire.inj nofun⟩
  | .tick _ | .prepareCase _ | .send _ _ | .cancel _ | .remind _ | .delivery _ _ | .markOpened _
  | .decline _ | .startSession _ | .recordSession _ _ | .sessionStatus _ _ | .cancelSession _
  | .pollIdentity _ _ | .completeSession _ | .collectEvidence _ _ | .failIdentity _
  | .readEvidence _ | .recordVerification _ _ | .startCreate _ | .markSigning _ | .skipDocument _
  | .loadRevision _ _ | .commitSignature _ _ _ _ | .dropCreate _ | .readValidate _ _
  | .commitValidation _ | .buildPackage _ _ =>
    decidable_of_iff (s.Abandons signatureCaseId _)
      ⟨Or.inr, fun h => h.resolve_left nofun⟩

instance (s : Sys) (i : Step) : Decidable (EndsQuietly s i) :=
  decidable_of_iff ((∀ si ∈ s.created? i, ∀ signer ∈ s.db.signer? si.signerId,
      ¬s.db.Terminated signer) ∧
    (∀ run ∈ s.creates, run.documents ≠ [] → ∀ signer ∈ s.db.signer? run.intent.signerId,
      ¬s.Terminates signer.signatureCaseId i) ∧
    ∀ signer ∈ s.db.signers, signer.status = .signing → ¬s.Abandons signer.signatureCaseId i)
    ⟨fun h => ⟨h.1, h.2.1, h.2.2⟩, fun h => ⟨h.starts, h.runs, h.signers⟩⟩

structure NothingPending (s : Sys) : Prop where
  runs : ∀ run ∈ s.creates, run.documents ≠ [] →
    ∃ signer, s.db.signer? run.intent.signerId = some signer ∧ ¬s.db.Terminated signer
  unmarked : ∀ run ∈ s.creates, run.marked = false → run.documents ≠ []
  signing : ∀ id signer, s.db.signer? id = some signer → signer.status = .signing →
    ¬s.db.Terminated signer

section Steps

variable {s s' : Sys} {i : Step} {signer signer' : Signer} {id : Id}

theorem terminates_of_effect {c : Id} {old new : CaseStatus} (hmay : (stepEffect s i).case c old new)
    (hnew : new.isTerminated = true) : s.Terminates c i := by
  cases caseTransition_of_effect hmay with
  | sends | completes => cases hnew
  | cancels => exact Or.inr rfl
  | expires => exact Or.inl rfl
  | declines invitationId _ _ hdeclines => exact Or.inr hdeclines

theorem terminated_before_step (hstep : Sys.step s i = some s')
    (hsame : signer'.signatureCaseId = signer.signatureCaseId) (h : s'.db.Terminated signer') :
    s.db.Terminated signer ∨ s.Terminates signer.signatureCaseId i := by
  obtain ⟨c', hc', hended⟩ := h
  rw [Option.mem_def, hsame] at hc'
  rcases case?_before_step hstep hc' with ⟨c, hc, hchange⟩ | ⟨-, hready⟩
  · have hid : c.id = signer.signatureCaseId := (exists_of_find?_key hc).2
    by_contra hneither
    rw [not_or] at hneither
    have hgoes : c'.status.isTerminated = false := by
      refine hchange.change.keeps (P := fun status => status.isTerminated = false) ?_ ?_
      · intro old new _ hmay _
        rw [hid] at hmay
        by_contra hnew
        exact hneither.2 (terminates_of_effect hmay (Bool.not_eq_false _ ▸ hnew))
      · by_contra hold
        exact hneither.1 ⟨c, hc, Bool.not_eq_false _ ▸ hold⟩
    rw [hgoes] at hended
    cases hended
  · rw [hready] at hended
    cases hended

theorem signing_before_step (hchange : SignerChange (stepEffect s i) signer signer')
    (hsigning : signer'.status = .signing) : signer.status = .signing ∨
      ∃ index run, i = .markSigning index ∧ s.creates[index]? = some run ∧
        run.intent.signerId = signer.id := by
  by_contra hneither
  rw [not_or] at hneither
  refine hchange.change.keeps (P := fun status => status ≠ .signing) ?_ hneither.1 hsigning
  rintro old new - hmay - rfl
  cases signerTransition_of_effect hmay with
  | marks index run hrun hid => exact hneither.2 ⟨index, run, rfl, hrun, hid⟩

theorem not_signing_of_expire {c : Id} (hstep : Sys.step s (.expire c) = some s')
    (hsigner' : s'.db.signer? id = some signer') (hcase : signer'.signatureCaseId = c) :
    s' = s ∨ signer'.status ≠ .signing := by
  obtain ⟨db, hok, rfl⟩ := Sys.commit_eq_some.mp hstep
  rcases expireCase_signers hok with rfl | hsigners
  · exact Or.inl rfl
  · refine Or.inr fun hsigning => ?_
    have hmem : signer' ∈ db.signers := (exists_of_find?_key hsigner').1
    rw [hsigners] at hmem
    obtain ⟨row, -, rfl⟩ := mem_assign.mp hmem
    -- a row that is still signing would not have been final before
    split at hsigning
    · cases hsigning
    · next hp =>
      rw [if_neg hp] at hcase
      refine hp ?_
      rw [hcase, hsigning]
      simp [SignerStatus.isFinal]

theorem nothingPending_of_step (h : NothingPending s) (hquiet : EndsQuietly s i)
    (hstep : Sys.step s i = some s') : NothingPending s' where
  runs := by
    intro run' hrun' hdocuments
    rcases (runsAfter_of_step hstep).creates run' hrun' with
      ⟨run, hrun, hcontinues⟩ | ⟨intentId, rfl, hstart⟩
    · have hdocuments' := hcontinues.documents hdocuments
      obtain ⟨signer, hsigner, hgoes⟩ := h.runs run hrun hdocuments'
      obtain ⟨signer', hsigner', hchange⟩ := signer?_of_step hstep hsigner
      rw [hcontinues.intent]
      refine ⟨signer', hsigner', fun hended => ?_⟩
      rcases terminated_before_step hstep hchange.toSignerMove.signatureCaseId hended with
        hbefore | hterminates
      · exact hgoes hbefore
      · exact hquiet.runs run hrun hdocuments' signer hsigner hterminates
    · obtain ⟨-, run, hstart', rfl⟩ := step_startCreate hstep
      obtain ⟨hintent, -, -, -, -, -⟩ := startPadesCreate_eq hstart
      obtain ⟨si, _, signer, _, hsi, -, hsigner, -, heq⟩ := loadIntent_eq_ok hintent
      have hid : run'.intent.signerId = si.signerId := by
        rw [heq]
        exact (exists_of_find?_key hsigner).2
      rw [hid]
      exact ⟨signer, hsigner, hquiet.starts si hsi signer hsigner⟩
  unmarked := by
    intro run' hrun' hunmarked
    rcases (runsAfter_of_step hstep).creates run' hrun' with
      ⟨run, hrun, hcontinues⟩ | ⟨intentId, rfl, hstart⟩
    · obtain ⟨hunmarked', hsame⟩ := hcontinues.unmarked hunmarked
      rw [hsame]
      exact h.unmarked run hrun hunmarked'
    · exact (startPadesCreate_eq hstart).2.2.2.1
  signing := by
    intro id signer' hsigner' hsigning hended
    rcases signer?_before_step hstep hsigner' with ⟨signer, hsigner, hchange⟩ | ⟨-, -, hpending⟩
    · have hcase := hchange.toSignerMove.signatureCaseId
      rcases signing_before_step hchange hsigning with hbefore | ⟨index, run, rfl, hrun, hid⟩
      · -- the signer was signing before: then the case had not ended, and no step may end it now
        rcases terminated_before_step hstep hcase hended with hterminated | rfl | habandons
        · exact h.signing id signer hsigner hbefore hterminated
        · rcases not_signing_of_expire hstep hsigner' hcase with rfl | hnot
          · exact h.signing id signer' hsigner' hsigning hended
          · exact hnot hsigning
        · exact hquiet.signers signer (exists_of_find?_key hsigner).1 hbefore habandons
      · -- the signer has just been marked, by a run that still has a document to sign
        obtain ⟨run₁, _, _, hrun₁, hunmarked, -, -⟩ := step_markSigning hstep
        obtain rfl := Option.some.inj (hrun.symm.trans hrun₁)
        have hmem := List.mem_of_getElem? hrun
        obtain ⟨signer₁, hsigner₁, hgoes⟩ := h.runs run hmem (h.unmarked run hmem hunmarked)
        rw [hid, (exists_of_find?_key hsigner).2] at hsigner₁
        obtain rfl := Option.some.inj (hsigner.symm.trans hsigner₁)
        rcases terminated_before_step hstep hcase hended with hterminated | heq | habandons
        · exact hgoes hterminated
        · cases heq
        · exact habandons
    · rw [hpending] at hsigning
      cases hsigning

theorem respectsEnd_of_step (h : NothingPending s) (hstep : Sys.step s i = some s') :
    RespectsEnd s s' where
  cases := by
    intro c id hc hended
    refine case?_of_isEnded hstep hc ?_
    revert hended
    cases c.status <;> decide
  signers := by
    intro id signer signer' hsigner hended hsigner'
    obtain ⟨signer₁, hsigner₁, hchange⟩ := signer?_of_step hstep hsigner
    obtain rfl := Option.some.inj (hsigner'.symm.trans hsigner₁)
    refine hchange.change.keeps (P := fun status => status = .signing ∨ status = .signed →
      status = signer.status) ?_ fun _ => rfl
    intro old new _ hmay hold hnew
    cases signerTransition_of_effect hmay with
    | marks index run hrun hid =>
      obtain ⟨run₁, _, _, hrun₁, hunmarked, -, -⟩ := step_markSigning hstep
      obtain rfl := Option.some.inj (hrun.symm.trans hrun₁)
      have hmem := List.mem_of_getElem? hrun
      obtain ⟨signer₁, hsigner₁, hgoes⟩ := h.runs run hmem (h.unmarked run hmem hunmarked)
      rw [hid, (exists_of_find?_key hsigner).2] at hsigner₁
      obtain rfl := Option.some.inj (hsigner.symm.trans hsigner₁)
      exact absurd hended hgoes
    | signs index run hrun hid hcompletes =>
      exact absurd hended (h.signing id signer hsigner (hold (Or.inl rfl)).symm)
    | invitesFirst | invitesNext | expires | opens | declines | starts | verifies | failsIdentity | failsVerification
    | refuses => rcases hnew with h | h <;> cases h
  attempts := by
    intro a' ha' hnew signer hsigner
    rcases attempts_of_step hstep a' ha' with ⟨a, ha, hid, -⟩ | ⟨run, hrun, -, hleft, hid⟩
    · exact absurd hid (hnew a ha)
    · obtain ⟨signer₁, hsigner₁, hgoes⟩ := h.runs run hrun hleft
      rw [hid] at hsigner₁
      obtain rfl := Option.some.inj (hsigner.symm.trans hsigner₁)
      exact hgoes
  artifacts := by
    intro artifact hartifact hnew
    rcases artifacts_of_step hstep artifact hartifact with hold | ⟨run, hrun, -, hleft, a, ha, hid⟩
    · exact absurd hold hnew
    · refine ⟨a, ha, fun signer hsigner => ?_⟩
      obtain ⟨signer₁, hsigner₁, hgoes⟩ := h.runs run hrun hleft
      rw [hid] at hsigner₁
      obtain rfl := Option.some.inj (hsigner.symm.trans hsigner₁)
      exact hgoes

end Steps

/-! ## Runs -/

/-- In a run of such steps a case that has ended is signed by nobody any more. -/
theorem respectsEnd_of_run {tenantId : Text} {organizationName : Option Text} {rollout : Bool}
    {clock : Time} {steps : List Step}
    (h : Meets Sys.step EndsQuietly (Sys.start tenantId organizationName rollout clock) steps) :
    Meets Sys.step (fun s i => ∀ s', Sys.step s i = some s' → RespectsEnd s s')
      (Sys.start tenantId organizationName rollout clock) steps := by
  refine meets_of_meets (fun _ _ _ hinv hquiet hstep => nothingPending_of_step hinv hquiet hstep)
    (fun _ _ hinv _ _ hstep => respectsEnd_of_step hinv hstep) ?_ h
  refine ⟨fun run hrun => absurd hrun List.not_mem_nil,
    fun run hrun => absurd hrun List.not_mem_nil, fun id signer hsigner => ?_⟩
  exact absurd (List.mem_of_find?_eq_some hsigner) List.not_mem_nil

/-- A case is cancelled, and then its signer starts BankID through the old invitation. -/
theorem respectsEnd_of_run_cancelled : ∃ steps, (∃ s ∈ Sys.after steps, s.starts ≠ [] ∧
      (s.db.case? 1).map (·.status) = some .cancelled) ∧
    Meets Sys.step (fun s i => ∀ s', Sys.step s i = some s' → RespectsEnd s s')
      (Sys.start "1".toList none true 0) steps :=
  ⟨[.prepareCase (Intake.sample 1 [(1, true)]), .send 1 idText, .cancel 1, .startSession 0],
    by decide +kernel, respectsEnd_of_run (by decide +kernel)⟩

/-- The signer of a cancelled case starts BankID, is identified, and is moved to `signing`. -/
theorem not_respectsEnd_of_cancelled : ¬∀ (s : Sys) i s', s.Reachable →
    Sys.step s i = some s' → RespectsEnd s s' := by
  intro hall
  obtain ⟨s, hs, s', hs', hended, signer, hsigner, hold, signer', hsigner', hsigning⟩ :
      ∃ s ∈ Sys.after (.prepareCase (Intake.sample 1 [(1, true)]) :: .send 1 idText :: .cancel 1 ::
        Step.identify 0 0 ++ [.startCreate 0]),
      ∃ s' ∈ Sys.step s (.markSigning 0), (∀ signer ∈ s.db.signers, s.db.Terminated signer) ∧
        ∃ signer ∈ s.db.signer? 0, signer.status = .identity_verified ∧
          ∃ signer' ∈ s'.db.signer? 0, signer'.status = .signing := by decide +kernel
  have hterminated := hended signer (exists_of_find?_key hsigner).1
  have hsame := (hall s _ s' (Sys.reachable_of_after hs) hs').signers 0 signer signer' hsigner
    hterminated hsigner' (Or.inl hsigning)
  rw [hold, hsigning] at hsame
  cases hsame

end Kommunsign
