import Kommunsign.Workflow.AcceptedUpdates
import Kommunsign.Workflow.Signatures

/-!
# The last document of a signer

When the last signature of a signer is admitted, `handlePadesValidate` uses up the invitations of the
signer that are not used. Some of them may have been revoked, by a reminder that has rotated the
token, and `app.protect_consumed_invitation` lets nothing about a revoked invitation change. The
whole transaction is then rolled back, as often as the job is run.

* `commitsLast_iff` — the run commits exactly when no unused invitation of the signer is revoked
* `not_commitsLast_of_reminder` — one reminder is enough
-/

namespace Kommunsign

open Infra

/-- The run commits, and no token opens anything for its signer from then on. -/
def Sys.CommitsLast (s : Sys) (run : PadesValidateRun) : Prop :=
  ∃ db, commitValidation s.clock run s.db = .ok ((), db) ∧ ∀ now invitationId resolved,
    resolveInvitation db now invitationId = .ok resolved → resolved.signerId ≠ run.signerId

/-! ## Invitations -/

section Invitations

variable {db db' : Db} {now : Time} {run : PadesValidateRun} {u : Unit}

theorem resolveInvitation_eq_ok {invitationId : Id} {resolved : InvitationResolution}
    (h : resolveInvitation db now invitationId = .ok resolved) : ∃ i ∈ db.invitations,
      i.signerId = resolved.signerId ∧ i.usedAt = none ∧ i.revokedAt = none := by
  unfold resolveInvitation at h
  cases hi : db.invitation? invitationId with
  | none =>
    rw [hi] at h
    cases h
  | some i =>
    rw [hi] at h
    dsimp only at h
    split at h
    · next hopen =>
      cases h
      rw [Bool.and_eq_true, Bool.and_eq_true, Option.isNone_iff_eq_none,
        Option.isNone_iff_eq_none] at hopen
      exact ⟨i, List.mem_of_find?_eq_some hi, rfl, hopen.2, hopen.1.1⟩
    · cases h

theorem invitations_of_inviteSigners : ∀ {signers : List (Id × Time)} {db db' : Db} {u : Unit},
    Transaction.forEach (inviteSigner now) signers db = .ok (u, db') →
      ∀ i ∈ db'.invitations, i ∈ db.invitations ∨ ∃ signer ∈ signers, signer.1 = i.signerId
  | [], _, _, _, h, i, hi => by
    obtain ⟨-, rfl⟩ := Transaction.pure_eq_ok.mp h
    exact Or.inl hi
  | signer :: signers, db, _, _, h, i, hi => by
    obtain ⟨_, db₁, h₁, h₂⟩ := Transaction.bind_eq_ok.mp h
    rcases invitations_of_inviteSigners h₂ i hi with hold | ⟨other, hother, hid⟩
    · rw [inviteSigner, Transaction.read_bind] at h₁
      simp only [Transaction.bind_eq_ok] at h₁
      obtain ⟨_, db₂, h₂, _, db₃, h₃, h₄⟩ := h₁
      obtain ⟨-, rfl⟩ := Table.insert_eq_ok.mp h₂
      obtain ⟨-, rfl, -⟩ := Table.update_eq_ok.mp h₃
      obtain rfl := Transaction.rewrite_eq_ok.mp h₄
      rcases List.mem_append.mp hold with hbefore | hnew
      · exact Or.inl hbefore
      · rw [List.mem_singleton.mp hnew]
        exact Or.inr ⟨signer, List.mem_cons_self, rfl⟩
    · exact Or.inr ⟨other, List.mem_cons_of_mem _ hother, hid⟩

theorem invitations_of_activate {c : Id} (h : activateNextSigningGroup now c db = .ok (u, db')) :
    ∀ i ∈ db'.invitations, i ∈ db.invitations ∨
      ∃ signer ∈ db.signers, signer.id = i.signerId ∧ signer.status = .pending := by
  intro i hi
  rcases activateNextSigningGroup_eq h with ⟨-, rfl⟩ | ⟨group, -, hinvite⟩
  · exact Or.inl hi
  · rcases invitations_of_inviteSigners hinvite i hi with hold | hnew
    · exact Or.inl hold
    · obtain ⟨signer, hmem, hid, -, -, hpending, -⟩ := mem_groupSigners.mp hnew
      exact Or.inr ⟨signer, hmem, hid, hpending⟩

theorem usedAt_of_completeSigner (hkeys : (db.signers.map (·.id)).Nodup) {signer : Signer}
    (hsigner : db.signer? run.signerId = some signer) (hsigning : signer.status = .signing)
    (h : completeSigner now run db = .ok (u, db')) :
    ∀ i ∈ db'.invitations, i.signerId = run.signerId → i.usedAt ≠ none := by
  obtain ⟨-, db₁, hactivate, rfl⟩ := completeSigner_eq h
  intro i hi hof
  have hmem : i ∈ db₁.invitations := by
    unfold Db.withCaseJob at hi
    split at hi <;> exact hi
  rcases invitations_of_activate hactivate i hmem with hold | ⟨row, hrow, hid, hpending⟩
  · obtain ⟨before, -, rfl⟩ := mem_assign.mp hold
    split
    · nofun
    · next hp =>
      rw [if_neg hp] at hof
      simpa [hof] using hp
  · -- the signer is signed by now, so it is not one of those who are invited
    obtain ⟨before, hbefore, rfl⟩ := mem_assign.mp hrow
    obtain ⟨hsignerMem, hsignerId⟩ := exists_of_find?_key hsigner
    split at hpending
    · cases hpending
    · next hp =>
      rw [if_neg hp] at hid
      obtain rfl := eq_of_key_eq hkeys hbefore hsignerMem
        ((hid.trans hof).trans hsignerId.symm)
      exact absurd hpending (by rw [hsigning]; decide)

theorem revokedAt_of_recordSigned (h : recordSigned now run db = .ok (u, db')) :
    ∀ i ∈ db.invitations, i.signerId = run.signerId → i.usedAt = none → i.revokedAt = none := by
  simp only [recordSigned, Transaction.bind_eq_ok] at h
  obtain ⟨_, db₁, h₁, _, db₂, h₂, _, db₃, h₃, -⟩ := h
  obtain ⟨-, rfl, -⟩ := Table.update_eq_ok.mp h₁
  obtain ⟨-, rfl, -⟩ := Table.update_eq_ok.mp h₂
  obtain ⟨hrows, -, -⟩ := Table.update_eq_ok.mp h₃
  intro i hi hof hunused
  have hrow := hrows i hi (by simp [hof, hunused])
  simp only [Tables.invitations, protectConsumedInvitation, refuse_append, refuse_raises] at hrow
  have hrevoked := hrow.1.1.2
  -- the row does change
  have hchanged : i.use now ≠ i := fun hsame => by
    have hused : some (i.usedAt.getD now) = i.usedAt := congrArg (·.usedAt) hsame
    rw [hunused] at hused
    cases hused
  simpa [hchanged] using hrevoked

theorem recordSigned_ok
    (hsigners : ∀ s ∈ db.signers, s.id = run.signerId → s.status = .signing →
      (Tables.signers .trustedService).onUpdate db s { s with status := .signed } = .ok ())
    (hlive : ∀ i ∈ db.invitations, i.signerId = run.signerId → i.usedAt = none → i.revokedAt = none)
    (hinvitations : ∀ i ∈ db.invitations, i.createdAt ≤ now ∧
      ∃ signer ∈ db.signers, signer.id = i.signerId) :
    recordSigned now run db = .ok ((), db.withSigned now run) := by
  simp only [recordSigned, Transaction.bind_eq_ok]
  refine ⟨_, _, Table.update_eq_ok.mpr ⟨fun s hs hp => ?_, rfl, rfl⟩, _, _,
    Table.update_eq_ok.mpr ⟨fun si _ hp => ?_, rfl, rfl⟩, _, _,
    Table.update_eq_ok.mpr ⟨fun i hi hp => ?_, rfl, rfl⟩, (), _, Transaction.rewrite_eq_ok.mpr rfl,
    (), _, Transaction.rewrite_eq_ok.mpr rfl, Transaction.rewrite_eq_ok.mpr rfl⟩
  · rw [Bool.and_eq_true, beq_iff_eq, beq_iff_eq] at hp
    exact hsigners s hs hp.1 hp.2
  · rw [Bool.and_eq_true, beq_iff_eq, beq_iff_eq] at hp
    refine intents_onUpdate_status ?_ (by rfl)
    rw [hp.2]
    exact List.mem_cons_self
  · rw [Bool.and_eq_true, beq_iff_eq, Option.isNone_iff_eq_none] at hp
    obtain ⟨hcreated, signer, hmem, hid⟩ := hinvitations i hi
    have hrevoked := hlive i hi hp.1 hp.2
    have huse : i.use now = { i with usedAt := some now, revokedAt := none } := by
      rw [SignerInvitation.use, hp.2, Option.getD_none, ← hrevoked]
    rw [huse]
    refine invitations_onUpdate_live hp.2 hrevoked (fun t ht => ?_) (fun t ht => by cases ht)
      ⟨_, mem_assign.mpr ⟨signer, hmem, rfl⟩, ?_⟩
    · rw [← Option.some.inj ht]
      exact hcreated
    · split <;> exact hid

end Invitations

/-! ## The signer -/

section Signer

variable {db : Db} {now : Time} {run : PadesValidateRun} {signer : Signer} {si : SigningIntent}

theorem refuse_signatureEvidence (hsingle : (db.intents.map (·.signerId)).Nodup)
    (hsi : si ∈ db.intents) (hof : si.signerId = signer.id) (hverified : si.status.isVerified = true)
    (hsignable : db.signableDocuments si.id ≠ [])
    (hsigned : ∀ c, db.case? signer.signatureCaseId = some c → ∀ d ∈ db.signableDocuments si.id,
      db.hasValidatedSignature c.policySnapshot signer.id d.documentVersionId = true) :
    refuse (assertSignerSignatureEvidence db signer { signer with status := .signed }) = .ok () := by
  unfold assertSignerSignatureEvidence
  split
  · rfl
  cases hc : db.case? signer.signatureCaseId with
  | none => rfl
  | some c =>
    dsimp only
    split
    · rfl
    cases hintent : db.verifiedIntent? signer.id with
    | none =>
      have hnil := minBy_eq_none.mp hintent
      have hmem : si ∈ db.intents.filter fun intent =>
          intent.signerId == signer.id && intent.status.isVerified :=
        List.mem_filter.mpr ⟨hsi, by rw [hof, hverified, BEq.rfl]; rfl⟩
      rw [hnil] at hmem
      cases hmem
    | some intent =>
      have hmem := List.mem_filter.mp (minBy_eq_some hintent).1
      rw [Bool.and_eq_true, beq_iff_eq] at hmem
      obtain rfl := eq_of_key_eq hsingle hmem.1 hsi (hmem.2.1.trans hof.symm)
      simp only [refuse_append, refuse_raises, List.isEmpty_eq_false_iff, List.any_eq_false,
        Bool.not_eq_true', Bool.not_eq_false]
      exact ⟨hsignable, hsigned c hc⟩

theorem signers_onUpdate_signed (hconsistent : refuse (Tables.signerConstraints db signer) = .ok ())
    (hsigning : signer.status = .signing) (hsi : si ∈ db.intents) (hof : si.signerId = signer.id)
    (hverified : si.status.isVerified = true)
    (hidentity : ∃ a ∈ db.identityArtifacts, a.signingIntentId = si.id ∧ a.pass = true)
    (hevidence : refuse (assertSignerSignatureEvidence db signer
      { signer with status := .signed }) = .ok ()) :
    (Tables.signers .trustedService).onUpdate db signer { signer with status := .signed } =
      .ok () := by
  have hsame : refuse (Tables.signerConstraints db { signer with status := .signed }) = .ok () :=
    hconsistent
  obtain ⟨a, ha, hintent, hpass⟩ := hidentity
  simp only [Tables.signers, refuse_append]
  refine ⟨⟨⟨⟨⟨hsame, ?_⟩, ?_⟩, ?_⟩, ?_⟩, hevidence⟩
  · simp [preventUnverifiedTerminalStatus, ActorKind.isServer]
  · rw [refuse_assertTransition, hsigning]
    exact Or.inr List.mem_cons_self
  · rw [enforceBankIdTerminalEvidence, refuse_raises, Bool.and_eq_false_iff, Bool.not_eq_false',
      List.any_eq_true]
    refine Or.inr ⟨si, hsi, ?_⟩
    rw [Bool.and_eq_true, Bool.and_eq_true, beq_iff_eq, List.any_eq_true]
    exact ⟨⟨hof, hverified⟩, a, ha, by rw [hintent, hpass, BEq.rfl]; rfl⟩
  · simp [protectSignerBinding]

theorem completeSigner_ok (hrecord : recordSigned now run db = .ok ((), db.withSigned now run))
    (hconsistent : ∀ s ∈ db.signers, refuse (Tables.signerConstraints db s) = .ok ()) :
    ∃ db', completeSigner now run db = .ok ((), db') := by
  have hafter : ∀ s ∈ (db.withSigned now run).signers,
      refuse (Tables.signerConstraints (db.withSigned now run) s) = .ok () := by
    intro s' hs'
    obtain ⟨s, hs, rfl⟩ := mem_assign.mp hs'
    have hrow : refuse (Tables.signerConstraints (db.withSigned now run) s) = .ok () :=
      hconsistent s hs
    split <;> exact hrow
  obtain ⟨db₁, hactivate⟩ : ∃ db₁, activateNextSigningGroup now run.signatureCaseId
      (db.withSigned now run) = .ok ((), db₁) := activateNextSigningGroup_ok hafter
  refine ⟨db₁.withCaseJob run.signatureCaseId, ?_⟩
  simp only [recordSigned, Transaction.bind_eq_ok] at hrecord
  obtain ⟨n, db₂, h₂, n', db₃, h₃, n'', db₄, h₄, _, db₅, h₅, _, db₆, h₆, h₇⟩ := hrecord
  simp only [completeSigner, Transaction.bind_eq_ok]
  refine ⟨n, db₂, h₂, n', db₃, h₃, n'', db₄, h₄, (), db₅, h₅, (), db₆, h₆, (), _, h₇, (), db₁,
    hactivate, db₁, db₁, Transaction.read_eq_ok.mpr ⟨rfl, rfl⟩, ?_⟩
  rw [Transaction.ite_apply]
  unfold Db.withCaseJob
  split <;> rfl

theorem commitValidation_ok (hcompletes : db.completes run = true)
    (hartifact : (db.artifact? run.payload.signatureArtifactId).isSome = true)
    (hattempts : ∀ a ∈ db.attempts, a.id = run.payload.signatureAttemptId →
      (Tables.attempts .trustedService).onUpdate (db.withValidationRun run) a
        { a with status := .validated } = .ok ())
    (hcomplete : ∃ db', completeSigner now run (db.withValidation run) = .ok ((), db')) :
    ∃ db', commitValidation now run db = .ok ((), db') := by
  obtain ⟨db', hcomplete⟩ := hcomplete
  rw [Db.completes, Bool.and_eq_true, Bool.not_eq_true', PadesValidateRun.admits,
    Bool.and_eq_true] at hcompletes
  obtain ⟨⟨hpass, hadmission⟩, hlast⟩ := hcompletes
  obtain ⟨level, hadmission⟩ := Option.isSome_iff_exists.mp hadmission
  rw [toOption_eq_some] at hadmission
  have hinsert : (Tables.validationRuns .trustedService).insert
      ⟨run.payload.signatureArtifactId, run.report.indication, none⟩ db =
        .ok ((), db.withValidationRun run) := by
    refine Table.insert_eq_ok.mpr ⟨?_, rfl⟩
    simp only [Tables.validationRuns, requireTrustedCryptographicService, refuse_append,
      refuse_violates, refuse_raises]
    exact ⟨Option.isNone_eq_false_iff.mpr hartifact, rfl⟩
  refine ⟨db', Transaction.bind_eq_ok.mpr ⟨(), _, hinsert, ?_⟩⟩
  rw [if_pos hpass, hadmission]
  simp only [admitSignature, setAttemptStatus, Transaction.bind_eq_ok]
  refine ⟨_, _, Table.update_eq_ok.mpr ⟨fun a ha hp => ?_, rfl, rfl⟩, (), db.withValidation run,
    Transaction.rewrite_eq_ok.mpr rfl, _, _, Transaction.read_eq_ok.mpr ⟨rfl, rfl⟩, ?_⟩
  · exact hattempts a ha (beq_iff_eq.mp hp)
  · rw [Transaction.ite_apply, if_neg (by simp [hlast])]
    exact hcomplete

end Signer

/-! ## The run of the last document -/

section Last

variable {s : Sys} {run : PadesValidateRun} {signer : Signer}

theorem hasValidatedSignature_withValidation (hs : s.Reachable) (hrun : run ∈ s.validates)
    (hadmits : run.admits = true) : ∀ a ∈ (s.db.withValidation run).attempts, a.status = .validated →
      ∃ policy, s.db.PolicyOf a.signerId policy ∧
        (s.db.withValidation run).hasValidatedSignature policy a.signerId a.documentVersionId =
          true := by
  have hsignatures := signatures_of_reachable hs
  have hattributed := attributed_of_reachable hs
  intro a ha hvalidated
  obtain ⟨before, hbefore, rfl⟩ := mem_assign.mp ha
  by_cases hp : (before.id == run.payload.signatureAttemptId) = true
  · rw [if_pos hp] at ha hvalidated ⊢
    have hid := (beq_iff_eq.mp hp).symm
    have hsigner : before.signerId = run.signerId :=
      signerId_of_validates hsignatures.keyed hattributed hrun hbefore hid
    refine ⟨run.policy, ?_, ?_⟩
    · show s.db.PolicyOf before.signerId run.policy
      rw [hsigner]
      exact hsignatures.validates run hrun
    · exact hasValidatedSignature_of_admission ha hvalidated hadmits hid
        (artifact_of_validates hsignatures hattributed hrun)
        (List.mem_append_right _ List.mem_cons_self)
  · rw [if_neg hp] at hvalidated ⊢
    obtain ⟨policy, hpolicy, hsigned⟩ := hsignatures.validated before hbefore hvalidated
    refine ⟨policy, hpolicy, ?_⟩
    -- what was validated before has stayed
    rw [hasValidatedSignature_iff] at hsigned ⊢
    obtain ⟨attempt, hattempt, hof, hversion, hstatus, artifact, hartifact, howner, hlevel, row, hrow,
      hruns, haccepted⟩ := hsigned
    refine ⟨_, mem_assign.mpr ⟨attempt, hattempt, rfl⟩, ?_, ?_, ?_, artifact, hartifact, ?_, hlevel,
      row, List.mem_append_left _ hrow, hruns, haccepted⟩
    all_goals split
    all_goals first | assumption | rfl

theorem attempts_ok (hs : s.Reachable) (hrun : run ∈ s.validates)
    (hsigner : s.db.signer? run.signerId = some signer) (hsigning : signer.status = .signing) :
    ∀ a ∈ s.db.attempts, a.id = run.payload.signatureAttemptId →
      (Tables.attempts .trustedService).onUpdate (s.db.withValidationRun run) a
        { a with status := .validated } = .ok () := by
  have hsignatures := signatures_of_reachable hs
  intro a ha hid
  obtain ⟨hmade, hstage⟩ := hsignatures.made a ha
  rw [signerId_of_validates hsignatures.keyed (attributed_of_reachable hs) hrun ha hid.symm] at hstage
  refine attempts_onUpdate_validated hsignatures.numbered ha ?_
  cases hstatus : a.status with
  | signed => exact Or.inl rfl
  | validated => exact Or.inr rfl
  | failed =>
    obtain ⟨other, hother, hle⟩ := hstage
    obtain rfl := Option.some.inj (hsigner.symm.trans hother)
    rw [hstatus, if_pos rfl, hsigning] at hle
    exact absurd hle (by decide)
  | prepared | identity_verified | credential_issued | cancelled =>
    rw [hstatus] at hmade
    cases hmade

theorem signer_ok (hs : s.Reachable) (hrun : run ∈ s.validates)
    (hsigner : s.db.signer? run.signerId = some signer) (hsigning : signer.status = .signing)
    (hlast : s.db.completes run = true) :
    (Tables.signers .trustedService).onUpdate (s.db.withValidation run) signer
      { signer with status := .signed } = .ok () := by
  have hprepared := prepared_of_reachable hs
  obtain ⟨_, _, si, -, -, -, -, hsi, hof, -, hverified⟩ := (attributed_of_reachable hs).validates run hrun
  obtain ⟨hmem, hid⟩ := exists_of_find?_key hsi
  obtain ⟨hsignerMem, hsignerId⟩ := exists_of_find?_key hsigner
  rw [Db.completes, Bool.and_eq_true, Bool.not_eq_true'] at hlast
  have hconsistent : refuse (Tables.signerConstraints (s.db.withValidation run) signer) = .ok () :=
    (standing_of_reachable hs).consistent signer hsignerMem
  refine signers_onUpdate_signed hconsistent hsigning hmem (hof.trans hsignerId.symm) hverified
    ((identified_of_reachable hs).verified si hmem hverified) ?_
  refine refuse_signatureEvidence hprepared.single hmem (hof.trans hsignerId.symm) hverified
    ((bound_of_reachable hs).signable si hmem) fun c hc d hd => ?_
  -- no document of the intent is outstanding
  have hnot := List.any_eq_false.mp hlast.2 d (hid ▸ hd)
  rw [Bool.not_eq_true', Bool.not_eq_false, List.any_eq_true] at hnot
  obtain ⟨attempt, hattempt, hp⟩ := hnot
  rw [Bool.and_eq_true, Bool.and_eq_true, beq_iff_eq, beq_iff_eq, beq_iff_eq] at hp
  obtain ⟨policy, hpolicy, hsigned⟩ :=
    hasValidatedSignature_withValidation hs hrun hlast.1 attempt hattempt hp.2
  rw [hp.1.1] at hpolicy
  obtain rfl := PolicyOf.unique hpolicy ⟨signer, c, hsigner, hc, rfl⟩
  rw [hp.1.1, hp.1.2, ← hsignerId] at hsigned
  exact hsigned

/--
In every reachable state, the run of the last document of a signer who is signing commits, and leaves
no invitation of the signer that opens anything, exactly when none that is unused is revoked.
-/
theorem commitsLast_iff (hs : s.Reachable) (hrun : run ∈ s.validates)
    (hsigner : s.db.signer? run.signerId = some signer) (hsigning : signer.status = .signing)
    (hlast : s.db.completes run = true) :
    s.CommitsLast run ↔ ∀ i ∈ s.db.invitations, i.signerId = run.signerId → i.usedAt = none →
      i.revokedAt = none := by
  have hstanding := standing_of_reachable hs
  obtain ⟨hsignerMem, hsignerId⟩ := exists_of_find?_key hsigner
  have hcompleting {db : Db} (hok : commitValidation s.clock run s.db = .ok ((), db)) :
      completeSigner s.clock run (s.db.withValidation run) = .ok ((), db) := by
    rcases commitValidation_eq hok with ⟨hrefused, -⟩ | ⟨-, ⟨-, hnot, -⟩ | ⟨-, hcomplete⟩⟩
    · rw [Db.completes, hrefused] at hlast
      cases hlast
    · rw [hlast] at hnot
      cases hnot
    · exact hcomplete
  constructor
  · rintro ⟨db, hok, -⟩
    have hlive : ∀ i ∈ (s.db.withValidation run).invitations, i.signerId = run.signerId →
        i.usedAt = none → i.revokedAt = none :=
      revokedAt_of_recordSigned (completeSigner_eq (hcompleting hok)).1
    exact hlive
  · intro hlive
    have hrecord : recordSigned s.clock run (s.db.withValidation run) =
        .ok ((), (s.db.withValidation run).withSigned s.clock run) := by
      refine recordSigned_ok (fun row hrow hid _ => ?_) hlive fun i hi => ?_
      · obtain rfl := eq_of_key_eq hstanding.signersKeyed hrow hsignerMem (hid.trans hsignerId.symm)
        exact signer_ok hs hrun hsigner hsigning hlast
      · obtain ⟨hcreated, row, hrow, hid, -⟩ := hstanding.invitations i hi
        exact ⟨hcreated, row, hrow, hid⟩
    obtain ⟨artifact, hartifact, hartifactId, -, -⟩ :=
      artifact_of_validates (signatures_of_reachable hs) (attributed_of_reachable hs) hrun
    have hfound : (s.db.artifact? run.payload.signatureArtifactId).isSome = true := by
      rw [Db.artifact?, List.find?_isSome]
      exact ⟨artifact, hartifact, beq_iff_eq.mpr hartifactId⟩
    obtain ⟨db, hok⟩ := commitValidation_ok hlast hfound (attempts_ok hs hrun hsigner hsigning)
      (completeSigner_ok hrecord hstanding.consistent)
    refine ⟨db, hok, fun now invitationId resolved hresolved hid => ?_⟩
    obtain ⟨i, hi, hof, hunused, -⟩ := resolveInvitation_eq_ok hresolved
    have hkeys : ((s.db.withValidation run).signers.map (·.id)).Nodup := hstanding.signersKeyed
    exact usedAt_of_completeSigner hkeys hsigner hsigning (hcompleting hok) i hi (hof.trans hid)
      hunused

end Last

/-- A signer who was never reminded, and the run of the only document. -/
theorem commitsLast_of_unreminded : ∃ s run signer, Sys.Reachable s ∧ run ∈ s.validates ∧
    s.db.signer? run.signerId = some signer ∧ signer.status = .signing ∧
    s.db.completes run = true ∧ s.CommitsLast run := by
  obtain ⟨s, hs, run, hrun, signer, hsigner, hsigning, hlast, hlive⟩ : ∃ s ∈ Sys.after
      (.prepareCase (Intake.sample 1 [(1, true)]) :: .send 1 idText :: Step.identify 0 0 ++
        Step.sign 0 1 100 200 ++ [.readValidate ⟨0, 1, 1, 0, .signed 0 0⟩ Step.passed]),
      ∃ run ∈ s.validates, ∃ signer ∈ s.db.signer? run.signerId, signer.status = .signing ∧
        s.db.completes run = true ∧ ∀ i ∈ s.db.invitations, i.signerId = run.signerId →
          i.usedAt = none → i.revokedAt = none := by decide +kernel
  have hreachable := Sys.reachable_of_after hs
  exact ⟨s, run, signer, hreachable, hrun, hsigner, hsigning, hlast,
    (commitsLast_iff hreachable hrun hsigner hsigning hlast).mpr hlive⟩

/-- A signer who was reminded once before signing, and the run of the only document is refused. -/
theorem not_commitsLast_of_reminder : ¬∀ (s : Sys) run signer, s.Reachable → run ∈ s.validates →
    s.db.signer? run.signerId = some signer → signer.status = .signing →
    s.db.completes run = true → s.CommitsLast run := by
  intro hall
  obtain ⟨s, hs, run, hrun, signer, hsigner, hsigning, hlast, hrefused⟩ : ∃ s ∈ Sys.after
      (.prepareCase (Intake.sample 1 [(1, true)]) :: .send 1 idText :: .remind 1 ::
        Step.identify 1 0 ++ Step.sign 0 1 100 200 ++
        [.readValidate ⟨0, 1, 1, 0, .signed 0 0⟩ Step.passed]),
      ∃ run ∈ s.validates, ∃ signer ∈ s.db.signer? run.signerId, signer.status = .signing ∧
        s.db.completes run = true ∧ (commitValidation s.clock run s.db).isOk = false := by
    decide +kernel
  obtain ⟨db, hok, -⟩ := hall s run signer (Sys.reachable_of_after hs) hrun hsigner hsigning hlast
  rw [hok] at hrefused
  cases hrefused

end Kommunsign
