import Kommunsign.Workflow.Identified
import Kommunsign.Workflow.Turns

/-!
# Signatures and their validations

A signer is signing when an attempt of the signer is made, and fails with an attempt that is not
admitted. What is signed is at the level that the policy of the case requires; what is validated
has a validation that the policy accepts.

* `Db.PolicyOf` — the policy of a signer's case, which no step changes
* `Signatures` — the attempts, their artifacts and the runs in flight
-/

namespace Kommunsign

open Infra

def Db.PolicyOf (db : Db) (signerId : Id) (policy : Json) : Prop :=
  ∃ signer c, db.signer? signerId = some signer ∧ db.case? signer.signatureCaseId = some c ∧
    c.policySnapshot = policy

/-- The statuses that an attempt has after the transaction that makes it. -/
def AttemptStatus.isMade : AttemptStatus → Bool
  | .signed | .validated | .failed => true
  | _ => false

/-- The artifact is at the level that the policy of its signer's case requires. -/
def Db.AtRequiredLevel (db : Db) (artifact : SignatureArtifact) : Prop :=
  ∃ attempt policy, db.attempt? artifact.signatureAttemptId = some attempt ∧
    db.PolicyOf attempt.signerId policy ∧ requiredPadesLevel policy = .ok (some artifact.format)

structure Signatures (s : Sys) : Prop where
  keyed : (s.db.attempts.map (·.id)).Nodup
  numbered : (s.db.attempts.map fun a => (a.signerId, a.attemptNumber)).Nodup
  made : ∀ a ∈ s.db.attempts, a.status.isMade = true ∧
    s.db.AtStage a.signerId (if a.status = .failed then 5 else 4)
  levels : ∀ artifact ∈ s.db.artifacts, s.db.AtRequiredLevel artifact
  validated : ∀ a ∈ s.db.attempts, a.status = .validated → ∃ policy,
    s.db.PolicyOf a.signerId policy ∧
      s.db.hasValidatedSignature policy a.signerId a.documentVersionId = true
  creates : ∀ run ∈ s.creates,
    s.db.AtStage run.intent.signerId (if run.marked = true then 4 else 3) ∧ ∃ policy,
      s.db.PolicyOf run.intent.signerId policy ∧
        requiredPadesLevel policy = .ok (some run.requestedFormat)
  validates : ∀ run ∈ s.validates, s.db.PolicyOf run.signerId run.policy

/-! ## What the guards look for -/

section Guard

variable {db db' : Db} {policy : Json} {signerId documentVersionId : Id}

theorem PolicyOf.unique {policy' : Json} (h : db.PolicyOf signerId policy)
    (h' : db.PolicyOf signerId policy') : policy = policy' := by
  obtain ⟨signer, c, hsigner, hc, rfl⟩ := h
  obtain ⟨signer', c', hsigner', hc', rfl⟩ := h'
  obtain rfl := Option.some.inj (hsigner.symm.trans hsigner')
  obtain rfl := Option.some.inj (hc.symm.trans hc')
  rfl

theorem hasValidatedSignature_iff :
    db.hasValidatedSignature policy signerId documentVersionId = true ↔
      ∃ attempt ∈ db.attempts, attempt.signerId = signerId ∧
        attempt.documentVersionId = documentVersionId ∧ attempt.status = .validated ∧
          ∃ artifact ∈ db.artifacts, artifact.signatureAttemptId = attempt.id ∧
            rankGe (padesLevelRank (some artifact.format.format))
              (padesLevelRank (some (requiredLevelText policy))) = true ∧
            ∃ run ∈ db.validationRuns, run.signatureArtifactId = artifact.id ∧
              acceptsIndication policy run.indication = true := by
  simp only [Db.hasValidatedSignature, List.any_eq_true, Bool.and_eq_true, beq_iff_eq, and_assoc]

theorem rankGe_of_required {level : PadesLevel}
    (h : requiredPadesLevel policy = .ok (some level)) :
    rankGe (padesLevelRank (some level.format))
      (padesLevelRank (some (requiredLevelText policy))) = true := by
  rw [requiredLevelText_of_requiredPadesLevel h, padesLevelRank_format, padesLevelRank_name]
  exact decide_eq_true le_rfl

theorem hasValidatedSignature_of_leaves {e : Effect} {now : Time} (h : Leaves e now db db')
    (hsigned : db.hasValidatedSignature policy signerId documentVersionId = true) :
    db'.hasValidatedSignature policy signerId documentVersionId = true := by
  rw [hasValidatedSignature_iff] at hsigned ⊢
  obtain ⟨attempt, hattempt, hof, hversion, hvalidated, artifact, hartifact, howner, hlevel, run,
    hrun, hruns, haccepted⟩ := hsigned
  obtain ⟨attempt', hattempt', hchange⟩ := h.attempts.exists_after hattempt
  obtain ⟨_, hartifact', rfl⟩ := h.artifacts.exists_after hartifact
  obtain ⟨_, hrun', rfl⟩ := h.validationRuns.exists_after hrun
  have hmove := hchange.toAttemptMove
  refine ⟨attempt', hattempt', hmove.signerId.trans hof, hmove.documentVersionId.trans hversion, ?_,
    artifact, hartifact', howner.trans hmove.id.symm, hlevel, run, hrun', hruns, haccepted⟩
  -- nothing leads out of `validated`
  refine hmove.status.keeps (P := fun status => status = .validated) ?_ hvalidated
  rintro a b hallowed rfl
  exact absurd hallowed List.not_mem_nil

theorem mem_validationRuns_of_commit {now : Time} {run : PadesValidateRun} {u : Unit}
    (hadmits : run.admits = true) (h : commitValidation now run db = .ok (u, db')) :
    (⟨run.payload.signatureArtifactId, run.report.indication, none⟩ : ValidationRun) ∈
      db'.validationRuns := by
  have hadded : (⟨run.payload.signatureArtifactId, run.report.indication, none⟩ : ValidationRun) ∈
      (db.withValidation run).validationRuns := List.mem_append_right _ List.mem_cons_self
  rcases commitValidation_eq h with ⟨hrefused, -⟩ | ⟨-, ⟨-, -, rfl⟩ | ⟨-, hcomplete⟩⟩
  · rw [hrefused] at hadmits
    cases hadmits
  · exact hadded
  · have hleaves : Leaves (Effect.inviting (db.withValidation run) now run) now
        ((db.withValidation run).withSigned now run) db' :=
      completeSigner_leaves rfl (fun _ _ hcalled => ⟨rfl, rfl, hcalled⟩) (fun _ _ => id) hcomplete
    obtain ⟨_, hmem, rfl⟩ := hleaves.validationRuns.exists_after hadded
    exact hmem

end Guard

/-! ## Rows after a step -/

section Steps

variable {s s' : Sys} {i : Step}

theorem PolicyOf.of_step {signerId : Id} {policy : Json} (h : s.db.PolicyOf signerId policy)
    (hstep : Sys.step s i = some s') : s'.db.PolicyOf signerId policy := by
  obtain ⟨signer, c, hsigner, hc, rfl⟩ := h
  obtain ⟨signer', hsigner', hchange⟩ := signer?_of_step hstep hsigner
  obtain ⟨c', hc', hcase⟩ := case?_of_step hstep hc
  refine ⟨signer', c', hsigner', ?_, congrArg (·.policySnapshot) hcase.policy⟩
  rw [hchange.toSignerMove.signatureCaseId]
  exact hc'

theorem AtRequiredLevel.of_step {artifact : SignatureArtifact} (h : s.db.AtRequiredLevel artifact)
    (hstep : Sys.step s i = some s') : s'.db.AtRequiredLevel artifact := by
  obtain ⟨attempt, policy, hattempt, hpolicy, hlevel⟩ := h
  obtain ⟨attempt', hattempt', hchange⟩ := attempt?_of_step hstep hattempt
  refine ⟨attempt', policy, hattempt', ?_, hlevel⟩
  rw [hchange.toAttemptMove.signerId]
  exact PolicyOf.of_step hpolicy hstep

theorem hasValidatedSignature_of_step (hstep : Sys.step s i = some s') {policy : Json}
    {signerId documentVersionId : Id}
    (h : s.db.hasValidatedSignature policy signerId documentVersionId = true) :
    s'.db.hasValidatedSignature policy signerId documentVersionId = true := by
  rcases intake_or_leaves hstep with ⟨intake, rfl, -, rfl⟩ | hleaves
  · exact h
  · exact hasValidatedSignature_of_leaves hleaves h

theorem signatures_moved (hstep : Sys.step s i = some s')
    (hsign : ∀ index attemptId artifactId signed,
      i ≠ .commitSignature index attemptId artifactId signed) :
    Moved (AttemptChange (stepEffect s i)) s.db.attempts s'.db.attempts ∧
      s'.db.artifacts = s.db.artifacts := by
  rcases intake_or_leaves hstep with ⟨intake, rfl, -, rfl⟩ | hleaves
  · exact ⟨Moved.refl (AttemptChange.refl _) _, rfl⟩
  have hnone (signerId : Id) : ¬(stepEffect s i).signs signerId := fun hsigns => by
    obtain ⟨index, attemptId, artifactId, signed, heq, -⟩ := signs_of_effect hsigns
    exact hsign index attemptId artifactId signed heq
  have hartifacts : Moved Eq s.db.artifacts s'.db.artifacts :=
    hleaves.artifacts.moved fun _ ⟨signerId, hsigns⟩ => hnone signerId hsigns
  rw [Moved, List.forall₂_eq_eq_eq] at hartifacts
  exact ⟨hleaves.attempts.moved fun a => hnone a.signerId, hartifacts.symm⟩

theorem status_of_attemptChange {a a' : SignatureAttempt}
    (hchange : AttemptChange (stepEffect s i) a a') : a'.status = a.status ∨
      ∃ index run, i = .commitValidation index ∧ s.validates[index]? = some run ∧
        run.payload.signatureAttemptId = a.id ∧
          (run.admits = true ∧ a'.status = .validated ∨ run.admits = false ∧ a'.status = .failed) := by
  refine hchange.change.keeps (P := fun status => status = a.status ∨ ∃ index run,
    i = .commitValidation index ∧ s.validates[index]? = some run ∧
      run.payload.signatureAttemptId = a.id ∧
        (run.admits = true ∧ status = .validated ∨ run.admits = false ∧ status = .failed)) ?_
    (Or.inl rfl)
  intro old new _ hmay _
  exact Or.inr (attemptTransition_of_effect hmay)

theorem signerId_of_validates (hkeyed : (s.db.attempts.map (·.id)).Nodup)
    (hattributed : Attributed s) {run : PadesValidateRun} (hrun : run ∈ s.validates)
    {a : SignatureAttempt} (ha : a ∈ s.db.attempts) (hid : run.payload.signatureAttemptId = a.id) :
    a.signerId = run.signerId := by
  obtain ⟨_, attempt, _, -, -, hattempt, hsigner, -⟩ := hattributed.validates run hrun
  obtain ⟨hmem, hkey⟩ := exists_of_find?_key hattempt
  rw [eq_of_key_eq hkeyed ha hmem (hid.symm.trans hkey.symm), hsigner]

theorem atStage_of_refusal {index : Nat} {run : PadesValidateRun}
    (hstep : Sys.step s (.commitValidation index) = some s') (hrun : s.validates[index]? = some run)
    (hrefused : run.admits = false) (h : s.db.AtStage run.signerId 4) :
    s'.db.AtStage run.signerId 5 := by
  obtain ⟨run', db, hrun', hok, rfl⟩ := step_commitValidation hstep
  obtain rfl := Option.some.inj (hrun.symm.trans hrun')
  have hrefuse : refuseSignature run run.refusal (s.db.withValidationRun run) = .ok ((), db) := by
    rcases commitValidation_eq hok with ⟨-, hrefuse⟩ | ⟨-, ⟨hadmits, -⟩ | ⟨hcompletes, -⟩⟩
    · exact hrefuse
    · rw [hrefused] at hadmits
      cases hadmits
    · rw [Db.completes, hrefused] at hcompletes
      cases hcompletes
  refine AtStage.of_assign h (refuseSignature_eq hrefuse).2.2 fun signer hid hstage => ?_
  cases hstatus : signer.status <;> simp [hid, hstatus, SignerStatus.stage] at hstage ⊢

/-! ## Every step keeps it -/

theorem atStage_of_marked (h : Signatures s) {run : PadesCreateRun} (hrun : run ∈ s.creates)
    (hmarked : run.marked = true) : s.db.AtStage run.intent.signerId 4 := by
  have hstage := (h.creates run hrun).1
  rw [if_pos hmarked] at hstage
  exact hstage

theorem keyed_of_step (h : Signatures s) (hstep : Sys.step s i = some s') :
    (s'.db.attempts.map (·.id)).Nodup ∧
      (s'.db.attempts.map fun a => (a.signerId, a.attemptNumber)).Nodup := by
  by_cases hsign : ∃ index attemptId artifactId signed,
      i = .commitSignature index attemptId artifactId signed
  · obtain ⟨index, attemptId, artifactId, signed, rfl⟩ := hsign
    obtain ⟨run, document, input, db, -, -, -, -, hok, rfl⟩ := step_commitSignature hstep
    obtain ⟨hinsert, hnew, -, rfl⟩ := writeSignature_eq (commitSignature_eq hok).1
    simp only [Tables.attempts, Tables.attemptNumberKey, refuse_append, refuse_violates,
      List.any_eq_false, Bool.and_eq_true, beq_iff_eq, bne_iff_ne] at hinsert
    obtain ⟨⟨⟨⟨-, hnumber⟩, -⟩, -⟩, -⟩ := hinsert
    constructor
    · simp only [withSignature, List.map_append, List.map_singleton, List.nodup_append]
      refine ⟨h.keyed, List.nodup_singleton _, fun k hk k' hk' => ?_⟩
      obtain ⟨a, ha, rfl⟩ := List.mem_map.mp hk
      obtain rfl := List.mem_singleton.mp hk'
      exact hnew a ha
    · simp only [withSignature, List.map_append, List.map_singleton, List.nodup_append]
      refine ⟨h.numbered, List.nodup_singleton _, fun k hk k' hk' heq => ?_⟩
      obtain ⟨a, ha, rfl⟩ := List.mem_map.mp hk
      obtain rfl := List.mem_singleton.mp hk'
      obtain ⟨hsigner, hsame⟩ := Prod.mk.inj heq
      exact hnumber a ha ⟨⟨hnew a ha, hsigner⟩, hsame⟩
  · have hmoved := (signatures_moved hstep fun index attemptId artifactId signed heq =>
      hsign ⟨index, attemptId, artifactId, signed, heq⟩).1
    rw [hmoved.map_eq fun _ _ hchange => hchange.id]
    refine ⟨h.keyed, ?_⟩
    have hcolumns : s'.db.attempts.map (fun a => (a.signerId, a.attemptNumber)) =
        s.db.attempts.map fun a => (a.signerId, a.attemptNumber) := by
      refine hmoved.map_eq fun a a' hchange => ?_
      rw [hchange.toAttemptMove.signerId, hchange.attemptNumber]
    rw [hcolumns]
    exact h.numbered

theorem signature_of_commit {index : Nat} {attemptId artifactId : Id} {signed : Digest}
    (hstep : Sys.step s (.commitSignature index attemptId artifactId signed) = some s') :
    ∃ run ∈ s.creates, run.marked = true ∧ ∃ row artifact,
      s'.db.attempts = s.db.attempts ++ [row] ∧ s'.db.artifacts = s.db.artifacts ++ [artifact] ∧
        row.signerId = run.intent.signerId ∧ row.status = .signed ∧
        s'.db.attempt? artifact.signatureAttemptId = some row ∧
        artifact.format = run.requestedFormat := by
  obtain ⟨run, document, input, db, hrun, -, -, hmarked, hok, rfl⟩ := step_commitSignature hstep
  obtain ⟨-, hnew, -, rfl⟩ := writeSignature_eq (commitSignature_eq hok).1
  have hfound : (withSignature s.db run.intent document (artifactRow run.intent
      run.requestedFormat document attemptId artifactId input signed)).attempt? attemptId =
        some { attemptRow s.db run.intent document attemptId with status := .signed } :=
    find?_append_new (fun a : SignatureAttempt => a.id) hnew rfl
  exact ⟨run, List.mem_of_getElem? hrun, hmarked, _, _, rfl, rfl, rfl, rfl, hfound, rfl⟩

theorem made_of_step (h : Signatures s) (hattributed : Attributed s)
    (hstep : Sys.step s i = some s') : ∀ a' ∈ s'.db.attempts, a'.status.isMade = true ∧
      s'.db.AtStage a'.signerId (if a'.status = .failed then 5 else 4) := by
  intro a' ha'
  by_cases hsign : ∃ index attemptId artifactId signed,
      i = .commitSignature index attemptId artifactId signed
  · obtain ⟨index, attemptId, artifactId, signed, rfl⟩ := hsign
    obtain ⟨run, hrun, hmarked, row, _, hattempts, -, hsigner, hsigned, -⟩ := signature_of_commit hstep
    rw [hattempts] at ha'
    rcases List.mem_append.mp ha' with hold | hnew
    · exact ⟨(h.made a' hold).1, AtStage.of_step (h.made a' hold).2 hstep⟩
    · obtain rfl := List.mem_singleton.mp hnew
      rw [hsigned, hsigner, if_neg (by decide)]
      exact ⟨rfl, AtStage.of_step (atStage_of_marked h hrun hmarked) hstep⟩
  · obtain ⟨a, ha, hchange⟩ := (signatures_moved hstep fun index attemptId artifactId signed heq =>
      hsign ⟨index, attemptId, artifactId, signed, heq⟩).1.exists_before ha'
    obtain ⟨hmade, hstage⟩ := h.made a ha
    have hsigning : s.db.AtStage a.signerId 4 := by
      refine AtStage.mono hstage ?_
      split <;> decide
    rw [hchange.toAttemptMove.signerId]
    rcases status_of_attemptChange hchange with
      hsame | ⟨index, run, rfl, hrun, hid, ⟨-, hnew⟩ | ⟨hrefused, hnew⟩⟩
    · rw [hsame]
      exact ⟨hmade, AtStage.of_step hstage hstep⟩
    · rw [hnew, if_neg (by decide)]
      exact ⟨rfl, AtStage.of_step hsigning hstep⟩
    · rw [hnew, if_pos rfl]
      have hsigner := signerId_of_validates h.keyed hattributed (List.mem_of_getElem? hrun) ha hid
      rw [hsigner] at hsigning ⊢
      exact ⟨rfl, atStage_of_refusal hstep hrun hrefused hsigning⟩

theorem levels_of_step (h : Signatures s) (hstep : Sys.step s i = some s') :
    ∀ artifact ∈ s'.db.artifacts, s'.db.AtRequiredLevel artifact := by
  intro artifact hartifact
  by_cases hsign : ∃ index attemptId artifactId signed,
      i = .commitSignature index attemptId artifactId signed
  · obtain ⟨index, attemptId, artifactId, signed, rfl⟩ := hsign
    obtain ⟨run, hrun, -, row, _, -, hartifacts, hsigner, -, hfound, hformat⟩ :=
      signature_of_commit hstep
    rw [hartifacts] at hartifact
    rcases List.mem_append.mp hartifact with hold | hnew
    · exact AtRequiredLevel.of_step (h.levels artifact hold) hstep
    · obtain rfl := List.mem_singleton.mp hnew
      obtain ⟨-, policy, hpolicy, hlevel⟩ := h.creates run hrun
      refine ⟨row, policy, hfound, ?_, ?_⟩
      · rw [hsigner]
        exact PolicyOf.of_step hpolicy hstep
      · rw [hformat]
        exact hlevel
  · rw [(signatures_moved hstep fun index attemptId artifactId signed heq =>
      hsign ⟨index, attemptId, artifactId, signed, heq⟩).2] at hartifact
    exact AtRequiredLevel.of_step (h.levels artifact hartifact) hstep

theorem artifact_of_validates (h : Signatures s) (hattributed : Attributed s)
    {run : PadesValidateRun} (hrun : run ∈ s.validates) : ∃ artifact ∈ s.db.artifacts,
      artifact.id = run.payload.signatureArtifactId ∧
        artifact.signatureAttemptId = run.payload.signatureAttemptId ∧
          requiredPadesLevel run.policy = .ok (some artifact.format) := by
  obtain ⟨artifact, attempt, _, hartifact, howner, hattempt, hsigner, -⟩ :=
    hattributed.validates run hrun
  obtain ⟨hmem, hid⟩ := exists_of_find?_key hartifact
  obtain ⟨attempt', policy, hfound, hpolicy, hlevel⟩ := h.levels artifact hmem
  rw [howner] at hfound
  obtain rfl := Option.some.inj (hattempt.symm.trans hfound)
  rw [hsigner] at hpolicy
  obtain rfl := PolicyOf.unique (h.validates run hrun) hpolicy
  exact ⟨artifact, hmem, hid, howner, hlevel⟩

theorem hasValidatedSignature_of_admission {db : Db} {a : SignatureAttempt} {run : PadesValidateRun}
    (ha : a ∈ db.attempts) (hvalidated : a.status = .validated) (hadmits : run.admits = true)
    (hid : run.payload.signatureAttemptId = a.id)
    (hartifact : ∃ artifact ∈ db.artifacts, artifact.id = run.payload.signatureArtifactId ∧
      artifact.signatureAttemptId = run.payload.signatureAttemptId ∧
        requiredPadesLevel run.policy = .ok (some artifact.format))
    (hrun : ⟨run.payload.signatureArtifactId, run.report.indication, none⟩ ∈ db.validationRuns) :
    db.hasValidatedSignature run.policy a.signerId a.documentVersionId = true := by
  obtain ⟨artifact, hmem, hartifactId, howner, hlevel⟩ := hartifact
  exact hasValidatedSignature_iff.mpr ⟨a, ha, rfl, rfl, hvalidated, artifact, hmem,
    howner.trans hid, rankGe_of_required hlevel, _, hrun, hartifactId.symm,
    PadesValidateRun.accepts_of_admits hadmits⟩

theorem validated_of_step (h : Signatures s) (hattributed : Attributed s)
    (hstep : Sys.step s i = some s') : ∀ a' ∈ s'.db.attempts, a'.status = .validated → ∃ policy,
      s'.db.PolicyOf a'.signerId policy ∧
        s'.db.hasValidatedSignature policy a'.signerId a'.documentVersionId = true := by
  intro a' ha' hvalidated
  have hkept {a : SignatureAttempt} (ha : a ∈ s.db.attempts) (hbefore : a.status = .validated) :
      ∃ policy, s'.db.PolicyOf a.signerId policy ∧
        s'.db.hasValidatedSignature policy a.signerId a.documentVersionId = true := by
    obtain ⟨policy, hpolicy, hsigned⟩ := h.validated a ha hbefore
    exact ⟨policy, PolicyOf.of_step hpolicy hstep, hasValidatedSignature_of_step hstep hsigned⟩
  by_cases hsign : ∃ index attemptId artifactId signed,
      i = .commitSignature index attemptId artifactId signed
  · obtain ⟨index, attemptId, artifactId, signed, rfl⟩ := hsign
    obtain ⟨_, -, -, row, _, hattempts, -, -, hsigned, -⟩ := signature_of_commit hstep
    rw [hattempts] at ha'
    rcases List.mem_append.mp ha' with hold | hnew
    · exact hkept hold hvalidated
    · obtain rfl := List.mem_singleton.mp hnew
      rw [hsigned] at hvalidated
      cases hvalidated
  · obtain ⟨hmoved, hartifacts⟩ := signatures_moved hstep
      fun index attemptId artifactId signed heq => hsign ⟨index, attemptId, artifactId, signed, heq⟩
    obtain ⟨a, ha, hchange⟩ := hmoved.exists_before ha'
    have hmove := hchange.toAttemptMove
    rcases status_of_attemptChange hchange with
      hsame | ⟨index, run, rfl, hrun, hid, ⟨hadmits, -⟩ | ⟨-, hnew⟩⟩
    · rw [hmove.signerId, hmove.documentVersionId]
      exact hkept ha (hsame.symm.trans hvalidated)
    · -- the run that validates it has just recorded its validation
      obtain ⟨run', db, hrun', hok, hs'⟩ := step_commitValidation hstep
      obtain rfl := Option.some.inj (hrun.symm.trans hrun')
      have hmem := List.mem_of_getElem? hrun
      have hartifact := artifact_of_validates h hattributed hmem
      rw [← hartifacts] at hartifact
      refine ⟨run.policy, ?_, ?_⟩
      · rw [hmove.signerId, signerId_of_validates h.keyed hattributed hmem ha hid]
        exact PolicyOf.of_step (h.validates run hmem) hstep
      · refine hasValidatedSignature_of_admission ha' hvalidated hadmits (hid.trans hmove.id.symm)
          hartifact ?_
        rw [hs']
        exact mem_validationRuns_of_commit hadmits hok
    · rw [hnew] at hvalidated
      cases hvalidated

theorem create_of_start (hprepared : Prepared s) (hidentified : Identified s)
    {signingIntentId : Id} {run : PadesCreateRun}
    (h : startPadesCreate s.db signingIntentId = .ok (some run)) :
    s.db.AtStage run.intent.signerId 3 ∧
      s.db.PolicyOf run.intent.signerId run.intent.policySnapshot := by
  obtain ⟨hload, hverified, -⟩ := startPadesCreate_eq h
  obtain ⟨si, c, signer, it, hsi, hc, hsigner, -, hrow⟩ := loadIntent_eq_ok hload
  have hmem := List.mem_of_find?_eq_some hsi
  have hid : signer.id = si.signerId := (exists_of_find?_key hsigner).2
  rw [hrow] at hverified ⊢
  refine ⟨?_, ?_⟩
  · have hstage := hidentified.stages si hmem
    rw [show si.status = .verified from hverified, ← hid] at hstage
    exact hstage
  · obtain ⟨_, other, -, -, hother, hcase⟩ := hprepared.sent si hmem
    obtain rfl := Option.some.inj (hsigner.symm.trans hother)
    exact ⟨signer, c, hid ▸ hsigner, hcase ▸ hc, rfl⟩

theorem creates_stages (h : Signatures s) (hprepared : Prepared s) (hidentified : Identified s)
    (hstep : Sys.step s i = some s') : ∀ run' ∈ s'.creates,
      s'.db.AtStage run'.intent.signerId (if run'.marked = true then 4 else 3) ∧ ∃ policy,
        s'.db.PolicyOf run'.intent.signerId policy ∧
          requiredPadesLevel policy = .ok (some run'.requestedFormat) := by
  intro run' hrun'
  rcases (runsAfter_of_step hstep).creates run' hrun' with
    ⟨run, hrun, hcontinues⟩ | ⟨intentId, rfl, hstart⟩
  · obtain ⟨hstage, policy, hpolicy, hlevel⟩ := h.creates run hrun
    rw [hcontinues.intent, hcontinues.requestedFormat]
    refine ⟨?_, policy, PolicyOf.of_step hpolicy hstep, hlevel⟩
    cases hmarked' : run'.marked with
    | false =>
      rw [(hcontinues.unmarked hmarked').1] at hstage
      exact AtStage.of_step hstage hstep
    | true =>
      cases hmarked : run.marked with
      | true =>
        rw [hmarked] at hstage
        exact AtStage.of_step hstage hstep
      | false =>
        -- a signer who is not verified any more has come further already
        rw [hmarked] at hstage
        obtain ⟨index, rfl, hindex⟩ := hcontinues.marked hmarked hmarked'
        obtain ⟨run₀, n, db, hrun₀, -, hok, rfl⟩ := step_markSigning hstep
        obtain rfl := Option.some.inj (hindex.symm.trans hrun₀)
        obtain ⟨-, rfl, -⟩ := Table.update_eq_ok.mp hok
        refine AtStage.of_assign hstage rfl fun signer hid hle => ?_
        cases hstatus : signer.status <;> simp [hid, hstatus, SignerStatus.stage] at hle ⊢
  · obtain ⟨hstage, hpolicy⟩ := create_of_start hprepared hidentified hstart
    obtain ⟨-, -, -, -, hunmarked, -⟩ := startPadesCreate_eq hstart
    rw [hunmarked]
    exact ⟨AtStage.of_step hstage hstep, _, PolicyOf.of_step hpolicy hstep,
      requiredPadesLevel_of_start hstart⟩

theorem validates_policy (h : Signatures s) (hreachable : s'.Reachable)
    (hstep : Sys.step s i = some s') : ∀ run ∈ s'.validates, s'.db.PolicyOf run.signerId run.policy := by
  intro run hrun
  rcases (runsAfter_of_step hstep).validates run hrun with hold | ⟨payload, report, rfl, hjob, hread⟩
  · exact PolicyOf.of_step (h.validates run hold) hstep
  · obtain ⟨signer, row, hsigner, hof, hrow, -⟩ := signer?_of_validates hreachable hrun
    obtain ⟨_, _, _, c, -, -, -, -, hc, -, hread⟩ := readPadesValidate_eq hread
    obtain ⟨c', hc', hchange⟩ := case?_of_step hstep hc
    rw [hread] at hrow hof hsigner ⊢
    obtain rfl := Option.some.inj (hrow.symm.trans hc')
    exact ⟨signer, row, hsigner, hof ▸ hrow, congrArg (·.policySnapshot) hchange.policy⟩

end Steps

theorem signatures_start (tenantId : Text) (organizationName : Option Text) (rollout : Bool)
    (clock : Time) : Signatures (Sys.start tenantId organizationName rollout clock) where
  keyed := List.nodup_nil
  numbered := List.nodup_nil
  made _ h := absurd h List.not_mem_nil
  levels _ h := absurd h List.not_mem_nil
  validated _ h := absurd h List.not_mem_nil
  creates _ h := absurd h List.not_mem_nil
  validates _ h := absurd h List.not_mem_nil

theorem signatures_of_reachable {s : Sys} (h : s.Reachable) : Signatures s := by
  refine h.induction signatures_start ?_
  intro s i s' hreachable hsignatures hstep
  have hattributed := attributed_of_reachable hreachable
  obtain ⟨hkeyed, hnumbered⟩ := keyed_of_step hsignatures hstep
  exact {
    keyed := hkeyed
    numbered := hnumbered
    made := made_of_step hsignatures hattributed hstep
    levels := levels_of_step hsignatures hstep
    validated := validated_of_step hsignatures hattributed hstep
    creates := creates_stages hsignatures (prepared_of_reachable hreachable)
      (identified_of_reachable hreachable) hstep
    validates := validates_policy hsignatures (hreachable.of_step hstep) hstep }

end Kommunsign
