import Kommunsign.Workflow.Bindings

/-!
# Signers whose identity is verified

What the provider answers is collected, checked and recorded by three transactions of two jobs. An
intent is verified by the last of them only, with an artifact that says that the check has passed.

* `Db.AtStage` — a signer has come so far; no step takes it back
* `Identified` — what is checked has been collected, an intent that is verified has its artifact,
  and no intent is ahead of its signer
-/

namespace Kommunsign

open Infra

/-- The provider is not expected to answer any more. -/
def IntentStatus.isCollected : IntentStatus → Bool
  | .prepared | .provider_started => false
  | _ => true

/-- The signer has come to the stage, or further. -/
def Db.AtStage (db : Db) (signerId : Id) (stage : Nat) : Prop :=
  ∃ signer, db.signer? signerId = some signer ∧ stage ≤ signer.status.stage

structure Identified (s : Sys) : Prop where
  started : ∀ t ∈ s.db.identityTransactions, ∀ id ∈ t.signingIntentId, ∀ si ∈ s.db.intent? id,
    si.status ≠ .prepared
  collected : ∀ t, .signatureValidate t ∈ s.db.jobs ∨ t ∈ s.checks →
    ∃ row, loadStarted s.db t = .ok row ∧ row.2.status.isCollected = true
  checked : ∀ a ∈ s.db.identityArtifacts,
    ∃ row, loadStarted s.db a.identityTransactionId = .ok row ∧ row.2.status.isActive = false
  verified : ∀ si ∈ s.db.intents, si.status.isVerified = true →
    ∃ a ∈ s.db.identityArtifacts, a.signingIntentId = si.id ∧ a.pass = true
  starts : ∀ start ∈ s.starts, s.db.AtStage start.signerId 1
  stages : ∀ si ∈ s.db.intents, s.db.AtStage si.signerId si.status.stage

/-! ## Statuses that are kept -/

theorem IntentStatus.isCollected_of_reaches {old new : IntentStatus} (h : Reaches allowed old new)
    (hold : old.isCollected = true) : new.isCollected = true := by
  refine h.keeps (P := fun s => s.isCollected = true) (fun a b hb ha => ?_) hold
  cases a <;> cases b <;> revert hb ha <;> decide

theorem IntentStatus.isActive_of_reaches {old new : IntentStatus} (h : Reaches allowed old new)
    (hold : old.isActive = false) : new.isActive = false := by
  refine h.keeps (P := fun s => s.isActive = false) (fun a b hb ha => ?_) hold
  cases a <;> cases b <;> revert hb ha <;> decide

theorem IntentStatus.ne_prepared_of_reaches {old new : IntentStatus} (h : Reaches allowed old new)
    (hold : old ≠ .prepared) : new ≠ .prepared := by
  refine h.keeps (P := fun s => s ≠ .prepared) (fun a b hb ha => ?_) hold
  cases a <;> cases b <;> revert hb ha <;> decide

theorem IntentStatus.isCollected_of_started {status : IntentStatus} (hstarted : status ≠ .prepared)
    (h : status ≠ .provider_started) : status.isCollected = true := by
  cases status <;> revert hstarted h <;> decide

theorem IntentStatus.isActive_of_isCollected {status : IntentStatus}
    (hcollected : status.isCollected = true) (h : status ≠ .evidence_collected) :
    status.isActive = false := by
  cases status <;> revert hcollected h <;> decide

/-! ## How far a signer has come -/

theorem AtStage.mono {db : Db} {signerId : Id} {stage stage' : Nat} (h : db.AtStage signerId stage)
    (hle : stage' ≤ stage) : db.AtStage signerId stage' := by
  obtain ⟨signer, hsigner, hstage⟩ := h
  exact ⟨signer, hsigner, hle.trans hstage⟩

theorem AtStage.of_assign {db db' : Db} {p : Signer → Bool} {status : SignerStatus} {signerId : Id}
    {stage stage' : Nat} (h : db.AtStage signerId stage)
    (hsigners : db'.signers = assign p (fun s => { s with status := status }) db.signers)
    (hstage : ∀ s, s.id = signerId → stage ≤ s.status.stage →
      stage' ≤ (if p s = true then status else s.status).stage) : db'.AtStage signerId stage' := by
  obtain ⟨signer, hsigner, hle⟩ := h
  have hfind : (assign p (fun s => { s with status := status }) db.signers).find?
      (fun s => s.id == signerId) = (db.signer? signerId).map fun s =>
        if p s = true then { s with status := status } else s :=
    find?_assign (fun s : Signer => s.id) fun _ _ _ => rfl
  rw [← hsigners, hsigner, Option.map_some] at hfind
  refine ⟨_, hfind, ?_⟩
  have hto := hstage signer (exists_of_find?_key hsigner).2 hle
  split <;> simp_all

section Steps

variable {s s' : Sys} {i : Step}

theorem AtStage.of_step {signerId : Id} {stage : Nat} (h : s.db.AtStage signerId stage)
    (hstep : Sys.step s i = some s') : s'.db.AtStage signerId stage := by
  obtain ⟨signer, hsigner, hle⟩ := h
  obtain ⟨signer', hsigner', hchange⟩ := signer?_of_step hstep hsigner
  exact ⟨signer', hsigner', hle.trans hchange.stage_le⟩

theorem loadStarted_of_step (hstep : Sys.step s i = some s') {t : Id}
    {row : IdentityTransaction × SigningIntent} (h : loadStarted s.db t = .ok row) :
    ∃ row', loadStarted s'.db t = .ok row' ∧ IntentChange (stepEffect s i) row.2 row'.2 := by
  obtain ⟨hit, signingIntentId, hof, hsi⟩ := loadStarted_eq_ok.mp h
  obtain ⟨it', hit', hmove⟩ := session?_of_step hstep hit
  obtain ⟨si', hsi', hchange⟩ := intent?_of_step hstep hsi
  exact ⟨(it', si'), loadStarted_eq_ok.mpr ⟨hit', signingIntentId, hmove.intent.trans hof, hsi'⟩,
    hchange⟩

theorem Identified.of_loadStarted (h : Identified s) {t : Id}
    {row : IdentityTransaction × SigningIntent} (hrow : loadStarted s.db t = .ok row) :
    row.2 ∈ s.db.intents ∧ row.2.status ≠ .prepared := by
  obtain ⟨hit, signingIntentId, hof, hsi⟩ := loadStarted_eq_ok.mp hrow
  exact ⟨List.mem_of_find?_eq_some hsi,
    h.started row.1 (List.mem_of_find?_eq_some hit) signingIntentId hof row.2 hsi⟩

theorem loadStarted_of_assign {db : Db} {t : Id} {row row' : IdentityTransaction × SigningIntent}
    {old new : IntentStatus} (hrow : loadStarted db t = .ok row) (hrow' : loadStarted s'.db t = .ok row')
    (hid : row'.2.id = row.2.id)
    (hintents : s'.db.intents = assign (fun si => si.id == row.2.id && si.status == old)
      (fun si => { si with status := new }) db.intents) :
    row'.2.status = if row.2.status = old then new else row.2.status := by
  obtain ⟨-, id, -, hsi⟩ := loadStarted_eq_ok.mp hrow
  obtain ⟨-, id', -, hsi'⟩ := loadStarted_eq_ok.mp hrow'
  obtain rfl : row.2.id = id := (exists_of_find?_key hsi).2
  obtain rfl : row'.2.id = id' := (exists_of_find?_key hsi').2
  have hfind : (assign (fun si => si.id == row.2.id && si.status == old)
      (fun si => { si with status := new }) db.intents).find? (fun si => si.id == row.2.id) =
        (db.intent? row.2.id).map fun si => if (si.id == row.2.id && si.status == old) = true then
          { si with status := new } else si :=
    find?_assign (fun si : SigningIntent => si.id) fun _ _ _ => rfl
  rw [Db.intent?, hid, hintents, hfind, hsi, Option.map_some, Option.some.injEq] at hsi'
  rw [← hsi']
  by_cases hold : row.2.status = old <;> simp [hold]

/-! ## Every step keeps it -/

theorem started_of_step (h : Identified s) (hstanding : Standing s)
    (hstep : Sys.step s i = some s') : ∀ t' ∈ s'.db.identityTransactions,
      ∀ id ∈ t'.signingIntentId, ∀ si' ∈ s'.db.intent? id, si'.status ≠ .prepared := by
  intro t' ht' id hid si' hsi'
  rcases sessions_of_step hstep t' ht' with
    ⟨t, ht, hmove⟩ | ⟨index, reference, start, documentVersionId, rfl, hstart, -, rfl⟩
  · rw [hmove.intent] at hid
    obtain ⟨si, hsi⟩ := Option.isSome_iff_exists.mp (hstanding.sessions t ht id hid)
    obtain ⟨_, hfound, hchange⟩ := intent?_of_step hstep hsi
    obtain rfl := Option.some.inj (hfound.symm.trans hsi')
    exact IntentStatus.ne_prepared_of_reaches hchange.status (h.started t ht id hid si hsi)
  · obtain rfl : start.signingIntentId = id := Option.some.inj hid
    obtain ⟨start', db, hstart', hok, rfl⟩ := step_recordSession hstep
    obtain rfl := Option.some.inj (hstart.symm.trans hstart')
    obtain ⟨_, -, -, -, hintents, -⟩ := recordSession_eq hok
    have hmem := List.mem_of_find?_eq_some hsi'
    rw [hintents] at hmem
    obtain ⟨si, -, rfl⟩ := mem_assign.mp hmem
    have hkey := (exists_of_find?_key hsi').2
    split at hkey
    · next hp =>
      rw [if_pos hp]
      nofun
    · next hp => exact absurd (beq_iff_eq.mpr hkey) hp

theorem collected_of_step (h : Identified s) (hstep : Sys.step s i = some s') {t : Id}
    (ht : .signatureValidate t ∈ s'.db.jobs ∨ t ∈ s'.checks) :
    ∃ row, loadStarted s'.db t = .ok row ∧ row.2.status.isCollected = true := by
  have hkept (hold : .signatureValidate t ∈ s.db.jobs ∨ t ∈ s.checks) :
      ∃ row, loadStarted s'.db t = .ok row ∧ row.2.status.isCollected = true := by
    obtain ⟨row, hrow, hcollected⟩ := h.collected t hold
    obtain ⟨row', hrow', hchange⟩ := loadStarted_of_step hstep hrow
    exact ⟨row', hrow', IntentStatus.isCollected_of_reaches hchange.status hcollected⟩
  rcases ht with hjob | hcheck
  · rcases intake_or_leaves hstep with ⟨intake, rfl, -, rfl⟩ | hleaves
    · exact hkept (Or.inl hjob)
    rcases hleaves.jobs _ hjob with hold | hqueues
    · exact hkept (Or.inl hold)
    · obtain ⟨sha256, rfl⟩ := collects_of_effect hqueues
      obtain ⟨-, db, hok, hs'⟩ := Sys.work_eq_some.mp hstep
      obtain ⟨row, hrow, hintents⟩ := collectEvidence_eq hok
      obtain ⟨row', hrow', hchange⟩ := loadStarted_of_step hstep hrow
      have hstatus := loadStarted_of_assign hrow hrow' hchange.toIntentMove.id (by rw [hs', hintents])
      refine ⟨row', hrow', ?_⟩
      rw [hstatus]
      split
      · rfl
      · next hwaiting =>
        exact IntentStatus.isCollected_of_started (h.of_loadStarted hrow).2 hwaiting
  · rcases (runsAfter_of_step hstep).checks t hcheck with hold | ⟨-, hjob⟩
    · exact hkept (Or.inr hold)
    · exact hkept (Or.inl hjob)

theorem checked_of_step (h : Identified s) (hstep : Sys.step s i = some s') :
    ∀ a ∈ s'.db.identityArtifacts, ∃ row,
      loadStarted s'.db a.identityTransactionId = .ok row ∧ row.2.status.isActive = false := by
  intro a ha
  have hkept (hold : a ∈ s.db.identityArtifacts) : ∃ row,
      loadStarted s'.db a.identityTransactionId = .ok row ∧ row.2.status.isActive = false := by
    obtain ⟨row, hrow, hactive⟩ := h.checked a hold
    obtain ⟨row', hrow', hchange⟩ := loadStarted_of_step hstep hrow
    exact ⟨row', hrow', IntentStatus.isActive_of_reaches hchange.status hactive⟩
  rcases intake_or_leaves hstep with ⟨intake, rfl, -, rfl⟩ | hleaves
  · exact hkept ha
  rcases hleaves.identityArtifacts.exists_before ha with ⟨_, hold, rfl⟩ | hinserts
  · exact hkept hold
  · cases insertion_of_effect hinserts with
    | identityArtifacts index pass =>
      obtain ⟨t, db, ht, hok, hs'⟩ := step_recordVerification hstep
      obtain ⟨row, hrow, hchecked⟩ := recordVerification_eq hok
      have hartifacts : s'.db.identityArtifacts = db.identityArtifacts := by
        rw [hs']
      rw [hartifacts] at ha
      rcases hchecked.artifacts with ⟨-, hsame⟩ | hadded
      · exact hkept (hsame ▸ ha)
      rw [hadded] at ha
      rcases List.mem_append.mp ha with hold | hnew
      · exact hkept hold
      · obtain rfl := List.mem_singleton.mp hnew
        obtain ⟨row', hrow', hchange⟩ := loadStarted_of_step hstep hrow
        obtain ⟨_, hfound, hcollected⟩ := h.collected t (Or.inr (List.mem_of_getElem? ht))
        obtain rfl := Except.ok.inj (hrow.symm.trans hfound)
        have hstatus := loadStarted_of_assign hrow hrow' hchange.toIntentMove.id
          (by rw [hs', hchecked.intents])
        refine ⟨row', hrow', ?_⟩
        rw [hstatus]
        split
        · cases pass <;> rfl
        · next hother => exact IntentStatus.isActive_of_isCollected hcollected hother

theorem artifact_of_verification (h : Identified s) (hprepared : Prepared s) {index : Nat}
    (hstep : Sys.step s (.recordVerification index true) = some s') {si' : SigningIntent}
    (hsi' : si' ∈ s'.db.intents) (hverified : si'.status.isVerified = true) :
    (∃ si ∈ s.db.intents, si.id = si'.id ∧ si.status.isVerified = true) ∨
      ∃ a ∈ s'.db.identityArtifacts, a.signingIntentId = si'.id ∧ a.pass = true := by
  obtain ⟨t, db, -, hok, rfl⟩ := step_recordVerification hstep
  obtain ⟨row, hrow, hchecked⟩ := recordVerification_eq hok
  rw [hchecked.intents] at hsi'
  obtain ⟨si, hsi, rfl⟩ := mem_assign.mp hsi'
  by_cases hp : (si.id == row.2.id && si.status == .evidence_collected) = true
  · rw [if_pos hp]
    rw [Bool.and_eq_true, beq_iff_eq, beq_iff_eq] at hp
    obtain rfl := eq_of_key_eq hprepared.keyed hsi (h.of_loadStarted hrow).1 hp.1
    rcases hchecked.artifacts with ⟨⟨a, ha, hof⟩, -⟩ | hadded
    · -- an artifact of the session that is there already would have ended the intent
      obtain ⟨row', hrow', hactive⟩ := h.checked a ha
      rw [hof] at hrow'
      obtain rfl := Except.ok.inj (hrow.symm.trans hrow')
      rw [hp.2] at hactive
      cases hactive
    · refine Or.inr ⟨⟨.TIC_BANKID, t, row.2.id, true⟩, ?_, rfl, rfl⟩
      change _ ∈ db.identityArtifacts
      rw [hadded]
      exact List.mem_append_right _ List.mem_cons_self
  · rw [if_neg hp] at hverified ⊢
    exact Or.inl ⟨si, hsi, rfl, hverified⟩

theorem isVerified_before (hstep : Sys.step s i = some s')
    (hpass : ∀ index, i ≠ .recordVerification index true) {si' : SigningIntent}
    (hsi' : si' ∈ s'.db.intents) (hverified : si'.status.isVerified = true) :
    ∃ si ∈ s.db.intents, si.toIntentPayload = si'.toIntentPayload ∧
      si.status.isVerified = true := by
  by_cases hsend : ∃ c nonce, i = .send c nonce
  · obtain ⟨c, nonce, rfl⟩ := hsend
    obtain ⟨row, prepared, -, -, -, hprepared, hintents, -⟩ := rows_of_send hstep
    rw [hintents] at hsi'
    rcases List.mem_append.mp hsi' with hold | hnew
    · exact ⟨si', hold, rfl, hverified⟩
    · obtain ⟨_, -, _, _, -, rfl⟩ := exists_left_of_forall₂ hprepared hnew
      cases hverified
  · have hmoved := intents_moved hstep fun c nonce heq => hsend ⟨c, nonce, heq⟩
    obtain ⟨si, hsi, hchange⟩ := hmoved.exists_before hsi'
    refine ⟨si, hsi, hchange.toIntentMove.payload.symm, ?_⟩
    by_contra hnot
    have hlate := hchange.change.keeps (P := fun status => ¬status.isVerified = true) ?_ hnot
    · exact hlate hverified
    intro old new hallowed hmay hold
    cases intentTransition_of_effect hmay with
    | verifies index => exact absurd rfl (hpass index)
    | packages => exact absurd rfl hold
    | starts | cancels | collects | fails => nofun

theorem verified_of_step (h : Identified s) (hprepared : Prepared s)
    (hstep : Sys.step s i = some s') : ∀ si' ∈ s'.db.intents, si'.status.isVerified = true →
      ∃ a ∈ s'.db.identityArtifacts, a.signingIntentId = si'.id ∧ a.pass = true := by
  intro si' hsi' hverified
  have hkept (hold : ∃ si ∈ s.db.intents, si.id = si'.id ∧ si.status.isVerified = true) :
      ∃ a ∈ s'.db.identityArtifacts, a.signingIntentId = si'.id ∧ a.pass = true := by
    obtain ⟨si, hsi, hid, hbefore⟩ := hold
    obtain ⟨a, ha, hof, hpass⟩ := h.verified si hsi hbefore
    rw [hid] at hof
    rcases intake_or_leaves hstep with ⟨intake, rfl, -, rfl⟩ | hleaves
    · exact ⟨a, ha, hof, hpass⟩
    · obtain ⟨_, ha', rfl⟩ := hleaves.identityArtifacts.exists_after ha
      exact ⟨a, ha', hof, hpass⟩
  by_cases hpass : ∃ index, i = .recordVerification index true
  · obtain ⟨index, rfl⟩ := hpass
    rcases artifact_of_verification h hprepared hstep hsi' hverified with hold | hnew
    · exact hkept hold
    · exact hnew
  · obtain ⟨si, hsi, hpayload, hbefore⟩ :=
      isVerified_before hstep (fun index heq => hpass ⟨index, heq⟩) hsi' hverified
    exact hkept ⟨si, hsi, congrArg (·.id) hpayload, hbefore⟩

theorem starts_atStage (h : Identified s) (hstanding : Standing s) (hstep : Sys.step s i = some s') :
    ∀ start ∈ s'.starts, s'.db.AtStage start.signerId 1 := by
  intro start hstart
  rcases (runsAfter_of_step hstep).starts start hstart with hold | ⟨invitationId, text, rfl, hread⟩
  · exact AtStage.of_step (h.starts start hold) hstep
  · obtain ⟨invitation, si, hinvitation, hstartable, -, hsigner, -⟩ := startSession_eq_ok hread
    obtain ⟨-, signer, hmem, hid, hstage⟩ :=
      hstanding.invitations invitation (List.mem_of_find?_eq_some hinvitation)
    have hsame : start.signerId = signer.id := by
      rw [hsigner, (mem_of_startableIntent? hstartable).2.1, hid]
    refine AtStage.of_step ⟨signer, ?_, hstage⟩ hstep
    rw [hsame]
    exact find?_of_mem hstanding.signersKeyed hmem

theorem stages_of_recordSession (h : Identified s) (hprepared : Prepared s) (hbound : Bound s)
    {index reference : Nat} (hstep : Sys.step s (.recordSession index reference) = some s') :
    ∀ si' ∈ s'.db.intents, s'.db.AtStage si'.signerId si'.status.stage := by
  intro si' hsi'
  obtain ⟨start, db, hstart, hok, hs'⟩ := step_recordSession hstep
  obtain ⟨_, -, -, -, hintents, hsigners⟩ := recordSession_eq hok
  have hintents' : s'.db.intents = db.intents := by
    rw [hs']
  rw [hintents', hintents] at hsi'
  obtain ⟨si, hsi, rfl⟩ := mem_assign.mp hsi'
  by_cases hp : (si.id == start.signingIntentId) = true
  · rw [if_pos hp]
    obtain ⟨other, hother, hsigner, -⟩ := hbound.starts start (List.mem_of_getElem? hstart)
    obtain ⟨hmem, hid⟩ := exists_of_find?_key hother
    obtain rfl := eq_of_key_eq hprepared.keyed hmem hsi (hid.trans (beq_iff_eq.mp hp).symm)
    have hbegan := h.starts start (List.mem_of_getElem? hstart)
    rw [hsigner] at hbegan hsigners
    refine AtStage.of_assign hbegan (by rw [hs', hsigners]) fun signer hid hstage => ?_
    cases hstatus : signer.status <;>
      simp [hid, hstatus, SignerStatus.stage, IntentStatus.stage] at hstage ⊢
  · rw [if_neg hp]
    exact AtStage.of_step (h.stages si hsi) hstep

theorem stages_of_recordVerification (h : Identified s) (hprepared : Prepared s) {index : Nat}
    (hstep : Sys.step s (.recordVerification index true) = some s') :
    ∀ si' ∈ s'.db.intents, s'.db.AtStage si'.signerId si'.status.stage := by
  intro si' hsi'
  obtain ⟨t, db, -, hok, hs'⟩ := step_recordVerification hstep
  obtain ⟨row, hrow, hchecked⟩ := recordVerification_eq hok
  have hintents : s'.db.intents = db.intents := by
    rw [hs']
  rw [hintents, hchecked.intents] at hsi'
  obtain ⟨si, hsi, rfl⟩ := mem_assign.mp hsi'
  by_cases hp : (si.id == row.2.id && si.status == .evidence_collected) = true
  · rw [if_pos hp]
    rw [Bool.and_eq_true, beq_iff_eq, beq_iff_eq] at hp
    obtain rfl := eq_of_key_eq hprepared.keyed hsi (h.of_loadStarted hrow).1 hp.1
    have hbegan := h.stages row.2 hsi
    rw [hp.2] at hbegan
    refine AtStage.of_assign hbegan (by rw [hs', hchecked.signers rfl]) fun signer hid hstage => ?_
    cases hstatus : signer.status <;>
      simp [hid, hstatus, SignerStatus.stage, IntentStatus.stage] at hstage ⊢
  · rw [if_neg hp]
    exact AtStage.of_step (h.stages si hsi) hstep

theorem stage_le_of_change {si si' : SigningIntent} (hchange : IntentChange (stepEffect s i) si si')
    (hsession : ∀ index reference, i ≠ .recordSession index reference)
    (hpass : ∀ index, i ≠ .recordVerification index true) : si'.status.stage ≤ si.status.stage := by
  refine hchange.change.keeps (P := fun status => status.stage ≤ si.status.stage) ?_ le_rfl
  intro old new hallowed hmay hold
  cases intentTransition_of_effect hmay with
  | starts index reference => exact absurd rfl (hsession index reference)
  | verifies index => exact absurd rfl (hpass index)
  | cancels | fails => exact Nat.zero_le _
  | collects | packages => exact hold

theorem stages_of_step (h : Identified s) (hprepared : Prepared s) (hafter : Prepared s')
    (hbound : Bound s) (hstep : Sys.step s i = some s') :
    ∀ si' ∈ s'.db.intents, s'.db.AtStage si'.signerId si'.status.stage := by
  by_cases hsession : ∃ index reference, i = .recordSession index reference
  · obtain ⟨index, reference, rfl⟩ := hsession
    exact stages_of_recordSession h hprepared hbound hstep
  by_cases hpass : ∃ index, i = .recordVerification index true
  · obtain ⟨index, rfl⟩ := hpass
    exact stages_of_recordVerification h hprepared hstep
  intro si' hsi'
  by_cases hsend : ∃ c nonce, i = .send c nonce
  · obtain ⟨c, nonce, rfl⟩ := hsend
    obtain ⟨row, prepared, -, -, -, hfor, hintents, -⟩ := rows_of_send hstep
    have hmem := hsi'
    rw [hintents] at hmem
    rcases List.mem_append.mp hmem with hold | hnew
    · exact AtStage.of_step (h.stages si' hold) hstep
    · -- the signer of an intent that is prepared need not have begun
      obtain ⟨_, signer, -, -, hsigner, -⟩ := hafter.sent si' hsi'
      obtain ⟨_, -, _, _, -, rfl⟩ := exists_left_of_forall₂ hfor hnew
      exact ⟨signer, hsigner, Nat.zero_le _⟩
  · have hmoved := intents_moved hstep fun c nonce heq => hsend ⟨c, nonce, heq⟩
    obtain ⟨si, hsi, hchange⟩ := hmoved.exists_before hsi'
    rw [hchange.toIntentMove.signerId]
    refine AtStage.mono (AtStage.of_step (h.stages si hsi) hstep) (stage_le_of_change hchange ?_ ?_)
    · exact fun index reference heq => hsession ⟨index, reference, heq⟩
    · exact fun index heq => hpass ⟨index, heq⟩

end Steps

theorem identified_start (tenantId : Text) (organizationName : Option Text) (rollout : Bool)
    (clock : Time) : Identified (Sys.start tenantId organizationName rollout clock) where
  started _ h := absurd h List.not_mem_nil
  collected _ h := by
    rcases h with h | h <;> exact absurd h List.not_mem_nil
  checked _ h := absurd h List.not_mem_nil
  verified _ h := absurd h List.not_mem_nil
  starts _ h := absurd h List.not_mem_nil
  stages _ h := absurd h List.not_mem_nil

theorem identified_of_reachable {s : Sys} (h : s.Reachable) : Identified s := by
  refine h.induction identified_start ?_
  intro s i s' hreachable hidentified hstep
  have hstanding := standing_of_reachable hreachable
  have hprepared := prepared_of_reachable hreachable
  exact {
    started := started_of_step hidentified hstanding hstep
    collected := fun _ => collected_of_step hidentified hstep
    checked := checked_of_step hidentified hstep
    verified := verified_of_step hidentified hprepared hstep
    starts := starts_atStage hidentified hstanding hstep
    stages := stages_of_step hidentified hprepared (prepared_of_step hprepared hstanding hstep)
      (bound_of_reachable hreachable) hstep }

end Kommunsign
