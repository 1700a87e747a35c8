import Kommunsign.Workflow.InFlight
import Kommunsign.Workflow.Standing

/-!
# What the intents and the signing jobs are of

Sending a case prepares one intent for each of its signers. No other step adds one, and what an
intent is of never changes.

* `Db.SentFor` — the intent is of a signer of its case, which has been sent
* `Prepared` — every intent is, a signer has one at most, and one as long as the case is open
* `Db.CreateOf` — the intent of a run that makes signatures
-/

namespace Kommunsign

open Infra

def Db.SentFor (db : Db) (si : SigningIntent) : Prop :=
  ∃ c signer, db.case? si.signatureCaseId = some c ∧ c.status.isUnsent = false ∧
    db.signer? si.signerId = some signer ∧ signer.signatureCaseId = si.signatureCaseId

structure Prepared (s : Sys) : Prop where
  keyed : (s.db.intents.map (·.id)).Nodup
  single : (s.db.intents.map (·.signerId)).Nodup
  sent : ∀ si ∈ s.db.intents, s.db.SentFor si
  covers : ∀ signer ∈ s.db.signers, ∀ c, s.db.case? signer.signatureCaseId = some c →
    c.status.isOpen = true → ∃ si ∈ s.db.intents, si.signerId = signer.id

/-! ## Rows before and after -/

theorem CaseStatus.isUnsent_of_reaches {old new : CaseStatus} (h : Reaches allowed old new)
    (hold : old.isUnsent = false) : new.isUnsent = false := by
  refine h.keeps (P := fun s => s.isUnsent = false) (fun a b hb ha => ?_) hold
  cases a <;> cases b <;> revert hb ha <;> decide

theorem CaseStatus.isOpen_of_allowed {old new : CaseStatus} (h : new ∈ old.allowed)
    (hold : old.isOpen = false) (hsent : new ≠ .sent) : new.isOpen = false := by
  cases old <;> cases new <;> revert h hold hsent <;> decide

section Steps

variable {s s' : Sys} {i : Step}

theorem isOpen_before {c c' : SignatureCase} (hchange : CaseChange (stepEffect s i) c c')
    (hopen : c'.status.isOpen = true) :
    c.status.isOpen = true ∨ ∃ nonce, i = .send c.id nonce := by
  by_contra hnot
  rw [not_or, Bool.not_eq_true] at hnot
  have hclosed : c'.status.isOpen = false := by
    refine hchange.change.keeps (P := fun status => status.isOpen = false) ?_ hnot.1
    intro old new hallowed hmay hold
    refine CaseStatus.isOpen_of_allowed hallowed hold fun hsent => hnot.2 ?_
    subst hsent
    cases caseTransition_of_effect hmay with
    | sends nonce => exact ⟨nonce, rfl⟩
  rw [hclosed] at hopen
  cases hopen

theorem SentFor.of_step {si si' : SigningIntent} (h : s.db.SentFor si)
    (hstep : Sys.step s i = some s') (hpayload : si'.toIntentPayload = si.toIntentPayload) :
    s'.db.SentFor si' := by
  obtain ⟨c, signer, hc, hsent, hsigner, hcase⟩ := h
  obtain ⟨c', hc', hchange⟩ := case?_of_step hstep hc
  obtain ⟨signer', hsigner', hmove⟩ := signer?_of_step hstep hsigner
  have hcaseId : si'.signatureCaseId = si.signatureCaseId := congrArg (·.signatureCaseId) hpayload
  have hsignerId : si'.signerId = si.signerId := congrArg (·.signerId) hpayload
  refine ⟨c', signer', hcaseId ▸ hc', CaseStatus.isUnsent_of_reaches hchange.status hsent,
    hsignerId ▸ hsigner', ?_⟩
  rw [hmove.toSignerMove.signatureCaseId, hcase, hcaseId]

theorem intents_moved (hstep : Sys.step s i = some s') (hsend : ∀ c nonce, i ≠ .send c nonce) :
    Moved (IntentChange (stepEffect s i)) s.db.intents s'.db.intents := by
  rcases intake_or_leaves hstep with ⟨intake, rfl, -, rfl⟩ | hleaves
  · exact Moved.refl (IntentChange.refl _) _
  · refine hleaves.intents.moved fun _ hinserts => ?_
    cases insertion_of_effect hinserts with
    | intents c nonce => exact hsend c nonce rfl

theorem intent?_of_step (hstep : Sys.step s i = some s') {id : Id} {si : SigningIntent}
    (hsi : s.db.intent? id = some si) :
    ∃ si', s'.db.intent? id = some si' ∧ IntentChange (stepEffect s i) si si' := by
  rcases intake_or_leaves hstep with ⟨intake, rfl, -, rfl⟩ | hleaves
  · exact ⟨si, hsi, IntentChange.refl _ si⟩
  · exact hleaves.intents.find?_eq_some (fun row : SigningIntent => row.id)
      (fun _ _ hchange => hchange.toIntentMove.id) hsi

theorem mem_signersInOrder {db : Db} {c : Id} {signer : Signer} :
    signer ∈ db.signersInOrder c ↔ signer ∈ db.signers ∧ signer.signatureCaseId = c := by
  rw [Db.signersInOrder, (List.perm_insertionSort _ _).mem_iff, List.mem_filter, beq_iff_eq]

theorem signer_before_open (hstanding : Standing s) (hstep : Sys.step s i = some s')
    {signer' : Signer} (hsigner' : signer' ∈ s'.db.signers) {c' : SignatureCase}
    (hc' : s'.db.case? signer'.signatureCaseId = some c') (hopen : c'.status.isOpen = true) :
    ∃ signer ∈ s.db.signers, SignerChange (stepEffect s i) signer signer' ∧
      ∃ c, s.db.case? signer.signatureCaseId = some c ∧
        (c.status.isOpen = true ∨ ∃ nonce, i = .send signer.signatureCaseId nonce) := by
  have hfound : s'.db.signer? signer'.id = some signer' :=
    find?_of_mem (standing_of_step hstanding hstep).signersKeyed hsigner'
  rcases case?_before_step hstep hc' with ⟨c, hc, hcase⟩ | ⟨-, hready⟩
  · rcases signer?_before_step hstep hfound with ⟨signer, hsigner, hchange⟩ | ⟨-, hnone, -⟩
    · rw [hchange.toSignerMove.signatureCaseId] at hc
      refine ⟨signer, List.mem_of_find?_eq_some hsigner, hchange, c, hc, ?_⟩
      have hid : c.id = signer.signatureCaseId := (exists_of_find?_key hc).2
      rw [← hid]
      exact isOpen_before hcase hopen
    · rw [hnone] at hc
      cases hc
  · rw [hready] at hopen
    cases hopen

/-! ## Every step keeps it -/

theorem Prepared.not_mem_of_ready (h : Prepared s) (hstanding : Standing s) {c : SignatureCase}
    (hc : s.db.case? c.id = some c) (hready : c.status = .ready) {signer : Signer}
    (hsigner : signer ∈ s.db.signersInOrder c.id) : signer.id ∉ s.db.intents.map (·.signerId) := by
  intro hmem
  obtain ⟨si, hsi, hid⟩ := List.mem_map.mp hmem
  obtain ⟨row, other, hrow, hsent, hother, hcase⟩ := h.sent si hsi
  obtain ⟨hin, hsignerCase⟩ := mem_signersInOrder.mp hsigner
  have hsame : other = signer := by
    obtain ⟨hmem', hid'⟩ := exists_of_find?_key hother
    exact eq_of_key_eq hstanding.signersKeyed hmem' hin (hid'.trans hid)
  rw [hsame, hsignerCase] at hcase
  rw [← hcase, hc] at hrow
  rw [← Option.some.inj hrow, hready] at hsent
  cases hsent

theorem case?_of_send {c : Id} {nonce : Id → Text} (hstep : Sys.step s (.send c nonce) = some s') :
    ∃ row, s'.db.case? c = some row ∧ row.status = .sent := by
  obtain ⟨db, hok, hs'⟩ := Sys.commit_eq_some.mp hstep
  obtain ⟨row, prepared, db₁, hrow, rfl, -, -, hprepares, rfl⟩ := send_eq hok
  have hfind : (assign (fun c => c.id == row.id) (fun c => { c with status := .sent })
      db₁.cases).find? (fun c => c.id == row.id) =
        (db₁.cases.find? fun c => c.id == row.id).map fun c =>
          if (c.id == row.id) = true then { c with status := .sent } else c :=
    find?_assign (fun c : SignatureCase => c.id) fun _ _ _ => rfl
  have hcase : (db₁.cases.find? fun c => c.id == row.id) = some row := by
    rw [hprepares.cases]
    exact hrow
  rw [hcase, Option.map_some, if_pos (beq_self_eq_true row.id)] at hfind
  refine ⟨{ row with status := .sent }, ?_, rfl⟩
  rw [hs', Db.case?]
  exact hfind

theorem Prepared.of_send (h : Prepared s) (hstanding : Standing s) {c : Id} {nonce : Id → Text}
    (hstep : Sys.step s (.send c nonce) = some s') : Prepared s' := by
  obtain ⟨db, hok, hs'⟩ := Sys.commit_eq_some.mp hstep
  obtain ⟨row, prepared, db₁, hrow, rfl, hsendable, -, hprepares, rfl⟩ := send_eq hok
  have hintents : s'.db.intents = s.db.intents ++ prepared := by
    rw [hs']
    exact hprepares.intents
  have hsignerIds := map_signerId_of_preparedFor hprepares.prepared
  refine ⟨?_, ?_, fun si hsi => ?_, fun signer' hsigner' c' hc' hopen => ?_⟩
  · rw [hs']
    exact hprepares.keyed h.keyed
  · rw [hintents, List.map_append, hsignerIds, List.nodup_append]
    refine ⟨h.single, ?_, fun id hold id' hnew heq => ?_⟩
    · have hperm : ((s.db.signersInOrder row.id).map (·.id)).Perm
          ((s.db.signers.filter fun s => s.signatureCaseId == row.id).map (·.id)) :=
        (List.perm_insertionSort _ _).map _
      exact hperm.nodup_iff.mpr
        (hstanding.signersKeyed.sublist (List.filter_sublist.map _))
    · obtain ⟨signer, hsigner, rfl⟩ := List.mem_map.mp hnew
      exact h.not_mem_of_ready hstanding hrow hsendable.ready hsigner (heq ▸ hold)
  · rw [hintents] at hsi
    rcases List.mem_append.mp hsi with hold | hnew
    · exact SentFor.of_step (h.sent si hold) hstep rfl
    · -- the new intent is of a signer of the case, which is sent now
      obtain ⟨signer, hsigner, hfor⟩ := exists_left_of_forall₂ hprepares.prepared hnew
      obtain ⟨hmem, hcase⟩ := mem_signersInOrder.mp hsigner
      obtain ⟨signer', hsigner', hmove⟩ :=
        signer?_of_step hstep (find?_of_mem hstanding.signersKeyed hmem)
      obtain ⟨sent, hrow', hsent⟩ := case?_of_send hstep
      refine ⟨sent, signer', hfor.signatureCaseId ▸ hrow', ?_, hfor.signerId ▸ hsigner', ?_⟩
      · rw [hsent]
        rfl
      · rw [hmove.toSignerMove.signatureCaseId, hcase, hfor.signatureCaseId]
  · obtain ⟨signer, hsigner, hchange, c, hc, hbefore⟩ :=
      signer_before_open hstanding hstep hsigner' hc' hopen
    rw [hintents]
    rcases hbefore with hwas | ⟨nonce', hsend⟩
    · obtain ⟨si, hsi, hid⟩ := h.covers signer hsigner c hc hwas
      exact ⟨si, List.mem_append_left _ hsi, hid.trans hchange.id.symm⟩
    · obtain ⟨hcase, -⟩ := Step.send.inj hsend
      obtain ⟨si, hsi, hfor⟩ :=
        exists_right_of_forall₂ hprepares.prepared (mem_signersInOrder.mpr ⟨hsigner, hcase.symm⟩)
      exact ⟨si, List.mem_append_right _ hsi, hfor.signerId.trans hchange.id.symm⟩

theorem prepared_of_step (h : Prepared s) (hstanding : Standing s)
    (hstep : Sys.step s i = some s') : Prepared s' := by
  by_cases hsend : ∃ c nonce, i = .send c nonce
  · obtain ⟨c, nonce, rfl⟩ := hsend
    exact h.of_send hstanding hstep
  · -- the intents are those before, with other statuses
    have hmoved := intents_moved hstep fun c nonce heq => hsend ⟨c, nonce, heq⟩
    refine ⟨?_, ?_, fun si' hsi' => ?_, fun signer' hsigner' c' hc' hopen => ?_⟩
    · rw [hmoved.map_eq fun _ _ hchange => hchange.toIntentMove.id]
      exact h.keyed
    · rw [hmoved.map_eq fun _ _ hchange => hchange.toIntentMove.signerId]
      exact h.single
    · obtain ⟨si, hsi, hchange⟩ := hmoved.exists_before hsi'
      exact SentFor.of_step (h.sent si hsi) hstep hchange.payload
    · obtain ⟨signer, hsigner, hchange, c, hc, hbefore⟩ :=
        signer_before_open hstanding hstep hsigner' hc' hopen
      rcases hbefore with hwas | ⟨nonce, heq⟩
      · obtain ⟨si, hsi, hid⟩ := h.covers signer hsigner c hc hwas
        obtain ⟨si', hsi', hmove⟩ := hmoved.exists_after hsi
        exact ⟨si', hsi', (hmove.toIntentMove.signerId.trans hid).trans hchange.id.symm⟩
      · exact absurd ⟨_, nonce, heq⟩ hsend

end Steps

theorem prepared_start (tenantId : Text) (organizationName : Option Text) (rollout : Bool)
    (clock : Time) : Prepared (Sys.start tenantId organizationName rollout clock) where
  keyed := List.nodup_nil
  single := List.nodup_nil
  sent _ h := absurd h List.not_mem_nil
  covers _ h := absurd h List.not_mem_nil

theorem prepared_of_reachable {s : Sys} (h : s.Reachable) : Prepared s := by
  refine h.induction prepared_start ?_
  intro s _ _ hreachable hprepared hstep
  exact prepared_of_step hprepared (standing_of_reachable hreachable) hstep

/-!
# What the runs of the signing jobs are of

Between its reads and its transaction a run of `handlePadesCreate` or `handlePadesValidate` knows
its intent, its signer and its case. They stay what they were when it read them.
-/

/-- The intent that the row was loaded from; its evidence is verified. -/
def Db.CreateOf (db : Db) (intent : IntentRow) : Prop :=
  ∃ si, db.intent? intent.signingIntentId = some si ∧ si.signerId = intent.signerId ∧
    si.signatureCaseId = intent.signatureCaseId ∧ si.status.isVerified = true

/-- The payload names a signature that this signer has made for an intent of this case. -/
def Db.SignatureOf (db : Db) (payload : PadesValidatePayload) (signerId signatureCaseId : Id) :
    Prop :=
  ∃ artifact attempt si, db.artifact? payload.signatureArtifactId = some artifact ∧
    artifact.signatureAttemptId = payload.signatureAttemptId ∧
    db.attempt? payload.signatureAttemptId = some attempt ∧ attempt.signerId = signerId ∧
    db.intent? payload.signingIntentId = some si ∧ si.signerId = signerId ∧
    si.signatureCaseId = signatureCaseId ∧ si.status.isVerified = true

structure Attributed (s : Sys) : Prop where
  creates : ∀ run ∈ s.creates, s.db.CreateOf run.intent
  jobs : ∀ payload, .padesValidate payload ∈ s.db.jobs →
    ∃ signerId signatureCaseId, s.db.SignatureOf payload signerId signatureCaseId
  validates : ∀ run ∈ s.validates, s.db.SignatureOf run.payload run.signerId run.signatureCaseId

/-! ## Rows after a step -/

section Steps

variable {s s' : Sys} {i : Step}

theorem attempt?_of_step (hstep : Sys.step s i = some s') {id : Id} {a : SignatureAttempt}
    (ha : s.db.attempt? id = some a) :
    ∃ a', s'.db.attempt? id = some a' ∧ AttemptChange (stepEffect s i) a a' := by
  rcases intake_or_leaves hstep with ⟨intake, rfl, -, rfl⟩ | hleaves
  · exact ⟨a, ha, AttemptChange.refl _ a⟩
  · exact hleaves.attempts.find?_eq_some (fun row : SignatureAttempt => row.id)
      (fun _ _ hchange => hchange.id) ha

theorem artifact?_of_step (hstep : Sys.step s i = some s') {id : Id} {artifact : SignatureArtifact}
    (h : s.db.artifact? id = some artifact) : s'.db.artifact? id = some artifact := by
  rcases intake_or_leaves hstep with ⟨intake, rfl, -, rfl⟩ | hleaves
  · exact h
  · obtain ⟨_, hfound, rfl⟩ := hleaves.artifacts.find?_eq_some
      (fun row : SignatureArtifact => row.id) (fun _ _ heq => congrArg _ heq.symm) h
    exact hfound

theorem CreateOf.of_step {intent : IntentRow} (h : s.db.CreateOf intent)
    (hstep : Sys.step s i = some s') : s'.db.CreateOf intent := by
  obtain ⟨si, hsi, hsigner, hcase, hverified⟩ := h
  obtain ⟨si', hsi', hchange⟩ := intent?_of_step hstep hsi
  exact ⟨si', hsi', hchange.toIntentMove.signerId.trans hsigner,
    hchange.toIntentMove.signatureCaseId.trans hcase,
    IntentStatus.isVerified_of_reaches hchange.status hverified⟩

theorem SignatureOf.of_step {payload : PadesValidatePayload} {signerId signatureCaseId : Id}
    (h : s.db.SignatureOf payload signerId signatureCaseId) (hstep : Sys.step s i = some s') :
    s'.db.SignatureOf payload signerId signatureCaseId := by
  obtain ⟨artifact, a, si, hartifact, howner, ha, hsigner, hsi, hof, hcase, hverified⟩ := h
  obtain ⟨a', ha', hmove⟩ := attempt?_of_step hstep ha
  obtain ⟨si', hsi', hchange⟩ := intent?_of_step hstep hsi
  exact ⟨artifact, a', si', artifact?_of_step hstep hartifact, howner, ha',
    hmove.toAttemptMove.signerId.trans hsigner, hsi', hchange.toIntentMove.signerId.trans hof,
    hchange.toIntentMove.signatureCaseId.trans hcase,
    IntentStatus.isVerified_of_reaches hchange.status hverified⟩

/-! ## Where runs and jobs come from -/

theorem createOf_of_start {db : Db} {signingIntentId : Id} {run : PadesCreateRun}
    (h : startPadesCreate db signingIntentId = .ok (some run)) : db.CreateOf run.intent := by
  obtain ⟨hload, hverified, -⟩ := startPadesCreate_eq h
  obtain ⟨si, c, signer, it, hsi, -, hsigner, -, hrow⟩ := loadIntent_eq_ok hload
  rw [hrow] at hverified ⊢
  obtain rfl : si.id = signingIntentId := (exists_of_find?_key hsi).2
  refine ⟨si, hsi, (exists_of_find?_key hsigner).2.symm, rfl, ?_⟩
  rw [show si.status = .verified from hverified]
  rfl

theorem signatureOf_of_commit {db : Db} {intent : IntentRow} {document : IntentDocumentRow}
    {artifact : SignatureArtifact} {db' : Db} {u : Unit} (hcreate : db.CreateOf intent)
    (h : commitSignature intent artifact document db = .ok (u, db')) :
    db'.SignatureOf {
      signingIntentId := intent.signingIntentId
      signatureArtifactId := artifact.id
      signatureAttemptId := artifact.signatureAttemptId
      documentVersionId := document.documentVersionId
      signedObjectKey := artifact.signedDocumentObjectKey } intent.signerId
        intent.signatureCaseId := by
  obtain ⟨-, hnew, hinsert, rfl⟩ := writeSignature_eq (commitSignature_eq h).1
  obtain ⟨si, hsi, hsigner, hcase, hverified⟩ := hcreate
  have hfresh : ∀ a ∈ db.artifacts, a.id ≠ artifact.id := by
    simp only [Tables.artifacts, refuse_append, refuse_violates, List.any_eq_false,
      beq_iff_eq] at hinsert
    exact hinsert.1.1
  have hartifact : (withSignature db intent document artifact).artifact? artifact.id =
      some artifact :=
    find?_append_new (fun a : SignatureArtifact => a.id) hfresh rfl
  have hattempt : (withSignature db intent document artifact).attempt? artifact.signatureAttemptId =
      some { attemptRow db intent document artifact.signatureAttemptId with status := .signed } :=
    find?_append_new (fun a : SignatureAttempt => a.id) hnew rfl
  exact ⟨artifact, _, si, hartifact, rfl, hattempt, rfl, hsi, hsigner, hcase, hverified⟩

theorem jobs_of_step (hcreates : ∀ run ∈ s.creates, s.db.CreateOf run.intent)
    (hstep : Sys.step s i = some s') {payload : PadesValidatePayload}
    (hjob : .padesValidate payload ∈ s'.db.jobs) : .padesValidate payload ∈ s.db.jobs ∨
      ∃ signerId signatureCaseId, s'.db.SignatureOf payload signerId signatureCaseId := by
  rcases intake_or_leaves hstep with ⟨intake, rfl, -, rfl⟩ | hleaves
  · exact Or.inl hjob
  rcases hleaves.jobs _ hjob with hold | hqueues
  · exact Or.inl hold
  · obtain ⟨index, attemptId, artifactId, signed, rfl⟩ := validates_of_effect hqueues
    obtain ⟨run, document, input, db, hrun, -, -, -, hok, rfl⟩ := step_commitSignature hstep
    have hsignature := signatureOf_of_commit (hcreates run (List.mem_of_getElem? hrun)) hok
    obtain ⟨-, -, -, rfl⟩ := writeSignature_eq (commitSignature_eq hok).1
    rcases mem_queueJob hjob with hold | hnew
    · exact Or.inl hold
    · cases hnew
      exact Or.inr ⟨_, _, hsignature⟩

theorem signatureOf_of_read {payload : PadesValidatePayload} {report : PadesReport}
    {run : PadesValidateRun} (hjob : ∃ signerId signatureCaseId,
      s.db.SignatureOf payload signerId signatureCaseId)
    (h : readPadesValidate s.db payload report = .ok (some run)) :
    s.db.SignatureOf run.payload run.signerId run.signatureCaseId := by
  obtain ⟨artifact, attempt, si, c, hartifact, hattempt, hsi, -, -, -, hrun⟩ := readPadesValidate_eq h
  obtain ⟨signerId, signatureCaseId, artifact', attempt', si', hartifact', howner, hattempt',
    hsigner, hsi', hof, hcase, hverified⟩ := hjob
  obtain rfl := Option.some.inj (hartifact.symm.trans hartifact')
  rw [howner] at hattempt
  obtain rfl := Option.some.inj (hattempt.symm.trans hattempt')
  obtain rfl := Option.some.inj (hsi.symm.trans hsi')
  rw [hrun]
  exact ⟨artifact, attempt, si, hartifact, howner, hattempt, rfl, hsi, hof.trans hsigner.symm, rfl,
    hverified⟩

theorem attributed_of_step (h : Attributed s) (hstep : Sys.step s i = some s') : Attributed s' where
  creates run' hrun' := by
    rcases (runsAfter_of_step hstep).creates run' hrun' with
      ⟨run, hrun, hcontinues⟩ | ⟨intentId, rfl, hstart⟩
    · rw [hcontinues.intent]
      exact CreateOf.of_step (h.creates run hrun) hstep
    · exact CreateOf.of_step (createOf_of_start hstart) hstep
  jobs payload hjob := by
    rcases jobs_of_step h.creates hstep hjob with hold | hnew
    · obtain ⟨signerId, signatureCaseId, hsignature⟩ := h.jobs payload hold
      exact ⟨signerId, signatureCaseId, SignatureOf.of_step hsignature hstep⟩
    · exact hnew
  validates run hrun := by
    rcases (runsAfter_of_step hstep).validates run hrun with hold | ⟨payload, report, rfl, hjob, hread⟩
    · exact SignatureOf.of_step (h.validates run hold) hstep
    · exact SignatureOf.of_step (signatureOf_of_read (h.jobs payload hjob) hread) hstep

end Steps

theorem attributed_start (tenantId : Text) (organizationName : Option Text) (rollout : Bool)
    (clock : Time) : Attributed (Sys.start tenantId organizationName rollout clock) where
  creates _ h := absurd h List.not_mem_nil
  jobs _ h := absurd h List.not_mem_nil
  validates _ h := absurd h List.not_mem_nil

theorem attributed_of_reachable {s : Sys} (h : s.Reachable) : Attributed s := by
  refine h.induction attributed_start ?_
  intro _ _ _ _ hattributed hstep
  exact attributed_of_step hattributed hstep

end Kommunsign
