import Kommunsign.Worker.PadesValidate
import Kommunsign.Workflow.Signatures

/-!
# No completion is lost between the last signers

The last signatures of a case are validated at the same time, each in a transaction of its own at
read committed. A transaction takes the lock of the audit chain before it looks for outstanding
documents and pending signers, so that one of them is the last to look, and it sees them all.

* `CompletionsKept` — what holds of the committed state however the transactions interleave
* `signed_of_admitted` — a signer whose validations are all admitted is signed, and the last one
  has the package of the case queued
-/

namespace Kommunsign

open Infra ReadCommitted

/-! ## What the transactions leave behind -/

def Db.ValidatedFor (db : Db) (signerId documentVersionId : Id) : Prop :=
  ∃ a ∈ db.attempts, a.signerId = signerId ∧ a.documentVersionId = documentVersionId ∧
    a.status = .validated

def Db.Admitted (db : Db) (run : PadesValidateRun) : Prop :=
  ⟨.audit, .signature_pades_admitted, run.payload.signatureArtifactId⟩ ∈ db.events

def Db.Refused (db : Db) (run : PadesValidateRun) : Prop :=
  ⟨.audit, .signature_pades_not_admitted, run.payload.signatureArtifactId⟩ ∈ db.events ∨
    ⟨.audit, .signature_pades_validation_failed, run.payload.signatureArtifactId⟩ ∈ db.events

instance (db : Db) (run : PadesValidateRun) : Decidable (db.Admitted run) :=
  inferInstanceAs (Decidable (_ ∈ _))

instance (db : Db) (run : PadesValidateRun) : Decidable (db.Refused run) :=
  inferInstanceAs (Decidable (_ ∨ _))

def Db.RefusedFor (db : Db) (runs : List PadesValidateRun) (signerId : Id) : Prop :=
  ∃ run ∈ runs, run.signerId = signerId ∧ db.Refused run

section

variable {db db' : Db} {run : PadesValidateRun} {runs : List PadesValidateRun}

theorem outstanding_eq_false {signingIntentId signerId : Id} :
    db.outstanding signingIntentId signerId = false ↔
      ∀ d ∈ db.signableDocuments signingIntentId, db.ValidatedFor signerId d.documentVersionId := by
  simp only [Db.outstanding, List.any_eq_false, Bool.not_eq_true, Bool.not_eq_false',
    List.any_eq_true, Bool.and_eq_true, beq_iff_eq, and_assoc, Db.ValidatedFor]

theorem Db.RefusedFor.mono {signerId : Id} (h : db.RefusedFor runs signerId)
    (hevents : db.events ⊆ db'.events) : db'.RefusedFor runs signerId := by
  obtain ⟨run, hrun, hsigner, hrefused⟩ := h
  exact ⟨run, hrun, hsigner, hrefused.imp (fun h => hevents h) fun h => hevents h⟩

def Db.withRefusal (db : Db) (run : PadesValidateRun) : Db :=
  { db with
    events := db.events ++ [⟨.audit, run.refusal, run.payload.signatureArtifactId⟩] ++
      [⟨.outbox, run.refusal, run.payload.signatureArtifactId⟩] }

theorem refused_withRefusal : (db.withRefusal run).Refused run := by
  have hevent : (⟨.audit, run.refusal, run.payload.signatureArtifactId⟩ : Event) ∈
      (db.withRefusal run).events := by
    simp [Db.withRefusal]
  unfold PadesValidateRun.refusal at hevent
  split at hevent
  · exact Or.inl hevent
  · exact Or.inr hevent

theorem admitted_withRefusal {other : PadesValidateRun} :
    (db.withRefusal run).Admitted other ↔ db.Admitted other := by
  have hne : run.refusal ≠ .signature_pades_admitted := by
    unfold PadesValidateRun.refusal
    split <;> nofun
  simp [Db.Admitted, Db.withRefusal, Ne.symm hne]

theorem casePackage_mem_queueJob {jobs : List DurableJob} {c : Id} :
    DurableJob.casePackage c ∈ queueJob jobs (.casePackage c) := by
  unfold queueJob
  split
  · next hqueued =>
    obtain ⟨queued, hmem, hsame⟩ := List.any_eq_true.mp hqueued
    have heq : queued = .casePackage c := by
      cases queued with
      | casePackage c' => exact beq_iff_eq.mp hsame
      | _ => simp [DurableJob.sameKey] at hsame
    exact heq ▸ hmem
  · exact List.mem_append_right _ (List.mem_singleton.mpr rfl)

end

/-! ## Rows that stay the same -/

structure AttemptKept (old new : SignatureAttempt) : Prop where
  id : new.id = old.id
  binding : new.toAttemptBinding = old.toAttemptBinding

structure SignerKept (old new : Signer) : Prop where
  id : new.id = old.id
  binding : new.toSignerBinding = old.toSignerBinding

structure SignerAdvanced (old new : Signer) : Prop extends SignerKept old new where
  status : new.status = old.status ∨ old.status = .signing ∧ new.status = .signed ∨
    old.status = .pending ∧ new.status = .invited

theorem AttemptKept.refl (a : SignatureAttempt) : AttemptKept a a := ⟨rfl, rfl⟩

theorem SignerKept.refl (s : Signer) : SignerKept s s := ⟨rfl, rfl⟩

theorem SignerAdvanced.refl (s : Signer) : SignerAdvanced s s := ⟨SignerKept.refl s, Or.inl rfl⟩

theorem AttemptKept.trans (a b c : SignatureAttempt) (h : AttemptKept a b)
    (h' : AttemptKept b c) : AttemptKept a c :=
  ⟨h'.id.trans h.id, h'.binding.trans h.binding⟩

theorem SignerKept.trans (a b c : Signer) (h : SignerKept a b) (h' : SignerKept b c) :
    SignerKept a c :=
  ⟨h'.id.trans h.id, h'.binding.trans h.binding⟩

theorem SignerAdvanced.trans (a b c : Signer) (h : SignerAdvanced a b)
    (h' : SignerAdvanced b c) : SignerAdvanced a c := by
  refine ⟨SignerKept.trans a b c h.toSignerKept h'.toSignerKept, ?_⟩
  obtain hsame | ⟨hsigning, hsigned⟩ | ⟨hpending, hinvited⟩ := h.status
  · rw [← hsame]
    exact h'.status
  · obtain hstays | ⟨hb, -⟩ | ⟨hb, -⟩ := h'.status
    · exact Or.inr (Or.inl ⟨hsigning, hstays.trans hsigned⟩)
    · exact nomatch hb.symm.trans hsigned
    · exact nomatch hb.symm.trans hsigned
  · obtain hstays | ⟨hb, -⟩ | ⟨hb, -⟩ := h'.status
    · exact Or.inr (Or.inr ⟨hpending, hstays.trans hinvited⟩)
    · exact nomatch hb.symm.trans hinvited
    · exact nomatch hb.symm.trans hinvited

theorem SignerAdvanced.signing_before {old new : Signer} (h : SignerAdvanced old new)
    (hnew : new.status = .signing) : old.status = .signing := by
  obtain hsame | ⟨hsigning, -⟩ | ⟨-, hinvited⟩ := h.status
  · exact hsame.symm.trans hnew
  · exact hsigning
  · exact nomatch hnew.symm.trans hinvited

theorem SignerAdvanced.standing_after {old new : Signer} (h : SignerAdvanced old new)
    (hold : old.status = .signing ∨ old.status = .signed) :
    new.status = .signing ∨ new.status = .signed := by
  obtain hsame | ⟨-, hsigned⟩ | ⟨hpending, -⟩ := h.status
  · rw [hsame]
    exact hold
  · exact Or.inr hsigned
  · rcases hold with hold | hold <;> exact nomatch hold.symm.trans hpending

/-! ## What every interleaving keeps -/

/-- What the validations are about: each of one attempt of its signer, for the signer's intent. -/
structure Assigned (db : Db) (c : Id) (runs : List PadesValidateRun) : Prop where
  case : ∀ run ∈ runs, run.signatureCaseId = c
  intent : ∀ run ∈ runs, ∀ other ∈ runs, other.signerId = run.signerId →
    other.payload.signingIntentId = run.payload.signingIntentId
  artifact : ∀ run ∈ runs, ∀ other ∈ runs,
    other.payload.signatureArtifactId = run.payload.signatureArtifactId →
      other.payload.signatureAttemptId = run.payload.signatureAttemptId
  attempt : ∀ run ∈ runs, ∃ a ∈ db.attempts, a.id = run.payload.signatureAttemptId
  signer : ∀ run ∈ runs, ∀ a ∈ db.attempts, a.id = run.payload.signatureAttemptId →
    a.signerId = run.signerId

/-- The rows since `db₀`, and what the events of the validations say of them. -/
structure RunsRecorded (db₀ : Db) (runs : List PadesValidateRun) (db : Db) : Prop where
  documents : db.intentDocuments = db₀.intentDocuments
  attempts : Moved AttemptKept db₀.attempts db.attempts
  signers : Moved SignerKept db₀.signers db.signers
  earlier : ∀ run ∈ runs, ∀ v, db₀.ValidatedFor run.signerId v →
    db.RefusedFor runs run.signerId ∨ db.ValidatedFor run.signerId v
  validated : ∀ run ∈ runs, db.Admitted run → db.RefusedFor runs run.signerId ∨
    ∃ a ∈ db.attempts, a.id = run.payload.signatureAttemptId ∧ a.status = .validated
  standing : ∀ run ∈ runs, ∀ s ∈ db.signers, s.id = run.signerId →
    db.RefusedFor runs run.signerId ∨ s.status = .signing ∨ s.status = .signed

/-- Who has no document outstanding is done, and after the last of them the package is queued. -/
structure CompletionsKept (db₀ : Db) (c : Id) (runs : List PadesValidateRun) (db : Db) : Prop
    extends RunsRecorded db₀ runs db where
  finished : ∀ run ∈ runs, db.Admitted run →
    db.outstanding run.payload.signingIntentId run.signerId = false →
      ∀ s ∈ db.signers, s.id = run.signerId → s.status ≠ .signing
  packaged : (∃ run ∈ runs, ∃ s ∈ db.signers, s.id = run.signerId ∧ s.status = .signed) →
    (∀ s ∈ db.requiredSigners c, s.status = .signed) → .casePackage c ∈ db.jobs

section Transactions

variable {db₀ db db' : Db} {c : Id} {runs : List PadesValidateRun} {run : PadesValidateRun}

theorem RunsRecorded.signer_eq (h : RunsRecorded db₀ runs db) (hassigned : Assigned db₀ c runs)
    (hrun : run ∈ runs) {a : SignatureAttempt} (ha : a ∈ db.attempts)
    (hid : a.id = run.payload.signatureAttemptId) : a.signerId = run.signerId := by
  obtain ⟨a₀, ha₀, hkept⟩ := h.attempts.exists_before ha
  have hsigner : a.signerId = a₀.signerId := congrArg (·.signerId) hkept.binding
  exact hsigner.trans (hassigned.signer run hrun a₀ ha₀ (hkept.id.symm.trans hid))

/-! ### A refusal -/

/-- The statements of a refusal before its events, on the rows that they have found. -/
def Db.withFailed (db : Db) (run : PadesValidateRun) (p : SignatureAttempt → Bool)
    (q : Signer → Bool) : Db :=
  { db.withValidationRun run with
    attempts := assign p (fun a => { a with status := .failed }) db.attempts
    signers := assign q (fun s => { s with status := .failed }) db.signers }

theorem validatedFor_of_withFailed {p : SignatureAttempt → Bool} {q : Signer → Bool}
    {signerId v : Id} (h : (db.withFailed run p q).ValidatedFor signerId v) :
    db.ValidatedFor signerId v := by
  obtain ⟨a, ha, hsigner, hversion, hstatus⟩ := h
  obtain ⟨old, hold, rfl⟩ := mem_assign.mp ha
  split at hstatus
  · exact nomatch hstatus
  · next hp =>
    rw [if_neg hp] at hsigner hversion
    exact ⟨old, hold, hsigner, hversion, hstatus⟩

theorem validatedFor_withFailed {p : SignatureAttempt → Bool} {q : Signer → Bool}
    {signerId v : Id} (hp : ∀ a ∈ db.attempts, p a = true → a.signerId ≠ signerId)
    (h : db.ValidatedFor signerId v) : (db.withFailed run p q).ValidatedFor signerId v := by
  obtain ⟨a, ha, hsigner, hversion, hstatus⟩ := h
  refine ⟨a, mem_assign.mpr ⟨a, ha, ?_⟩, hsigner, hversion, hstatus⟩
  rw [if_neg fun hpa => hp a ha hpa hsigner]

theorem kept_of_refusal (hassigned : Assigned db₀ c runs) (h : CompletionsKept db₀ c runs db)
    (hrun : run ∈ runs) {p : SignatureAttempt → Bool} {q : Signer → Bool}
    (hp : ∀ a, p a = true → a.id = run.payload.signatureAttemptId)
    (hq : ∀ s, q s = true → s.id = run.signerId ∧ s.status = .signing) :
    CompletionsKept db₀ c runs ((db.withFailed run p q).withRefusal run) := by
  have hrefused : ∀ {signerId}, run.signerId = signerId →
      ((db.withFailed run p q).withRefusal run).RefusedFor runs signerId :=
    fun hsigner => ⟨run, hrun, hsigner, refused_withRefusal⟩
  have hmono : ∀ {signerId}, db.RefusedFor runs signerId →
      ((db.withFailed run p q).withRefusal run).RefusedFor runs signerId :=
    fun h => h.mono fun event hevent => List.mem_append_left _ (List.mem_append_left _ hevent)
  have hfails : ∀ a ∈ db.attempts, p a = true → a.signerId = run.signerId :=
    fun a ha hpa => h.signer_eq hassigned hrun ha (hp a hpa)
  have hmoved : Moved SignerKept db.signers (db.withFailed run p q).signers :=
    Moved.assign SignerKept.refl fun _ _ _ => ⟨rfl, rfl⟩
  refine ⟨⟨h.documents, ?_, ?_, fun other hother v hv => ?_, fun other hother hadmitted => ?_,
    fun other hother s hs hid => ?_⟩, fun other hother hadmitted hdone s hs hid => ?_,
    fun hsome hall => ?_⟩
  · exact h.attempts.trans AttemptKept.trans (Moved.assign AttemptKept.refl fun _ _ _ => ⟨rfl, rfl⟩)
  · exact h.signers.trans SignerKept.trans hmoved
  · by_cases hsigner : run.signerId = other.signerId
    · exact Or.inl (hrefused hsigner)
    · refine (h.earlier other hother v hv).imp hmono fun hvalidated => ?_
      have hothers : ∀ a ∈ db.attempts, p a = true → a.signerId ≠ other.signerId :=
        fun a ha hpa heq => hsigner ((hfails a ha hpa).symm.trans heq)
      have hafter : (db.withFailed run p q).ValidatedFor other.signerId v :=
        validatedFor_withFailed hothers hvalidated
      exact hafter
  · by_cases hsigner : run.signerId = other.signerId
    · exact Or.inl (hrefused hsigner)
    · refine (h.validated other hother (admitted_withRefusal.mp hadmitted)).imp hmono ?_
      rintro ⟨a, ha, hid, hstatus⟩
      refine ⟨a, mem_assign.mpr ⟨a, ha, ?_⟩, hid, hstatus⟩
      rw [if_neg fun hpa => hsigner ?_]
      exact (hfails a ha hpa).symm.trans (h.signer_eq hassigned hother ha hid)
  · obtain ⟨old, hold, rfl⟩ := mem_assign.mp hs
    by_cases hqs : q old = true
    · rw [if_pos hqs] at hid
      exact Or.inl (hrefused ((hq old hqs).1.symm.trans hid))
    · rw [if_neg hqs] at hid ⊢
      exact (h.standing other hother old hold hid).imp_left hmono
  · -- what is not outstanding now was not before, and nobody starts to sign
    obtain ⟨old, hold, rfl⟩ := mem_assign.mp hs
    have hbefore : db.outstanding other.payload.signingIntentId other.signerId = false := by
      refine outstanding_eq_false.mpr fun d hd => ?_
      have hafter : (db.withFailed run p q).ValidatedFor other.signerId d.documentVersionId :=
        outstanding_eq_false.mp hdone d hd
      exact validatedFor_of_withFailed hafter
    by_cases hqs : q old = true
    · rw [if_pos hqs]
      nofun
    · rw [if_neg hqs] at hid ⊢
      exact h.finished other hother (admitted_withRefusal.mp hadmitted) hbefore old hold hid
  · -- who is signed after a refusal was signed before it
    obtain ⟨other, hother, s, hs, hid, hstatus⟩ := hsome
    have hsigned : ∀ s ∈ db.signers, (if q s then { s with status := .failed } else s).status =
        .signed → s.status = .signed ∧ q s = false := by
      intro s _ hstatus
      cases hqs : q s with
      | true => simp [hqs] at hstatus
      | false => exact ⟨by simpa [hqs] using hstatus, rfl⟩
    refine h.packaged ?_ fun s hs => ?_
    · obtain ⟨old, hold, rfl⟩ := mem_assign.mp hs
      obtain ⟨hold', hqs⟩ := hsigned old hold hstatus
      rw [hqs, if_neg Bool.false_ne_true] at hid
      exact ⟨other, hother, old, hold, hid, hold'⟩
    · obtain ⟨hmem, hrequired⟩ := List.mem_filter.mp hs
      refine (hsigned s hmem (hall _ (List.mem_filter.mpr ⟨mem_assign.mpr ⟨s, hmem, rfl⟩, ?_⟩))).1
      split <;> exact hrequired

/-! ### An admission -/

theorem admitted_withValidation {other : PadesValidateRun} :
    (db.withValidation run).Admitted other ↔ db.Admitted other ∨
      other.payload.signatureArtifactId = run.payload.signatureArtifactId := by
  simp [Db.Admitted, Db.withValidation]

theorem refusedFor_withValidation {signerId : Id} (h : db.RefusedFor runs signerId) :
    (db.withValidation run).RefusedFor runs signerId :=
  h.mono fun _ hevent => List.mem_append_left _ hevent

theorem validatedFor_withValidation {signerId v : Id} (h : db.ValidatedFor signerId v) :
    (db.withValidation run).ValidatedFor signerId v := by
  obtain ⟨a, ha, hsigner, hversion, hstatus⟩ := h
  refine ⟨_, mem_assign.mpr ⟨a, ha, rfl⟩, ?_⟩
  split
  · exact ⟨hsigner, hversion, rfl⟩
  · exact ⟨hsigner, hversion, hstatus⟩

theorem RunsRecorded.validatedFor_before (h : RunsRecorded db₀ runs db)
    (hassigned : Assigned db₀ c runs) (hrun : run ∈ runs) {signerId v : Id} (hother : signerId ≠ run.signerId)
    (hv : (db.withValidation run).ValidatedFor signerId v) : db.ValidatedFor signerId v := by
  obtain ⟨a, ha, hsigner, hversion, hstatus⟩ := hv
  obtain ⟨old, hold, rfl⟩ := mem_assign.mp ha
  split at hsigner
  · next hp =>
    have howner : old.signerId = run.signerId :=
      h.signer_eq hassigned hrun hold (beq_iff_eq.mp hp)
    exact absurd (hsigner.symm.trans howner) hother
  · next hp =>
    rw [if_neg hp] at hversion hstatus
    exact ⟨old, hold, hsigner, hversion, hstatus⟩

theorem Assigned.signer_eq_of_artifact (hassigned : Assigned db₀ c runs) (hrun : run ∈ runs)
    {other : PadesValidateRun} (hother : other ∈ runs)
    (h : other.payload.signatureArtifactId = run.payload.signatureArtifactId) :
    other.signerId = run.signerId := by
  obtain ⟨a, ha, hid⟩ := hassigned.attempt other hother
  have hattempt := hassigned.artifact run hrun other hother h
  exact (hassigned.signer other hother a ha hid).symm.trans
    (hassigned.signer run hrun a ha (hid.trans hattempt))

theorem recorded_withValidation (hassigned : Assigned db₀ c runs) (h : RunsRecorded db₀ runs db)
    (hrun : run ∈ runs) : RunsRecorded db₀ runs (db.withValidation run) := by
  refine ⟨h.documents, ?_, h.signers, fun other hother v hv => ?_,
    fun other hother hadmitted => ?_, fun other hother s hs hid => ?_⟩
  · exact h.attempts.trans AttemptKept.trans (Moved.assign AttemptKept.refl fun _ _ _ => ⟨rfl, rfl⟩)
  · exact (h.earlier other hother v hv).imp refusedFor_withValidation validatedFor_withValidation
  · rcases admitted_withValidation.mp hadmitted with hbefore | hsame
    · refine (h.validated other hother hbefore).imp refusedFor_withValidation ?_
      rintro ⟨a, ha, hid, hstatus⟩
      refine ⟨_, mem_assign.mpr ⟨a, ha, rfl⟩, ?_⟩
      split
      · exact ⟨hid, rfl⟩
      · exact ⟨hid, hstatus⟩
    · -- the attempt of the run itself
      obtain ⟨a₀, ha₀, hid⟩ := hassigned.attempt other hother
      obtain ⟨a, ha, hkept⟩ := h.attempts.exists_after ha₀
      have hattempt : a.id = run.payload.signatureAttemptId :=
        (hkept.id.trans hid).trans (hassigned.artifact run hrun other hother hsame)
      refine Or.inr ⟨{ a with status := .validated }, mem_assign.mpr ⟨a, ha, ?_⟩,
        hkept.id.trans hid, rfl⟩
      rw [if_pos (beq_iff_eq.mpr hattempt)]
  · exact (h.standing other hother s hs hid).imp_left refusedFor_withValidation

theorem CompletionsKept.not_signing (hassigned : Assigned db₀ c runs)
    (h : CompletionsKept db₀ c runs db) (hrun : run ∈ runs) {other : PadesValidateRun} (hother : other ∈ runs)
    (hne : other.signerId ≠ run.signerId) (hadmitted : (db.withValidation run).Admitted other)
    (hdone : (db.withValidation run).outstanding other.payload.signingIntentId other.signerId =
      false) : ∀ s ∈ db.signers, s.id = other.signerId → s.status ≠ .signing := by
  have hbefore : db.Admitted other := (admitted_withValidation.mp hadmitted).resolve_right
    fun hsame => hne (hassigned.signer_eq_of_artifact hrun hother hsame)
  refine h.finished other hother hbefore (outstanding_eq_false.mpr fun d hd => ?_)
  exact h.validatedFor_before hassigned hrun hne (outstanding_eq_false.mp hdone d hd)

theorem kept_of_admission (hassigned : Assigned db₀ c runs) (h : CompletionsKept db₀ c runs db)
    (hrun : run ∈ runs) (hout :
      (db.withValidation run).outstanding run.payload.signingIntentId run.signerId = true) :
    CompletionsKept db₀ c runs (db.withValidation run) := by
  refine ⟨recorded_withValidation hassigned h.toRunsRecorded hrun,
    fun other hother hadmitted hdone => ?_, h.packaged⟩
  by_cases hsigner : other.signerId = run.signerId
  · rw [hsigner, hassigned.intent run hrun other hother hsigner] at hdone
    exact nomatch hout.symm.trans hdone
  · exact h.not_signing hassigned hrun hother hsigner hadmitted hdone

/-! ### A completion -/

/-- What the statements after the check leave: the signer is signed, and others are invited. -/
structure CompletesSigner (c signerId : Id) (db db' : Db) : Prop where
  documents : db'.intentDocuments = db.intentDocuments
  attempts : db'.attempts = db.attempts
  signers : Moved SignerAdvanced db.signers db'.signers
  signed : ∀ s' ∈ db'.signers, s'.id = signerId → s'.status ≠ .signing
  events : db.events ⊆ db'.events
  admitted : ∀ run : PadesValidateRun, db'.Admitted run → db.Admitted run
  packaged : (∀ s ∈ db'.requiredSigners c, s.status = .signed) → .casePackage c ∈ db'.jobs

structure Invites (db db' : Db) : Prop where
  documents : db'.intentDocuments = db.intentDocuments
  attempts : db'.attempts = db.attempts
  signers : Moved SignerAdvanced db.signers db'.signers
  events : db.events ⊆ db'.events
  invitations : ∀ event ∈ db'.events, event ∈ db.events ∨ event.eventType = .invitation_created

theorem Invites.refl (db : Db) : Invites db db :=
  ⟨rfl, rfl, Moved.refl SignerAdvanced.refl _, List.Subset.refl _, fun _ h => Or.inl h⟩

theorem Invites.trans (a b c : Db) (h : Invites a b) (h' : Invites b c) : Invites a c where
  documents := h'.documents.trans h.documents
  attempts := h'.attempts.trans h.attempts
  signers := h.signers.trans SignerAdvanced.trans h'.signers
  events := List.Subset.trans h.events h'.events
  invitations event hevent := by
    rcases h'.invitations event hevent with hbefore | hnew
    · exact h.invitations event hbefore
    · exact Or.inr hnew

theorem invites_inviteSigner {now : Time} (signer : Id × Time) (db : Db) :
    Transaction.Within Invites (inviteSigner now signer) db := by
  intro u db' h
  rw [inviteSigner, Transaction.read_bind] at h
  simp only [Transaction.bind_eq_ok] at h
  obtain ⟨_, db₁, h₁, _, db₂, h₂, h₃⟩ := h
  obtain ⟨-, rfl⟩ := Table.insert_eq_ok.mp h₁
  obtain ⟨-, rfl, -⟩ := Table.update_eq_ok.mp h₂
  obtain rfl := Transaction.rewrite_eq_ok.mp h₃
  refine ⟨rfl, rfl, Moved.assign SignerAdvanced.refl fun s _ hp => ?_,
    List.subset_append_left _ _, fun event hevent => ?_⟩
  · rw [Bool.and_eq_true, beq_iff_eq, beq_iff_eq] at hp
    exact ⟨⟨rfl, rfl⟩, Or.inr (Or.inr ⟨hp.2, rfl⟩)⟩
  · rcases List.mem_append.mp hevent with hbefore | hnew
    · exact Or.inl hbefore
    · rw [List.mem_singleton.mp hnew]
      exact Or.inr rfl

theorem invites_activateNextSigningGroup {now : Time} {u : Unit}
    (h : activateNextSigningGroup now c db = .ok (u, db')) : Invites db db' := by
  rcases activateNextSigningGroup_eq h with ⟨-, rfl⟩ | ⟨group, -, hinvite⟩
  · exact Invites.refl _
  · exact Transaction.Within.forEach Invites.refl Invites.trans (fun _ _ => True)
      (fun signer _ db _ => ⟨invites_inviteSigner signer db, fun _ _ _ => trivial⟩) trivial _ _
      hinvite

theorem completes_of_completeSigner {now : Time} {u : Unit}
    (hcase : run.signatureCaseId = c) (h : completeSigner now run db = .ok (u, db')) :
    CompletesSigner c run.signerId db db' := by
  obtain ⟨-, db₁, hactivate, rfl⟩ := completeSigner_eq h
  have hinvites := invites_activateNextSigningGroup hactivate
  have hsigns : Moved SignerAdvanced db.signers (db.withSigned now run).signers := by
    refine Moved.assign SignerAdvanced.refl fun s _ hp => ?_
    rw [Bool.and_eq_true, beq_iff_eq, beq_iff_eq] at hp
    exact ⟨⟨rfl, rfl⟩, Or.inr (Or.inl ⟨hp.2, rfl⟩)⟩
  -- the last statement queues a job at most
  have hjobs : (db₁.withCaseJob run.signatureCaseId).intentDocuments = db₁.intentDocuments ∧
      (db₁.withCaseJob run.signatureCaseId).attempts = db₁.attempts ∧
      (db₁.withCaseJob run.signatureCaseId).signers = db₁.signers ∧
      (db₁.withCaseJob run.signatureCaseId).events = db₁.events := by
    unfold Db.withCaseJob
    split <;> exact ⟨rfl, rfl, rfl, rfl⟩
  obtain ⟨hdocuments, hattempts, hsigners, hevents⟩ := hjobs
  refine ⟨hdocuments.trans hinvites.documents, hattempts.trans hinvites.attempts,
    ?_, ?_, ?_, ?_, ?_⟩
  · rw [hsigners]
    exact hsigns.trans SignerAdvanced.trans hinvites.signers
  · intro s' hs' hid hsigning
    rw [hsigners] at hs'
    obtain ⟨s, hs, hadvanced⟩ := hinvites.signers.exists_before hs'
    have hstill : s.status = .signing := hadvanced.signing_before hsigning
    obtain ⟨old, hold, rfl⟩ := mem_assign.mp hs
    split at hstill
    · exact nomatch hstill
    · next hp =>
      rw [if_neg hp] at hadvanced
      refine hp ?_
      rw [Bool.and_eq_true, beq_iff_eq, beq_iff_eq]
      exact ⟨hadvanced.id.symm.trans hid, hstill⟩
  · rw [hevents]
    exact fun event hevent => hinvites.events
      (List.mem_append_left _ (List.mem_append_left _ hevent))
  · intro other hadmitted
    rw [Db.Admitted, hevents] at hadmitted
    rcases hinvites.invitations _ hadmitted with hbefore | hnew
    · simpa [Db.withSigned, Db.Admitted] using hbefore
    · exact nomatch hnew
  · intro hall
    have hdone : ¬((db₁.requiredSigners run.signatureCaseId).any fun s => s.status != .signed) =
        true := by
      rw [List.any_eq_true]
      rintro ⟨s, hs, hpending⟩
      rw [Db.requiredSigners, hsigners, ← hcase] at hall
      exact bne_iff_ne.mp hpending (hall s hs)
    rw [Db.withCaseJob, if_neg hdone, hcase]
    exact casePackage_mem_queueJob

theorem kept_of_completion (hassigned : Assigned db₀ c runs) (h : CompletionsKept db₀ c runs db)
    (hrun : run ∈ runs) (hcompletes : CompletesSigner c run.signerId (db.withValidation run) db') :
    CompletionsKept db₀ c runs db' := by
  have hrecorded := recorded_withValidation hassigned h.toRunsRecorded hrun
  have hkept : Moved SignerKept (db.withValidation run).signers db'.signers :=
    hcompletes.signers.imp fun _ _ hadvanced => hadvanced.toSignerKept
  have hvalidated : ∀ {signerId v}, (db.withValidation run).ValidatedFor signerId v ↔
      db'.ValidatedFor signerId v := by
    intro signerId v
    rw [Db.ValidatedFor, Db.ValidatedFor, hcompletes.attempts]
  refine ⟨⟨hcompletes.documents.trans hrecorded.documents, ?_, ?_, fun other hother v hv => ?_,
    fun other hother hadmitted => ?_, fun other hother s hs hid => ?_⟩,
    fun other hother hadmitted hdone s hs hid => ?_, fun _ => hcompletes.packaged⟩
  · rw [hcompletes.attempts]
    exact hrecorded.attempts
  · exact hrecorded.signers.trans SignerKept.trans hkept
  · exact (hrecorded.earlier other hother v hv).imp (fun h => h.mono hcompletes.events)
      hvalidated.mp
  · rw [hcompletes.attempts]
    exact (hrecorded.validated other hother (hcompletes.admitted other hadmitted)).imp_left
      fun h => h.mono hcompletes.events
  · obtain ⟨old, hold, hadvanced⟩ := hcompletes.signers.exists_before hs
    exact (hrecorded.standing other hother old hold (hadvanced.id.symm.trans hid)).imp
      (fun h => h.mono hcompletes.events) hadvanced.standing_after
  · by_cases hsigner : other.signerId = run.signerId
    · exact hcompletes.signed s hs (hid.trans hsigner)
    · -- another signer, whose documents were done before
      obtain ⟨old, hold, hadvanced⟩ := hcompletes.signers.exists_before hs
      have hbefore : (db.withValidation run).outstanding other.payload.signingIntentId
          other.signerId = false := by
        refine outstanding_eq_false.mpr fun d hd => hvalidated.mpr ?_
        refine outstanding_eq_false.mp hdone d ?_
        rw [Db.signableDocuments, hcompletes.documents]
        exact hd
      exact fun hsigning => h.not_signing hassigned hrun hother hsigner
        (hcompletes.admitted other hadmitted) hbefore old hold (hadvanced.id.symm.trans hid)
        (hadvanced.signing_before hsigning)

/-! ### The program -/

theorem kept_of_recordAdmission {now : Time} {db₁ : Db} {u : Unit}
    (hassigned : Assigned db₀ c runs) (h : CompletionsKept db₀ c runs db) (hrun : run ∈ runs)
    (hdb₁ : { db₁ with
        events := db₁.events ++
          [⟨.audit, .signature_pades_admitted, run.payload.signatureArtifactId⟩] } =
      db.withValidation run)
    (hok : recordAdmission now run db₁ = .ok (u, db')) : CompletionsKept db₀ c runs db' := by
  obtain ⟨_, db₂, h₁, h₂⟩ := Transaction.bind_eq_ok.mp hok
  obtain rfl := Transaction.rewrite_eq_ok.mp h₁
  rw [hdb₁, Transaction.read_bind, Transaction.ite_apply] at h₂
  split at h₂
  · next hout =>
    obtain ⟨-, rfl⟩ := Transaction.pure_eq_ok.mp h₂
    exact kept_of_admission hassigned h hrun hout
  · exact kept_of_completion hassigned h hrun
      (completes_of_completeSigner (hassigned.case run hrun) h₂)

theorem preparing_refuseSignature (hassigned : Assigned db₀ c runs) (hrun : run ∈ runs) :
    Preparing id .auditChainHead (CompletionsKept db₀ c runs)
      ((refuseSignatureScript run run.refusal) fun _ => .commit)
      fun db => db.withValidationRun run := by
  rw [refuseSignatureScript_apply, setAttemptStatusScript]
  refine preparing_update (fun _ => nofun) fun _ _ locks _ _ => ?_
  rw [moveSignerScript]
  refine preparing_update (fun _ => nofun) fun _ _ locks' _ _ => ?_
  refine preparing_take fun value hvalue s hs => ?_
  cases hs
  refine kept_of_refusal hassigned hvalue hrun (fun a hp => ?_) fun signer hq => ?_
  · exact beq_iff_eq.mp (Bool.and_eq_true _ _ ▸ hp).1
  · simp only [Bool.and_eq_true, beq_iff_eq] at hq
    exact hq.1

theorem preparing_admitSignature {now : Time} (hassigned : Assigned db₀ c runs)
    (hrun : run ∈ runs) : Preparing id .auditChainHead (CompletionsKept db₀ c runs)
      ((admitSignatureScript now run) fun _ => .commit) fun db => db.withValidationRun run := by
  rw [admitSignatureScript_apply, setAttemptStatusScript]
  refine preparing_update (fun _ => nofun) fun before hbefore locks hlocks _ => ?_
  -- the update has found the attempt, and finds it again when it has its lock
  have hfound : (fun a : SignatureAttempt => a.id == run.payload.signatureAttemptId &&
      locks.contains (.attempt a.id)) = fun a => a.id == run.payload.signatureAttemptId := by
    funext a
    cases hid : a.id == run.payload.signatureAttemptId with
    | false => rfl
    | true =>
      obtain ⟨a₀, ha₀, hid₀⟩ := hassigned.attempt run hrun
      obtain ⟨a', ha', hkept⟩ := hbefore.attempts.exists_after ha₀
      have hid' : a'.id = run.payload.signatureAttemptId := hkept.id.trans hid₀
      rw [Bool.true_and, List.contains_iff_mem, hlocks]
      refine List.mem_map.mpr ⟨a', List.mem_filter.mpr ⟨ha', beq_iff_eq.mpr hid'⟩, ?_⟩
      rw [hid', beq_iff_eq.mp hid]
  rw [hfound]
  refine preparing_take fun value hvalue s hs => ?_
  have hrest : (recordAdmissionScript now run).program.alone _ = some s := hs
  rw [recordAdmissionScript_does.program] at hrest
  obtain ⟨_, hok⟩ := Transaction.outcome_eq_some.mp hrest
  exact kept_of_recordAdmission hassigned hvalue hrun rfl hok

theorem preparing_commitValidation {now : Time} (hassigned : Assigned db₀ c runs)
    (hrun : run ∈ runs) : Preparing id .auditChainHead (CompletionsKept db₀ c runs)
      (commitValidationScript now run).program id := by
  rw [Script.program, commitValidationScript_apply]
  refine preparing_insert ?_
  split
  · exact preparing_admitSignature hassigned hrun
  · exact preparing_refuseSignature hassigned hrun

end Transactions

/-! ## The last signers of a case -/

/-- The validations that signers of a case who are signing wait for, and none has committed. -/
structure LastValidations (db : Db) (c : Id) (runs : List PadesValidateRun) : Prop
    extends Assigned db c runs where
  keyed : (db.attempts.map (·.id)).Nodup
  signing : ∀ run ∈ runs, ∃ signer, db.signer? run.signerId = some signer ∧
    signer.status = .signing
  signersKeyed : (db.signers.map (·.id)).Nodup
  pending : ∀ run ∈ runs, ¬db.Admitted run
  /-- What the signer has to sign is validated already, or one of the runs is to validate it. -/
  documents : ∀ run ∈ runs, ∀ d ∈ db.signableDocuments run.payload.signingIntentId,
    db.ValidatedFor run.signerId d.documentVersionId ∨
      ∃ other ∈ runs, other.signerId = run.signerId ∧ ∃ a ∈ db.attempts,
        a.id = other.payload.signatureAttemptId ∧ a.documentVersionId = d.documentVersionId

section LastValidations

variable {db : Db} {c : Id} {runs : List PadesValidateRun}

theorem LastValidations.status_eq (h : LastValidations db c runs) {run : PadesValidateRun}
    (hrun : run ∈ runs) {s : Signer} (hs : s ∈ db.signers) (hid : s.id = run.signerId) :
    s.status = .signing := by
  obtain ⟨signer, hsigner, hsigning⟩ := h.signing run hrun
  obtain ⟨hmem, hkey⟩ := exists_of_find?_key hsigner
  rw [eq_of_key_eq h.signersKeyed hs hmem (hid.trans hkey.symm), hsigning]

theorem LastValidations.kept (h : LastValidations db c runs) : CompletionsKept db c runs db := by
  refine ⟨⟨rfl, Moved.refl AttemptKept.refl _, Moved.refl SignerKept.refl _,
    fun _ _ _ hv => Or.inr hv, fun run hrun hadmitted => absurd hadmitted (h.pending run hrun),
    fun run hrun s hs hid => Or.inr (Or.inl (h.status_eq hrun hs hid))⟩,
    fun run hrun hadmitted => absurd hadmitted (h.pending run hrun), ?_⟩
  rintro ⟨run, hrun, s, hs, hid, hsigned⟩
  exact nomatch (h.status_eq hrun hs hid).symm.trans hsigned

theorem lastValidations_of_reachable {w : Sys} (hw : w.Reachable) (hruns : runs ⊆ w.validates)
    (hcase : ∀ run ∈ runs, run.signatureCaseId = c)
    (hsigning : ∀ run ∈ runs, ∀ signer, w.db.signer? run.signerId = some signer →
      signer.status = .signing)
    (hpending : ∀ run ∈ runs, ¬w.db.Admitted run)
    (hdocuments : ∀ run ∈ runs, ∀ d ∈ w.db.signableDocuments run.payload.signingIntentId,
      w.db.ValidatedFor run.signerId d.documentVersionId ∨
        ∃ other ∈ runs, other.signerId = run.signerId ∧ ∃ a ∈ w.db.attempts,
          a.id = other.payload.signatureAttemptId ∧ a.documentVersionId = d.documentVersionId) :
    LastValidations w.db c runs := by
  have hattributed := attributed_of_reachable hw
  have hsignatures := signatures_of_reachable hw
  refine ⟨⟨hcase, fun run hrun other hother hsigner => ?_, fun run hrun other hother hsame => ?_,
    fun run hrun => ?_, fun run hrun a ha hid => ?_⟩, hsignatures.keyed, fun run hrun => ?_,
    (standing_of_reachable hw).signersKeyed, hpending, hdocuments⟩
  · -- a signer has one intent
    obtain ⟨_, _, si, -, -, -, -, hsi, hof, -⟩ := hattributed.validates run (hruns hrun)
    obtain ⟨_, _, si', -, -, -, -, hsi', hof', -⟩ := hattributed.validates other (hruns hother)
    obtain ⟨hmem, hid⟩ := exists_of_find?_key hsi
    obtain ⟨hmem', hid'⟩ := exists_of_find?_key hsi'
    rw [← hid, ← hid', eq_of_key_eq (prepared_of_reachable hw).single hmem' hmem
      (hof'.trans (hsigner.trans hof.symm))]
  · obtain ⟨artifact, _, _, hfound, howner, -⟩ := hattributed.validates run (hruns hrun)
    obtain ⟨artifact', _, _, hfound', howner', -⟩ := hattributed.validates other (hruns hother)
    rw [hsame, hfound] at hfound'
    rw [← howner, ← howner', Option.some.inj hfound']
  · obtain ⟨_, a, _, -, -, hattempt, -⟩ := hattributed.validates run (hruns hrun)
    obtain ⟨hmem, hid⟩ := exists_of_find?_key hattempt
    exact ⟨a, hmem, hid⟩
  · exact signerId_of_validates hsignatures.keyed hattributed (hruns hrun) ha hid.symm
  · obtain ⟨signer, _, hsigner, -⟩ := hsignatures.validates run (hruns hrun)
    exact ⟨signer, hsigner, hsigning run hrun signer hsigner⟩

/--
However the transactions of the last signers interleave: once those of a signer have committed with
admitted validations, the signer is signed, and the package of the case is queued if nobody is left.
-/
theorem signed_of_admitted (h : LastValidations db c runs) {actions : List (Action Db RowLock)}
    {s : System Db RowLock} (hbegin : ∀ i program, .begin i program ∈ actions →
      ∃ now, ∃ run ∈ runs, program = (commitValidationScript now run).program)
    (hr : Infra.run step (idle db) actions = some s) {run : PadesValidateRun}
    (hrun : run ∈ runs) (hall : ∀ other ∈ runs, other.signerId = run.signerId →
      s.committed.Admitted other ∧ ¬s.committed.Refused other) :
    (∃ signer, s.committed.signer? run.signerId = some signer ∧ signer.status = .signed) ∧
      ((∀ signer ∈ s.committed.requiredSigners c, signer.status = .signed) →
        .casePackage c ∈ s.committed.jobs) := by
  have hkept : CompletionsKept db c runs s.committed := by
    refine prepared_invariant id .auditChainHead (CompletionsKept db c runs) h.kept
      (fun i program hmem => ?_) hr
    obtain ⟨now, other, hother, rfl⟩ := hbegin i program hmem
    exact preparing_commitValidation h.toAssigned hother
  have hrefused : ¬s.committed.RefusedFor runs run.signerId := by
    rintro ⟨other, hother, hsigner, hrefused⟩
    exact (hall other hother hsigner).2 hrefused
  have hdone : s.committed.outstanding run.payload.signingIntentId run.signerId = false := by
    refine outstanding_eq_false.mpr fun d hd => ?_
    rw [Db.signableDocuments, hkept.documents] at hd
    rcases h.documents run hrun d hd with
      hearlier | ⟨other, hother, hsigner, a₀, ha₀, hid₀, hversion⟩
    · exact (hkept.earlier run hrun _ hearlier).resolve_left hrefused
    · obtain ⟨a, ha, hid, hvalidated⟩ := (hkept.validated other hother
        (hall other hother hsigner).1).resolve_left (hsigner ▸ hrefused)
      -- the attempt that was validated is the one of the document
      obtain ⟨a₁, ha₁, hsame⟩ := hkept.attempts.exists_before ha
      obtain rfl : a₁ = a₀ :=
        eq_of_key_eq h.keyed ha₁ ha₀ (hsame.id.symm.trans (hid.trans hid₀.symm))
      have howner : a.signerId = other.signerId :=
        hkept.signer_eq h.toAssigned hother ha hid
      have hbinding : a.documentVersionId = a₁.documentVersionId :=
        congrArg (·.documentVersionId) hsame.binding
      exact ⟨a, ha, howner.trans hsigner, hbinding.trans hversion, hvalidated⟩
  obtain ⟨before, hbefore, -⟩ := h.signing run hrun
  obtain ⟨signer, hsigner, -⟩ := hkept.signers.find?_eq_some
    (fun _ _ hmoved => hmoved.id) hbefore
  obtain ⟨hmem, hid⟩ := exists_of_find?_key hsigner
  have hsigned : signer.status = .signed := by
    have hnot : signer.status ≠ .signing :=
      hkept.finished run hrun (hall run hrun rfl).1 hdone signer hmem hid
    rcases (hkept.standing run hrun signer hmem hid).resolve_left hrefused with hsigning | hsigned
    · exact absurd hsigning hnot
    · exact hsigned
  exact ⟨⟨signer, hsigner, hsigned⟩, hkept.packaged ⟨run, hrun, signer, hmem, hid, hsigned⟩⟩

end LastValidations

/-! ## Two documents of one signer -/

namespace LastSigners

def firstSigned : List Step :=
  .prepareCase (Intake.sample 2 [(1, true)]) :: .send 1 idText :: Step.identify 0 0 ++
    [.startCreate 0, .markSigning 0, .loadRevision 0 fun _ => 100, .commitSignature 0 1 1 200]

def bothSigned (db : Db) : Db :=
  { db with
    attempts := db.attempts ++ db.attempts.map fun a => { a with
      id := 2
      attemptNumber := 2
      documentVersionId := 1
      documentSha256 := 101 }
    artifacts := db.artifacts ++ db.artifacts.map fun a => { a with
      id := 2
      signatureAttemptId := 2
      inputRevisionSha256 := 101
      signedDocumentSha256 := 201 } }

def validation (artifactId documentVersionId : Id) (signed : Digest) : PadesValidateRun where
  payload := ⟨0, artifactId, artifactId, documentVersionId, .signed documentVersionId 0⟩
  signedDocumentSha256 := signed
  signerId := 0
  signatureCaseId := 1
  policy := Json.object [("requiredPadesLevel", Json.lit "B")]
  requiredLevel := some .B
  report := Step.passed

def validations : List PadesValidateRun := [validation 1 0 200, validation 2 1 201]

/-- Both have validated their attempt before either takes the lock of the chain. -/
def interleaved : List (Action Db RowLock) :=
  .begin 0 (commitValidationScript 0 (validation 1 0 200)).program ::
    .begin 1 (commitValidationScript 0 (validation 2 1 201)).program ::
      ([.next 0, .next 1, .next 0, .next 1, .next 0, .next 1, .next 0, .next 1] ++
        List.replicate 4 (.next 0) ++ List.replicate 20 (.next 1))

end LastSigners

open LastSigners in
/-- The second to take the lock finds no document outstanding, and nobody left to sign. -/
theorem signed_of_admitted_interleaved : ∃ (db : Db) (s : System Db RowLock),
    LastValidations db 1 validations ∧ Infra.run step (idle db) interleaved = some s ∧
      (∃ signer, s.committed.signer? 0 = some signer ∧ signer.status = .signed) ∧
      .casePackage 1 ∈ s.committed.jobs := by
  obtain ⟨w, -, hassigned, hattempts, hsigners, hsigning, hpending, hdocuments, s, hs, hall,
      hnobody⟩ :
      ∃ w ∈ Sys.after firstSigned,
        (∀ run ∈ validations, (∃ a ∈ (bothSigned w.db).attempts,
          a.id = run.payload.signatureAttemptId) ∧
          ∀ a ∈ (bothSigned w.db).attempts, a.id = run.payload.signatureAttemptId →
            a.signerId = run.signerId) ∧
        ((bothSigned w.db).attempts.map (·.id)).Nodup ∧
        ((bothSigned w.db).signers.map (·.id)).Nodup ∧
        (∃ signer ∈ (bothSigned w.db).signer? 0, signer.status = .signing) ∧
        (∀ run ∈ validations, ¬(bothSigned w.db).Admitted run) ∧
        (∀ d ∈ (bothSigned w.db).signableDocuments 0, ∃ other ∈ validations,
          ∃ a ∈ (bothSigned w.db).attempts, a.id = other.payload.signatureAttemptId ∧
            a.documentVersionId = d.documentVersionId) ∧
        ∃ s ∈ Infra.run step (idle (bothSigned w.db)) interleaved,
          (∀ run ∈ validations, s.committed.Admitted run ∧ ¬s.committed.Refused run) ∧
            ∀ signer ∈ s.committed.requiredSigners 1, signer.status = .signed := by
    decide +kernel
  have hvalidations : ∀ run ∈ validations, run.signatureCaseId = 1 ∧ run.signerId = 0 ∧
      run.payload.signingIntentId = 0 ∧
        run.payload.signatureAttemptId = run.payload.signatureArtifactId := by decide
  have hlast : LastValidations (bothSigned w.db) 1 validations := by
    refine ⟨⟨fun run hrun => (hvalidations run hrun).1, fun run hrun other hother _ => ?_,
      fun run hrun other hother hsame => ?_, fun run hrun => (hassigned run hrun).1,
      fun run hrun => (hassigned run hrun).2⟩, hattempts, fun run hrun => ?_, hsigners, hpending,
      fun run hrun d hd => Or.inr ?_⟩
    · rw [(hvalidations run hrun).2.2.1, (hvalidations other hother).2.2.1]
    · rw [(hvalidations run hrun).2.2.2, (hvalidations other hother).2.2.2, hsame]
    · rw [(hvalidations run hrun).2.1]
      exact hsigning
    · rw [(hvalidations run hrun).2.2.1] at hd
      obtain ⟨other, hother, a, ha, hid, hversion⟩ := hdocuments d hd
      refine ⟨other, hother, ?_, a, ha, hid, hversion⟩
      rw [(hvalidations run hrun).2.1, (hvalidations other hother).2.1]
  have hbegin : ∀ i program, .begin i program ∈ interleaved →
      ∃ now, ∃ run ∈ validations, program = (commitValidationScript now run).program := by
    intro i program hmem
    simp only [interleaved, List.mem_cons, List.mem_append, List.mem_replicate, Action.begin.injEq,
      reduceCtorEq, and_false, or_false, List.not_mem_nil] at hmem
    obtain ⟨-, rfl⟩ | ⟨-, rfl⟩ := hmem
    · exact ⟨0, _, List.mem_cons_self, rfl⟩
    · exact ⟨0, _, List.mem_cons_of_mem _ List.mem_cons_self, rfl⟩
  obtain ⟨hsigned, hjob⟩ := signed_of_admitted hlast hbegin hs List.mem_cons_self
    fun other hother _ => hall other hother
  exact ⟨bothSigned w.db, s, hlast, hs, hsigned, hjob hnobody⟩

end Kommunsign
