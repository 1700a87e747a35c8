import Kommunsign.Infra.Appends
import Kommunsign.Worker.AuditExport
import Kommunsign.Workflow.Payloads

/-!
# The audit log of the workflow

Every transaction of the workflow only appends to the audit log. Which events it appends is read
off the calls of `audit.append_event` on each of its branches.

* `Db.auditEvents` — the audit log of a state
* `RecordedBy` — the events that a step may append, call by call
* `EventType.auditCall?` — the resource that an event of this type names, and whether its payload
  has the id of the case
-/

namespace Kommunsign

open Infra

/-- The events that have been appended to `audit.audit_events`. -/
def Db.auditEvents (db : Db) : List Event := db.events.filter (·.channel == .audit)

/-- The audit events that a step may append. -/
inductive RecordedBy (s : Sys) : Step → Event → Prop
  | expires (c : Id) : RecordedBy s (.expire c) ⟨.audit, .case_expired, c⟩
  | revokes (c : Id) (signer : Id × Option Time)
      (hsigner : signer ∈ s.db.remindableSigners s.clock c) :
      RecordedBy s (.remind c) ⟨.audit, .invitation_revoked, signer.1⟩
  | reminds (c : Id) (signer : Id × Option Time)
      (hsigner : signer ∈ s.db.remindableSigners s.clock c) :
      RecordedBy s (.remind c) ⟨.audit, .invitation_created, signer.1⟩
  | collects (t : Id) (sha256 : Digest) :
      RecordedBy s (.collectEvidence t sha256) ⟨.audit, .bankid_evidence_collected, t⟩
  | failsIdentity (t : Id) : RecordedBy s (.failIdentity t) ⟨.audit, .bankid_evidence_failed, t⟩
  | rejects (index : Nat) (t : Id) (pass : Bool) (ht : s.checks[index]? = some t) :
      RecordedBy s (.recordVerification index pass) ⟨.audit, .bankid_evidence_failed, t⟩
  | verifies (index : Nat) (t : Id) (pass : Bool) (ht : s.checks[index]? = some t) :
      RecordedBy s (.recordVerification index pass) ⟨.audit, .bankid_evidence_verified, t⟩
  | identifies (index : Nat) (t : Id) (pass : Bool) (row : IdentityTransaction × SigningIntent)
      (ht : s.checks[index]? = some t) (hrow : loadStarted s.db t = .ok row) :
      RecordedBy s (.recordVerification index pass)
        ⟨.audit, .signer_identity_verified, row.2.signerId⟩
  | creates (index : Nat) (attemptId artifactId : Id) (signed : Digest) :
      RecordedBy s (.commitSignature index attemptId artifactId signed)
        ⟨.audit, .signature_pades_created, artifactId⟩
  | refuses (index : Nat) (run : PadesValidateRun) (hrun : s.validates[index]? = some run) :
      RecordedBy s (.commitValidation index)
        ⟨.audit, run.refusal, run.payload.signatureArtifactId⟩
  | admits (index : Nat) (run : PadesValidateRun) (hrun : s.validates[index]? = some run) :
      RecordedBy s (.commitValidation index)
        ⟨.audit, .signature_pades_admitted, run.payload.signatureArtifactId⟩
  | signs (index : Nat) (run : PadesValidateRun) (hrun : s.validates[index]? = some run) :
      RecordedBy s (.commitValidation index) ⟨.audit, .signer_signed, run.signerId⟩
  | invites (index : Nat) (run : PadesValidateRun) (signer : Signer)
      (hrun : s.validates[index]? = some run) (hsigner : signer ∈ s.db.signers)
      (hcase : signer.signatureCaseId = run.signatureCaseId) :
      RecordedBy s (.commitValidation index) ⟨.audit, .invitation_created, signer.id⟩
  | completes (c : Id) : RecordedBy s (.buildPackage c none) ⟨.audit, .case_completed, c⟩
  | packages (c : Id) (signerId : Option Id) :
      RecordedBy s (.buildPackage c signerId) ⟨.audit, .evidence_package_ready, c⟩

/-! ## The statements -/

/-- Every outcome of the transaction has appended only such events to the audit log. -/
abbrev Records {α : Type} (allowed : Event → Prop) (tx : Tx α) : Prop :=
  Appends Db.auditEvents allowed tx

section Statements

variable {allowed : Event → Prop} {eventType : EventType} {id : Id} {db db' : Db} {u : Unit}

theorem auditEvents_append (db : Db) (events : List Event) :
    ({ db with events := db.events ++ events } : Db).auditEvents =
      db.auditEvents ++ events.filter (·.channel == .audit) :=
  List.filter_append _ _

theorem records_audit (h : allowed ⟨.audit, eventType, id⟩) :
    Records allowed (audit eventType id) :=
  Appends.rewrite fun db => Grows.append (auditEvents_append db [⟨.audit, eventType, id⟩]) h

theorem records_outbox : Records allowed (outbox eventType id) := by
  refine Appends.rewrite fun db => Grows.of_eq ?_
  rw [auditEvents_append db [⟨.outbox, eventType, id⟩]]
  exact List.append_nil _

theorem records_enqueue {job : DurableJob} : Records allowed (enqueue job) :=
  Appends.rewrite fun _ => Grows.of_eq rfl

end Statements

/-! ## The transactions -/

section Transactions

variable {allowed : Event → Prop} {db db' : Db} {now : Time} {u : Unit}

theorem records_prepareCase {intake : Intake} : Records allowed (prepareCase intake) := by
  refine (Appends.require _ _).ignore ((Appends.insert (fun _ _ => rfl) _).ignore ?_)
  refine (Appends.forEach fun _ _ => Appends.insert (fun _ _ => rfl) _).ignore ?_
  refine (Appends.forEach fun _ _ => Appends.insert (fun _ _ => rfl) _).ignore ?_
  exact Appends.forEach fun _ _ => Appends.insert (fun _ _ => rfl) _

theorem records_inviteFirst {expiresAt : Time} {signerId : Id} :
    Records allowed (inviteFirst now expiresAt signerId) :=
  Appends.read.bind fun _ => (Appends.insert (fun _ _ => rfl) _).ignore <|
    (Appends.update (fun _ _ => rfl) _ _).ignore records_outbox

theorem records_sendSigner {nonce : Id → Text} {c : SignatureCase} {rows : List SigningDocumentRow}
    {group : Nat} {signer : Signer} : Records allowed (sendSigner now nonce c rows group signer) := by
  refine (Appends.demand _ _).bind fun _ => Appends.read.bind fun _ => ?_
  refine (Appends.insert (fun _ _ => rfl) _).ignore ?_
  refine (Appends.forEach fun _ _ => Appends.insert (fun _ _ => rfl) _).ignore ?_
  exact Appends.ite records_inviteFirst (Appends.pure ())

theorem records_transitionCase {c : Id} {status : CaseStatus} {eventType : EventType}
    {before : SignatureCase → Tx Unit} (h : ∀ row, Records allowed (before row)) :
    Records allowed (transitionCase c status eventType before) :=
  Appends.read.bind fun _ => (Appends.demand _ _).bind fun row => (h row).ignore <|
    (Appends.update (fun _ _ => rfl) _ _).ignore records_outbox

theorem records_send {c : Id} {nonce : Id → Text} : Records allowed (send now nonce c) := by
  refine records_transitionCase fun row => Appends.read.bind fun _ => ?_
  refine (Appends.check _).ignore (Appends.ignore ?_ ?_)
  · exact Appends.read.bind fun _ => Appends.update (fun _ _ => rfl) _ _
  · exact (Appends.forEach fun _ _ => records_sendSigner).ignore records_outbox

theorem records_cancel {c : Id} : Records allowed (cancel c) :=
  records_transitionCase fun _ => Appends.pure ()

theorem records_expireCase {c : Id} (h : allowed ⟨.audit, .case_expired, c⟩) :
    Records allowed (expireCase now c) := by
  refine Appends.read.bind fun _ => (Appends.demand _ _).bind fun _ =>
    Appends.ite (Appends.pure ()) ((Appends.require _ _).ignore ?_)
  refine (Appends.update (fun _ _ => rfl) _ _).ignore ?_
  refine (Appends.update (fun _ _ => rfl) _ _).ignore (Appends.read.bind fun _ => ?_)
  exact (Appends.update (fun _ _ => rfl) _ _).ignore ((records_audit h).ignore records_outbox)

theorem records_sendReminders {c : Id} (h : ∀ signer ∈ db.remindableSigners now c,
      allowed ⟨.audit, .invitation_revoked, signer.1⟩ ∧
        allowed ⟨.audit, .invitation_created, signer.1⟩) :
    Transaction.Within (Grows Db.auditEvents allowed) (sendReminders now c) db := by
  intro u db' hok
  rw [sendReminders, Transaction.read_bind] at hok
  refine Appends.forEach (fun signer hsigner => ?_) db u db' hok
  obtain ⟨hrevoked, hcreated⟩ := h signer hsigner
  refine (Appends.update (fun _ _ => rfl) _ _).ignore (Appends.read.bind fun _ => ?_)
  exact (Appends.insert (fun _ _ => rfl) _).ignore
    ((records_audit hrevoked).ignore (records_audit hcreated))

theorem records_recordDelivery {signerId : Id} {bounced : Bool} {occurredAt : Time} :
    Records allowed (recordDelivery signerId bounced occurredAt) :=
  (Appends.update (fun _ _ => rfl) _ _).ignore (Appends.pure ())

theorem records_markOpened {invitationId : Id} :
    Records allowed (markOpened now invitationId) :=
  fun db => within_reading fun _ _ => (Appends.update (fun _ _ => rfl) _ _).ignore
    ((Appends.update (fun _ _ => rfl) _ _).ignore records_outbox) db

theorem records_decline {invitationId : Id} : Records allowed (decline now invitationId) := by
  intro db
  refine within_reading fun _ _ => Appends.read.bind (fun _ => (Appends.demand _ _).bind fun _ => ?_) db
  refine (Appends.update (fun _ _ => rfl) _ _).ignore ((Appends.update (fun _ _ => rfl) _ _).ignore ?_)
  exact Appends.ite ((Appends.update (fun _ _ => rfl) _ _).ignore records_outbox) records_outbox

theorem records_recordSession {reference : Nat} {start : StartInput} :
    Records allowed (recordSession now reference start) := by
  refine Appends.read.bind fun _ => (Appends.require _ _).ignore ((Appends.demand _ _).bind fun _ => ?_)
  refine (Appends.insert (fun _ _ => rfl) _).ignore ((Appends.update (fun _ _ => rfl) _ _).ignore ?_)
  exact (Appends.update (fun _ _ => rfl) _ _).ignore records_outbox

theorem records_recordSessionStatus {t : Id} {status : ProviderStatus} :
    Records allowed (recordSessionStatus t status) :=
  (Appends.update (fun _ _ => rfl) _ _).ignore <|
    Appends.ite (records_enqueue.ignore records_outbox) (Appends.pure ())

theorem records_cancelSession {t : Id} : Records allowed (cancelSession t) :=
  Appends.read.bind fun _ => (Appends.update (fun _ _ => rfl) _ _).ignore <|
    (Appends.update (fun _ _ => rfl) _ _).ignore (Appends.pure ())

theorem records_pollIdentity {t : Id} {status : ProviderStatus} :
    Records allowed (pollIdentity t status) := by
  unfold pollIdentity
  split
  · exact records_enqueue
  all_goals exact (Appends.update (fun _ _ => rfl) _ _).ignore (Appends.pure ())

theorem records_collectEvidence {t : Id} {sha256 : Digest}
    (h : allowed ⟨.audit, .bankid_evidence_collected, t⟩) :
    Records allowed (collectEvidence t sha256) := by
  intro db
  refine within_reading fun _ _ => (Appends.update (fun _ _ => rfl) _ _).ignore ?_ db
  refine (Appends.update (fun _ _ => rfl) _ _).ignore (records_enqueue.ignore ?_)
  exact (records_audit h).ignore records_outbox

theorem records_failIdentityTransaction {t : Id}
    (h : allowed ⟨.audit, .bankid_evidence_failed, t⟩) :
    Records allowed (failIdentityTransaction t) := by
  intro db
  refine within_reading fun _ _ => (Appends.update (fun _ _ => rfl) _ _).ignore ?_ db
  refine (Appends.update (fun _ _ => rfl) _ _).ignore ((Appends.update (fun _ _ => rfl) _ _).ignore ?_)
  exact (records_audit h).ignore records_outbox

theorem records_recordVerification {t : Id} {pass : Bool}
    (hfailed : allowed ⟨.audit, .bankid_evidence_failed, t⟩)
    (hverified : allowed ⟨.audit, .bankid_evidence_verified, t⟩)
    (hidentified : ∀ row, loadStarted db t = .ok row →
      allowed ⟨.audit, .signer_identity_verified, row.2.signerId⟩) :
    Transaction.Within (Grows Db.auditEvents allowed) (recordVerification t pass) db := by
  refine within_reading fun row hrow => Appends.ignore ?_ (Appends.ite ?_ ?_) db
  · exact Appends.read.bind fun _ =>
      Appends.ite (Appends.pure ()) (Appends.insert (fun _ _ => rfl) _)
  · -- the person is identified
    refine (Appends.update (fun _ _ => rfl) _ _).ignore ((Appends.update (fun _ _ => rfl) _ _).ignore ?_)
    refine (Appends.update (fun _ _ => rfl) _ _).ignore (records_enqueue.ignore ?_)
    exact (records_audit hverified).ignore
      ((records_audit (hidentified row hrow)).ignore records_outbox)
  · -- the evidence did not hold
    refine (Appends.update (fun _ _ => rfl) _ _).ignore ((Appends.update (fun _ _ => rfl) _ _).ignore ?_)
    exact (Appends.update (fun _ _ => rfl) _ _).ignore ((records_audit hfailed).ignore records_outbox)

theorem records_commitSignature {intent : IntentRow} {artifact : SignatureArtifact}
    {document : IntentDocumentRow} (h : allowed ⟨.audit, .signature_pades_created, artifact.id⟩) :
    Records allowed (commitSignature intent artifact document) := by
  intro db u db' hok
  obtain ⟨-, -, -, rfl⟩ := writeSignature_eq (commitSignature_eq hok).1
  exact Grows.append (auditEvents_append db [⟨.audit, .signature_pades_created, artifact.id⟩]) h

theorem records_inviteSigner {signer : Id × Time}
    (h : allowed ⟨.audit, .invitation_created, signer.1⟩) :
    Records allowed (inviteSigner now signer) :=
  Appends.read.bind fun _ => (Appends.insert (fun _ _ => rfl) _).ignore <|
    (Appends.update (fun _ _ => rfl) _ _).ignore (records_audit h)

theorem exists_signer_of_group {c group : Id} {signer : Id × Time}
    (h : signer ∈ db.groupSigners c group) :
    ∃ row ∈ db.signers, row.id = signer.1 ∧ row.signatureCaseId = c := by
  obtain ⟨row, hrow, hsigner⟩ := List.mem_flatMap.mp h
  obtain ⟨_, -, rfl⟩ := List.mem_map.mp hsigner
  obtain ⟨hmem, hgroup⟩ := List.mem_filter.mp hrow
  simp only [Bool.and_eq_true, beq_iff_eq] at hgroup
  exact ⟨row, hmem, rfl, hgroup.1.1⟩

theorem records_activateNextSigningGroup {c : Id} (h : ∀ signer ∈ db.signers,
      signer.signatureCaseId = c → allowed ⟨.audit, .invitation_created, signer.id⟩) :
    Transaction.Within (Grows Db.auditEvents allowed) (activateNextSigningGroup now c) db := by
  intro u db' hok
  rcases activateNextSigningGroup_eq hok with ⟨-, rfl⟩ | ⟨group, -, hinvite⟩
  · exact Grows.refl _
  · refine Appends.forEach (fun signer hsigner => records_inviteSigner ?_) db () db' hinvite
    obtain ⟨row, hrow, hid, hcase⟩ := exists_signer_of_group hsigner
    rw [← hid]
    exact h row hrow hcase

theorem records_refuseSignature {run : PadesValidateRun} {eventType : EventType}
    (h : allowed ⟨.audit, eventType, run.payload.signatureArtifactId⟩) :
    Records allowed (refuseSignature run eventType) :=
  (Appends.update (fun _ _ => rfl) _ _).ignore <| (Appends.update (fun _ _ => rfl) _ _).ignore <|
    (records_audit h).ignore records_outbox

theorem records_completeSigner {run : PadesValidateRun}
    (hsigned : allowed ⟨.audit, .signer_signed, run.signerId⟩)
    (hinvited : ∀ signer ∈ db.signers, signer.signatureCaseId = run.signatureCaseId →
      allowed ⟨.audit, .invitation_created, signer.id⟩) :
    Transaction.Within (Grows Db.auditEvents allowed) (completeSigner now run) db := by
  intro u db' hok
  obtain ⟨-, db₁, hactivate, rfl⟩ := completeSigner_eq hok
  have hannounced : Grows Db.auditEvents allowed db (db.withSigned now run) := by
    refine Grows.append ?_ hsigned
    unfold Db.auditEvents Db.withSigned
    rw [List.filter_append, List.filter_append]
    exact List.append_nil _
  have hinvites : Grows Db.auditEvents allowed (db.withSigned now run) db₁ := by
    refine records_activateNextSigningGroup (fun signer' hsigner' hcase => ?_) () db₁ hactivate
    obtain ⟨signer, hsigner, rfl⟩ := mem_assign.mp hsigner'
    have hsame : (if (signer.id == run.signerId && signer.status == .signing) = true then
        { signer with status := .signed } else signer).toSignerBinding = signer.toSignerBinding := by
      split <;> rfl
    have hid : (if (signer.id == run.signerId && signer.status == .signing) = true then
        { signer with status := .signed } else signer).id = signer.id := by
      split <;> rfl
    rw [hsame] at hcase
    rw [hid]
    exact hinvited signer hsigner hcase
  refine (hannounced.trans _ _ _ hinvites).trans _ _ _ (Grows.of_eq ?_)
  unfold Db.withCaseJob
  split <;> rfl

theorem records_commitValidation {run : PadesValidateRun}
    (hrefused : allowed ⟨.audit, run.refusal, run.payload.signatureArtifactId⟩)
    (hadmitted : allowed ⟨.audit, .signature_pades_admitted, run.payload.signatureArtifactId⟩)
    (hsigned : allowed ⟨.audit, .signer_signed, run.signerId⟩)
    (hinvited : ∀ signer ∈ db.signers, signer.signatureCaseId = run.signatureCaseId →
      allowed ⟨.audit, .invitation_created, signer.id⟩) :
    Transaction.Within (Grows Db.auditEvents allowed) (commitValidation now run) db := by
  intro u db' hok
  have hvalidation : Grows Db.auditEvents allowed db (db.withValidation run) :=
    Grows.append (auditEvents_append db
      [⟨.audit, .signature_pades_admitted, run.payload.signatureArtifactId⟩]) hadmitted
  rcases commitValidation_eq hok with ⟨-, hok⟩ | ⟨-, ⟨-, -, rfl⟩ | ⟨-, hok⟩⟩
  · exact Grows.trans db (db.withValidationRun run) db' (Grows.of_eq rfl)
      (records_refuseSignature hrefused _ () db' hok)
  · exact hvalidation
  · -- the validation leaves the signers as they are
    have hsame : ∀ signer ∈ (db.withValidation run).signers,
        signer.signatureCaseId = run.signatureCaseId →
          allowed ⟨.audit, .invitation_created, signer.id⟩ := hinvited
    exact hvalidation.trans _ _ _ (records_completeSigner hsigned hsame () db' hok)

theorem records_buildEvidencePackage {c : Id} {signerId : Option Id}
    (hcompleted : signerId = none → allowed ⟨.audit, .case_completed, c⟩)
    (hready : allowed ⟨.audit, .evidence_package_ready, c⟩) :
    Records allowed (buildEvidencePackage c signerId) := by
  refine Appends.read.bind fun _ => Appends.ite (Appends.pure ()) ?_
  refine Appends.ignore (Appends.rewrite fun _ => ?_) ?_
  · exact Grows.of_eq rfl
  cases signerId with
  | some signerId =>
    exact (Appends.update (fun _ _ => rfl) _ _).ignore ((records_audit hready).ignore records_outbox)
  | none =>
    refine (Appends.update (fun _ _ => rfl) _ _).ignore ((records_audit (hcompleted rfl)).ignore ?_)
    exact records_outbox.ignore ((records_audit hready).ignore records_outbox)

end Transactions

/-! ## The steps -/

theorem auditEvents_of_step {s s' : Sys} {i : Step} (h : Sys.step s i = some s') :
    Grows Db.auditEvents (RecordedBy s i) s.db s'.db := by
  cases i with
  | tick duration =>
    cases h
    exact Grows.refl _
  | prepareCase intake =>
    obtain ⟨db, hok, rfl⟩ := Sys.commit_eq_some.mp h
    exact records_prepareCase _ _ _ hok
  | send c nonce =>
    obtain ⟨db, hok, rfl⟩ := Sys.commit_eq_some.mp h
    exact records_send _ _ _ hok
  | cancel c =>
    obtain ⟨db, hok, rfl⟩ := Sys.commit_eq_some.mp h
    exact records_cancel _ _ _ hok
  | expire c =>
    obtain ⟨db, hok, rfl⟩ := Sys.commit_eq_some.mp h
    exact records_expireCase (.expires c) _ _ _ hok
  | remind c =>
    obtain ⟨db, hok, rfl⟩ := Sys.commit_eq_some.mp h
    exact records_sendReminders
      (fun signer hsigner => ⟨.revokes c signer hsigner, .reminds c signer hsigner⟩) _ _ hok
  | delivery signerId bounced =>
    obtain ⟨db, hok, rfl⟩ := Sys.commit_eq_some.mp h
    exact records_recordDelivery _ _ _ hok
  | markOpened invitationId =>
    obtain ⟨db, hok, rfl⟩ := Sys.commit_eq_some.mp h
    exact records_markOpened _ _ _ hok
  | decline invitationId =>
    obtain ⟨db, hok, rfl⟩ := Sys.commit_eq_some.mp h
    exact records_decline _ _ _ hok
  | startSession invitationId =>
    obtain ⟨_, _, -, rfl⟩ := step_startSession h
    exact Grows.refl _
  | recordSession index reference =>
    obtain ⟨_, db, -, hok, rfl⟩ := step_recordSession h
    exact records_recordSession _ _ _ hok
  | sessionStatus t status =>
    obtain ⟨db, hok, rfl⟩ := Sys.commit_eq_some.mp h
    exact records_recordSessionStatus _ _ _ hok
  | cancelSession t =>
    obtain ⟨db, hok, rfl⟩ := Sys.commit_eq_some.mp h
    exact records_cancelSession _ _ _ hok
  | pollIdentity t status =>
    obtain ⟨db, hok, rfl⟩ := Sys.commit_eq_some.mp h
    exact records_pollIdentity _ _ _ hok
  | completeSession t =>
    obtain ⟨-, db, hok, rfl⟩ := step_completeSession h
    exact records_enqueue _ _ _ hok
  | collectEvidence t sha256 =>
    obtain ⟨-, db, hok, rfl⟩ := Sys.work_eq_some.mp h
    exact records_collectEvidence (.collects t sha256) _ _ _ hok
  | failIdentity t =>
    obtain ⟨-, db, hok, rfl⟩ := Sys.work_eq_some.mp h
    exact records_failIdentityTransaction (.failsIdentity t) _ _ _ hok
  | readEvidence t =>
    obtain ⟨-, -, rfl⟩ := step_readEvidence h
    exact Grows.refl _
  | recordVerification index pass =>
    obtain ⟨t, db, ht, hok, rfl⟩ := step_recordVerification h
    exact records_recordVerification (.rejects index t pass ht) (.verifies index t pass ht)
      (fun row hrow => .identifies index t pass row ht hrow) _ _ hok
  | startCreate intentId =>
    obtain ⟨-, _, -, rfl⟩ := step_startCreate h
    exact Grows.refl _
  | markSigning index =>
    obtain ⟨_, n, db, -, -, hok, rfl⟩ := step_markSigning h
    exact Appends.update (fun _ _ => rfl) _ _ _ n db hok
  | skipDocument index =>
    obtain ⟨_, _, -, -, -, -, rfl⟩ := step_skipDocument h
    exact Grows.refl _
  | loadRevision index download =>
    obtain ⟨_, _, _, -, -, -, -, -, rfl⟩ := step_loadRevision h
    exact Grows.refl _
  | commitSignature index attemptId artifactId signed =>
    obtain ⟨_, _, _, db, -, -, -, -, hok, rfl⟩ := step_commitSignature h
    exact records_commitSignature (.creates index attemptId artifactId signed) _ _ _ hok
  | dropCreate index =>
    cases h
    exact Grows.refl _
  | readValidate payload report =>
    obtain ⟨-, _, -, rfl⟩ := step_readValidate h
    exact Grows.refl _
  | commitValidation index =>
    obtain ⟨run, db, hrun, hok, rfl⟩ := step_commitValidation h
    exact records_commitValidation (.refuses index run hrun) (.admits index run hrun)
      (.signs index run hrun)
      (fun signer hsigner hcase => .invites index run signer hrun hsigner hcase) _ _ hok
  | buildPackage c signerId =>
    obtain ⟨-, db, hok, rfl⟩ := Sys.work_eq_some.mp h
    refine records_buildEvidencePackage (fun hnone => ?_) (.packages c signerId) _ _ _ hok
    subst hnone
    exact .completes c

/-!
# The audit log of the workflow, and what an evidence package exports of it

Each call of `audit.append_event` chooses a resource and a payload of its own. The export of a case
takes the events whose resource is the case and those whose payload has its id.
-/

/-! ## The calls -/

/-- The `resource_type` of an event, as the table that its resource is a row of. -/
inductive AuditedTable where
  | signature_case
  | signer
  | identity_transaction
  | signature_artifact
  | evidence_package
  deriving DecidableEq, Repr

/-- The row that an event names. -/
structure AuditedRow where
  table : AuditedTable
  id : Id
  deriving DecidableEq

/-- What the calls of `audit.append_event` for an event type have in common. -/
structure CaseAuditCall where
  table : AuditedTable
  /-- The payload has the member `signatureCaseId`. -/
  namesCase : Bool
  deriving DecidableEq

/-- The calls for an event type; some types are only ever put in the outbox. -/
def EventType.auditCall? : EventType → Option CaseAuditCall
  | .signature_pades_created | .signature_pades_admitted | .signature_pades_not_admitted
  | .signature_pades_validation_failed => some ⟨.signature_artifact, false⟩
  | .bankid_evidence_collected | .bankid_evidence_verified | .bankid_evidence_failed =>
    some ⟨.identity_transaction, false⟩
  | .invitation_revoked => some ⟨.signer, false⟩
  | .invitation_created | .signer_identity_verified | .signer_signed => some ⟨.signer, true⟩
  | .case_expired | .case_completed => some ⟨.signature_case, true⟩
  | .evidence_package_ready => some ⟨.evidence_package, true⟩
  | .signer_declined | .bankid_session_started | .bankid_session_completed | .invitation_opened
  | .document_locked | .signature_case_sent | .signature_case_cancelled => none

/-- The payload of an event of this type has the id of a case. -/
def EventType.namesCase (eventType : EventType) : Bool :=
  eventType.auditCall?.any (·.namesCase)

/-- A row of `audit.audit_events`, as far as the selection looks at it. -/
structure CaseAudit where
  eventType : EventType
  resource : AuditedRow
  /-- `payload->>'signatureCaseId'` -/
  payloadCase : Option Id
  deriving DecidableEq

/-- The case whose id a step has at hand when it calls `audit.append_event`. -/
def Sys.handlerCase? (s : Sys) : Step → Option Id
  | .expire c | .remind c | .buildPackage c _ => some c
  | .recordVerification index _ => do
    let t ← s.checks[index]?
    let row ← (loadStarted s.db t).toOption
    return row.2.signatureCaseId
  | .commitValidation index => (s.validates[index]?).map (·.signatureCaseId)
  | _ => none

/-- The row that a step inserts for an event. -/
def Sys.caseAudit? (s : Sys) (i : Step) (event : Event) : Option CaseAudit :=
  event.eventType.auditCall?.map fun call =>
    ⟨event.eventType, ⟨call.table, event.resourceId⟩,
      if call.namesCase then s.handlerCase? i else none⟩

/-! ## The workflow with its log -/

structure AuditedSys where
  sys : Sys
  /-- `audit.audit_events`, by the sequence -/
  audits : List CaseAudit

namespace AuditedSys

def step (s : AuditedSys) (i : Step) : Option AuditedSys := do
  let sys ← Sys.step s.sys i
  let added := sys.db.auditEvents.drop s.sys.db.auditEvents.length
  some ⟨sys, s.audits ++ added.filterMap (s.sys.caseAudit? i)⟩

def start (tenantId : Text) (organizationName : Option Text) (rollout : Bool) (clock : Time) :
    AuditedSys where
  sys := Sys.start tenantId organizationName rollout clock
  audits := []

def Reachable (s : AuditedSys) : Prop :=
  ∃ tenantId organizationName rollout clock steps,
    run step (start tenantId organizationName rollout clock) steps = some s

/-- The state after some steps from an empty data plane at time zero. -/
def after (steps : List Step) : Option AuditedSys :=
  run step (start "1".toList none true 0) steps

end AuditedSys

/-! ## The export -/

section Export

variable (uuid : AuditedRow → UUID)

/-- `resource_id=$2 or payload->>'signatureCaseId'=$2::text` -/
def CaseAudit.isOfCase (signatureCaseId : Id) (row : CaseAudit) : Bool :=
  uuid row.resource == uuid ⟨.signature_case, signatureCaseId⟩ ||
    row.payloadCase.map (fun c => uuid ⟨.signature_case, c⟩) ==
      some (uuid ⟨.signature_case, signatureCaseId⟩)

/-- The events that the packages of a case have in them. -/
def caseExport (signatureCaseId : Id) (audits : List CaseAudit) : List CaseAudit :=
  audits.filter (CaseAudit.isOfCase uuid signatureCaseId)

end Export

/-! ## The rows of a case -/

/-- The case that a row belongs to. -/
def Db.caseOf? (db : Db) : AuditedRow → Option Id
  | ⟨.signature_case, id⟩ | ⟨.evidence_package, id⟩ => some id
  | ⟨.signer, id⟩ => (db.signer? id).map (·.signatureCaseId)
  | ⟨.identity_transaction, id⟩ => do
    let t ← db.identityTransaction? id
    let si ← db.intent? (← t.signingIntentId)
    return si.signatureCaseId
  | ⟨.signature_artifact, id⟩ => do
    let artifact ← db.artifact? id
    let attempt ← db.attempt? artifact.signatureAttemptId
    let signer ← db.signer? attempt.signerId
    return signer.signatureCaseId

/-- The build of a package of the case has been queued. -/
def Db.PackageQueued (db : Db) (signatureCaseId : Id) : Prop :=
  .casePackage signatureCaseId ∈ db.jobs ∨
    ∃ signerId, .signerPackage signatureCaseId signerId ∈ db.jobs

end Kommunsign
