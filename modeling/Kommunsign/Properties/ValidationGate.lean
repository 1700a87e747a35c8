import Kommunsign.Infra.Bytes
import Kommunsign.Properties.PadesLevels
import Kommunsign.Validation.PadesValidator
import Kommunsign.Workflow.Effects

/-!
# What the worker makes of a validation report

The gate decides whether a signature is admitted, also one whose validation was inconclusive. But
the worker asks it only when the result of the report is `PASS`, which an inconclusive report never
is.

* `decidedByGate_iff` — exactly when the attempt ends as the gate would have it
* `inconclusive_report_fails` — a report that the gate admits, and whose attempt fails
-/

namespace Kommunsign

open Infra

/-- The checks that the bytes are the expected ones and that the signature covers them passed. -/
def PadesValidationReport.intact (report : PadesValidationReport) : Bool :=
  report.checks.all fun check => !check.mandatory || check.passed ||
    check.code != "DOCUMENT_INTEGRITY".toList && check.code != "SIGNATURE_COVERS_DOCUMENT".toList

/-- The attempt is validated when the gate admits an intact report, and fails otherwise. -/
structure DecidedByGate (run : PadesValidateRun) (report : PadesValidationReport) (db : Db) :
    Prop where
  validated : (∃ attempt ∈ db.attempt? run.payload.signatureAttemptId,
      attempt.status = .validated) ↔
    run.admission.isOk = true ∧ report.intact = true
  failed : ¬(run.admission.isOk = true ∧ report.intact = true) →
    ∃ attempt ∈ db.attempt? run.payload.signatureAttemptId, attempt.status = .failed

/-- An intact report is inconclusive, which the policy allows, and its evidence is enough. -/
structure Inconclusive (run : PadesValidateRun) (report : PadesValidationReport) : Prop where
  indication : report.indication = .INDETERMINATE
  allowed : .INDETERMINATE ∈ allowedValidationResults run.policy
  path : report.levelEvidence.hasTrustedCertificatePath = true
  timestamp : requiresTimestamp run.policy = true →
    report.levelEvidence.hasSignatureTimestamp = true
  level : ∃ level ∈ run.requiredLevel, level.rank ≤ report.levelEvidence.gateLevel.rank
  intact : report.intact = true

/-! ## The attempt -/

section Attempt

variable {db db' : Db} {now : Time} {run : PadesValidateRun} {attempt : SignatureAttempt} {u : Unit}

theorem attempt?_of_completeSigner {id : Id} (h : completeSigner now run db = .ok (u, db'))
    (hattempt : db.attempt? id = some attempt) :
    ∃ attempt', db'.attempt? id = some attempt' ∧ attempt'.status = attempt.status := by
  -- an effect under which nothing happens to attempts
  let e : Effect := { Effect.none with
    signer := fun _ _ _ _ => True
    queues := fun _ => True
    invites := fun _ _ => True }
  have hleaves : Leaves e now (db.withSigned now run) db' :=
    completeSigner_leaves trivial (fun _ _ _ => trivial) (fun _ _ _ => trivial) h
  have hsame : (db.withSigned now run).attempt? id = some attempt := hattempt
  obtain ⟨attempt', hfound, hchange⟩ := hleaves.attempts.find?_eq_some
    (fun row : SignatureAttempt => row.id) (fun _ _ hchange => hchange.id) hsame
  refine ⟨attempt', hfound, ?_⟩
  exact hchange.change.keeps (P := fun s => s = attempt.status)
    (fun _ _ _ hmay _ => absurd hmay not_false) rfl

theorem attempt?_of_setAttemptStatus {id : Id} {status : AttemptStatus} {n : Nat}
    (h : setAttemptStatus id status db = .ok (n, db')) (hattempt : db.attempt? id = some attempt) :
    db'.attempt? id = some { attempt with status := status } := by
  obtain ⟨-, rfl, -⟩ := Table.update_eq_ok.mp h
  have hfind : db.attempts.find? (fun a => a.id == id) = some attempt := hattempt
  have hassigned : (assign (fun a => a.id == id) (fun a => { a with status := status })
      db.attempts).find? (fun a : SignatureAttempt => a.id == id) =
      (db.attempts.find? fun a => a.id == id).map fun a =>
        if a.id == id then { a with status := status } else a :=
    find?_assign (fun a : SignatureAttempt => a.id) fun _ _ _ => rfl
  rw [hfind, Option.map_some, if_pos (List.find?_some hfind)] at hassigned
  exact hassigned

theorem attempt?_of_refuseSignature {eventType : EventType}
    (h : refuseSignature run eventType db = .ok (u, db'))
    (hattempt : db.attempt? run.payload.signatureAttemptId = some attempt) :
    db'.attempt? run.payload.signatureAttemptId = some { attempt with status := .failed } := by
  simp only [refuseSignature, Transaction.bind_eq_ok] at h
  obtain ⟨_, db₁, h₁, _, db₂, h₂, _, db₃, h₃, h₄⟩ := h
  have hfailed := attempt?_of_setAttemptStatus h₁ hattempt
  -- the statements on the signer and the events leave the attempts alone
  obtain ⟨-, rfl, -⟩ := Table.update_eq_ok.mp h₂
  obtain rfl := Transaction.rewrite_eq_ok.mp h₃
  obtain rfl := Transaction.rewrite_eq_ok.mp h₄
  exact hfailed

theorem attempt?_of_commitValidation (h : commitValidation now run db = .ok (u, db'))
    (hattempt : db.attempt? run.payload.signatureAttemptId = some attempt) :
    ∃ attempt', db'.attempt? run.payload.signatureAttemptId = some attempt' ∧
      attempt'.status = if run.admits then .validated else .failed := by
  rcases commitValidation_eq h with ⟨hrefused, hok⟩ | ⟨⟨n, db₁, hset⟩, hok⟩
  · rw [hrefused, if_neg Bool.false_ne_true]
    exact ⟨_, attempt?_of_refuseSignature hok hattempt, rfl⟩
  · have hvalidated : (db.withValidation run).attempt? run.payload.signatureAttemptId =
        some { attempt with status := .validated } := by
      have hfound := attempt?_of_setAttemptStatus hset hattempt
      obtain ⟨-, rfl, -⟩ := Table.update_eq_ok.mp hset
      exact hfound
    rcases hok with ⟨hadmits, -, rfl⟩ | ⟨hcompletes, hcomplete⟩
    · rw [hadmits, if_pos rfl]
      exact ⟨_, hvalidated, rfl⟩
    · obtain ⟨attempt', hfound, hstatus⟩ := attempt?_of_completeSigner hcomplete hvalidated
      rw [Db.completes, Bool.and_eq_true] at hcompletes
      rw [hcompletes.1, if_pos rfl]
      exact ⟨attempt', hfound, hstatus⟩

end Attempt

/-! ## The gate -/

section Gate

variable {libraries : ValidationLibraries} {now : Time} {request : PadesValidationRequest}
  {run : PadesValidateRun} {report : PadesValidationReport}

theorem intact_of_allPassed (h : PadesValidator.allPassed report.checks = true) :
    report.intact = true := by
  unfold PadesValidationReport.intact
  rw [List.all_eq_true]
  intro check hcheck
  by_cases hmandatory : check.mandatory = true
  · have hpassed := List.all_eq_true.mp h check (List.mem_filter.mpr ⟨hcheck, hmandatory⟩)
    rw [hpassed, Bool.or_true, Bool.true_or]
  · rw [Bool.eq_false_iff.mpr hmandatory, Bool.not_false, Bool.true_or, Bool.true_or]

theorem intact_of_pass (h : (PadesValidator.validate libraries now request).result = .PASS) :
    (PadesValidator.validate libraries now request).intact = true := by
  obtain ⟨result, hresult, hpassed, -⟩ := PadesValidator.validatedAs_of_pass h
  refine intact_of_allPassed ?_
  rw [PadesValidator.validate_eq hresult]
  exact hpassed

theorem admission_isOk : run.admission.isOk = true ↔ ∃ level ∈ run.requiredLevel,
    run.report.indication ∈ allowedValidationResults run.policy ∧
      run.report.levelEvidence.hasTrustedCertificatePath = true ∧
      (requiresTimestamp run.policy = true →
        run.report.levelEvidence.hasSignatureTimestamp = true) ∧
      level.rank ≤ run.report.levelEvidence.gateLevel.rank := by
  unfold PadesValidateRun.admission
  cases hlevel : run.requiredLevel with
  | none => exact iff_of_false nofun (by rintro ⟨_, h, -⟩; cases h)
  | some level =>
    constructor
    · intro hok
      cases hadmitted : padesAdmission run.policy (some level) run.payload.signatureArtifactId
          run.signedDocumentSha256 run.report with
      | error code =>
        rw [hadmitted] at hok
        cases hok
      | ok admitted =>
        obtain ⟨hallowed, hpath, htimestamp, hrank, -⟩ := padesAdmission_eq_ok.mp hadmitted
        exact ⟨level, rfl, hallowed, hpath, htimestamp, hrank⟩
    · rintro ⟨level', hlevel', hallowed, hpath, htimestamp, hrank⟩
      obtain rfl : level = level' := Option.some.inj hlevel'
      rw [padesAdmission_eq_ok.mpr ⟨hallowed, hpath, htimestamp, hrank, rfl⟩]
      rfl

theorem admitted_iff_inconclusive (hrun : run.report = report.toReport)
    (hfail : report.indication ≠ .TOTAL_PASSED) :
    run.admission.isOk = true ∧ report.intact = true ↔ Inconclusive run report := by
  rw [admission_isOk, hrun]
  constructor
  · rintro ⟨⟨level, hlevel, hallowed, hpath, htimestamp, hrank⟩, hintact⟩
    have hindication : report.indication = .INDETERMINATE :=
      (mem_allowedValidationResults hallowed).resolve_left hfail
    refine ⟨hindication, ?_, hpath, htimestamp, ⟨level, hlevel, hrank⟩, hintact⟩
    rw [← hindication]
    exact hallowed
  · rintro ⟨hindication, hallowed, hpath, htimestamp, ⟨level, hlevel, hrank⟩, hintact⟩
    refine ⟨⟨level, hlevel, ?_, hpath, htimestamp, hrank⟩, hintact⟩
    change report.indication ∈ _
    rw [hindication]
    exact hallowed

theorem admits_eq_true : run.admits = true ↔
    run.report.pass = true ∧ run.admission.isOk = true := by
  unfold PadesValidateRun.admits
  rw [Bool.and_eq_true]
  cases run.admission <;> rfl

theorem decidedByGate_iff_admits {db : Db} {attempt : SignatureAttempt}
    (hfound : db.attempt? run.payload.signatureAttemptId = some attempt)
    (hstatus : attempt.status = if run.admits then .validated else .failed) :
    DecidedByGate run report db ↔
      (run.admits = true ↔ run.admission.isOk = true ∧ report.intact = true) := by
  have hvalidated : (∃ attempt ∈ db.attempt? run.payload.signatureAttemptId,
      attempt.status = .validated) ↔ run.admits = true := by
    rw [hfound]
    cases hadmits : run.admits with
    | true =>
      rw [hadmits, if_pos rfl] at hstatus
      exact iff_of_true ⟨attempt, rfl, hstatus⟩ rfl
    | false =>
      rw [hadmits, if_neg Bool.false_ne_true] at hstatus
      refine iff_of_false ?_ Bool.false_ne_true
      rintro ⟨other, hother, h⟩
      obtain rfl : attempt = other := Option.some.inj hother
      rw [hstatus] at h
      cases h
  constructor
  · intro h
    rw [← hvalidated]
    exact h.validated
  · intro h
    refine ⟨hvalidated.trans h, fun hnot => ⟨attempt, hfound, ?_⟩⟩
    rw [hstatus, if_neg (mt h.mp hnot)]

end Gate

/-- The attempt ends as the gate would have it, unless the report is inconclusive and the gate
would admit it. -/
theorem decidedByGate_iff (libraries : ValidationLibraries) (validatedAt now : Time)
    (request : PadesValidationRequest) (payload : PadesValidatePayload) (db₀ db db' : Db)
    (run : PadesValidateRun) (attempt : SignatureAttempt)
    (hread : readPadesValidate db₀ payload
      (PadesValidator.validate libraries validatedAt request).toReport = .ok (some run))
    (hattempt : db.attempt? payload.signatureAttemptId = some attempt)
    (hcommit : commitValidation now run db = .ok ((), db')) :
    DecidedByGate run (PadesValidator.validate libraries validatedAt request) db' ↔
      ¬Inconclusive run (PadesValidator.validate libraries validatedAt request) := by
  obtain ⟨_, _, _, _, -, -, -, -, -, -, heq⟩ := readPadesValidate_eq hread
  have hrun : run.report =
      (PadesValidator.validate libraries validatedAt request).toReport := by rw [heq]
  have hpayload : run.payload = payload := by rw [heq]
  rw [← hpayload] at hattempt
  obtain ⟨attempt', hfound, hstatus⟩ := attempt?_of_commitValidation hcommit hattempt
  have hpass : run.report.pass = true ↔
      (PadesValidator.validate libraries validatedAt request).indication = .TOTAL_PASSED := by
    rw [hrun, ← PadesValidator.pass_iff]
    exact beq_iff_eq
  generalize hreport : PadesValidator.validate libraries validatedAt request = report at *
  by_cases hpassed : report.indication = .TOTAL_PASSED
  · -- a report that passed is intact, and the gate is asked
    have hintact : report.intact = true := by
      rw [← hreport] at hpassed ⊢
      exact intact_of_pass (PadesValidator.pass_iff.mpr hpassed)
    have hadmits : run.admits = true ↔ run.admission.isOk = true := by
      rw [admits_eq_true]
      exact and_iff_right (hpass.mpr hpassed)
    refine iff_of_true ?_ fun h => ?_
    · rw [decidedByGate_iff_admits hfound hstatus, hadmits]
      exact ⟨fun hok => ⟨hok, hintact⟩, fun hboth => hboth.1⟩
    · rw [h.indication] at hpassed
      cases hpassed
  · -- any other report fails the attempt, and the gate is not asked
    have hnot : ¬run.admits = true := fun hadmits =>
      hpassed (hpass.mp (admits_eq_true.mp hadmits).1)
    rw [decidedByGate_iff_admits hfound hstatus, admitted_iff_inconclusive hrun hpassed]
    exact ⟨fun h hinconclusive => hnot (h.mpr hinconclusive), fun h => iff_of_false hnot h⟩

/-! ## A signature of another profile -/

namespace Inconclusive

/-- Libraries that read every text as its bytes and answer the same on every document. -/
def libraries (result : SignedDocumentValidation) : ValidationLibraries where
  decodeBase64 text := some (utf8 text)
  sha256Hex _ := List.replicate 64 'a'
  generateCertificate bytes := some bytes
  extendedResultValidation _ _ := some result
  isRevocationCheckingActive := false

/-- A valid signature, which covers the document, of the profile or of another. -/
def oneSignature (isEtsiAdes : Bool) : SignedDocumentValidation where
  isSigned := true
  signatureCount := 1
  validSignatureCount := 1
  isValidSignatureSignsWholeDocument := true
  isCompleteSuccess := true
  signatureValidationResults := [⟨.SUCCESS, true, isEtsiAdes, none, some "CN=A".toList, false⟩]

def request : PadesValidationRequest where
  pdfBase64 := "JVBERi0=".toList
  expectedDocumentSha256 := List.replicate 64 'a'
  trustAnchorsBase64 := ["MIIB".toList]
  policyVersion := "kommunsign.pades-validation.v1".toList
  digest := by decide
  anchors := List.cons_ne_nil _ _

def report (isEtsiAdes : Bool) : PadesValidationReport :=
  PadesValidator.validate (libraries (oneSignature isEtsiAdes)) 0 request

/-- The signed attempt of signer 1, in a case whose policy allows an inconclusive validation. -/
def db : Db :=
  { Sessions.twoSigners.db with
    cases := [{ Sessions.signatureCase with
      policySnapshot := Json.object [("requiredPadesLevel", Json.lit "B"),
        ("allowedValidationResults",
          .arr [Json.lit "TOTAL_PASSED", Json.lit "INDETERMINATE"])] }]
    attempts := [⟨⟨1, 1, 1, 10, .TIC_BANKID⟩, 1, 1, .signed⟩]
    artifacts := [⟨1, 1, .B, .signed 1 1, 20, 10⟩] }

def payload : PadesValidatePayload := ⟨1, 1, 1, 1, .signed 1 1⟩

end Inconclusive

theorem Inconclusive.commits (isEtsiAdes : Bool) : ∃ run db',
    readPadesValidate Inconclusive.db Inconclusive.payload
        (Inconclusive.report isEtsiAdes).toReport = .ok (some run) ∧
      commitValidation 0 run Inconclusive.db = .ok ((), db') ∧
      run.payload = Inconclusive.payload ∧ run.admits = isEtsiAdes ∧
      run.admission.isOk = true ∧ (Inconclusive.report isEtsiAdes).intact = true := by
  obtain ⟨run, hread, hok, hfacts⟩ : ∃ run, readPadesValidate Inconclusive.db Inconclusive.payload
      (Inconclusive.report isEtsiAdes).toReport = .ok (some run) ∧
        (commitValidation 0 run Inconclusive.db).isOk = true ∧
        run.payload = Inconclusive.payload ∧ run.admits = isEtsiAdes ∧
        run.admission.isOk = true ∧ (Inconclusive.report isEtsiAdes).intact = true := by
    cases isEtsiAdes with
    | false =>
      refine ⟨_, rfl, ?_⟩
      decide +kernel
    | true =>
      refine ⟨_, rfl, ?_⟩
      decide +kernel
  cases hcommit : commitValidation 0 run Inconclusive.db with
  | error failure =>
    rw [hcommit] at hok
    cases hok
  | ok outcome => exact ⟨run, outcome.2, hread, hcommit, hfacts⟩

/-- The gate admits the report, and the attempt fails. -/
theorem inconclusive_report_fails : ∃ run db',
    readPadesValidate Inconclusive.db Inconclusive.payload (Inconclusive.report false).toReport =
        .ok (some run) ∧
      commitValidation 0 run Inconclusive.db = .ok ((), db') ∧
      ¬DecidedByGate run (Inconclusive.report false) db' := by
  obtain ⟨run, db', hread, hcommit, hpayload, hadmits, hok, hintact⟩ := Inconclusive.commits false
  refine ⟨run, db', hread, hcommit, fun h => ?_⟩
  have hattempt : Inconclusive.db.attempt? run.payload.signatureAttemptId =
      some ⟨⟨1, 1, 1, 10, .TIC_BANKID⟩, 1, 1, .signed⟩ := by
    rw [hpayload]
    rfl
  obtain ⟨attempt, hfound, hstatus⟩ := attempt?_of_commitValidation hcommit hattempt
  have hgate := (decidedByGate_iff_admits hfound hstatus).mp h
  rw [hgate.mpr ⟨hok, hintact⟩] at hadmits
  cases hadmits

/-- A signature of the profile passes, and its attempt ends as the gate would have it. -/
theorem decidedByGate_iff_passed : ∃ run db',
    commitValidation 0 run Inconclusive.db = .ok ((), db') ∧
      DecidedByGate run (Inconclusive.report true) db' := by
  obtain ⟨run, db', hread, hcommit, -⟩ := Inconclusive.commits true
  have hpassed : (Inconclusive.report true).indication ≠ .INDETERMINATE := by decide +kernel
  refine ⟨run, db', hcommit, ?_⟩
  refine (decidedByGate_iff (Inconclusive.libraries (Inconclusive.oneSignature true)) 0 0
    Inconclusive.request Inconclusive.payload Inconclusive.db Inconclusive.db db' run
    ⟨⟨1, 1, 1, 10, .TIC_BANKID⟩, 1, 1, .signed⟩ hread rfl hcommit).mpr fun h => ?_
  exact hpassed h.indication

end Kommunsign
