import Kommunsign.Infra.Timestamptz
import Kommunsign.Properties.TenantChains
import Kommunsign.Worker.AuditExport
import Kommunsign.Workflow.CaseAudits
import Kommunsign.Workflow.Identified

/-!
# What an evidence package exports of the audit log

A `Date` is written as an object without members, whatever its time. The export of a case is the
same for all times of its events, so neither the column nor the text that was hashed can be read
off it.

* `exportPreserves_iff` — it keeps every column, and what was hashed, only of no event at all
* `SealsCaseAudits` — an export has every event of its case, and no event of another one
* `not_sealsCaseAudits_of_queued` — when a package is built, there is one that does not
-/

namespace Kommunsign

open Infra

section AuditExport

open CanonicalJson

variable {tenantId signatureCaseId : UUID} {events : List AuditEvent}

/--
What is exported of a case tells the columns of its events, and the text of which each hash is: other
events with the same export have the same.
-/
structure ExportPreserves (tenantId signatureCaseId : UUID) (events : List AuditEvent) : Prop where
  written : ∃ text, auditExport tenantId signatureCaseId events = .ok text
  columns : ∀ events', auditExport tenantId signatureCaseId events' =
    auditExport tenantId signatureCaseId events →
      (caseAudits tenantId signatureCaseId events').map AuditEvent.columns =
        (caseAudits tenantId signatureCaseId events).map AuditEvent.columns
  hashed : ∀ events', auditExport tenantId signatureCaseId events' =
    auditExport tenantId signatureCaseId events →
      (caseAudits tenantId signatureCaseId events').map AuditEvent.material =
        (caseAudits tenantId signatureCaseId events).map AuditEvent.material

/-! ## The same events at another time -/

def AuditEvent.setOccurredAt (t : Timestamptz) (row : AuditEvent) : AuditEvent :=
  { row with occurredAt := t }

theorem caseAudits_setOccurredAt (t : Timestamptz) :
    caseAudits tenantId signatureCaseId (events.map (AuditEvent.setOccurredAt t)) =
      (caseAudits tenantId signatureCaseId events).map (AuditEvent.setOccurredAt t) := by
  unfold caseAudits
  rw [List.filter_map]
  exact (List.map_insertionSort sequenceLe sequenceLe (AuditEvent.setOccurredAt t) _
    fun _ _ _ _ => Iff.rfl).symm

theorem auditExport_setOccurredAt (t : Timestamptz) :
    auditExport tenantId signatureCaseId (events.map (AuditEvent.setOccurredAt t)) =
      auditExport tenantId signatureCaseId events := by
  unfold auditExport
  rw [caseAudits_setOccurredAt, List.mapM_map]
  rfl

theorem exists_not_eraAlike (t : Timestamptz) : ∃ t' : Timestamptz, ¬t'.EraAlike t := by
  cases t with
  | finite time => exact ⟨.infinity, fun h => h⟩
  | minusInfinity => exact ⟨.finite ⟨2026, 1, 1, 0, 0, 0, 0, by decide⟩, fun h => h⟩
  | infinity => exact ⟨.finite ⟨2026, 1, 1, 0, 0, 0, 0, by decide⟩, fun h => h⟩

theorem exists_otherHashed (h : caseAudits tenantId signatureCaseId events ≠ []) :
    ∃ events', auditExport tenantId signatureCaseId events' =
        auditExport tenantId signatureCaseId events ∧
      (caseAudits tenantId signatureCaseId events').map AuditEvent.material ≠
        (caseAudits tenantId signatureCaseId events).map AuditEvent.material := by
  obtain ⟨row, rows, hrows⟩ := List.exists_cons_of_ne_nil h
  obtain ⟨t, ht⟩ := exists_not_eraAlike row.occurredAt
  refine ⟨events.map (AuditEvent.setOccurredAt t), auditExport_setOccurredAt t, fun hsame => ?_⟩
  rw [caseAudits_setOccurredAt, hrows, List.map_cons, List.map_cons, List.map_cons] at hsame
  -- the first event was hashed with its time
  have hfields := material_eq_iff.mp (List.cons.inj hsame).1
  exact ht hfields.occurredAt

/-! ## No event at all -/

theorem encode_auditValue {row : ExportedColumns} {value : JsValue} (h : auditValue row = .ok value) :
    ∀ text, encode value = .ok text → ∃ tail, text = '{' :: tail := by
  intro text htext
  obtain ⟨payload, _, hvalue⟩ := except_bind_eq_ok.mp h
  cases hvalue
  obtain ⟨entries, _, hentries⟩ := except_bind_eq_ok.mp htext
  exact ⟨_, (Except.ok.inj hentries).symm⟩

theorem auditExport_nil (h : caseAudits tenantId signatureCaseId events = []) :
    auditExport tenantId signatureCaseId events = .ok "[]".toList := by
  unfold auditExport
  rw [h]
  rfl

theorem caseAudits_of_auditExport
    (h : auditExport tenantId signatureCaseId events = .ok "[]".toList) :
    caseAudits tenantId signatureCaseId events = [] := by
  obtain ⟨values, hvalues, hencode⟩ := except_bind_eq_ok.mp h
  cases hrows : caseAudits tenantId signatureCaseId events with
  | nil => rfl
  | cons row rows =>
    exfalso
    rw [hrows, List.mapM_cons] at hvalues
    obtain ⟨value, hvalue, hvalues⟩ := except_bind_eq_ok.mp hvalues
    obtain ⟨rest, _, hvalues⟩ := except_bind_eq_ok.mp hvalues
    cases hvalues
    cases harray : encode (.array (value :: rest)) with
    | error e =>
      rw [harray] at hencode
      exact nomatch hencode
    | ok text =>
      rw [harray] at hencode
      have htext : text = "[]".toList := Except.ok.inj hencode
      -- the text of the first row stands after the bracket
      obtain ⟨texts, htexts, hjoined⟩ := except_bind_eq_ok.mp harray
      obtain ⟨first, hfirst, htexts⟩ := except_bind_eq_ok.mp htexts
      obtain ⟨others, _, htexts⟩ := except_bind_eq_ok.mp htexts
      cases htexts
      obtain ⟨tail, rfl⟩ := encode_auditValue hvalue first hfirst
      obtain ⟨tail', htail⟩ := joinComma_cons ('{' :: tail) others
      have hbracket : '[' :: (joinComma (('{' :: tail) :: others) ++ [']']) = "[]".toList :=
        (Except.ok.inj hjoined).trans htext
      rw [htail] at hbracket
      exact absurd (List.cons.inj (List.cons.inj hbracket).2).1 (by decide)

/-- **The export keeps the columns of its events, and what was hashed, only when it has none.** -/
theorem exportPreserves_iff (tenantId signatureCaseId : UUID) (events : List AuditEvent) :
    ExportPreserves tenantId signatureCaseId events ↔
      caseAudits tenantId signatureCaseId events = [] := by
  constructor
  · intro h
    by_contra hne
    obtain ⟨events', hexport, hhashed⟩ := exists_otherHashed hne
    exact hhashed (h.hashed events' hexport)
  · intro h
    have hnone : ∀ events', auditExport tenantId signatureCaseId events' =
        auditExport tenantId signatureCaseId events →
          caseAudits tenantId signatureCaseId events' = [] :=
      fun events' hexport => caseAudits_of_auditExport (hexport.trans (auditExport_nil h))
    refine ⟨⟨_, auditExport_nil h⟩, fun events' hexport => ?_, fun events' hexport => ?_⟩
    · rw [hnone events' hexport, h]
    · rw [hnone events' hexport, h]

def openedEvent : AuditEvent where
  tenantId := "t"
  sequence := 1
  category := "BUSINESS"
  eventType := "signature_case.created"
  actorType := "user"
  actorId := none
  resourceType := some "signature_case"
  resourceId := some "c"
  payload := ⟨.obj [], rfl, by simp [Json.WellNamed, Json.WellNamedMembers]⟩
  occurredAt := .finite ⟨2026, 1, 1, 0, 0, 0, 0, by decide⟩
  previousEventHash := firstHead.lastEventHash
  eventHash := []
  hashVersion := 2
  hashMaterial := []

/-- The export of the case does not say that it was opened then. -/
theorem openedEvent_time_lost : ¬ExportPreserves "t" "c" [openedEvent] := by
  intro h
  have hcolumns := h.columns _ (auditExport_setOccurredAt .infinity)
  have htimes := congrArg (List.map ExportedColumns.occurredAt) hcolumns
  exact nomatch htimes

end AuditExport

/-!
# The audit events that an evidence package seals

The export of a case takes the events that name the case, or have its id in their payload. The
handlers that collect evidence, sign and validate name their session or their artifact instead, and
leave the id out, so their events are in no export.
-/

/-- An export that is read in this state has exactly the events that belong to the case. -/
structure SealsCaseAudits (uuid : AuditedRow → UUID) (s : AuditedSys) (signatureCaseId : Id) :
    Prop where
  complete : ∀ row ∈ s.audits, s.sys.db.caseOf? row.resource = some signatureCaseId →
    row ∈ caseExport uuid signatureCaseId s.audits
  exclusive : ∀ row ∈ caseExport uuid signatureCaseId s.audits,
    s.sys.db.caseOf? row.resource = some signatureCaseId

/-- The row comes from a call for its type, and a case in its payload is that of its resource. -/
structure CaseAudit.WellMade (db : Db) (row : CaseAudit) (call : CaseAuditCall) : Prop where
  made : row.eventType.auditCall? = some call
  table : row.resource.table = call.table
  unnamed : call.namesCase = false → row.payloadCase = none
  named : call.namesCase = true →
    ∃ c, row.payloadCase = some c ∧ db.caseOf? row.resource = some c

structure AuditsOk (s : AuditedSys) : Prop where
  recorded : ∀ event ∈ s.sys.db.auditEvents, ∀ call, event.eventType.auditCall? = some call →
    ∃ row ∈ s.audits, row.eventType = event.eventType ∧ row.resource = ⟨call.table, event.resourceId⟩
  wellMade : ∀ row ∈ s.audits, ∃ call, row.WellMade s.sys.db call
  admitted : ∀ c, s.sys.db.PackageQueued c →
    ∃ id, ⟨.audit, .signature_pades_admitted, id⟩ ∈ s.sys.db.auditEvents ∧
      s.sys.db.caseOf? ⟨.signature_artifact, id⟩ = some c

/-! ## The case of a row -/

section Cases

variable {db : Db} {id c : Id}

theorem caseOf?_signer : db.caseOf? ⟨.signer, id⟩ = some c ↔
    ∃ signer, db.signer? id = some signer ∧ signer.signatureCaseId = c :=
  Option.map_eq_some_iff

theorem caseOf?_transaction : db.caseOf? ⟨.identity_transaction, id⟩ = some c ↔
    ∃ row, loadStarted db id = .ok row ∧ row.2.signatureCaseId = c := by
  simp only [Db.caseOf?, Option.bind_eq_bind, Option.bind_eq_some_iff, Option.pure_def,
    Option.some.injEq, loadStarted_eq_ok]
  constructor
  · rintro ⟨t, ht, signingIntentId, hof, si, hsi, rfl⟩
    exact ⟨(t, si), ⟨ht, signingIntentId, hof, hsi⟩, rfl⟩
  · rintro ⟨⟨t, si⟩, ⟨ht, signingIntentId, hof, hsi⟩, rfl⟩
    exact ⟨t, ht, signingIntentId, hof, si, hsi, rfl⟩

theorem caseOf?_artifact : db.caseOf? ⟨.signature_artifact, id⟩ = some c ↔
    ∃ artifact attempt signer, db.artifact? id = some artifact ∧
      db.attempt? artifact.signatureAttemptId = some attempt ∧
      db.signer? attempt.signerId = some signer ∧ signer.signatureCaseId = c := by
  simp only [Db.caseOf?, Option.bind_eq_bind, Option.bind_eq_some_iff, Option.pure_def,
    Option.some.injEq]
  constructor
  · rintro ⟨artifact, hartifact, attempt, hattempt, signer, hsigner, hcase⟩
    exact ⟨artifact, attempt, signer, hartifact, hattempt, hsigner, hcase⟩
  · rintro ⟨artifact, attempt, signer, hartifact, hattempt, hsigner, hcase⟩
    exact ⟨artifact, hartifact, attempt, hattempt, signer, hsigner, hcase⟩

end Cases

section Steps

variable {s s' : Sys} {i : Step} {c : Id}

theorem caseOf?_of_step (hstep : Sys.step s i = some s') {row : AuditedRow}
    (h : s.db.caseOf? row = some c) : s'.db.caseOf? row = some c := by
  obtain ⟨table, id⟩ := row
  cases table with
  | signature_case | evidence_package => exact h
  | signer =>
    obtain ⟨signer, hsigner, rfl⟩ := caseOf?_signer.mp h
    obtain ⟨signer', hsigner', hchange⟩ := signer?_of_step hstep hsigner
    exact caseOf?_signer.mpr ⟨signer', hsigner', hchange.toSignerMove.signatureCaseId⟩
  | identity_transaction =>
    obtain ⟨row, hrow, rfl⟩ := caseOf?_transaction.mp h
    obtain ⟨row', hrow', hchange⟩ := loadStarted_of_step hstep hrow
    exact caseOf?_transaction.mpr ⟨row', hrow', hchange.toIntentMove.signatureCaseId⟩
  | signature_artifact =>
    obtain ⟨artifact, attempt, signer, hartifact, hattempt, hsigner, rfl⟩ := caseOf?_artifact.mp h
    obtain ⟨attempt', hattempt', hmove⟩ := attempt?_of_step hstep hattempt
    obtain ⟨signer', hsigner', hchange⟩ := signer?_of_step hstep hsigner
    refine caseOf?_artifact.mpr ⟨artifact, attempt', signer', artifact?_of_step hstep hartifact,
      hattempt', ?_, hchange.toSignerMove.signatureCaseId⟩
    rw [hmove.toAttemptMove.signerId]
    exact hsigner'

theorem signer?_of_intent (hprepared : Prepared s) {si : SigningIntent} (hsi : si ∈ s.db.intents) :
    ∃ signer, s.db.signer? si.signerId = some signer ∧
      signer.signatureCaseId = si.signatureCaseId := by
  obtain ⟨_, signer, -, -, hsigner, hcase⟩ := hprepared.sent si hsi
  exact ⟨signer, hsigner, hcase⟩

theorem caseOf?_of_signatureOf (hprepared : Prepared s) {payload : PadesValidatePayload}
    {signerId : Id} (h : s.db.SignatureOf payload signerId c) :
    s.db.caseOf? ⟨.signature_artifact, payload.signatureArtifactId⟩ = some c := by
  obtain ⟨artifact, attempt, si, hartifact, howner, hattempt, hsigner, hsi, hof, rfl, -⟩ := h
  obtain ⟨signer, hfound, hcase⟩ := signer?_of_intent hprepared (List.mem_of_find?_eq_some hsi)
  refine caseOf?_artifact.mpr ⟨artifact, attempt, signer, hartifact, howner ▸ hattempt, ?_, hcase⟩
  rw [hsigner, ← hof]
  exact hfound

theorem handlerCase?_of_recorded (hreachable : s.Reachable) {event : Event}
    (h : RecordedBy s i event) {call : CaseAuditCall} (hcall : event.eventType.auditCall? = some call)
    (hnames : call.namesCase = true) : ∃ c, s.handlerCase? i = some c ∧
      s.db.caseOf? ⟨call.table, event.resourceId⟩ = some c := by
  have hprepared := prepared_of_reachable hreachable
  cases h with
  | expires c | completes c | packages c =>
    obtain rfl := Option.some.inj hcall
    exact ⟨c, rfl, rfl⟩
  | reminds c signer hsigner =>
    obtain rfl := Option.some.inj hcall
    obtain ⟨row, hrow, hsigner⟩ := List.mem_flatMap.mp hsigner
    obtain ⟨_, -, rfl⟩ := List.mem_map.mp hsigner
    obtain ⟨hmem, hof⟩ := List.mem_filter.mp hrow
    simp only [Bool.and_eq_true, beq_iff_eq] at hof
    have hkeyed := (standing_of_reachable hreachable).signersKeyed
    exact ⟨c, rfl, caseOf?_signer.mpr ⟨row, find?_of_mem hkeyed hmem, hof.1.1.1⟩⟩
  | identifies index t pass row ht hrow =>
    obtain rfl := Option.some.inj hcall
    obtain ⟨-, _, -, hsi⟩ := loadStarted_eq_ok.mp hrow
    obtain ⟨signer, hsigner, hcase⟩ := signer?_of_intent hprepared (List.mem_of_find?_eq_some hsi)
    refine ⟨row.2.signatureCaseId, ?_, caseOf?_signer.mpr ⟨signer, hsigner, hcase⟩⟩
    simp only [Sys.handlerCase?, ht, hrow, Except.toOption, Option.bind_eq_bind, Option.bind_some,
      Option.pure_def]
  | signs index run hrun =>
    obtain rfl := Option.some.inj hcall
    obtain ⟨_, _, si, -, -, -, -, hsi, hof, hcase, -⟩ :=
      (attributed_of_reachable hreachable).validates run (List.mem_of_getElem? hrun)
    obtain ⟨signer, hsigner, hsame⟩ := signer?_of_intent hprepared (List.mem_of_find?_eq_some hsi)
    refine ⟨run.signatureCaseId, ?_, caseOf?_signer.mpr ⟨signer, hof ▸ hsigner, hsame.trans hcase⟩⟩
    simp only [Sys.handlerCase?, hrun, Option.map_some]
  | invites index run signer hrun hsigner hcase =>
    obtain rfl := Option.some.inj hcall
    have hkeyed := (standing_of_reachable hreachable).signersKeyed
    refine ⟨run.signatureCaseId, ?_,
      caseOf?_signer.mpr ⟨signer, find?_of_mem hkeyed hsigner, hcase⟩⟩
    simp only [Sys.handlerCase?, hrun, Option.map_some]
  | refuses index run =>
    -- the payload of neither refusal has the case
    unfold PadesValidateRun.refusal at hcall
    split at hcall <;> · obtain rfl := Option.some.inj hcall; cases hnames
  | revokes | collects | failsIdentity | rejects | verifies | creates | admits =>
    obtain rfl := Option.some.inj hcall
    cases hnames

theorem admitted_of_completes {db db' : Db} {now : Time} {run : PadesValidateRun}
    (hcompletes : db.completes run = true) (hok : commitValidation now run db = .ok ((), db')) :
    ⟨.audit, .signature_pades_admitted, run.payload.signatureArtifactId⟩ ∈ db'.auditEvents := by
  have hadmits : run.admits = true := (Bool.and_eq_true_iff.mp hcompletes).1
  have hadded : ⟨.audit, .signature_pades_admitted, run.payload.signatureArtifactId⟩ ∈
      (db.withValidation run).auditEvents := by
    have happend := auditEvents_append db
      [⟨.audit, .signature_pades_admitted, run.payload.signatureArtifactId⟩]
    exact happend ▸ List.mem_append_right _ List.mem_cons_self
  rcases commitValidation_eq hok with ⟨hrefused, -⟩ | ⟨-, ⟨-, hnot, -⟩ | ⟨-, hcompleted⟩⟩
  · rw [hrefused] at hadmits
    cases hadmits
  · rw [hcompletes] at hnot
    cases hnot
  · -- what follows the admission leaves it in the log
    have hkept : Grows Db.auditEvents (fun _ => True) (db.withValidation run) db' :=
      records_completeSigner trivial (fun _ _ _ => trivial) () db' hcompleted
    exact hkept.subset hadded

theorem admitted_of_queued (hreachable : s.Reachable) (hstep : Sys.step s i = some s')
    (hqueued : s'.db.PackageQueued c) : s.db.PackageQueued c ∨
      ∃ id, ⟨.audit, .signature_pades_admitted, id⟩ ∈ s'.db.auditEvents ∧
        s'.db.caseOf? ⟨.signature_artifact, id⟩ = some c := by
  have hjob : ∃ job ∈ s'.db.jobs, job = .casePackage c ∨ ∃ x, job = .signerPackage c x := by
    rcases hqueued with h | ⟨x, h⟩
    · exact ⟨_, h, Or.inl rfl⟩
    · exact ⟨_, h, Or.inr ⟨x, rfl⟩⟩
  obtain ⟨job, hmem, hjob⟩ := hjob
  have hold : job ∈ s.db.jobs → s.db.PackageQueued c := by
    intro h
    rcases hjob with rfl | ⟨x, rfl⟩
    · exact Or.inl h
    · exact Or.inr ⟨x, h⟩
  rcases intake_or_leaves hstep with ⟨intake, rfl, -, rfl⟩ | hleaves
  · exact Or.inl (hold hmem)
  rcases hleaves.jobs job hmem with h | h
  · exact Or.inl (hold h)
  obtain ⟨index, run, rfl, hrun, rfl, hcompletes⟩ := packages_of_effect hjob h
  have hsignature := (attributed_of_reachable hreachable).validates run (List.mem_of_getElem? hrun)
  have hcase := caseOf?_of_signatureOf (prepared_of_reachable hreachable) hsignature
  refine Or.inr ⟨run.payload.signatureArtifactId, ?_, caseOf?_of_step hstep hcase⟩
  obtain ⟨run', db, hrun', hok, rfl⟩ := step_commitValidation hstep
  obtain rfl := Option.some.inj (hrun.symm.trans hrun')
  exact admitted_of_completes hcompletes hok

end Steps

/-! ## The log of a run -/

theorem caseAudit?_eq_some {s : Sys} {i : Step} {event : Event} {row : CaseAudit} :
    s.caseAudit? i event = some row ↔ ∃ call, event.eventType.auditCall? = some call ∧
      row = ⟨event.eventType, ⟨call.table, event.resourceId⟩,
        if call.namesCase then s.handlerCase? i else none⟩ := by
  unfold Sys.caseAudit?
  rw [Option.map_eq_some_iff]
  simp only [eq_comm]

section Log

variable {s s' : AuditedSys} {i : Step}

theorem AuditedSys.step_eq (h : AuditedSys.step s i = some s') :
    Sys.step s.sys i = some s'.sys ∧ ∃ added,
      s'.sys.db.auditEvents = s.sys.db.auditEvents ++ added ∧
      (∀ event ∈ added, RecordedBy s.sys i event) ∧
      s'.audits = s.audits ++ added.filterMap (s.sys.caseAudit? i) := by
  simp only [AuditedSys.step, Option.bind_eq_bind, Option.bind_eq_some_iff, Option.some.injEq] at h
  obtain ⟨sys, hstep, rfl⟩ := h
  obtain ⟨hlog, hadded⟩ := (auditEvents_of_step hstep).eq_append_drop
  exact ⟨hstep, _, hlog, hadded, rfl⟩

theorem CaseAudit.WellMade.of_step {row : CaseAudit} {call : CaseAuditCall}
    (h : row.WellMade s.sys.db call) (hstep : Sys.step s.sys i = some s'.sys) :
    row.WellMade s'.sys.db call where
  made := h.made
  table := h.table
  unnamed := h.unnamed
  named hnames := by
    obtain ⟨c, hpayload, hcase⟩ := h.named hnames
    exact ⟨c, hpayload, caseOf?_of_step hstep hcase⟩

theorem wellMade_of_recorded (hreachable : s.sys.Reachable) {event : Event} {row : CaseAudit}
    (hrecorded : RecordedBy s.sys i event) (hrow : s.sys.caseAudit? i event = some row) :
    ∃ call, row.WellMade s.sys.db call := by
  obtain ⟨call, hcall, rfl⟩ := caseAudit?_eq_some.mp hrow
  refine ⟨call, hcall, rfl, fun hunnamed => ?_, fun hnames => ?_⟩
  · simp only [hunnamed, Bool.false_eq_true, if_false]
  · simp only [hnames, if_true]
    exact handlerCase?_of_recorded hreachable hrecorded hcall hnames

theorem auditsOk_of_step (hreachable : s.sys.Reachable) (h : AuditsOk s)
    (hstep : AuditedSys.step s i = some s') : AuditsOk s' := by
  obtain ⟨hsys, added, hlog, hrecorded, haudits⟩ := AuditedSys.step_eq hstep
  refine ⟨?_, ?_, ?_⟩
  · intro event hevent call hcall
    rw [haudits]
    rw [hlog] at hevent
    rcases List.mem_append.mp hevent with hold | hnew
    · obtain ⟨row, hrow, htype, hresource⟩ := h.recorded event hold call hcall
      exact ⟨row, List.mem_append_left _ hrow, htype, hresource⟩
    · have hrow := caseAudit?_eq_some (s := s.sys) (i := i).mpr ⟨call, hcall, rfl⟩
      exact ⟨_, List.mem_append_right _ (List.mem_filterMap.mpr ⟨event, hnew, hrow⟩), rfl, rfl⟩
  · intro row hrow
    rw [haudits] at hrow
    have hmade : ∃ call, row.WellMade s.sys.db call := by
      rcases List.mem_append.mp hrow with hold | hnew
      · exact h.wellMade row hold
      · obtain ⟨event, hevent, hrow⟩ := List.mem_filterMap.mp hnew
        exact wellMade_of_recorded hreachable (hrecorded event hevent) hrow
    obtain ⟨call, hmade⟩ := hmade
    exact ⟨call, hmade.of_step hsys⟩
  · intro c hqueued
    rcases admitted_of_queued hreachable hsys hqueued with hold | hnew
    · obtain ⟨id, hevent, hcase⟩ := h.admitted c hold
      refine ⟨id, ?_, caseOf?_of_step hsys hcase⟩
      rw [hlog]
      exact List.mem_append_left _ hevent
    · exact hnew

end Log

theorem auditsOk_start (tenantId : Text) (organizationName : Option Text) (rollout : Bool)
    (clock : Time) : AuditsOk (AuditedSys.start tenantId organizationName rollout clock) where
  recorded _ h := absurd h List.not_mem_nil
  wellMade _ h := absurd h List.not_mem_nil
  admitted _ h := by
    rcases h with h | ⟨_, h⟩ <;> exact absurd h List.not_mem_nil

theorem auditsOk_of_reachable {s : AuditedSys} (h : s.Reachable) : AuditsOk s := by
  obtain ⟨tenantId, organizationName, rollout, clock, steps, hrun⟩ := h
  have hkeeps : ∀ s i s', s.sys.Reachable ∧ AuditsOk s → AuditedSys.step s i = some s' →
      s'.sys.Reachable ∧ AuditsOk s' := by
    intro s i s' ⟨hreachable, hok⟩ hstep
    have hsys := (AuditedSys.step_eq hstep).1
    exact ⟨hreachable.of_step hsys, auditsOk_of_step hreachable hok hstep⟩
  have hstart : (Sys.start tenantId organizationName rollout clock).Reachable :=
    ⟨tenantId, organizationName, rollout, clock, [], rfl⟩
  exact (run_invariant hkeeps ⟨hstart, auditsOk_start tenantId organizationName rollout clock⟩
    hrun).2

/-! ## What an export misses -/

section Export

variable {uuid : AuditedRow → UUID} {s : AuditedSys} {c : Id}

theorem isOfCase_iff (huuid : Function.Injective uuid) {row : CaseAudit} :
    row.isOfCase uuid c = true ↔
      row.resource = ⟨.signature_case, c⟩ ∨ row.payloadCase = some c := by
  unfold CaseAudit.isOfCase
  rw [Bool.or_eq_true, beq_iff_eq, beq_iff_eq, huuid.eq_iff, Option.map_eq_some_iff]
  refine or_congr_right ⟨?_, fun h => ⟨c, h, rfl⟩⟩
  rintro ⟨c', hpayload, hsame⟩
  have hid : c' = c := congrArg AuditedRow.id (huuid hsame)
  rw [← hid]
  exact hpayload

theorem namesCase_of_table {eventType : EventType} {call : CaseAuditCall}
    (hcall : eventType.auditCall? = some call) (htable : call.table = .signature_case) :
    call.namesCase = true := by
  unfold EventType.auditCall? at hcall
  split at hcall <;> cases hcall <;> first | rfl | cases htable

theorem exported_iff (huuid : Function.Injective uuid) (hreachable : s.Reachable)
    {row : CaseAudit} (hrow : row ∈ s.audits) : row.isOfCase uuid c = true ↔
      s.sys.db.caseOf? row.resource = some c ∧ row.eventType.namesCase = true := by
  obtain ⟨call, hmade⟩ := (auditsOk_of_reachable hreachable).wellMade row hrow
  have hnames : row.eventType.namesCase = call.namesCase := by
    unfold EventType.namesCase
    rw [hmade.made, Option.any_some]
  rw [isOfCase_iff huuid, hnames]
  constructor
  · intro h
    have hnamed : call.namesCase = true := by
      rcases h with hresource | hpayload
      · refine namesCase_of_table hmade.made ?_
        rw [← hmade.table, hresource]
      · by_contra hnot
        rw [hmade.unnamed (Bool.not_eq_true _ ▸ hnot)] at hpayload
        cases hpayload
    obtain ⟨c', hpayload', hcase⟩ := hmade.named hnamed
    refine ⟨?_, hnamed⟩
    rcases h with hresource | hpayload
    · rw [hresource]
      rfl
    · rw [hpayload'] at hpayload
      exact hcase.trans hpayload
  · rintro ⟨hof, hnamed⟩
    obtain ⟨c', hpayload, hcase⟩ := hmade.named hnamed
    rw [hcase] at hof
    exact Or.inr (hpayload.trans hof)

theorem sealsCaseAudits_iff (huuid : Function.Injective uuid) (hreachable : s.Reachable) :
    SealsCaseAudits uuid s c ↔ ∀ row ∈ s.audits, s.sys.db.caseOf? row.resource = some c →
      row.eventType.namesCase = true := by
  constructor
  · intro hseals row hrow hcase
    have hexported := (List.mem_filter.mp (hseals.complete row hrow hcase)).2
    exact ((exported_iff huuid hreachable hrow).mp hexported).2
  · intro h
    refine ⟨fun row hrow hcase => ?_, fun row hexported => ?_⟩
    · have hnames := h row hrow hcase
      exact List.mem_filter.mpr ⟨hrow, (exported_iff huuid hreachable hrow).mpr ⟨hcase, hnames⟩⟩
    · obtain ⟨hrow, hof⟩ := List.mem_filter.mp hexported
      exact ((exported_iff huuid hreachable hrow).mp hof).1

/-- When a package of the case is built, an admitted signature of it is missing from the export. -/
theorem not_sealsCaseAudits_of_queued (huuid : Function.Injective uuid) (hreachable : s.Reachable)
    (hqueued : s.sys.db.PackageQueued c) : ¬SealsCaseAudits uuid s c := by
  intro hseals
  have hok := auditsOk_of_reachable hreachable
  obtain ⟨id, hevent, hcase⟩ := hok.admitted c hqueued
  obtain ⟨row, hrow, htype, hresource⟩ := hok.recorded _ hevent ⟨.signature_artifact, false⟩ rfl
  rw [← hresource] at hcase
  have hnames := (sealsCaseAudits_iff huuid hreachable).mp hseals row hrow hcase
  rw [htype] at hnames
  cases hnames

end Export

namespace SealedAudits

def digit : AuditedTable → Nat
  | .signature_case => 0
  | .signer => 1
  | .identity_transaction => 2
  | .signature_artifact => 3
  | .evidence_package => 4

/-- An id for each row: the digits of its number, and the one of its table. -/
def rowUuid (row : AuditedRow) : UUID :=
  String.ofList ("00000000-0000-4000-8000-".toList ++ padded 12 (row.id * 10 + digit row.table))

theorem digit_lt (table : AuditedTable) : digit table < 10 := by
  cases table <;> decide

theorem digit_injective : Function.Injective digit := by
  intro table table' h
  cases table <;> cases table' <;> first | rfl | cases h

theorem eq_of_digits {n m d e : Nat} (h : n * 10 + d = m * 10 + e) (hd : d < 10) (he : e < 10) :
    n = m ∧ d = e := by
  omega

theorem rowUuid_injective : Function.Injective rowUuid := by
  rintro ⟨table, id⟩ ⟨table', id'⟩ h
  have hnumber := padded_injective 12 (List.append_cancel_left (String.ofList_injective h))
  obtain ⟨hid, hdigit⟩ := eq_of_digits hnumber (digit_lt table) (digit_lt table')
  have htable := digit_injective hdigit
  rw [AuditedRow.mk.injEq]
  exact ⟨htable, hid⟩

def signed : List Step :=
  [.prepareCase (Intake.sample 1 [(1, true)]), .send 1 idText] ++ Step.identify 0 0 ++
    Step.sign 0 1 100 200 ++ Step.validate ⟨0, 1, 1, 0, .signed 0 0⟩

end SealedAudits

open SealedAudits in
/-- The package of the only signer is queued; its export lacks the admission of the signature. -/
theorem not_sealsCaseAudits_signed :
    ∃ s, AuditedSys.after signed = some s ∧ ¬SealsCaseAudits rowUuid s 1 := by
  obtain ⟨s, hs, hqueued⟩ : ∃ s ∈ AuditedSys.after signed, .casePackage 1 ∈ s.sys.db.jobs := by
    decide +kernel
  exact ⟨s, hs, not_sealsCaseAudits_of_queued rowUuid_injective ⟨_, _, _, _, signed, hs⟩
    (Or.inl hqueued)⟩

open SealedAudits in
/-- The signature and its admission, and the evidence before it, are in no export of the case. -/
theorem not_sealsCaseAudits_all : ¬∀ uuid : AuditedRow → UUID, Function.Injective uuid →
    ∀ s : AuditedSys, s.Reachable → ∀ c, s.sys.db.PackageQueued c → SealsCaseAudits uuid s c := by
  intro hall
  obtain ⟨s, hs, hqueued, row, hrow, hcase, hnot⟩ :
      ∃ s ∈ AuditedSys.after signed, .casePackage 1 ∈ s.sys.db.jobs ∧ ∃ row ∈ s.audits,
        s.sys.db.caseOf? row.resource = some 1 ∧ row ∉ caseExport rowUuid 1 s.audits := by
    decide +kernel
  have hseals := hall rowUuid rowUuid_injective s ⟨_, _, _, _, signed, hs⟩ 1 (Or.inl hqueued)
  exact hnot (hseals.complete row hrow hcase)

end Kommunsign
