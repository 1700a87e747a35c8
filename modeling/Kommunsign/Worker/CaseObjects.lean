import Kommunsign.Infra.Run
import Kommunsign.Worker.RetentionRuns

/-!
# The objects of a case

The job asks five sources for the keys of a case. Rows of further tables name objects as well: what
is recorded of an identification or a signature refers, by way of other rows, to a document version,
and some rows are of the case itself.

* `VersionTable`, `EvidenceRow`, `EvidenceOf` — rows that hang on a document version
* `CaseRecord` — rows of the case itself
-/

namespace Kommunsign

open Infra

/-! ## The rows -/

/-- The tables whose rows hang on a document version. -/
inductive VersionTable where
  -- raw_evidence_object_key
  | identity_transactions
  -- visible_data_, non_visible_data_, signature_value_ and ocsp_response_object_key
  | bankid_transactions
  -- jws_object_key
  | freja_transactions
  -- collect_response_, signature_xml_, ocsp_response_ and verification_report_object_key
  | tic_identity_artifacts
  -- response_, jws_ and verification_report_object_key
  | freja_identity_artifacts
  -- object_key
  | document_render_snapshots
  -- none of its own
  | signature_attempts
  -- signed_document_ and signature_value_object_key
  | signature_artifacts
  -- certificate_object_key
  | signature_certificates
  -- chain_object_key
  | certificate_chains
  -- object_key
  | ocsp_evidence
  -- object_key
  | crl_evidence
  -- token_object_key
  | timestamp_tokens
  -- trust_list_snapshot_, machine_report_ and human_report_object_key
  | validation_runs
  -- object_key
  | validation_reports
  deriving DecidableEq

/-- The table that the rows refer to; `none` is `document_versions`. -/
def VersionTable.references : VersionTable → Option VersionTable
  | .identity_transactions | .document_render_snapshots | .signature_attempts => none
  | .bankid_transactions | .freja_transactions | .tic_identity_artifacts
  | .freja_identity_artifacts => some .identity_transactions
  | .signature_artifacts => some .signature_attempts
  | .signature_certificates | .certificate_chains | .ocsp_evidence | .crl_evidence
  | .timestamp_tokens | .validation_runs => some .signature_artifacts
  | .validation_reports => some .validation_runs

structure EvidenceRow where
  table : VersionTable
  id : UUID
  /-- The id of the row that it refers to. -/
  reference : UUID
  objectKeys : List StoredKey
  deriving DecidableEq

/-- The rows that hang on the document version. -/
inductive EvidenceOf (rows : List EvidenceRow) (versionId : UUID) : EvidenceRow → Prop
  | version {row : EvidenceRow} (hrow : row ∈ rows) (htable : row.table.references = none)
      (hreference : row.reference = versionId) : EvidenceOf rows versionId row
  | evidence {parent row : EvidenceRow} (hparent : EvidenceOf rows versionId parent)
      (hrow : row ∈ rows) (htable : row.table.references = some parent.table)
      (hreference : row.reference = parent.id) : EvidenceOf rows versionId row

/-- The tables whose rows are of a case, or of a signing intent of the case. -/
inductive CaseTable where
  -- package_ and descriptor_object_key
  | archive_exports
  -- manifest_object_key
  | signing_intent_manifests
  -- final_document_ and verification_report_object_key
  | external_signature_transactions
  deriving DecidableEq

structure CaseRecord where
  table : CaseTable
  signatureCaseId : UUID
  objectKeys : List StoredKey
  deriving DecidableEq

/-- A tenant with all the rows that name objects. -/
structure CaseStore where
  data : RetentionData
  evidence : List EvidenceRow
  records : List CaseRecord
  /-- The foreign keys to `document_versions`. -/
  referenced : ∀ row ∈ evidence, row.table.references = none →
    row.reference ∈ data.versionReferences
  deriving DecidableEq

/-- A row of the case names the object. -/
inductive CaseStore.Names (store : CaseStore) (caseId : UUID) (key : StoredKey) : Prop
  | source (hkey : key ∈ store.data.caseObjectKeys caseId)
  | record {record : CaseRecord} (hrecord : record ∈ store.records)
      (hcase : record.signatureCaseId = caseId) (hkey : key ∈ record.objectKeys)
  | evidence {version : RetainedVersion} {row : EvidenceRow}
      (hversion : version ∈ store.data.versionsOf caseId)
      (hrow : EvidenceOf store.evidence version.id row) (hkey : key ∈ row.objectKeys)

/-! ## The steps -/

/-- No statement of a gallring changes the rows that refer to a version. -/
def CaseStore.put (store : CaseStore) (data : RetentionData) : CaseStore where
  data := { data with versionReferences := store.data.versionReferences }
  evidence := store.evidence
  records := store.records
  referenced := store.referenced

inductive CaseStep where
  /-- Time passes, and everything but the runs changes in any way. -/
  | surroundings (next : CaseStore)
  | gallring (step : RetentionStep)

def caseStep (store : CaseStore) : CaseStep → Option CaseStore
  | .surroundings next => some
      { data := { next.data with
          tenantId := store.data.tenantId
          jobs := store.data.jobs
          reports := store.data.reports
          executions := store.data.executions }
        evidence := next.evidence
        records := next.records
        referenced := next.referenced }
  | .gallring step => (retentionStep store.data step).map store.put

theorem CaseStore.put_runsOk {store : CaseStore} {data : RetentionData} (h : RunsOk data) :
    RunsOk (store.put data).data := ⟨h.ids, h.jobs, h.reported⟩

theorem caseStep_runsOk {store store' : CaseStore} {step : CaseStep} (hok : RunsOk store.data)
    (h : caseStep store step = some store') : RunsOk store'.data := by
  cases step with
  | surroundings next =>
    cases h
    exact ⟨hok.ids, hok.jobs, hok.reported⟩
  | gallring step =>
    rw [caseStep, Option.map_eq_some_iff] at h
    obtain ⟨data, hdata, rfl⟩ := h
    exact CaseStore.put_runsOk (hok.step hdata)

theorem CaseStore.referenced_of_evidence {store : CaseStore} {versionId : UUID} {row : EvidenceRow}
    (h : EvidenceOf store.evidence versionId row) :
    versionId ∈ store.data.versionReferences := by
  induction h with
  | version hrow htable hreference =>
    rw [← hreference]
    exact store.referenced _ hrow htable
  | evidence _ _ _ _ ih => exact ih

end Kommunsign
