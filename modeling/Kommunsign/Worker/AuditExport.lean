import Kommunsign.Crypto.CanonicalJson
import Kommunsign.Data.AuditEvents

/-!
# The audit events in an evidence package

An evidence package has the audit events of its case in it, as the canonical JSON of the rows that
the driver returns. It returns a `bigint` as a string, a `jsonb` value parsed and a `timestamptz` as
a `Date`, and a `Date` has no property of its own.

* `caseAudits` — the rows of a case
* `auditExport` — the file
-/

namespace Kommunsign

open Infra CanonicalJson

/-- `value ->> name` -/
def jsonbMember (value : Json) (name : String) : Option Text :=
  match value.field name with
  | none | some .null => none
  | some (.str s) => some s
  | some member => some member.spaced

/-- The columns that the export selects. -/
structure ExportedColumns where
  sequence : Int
  category : String
  eventType : String
  actorType : String
  actorId : Option UUID
  resourceType : Option String
  resourceId : Option UUID
  payload : Jsonb
  occurredAt : Timestamptz
  previousEventHash : Text
  eventHash : Text
  hashVersion : Int

def AuditEvent.columns (row : AuditEvent) : ExportedColumns where
  sequence := row.sequence
  category := row.category
  eventType := row.eventType
  actorType := row.actorType
  actorId := row.actorId
  resourceType := row.resourceType
  resourceId := row.resourceId
  payload := row.payload
  occurredAt := row.occurredAt
  previousEventHash := row.previousEventHash
  eventHash := row.eventHash
  hashVersion := row.hashVersion

/-- `resource_id=$2 or payload->>'signatureCaseId'=$2::text` -/
def AuditEvent.isOfCase (signatureCaseId : UUID) (row : AuditEvent) : Bool :=
  row.resourceId == some signatureCaseId ||
    jsonbMember row.payload.json "signatureCaseId" == some signatureCaseId.toList

def sequenceLe (a b : AuditEvent) : Prop := a.sequence ≤ b.sequence

instance (a b : AuditEvent) : Decidable (sequenceLe a b) := inferInstanceAs (Decidable (_ ≤ _))

/-- The rows that the export of a case selects, by their sequence. -/
def caseAudits (tenantId signatureCaseId : UUID) (events : List AuditEvent) : List AuditEvent :=
  (events.filter fun row => row.tenantId == tenantId && row.isOfCase signatureCaseId).insertionSort
    sequenceLe

/-! ## The values of the driver -/

def textUnits (s : Text) : Units := s.flatMap charUnits

def jsText (s : Text) : JsValue := .string (textUnits s)

def jsTextOrNull (s : Option String) : JsValue := (s.map fun s => jsText s.toList).getD .null

def jsNumber (n : Int) : Number := if n < 0 then (numberOf (-n)).neg else numberOf n

/-- A `Date`, or an invalid one: an object without properties of its own. -/
def jsDate (_ : Timestamptz) : JsValue := .object []

inductive AuditExportFailure where
  | payload
  | canonical (error : TypeError)
  deriving DecidableEq

/-- `JSON.parse` of the text of a `jsonb` value. -/
def jsPayload (payload : Jsonb) : Except AuditExportFailure JsValue :=
  match readJson payload.json.spaced with
  | some value => .ok value
  | none => .error .payload

/-- The object of a row. -/
def auditValue (row : ExportedColumns) : Except AuditExportFailure JsValue := do
  let payload ← jsPayload row.payload
  return .object [
    (unitsOf "sequence", jsText (Json.renderInt row.sequence)),
    (unitsOf "category", jsText row.category.toList),
    (unitsOf "event_type", jsText row.eventType.toList),
    (unitsOf "actor_type", jsText row.actorType.toList),
    (unitsOf "actor_id", jsTextOrNull row.actorId),
    (unitsOf "resource_type", jsTextOrNull row.resourceType),
    (unitsOf "resource_id", jsTextOrNull row.resourceId),
    (unitsOf "payload", payload),
    (unitsOf "occurred_at", jsDate row.occurredAt),
    (unitsOf "previous_event_hash", jsText row.previousEventHash),
    (unitsOf "event_hash", jsText row.eventHash),
    (unitsOf "hash_version", .number (jsNumber row.hashVersion))]

/-- `canonicalJson(caseInfo.audits)` -/
def auditExport (tenantId signatureCaseId : UUID) (events : List AuditEvent) :
    Except AuditExportFailure Text := do
  let rows ← (caseAudits tenantId signatureCaseId events).mapM fun row => auditValue row.columns
  match encode (.array rows) with
  | .ok text => return text
  | .error error => .error (.canonical error)

end Kommunsign
