import Kommunsign.Data.Rows
import Kommunsign.Infra.Lists
import Kommunsign.Infra.Run
import Kommunsign.Infra.Table

/-!
# The documents of one case until it is ready

A document is added in quarantine, scanned and converted by jobs of the worker. `DOCUMENT_SCAN` and
`DOCUMENT_CANONICALIZE` are dispatched on the media type of the version: office formats have handlers
of their own. A conversion ends in one transaction, which other transactions overlap at read
committed: it updates the version and keeps that row, appends to the audit chain and keeps its head,
and then, in `handleDocumentCanonicalize`, looks whether the case is ready.

* `CaseDocuments` — the case and the versions of its documents
* `Conversion` — a run of one of the two handlers, by how far it has come
-/

namespace Kommunsign

open Infra

/-- `OFFICE_SOURCE_MIME_TYPES` -/
def officeSourceMimeTypes : List String :=
  ["application/vnd.openxmlformats-officedocument.wordprocessingml.document",
    "application/vnd.openxmlformats-officedocument.spreadsheetml.sheet",
    "application/vnd.openxmlformats-officedocument.presentationml.presentation",
    "application/vnd.oasis.opendocument.text",
    "application/vnd.oasis.opendocument.spreadsheet",
    "application/rtf"]

/-- A row of `app.document_versions`; the document has no other version. -/
structure PreparedVersion where
  id : Id
  mimeType : String
  status : DocumentStatus
  deriving DecidableEq

structure CaseDocuments where
  status : CaseStatus
  versions : List PreparedVersion
  deriving DecidableEq

inductive CanonicalizeHandler where
  | handleDocumentCanonicalize
  | handleOfficeCanonicalize
  deriving DecidableEq

/-- What `createOfficeSourceJobHandlers` dispatches a conversion to. -/
def canonicalizeHandler (mimeType : String) : CanonicalizeHandler :=
  if officeSourceMimeTypes.contains mimeType then .handleOfficeCanonicalize
  else .handleDocumentCanonicalize

/-- How far a conversion has come in its last transaction. -/
inductive ConversionProgress where
  /-- The transaction has not begun. -/
  | converting
  /-- The version is updated: `marked` when a row was. -/
  | updated (marked : Bool)
  /-- The audit events are appended. -/
  | appended (marked : Bool)
  /-- The case was looked at: `readied` when its row is updated. -/
  | looked (marked readied : Bool)
  deriving DecidableEq

structure Conversion where
  handler : CanonicalizeHandler
  versionId : Id
  progress : ConversionProgress
  deriving DecidableEq

/-- The transaction keeps the row of its version. -/
def Conversion.marked (job : Conversion) : Bool :=
  match job.progress with
  | .converting => false
  | .updated marked | .appended marked | .looked marked _ => marked

/-- The transaction keeps the head of the audit chain. -/
def Conversion.atHead (job : Conversion) : Bool :=
  match job.progress with
  | .converting | .updated _ => false
  | .appended _ | .looked _ _ => true

/-- The transaction keeps the row of the case. -/
def Conversion.readied (job : Conversion) : Bool :=
  match job.progress with
  | .converting | .updated _ | .appended _ => false
  | .looked _ readied => readied

/-! ## Statements -/

/-- `set status = …` where the version has one of the statuses. -/
def setVersion (id : Id) (statuses : List DocumentStatus) (f : PreparedVersion → PreparedVersion)
    (versions : List PreparedVersion) : List PreparedVersion :=
  assign (fun v => v.id == id && statuses.contains v.status) f versions

/-- The version is converted; an office document has become a PDF. -/
def readyVersion (handler : CanonicalizeHandler) (v : PreparedVersion) : PreparedVersion :=
  match handler with
  | .handleDocumentCanonicalize => { v with status := .ready }
  | .handleOfficeCanonicalize => { v with status := .ready, mimeType := "application/pdf" }

/-- What the transaction of a conversion has written to the versions. -/
def Conversion.versions (job : Conversion) (rows : CaseDocuments) : List PreparedVersion :=
  if job.marked then
    setVersion job.versionId [.canonicalizing] (readyVersion job.handler) rows.versions
  else rows.versions

/-- The `where` of the case: it is being prepared and no version is anything but ready. -/
def readied (status : CaseStatus) (versions : List PreparedVersion) : Bool :=
  status == .preparing && !versions.any (·.status != .ready)

/-- What the commit of a conversion leaves. -/
def Conversion.rows (job : Conversion) (rows : CaseDocuments) : CaseDocuments where
  status := if job.readied then .ready else rows.status
  versions := job.versions rows

/-! ## The system -/

structure Preparation where
  rows : CaseDocuments
  conversions : List (Option Conversion)
  /-- Who keeps the head of the audit chain. -/
  chainHead : Option Nat
  deriving DecidableEq

inductive PreparationAction where
  /-- `addDocument` -/
  | addDocument (id : Id) (mimeType : String)
  /-- The first and the last transaction of a scan, whichever handler it runs in. -/
  | scanning (id : Id)
  | scanPassed (id : Id)
  /-- `rejectDocument`, of a scan or of a conversion -/
  | rejectDocument (id : Id)
  /-- `send` locks the versions. -/
  | send
  /-- Any other operation that moves the case. -/
  | moveCase (status : CaseStatus)
  /-- A conversion is dispatched and reads the row of its version. -/
  | dispatch (id : Id)
  | update (i : Nat)
  | append (i : Nat)
  | look (i : Nat)
  | commit (i : Nat)
  /-- The transaction or the worker is gone, or the conversion ends with a rejection. -/
  | abandon (i : Nat)
  deriving DecidableEq

/-- A conversion keeps the row of the version. -/
def Preparation.versionKept (s : Preparation) (id : Id) : Bool :=
  s.conversions.any fun slot => slot.any fun job => job.marked && job.versionId == id

/-- A conversion keeps the row of the case. -/
def Preparation.caseKept (s : Preparation) : Bool :=
  s.conversions.any fun slot => slot.any Conversion.readied

/-- An update of one version by another transaction, which waits for the row. -/
def Preparation.setVersion (s : Preparation) (id : Id) (statuses : List DocumentStatus)
    (status : DocumentStatus) : Option Preparation :=
  if s.versionKept id then none
  else some { s with rows := { s.rows with
    versions := Kommunsign.setVersion id statuses ({ · with status := status }) s.rows.versions } }

def Preparation.setJob (s : Preparation) (i : Nat) (job : Option Conversion) : Preparation :=
  { s with conversions := s.conversions.set i job }

/-- The end of the transaction gives the head of the chain back. -/
def Preparation.endJob (s : Preparation) (i : Nat) (rows : CaseDocuments) : Preparation :=
  { s.setJob i none with
    rows := rows
    chainHead := if s.chainHead = some i then none else s.chainHead }

/-- `none`: the operation is refused, or waits for a row that a conversion keeps. -/
def preparationStep (s : Preparation) : PreparationAction → Option Preparation
  | .addDocument id mimeType =>
    if s.caseKept || !([.draft, .preparing, .ready].contains s.rows.status) ||
        s.rows.versions.any (·.id == id) then none
    else some { s with rows := {
      status := if s.rows.status = .draft then .preparing else s.rows.status
      versions := s.rows.versions ++ [⟨id, mimeType, .quarantined⟩] } }
  | .scanning id => s.setVersion id [.uploaded, .quarantined, .scanning] .scanning
  | .scanPassed id => s.setVersion id [.scanning] .canonicalizing
  | .rejectDocument id =>
    s.setVersion id [.uploaded, .quarantined, .scanning, .rejected, .canonicalizing] .rejected
  | .send =>
    if s.caseKept || s.rows.status != .ready || s.rows.versions.any (·.status != .ready) then none
    else some { s with rows := {
      status := .sent
      versions := s.rows.versions.map ({ · with status := .locked }) } }
  | .moveCase status =>
    if s.caseKept || !s.rows.status.allowed.contains status ||
        [.preparing, .ready, .sent].contains status then none
    else some { s with rows := { s.rows with status := status } }
  | .dispatch id =>
    match s.rows.versions.find? (·.id == id) with
    | none => none
    | some v =>
      if v.status = .canonicalizing then
        some { s with conversions :=
          s.conversions ++ [some ⟨canonicalizeHandler v.mimeType, id, .converting⟩] }
      else none
  | .update i =>
    match s.conversions[i]?.join with
    | some ⟨handler, id, .converting⟩ =>
      if s.versionKept id then none
      else
        let marked := s.rows.versions.any fun v => v.id == id && v.status == .canonicalizing
        some (s.setJob i (some ⟨handler, id, .updated marked⟩))
    | _ => none
  | .append i =>
    match s.conversions[i]?.join with
    | some ⟨handler, id, .updated marked⟩ =>
      if s.chainHead.isSome then none
      else some { s.setJob i (some ⟨handler, id, .appended marked⟩) with chainHead := some i }
    | _ => none
  | .look i =>
    match s.conversions[i]?.join with
    | some ⟨.handleDocumentCanonicalize, id, .appended marked⟩ =>
      let job : Conversion := ⟨.handleDocumentCanonicalize, id, .appended marked⟩
      some (s.setJob i (some ⟨.handleDocumentCanonicalize, id,
        .looked marked (readied s.rows.status (job.versions s.rows))⟩))
    | _ => none
  | .commit i =>
    match s.conversions[i]?.join with
    | some ⟨.handleDocumentCanonicalize, id, .looked marked readied⟩ =>
      some (s.endJob i (Conversion.rows ⟨.handleDocumentCanonicalize, id, .looked marked readied⟩
        s.rows))
    -- the handler of office documents has no statement about the case
    | some ⟨.handleOfficeCanonicalize, id, .appended marked⟩ =>
      some (s.endJob i (Conversion.rows ⟨.handleOfficeCanonicalize, id, .appended marked⟩ s.rows))
    | _ => none
  | .abandon i =>
    match s.conversions[i]?.join with
    | some _ => some (s.endJob i s.rows)
    | none => none

/-- A new case. -/
def Preparation.initial : Preparation := ⟨⟨.draft, []⟩, [], none⟩

end Kommunsign
