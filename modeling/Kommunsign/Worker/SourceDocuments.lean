import Kommunsign.Api.EvidencePayload
import Kommunsign.Data.Texts
import Kommunsign.Infra.Lists
import Kommunsign.Worker.DocumentPreparation

/-!
# The source of a document, from its upload until it is converted

The uploader says what is coming, gets a signed address and sends the bytes there, as often as the
address is good for. The worker downloads them twice: `DOCUMENT_SCAN` has them scanned, and
`DOCUMENT_CANONICALIZE` makes the canonical document of them. Jobs may run more than once, and at
the same time.

* `storedBytesMatchGrant`, `matches_iff` — whether the bytes are the granted ones
* `SourceDocument`, `SourceRun` — a grant, its object and its version, and a run of a handler
-/

namespace Kommunsign

open Infra

/-- The hash function, and what lower case does to texts that are not ASCII. -/
structure SourceServices where
  sha256Hex : List UInt8 → Text
  digest : ∀ bytes, isSha256 (sha256Hex bytes) = true
  lowerCase : Text → Text

/-! ## What an upload may be -/

def officeMimeTypes : List Text := officeSourceMimeTypes.map (·.toList)

def pdfMimeType : Text := "application/pdf".toList

def signingSourceMimeTypes : List Text := pdfMimeType :: officeMimeTypes

def officeExtensions : List (Text × Text) :=
  officeMimeTypes.zip [".docx".toList, ".xlsx".toList, ".pptx".toList, ".odt".toList, ".ods".toList,
    ".rtf".toList]

def macroOfficeExtensions : List Text := [".docm".toList, ".xlsm".toList, ".pptm".toList,
  ".dotm".toList, ".xltm".toList, ".potm".toList]

def officeSourceMaxBytes : Nat := 50 * 1024 * 1024

structure UploadMetadata where
  fileName : Text
  mimeType : Text
  byteSize : Nat
  sha256 : Text
  deriving DecidableEq

/-- `/^[^\u0000-\u001f\u007f\\/]{1,200}$/`. -/
def isSafeFileName (fileName : Text) : Bool :=
  decide (1 ≤ (Json.utf16 fileName).length ∧ (Json.utf16 fileName).length ≤ 200) &&
    fileName.all fun c => decide (31 < c.toNat) && c != '\x7f' && c != '\\' && c != '/'

def validateUploadMetadata (services : SourceServices) (maximumBytes : Nat)
    (input : UploadMetadata) : Except String UploadMetadata := do
  let fileName := trim input.fileName
  let mimeType := toLowerCase services.lowerCase (trim input.mimeType)
  let sha256 := toLowerCase services.lowerCase (trim input.sha256)
  let lowerFileName := toLowerCase services.lowerCase fileName
  if !isSafeFileName fileName || fileName == ['.'] || fileName == ['.', '.'] then
    throw "UPLOAD_FILE_NAME_INVALID"
  if !signingSourceMimeTypes.contains mimeType then throw "UPLOAD_MIME_TYPE_FORBIDDEN"
  if !isSafeInteger input.byteSize || input.byteSize < 1 || maximumBytes < input.byteSize then
    throw "UPLOAD_SIZE_FORBIDDEN"
  if macroOfficeExtensions.any (·.isSuffixOf lowerFileName) then
    throw "UPLOAD_OFFICE_MACRO_FORMAT_FORBIDDEN"
  if officeMimeTypes.contains mimeType && officeSourceMaxBytes < input.byteSize then
    throw "UPLOAD_SIZE_FORBIDDEN"
  if (officeExtensions.lookup mimeType).any (!·.isSuffixOf lowerFileName) then
    throw "UPLOAD_OFFICE_MIME_EXTENSION_MISMATCH"
  if !isSha256 sha256 then throw "UPLOAD_SHA256_INVALID"
  return ⟨fileName, mimeType, input.byteSize, sha256⟩

/-! ## What bytes are compared with -/

def storedBytesMatchGrant (services : SourceServices) (expectedSha256 actualSha256 : Text)
    (expectedByteSize actualByteSize : Nat) : Bool :=
  let expected := toLowerCase services.lowerCase (trim expectedSha256)
  let actual := toLowerCase services.lowerCase (trim actualSha256)
  isSha256 expected && isSha256 actual && isSafeInteger expectedByteSize &&
    isSafeInteger actualByteSize && expectedByteSize == actualByteSize && expected == actual

inductive DocumentContainer where
  | pdf | zip | rtf | unknown
  deriving DecidableEq

def detectDocumentMimeType : List UInt8 → DocumentContainer
  | 0x25 :: 0x50 :: 0x44 :: 0x46 :: 0x2d :: _ => .pdf
  | 0x50 :: 0x4b :: a :: b :: _ =>
    if (a, b) ∈ [((0x03 : UInt8), (0x04 : UInt8)), (0x05, 0x06), (0x07, 0x08)] then .zip
    else .unknown
  | 0x7b :: 0x5c :: 0x72 :: 0x74 :: 0x66 :: _ => .rtf
  | _ => .unknown

/-- `assertMagicBytesMatch`: the container that a media type has. -/
def magicBytesMatch (mimeType : Text) (bytes : List UInt8) : Bool :=
  let detected := detectDocumentMimeType bytes
  if mimeType = pdfMimeType then detected == .pdf
  else if mimeType = "application/rtf".toList then detected == .rtf
  else if officeMimeTypes.contains mimeType then detected == .zip
  else true

/-! ## The rows -/

inductive GrantStatus where
  | issued | uploaded | consumed
  deriving DecidableEq

/-- A row of `app.upload_grants`; its digest is one. -/
structure UploadGrant where
  mimeType : Text
  byteSize : Nat
  expectedSha256 : Text
  status : GrantStatus
  digest : isSha256 expectedSha256 = true
  deriving DecidableEq

/-- A row of `app.document_versions`, as the handlers read it. -/
structure SourceRow where
  mimeType : Text
  byteSize : Nat
  sha256 : Text
  status : DocumentStatus
  deriving DecidableEq

def SourceRow.isOffice (row : SourceRow) : Bool := officeMimeTypes.contains row.mimeType

inductive SourceJob where
  | scan
  | canonicalize
  deriving DecidableEq

/-- A run of a handler: the row it has read, and the bytes it has downloaded. -/
structure SourceRun where
  job : SourceJob
  row : SourceRow
  bytes : Option (List UInt8)
  deriving DecidableEq

/-- Why a handler rejects the bytes it has downloaded, before any service looks at them. -/
def SourceRun.rejection (services : SourceServices) (run : SourceRun) (bytes : List UInt8) :
    Option String :=
  match run.job, run.row.isOffice with
  | .scan, false =>
    if bytes.length ≠ run.row.byteSize ∨ run.row.mimeType ≠ pdfMimeType then
      some "DOCUMENT_PDF_POLICY_REJECTED"
    else if storedBytesMatchGrant services run.row.sha256 (services.sha256Hex bytes)
        run.row.byteSize bytes.length then none
    else some "DOCUMENT_HASH_MISMATCH"
  | .scan, true =>
    if bytes.length ≠ run.row.byteSize then some "DOCUMENT_SIZE_MISMATCH"
    else if magicBytesMatch run.row.mimeType bytes then none
    else some "DOCUMENT_OFFICE_MAGIC_BYTES_MISMATCH"
  | .canonicalize, false => none
  | .canonicalize, true =>
    if bytes.length ≠ run.row.byteSize then some "DOCUMENT_SIZE_MISMATCH" else none

/--
A grant with the object under its key, the version that was made of it, and the runs of handlers on
that version. What was scanned and converted when the version moved on is kept for the record.
-/
structure SourceDocument where
  grant : Option UploadGrant
  object : Option (List UInt8)
  version : Option SourceRow
  runs : List (Option SourceRun)
  scanned : Option (List UInt8)
  canonicalised : Option (List UInt8)
  deriving DecidableEq

def SourceDocument.initial : SourceDocument := ⟨none, none, none, [], none, none⟩

/-! ## The steps -/

inductive SourceStep where
  | create (input : UploadMetadata) (maximumBytes : Nat)
  /-- Whoever has the address writes to it. -/
  | put (bytes : List UInt8)
  /-- The upload is confirmed, with the media type and the digest that the store reports. -/
  | complete (contentType sha256 : Option Text)
  | addDocument
  /-- A job is run: the handler reads the version. -/
  | start (job : SourceJob)
  | download (i : Nat)
  /-- The handler rejects the document, for the bytes or for what a service says. -/
  | rejectDocument (i : Nat)
  /-- The last transaction of a handler; a conversion has made a canonical document. -/
  | finish (i : Nat) (canonical : List UInt8)
  /-- The run is gone: it was skipped, has thrown or has crashed. -/
  | abandon (i : Nat)
  deriving DecidableEq

/-- Statuses in which a scan is begun, or begun again. -/
def scannable : List DocumentStatus := [.uploaded, .quarantined, .scanning]

/-- Statuses that a rejection does not touch. -/
def settledStatuses : List DocumentStatus :=
  [.ready, .locked, .partially_signed, .signed, .validated, .archived]

namespace SourceDocument

variable (services : SourceServices) (d : SourceDocument)

def run? (i : Nat) : Option SourceRun := d.runs[i]?.join

def endRun (i : Nat) : SourceDocument := { d with runs := d.runs.set i none }

/-- `update … where status='scanning'`. -/
def passScan (bytes : List UInt8) : SourceDocument :=
  match d.version with
  | some row =>
    if row.status = .scanning then
      { d with version := some { row with status := .canonicalizing }, scanned := some bytes }
    else d
  | none => d

/-- `update … where status='canonicalizing'`; an office document has become a PDF. -/
def becomeReady (bytes canonical : List UInt8) : SourceDocument :=
  match d.version with
  | some row =>
    if row.status = .canonicalizing then
      { d with
        version := some ⟨if row.isOffice then pdfMimeType else row.mimeType, canonical.length,
          services.sha256Hex canonical, .ready⟩
        canonicalised := some bytes }
    else d
  | none => d

end SourceDocument

def SourceServices.confirms (services : SourceServices) (grant : UploadGrant) (bytes : List UInt8)
    (contentType sha256 : Option Text) : Bool :=
  bytes.length == grant.byteSize &&
    contentType.all (fun type =>
      toLowerCase services.lowerCase (trim (type.takeWhile (· != ';'))) == grant.mimeType) &&
    sha256.all (· == grant.expectedSha256)

/-- `none`: the operation is refused or there is nothing to do. -/
def documentStep (services : SourceServices) (d : SourceDocument) :
    SourceStep → Option SourceDocument
  | .create input maximumBytes =>
    match d.grant, validateUploadMetadata services maximumBytes input with
    | none, .ok metadata =>
      if h : isSha256 metadata.sha256 = true then
        some { d with
          grant := some ⟨metadata.mimeType, metadata.byteSize, metadata.sha256, .issued, h⟩ }
      else none
    | _, _ => none
  | .put bytes => if d.grant.isSome then some { d with object := some bytes } else none
  | .complete contentType sha256 =>
    match d.grant, d.object with
    | some grant, some bytes =>
      if grant.status = .issued ∧ services.confirms grant bytes contentType sha256 = true then
        some { d with grant := some { grant with status := .uploaded } }
      else none
    | _, _ => none
  | .addDocument =>
    match d.grant with
    | some grant =>
      if grant.status = .uploaded then
        some { d with
          grant := some { grant with status := .consumed }
          version := some ⟨grant.mimeType, grant.byteSize, grant.expectedSha256, .quarantined⟩ }
      else none
    | none => none
  | .start .scan =>
    match d.version with
    | some row =>
      if scannable.contains row.status then
        some { d with
          version := some { row with status := .scanning }
          runs := d.runs ++ [some ⟨.scan, row, none⟩] }
      else none
    | none => none
  | .start .canonicalize =>
    match d.version with
    | some row =>
      if row.status = .canonicalizing then
        some { d with runs := d.runs ++ [some ⟨.canonicalize, row, none⟩] }
      else none
    | none => none
  | .download i =>
    match d.run? i, d.object with
    | some ⟨job, row, none⟩, some bytes =>
      some { d with runs := d.runs.set i (some ⟨job, row, some bytes⟩) }
    | _, _ => none
  | .rejectDocument i =>
    match d.run? i, d.version with
    | some _, some row =>
      if settledStatuses.contains row.status then some (d.endRun i)
      else some { d.endRun i with version := some { row with status := .rejected } }
    | _, _ => none
  | .finish i canonical =>
    match d.run? i with
    | some ⟨job, row, some bytes⟩ =>
      if SourceRun.rejection services ⟨job, row, some bytes⟩ bytes = none then
        match job with
        | .scan => some ((d.endRun i).passScan bytes)
        | .canonicalize =>
          -- an office document whose conversion has changed nothing is rejected
          if row.isOffice && services.sha256Hex canonical == services.sha256Hex bytes then none
          else some ((d.endRun i).becomeReady services bytes canonical)
      else none
    | _ => none
  | .abandon i => if (d.run? i).isSome then some (d.endRun i) else none

/-- The documents by the ids of their grants; each has a key of its own. -/
abbrev SourceDocuments := Id → SourceDocument

def SourceDocuments.initial : SourceDocuments := fun _ => SourceDocument.initial

def sourceStep (services : SourceServices) (s : SourceDocuments) (i : Id × SourceStep) :
    Option SourceDocuments :=
  (documentStep services (s i.1) i.2).map (Function.update s i.1)

end Kommunsign
