import Kommunsign.Data.Texts
import Kommunsign.Evidence.Zip
import Kommunsign.Infra.JsonRoundtrip

/-!
# The files of an evidence package

The package of a case, or of one of its signers, is built from what the case has at the time: its
evidence, and an export of its audit events. Two files describe the others, and all of them go into
one archive.

* `safeFileName`, `createReceiptPdf` — the names of the documents and the receipt
* `loadEvidenceFiles` — the files in the order they are put together
-/

namespace Kommunsign

open Infra

structure EvidenceFile where
  path : Text
  bytes : Bytes
  mediaType : Text
  deriving DecidableEq

structure EvidenceManifestEntry where
  path : Text
  sha256 : Text
  bytes : Nat
  mediaType : Text
  deriving DecidableEq

structure EvidenceManifest where
  createdAt : Text
  signatureCaseId : Text
  entries : List EvidenceManifestEntry
  metadata : Json

/-! ## What a case has -/

/-- A signer with a verified identity, and the artifacts of the verification. -/
structure EvidenceSigner where
  id : RowId
  visibleText : Text
  nonVisiblePayload : Text
  collectResponse : Bytes
  signatureXml : Bytes
  ocspResponse : Bytes
  verificationReport : Bytes
  verifiedAt : Time
  deriving DecidableEq

structure EvidenceDocument where
  displayName : Text
  bytes : Bytes
  deriving DecidableEq

structure EvidenceReport where
  bytes : Bytes
  contentType : Text
  deriving DecidableEq

/--
What `loadEvidenceFiles` reads of a case besides its audit events: the signers are those whose
identity may stand in a package.
-/
structure EvidenceCase where
  signatureCaseId : RowId
  title : Text
  externalReference : Option Text
  legalName : Option Text
  signers : List EvidenceSigner
  protectedSignerCount : Nat
  documents : List EvidenceDocument
  reports : List EvidenceReport

/-! ## The files -/

/-- `String(n).padStart(width, '0')` -/
def padStart (width n : Nat) : Text :=
  List.replicate (width - (Nat.toDigits 10 n).length) '0' ++ Nat.toDigits 10 n

def safeFileName (unicode : UnicodeTexts) (value : Text) : Text :=
  let replaced := value.map fun c =>
    if c ∈ ['\\', '/', '\x00', '\r', '\n'] then '_' else c
  let cleaned := trim (replaced.map fun c =>
    if unicode.isLetterOrNumber c || c ∈ ['.', '_', ' ', '-'] then c else '_')
  if ".pdf".toList.isSuffixOf (toLowerCase unicode.lowerCase cleaned) then cleaned
  else cleaned ++ ".pdf".toList

/-- `line.replace(/([\\()])/g, '\\$1')` -/
def escapePdf (line : Text) : Text :=
  line.flatMap fun c => if c ∈ ['\\', '(', ')'] then ['\\', c] else [c]

/-- The text of the page. -/
def receiptContent (lines : List Text) : Text :=
  "BT /F1 12 Tf 50 790 Td ".toList ++
    (lines.zipIdx.flatMap fun (line, index) =>
      (if index = 0 then [] else "0 -22 Td ".toList) ++ '(' :: line ++ ") Tj ".toList) ++ "ET".toList

def pdfObject (number : Nat) (content : Text) : Text :=
  Nat.toDigits 10 number ++ " 0 obj\n".toList ++ content ++ "\nendobj\n".toList

/-- The offset of each object, and the file as far as the last of them. -/
def pdfObjects (objects : List Text) : List Nat × Text :=
  objects.zipIdx.foldl (fun (offsets, pdf) (content, index) =>
      (offsets ++ [(utf8 pdf).length], pdf ++ pdfObject (index + 1) content))
    ([], "%PDF-1.4\n".toList)

def createReceiptPdf (title reference organization : Text) (signerCount : Nat) (signedAt : Text) :
    Bytes :=
  let lines := [
    "Kommunsign signeringskvitto".toList,
    "Organisation: ".toList ++ organization,
    "Ärende: ".toList ++ reference,
    "Titel: ".toList ++ title,
    "Antal verifierade signerare: ".toList ++ Nat.toDigits 10 signerCount,
    "Senast verifierad: ".toList ++ signedAt,
    "Detta kvitto är inte den signerade originalhandlingen.".toList]
  let content := receiptContent (lines.map escapePdf)
  let objects := [
    "<< /Type /Catalog /Pages 2 0 R >>".toList,
    "<< /Type /Pages /Kids [3 0 R] /Count 1 >>".toList,
    "<< /Type /Page /Parent 2 0 R /MediaBox [0 0 595 842] /Resources << /Font << /F1 5 0 R >> >> ".toList
      ++ "/Contents 4 0 R >>".toList,
    "<< /Length ".toList ++ Nat.toDigits 10 (utf8 content).length ++ " >>\nstream\n".toList ++
      content ++ "\nendstream".toList,
    "<< /Type /Font /Subtype /Type1 /BaseFont /Helvetica >>".toList]
  let (offsets, pdf) := pdfObjects objects
  let size := Nat.toDigits 10 (objects.length + 1)
  utf8 (pdf ++ "xref\n0 ".toList ++ size ++ "\n0000000000 65535 f \n".toList ++
    (offsets.flatMap fun offset => padStart 10 offset ++ " 00000 n \n".toList) ++
    "trailer\n<< /Size ".toList ++ size ++ " /Root 1 0 R >>\nstartxref\n".toList ++
    Nat.toDigits 10 (utf8 pdf).length ++ "\n%%EOF\n".toList)

def documentFiles (unicode : UnicodeTexts) (documents : List EvidenceDocument) :
    List EvidenceFile :=
  documents.zipIdx.map fun (document, index) => {
    path := "documents/".toList ++ padStart 3 (index + 1) ++ '-' ::
      safeFileName unicode document.displayName
    bytes := document.bytes
    mediaType := "application/pdf".toList }

/-- The files of a signer; in the package of a case under the id of the signer. -/
def signerFiles (pathPrefix : Text) (signer : EvidenceSigner) : List EvidenceFile := [
  ⟨pathPrefix ++ "visible-data.txt".toList, utf8 signer.visibleText,
    "text/plain; charset=utf-8".toList⟩,
  ⟨pathPrefix ++ "non-visible-data.json".toList, utf8 signer.nonVisiblePayload,
    "application/json".toList⟩,
  ⟨pathPrefix ++ "tic-collect-response.json".toList, signer.collectResponse,
    "application/json".toList⟩,
  ⟨pathPrefix ++ "tic-signature.xml".toList, signer.signatureXml, "application/xml".toList⟩,
  ⟨pathPrefix ++ "tic-ocsp-response.der".toList, signer.ocspResponse,
    "application/ocsp-response".toList⟩,
  ⟨pathPrefix ++ "verification-report.json".toList, signer.verificationReport,
    "application/json".toList⟩]

def reportFiles (reports : List EvidenceReport) : List EvidenceFile :=
  reports.zipIdx.map fun (report, index) => {
    path := "reports/pdfa-validation-".toList ++ padStart 3 (index + 1) ++ ".json".toList
    bytes := report.bytes
    mediaType := report.contentType }

/-- The export of the audit events. -/
def auditFile (path : Text) (audits : List Json) : EvidenceFile :=
  ⟨path, utf8 (canonicalJson (.arr audits)), "application/json".toList⟩

/-- `signerId` is that of a package for one signer, of whom `signers` then is made up. -/
def loadEvidenceFiles (unicode : UnicodeTexts) (info : EvidenceCase) (signerId : Option RowId)
    (audits : List Json) : List EvidenceFile :=
  match signerId with
  | some _ =>
    info.signers.flatMap (signerFiles []) ++ [auditFile "audit-events.json".toList audits]
  | none =>
    documentFiles unicode info.documents ++
      (info.signers.flatMap fun signer =>
        signerFiles ("signers/".toList ++ signer.id.value.toList ++ ['/']) signer) ++
      reportFiles info.reports ++
      [auditFile "audit/case-audit-events.json".toList audits,
        { path := "signing-receipt.pdf".toList
          bytes := createReceiptPdf info.title
            (info.externalReference.getD info.signatureCaseId.value.toList)
            (info.legalName.getD "Kommunsign-tenant".toList) info.signers.length
            (isoText ((info.signers.getLast?.map (·.verifiedAt)).getD 0))
          mediaType := "application/pdf".toList }]

/-! ## The package -/

def createEvidenceManifest (unicode : UnicodeTexts) (sha256Hex : Bytes → Text)
    (signatureCaseId : Text) (files : List EvidenceFile) (metadata : Json) (createdAt : Text) :
    EvidenceManifest where
  createdAt := createdAt
  signatureCaseId := signatureCaseId
  entries :=
    (files.map fun file => {
      path := file.path
      sha256 := sha256Hex file.bytes
      bytes := file.bytes.length
      mediaType := file.mediaType }).insertionSort fun a b => unicode.localeLe a.path b.path
  metadata := metadata

def EvidenceManifest.json (manifest : EvidenceManifest) : Json :=
  .object [
    ("schema", .lit "kommunsign.evidence-package.v1"),
    ("createdAt", .str manifest.createdAt),
    ("signatureCaseId", .str manifest.signatureCaseId),
    ("entries", .arr (manifest.entries.map fun entry => .object [
      ("path", .str entry.path),
      ("sha256", .str entry.sha256),
      ("bytes", .num entry.bytes),
      ("mediaType", .str entry.mediaType)])),
    ("metadata", manifest.metadata)]

/-- One line for each entry, two blanks between the digest and the path. -/
def checksumLines (unicode : UnicodeTexts) (manifest : EvidenceManifest) : Text :=
  let sorted := manifest.entries.insertionSort fun a b => unicode.localeLe a.path b.path
  ['\n'].intercalate (sorted.map fun entry => entry.sha256 ++ "  ".toList ++ entry.path) ++ ['\n']

/-- The metadata and the time of a package. -/
def packageMetadata (info : EvidenceCase) (signerId : Option RowId) : Json :=
  .object [
    ("organization", .str (info.legalName.getD "Kommunsign-tenant".toList)),
    ("caseReference", .str (info.externalReference.getD info.signatureCaseId.value.toList)),
    ("caseTitle", .str info.title),
    ("signerCount", .num info.signers.length),
    ("protectedSignerCount", .num info.protectedSignerCount),
    ("packageType", .lit (if signerId.isSome then "signer" else "case"))]

def packageCreatedAt (info : EvidenceCase) : Text :=
  isoText ((info.signers.map (·.verifiedAt)).foldr max 0)

/-- The files, their manifest and their checksums, in the order of their paths. -/
def packageFiles (unicode : UnicodeTexts) (sha256Hex : Bytes → Text) (signatureCaseId : Text)
    (files : List EvidenceFile) (metadata : Json) (createdAt : Text) : List EvidenceFile :=
  let manifest :=
    createEvidenceManifest unicode sha256Hex signatureCaseId files metadata createdAt
  let described : List EvidenceFile := [
    ⟨"manifest.json".toList, utf8 (canonicalJson manifest.json), "application/json".toList⟩,
    ⟨"checksums.sha256".toList, utf8 (checksumLines unicode manifest),
      "text/plain; charset=utf-8".toList⟩]
  (files ++ described).insertionSort fun a b => unicode.localeLe a.path b.path

def allPackageFiles (unicode : UnicodeTexts) (sha256Hex : Bytes → Text) (info : EvidenceCase)
    (signerId : Option RowId) (audits : List Json) : List EvidenceFile :=
  packageFiles unicode sha256Hex info.signatureCaseId.value.toList
    (loadEvidenceFiles unicode info signerId audits) (packageMetadata info signerId)
    (packageCreatedAt info)

structure SealedPackage where
  files : List EvidenceFile
  zip : Bytes
  deriving DecidableEq

def EvidenceFile.input (file : EvidenceFile) : EvidenceZipInput := ⟨file.path, file.bytes⟩

def sealEvidencePackage (unicode : UnicodeTexts) (sha256Hex : Bytes → Text) (info : EvidenceCase)
    (signerId : Option RowId) (audits : List Json) : Except EvidenceZipError SealedPackage := do
  let files := allPackageFiles unicode sha256Hex info signerId audits
  let zip ← createEvidenceZip unicode (files.map (·.input))
  return ⟨files, zip⟩

/-! ## What an archive says of the export -/

section

variable {unicode : UnicodeTexts} {sha256Hex : Bytes → Text} {info : EvidenceCase}
  {signerId : Option RowId} {audits audits' : List Json}

theorem sealEvidencePackage_eq_ok {package : SealedPackage}
    (h : sealEvidencePackage unicode sha256Hex info signerId audits = .ok package) :
    package.files = allPackageFiles unicode sha256Hex info signerId audits ∧
      createEvidenceZip unicode (package.files.map (·.input)) = .ok package.zip := by
  unfold sealEvidencePackage at h
  obtain ⟨zip, hzip, h⟩ := except_bind_eq_ok.mp h
  cases h
  exact ⟨rfl, hzip⟩

theorem nodup_paths_of_build {package : SealedPackage}
    (h : sealEvidencePackage unicode sha256Hex info signerId audits = .ok package) :
    (package.files.map (·.path)).Nodup := by
  obtain ⟨-, hcreate⟩ := sealEvidencePackage_eq_ok h
  obtain ⟨hnodup, -, -⟩ := createEvidenceZip_eq_ok hcreate
  have hpaths : (package.files.map (·.input)).map (·.path) = package.files.map (·.path) := by
    rw [List.map_map]
    rfl
  rw [map_path_orderedFiles, (List.perm_insertionSort _ _).nodup_iff, hpaths] at hnodup
  exact hnodup.of_map _

end

end Kommunsign
