import Kommunsign.Archive.Fgs
import Kommunsign.Archive.Package
import Kommunsign.Privacy.ProtectedIdentity

/-!
# From the evidence package to the archive package

The export reads back the files that `handleEvidencePackageBuild` recorded for the case. A path
that names no category of the archive is filed as evidence, with its slashes replaced.

* `archivePath` — where a file of the evidence package stands in the archive
* `packageFileRows` — the rows that the build of a package leaves
* `loadPackageFiles` — the files of the rows, their bytes checked against the recorded digests
-/

namespace Kommunsign

open Infra

/-- A row of `app.evidence_package_files`, with the object under its key. -/
structure PackageFileRow where
  path : Text
  mediaType : Text
  sha256 : Text
  object : Bytes
  deriving DecidableEq

inductive ExportFailure where
  /-- A refusal of the archive, which the export records. -/
  | archive (error : ArchiveError)
  | permanent (code : String)
  | zip (error : EvidenceZipError)
  deriving DecidableEq

/-- `/^(content|metadata|evidence)\//` -/
def hasCategory (path : Text) : Bool :=
  ArchiveCategory.all.any fun category => startsWith path category.directory

/-- `path.replace(/\//g, '_')` -/
def flattenPath (path : Text) : Text := path.map fun c => if c = '/' then '_' else c

def archivePath (path : Text) : Text :=
  if hasCategory path then path
  else ArchiveCategory.directory .evidence ++ flattenPath path

/-- The rows of a package: its files in order. -/
def packageFileRows (sha256Hex : Bytes → Text) (package : SealedPackage) : List PackageFileRow :=
  package.files.map fun file => ⟨file.path, file.mediaType, sha256Hex file.bytes, file.bytes⟩

def loadPackageFile (sha256Hex : Bytes → Text) (row : PackageFileRow) :
    Except ExportFailure EvidenceFile :=
  if sha256Hex row.object ≠ row.sha256 then
    .error (.permanent "ARCHIVE_SOURCE_FILE_HASH_MISMATCH")
  else .ok ⟨archivePath row.path, row.object, row.mediaType⟩

def loadPackageFiles (sha256Hex : Bytes → Text) (rows : List PackageFileRow) :
    Except ExportFailure (List EvidenceFile) :=
  rows.mapM (loadPackageFile sha256Hex)

theorem loadPackageFiles_packageFileRows (sha256Hex : Bytes → Text) (package : SealedPackage) :
    loadPackageFiles sha256Hex (packageFileRows sha256Hex package) =
      .ok (package.files.map fun file => { file with path := archivePath file.path }) := by
  unfold loadPackageFiles packageFileRows
  induction package.files with
  | nil => rfl
  | cons file files ih =>
    rw [List.map_cons, List.mapM_cons]
    refine except_bind_eq_ok.mpr ⟨_, ?_, except_bind_eq_ok.mpr ⟨_, ih, rfl⟩⟩
    exact if_neg (not_not.mpr rfl)

/-!
# `handleArchiveExport`

The case is assembled from the evidence tables, the files from the evidence package. The numbers of
the signers are masked, or redacted, where they enter the manifest.
-/

/-- The row of the case. -/
structure ArchiveCaseRow where
  id : Text
  title : Text
  externalReference : Option Text
  decisionMode : DecisionMode
  createdAt : Text
  completedAt : Option Text
  legalName : Option Text
  deriving DecidableEq

structure ArchiveDocumentRow where
  documentId : Text
  documentVersionId : Text
  displayName : Text
  sha256 : Option Text
  byteSize : Nat
  pdfProfile : Option Text
  deriving DecidableEq

/-- A validated attempt with its artifact, its passed validation and its timestamp. -/
structure ArchiveSignatureRow where
  signerId : Text
  signedAt : Text
  format : Option Text
  signedDocumentSha256 : Option Text
  reportSha256 : Option Text
  timestampSha256 : Option Text
  deriving DecidableEq

/-- A verified identity of a signer; the number is what `decryptText` makes of its ciphertext, the
assessment what `loadActiveAssessment` finds. -/
structure ArchiveIdentityRow where
  signerId : Text
  provider : Text
  verifiedAt : Text
  verificationReportSha256 : Text
  verifiedIdentifier : Option Text
  protectionLevel : Option Text
  assessment : Option ConfidentialityAssessment
  deriving DecidableEq

structure ArchiveState where
  tenantId : Text
  caseRow : ArchiveCaseRow
  documents : List ArchiveDocumentRow
  signatures : List ArchiveSignatureRow
  identities : List ArchiveIdentityRow
  /-- The hashes of the audit events of the case, in sequence; none without events. -/
  auditDigest : Option Text
  packageFiles : List PackageFileRow
  now : Time

/-- The service's configuration. -/
structure ArchiveServices where
  archivistName : Text
  softwareName : Text
  softwareVersion : Text

/-! ## The case -/

def verifiedProfileOf (pdfProfile : Option Text) : Option PdfProfile :=
  if pdfProfile = some "PDF/A-2b".toList then some .PDFA2b
  else if pdfProfile = some "PDF/A-3b".toList then some .PDFA3b
  else none

def archiveDocument (row : ArchiveDocumentRow) : ArchiveDocument where
  documentId := row.documentId
  documentVersionId := row.documentVersionId
  displayName := row.displayName
  sha256 := row.sha256.getD []
  byteSize := row.byteSize
  verifiedProfile := verifiedProfileOf row.pdfProfile
  isSignedArtifact := false

def archiveSignature (row : ArchiveSignatureRow) : ArchiveSignatureEvidence where
  signerId := row.signerId
  signedAt := row.signedAt
  padesLevel := row.format
  signatureArtifactSha256 := row.signedDocumentSha256
  validationReportSha256 := row.reportSha256
  timestampTokenSha256 := row.timestampSha256

/-- Whether the number of the signer may stand in an archive. -/
def disclosesNumber (tenantId : Text) (now : Time) (row : ArchiveIdentityRow) : Bool :=
  let level := normaliseProtectionLevel row.protectionLevel
  (decideDisclosure {
    tenantId := tenantId
    subjectId := row.signerId
    level := level
    channel := .ARCHIVE_EXPORT
    fields := [.personalNumber]
    assessment := if level = .NONE then none else row.assessment
    now := now }).disclosed.contains .personalNumber

/-- The masked form of a number, and what stands for one that was never verified. -/
def maskedForm : Option Text → Except ExportFailure Text
  | none => .ok "okänd".toList
  | some number =>
    match maskSwedishPersonalNumber number with
    | none => .error (.permanent "PERSONAL_NUMBER_INVALID")
    | some masked => .ok masked

def maskedIdentifier (tenantId : Text) (now : Time) (row : ArchiveIdentityRow) :
    Except ExportFailure Text :=
  if disclosesNumber tenantId now row then maskedForm row.verifiedIdentifier
  else .ok (redactedPlaceholder .personalNumber)

def archiveIdentity (tenantId : Text) (now : Time) (row : ArchiveIdentityRow) :
    Except ExportFailure ArchiveIdentityEvidence := do
  let identifier ← maskedIdentifier tenantId now row
  return {
    signerId := row.signerId
    provider := row.provider
    assuranceLevel := "HIGH".toList
    maskedIdentifier := identifier
    verifiedAt := row.verifiedAt
    evidenceSha256 := row.verificationReportSha256 }

def loadArchiveCase (sha256Hex : Bytes → Text) (state : ArchiveState) :
    Except ExportFailure ArchiveCase := do
  let identities ← state.identities.mapM (archiveIdentity state.tenantId state.now)
  return {
    tenantId := state.tenantId
    signatureCaseId := state.caseRow.id
    reference := state.caseRow.externalReference.getD state.caseRow.id
    title := state.caseRow.title
    decisionMode := state.caseRow.decisionMode
    createdAt := state.caseRow.createdAt
    closedAt := state.caseRow.completedAt
    documents := state.documents.map archiveDocument
    signatures := state.signatures.map archiveSignature
    identities := identities
    auditTrailSha256 := state.auditDigest.map fun digest => sha256Hex (utf8 digest) }

/-! ## The export -/

def agentsFor (services : ArchiveServices) (archiveCase : ArchiveCase) (row : ArchiveCaseRow) :
    FgsAgents :=
  let name := trim (row.legalName.getD [])
  let organisation := if name = [] then archiveCase.tenantId else name
  { archivist := services.archivistName
    creator := organisation
    submitter := organisation
    producingSoftware := services.softwareName
    producingSoftwareVersion := services.softwareVersion }

def archiveManifestPath : Text := "metadata/archive-manifest.json".toList

def manifestFile (manifest : ArchiveManifest) : EvidenceFile :=
  ⟨archiveManifestPath, utf8 (canonicalJson manifest.json), "application/json".toList⟩

/-- The files of the package, with the manifest and the descriptor. -/
def sealedFiles (unicode : UnicodeTexts) (archive : ArchivePackage) (descriptor : EvidenceFile) :
    List EvidenceFile :=
  sortByText unicode (·.path) (archive.files ++ [manifestFile archive.manifest, descriptor])

def exportedFiles (unicode : UnicodeTexts) (sha256Hex : Bytes → Text) (services : ArchiveServices)
    (state : ArchiveState) : Except ExportFailure (List EvidenceFile) := do
  if services.archivistName = [] then
    throw (.permanent "ARCHIVE_ARCHIVIST_NAME_NOT_CONFIGURED")
  let archiveCase ← loadArchiveCase sha256Hex state
  let files ← loadPackageFiles sha256Hex state.packageFiles
  let archive ← (buildArchivePackage unicode sha256Hex archiveCase files).mapError .archive
  let descriptor ← (buildFgsPackage sha256Hex archive
    (agentsFor services archiveCase state.caseRow)).mapError .archive
  return sealedFiles unicode archive descriptor

/-! ## When there are files -/

section

variable {unicode : UnicodeTexts} {sha256Hex : Bytes → Text} {services : ArchiveServices}
  {state : ArchiveState}

theorem exportedFiles_eq_ok {files : List EvidenceFile} :
    exportedFiles unicode sha256Hex services state = .ok files ↔
      services.archivistName ≠ [] ∧ ∃ archiveCase loaded archive descriptor,
        loadArchiveCase sha256Hex state = .ok archiveCase ∧
        loadPackageFiles sha256Hex state.packageFiles = .ok loaded ∧
        buildArchivePackage unicode sha256Hex archiveCase loaded = .ok archive ∧
        buildFgsPackage sha256Hex archive (agentsFor services archiveCase state.caseRow) =
          .ok descriptor ∧
        sealedFiles unicode archive descriptor = files := by
  unfold exportedFiles
  simp only [except_guard_eq_ok, except_bind_eq_ok, except_mapError_eq_ok]
  constructor
  · rintro ⟨hname, archiveCase, hcase, loaded, hloaded, archive, harchive, descriptor, hdescriptor,
      heq⟩
    exact ⟨hname, archiveCase, loaded, archive, descriptor, hcase, hloaded, harchive, hdescriptor,
      Except.ok.inj heq⟩
  · rintro ⟨hname, archiveCase, loaded, archive, descriptor, hcase, hloaded, harchive, hdescriptor,
      rfl⟩
    exact ⟨hname, archiveCase, hcase, loaded, hloaded, archive, harchive, descriptor, hdescriptor,
      rfl⟩

theorem mem_sealedFiles {archive : ArchivePackage} {descriptor file : EvidenceFile} :
    file ∈ sealedFiles unicode archive descriptor ↔
      file ∈ archive.files ∨ file = manifestFile archive.manifest ∨ file = descriptor := by
  rw [sealedFiles, mem_sortByText, List.mem_append, List.mem_cons, List.mem_singleton]

end

end Kommunsign
