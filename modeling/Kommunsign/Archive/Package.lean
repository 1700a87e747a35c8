import Kommunsign.Evidence.Package

/-!
# The archive package

A closed case goes to the archive as files with a manifest that describes them; the digest of the
manifest is delivered beside the package.

* `assertArchivable`, `assertPath` — what may be archived, and under which paths
* `buildArchivePackage` — the package of a case and its files
-/

namespace Kommunsign

open Infra

inductive ArchiveErrorCode where
  | ARCHIVE_DOCUMENT_MISSING
  | ARCHIVE_SIGNATURE_EVIDENCE_MISSING
  | ARCHIVE_IDENTITY_EVIDENCE_MISSING
  | ARCHIVE_AUDIT_TRAIL_MISSING
  | ARCHIVE_CASE_NOT_CLOSED
  | ARCHIVE_PROFILE_NOT_VERIFIED
  | ARCHIVE_PATH_INVALID
  deriving DecidableEq

structure ArchiveError where
  code : ArchiveErrorCode
  message : Text
  deriving DecidableEq

/-! ## The case -/

inductive PdfProfile where
  | PDFA2b
  | PDFA3b
  deriving DecidableEq

structure ArchiveDocument where
  documentId : Text
  documentVersionId : Text
  displayName : Text
  sha256 : Text
  byteSize : Nat
  verifiedProfile : Option PdfProfile
  isSignedArtifact : Bool
  deriving DecidableEq

structure ArchiveSignatureEvidence where
  signerId : Text
  signedAt : Text
  padesLevel : Option Text
  signatureArtifactSha256 : Option Text
  validationReportSha256 : Option Text
  timestampTokenSha256 : Option Text
  deriving DecidableEq

structure ArchiveIdentityEvidence where
  signerId : Text
  provider : Text
  assuranceLevel : Text
  maskedIdentifier : Text
  verifiedAt : Text
  evidenceSha256 : Text
  deriving DecidableEq

structure ArchiveCase where
  tenantId : Text
  signatureCaseId : Text
  reference : Text
  title : Text
  decisionMode : DecisionMode
  createdAt : Text
  closedAt : Option Text
  documents : List ArchiveDocument
  signatures : List ArchiveSignatureEvidence
  identities : List ArchiveIdentityEvidence
  auditTrailSha256 : Option Text
  deriving DecidableEq

def decisionModeName : DecisionMode → Text
  | .DIGITAL_APPROVAL => "DIGITAL_APPROVAL".toList
  | .ELECTRONIC_SIGNATURE => "ELECTRONIC_SIGNATURE".toList

/-! ## Completeness -/

def assertProfile (document : ArchiveDocument) : Except ArchiveError Unit :=
  if document.verifiedProfile = none then
    .error ⟨.ARCHIVE_PROFILE_NOT_VERIFIED, "Document ".toList ++ document.displayName ++
      " has no verified PDF/A profile and may not be exported for preservation".toList⟩
  else .ok ()

/-- An absent digest and an empty one are the same to the check. -/
def ArchiveSignatureEvidence.HasEvidence (signature : ArchiveSignatureEvidence) : Prop :=
  signature.signatureArtifactSha256.getD [] ≠ [] ∧ signature.validationReportSha256.getD [] ≠ []

instance (signature : ArchiveSignatureEvidence) : Decidable signature.HasEvidence :=
  inferInstanceAs (Decidable (_ ∧ _))

def assertSignatureEvidence (signature : ArchiveSignatureEvidence) : Except ArchiveError Unit :=
  if ¬signature.HasEvidence then
    .error ⟨.ARCHIVE_SIGNATURE_EVIDENCE_MISSING, "Signature by ".toList ++
      signature.signerId ++ " has no artifact or validation report".toList⟩
  else .ok ()

def assertIdentified (identities : List ArchiveIdentityEvidence)
    (signature : ArchiveSignatureEvidence) : Except ArchiveError Unit :=
  if signature.signerId ∉ identities.map (·.signerId) then
    .error ⟨.ARCHIVE_IDENTITY_EVIDENCE_MISSING,
      "Signature by ".toList ++ signature.signerId ++ " has no identity evidence".toList⟩
  else .ok ()

/-- Only an electronic signature needs signatures with their evidence. -/
def assertSigned (archiveCase : ArchiveCase) : Except ArchiveError Unit :=
  if archiveCase.decisionMode = .ELECTRONIC_SIGNATURE then
    if archiveCase.signatures = [] then
      .error ⟨.ARCHIVE_SIGNATURE_EVIDENCE_MISSING,
        "An electronic signature case carries no signature evidence".toList⟩
    else forM archiveCase.signatures assertSignatureEvidence
  else .ok ()

def assertArchivable (archiveCase : ArchiveCase) : Except ArchiveError Unit := do
  if archiveCase.closedAt = none then
    throw ⟨.ARCHIVE_CASE_NOT_CLOSED, "Only a closed case may be exported for preservation".toList⟩
  if archiveCase.documents = [] then
    throw ⟨.ARCHIVE_DOCUMENT_MISSING, "The case has no documents to preserve".toList⟩
  forM archiveCase.documents assertProfile
  assertSigned archiveCase
  forM archiveCase.signatures (assertIdentified archiveCase.identities)
  if archiveCase.auditTrailSha256 = none then
    throw ⟨.ARCHIVE_AUDIT_TRAIL_MISSING, "The case has no audit trail hash to preserve".toList⟩

/-! ## Paths -/

/-- `[A-Za-z0-9]` -/
def isAlphanumeric (c : Char) : Bool :=
  ('A' ≤ c && c ≤ 'Z') || ('a' ≤ c && c ≤ 'z') || ('0' ≤ c && c ≤ '9')

/-- `[A-Za-z0-9._-]` -/
def isArchiveChar (c : Char) : Bool := isAlphanumeric c || c ∈ ['.', '_', '-']

/-- `[A-Za-z0-9][A-Za-z0-9._-]{0,120}` -/
def isArchiveName : Text → Bool
  | [] => false
  | c :: rest => isAlphanumeric c && rest.all isArchiveChar && rest.length ≤ 120

inductive ArchiveCategory where
  | content
  | metadata
  | evidence
  deriving DecidableEq

def ArchiveCategory.all : List ArchiveCategory := [.content, .metadata, .evidence]

def ArchiveCategory.name : ArchiveCategory → Text
  | .content => "content".toList
  | .metadata => "metadata".toList
  | .evidence => "evidence".toList

/-- The directory of a category. -/
def ArchiveCategory.directory (category : ArchiveCategory) : Text := category.name ++ ['/']

/-- `PATH_PATTERN`, and no two dots in a row. -/
def isArchivePath (path : Text) : Bool :=
  (ArchiveCategory.all.any fun category =>
    startsWith path category.directory && isArchiveName (path.drop category.directory.length)) &&
    !includes path "..".toList

def assertPath (path : Text) : Except ArchiveError Text :=
  if isArchivePath path then .ok path
  else .error ⟨.ARCHIVE_PATH_INVALID, "Invalid package path ".toList ++ path⟩

def categoryOf (path : Text) : ArchiveCategory :=
  if startsWith path (ArchiveCategory.directory .content) then .content
  else if startsWith path (ArchiveCategory.directory .metadata) then .metadata
  else .evidence

/-! ## The manifest -/

structure ArchiveManifestEntry where
  path : Text
  sha256 : Text
  bytes : Int
  mediaType : Text
  category : ArchiveCategory
  deriving DecidableEq

structure ArchiveManifest where
  schema : Text
  profileVersion : Int
  regulation : Text
  tenantId : Text
  signatureCaseId : Text
  reference : Text
  title : Text
  decisionMode : Text
  createdAt : Text
  closedAt : Text
  entries : List ArchiveManifestEntry
  signatures : List ArchiveSignatureEvidence
  identities : List ArchiveIdentityEvidence
  auditTrailSha256 : Text
  deriving DecidableEq

def ArchiveManifestEntry.json (entry : ArchiveManifestEntry) : Json :=
  .object [("path", .str entry.path), ("sha256", .str entry.sha256), ("bytes", .num entry.bytes),
    ("mediaType", .str entry.mediaType), ("category", .str entry.category.name)]

def ArchiveSignatureEvidence.json (signature : ArchiveSignatureEvidence) : Json :=
  .object [("signerId", .str signature.signerId), ("signedAt", .str signature.signedAt),
    ("padesLevel", textOrNull signature.padesLevel),
    ("signatureArtifactSha256", textOrNull signature.signatureArtifactSha256),
    ("validationReportSha256", textOrNull signature.validationReportSha256),
    ("timestampTokenSha256", textOrNull signature.timestampTokenSha256)]

def ArchiveIdentityEvidence.json (identity : ArchiveIdentityEvidence) : Json :=
  .object [("signerId", .str identity.signerId), ("provider", .str identity.provider),
    ("assuranceLevel", .str identity.assuranceLevel),
    ("maskedIdentifier", .str identity.maskedIdentifier),
    ("verifiedAt", .str identity.verifiedAt), ("evidenceSha256", .str identity.evidenceSha256)]

def ArchiveManifest.json (manifest : ArchiveManifest) : Json :=
  .object [("schema", .str manifest.schema), ("profileVersion", .num manifest.profileVersion),
    ("regulation", .str manifest.regulation), ("tenantId", .str manifest.tenantId),
    ("signatureCaseId", .str manifest.signatureCaseId), ("reference", .str manifest.reference),
    ("title", .str manifest.title), ("decisionMode", .str manifest.decisionMode),
    ("createdAt", .str manifest.createdAt), ("closedAt", .str manifest.closedAt),
    ("entries", .arr (manifest.entries.map (·.json))),
    ("signatures", .arr (manifest.signatures.map (·.json))),
    ("identities", .arr (manifest.identities.map (·.json))),
    ("auditTrailSha256", .str manifest.auditTrailSha256)]

def archivePackageSchema : Text := "kommunsign.fgs-package.v1".toList

def manifestSha256 (sha256Hex : Bytes → Text) (manifest : ArchiveManifest) : Text :=
  sha256Hex (utf8 (canonicalJson manifest.json))

/-! ## The package -/

structure ArchivePackage where
  manifest : ArchiveManifest
  files : List EvidenceFile
  manifestSha256 : Text
  deriving DecidableEq

/-- What the manifest says of a file. -/
def describe (sha256Hex : Bytes → Text) (file : EvidenceFile) : ArchiveManifestEntry where
  path := file.path
  sha256 := sha256Hex file.bytes
  bytes := file.bytes.length
  mediaType := file.mediaType
  category := categoryOf file.path

def archiveEntry (sha256Hex : Bytes → Text) (file : EvidenceFile) :
    Except ArchiveError ArchiveManifestEntry := do
  let path ← assertPath file.path
  return describe sha256Hex { file with path := path }

/-- `items.sort((a, b) => key(a).localeCompare(key(b), 'en'))` -/
def sortByText {α : Type} (unicode : UnicodeTexts) (key : α → Text) (items : List α) : List α :=
  items.insertionSort fun a b => unicode.localeLe (key a) (key b)

def archiveManifest (unicode : UnicodeTexts) (archiveCase : ArchiveCase)
    (entries : List ArchiveManifestEntry) : ArchiveManifest where
  schema := archivePackageSchema
  profileVersion := 1
  regulation := "RA-FS 2009:2".toList
  tenantId := archiveCase.tenantId
  signatureCaseId := archiveCase.signatureCaseId
  reference := archiveCase.reference
  title := archiveCase.title
  decisionMode := decisionModeName archiveCase.decisionMode
  createdAt := archiveCase.createdAt
  closedAt := archiveCase.closedAt.getD []
  entries := entries
  signatures := sortByText unicode (·.signerId) archiveCase.signatures
  identities := sortByText unicode (·.signerId) archiveCase.identities
  auditTrailSha256 := archiveCase.auditTrailSha256.getD []

def buildArchivePackage (unicode : UnicodeTexts) (sha256Hex : Bytes → Text)
    (archiveCase : ArchiveCase) (files : List EvidenceFile) :
    Except ArchiveError ArchivePackage := do
  assertArchivable archiveCase
  let entries ← files.mapM (archiveEntry sha256Hex)
  let entries := sortByText unicode (·.path) entries
  if ¬(entries.map (·.path)).Nodup then
    throw ⟨.ARCHIVE_PATH_INVALID, "Duplicate path in archive package".toList⟩
  if ¬entries.any (·.category = .content) then
    throw ⟨.ARCHIVE_DOCUMENT_MISSING, "The package contains no content files".toList⟩
  let manifest := archiveManifest unicode archiveCase entries
  return {
    manifest := manifest
    files := sortByText unicode (·.path) files
    manifestSha256 := manifestSha256 sha256Hex manifest }

/-! ## Verification without the system -/

/-- `new Map(files.map((file) => [file.path, file])).get(path)`: the last file of a path stays. -/
def fileAt (files : List EvidenceFile) (path : Text) : Option EvidenceFile :=
  files.reverse.find? (·.path = path)

def entryFailures (sha256Hex : Bytes → Text) (files : List EvidenceFile)
    (entry : ArchiveManifestEntry) : List Text :=
  match fileAt files entry.path with
  | none => ["Missing file: ".toList ++ entry.path]
  | some file =>
    (if (file.bytes.length : Int) ≠ entry.bytes then ["Size mismatch: ".toList ++ entry.path]
      else []) ++
    (if sha256Hex file.bytes ≠ entry.sha256 then ["Hash mismatch: ".toList ++ entry.path] else [])

def unexpectedFailures (manifest : ArchiveManifest) (file : EvidenceFile) : List Text :=
  if manifest.entries.any (·.path = file.path) then []
  else ["Unexpected file: ".toList ++ file.path]

/-- The failures; the package is verified when there is none. -/
def verifyArchivePackage (sha256Hex : Bytes → Text) (manifest : ArchiveManifest)
    (files : List EvidenceFile) (expectedManifestSha256 : Text) : List Text :=
  if manifestSha256 sha256Hex manifest ≠ expectedManifestSha256 then
    ["Manifest hash does not match the delivered manifest hash".toList]
  else if manifest.schema ≠ archivePackageSchema then
    ["Unknown package schema ".toList ++ manifest.schema]
  else
    manifest.entries.flatMap (entryFailures sha256Hex files) ++
      files.flatMap (unexpectedFailures manifest)

/-! ## When there is a package -/

/-- What `assertArchivable` asks of a case. -/
structure ArchiveCase.Archivable (archiveCase : ArchiveCase) : Prop where
  closed : archiveCase.closedAt ≠ none
  documents : archiveCase.documents ≠ []
  profiles : ∀ document ∈ archiveCase.documents, document.verifiedProfile ≠ none
  signed : archiveCase.decisionMode = .ELECTRONIC_SIGNATURE →
    archiveCase.signatures ≠ [] ∧ ∀ signature ∈ archiveCase.signatures, signature.HasEvidence
  identified : ∀ signature ∈ archiveCase.signatures,
    signature.signerId ∈ archiveCase.identities.map (·.signerId)
  audited : archiveCase.auditTrailSha256 ≠ none

/-- What the paths of the files have to be. -/
structure ArchivePaths (paths : List Text) : Prop where
  accepted : ∀ path ∈ paths, isArchivePath path = true
  nodup : paths.Nodup
  content : ∃ path ∈ paths, categoryOf path = .content

section Checks

variable {α ε : Type} {check : α → Except ε Unit} {items : List α}

theorem forM_eq_ok : forM items check = .ok () ↔ ∀ item ∈ items, check item = .ok () := by
  induction items with
  | nil => exact ⟨fun _ _ h => absurd h List.not_mem_nil, fun _ => rfl⟩
  | cons item items ih =>
    rw [List.forM_cons, List.forall_mem_cons, ← ih, except_bind_eq_ok]
    exact ⟨fun ⟨_, hitem, hitems⟩ => ⟨hitem, hitems⟩, fun ⟨hitem, hitems⟩ => ⟨_, hitem, hitems⟩⟩

theorem except_check_eq_ok {x : Except ε Unit} {f : Unit → Except ε α} {b : α} :
    x >>= f = .ok b ↔ x = .ok () ∧ f () = .ok b := by
  rw [except_bind_eq_ok]
  exact ⟨fun ⟨_, hx, hf⟩ => ⟨hx, hf⟩, fun ⟨hx, hf⟩ => ⟨(), hx, hf⟩⟩

theorem except_if_error_eq_ok {c : Prop} [Decidable c] {e : ε} :
    (if c then .error e else .ok () : Except ε Unit) = .ok () ↔ ¬c := by
  by_cases h : c <;> simp [h]

end Checks

theorem assertSigned_eq_ok {archiveCase : ArchiveCase} :
    assertSigned archiveCase = .ok () ↔ (archiveCase.decisionMode = .ELECTRONIC_SIGNATURE →
      archiveCase.signatures ≠ [] ∧
        ∀ signature ∈ archiveCase.signatures, signature.HasEvidence) := by
  unfold assertSigned
  by_cases hmode : archiveCase.decisionMode = .ELECTRONIC_SIGNATURE
  · by_cases hnil : archiveCase.signatures = []
    · simp [hmode, hnil]
    · simp only [hmode, hnil, if_true, if_false, forM_eq_ok, assertSignatureEvidence,
        except_if_error_eq_ok, not_not, ne_eq, not_false_eq_true, true_and, forall_const]
  · simp [hmode]

theorem assertArchivable_eq_ok {archiveCase : ArchiveCase} :
    assertArchivable archiveCase = .ok () ↔ archiveCase.Archivable := by
  unfold assertArchivable
  simp only [except_guard_eq_ok, except_check_eq_ok, forM_eq_ok, assertProfile, assertIdentified,
    except_if_error_eq_ok, assertSigned_eq_ok, except_guard_end_eq_ok, not_not]
  constructor
  · rintro ⟨hclosed, hdocuments, hprofiles, hsigned, hidentified, haudited, -⟩
    exact ⟨hclosed, hdocuments, hprofiles, hsigned, hidentified, haudited⟩
  · rintro ⟨hclosed, hdocuments, hprofiles, hsigned, hidentified, haudited⟩
    exact ⟨hclosed, hdocuments, hprofiles, hsigned, hidentified, haudited, trivial⟩

theorem archiveEntry_eq_ok {sha256Hex : Bytes → Text} {file : EvidenceFile}
    {entry : ArchiveManifestEntry} : archiveEntry sha256Hex file = .ok entry ↔
      isArchivePath file.path = true ∧ entry = describe sha256Hex file := by
  unfold archiveEntry assertPath
  by_cases hpath : isArchivePath file.path = true
  · rw [if_pos hpath]
    exact ⟨fun h => ⟨hpath, (Except.ok.inj h).symm⟩, fun h => congrArg _ h.2.symm⟩
  · rw [if_neg hpath]
    exact ⟨nofun, fun h => absurd h.1 hpath⟩

theorem mapM_archiveEntry_eq_ok {sha256Hex : Bytes → Text} {files : List EvidenceFile}
    {entries : List ArchiveManifestEntry} : files.mapM (archiveEntry sha256Hex) = .ok entries ↔
      (∀ file ∈ files, isArchivePath file.path = true) ∧
        entries = files.map (describe sha256Hex) := by
  induction files generalizing entries with
  | nil => exact ⟨fun h => ⟨fun _ hmem => (nomatch hmem), (Except.ok.inj h).symm⟩,
      fun h => congrArg Except.ok h.2.symm⟩
  | cons file files ih =>
    rw [List.mapM_cons, List.forall_mem_cons, except_bind_eq_ok]
    constructor
    · rintro ⟨entry, hentry, hrest⟩
      obtain ⟨rest, hmap, heq⟩ := except_bind_eq_ok.mp hrest
      obtain ⟨hpath, rfl⟩ := archiveEntry_eq_ok.mp hentry
      obtain ⟨hpaths, rfl⟩ := ih.mp hmap
      exact ⟨⟨hpath, hpaths⟩, (Except.ok.inj heq).symm⟩
    · rintro ⟨⟨hpath, hpaths⟩, rfl⟩
      exact ⟨_, archiveEntry_eq_ok.mpr ⟨hpath, rfl⟩,
        except_bind_eq_ok.mpr ⟨_, ih.mpr ⟨hpaths, rfl⟩, rfl⟩⟩

theorem perm_sortByText {α : Type} (unicode : UnicodeTexts) (key : α → Text) (items : List α) :
    (sortByText unicode key items).Perm items :=
  List.perm_insertionSort _ items

theorem mem_sortByText {α : Type} {unicode : UnicodeTexts} {key : α → Text} {items : List α}
    {item : α} : item ∈ sortByText unicode key items ↔ item ∈ items :=
  (perm_sortByText unicode key items).mem_iff

/-- The package of a case that may be archived. -/
def packageOfCase (unicode : UnicodeTexts) (sha256Hex : Bytes → Text) (archiveCase : ArchiveCase)
    (files : List EvidenceFile) : ArchivePackage :=
  let manifest := archiveManifest unicode archiveCase
    (sortByText unicode (·.path) (files.map (describe sha256Hex)))
  { manifest := manifest
    files := sortByText unicode (·.path) files
    manifestSha256 := manifestSha256 sha256Hex manifest }

section Built

variable {unicode : UnicodeTexts} {sha256Hex : Bytes → Text} {archiveCase : ArchiveCase}
  {files : List EvidenceFile}

theorem map_path_entries :
    ((sortByText unicode (·.path) (files.map (describe sha256Hex))).map (·.path)).Perm
      (files.map (·.path)) := by
  have hperm := (perm_sortByText unicode (·.path) (files.map (describe sha256Hex))).map
    ArchiveManifestEntry.path
  rw [List.map_map] at hperm
  exact hperm

theorem buildArchivePackage_eq_ok {package : ArchivePackage} :
    buildArchivePackage unicode sha256Hex archiveCase files = .ok package ↔
      archiveCase.Archivable ∧ ArchivePaths (files.map (·.path)) ∧
        packageOfCase unicode sha256Hex archiveCase files = package := by
  have hcontent : ((sortByText unicode (·.path) (files.map (describe sha256Hex))).any
      (·.category = .content)) = true ↔ ∃ path ∈ files.map (·.path), categoryOf path = .content := by
    simp [List.any_eq_true, mem_sortByText, describe]
  unfold buildArchivePackage
  rw [except_check_eq_ok, assertArchivable_eq_ok]
  simp only [except_bind_eq_ok, mapM_archiveEntry_eq_ok, except_guard_eq_ok, not_not]
  constructor
  · rintro ⟨harchivable, -, ⟨hpaths, rfl⟩, hnodup, hsome, heq⟩
    refine ⟨harchivable, ⟨?_, map_path_entries.nodup_iff.mp hnodup, hcontent.mp hsome⟩,
      Except.ok.inj heq⟩
    exact List.forall_mem_map.mpr hpaths
  · rintro ⟨harchivable, hpaths, rfl⟩
    exact ⟨harchivable, _, ⟨List.forall_mem_map.mp hpaths.accepted, rfl⟩,
      map_path_entries.nodup_iff.mpr hpaths.nodup, hcontent.mpr hpaths.content, rfl⟩

end Built

end Kommunsign
