import Kommunsign.Archive.ExportJob
import Kommunsign.Properties.ArchivePaths

/-!
# What an archive package contains of what it cites

The manifest cites digests of documents, signed revisions, reports and identity evidence, which the
case brings along; the files come from elsewhere. The build asks for one file under `content/` and
compares no digest.

* `archive_selfContained_iff` — for which cases and files every package is self-contained
* `export_discreet_iff` — the exports that tell them not apart
-/

namespace Kommunsign

open Infra

def HasFile (sha256Hex : Bytes → Text) (files : List EvidenceFile) (digest : Text) : Prop :=
  ∃ file ∈ files, sha256Hex file.bytes = digest

/-- The package has the documents of the case, and what its manifest cites. -/
structure SelfContained (sha256Hex : Bytes → Text) (archiveCase : ArchiveCase)
    (package : ArchivePackage) : Prop where
  documents : ∀ document ∈ archiveCase.documents, HasFile sha256Hex package.files document.sha256
  artifacts : ∀ signature ∈ package.manifest.signatures,
    ∀ digest ∈ signature.signatureArtifactSha256, HasFile sha256Hex package.files digest
  reports : ∀ signature ∈ package.manifest.signatures,
    ∀ digest ∈ signature.validationReportSha256, HasFile sha256Hex package.files digest
  identities : ∀ identity ∈ package.manifest.identities,
    HasFile sha256Hex package.files identity.evidenceSha256

def ArchiveCase.citedDigests (archiveCase : ArchiveCase) : List Text :=
  archiveCase.documents.map (·.sha256) ++
    archiveCase.signatures.flatMap (fun signature =>
      signature.signatureArtifactSha256.toList ++ signature.validationReportSha256.toList) ++
    archiveCase.identities.map (·.evidenceSha256)

section

variable {unicode : UnicodeTexts} {sha256Hex : Bytes → Text} {archiveCase : ArchiveCase}
  {files : List EvidenceFile}

theorem hasFile_packageOfCase (digest : Text) :
    HasFile sha256Hex (packageOfCase unicode sha256Hex archiveCase files).files digest ↔
      HasFile sha256Hex files digest :=
  exists_congr fun _ => and_congr_left fun _ => mem_sortByText

theorem selfContained_packageOfCase_iff :
    SelfContained sha256Hex archiveCase (packageOfCase unicode sha256Hex archiveCase files) ↔
      ∀ digest ∈ archiveCase.citedDigests, HasFile sha256Hex files digest := by
  have hfile : ∀ digest, HasFile sha256Hex
      (packageOfCase unicode sha256Hex archiveCase files).files digest ↔
      HasFile sha256Hex files digest := hasFile_packageOfCase
  have hsignature : ∀ signature, signature ∈
      (packageOfCase unicode sha256Hex archiveCase files).manifest.signatures ↔
      signature ∈ archiveCase.signatures := fun _ => mem_sortByText
  have hidentity : ∀ identity, identity ∈
      (packageOfCase unicode sha256Hex archiveCase files).manifest.identities ↔
      identity ∈ archiveCase.identities := fun _ => mem_sortByText
  constructor
  · rintro ⟨hdocuments, hartifacts, hreports, hidentities⟩ digest hdigest
    rw [← hfile]
    rcases List.mem_append.mp hdigest with hdigest | hdigest
    · rcases List.mem_append.mp hdigest with hdigest | hdigest
      · obtain ⟨document, hmem, rfl⟩ := List.mem_map.mp hdigest
        exact hdocuments document hmem
      · obtain ⟨signature, hmem, hdigest⟩ := List.mem_flatMap.mp hdigest
        rcases List.mem_append.mp hdigest with hdigest | hdigest
        · exact hartifacts _ ((hsignature _).mpr hmem) _ (Option.mem_toList.mp hdigest)
        · exact hreports _ ((hsignature _).mpr hmem) _ (Option.mem_toList.mp hdigest)
    · obtain ⟨identity, hmem, rfl⟩ := List.mem_map.mp hdigest
      exact hidentities identity ((hidentity _).mpr hmem)
  · intro hcited
    refine ⟨fun document hmem => ?_, fun signature hmem digest hdigest => ?_,
      fun signature hmem digest hdigest => ?_, fun identity hmem => ?_⟩
    all_goals refine (hfile _).mpr (hcited _ ?_)
    · exact List.mem_append_left _ (List.mem_append_left _ (List.mem_map_of_mem hmem))
    · refine List.mem_append_left _ (List.mem_append_right _ (List.mem_flatMap.mpr ?_))
      exact ⟨signature, (hsignature _).mp hmem,
        List.mem_append_left _ (Option.mem_toList.mpr hdigest)⟩
    · refine List.mem_append_left _ (List.mem_append_right _ (List.mem_flatMap.mpr ?_))
      exact ⟨signature, (hsignature _).mp hmem,
        List.mem_append_right _ (Option.mem_toList.mpr hdigest)⟩
    · exact List.mem_append_right _ (List.mem_map_of_mem ((hidentity _).mp hmem))

theorem categoryOf_archivePath {path : Text} (h : hasCategory path = false) :
    categoryOf (archivePath path) = .evidence := by
  rw [archivePath_of_not_hasCategory h]
  rfl

theorem evidence_package_refused {info : EvidenceCase} {audits : List Json}
    {package : SealedPackage}
    (h : sealEvidencePackage unicode sha256Hex info none audits = .ok package)
    (hload : loadPackageFiles sha256Hex (packageFileRows sha256Hex package) = .ok files)
    (archive : ArchivePackage) :
    buildArchivePackage unicode sha256Hex archiveCase files ≠ .ok archive := by
  intro hbuild
  obtain ⟨-, hpaths, -⟩ := buildArchivePackage_eq_ok.mp hbuild
  obtain rfl := Except.ok.inj ((loadPackageFiles_packageFileRows _ _).symm.trans hload)
  obtain ⟨path, hmem, hcontent⟩ := hpaths.content
  rw [List.map_map] at hmem
  obtain ⟨file, hfile, rfl⟩ := List.mem_map.mp hmem
  have hkind := (mem_sealed_paths h).mp (List.mem_map_of_mem hfile)
  have hevidence := categoryOf_archivePath (hasCategory_packagePath hkind)
  exact absurd (hevidence.symm.trans hcontent) (by decide)

end

/-- Every package of the case and the files is self-contained exactly when each digest that the case
brings along is that of one of the files, or when there is no package. -/
theorem archive_selfContained_iff (unicode : UnicodeTexts) (sha256Hex : Bytes → Text)
    (archiveCase : ArchiveCase) (files : List EvidenceFile) :
    (∀ package, buildArchivePackage unicode sha256Hex archiveCase files = .ok package →
        SelfContained sha256Hex archiveCase package) ↔
      (archiveCase.Archivable → ArchivePaths (files.map (·.path)) →
        ∀ digest ∈ archiveCase.citedDigests, HasFile sha256Hex files digest) := by
  constructor
  · intro hall harchivable hpaths
    have hself : SelfContained sha256Hex archiveCase
        (packageOfCase unicode sha256Hex archiveCase files) :=
      hall _ (buildArchivePackage_eq_ok.mpr ⟨harchivable, hpaths, rfl⟩)
    exact selfContained_packageOfCase_iff.mp hself
  · intro hcited package hbuild
    obtain ⟨harchivable, hpaths, rfl⟩ := buildArchivePackage_eq_ok.mp hbuild
    exact selfContained_packageOfCase_iff.mpr (hcited harchivable hpaths)

/-- The case is archived with its document as it was before it was signed, and without the signed
revision that its signature cites. -/
theorem signed_revision_missing : ∃ package,
    buildArchivePackage characterOrder transcript
        (signedCase [signatureOn ['1'], signatureOn ['2']]) decisionFiles = .ok package ∧
      HasFile transcript package.files ['a'] ∧ ¬ HasFile transcript package.files ['1'] ∧
      ¬ SelfContained transcript (signedCase [signatureOn ['1'], signatureOn ['2']]) package := by
  have harchivable := signedCase_archivable (List.cons_ne_nil '1' []) (List.cons_ne_nil '2' [])
  have hmissing : ¬ HasFile transcript decisionFiles ['1'] := by
    rintro ⟨file, hfile, hdigest⟩
    obtain rfl := List.mem_singleton.mp hfile
    exact absurd hdigest (by decide)
  refine ⟨_, buildArchivePackage_eq_ok.mpr ⟨harchivable, decisionFiles_paths, rfl⟩, ?_, ?_, ?_⟩
  · exact (hasFile_packageOfCase _).mpr ⟨_, List.mem_singleton.mpr rfl, rfl⟩
  · exact fun h => hmissing ((hasFile_packageOfCase _).mp h)
  · intro hself
    refine hmissing (selfContained_packageOfCase_iff.mp hself ['1'] ?_)
    decide

/-!
# What an archive tells of the numbers of the signers

The manifest carries a number masked, or a placeholder. The files of the evidence package go along
as they are, and three of them for each signer have the number in them: the answer that was
collected, the signature in it, and the report on both.
-/

def rawIdentityNames : List Text :=
  ["tic-collect-response.json".toList, "tic-signature.xml".toList,
    "verification-report.json".toList]

def isRawIdentity (path : Text) : Bool := rawIdentityNames.any fun name => name.isSuffixOf path

/-- Rows that differ in the number, which has one masked form where that may be shown at all. -/
structure SameIdentity (tenantId : Text) (now : Time) (row row' : ArchiveIdentityRow) : Prop where
  rest : { row' with verifiedIdentifier := row.verifiedIdentifier } = row
  masked : disclosesNumber tenantId now row = true →
    maskedForm row'.verifiedIdentifier = maskedForm row.verifiedIdentifier

structure SameFileRow (row row' : PackageFileRow) : Prop where
  path : row'.path = row.path
  mediaType : row'.mediaType = row.mediaType
  kept : isRawIdentity row.path = false → row' = row

structure SameButNumbers (state state' : ArchiveState) : Prop where
  rest : { state' with
    identities := state.identities, packageFiles := state.packageFiles } = state
  identities : List.Forall₂ (SameIdentity state.tenantId state.now) state.identities
    state'.identities
  files : List.Forall₂ SameFileRow state.packageFiles state'.packageFiles

/-! ## The manifest -/

section Manifest

variable {tenantId : Text} {now : Time} {row row' : ArchiveIdentityRow}

theorem disclosesNumber_congr (h : SameIdentity tenantId now row row') :
    disclosesNumber tenantId now row' = disclosesNumber tenantId now row := by
  rw [← h.rest]
  rfl

theorem archiveIdentity_congr (h : SameIdentity tenantId now row row') :
    archiveIdentity tenantId now row' = archiveIdentity tenantId now row := by
  have hidentifier : maskedIdentifier tenantId now row' = maskedIdentifier tenantId now row := by
    unfold maskedIdentifier
    rw [disclosesNumber_congr h]
    by_cases hdiscloses : disclosesNumber tenantId now row = true
    · rw [if_pos hdiscloses, if_pos hdiscloses, h.masked hdiscloses]
    · rw [if_neg hdiscloses, if_neg hdiscloses]
  unfold archiveIdentity
  rw [hidentifier, ← h.rest]

theorem mapM_congr_of_forall₂ {α β ε : Type} {f : α → Except ε β} {items items' : List α}
    (h : List.Forall₂ (fun a b => f b = f a) items items') : items'.mapM f = items.mapM f := by
  induction h with
  | nil => rfl
  | cons hhead _ ih => rw [List.mapM_cons, List.mapM_cons, hhead, ih]

end Manifest

section Export

variable {unicode : UnicodeTexts} {sha256Hex : Bytes → Text} {services : ArchiveServices}
  {state state' : ArchiveState}

theorem loadArchiveCase_congr (h : SameButNumbers state state') :
    loadArchiveCase sha256Hex state' = loadArchiveCase sha256Hex state := by
  have hidentities : state'.identities.mapM (archiveIdentity state.tenantId state.now) =
      state.identities.mapM (archiveIdentity state.tenantId state.now) :=
    mapM_congr_of_forall₂ (h.identities.imp fun _ _ => archiveIdentity_congr)
  have hrest := h.rest
  obtain ⟨tenantId, caseRow, documents, signatures, identities, auditDigest, files, now⟩ := state
  obtain ⟨tenantId', caseRow', documents', signatures', identities', auditDigest', files', now'⟩ :=
    state'
  cases hrest
  unfold loadArchiveCase
  dsimp only at hidentities ⊢
  rw [hidentities]

theorem exportedFiles_congr (h : SameButNumbers state state')
    (hraw : ∀ row ∈ state.packageFiles, isRawIdentity row.path = false) :
    exportedFiles unicode sha256Hex services state' =
      exportedFiles unicode sha256Hex services state := by
  have hkept : ∀ rows rows', List.Forall₂ SameFileRow rows rows' →
      (∀ row ∈ rows, isRawIdentity row.path = false) → rows' = rows := by
    intro rows rows' hrows
    induction hrows with
    | nil => exact fun _ => rfl
    | cons hhead _ ih =>
      intro hall
      obtain ⟨hrow, hrest⟩ := List.forall_mem_cons.mp hall
      rw [hhead.kept hrow, ih hrest]
  have hfiles := hkept _ _ h.files hraw
  have hrow : state'.caseRow = state.caseRow := by
    have hrest := congrArg (fun s : ArchiveState => s.caseRow) h.rest
    exact hrest
  unfold exportedFiles
  rw [loadArchiveCase_congr h, hfiles, hrow]

/-! ## The files -/

def loadedFile (row : PackageFileRow) : EvidenceFile :=
  ⟨archivePath row.path, row.object, row.mediaType⟩

theorem loadPackageFiles_eq_ok {rows : List PackageFileRow} {files : List EvidenceFile} :
    loadPackageFiles sha256Hex rows = .ok files ↔
      (∀ row ∈ rows, sha256Hex row.object = row.sha256) ∧ files = rows.map loadedFile := by
  have hone : ∀ row file, loadPackageFile sha256Hex row = .ok file ↔
      sha256Hex row.object = row.sha256 ∧ file = loadedFile row := by
    intro row file
    unfold loadPackageFile
    by_cases h : sha256Hex row.object = row.sha256
    · rw [if_neg (not_not.mpr h)]
      exact ⟨fun heq => ⟨h, (Except.ok.inj heq).symm⟩, fun heq => congrArg Except.ok heq.2.symm⟩
    · rw [if_pos h]
      exact ⟨nofun, fun heq => absurd heq.1 h⟩
  unfold loadPackageFiles
  induction rows generalizing files with
  | nil => exact ⟨fun h => ⟨fun _ hmem => (nomatch hmem), (Except.ok.inj h).symm⟩,
      fun h => congrArg Except.ok h.2.symm⟩
  | cons row rows ih =>
    rw [List.mapM_cons, List.forall_mem_cons, except_bind_eq_ok]
    constructor
    · rintro ⟨file, hfile, hrest⟩
      obtain ⟨rest, hmap, heq⟩ := except_bind_eq_ok.mp hrest
      obtain ⟨hdigest, rfl⟩ := (hone row file).mp hfile
      obtain ⟨hdigests, rfl⟩ := ih.mp hmap
      exact ⟨⟨hdigest, hdigests⟩, (Except.ok.inj heq).symm⟩
    · rintro ⟨⟨hdigest, hdigests⟩, rfl⟩
      exact ⟨_, (hone row _).mpr ⟨hdigest, rfl⟩,
        except_bind_eq_ok.mpr ⟨_, ih.mpr ⟨hdigests, rfl⟩, rfl⟩⟩

def replaceObject (sha256Hex : Bytes → Text) (row : PackageFileRow) (object : Bytes)
    (other : PackageFileRow) : PackageFileRow :=
  if other = row then { row with object := object, sha256 := sha256Hex object } else other

def ArchiveState.withObject (sha256Hex : Bytes → Text) (state : ArchiveState)
    (row : PackageFileRow) (object : Bytes) : ArchiveState :=
  { state with packageFiles := state.packageFiles.map (replaceObject sha256Hex row object) }

theorem path_replaceObject (row : PackageFileRow) (object : Bytes) (other : PackageFileRow) :
    (replaceObject sha256Hex row object other).path = other.path := by
  unfold replaceObject
  split
  · rename_i heq
    rw [heq]
  · rfl

theorem sameButNumbers_withObject {row : PackageFileRow} (hraw : isRawIdentity row.path = true)
    (object : Bytes) : SameButNumbers state (state.withObject sha256Hex row object) where
  rest := rfl
  identities := List.forall₂_same.mpr fun _ _ => ⟨rfl, fun _ => rfl⟩
  files := by
    refine List.forall₂_map_right_iff.mpr (List.forall₂_same.mpr fun other _ => ?_)
    refine ⟨path_replaceObject row object other, ?_, fun hkept => ?_⟩
    · unfold replaceObject
      split
      · rename_i heq
        rw [heq]
      · rfl
    · -- a row that is kept is not the one with the evidence
      refine if_neg ?_
      rintro rfl
      exact absurd hraw (Bool.eq_false_iff.mp hkept)

theorem exports_withObject {files : List EvidenceFile}
    (h : exportedFiles unicode sha256Hex services state = .ok files) (row : PackageFileRow)
    (object : Bytes) :
    ∃ files', exportedFiles unicode sha256Hex services (state.withObject sha256Hex row object) =
        .ok files' ∧
      (row ∈ state.packageFiles →
        loadedFile { row with object := object, sha256 := sha256Hex object } ∈ files') := by
  obtain ⟨hname, archiveCase, loaded, archive, descriptor, hcase, hloaded, harchive, hdescriptor,
    -⟩ := exportedFiles_eq_ok.mp h
  obtain ⟨hdigests, rfl⟩ := loadPackageFiles_eq_ok.mp hloaded
  obtain ⟨harchivable, hpaths, rfl⟩ := buildArchivePackage_eq_ok.mp harchive
  obtain ⟨hentries, hnamed, -⟩ := buildFgsPackage_eq_ok.mp hdescriptor
  let rows := state.packageFiles.map (replaceObject sha256Hex row object)
  have hload : loadPackageFiles sha256Hex rows = .ok (rows.map loadedFile) := by
    refine loadPackageFiles_eq_ok.mpr ⟨List.forall_mem_map.mpr fun other hother => ?_, rfl⟩
    unfold replaceObject
    split
    · rfl
    · exact hdigests other hother
  have hsame : (rows.map loadedFile).map (·.path) =
      (state.packageFiles.map loadedFile).map (·.path) := by
    simp only [rows, List.map_map]
    exact List.map_congr_left fun other _ => congrArg archivePath (path_replaceObject row object other)
  have hbuild : buildArchivePackage unicode sha256Hex archiveCase (rows.map loadedFile) =
      .ok (packageOfCase unicode sha256Hex archiveCase (rows.map loadedFile)) :=
    buildArchivePackage_eq_ok.mpr ⟨harchivable, hsame ▸ hpaths, rfl⟩
  have hsome : (packageOfCase unicode sha256Hex archiveCase
      (rows.map loadedFile)).manifest.entries ≠ [] := by
    obtain ⟨path, hmem, -⟩ := hpaths.content
    rw [← hsame] at hmem
    obtain ⟨file, hfile, -⟩ := List.mem_map.mp hmem
    exact List.ne_nil_of_mem (mem_sortByText.mpr (List.mem_map_of_mem hfile))
  refine ⟨_, exportedFiles_eq_ok.mpr ⟨hname, archiveCase, _, _, _, hcase, hload, hbuild,
    buildFgsPackage_eq_ok.mpr ⟨hsome, hnamed, rfl⟩, rfl⟩, fun hrow => ?_⟩
  refine mem_sealedFiles.mpr (.inl (mem_sortByText.mpr (List.mem_map_of_mem ?_)))
  exact List.mem_map.mpr ⟨row, hrow, if_pos rfl⟩

theorem archivePath_ne_of_raw {path : Text} (hraw : isRawIdentity path = true) :
    archivePath path ≠ archiveManifestPath ∧ archivePath path ≠ fgsPackageDescriptor := by
  have hkeeps : isRawIdentity (archivePath path) = true := by
    unfold archivePath
    split
    · exact hraw
    · obtain ⟨name, hname, hsuffix⟩ := List.any_eq_true.mp hraw
      obtain ⟨start, rfl⟩ := List.isSuffixOf_iff_suffix.mp hsuffix
      have hslash : ∀ name ∈ rawIdentityNames, '/' ∉ name := by decide
      refine List.any_eq_true.mpr ⟨name, hname, List.isSuffixOf_iff_suffix.mpr ?_⟩
      rw [flattenPath_append, flattenPath_of_not_mem (hslash name hname), ← List.append_assoc]
      exact List.suffix_append _ _
  constructor
  · intro heq
    rw [heq] at hkeeps
    exact absurd hkeeps (by decide)
  · intro heq
    rw [heq] at hkeeps
    exact absurd hkeeps (by decide)

end Export

/-- An export tells states that differ only in numbers and the evidence of them apart, unless the
evidence package has no raw evidence at all. -/
theorem export_discreet_iff (unicode : UnicodeTexts) (sha256Hex : Bytes → Text)
    (services : ArchiveServices) (state : ArchiveState) (files : List EvidenceFile)
    (h : exportedFiles unicode sha256Hex services state = .ok files) :
    (∀ state' files', SameButNumbers state state' →
        exportedFiles unicode sha256Hex services state' = .ok files' → files' = files) ↔
      ∀ row ∈ state.packageFiles, isRawIdentity row.path = false := by
  constructor
  · intro hdiscreet row hrow
    by_contra hnot
    have hraw : isRawIdentity row.path = true := Bool.not_eq_false _ ▸ hnot
    obtain ⟨files', hexport, hmem⟩ := exports_withObject h row (row.object ++ [0])
    have hsame := hdiscreet _ _ (sameButNumbers_withObject hraw _) hexport
    have hfile := hsame ▸ hmem hrow
    obtain ⟨-, archiveCase, loaded, archive, descriptor, -, hloaded, harchive, hdescriptor, rfl⟩ :=
      exportedFiles_eq_ok.mp h
    obtain ⟨-, rfl⟩ := loadPackageFiles_eq_ok.mp hloaded
    obtain ⟨-, hpaths, rfl⟩ := buildArchivePackage_eq_ok.mp harchive
    obtain ⟨-, -, rfl⟩ := buildFgsPackage_eq_ok.mp hdescriptor
    obtain ⟨hmanifest, hdescriptor⟩ := archivePath_ne_of_raw hraw
    -- the path of the row is that of one file of the package
    rcases mem_sealedFiles.mp hfile with hfile | hfile | hfile
    · have hone := List.inj_on_of_nodup_map hpaths.nodup (mem_sortByText.mp hfile)
        (List.mem_map_of_mem hrow) rfl
      have hobject := congrArg (fun file => file.bytes.length) hone
      simp [loadedFile] at hobject
    · exact hmanifest (congrArg EvidenceFile.path hfile)
    · exact hdescriptor (congrArg EvidenceFile.path hfile)
  · intro hraw state' files' hsame hexport
    rw [exportedFiles_congr hsame hraw, h] at hexport
    exact (Except.ok.inj hexport).symm

/-! ## One signer with two numbers -/

/-- An unprotected signer, whose answer of the identification is the number itself. -/
def numberState (number : Text) : ArchiveState where
  tenantId := "t".toList
  caseRow := ⟨"c".toList, "Beslut".toList, none, .DIGITAL_APPROVAL,
    "2026-01-01T00:00:00.000Z".toList, some "2026-01-02T00:00:00.000Z".toList, none⟩
  documents := [⟨"d".toList, "v".toList, "Beslut".toList, some "a".toList, 1,
    some "PDF/A-2b".toList⟩]
  signatures := []
  identities := [⟨"s".toList, "TIC_BANKID".toList, "2026-01-02T00:00:00.000Z".toList, "e".toList,
    some number, none, none⟩]
  auditDigest := some "h".toList
  packageFiles := [
    ⟨"content/beslut.pdf".toList, "application/pdf".toList, transcript [97], [97]⟩,
    ⟨"signers/s/tic-collect-response.json".toList, "application/json".toList,
      transcript (utf8 number), utf8 number⟩]
  now := 0

def archiveServices : ArchiveServices where
  archivistName := "Riksarkivet".toList
  softwareName := "Kommunsign".toList
  softwareVersion := "0.2.0".toList

def answerPath : Text := archivePath "signers/s/tic-collect-response.json".toList

theorem numberState_paths (number : Text) :
    ArchivePaths (((numberState number).packageFiles.map loadedFile).map (·.path)) where
  accepted := by
    have hall : ∀ path ∈ ["content/beslut.pdf".toList,
        archivePath "signers/s/tic-collect-response.json".toList],
        isArchivePath path = true := by decide
    exact hall
  nodup := by
    have hnodup : ["content/beslut.pdf".toList,
        archivePath "signers/s/tic-collect-response.json".toList].Nodup := by decide
    exact hnodup
  content := ⟨_, List.mem_cons_self, rfl⟩

theorem numberState_exports {number masked : Text}
    (h : maskSwedishPersonalNumber number = some masked) : ∃ files,
    exportedFiles characterOrder transcript archiveServices (numberState number) = .ok files ∧
      (∃ file ∈ files, file.path = answerPath) ∧
      ∀ file ∈ files, file.path = answerPath → file.bytes = utf8 number := by
  have hidentity : archiveIdentity "t".toList 0 ⟨"s".toList, "TIC_BANKID".toList,
      "2026-01-02T00:00:00.000Z".toList, "e".toList, some number, none, none⟩ =
      .ok ⟨"s".toList, "TIC_BANKID".toList, "HIGH".toList, masked,
        "2026-01-02T00:00:00.000Z".toList, "e".toList⟩ := by
    have hmasked : maskedForm (some number) = .ok masked := by
      rw [maskedForm, h]
    refine except_bind_eq_ok.mpr ⟨masked, ?_, rfl⟩
    exact (if_pos rfl).trans hmasked
  have hcase : loadArchiveCase transcript (numberState number) = .ok {
      tenantId := "t".toList
      signatureCaseId := "c".toList
      reference := "c".toList
      title := "Beslut".toList
      decisionMode := .DIGITAL_APPROVAL
      createdAt := "2026-01-01T00:00:00.000Z".toList
      closedAt := some "2026-01-02T00:00:00.000Z".toList
      documents := [⟨"d".toList, "v".toList, "Beslut".toList, "a".toList, 1, some .PDFA2b, false⟩]
      signatures := []
      identities := [⟨"s".toList, "TIC_BANKID".toList, "HIGH".toList, masked,
        "2026-01-02T00:00:00.000Z".toList, "e".toList⟩]
      auditTrailSha256 := some (transcript (utf8 "h".toList)) } := by
    refine except_bind_eq_ok.mpr ⟨[_], ?_, rfl⟩
    exact except_bind_eq_ok.mpr ⟨_, hidentity, rfl⟩
  have hload : loadPackageFiles transcript (numberState number).packageFiles =
      .ok ((numberState number).packageFiles.map loadedFile) := by
    refine loadPackageFiles_eq_ok.mpr ⟨?_, rfl⟩
    exact List.forall_mem_cons.mpr ⟨rfl, List.forall_mem_singleton.mpr rfl⟩
  refine ⟨_, exportedFiles_eq_ok.mpr ⟨List.cons_ne_nil _ _, _, _, _, _, hcase, hload,
    buildArchivePackage_eq_ok.mpr ⟨?_, numberState_paths number, rfl⟩,
    buildFgsPackage_eq_ok.mpr ⟨?_, ?_, rfl⟩, rfl⟩, ?_, fun file hfile hpath => ?_⟩
  · exact {
      closed := nofun
      documents := List.cons_ne_nil _ _
      profiles := List.forall_mem_singleton.mpr nofun
      signed := nofun
      identified := fun _ hmem => nomatch hmem
      audited := nofun }
  · exact List.ne_nil_of_mem (mem_sortByText.mpr List.mem_cons_self)
  · have hnamed : FgsAgents.Named ⟨"Riksarkivet".toList, "t".toList, "t".toList,
        "Kommunsign".toList, "0.2.0".toList⟩ :=
      ⟨by decide, by decide, by decide, by decide⟩
    exact hnamed
  · exact ⟨_, mem_sealedFiles.mpr (.inl (mem_sortByText.mpr
      (List.mem_cons_of_mem _ List.mem_cons_self))), rfl⟩
  · -- no other file stands under that path
    rcases mem_sealedFiles.mp hfile with hfile | rfl | rfl
    · have hloaded := mem_sortByText.mp hfile
      rcases List.mem_pair.mp hloaded with rfl | rfl
      · have hother : archivePath "content/beslut.pdf".toList ≠ answerPath := by decide
        exact absurd hpath hother
      · rfl
    · have hother : archiveManifestPath ≠ answerPath := by decide
      exact absurd hpath hother
    · have hother : fgsPackageDescriptor ≠ answerPath := by decide
      exact absurd hpath hother

theorem sameButNumbers_numberState :
    SameButNumbers (numberState "198501010001".toList) (numberState "198502020001".toList) where
  rest := rfl
  identities := by
    refine List.Forall₂.cons ⟨rfl, fun _ => ?_⟩ List.Forall₂.nil
    have hmasked : maskSwedishPersonalNumber "198502020001".toList =
        maskSwedishPersonalNumber "198501010001".toList := by decide
    show maskedForm (some "198502020001".toList) = maskedForm (some "198501010001".toList)
    rw [maskedForm, maskedForm, hmasked]
  files := .cons ⟨rfl, rfl, fun _ => rfl⟩ (.cons ⟨rfl, rfl, by
    have hraw : isRawIdentity "signers/s/tic-collect-response.json".toList = true := by decide
    exact fun hkept => absurd hraw (Bool.eq_false_iff.mp hkept)⟩ .nil)

/-- The answer of the identification leaves with the archive, and with it the number. -/
theorem export_tells_number :
    SameButNumbers (numberState "198501010001".toList) (numberState "198502020001".toList) ∧
      ∃ files files',
        exportedFiles characterOrder transcript archiveServices
          (numberState "198501010001".toList) = .ok files ∧
        exportedFiles characterOrder transcript archiveServices
          (numberState "198502020001".toList) = .ok files' ∧
        files' ≠ files := by
  obtain ⟨files, hfiles, ⟨file, hmem, hpath⟩, hall⟩ := numberState_exports
    (show maskSwedishPersonalNumber "198501010001".toList = some "1985••••-0001".toList by decide)
  obtain ⟨files', hfiles', -, hall'⟩ := numberState_exports
    (show maskSwedishPersonalNumber "198502020001".toList = some "1985••••-0001".toList by decide)
  refine ⟨sameButNumbers_numberState, files, files', hfiles, hfiles', ?_⟩
  rintro rfl
  have hnumber := (hall file hmem hpath).symm.trans (hall' file hmem hpath)
  exact absurd hnumber (by decide)

theorem export_discreet_numberState : ∃ files,
    exportedFiles characterOrder transcript archiveServices
      (numberState "198501010001".toList) = .ok files ∧
    ¬∀ state' files', SameButNumbers (numberState "198501010001".toList) state' →
      exportedFiles characterOrder transcript archiveServices state' = .ok files' →
        files' = files := by
  obtain ⟨files, hfiles, -⟩ := numberState_exports
    (show maskSwedishPersonalNumber "198501010001".toList = some "1985••••-0001".toList by decide)
  refine ⟨files, hfiles, fun hdiscreet => ?_⟩
  have hnone := (export_discreet_iff characterOrder transcript archiveServices _ files hfiles).mp
    hdiscreet _ (List.mem_cons_of_mem _ List.mem_cons_self)
  have hraw : isRawIdentity "signers/s/tic-collect-response.json".toList = true := by decide
  exact absurd hraw (Bool.eq_false_iff.mp hnone)

end Kommunsign
