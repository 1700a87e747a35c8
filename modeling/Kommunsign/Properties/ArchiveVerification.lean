import Kommunsign.Archive.Package
import Kommunsign.Infra.Lists

/-!
# What a verified archive package is

The check reads the files into a map by their paths, where the last file of a path replaces those
before it. It compares each entry with the file of the map, and asks of each file only that some
entry has its path.

* `verified_corresponds_iff` — when a verified package corresponds to its manifest
* `package_unmoved_iff` — when the order of the rows leaves nothing in the package
* `built_package_verifies_iff` — of the deliveries, the manifest of a package verifies only it
-/

namespace Kommunsign

open Infra

section Verified

variable {sha256Hex : Bytes → Text} {manifest : ArchiveManifest} {files : List EvidenceFile}
  {expected : Text}

def EvidenceFile.Matches (sha256Hex : Bytes → Text) (file : EvidenceFile)
    (entry : ArchiveManifestEntry) : Prop :=
  (file.bytes.length : Int) = entry.bytes ∧ sha256Hex file.bytes = entry.sha256

/-- Each entry has one file, each file one entry, and no other bytes have the entry's digest. -/
structure Corresponds (sha256Hex : Bytes → Text) (manifest : ArchiveManifest)
    (files : List EvidenceFile) : Prop where
  delivered : ∀ entry ∈ manifest.entries, (files.map (·.path)).count entry.path = 1
  described : ∀ file ∈ files, (manifest.entries.map (·.path)).count file.path = 1
  exact : ∀ entry ∈ manifest.entries, ∀ file ∈ files, file.path = entry.path →
    file.Matches sha256Hex entry ∧ ∀ bytes, sha256Hex bytes = entry.sha256 → bytes = file.bytes

/-! ## The map of the files -/

theorem mem_of_fileAt {path : Text} {file : EvidenceFile} (h : fileAt files path = some file) :
    file ∈ files ∧ file.path = path := by
  have hmem := List.mem_of_find?_eq_some h
  have hpath := List.find?_some h
  exact ⟨List.mem_reverse.mp hmem, of_decide_eq_true hpath⟩

theorem fileAt_of_nodup (hnodup : (files.map (·.path)).Nodup) {file : EvidenceFile}
    (hmem : file ∈ files) : fileAt files file.path = some file := by
  cases h : fileAt files file.path with
  | none =>
    have hnot := List.find?_eq_none.mp h file (List.mem_reverse.mpr hmem)
    exact absurd (decide_eq_true rfl) hnot
  | some other =>
    obtain ⟨hother, hpath⟩ := mem_of_fileAt h
    rw [List.inj_on_of_nodup_map hnodup hother hmem hpath]

/-! ## The check -/

theorem failure_eq_nil {c : Prop} [Decidable c] {failure : Text} :
    (if c then [failure] else []) = [] ↔ ¬c := by
  by_cases h : c <;> simp [h]

theorem failure_else_eq_nil {c : Prop} [Decidable c] {failure : Text} :
    (if c then [] else [failure]) = [] ↔ c := by
  by_cases h : c <;> simp [h]

theorem entryFailures_eq_nil {entry : ArchiveManifestEntry} :
    entryFailures sha256Hex files entry = [] ↔
      ∃ file, fileAt files entry.path = some file ∧ file.Matches sha256Hex entry := by
  unfold entryFailures EvidenceFile.Matches
  cases fileAt files entry.path with
  | none => exact ⟨fun h => absurd h (List.cons_ne_nil _ _), fun ⟨_, h, _⟩ => nomatch h⟩
  | some file =>
    dsimp only
    rw [List.append_eq_nil_iff, failure_eq_nil, failure_eq_nil, not_not, not_not]
    exact ⟨fun h => ⟨file, rfl, h⟩, fun ⟨_, heq, h⟩ => Option.some.inj heq ▸ h⟩

theorem verifyArchivePackage_eq_nil :
    verifyArchivePackage sha256Hex manifest files expected = [] ↔
      manifestSha256 sha256Hex manifest = expected ∧ manifest.schema = archivePackageSchema ∧
        (∀ entry ∈ manifest.entries,
          ∃ file, fileAt files entry.path = some file ∧ file.Matches sha256Hex entry) ∧
        ∀ file ∈ files, file.path ∈ manifest.entries.map (·.path) := by
  have hunexpected : ∀ file : EvidenceFile, unexpectedFailures manifest file = [] ↔
      file.path ∈ manifest.entries.map (·.path) := by
    intro file
    rw [unexpectedFailures, failure_else_eq_nil, List.any_eq_true, List.mem_map]
    simp only [decide_eq_true_eq]
  unfold verifyArchivePackage
  by_cases hhash : manifestSha256 sha256Hex manifest = expected
  · rw [if_neg (not_not.mpr hhash)]
    by_cases hschema : manifest.schema = archivePackageSchema
    · rw [if_neg (not_not.mpr hschema), List.append_eq_nil_iff, List.flatMap_eq_nil_iff,
        List.flatMap_eq_nil_iff]
      simp only [entryFailures_eq_nil, hunexpected, hhash, hschema, true_and]
    · rw [if_pos hschema]
      exact ⟨fun h => absurd h (List.cons_ne_nil _ _), fun h => absurd h.2.1 hschema⟩
  · rw [if_pos hhash]
    exact ⟨fun h => absurd h (List.cons_ne_nil _ _), fun h => absurd h.1 hhash⟩

end Verified

/-- A verified package corresponds to its manifest exactly when no two of the delivered files have
one path, and no two entries. -/
theorem verified_corresponds_iff (sha256Hex : Bytes → Text) (manifest : ArchiveManifest)
    (files : List EvidenceFile) (expected : Text) (hsha : Function.Injective sha256Hex)
    (h : verifyArchivePackage sha256Hex manifest files expected = []) :
    Corresponds sha256Hex manifest files ↔
      (files.map (·.path)).Nodup ∧ (manifest.entries.map (·.path)).Nodup := by
  obtain ⟨-, -, hentries, hfiles⟩ := verifyArchivePackage_eq_nil.mp h
  have hpaths : ∀ entry ∈ manifest.entries, entry.path ∈ files.map (·.path) := by
    intro entry hentry
    obtain ⟨file, hat, -⟩ := hentries entry hentry
    obtain ⟨hmem, hpath⟩ := mem_of_fileAt hat
    exact List.mem_map.mpr ⟨file, hmem, hpath⟩
  constructor
  · intro hcorresponds
    constructor
    · -- the path of a file is that of its entry, which occurs once
      refine List.nodup_iff_count_eq_one.mpr fun path hpath => ?_
      obtain ⟨file, hfile, rfl⟩ := List.mem_map.mp hpath
      obtain ⟨entry, hentry, hsame⟩ := List.mem_map.mp (hfiles file hfile)
      rw [← hsame]
      exact hcorresponds.delivered entry hentry
    · refine List.nodup_iff_count_eq_one.mpr fun path hpath => ?_
      obtain ⟨entry, hentry, rfl⟩ := List.mem_map.mp hpath
      obtain ⟨file, hfile, hsame⟩ := List.mem_map.mp (hpaths entry hentry)
      rw [← hsame]
      exact hcorresponds.described file hfile
  · rintro ⟨hfilePaths, hentryPaths⟩
    refine ⟨fun entry hentry => ?_, fun file hfile => ?_, fun entry hentry file hfile hsame => ?_⟩
    · exact List.nodup_iff_count_eq_one.mp hfilePaths _ (hpaths entry hentry)
    · exact List.nodup_iff_count_eq_one.mp hentryPaths _ (hfiles file hfile)
    · -- the file of the map is the only one
      obtain ⟨found, hat, hmatches⟩ := hentries entry hentry
      rw [← hsame, fileAt_of_nodup hfilePaths hfile] at hat
      obtain rfl := Option.some.inj hat
      exact ⟨hmatches, fun bytes hbytes => hsha (hbytes.trans hmatches.2.symm)⟩

/-! ## Two files of one path -/

def transcript (bytes : Bytes) : Text := bytes.map Char.ofUInt8

theorem transcript_injective : Function.Injective transcript := by
  refine List.map_injective_iff.mpr fun b b' h => ?_
  have hval : b.toUInt32 = b'.toUInt32 := congrArg Char.val h
  exact UInt8.toNat_inj.mp (by simpa using congrArg UInt32.toNat hval)

def deliveredDecision : EvidenceFile :=
  ⟨"content/beslut.pdf".toList, [1], "application/pdf".toList⟩

def otherDecision : EvidenceFile := { deliveredDecision with bytes := [2] }

def decisionManifest : ArchiveManifest where
  schema := archivePackageSchema
  profileVersion := 1
  regulation := "RA-FS 2009:2".toList
  tenantId := "t".toList
  signatureCaseId := "c".toList
  reference := "KS 2026/1".toList
  title := "Beslut".toList
  decisionMode := "ELECTRONIC_SIGNATURE".toList
  createdAt := "2026-01-01T00:00:00.000Z".toList
  closedAt := "2026-01-02T00:00:00.000Z".toList
  entries := [describe transcript deliveredDecision]
  signatures := []
  identities := []
  auditTrailSha256 := "a".toList

theorem decision_verified {files : List EvidenceFile}
    (hat : fileAt files deliveredDecision.path = some deliveredDecision)
    (hpaths : ∀ file ∈ files, file.path = deliveredDecision.path) :
    verifyArchivePackage transcript decisionManifest files
      (manifestSha256 transcript decisionManifest) = [] := by
  refine verifyArchivePackage_eq_nil.mpr ⟨rfl, rfl, ?_, ?_⟩
  · intro entry hentry
    obtain rfl := List.mem_singleton.mp hentry
    exact ⟨deliveredDecision, hat, rfl, rfl⟩
  · intro file hfile
    rw [hpaths file hfile]
    exact List.mem_singleton.mpr rfl

theorem decision_corresponds :
    Corresponds transcript decisionManifest [deliveredDecision] ↔
      ([deliveredDecision].map (·.path)).Nodup ∧ (decisionManifest.entries.map (·.path)).Nodup :=
  verified_corresponds_iff transcript decisionManifest [deliveredDecision] _ transcript_injective
    (decision_verified rfl fun _ h => congrArg _ (List.mem_singleton.mp h))

/-- The other bytes in front of the delivered ones are never looked at. -/
theorem replaced_file_unchecked :
    verifyArchivePackage transcript decisionManifest [otherDecision, deliveredDecision]
        (manifestSha256 transcript decisionManifest) = [] ∧
      ¬ otherDecision.Matches transcript (describe transcript deliveredDecision) ∧
      ¬ Corresponds transcript decisionManifest [otherDecision, deliveredDecision] := by
  refine ⟨decision_verified rfl ?_, ?_, fun h => ?_⟩
  · intro file hfile
    rcases List.mem_cons.mp hfile with rfl | hfile
    · rfl
    · rw [List.mem_singleton.mp hfile]
  · exact fun h => absurd h.2 (by decide)
  · have hmatches := (h.exact _ List.mem_cons_self otherDecision List.mem_cons_self rfl).1
    exact absurd hmatches.2 (by decide)

/-!
# What the order of the rows leaves in an archive package

Entries and files are sorted by path, signatures and identities by signer. The paths of a package
are different, so the order of the files is forgotten; two signatures of one signer stay in the
order the database returned them in.
-/

/-- The comparison orders all texts, and tells the paths of archives apart. -/
structure Collation (unicode : UnicodeTexts) : Prop where
  total : ∀ a b, unicode.localeLe a b = true ∨ unicode.localeLe b a = true
  trans : ∀ a b c, unicode.localeLe a b = true → unicode.localeLe b c = true →
    unicode.localeLe a c = true
  paths : ∀ a b, isArchivePath a = true → isArchivePath b = true →
    unicode.localeLe a b = true → unicode.localeLe b a = true → a = b

def NoTies {α : Type} (unicode : UnicodeTexts) (key : α → Text) (items : List α) : Prop :=
  ∀ a ∈ items, ∀ b ∈ items, unicode.localeLe (key a) (key b) = true →
    unicode.localeLe (key b) (key a) = true → a = b

def ArchiveCase.reordered (archiveCase : ArchiveCase) (documents : List ArchiveDocument)
    (signatures : List ArchiveSignatureEvidence) (identities : List ArchiveIdentityEvidence) :
    ArchiveCase :=
  { archiveCase with documents := documents, signatures := signatures, identities := identities }

/-- Whatever order the lists come in, the package is the same, if there is one. -/
def Unmoved (unicode : UnicodeTexts) (sha256Hex : Bytes → Text) (archiveCase : ArchiveCase)
    (files : List EvidenceFile) : Prop :=
  ∀ documents signatures identities files', documents.Perm archiveCase.documents →
    signatures.Perm archiveCase.signatures → identities.Perm archiveCase.identities →
    files'.Perm files →
    (buildArchivePackage unicode sha256Hex
      (archiveCase.reordered documents signatures identities) files').toOption =
      (buildArchivePackage unicode sha256Hex archiveCase files).toOption

section Sorting

variable {unicode : UnicodeTexts} {α : Type} {key : α → Text} {items items' : List α}

theorem Collation.sortByText_eq (hcollation : Collation unicode) (hties : NoTies unicode key items)
    (h : items'.Perm items) : sortByText unicode key items' = sortByText unicode key items :=
  insertionSort_eq_of_perm (fun a b => hcollation.total (key a) (key b))
    (fun a b c => hcollation.trans (key a) (key b) (key c)) h hties

theorem Collation.sortByText_eq_iff (hcollation : Collation unicode) :
    (∀ items' : List α, items'.Perm items →
        sortByText unicode key items' = sortByText unicode key items) ↔
      NoTies unicode key items :=
  insertionSort_eq_iff (fun a b => hcollation.total (key a) (key b))
    (fun a b c => hcollation.trans (key a) (key b) (key c)) items

theorem Collation.noTies_of_paths (hcollation : Collation unicode)
    (hpaths : ∀ item ∈ items, isArchivePath (key item) = true) (hnodup : (items.map key).Nodup) :
    NoTies unicode key items := by
  intro a ha b hb hab hba
  have hkey := hcollation.paths _ _ (hpaths a ha) (hpaths b hb) hab hba
  exact List.inj_on_of_nodup_map hnodup ha hb hkey

end Sorting

section Reordered

variable {unicode : UnicodeTexts} {sha256Hex : Bytes → Text} {archiveCase : ArchiveCase}
  {documents : List ArchiveDocument} {signatures : List ArchiveSignatureEvidence}
  {identities : List ArchiveIdentityEvidence} {files files' : List EvidenceFile}

theorem archivable_reordered (hdocuments : documents.Perm archiveCase.documents)
    (hsignatures : signatures.Perm archiveCase.signatures)
    (hidentities : identities.Perm archiveCase.identities) :
    (archiveCase.reordered documents signatures identities).Archivable ↔
      archiveCase.Archivable := by
  have hsigners := hidentities.map ArchiveIdentityEvidence.signerId
  have hdocumentsNil : documents = [] ↔ archiveCase.documents = [] :=
    ⟨fun h => (h ▸ hdocuments).nil_eq.symm, fun h => (h ▸ hdocuments).eq_nil⟩
  have hsignaturesNil : signatures = [] ↔ archiveCase.signatures = [] :=
    ⟨fun h => (h ▸ hsignatures).nil_eq.symm, fun h => (h ▸ hsignatures).eq_nil⟩
  constructor
  · rintro ⟨hclosed, hsome, hprofiles, hsigned, hidentified, haudited⟩
    refine ⟨hclosed, fun h => hsome (hdocumentsNil.mpr h), fun document hmem => ?_, fun hmode => ?_,
      fun signature hmem => ?_, haudited⟩
    · exact hprofiles document (hdocuments.mem_iff.mpr hmem)
    · obtain ⟨hnil, hall⟩ := hsigned hmode
      exact ⟨fun h => hnil (hsignaturesNil.mpr h),
        fun signature hmem => hall signature (hsignatures.mem_iff.mpr hmem)⟩
    · exact hsigners.mem_iff.mp (hidentified signature (hsignatures.mem_iff.mpr hmem))
  · rintro ⟨hclosed, hsome, hprofiles, hsigned, hidentified, haudited⟩
    refine ⟨hclosed, fun h => hsome (hdocumentsNil.mp h), fun document hmem => ?_, fun hmode => ?_,
      fun signature hmem => ?_, haudited⟩
    · exact hprofiles document (hdocuments.mem_iff.mp hmem)
    · obtain ⟨hnil, hall⟩ := hsigned hmode
      exact ⟨fun h => hnil (hsignaturesNil.mp h),
        fun signature hmem => hall signature (hsignatures.mem_iff.mp hmem)⟩
    · exact hsigners.mem_iff.mpr (hidentified signature (hsignatures.mem_iff.mp hmem))

theorem archivePaths_perm (h : files'.Perm files) :
    ArchivePaths (files'.map (·.path)) ↔ ArchivePaths (files.map (·.path)) := by
  have hpaths := h.map EvidenceFile.path
  constructor
  · rintro ⟨haccepted, hnodup, path, hmem, hcontent⟩
    exact ⟨fun p hp => haccepted p (hpaths.mem_iff.mpr hp), hpaths.nodup_iff.mp hnodup, path,
      hpaths.mem_iff.mp hmem, hcontent⟩
  · rintro ⟨haccepted, hnodup, path, hmem, hcontent⟩
    exact ⟨fun p hp => haccepted p (hpaths.mem_iff.mp hp), hpaths.nodup_iff.mpr hnodup, path,
      hpaths.mem_iff.mpr hmem, hcontent⟩

theorem toOption_buildArchivePackage (h : archiveCase.Archivable)
    (hpaths : ArchivePaths (files.map (·.path))) :
    (buildArchivePackage unicode sha256Hex archiveCase files).toOption =
      some (packageOfCase unicode sha256Hex archiveCase files) := by
  rw [buildArchivePackage_eq_ok.mpr ⟨h, hpaths, rfl⟩]
  rfl

theorem toOption_buildArchivePackage_none
    (h : ¬(archiveCase.Archivable ∧ ArchivePaths (files.map (·.path)))) :
    (buildArchivePackage unicode sha256Hex archiveCase files).toOption = none := by
  cases hbuild : buildArchivePackage unicode sha256Hex archiveCase files with
  | error e => rfl
  | ok package =>
    obtain ⟨harchivable, hpaths, -⟩ := buildArchivePackage_eq_ok.mp hbuild
    exact absurd ⟨harchivable, hpaths⟩ h

theorem sort_files_eq_of_perm (sha256Hex : Bytes → Text) (hcollation : Collation unicode)
    (hpaths : ArchivePaths (files.map (·.path))) (h : files'.Perm files) :
    sortByText unicode (·.path) (files'.map (describe sha256Hex)) =
        sortByText unicode (·.path) (files.map (describe sha256Hex)) ∧
      sortByText unicode (·.path) files' = sortByText unicode (·.path) files := by
  have haccepted := List.forall_mem_map.mp hpaths.accepted
  constructor
  · refine hcollation.sortByText_eq (hcollation.noTies_of_paths ?_ ?_) (h.map _)
    · exact List.forall_mem_map.mpr haccepted
    · rw [List.map_map]
      exact hpaths.nodup
  · exact hcollation.sortByText_eq (hcollation.noTies_of_paths haccepted hpaths.nodup) h

end Reordered

/-- The order of the rows leaves nothing in the package exactly when signatures of one signer are
equal, and identities of one signer; a case without a package has none in any order. -/
theorem package_unmoved_iff (unicode : UnicodeTexts) (sha256Hex : Bytes → Text)
    (archiveCase : ArchiveCase) (files : List EvidenceFile) (hcollation : Collation unicode) :
    Unmoved unicode sha256Hex archiveCase files ↔
      (archiveCase.Archivable → ArchivePaths (files.map (·.path)) →
        NoTies unicode (·.signerId) archiveCase.signatures ∧
          NoTies unicode (·.signerId) archiveCase.identities) := by
  constructor
  · intro hunmoved harchivable hpaths
    have hmanifest : ∀ signatures identities, signatures.Perm archiveCase.signatures →
        identities.Perm archiveCase.identities →
        sortByText unicode (·.signerId) signatures =
            sortByText unicode (·.signerId) archiveCase.signatures ∧
          sortByText unicode (·.signerId) identities =
            sortByText unicode (·.signerId) archiveCase.identities := by
      intro signatures identities hsignatures hidentities
      have hsame := hunmoved _ signatures identities _ (.refl _) hsignatures hidentities (.refl _)
      have hreordered := (archivable_reordered (.refl _) hsignatures hidentities).mpr harchivable
      rw [toOption_buildArchivePackage harchivable hpaths,
        toOption_buildArchivePackage hreordered hpaths] at hsame
      have hmanifests := congrArg ArchivePackage.manifest (Option.some.inj hsame)
      exact ⟨congrArg ArchiveManifest.signatures hmanifests,
        congrArg ArchiveManifest.identities hmanifests⟩
    exact ⟨hcollation.sortByText_eq_iff.mp fun _ h => (hmanifest _ _ h (.refl _)).1,
      hcollation.sortByText_eq_iff.mp fun _ h => (hmanifest _ _ (.refl _) h).2⟩
  · intro hties documents signatures identities files' hdocuments hsignatures hidentities hfiles
    have harchivable := archivable_reordered hdocuments hsignatures hidentities
    have hpaths := archivePaths_perm hfiles
    by_cases hbuilds : archiveCase.Archivable ∧ ArchivePaths (files.map (·.path))
    · obtain ⟨hsignatureTies, hidentityTies⟩ := hties hbuilds.1 hbuilds.2
      obtain ⟨hentries, hsorted⟩ := sort_files_eq_of_perm sha256Hex hcollation hbuilds.2 hfiles
      rw [toOption_buildArchivePackage (harchivable.mpr hbuilds.1) (hpaths.mpr hbuilds.2),
        toOption_buildArchivePackage hbuilds.1 hbuilds.2]
      -- the manifest has the same lists, and the rest follows from it
      have hmanifest : archiveManifest unicode
          (archiveCase.reordered documents signatures identities)
          (sortByText unicode (·.path) (files'.map (describe sha256Hex))) =
          archiveManifest unicode archiveCase
            (sortByText unicode (·.path) (files.map (describe sha256Hex))) := by
        unfold archiveManifest ArchiveCase.reordered
        rw [hentries, hcollation.sortByText_eq hsignatureTies hsignatures,
          hcollation.sortByText_eq hidentityTies hidentities]
      unfold packageOfCase
      rw [hmanifest, hsorted]
    · rw [toOption_buildArchivePackage_none hbuilds,
        toOption_buildArchivePackage_none fun h =>
          hbuilds ⟨harchivable.mp h.1, hpaths.mp h.2⟩]

/-! ## Two signatures of one signer -/

def characterOrder : UnicodeTexts where
  normalize := id
  localeLe left right := decide (left ≤ right)
  isLetterOrNumber c := c.isAlphanum
  lowerCase := id

theorem characterOrder_collation : Collation characterOrder where
  total a b := (le_total a b).imp decide_eq_true decide_eq_true
  trans _ _ _ hab hbc := decide_eq_true (le_trans (of_decide_eq_true hab) (of_decide_eq_true hbc))
  paths _ _ _ _ hab hba := le_antisymm (of_decide_eq_true hab) (of_decide_eq_true hba)

def signatureOn (digest : Text) : ArchiveSignatureEvidence where
  signerId := "s".toList
  signedAt := "2026-01-02T00:00:00.000Z".toList
  padesLevel := some "PAdES-B".toList
  signatureArtifactSha256 := some digest
  validationReportSha256 := some "r".toList
  timestampTokenSha256 := none

def signedCase (signatures : List ArchiveSignatureEvidence) : ArchiveCase where
  tenantId := "t".toList
  signatureCaseId := "c".toList
  reference := "KS 2026/1".toList
  title := "Beslut".toList
  decisionMode := .ELECTRONIC_SIGNATURE
  createdAt := "2026-01-01T00:00:00.000Z".toList
  closedAt := some "2026-01-02T00:00:00.000Z".toList
  documents := [⟨"d".toList, "v".toList, "Beslut".toList, "a".toList, 1, some .PDFA2b, false⟩]
  signatures := signatures
  identities := [⟨"s".toList, "TIC_BANKID".toList, "HIGH".toList, "okänd".toList,
    "2026-01-02T00:00:00.000Z".toList, "e".toList⟩]
  auditTrailSha256 := some "h".toList

def decisionFiles : List EvidenceFile :=
  [⟨"content/beslut.pdf".toList, [97], "application/pdf".toList⟩]

theorem signedCase_archivable {first second : Text} (hfirst : first ≠ [])
    (hsecond : second ≠ []) :
    (signedCase [signatureOn first, signatureOn second]).Archivable where
  closed := nofun
  documents := List.cons_ne_nil _ _
  profiles := List.forall_mem_singleton.mpr nofun
  signed _ := ⟨List.cons_ne_nil _ _, List.forall_mem_cons.mpr
    ⟨⟨hfirst, List.cons_ne_nil _ _⟩, List.forall_mem_singleton.mpr
      ⟨hsecond, List.cons_ne_nil _ _⟩⟩⟩
  identified := List.forall_mem_cons.mpr ⟨List.mem_singleton.mpr rfl,
    List.forall_mem_singleton.mpr (List.mem_singleton.mpr rfl)⟩
  audited := nofun

theorem decisionFiles_paths : ArchivePaths (decisionFiles.map (·.path)) where
  accepted := by decide
  nodup := List.nodup_singleton _
  content := ⟨_, List.mem_singleton.mpr rfl, rfl⟩

theorem signedCase_unmoved :
    Unmoved characterOrder transcript (signedCase [signatureOn ['1']]) decisionFiles ↔
      ((signedCase [signatureOn ['1']]).Archivable → ArchivePaths (decisionFiles.map (·.path)) →
        NoTies characterOrder (·.signerId) (signedCase [signatureOn ['1']]).signatures ∧
          NoTies characterOrder (·.signerId) (signedCase [signatureOn ['1']]).identities) :=
  package_unmoved_iff characterOrder transcript (signedCase [signatureOn ['1']]) decisionFiles
    characterOrder_collation

/-- One signer with signatures on two documents: the two rows in the other order are another
package. -/
theorem swapped_signatures_differ :
    ¬ Unmoved characterOrder transcript (signedCase [signatureOn ['1'], signatureOn ['2']])
      decisionFiles := by
  intro hunmoved
  have hswapped := hunmoved _ [signatureOn ['2'], signatureOn ['1']] _ _ (.refl _) (.swap _ _ _)
    (.refl _) (.refl _)
  have hfirst := signedCase_archivable (List.cons_ne_nil '1' []) (List.cons_ne_nil '2' [])
  have hsecond := signedCase_archivable (List.cons_ne_nil '2' []) (List.cons_ne_nil '1' [])
  rw [toOption_buildArchivePackage hfirst decisionFiles_paths] at hswapped
  have hsame := (toOption_buildArchivePackage hsecond decisionFiles_paths).symm.trans hswapped
  have hsignatures := congrArg (fun package => package.manifest.signatures)
    (Option.some.inj hsame)
  exact absurd hsignatures (by decide)

/-! ## What verifies as a package -/

section Delivered

variable {unicode : UnicodeTexts} {sha256Hex : Bytes → Text} {archiveCase : ArchiveCase}
  {files delivered : List EvidenceFile} {package : ArchivePackage}

def EvidenceFile.content (file : EvidenceFile) : Text × Bytes := (file.path, file.bytes)

theorem nodup_contents (h : (files.map (·.path)).Nodup) :
    (files.map EvidenceFile.content).Nodup := by
  refine List.Nodup.of_map Prod.fst ?_
  rwa [List.map_map]

theorem verify_built_eq_nil (h : buildArchivePackage unicode sha256Hex archiveCase files =
    .ok package) :
    verifyArchivePackage sha256Hex package.manifest delivered package.manifestSha256 = [] ↔
      (∀ file ∈ package.files, ∃ found, fileAt delivered file.path = some found ∧
          found.Matches sha256Hex (describe sha256Hex file)) ∧
        ∀ found ∈ delivered, found.path ∈ package.files.map (·.path) := by
  obtain ⟨-, -, rfl⟩ := buildArchivePackage_eq_ok.mp h
  have hentry (entry : ArchiveManifestEntry) :
      entry ∈ (packageOfCase unicode sha256Hex archiveCase files).manifest.entries ↔
        ∃ file ∈ (packageOfCase unicode sha256Hex archiveCase files).files,
          describe sha256Hex file = entry := by
    simp only [packageOfCase, archiveManifest, mem_sortByText, List.mem_map]
  refine verifyArchivePackage_eq_nil.trans ⟨fun ⟨_, _, hentries, hfiles⟩ => ⟨?_, ?_⟩, ?_⟩
  · exact fun file hfile => hentries _ ((hentry _).mpr ⟨file, hfile, rfl⟩)
  · intro found hfound
    obtain ⟨entry, hmem, hpath⟩ := List.mem_map.mp (hfiles found hfound)
    obtain ⟨file, hfile, rfl⟩ := (hentry entry).mp hmem
    exact List.mem_map.mpr ⟨file, hfile, hpath⟩
  · rintro ⟨hentries, hfiles⟩
    refine ⟨rfl, rfl, fun entry hmem => ?_, fun found hfound => ?_⟩
    · obtain ⟨file, hfile, rfl⟩ := (hentry entry).mp hmem
      exact hentries file hfile
    · obtain ⟨file, hfile, hpath⟩ := List.mem_map.mp (hfiles found hfound)
      exact List.mem_map.mpr ⟨_, (hentry _).mpr ⟨file, hfile, rfl⟩, hpath⟩

/--
The manifest of a built package verifies the package, and of the deliveries whose files have
different paths no other one than the package, in whatever order.
-/
theorem built_package_verifies_iff (hsha : Function.Injective sha256Hex)
    (h : buildArchivePackage unicode sha256Hex archiveCase files = .ok package)
    (hpaths : (delivered.map (·.path)).Nodup) :
    verifyArchivePackage sha256Hex package.manifest delivered package.manifestSha256 = [] ↔
      (delivered.map EvidenceFile.content).Perm (package.files.map EvidenceFile.content) := by
  have hnodup : (package.files.map (·.path)).Nodup := by
    obtain ⟨-, hpaths, rfl⟩ := buildArchivePackage_eq_ok.mp h
    exact ((perm_sortByText unicode (·.path) files).map _).nodup_iff.mpr hpaths.nodup
  rw [verify_built_eq_nil h]
  constructor
  · rintro ⟨hentries, hfiles⟩
    have hfound (file : EvidenceFile) (hfile : file ∈ package.files) :
        ∃ found ∈ delivered, found.content = file.content := by
      obtain ⟨found, hat, -, hdigest⟩ := hentries file hfile
      obtain ⟨hmem, hpath⟩ := mem_of_fileAt hat
      exact ⟨found, hmem, Prod.ext hpath (hsha hdigest)⟩
    refine (List.perm_ext_iff_of_nodup (nodup_contents hpaths) (nodup_contents hnodup)).mpr
      fun content => ?_
    rw [List.mem_map, List.mem_map]
    constructor
    · -- a file that is delivered has the path of one of the package, and is the one of that path
      rintro ⟨found, hmem, rfl⟩
      obtain ⟨file, hfile, hpath⟩ := List.mem_map.mp (hfiles found hmem)
      obtain ⟨other, hother, hcontent⟩ := hfound file hfile
      have hsame : other.path = found.path := (congrArg Prod.fst hcontent).trans hpath
      obtain rfl := List.inj_on_of_nodup_map hpaths hother hmem hsame
      exact ⟨file, hfile, hcontent.symm⟩
    · rintro ⟨file, hfile, rfl⟩
      exact hfound file hfile
  · intro hperm
    constructor
    · intro file hfile
      obtain ⟨found, hmem, hcontent⟩ :=
        List.mem_map.mp (hperm.mem_iff.mpr (List.mem_map_of_mem hfile))
      obtain ⟨hpath, hbytes⟩ := Prod.mk.inj hcontent
      refine ⟨found, hpath ▸ fileAt_of_nodup hpaths hmem, ?_, ?_⟩
      · rw [hbytes]
        rfl
      · rw [hbytes]
        rfl
    · intro found hmem
      obtain ⟨file, hfile, hcontent⟩ :=
        List.mem_map.mp (hperm.mem_iff.mp (List.mem_map_of_mem hmem))
      exact List.mem_map.mpr ⟨file, hfile, congrArg Prod.fst hcontent⟩

end Delivered

theorem decision_package_verifies : ∃ package,
    buildArchivePackage characterOrder transcript
      (signedCase [signatureOn ['1'], signatureOn ['2']]) decisionFiles = .ok package ∧
    (verifyArchivePackage transcript package.manifest decisionFiles package.manifestSha256 = [] ↔
      (decisionFiles.map EvidenceFile.content).Perm (package.files.map EvidenceFile.content)) := by
  have harchivable : (signedCase [signatureOn ['1'], signatureOn ['2']]).Archivable :=
    signedCase_archivable (List.cons_ne_nil _ _) (List.cons_ne_nil _ _)
  have hbuilt : buildArchivePackage characterOrder transcript _ decisionFiles = .ok _ :=
    buildArchivePackage_eq_ok.mpr ⟨harchivable, decisionFiles_paths, rfl⟩
  exact ⟨_, hbuilt,
    built_package_verifies_iff transcript_injective hbuilt decisionFiles_paths.nodup⟩

end Kommunsign
