import Mathlib.Data.Bool.AllAny
import Kommunsign.Archive.ExportJob
import Kommunsign.Properties.ArchiveVerification
import Kommunsign.Properties.ZipArchives

/-!
# Where the files of an evidence package stand in the archive

No path of an evidence package names a category of the archive, so each of them is filed as
evidence. The documents keep the names they were uploaded under as far as letters, digits, spaces,
full stops, hyphens and underscores go; the archive knows ASCII only, no spaces, and 121 characters.

* `PackagePath` — the paths of the package of a case
* `archive_paths_iff` — the packages whose paths it accepts
-/

namespace Infra.Json

/-! ## The length of a JSON text -/

mutual

/-- At least the length of the text of a value. -/
def bulk : Json → ℕ
  | .null => 4
  | .bool _ => 5
  | .num n => (renderInt n).length
  | .str s => 6 * s.length + 2
  | .arr items => bulkItems items + 2
  | .obj members => bulkMembers members + 2

def bulkItems : List Json → ℕ
  | [] => 0
  | item :: items => bulk item + 1 + bulkItems items

def bulkMembers : List (Text × Json) → ℕ
  | [] => 0
  | (name, value) :: members => 6 * name.length + 4 + bulk value + bulkMembers members

end

theorem length_escapeChar_le (c : Char) : (escapeChar c).length ≤ 6 := by
  unfold escapeChar
  split_ifs <;> simp

theorem length_quote_le (s : Text) : (quote s).length ≤ 6 * s.length + 2 := by
  have hescape : (escape s).length ≤ 6 * s.length := by
    unfold escape
    induction s with
    | nil => simp
    | cons c s ih =>
      have hc := length_escapeChar_le c
      rw [List.flatMap_cons, List.length_append, List.length_cons]
      omega
  simp only [quote, List.length_cons, List.length_append, List.length_nil]
  omega

mutual

theorem length_render_le : ∀ value : Json, (render value).length ≤ bulk value
  | .null => by decide
  | .bool true => by decide
  | .bool false => by decide
  | .num n => by rw [render, bulk]
  | .str s => by
    rw [render, bulk]
    exact length_quote_le s
  | .arr items => by
    have hitems := length_renderItems_le items
    rw [render, bulk, List.length_cons]
    omega
  | .obj members => by
    have hmembers := length_renderMembers_le members
    rw [render, bulk, List.length_cons]
    omega

theorem length_renderItems_le : ∀ items : List Json,
    (renderItems items).length ≤ bulkItems items + 1
  | [] => by simp [renderItems]
  | [item] => by
    have hitem := length_render_le item
    simp only [renderItems, bulkItems, List.length_append, List.length_cons, List.length_nil]
    omega
  | item :: next :: items => by
    have hitem := length_render_le item
    have hitems := length_renderItems_le (next :: items)
    rw [renderItems, bulkItems, List.length_append, List.length_cons]
    omega

theorem length_renderMembers_le : ∀ members : List (Text × Json),
    (renderMembers members).length ≤ bulkMembers members + 1
  | [] => by simp [renderMembers]
  | [(name, value)] => by
    have hname := length_quote_le name
    have hvalue := length_render_le value
    simp only [renderMembers, bulkMembers, List.length_append, List.length_cons, List.length_nil]
    omega
  | (name, value) :: next :: members => by
    have hname := length_quote_le name
    have hvalue := length_render_le value
    have hmembers := length_renderMembers_le (next :: members)
    rw [renderMembers, bulkMembers, List.length_append, List.length_cons, List.length_append,
      List.length_cons]
    omega

end

end Infra.Json

namespace Kommunsign

open Infra

/-! ## The characters of names -/

theorem isArchiveChar_of_isDigit {c : Char} (h : c.isDigit = true) : isArchiveChar c = true := by
  rw [Char.isDigit, Bool.and_eq_true, decide_eq_true_eq, decide_eq_true_eq] at h
  have hdigit : ('0' ≤ c && c ≤ '9') = true := by
    rw [Bool.and_eq_true, decide_eq_true_eq, decide_eq_true_eq]
    exact h
  simp [isArchiveChar, isAlphanumeric, hdigit]

theorem isDigit_of_mem_padStart {width n : Nat} {c : Char} (h : c ∈ padStart width n) :
    c.isDigit = true := by
  rcases List.mem_append.mp h with hpad | hdigits
  · rw [List.eq_of_mem_replicate hpad]
    rfl
  · exact Nat.isDigit_of_mem_toDigits (by decide) (by decide) hdigits

theorem includes_dots_append {s t : Text} (h : ∀ c ∈ s, c ≠ '.') :
    includes (s ++ t) "..".toList = includes t "..".toList := by
  induction s with
  | nil => rfl
  | cons c s ih =>
    obtain ⟨hc, hs⟩ := List.forall_mem_cons.mp h
    rw [← ih hs]
    unfold includes
    refine decide_eq_decide.mpr ⟨fun hinfix => ?_, fun hinfix => List.infix_cons hinfix⟩
    rcases List.infix_cons_iff.mp hinfix with hprefix | hinfix
    · exact absurd (List.cons_prefix_cons.mp hprefix).1.symm hc
    · exact hinfix

theorem isArchiveName_append {s t : Text} (h : isArchiveName s = true) :
    isArchiveName (s ++ t) = true ↔ t.all isArchiveChar = true ∧ s.length + t.length ≤ 121 := by
  cases s with
  | nil => cases h
  | cons c s =>
    simp only [isArchiveName, Bool.and_eq_true, decide_eq_true_eq] at h
    obtain ⟨⟨hc, hs⟩, hlength⟩ := h
    simp only [List.cons_append, isArchiveName, List.all_append, hc, hs, Bool.true_and,
      Bool.and_eq_true, decide_eq_true_eq, List.length_append, List.length_cons]
    constructor
    · rintro ⟨ht, hle⟩
      exact ⟨ht, by omega⟩
    · rintro ⟨ht, hle⟩
      exact ⟨ht, by omega⟩

theorem flattenPath_append (s t : Text) : flattenPath (s ++ t) = flattenPath s ++ flattenPath t :=
  List.map_append

theorem flattenPath_of_not_mem {s : Text} (h : '/' ∉ s) : flattenPath s = s := by
  refine (List.map_congr_left fun c hc => if_neg ?_).trans (List.map_id s)
  rintro rfl
  exact h hc

theorem archivePath_of_not_hasCategory {path : Text} (h : hasCategory path = false) :
    archivePath path = ArchiveCategory.directory .evidence ++ flattenPath path :=
  if_neg (Bool.eq_false_iff.mp h)

theorem archivePath_accepted_iff {path : Text} (h : hasCategory path = false) :
    isArchivePath (archivePath path) = true ↔
      isArchiveName (flattenPath path) = true ∧ includes (flattenPath path) "..".toList = false := by
  rw [archivePath_of_not_hasCategory h]
  have hdots : includes (ArchiveCategory.directory .evidence ++ flattenPath path) "..".toList =
      includes (flattenPath path) "..".toList :=
    includes_dots_append (List.all_iff_forall_prop.mp (by decide))
  have hcategories : (ArchiveCategory.all.any fun category =>
      startsWith (ArchiveCategory.directory .evidence ++ flattenPath path) category.directory &&
        isArchiveName ((ArchiveCategory.directory .evidence ++ flattenPath path).drop
          category.directory.length)) = isArchiveName (flattenPath path) := by
    show (false || (false || (isArchiveName (flattenPath path) || false))) = _
    simp
  rw [isArchivePath, hcategories, hdots, Bool.and_eq_true, Bool.not_eq_true']

/-! ## The paths of a package -/

def documentPath (unicode : UnicodeTexts) (index : Nat) (document : EvidenceDocument) : Text :=
  "documents/".toList ++
    (padStart 3 (index + 1) ++ '-' :: safeFileName unicode document.displayName)

def signerPath (id : RowId) (name : Text) : Text :=
  "signers/".toList ++ (id.value.toList ++ '/' :: name)

def reportPath (index : Nat) : Text :=
  "reports/pdfa-validation-".toList ++ (padStart 3 (index + 1) ++ ".json".toList)

def signerFileNames : List Text :=
  ["visible-data.txt".toList, "non-visible-data.json".toList, "tic-collect-response.json".toList,
    "tic-signature.xml".toList, "tic-ocsp-response.der".toList, "verification-report.json".toList]

def singlePaths : List Text :=
  ["audit/case-audit-events.json".toList, "signing-receipt.pdf".toList, "manifest.json".toList,
    "checksums.sha256".toList]

inductive PackagePath (unicode : UnicodeTexts) (info : EvidenceCase) : Text → Prop where
  | document {index : Nat} {document : EvidenceDocument}
      (h : info.documents[index]? = some document) :
      PackagePath unicode info (documentPath unicode index document)
  | signer {signer : EvidenceSigner} {name : Text} (hsigner : signer ∈ info.signers)
      (hname : name ∈ signerFileNames) : PackagePath unicode info (signerPath signer.id name)
  | report {index : Nat} (h : index < info.reports.length) :
      PackagePath unicode info (reportPath index)
  | single {path : Text} (h : path ∈ singlePaths) : PackagePath unicode info path

section Paths

variable {unicode : UnicodeTexts} {sha256Hex : Bytes → Text} {info : EvidenceCase}
  {audits : List Json} {path : Text}

theorem mem_documentPaths : path ∈ (documentFiles unicode info.documents).map (·.path) ↔
    ∃ index document, info.documents[index]? = some document ∧
      path = documentPath unicode index document := by
  unfold documentFiles
  rw [List.map_map, List.mem_map]
  constructor
  · rintro ⟨⟨document, index⟩, hmem, rfl⟩
    exact ⟨index, document, List.mem_zipIdx_iff_getElem?.mp hmem, rfl⟩
  · rintro ⟨index, document, hat, rfl⟩
    exact ⟨⟨document, index⟩, List.mem_zipIdx_iff_getElem?.mpr hat, rfl⟩

theorem mem_reportPaths : path ∈ (reportFiles info.reports).map (·.path) ↔
    ∃ index < info.reports.length, path = reportPath index := by
  unfold reportFiles
  rw [List.map_map, List.mem_map]
  constructor
  · rintro ⟨⟨report, index⟩, hmem, rfl⟩
    obtain ⟨hlt, -⟩ := List.getElem?_eq_some_iff.mp (List.mem_zipIdx_iff_getElem?.mp hmem)
    exact ⟨index, hlt, rfl⟩
  · rintro ⟨index, hlt, rfl⟩
    exact ⟨⟨info.reports[index], index⟩,
      List.mem_zipIdx_iff_getElem?.mpr (List.getElem?_eq_getElem hlt), rfl⟩

theorem map_path_signerFiles (signer : EvidenceSigner) :
    (signerFiles ("signers/".toList ++ signer.id.value.toList ++ ['/']) signer).map (·.path) =
      signerFileNames.map (signerPath signer.id) := by
  have hpath : ∀ name, ("signers/".toList ++ signer.id.value.toList ++ ['/']) ++ name =
      signerPath signer.id name := by
    intro name
    rw [List.append_assoc, List.append_assoc]
    rfl
  have hnames : ∀ pathPrefix, (signerFiles pathPrefix signer).map (·.path) =
      signerFileNames.map (pathPrefix ++ ·) := fun _ => rfl
  rw [hnames]
  exact List.map_congr_left fun name _ => hpath name

theorem mem_packagePaths :
    path ∈ (allPackageFiles unicode sha256Hex info none audits).map (·.path) ↔
      PackagePath unicode info path := by
  have hsigners : path ∈ (info.signers.flatMap fun signer =>
      signerFiles ("signers/".toList ++ signer.id.value.toList ++ ['/']) signer).map (·.path) ↔
      ∃ signer ∈ info.signers, ∃ name ∈ signerFileNames, path = signerPath signer.id name := by
    rw [List.map_flatMap, List.mem_flatMap]
    simp only [map_path_signerFiles, List.mem_map, eq_comm]
  have hall : path ∈ (allPackageFiles unicode sha256Hex info none audits).map (·.path) ↔
      path ∈ (documentFiles unicode info.documents).map (·.path) ∨
        path ∈ (info.signers.flatMap fun signer => signerFiles
          ("signers/".toList ++ signer.id.value.toList ++ ['/']) signer).map (·.path) ∨
        path ∈ (reportFiles info.reports).map (·.path) ∨ path ∈ singlePaths := by
    unfold allPackageFiles packageFiles loadEvidenceFiles
    rw [((List.perm_insertionSort _ _).map EvidenceFile.path).mem_iff]
    simp only [List.map_append, List.mem_append, List.map_cons, List.map_nil, auditFile,
      singlePaths, or_assoc, List.mem_cons, List.not_mem_nil, or_false]
  rw [hall, hsigners, mem_documentPaths, mem_reportPaths]
  constructor
  · rintro (⟨index, document, hat, rfl⟩ | ⟨signer, hsigner, name, hname, rfl⟩ | ⟨index, hlt, rfl⟩ |
      hsingle)
    · exact .document hat
    · exact .signer hsigner hname
    · exact .report hlt
    · exact .single hsingle
  · intro h
    cases h with
    | document hat => exact .inl ⟨_, _, hat, rfl⟩
    | signer hsigner hname => exact .inr (.inl ⟨_, hsigner, _, hname, rfl⟩)
    | report hlt => exact .inr (.inr (.inl ⟨_, hlt, rfl⟩))
    | single hsingle => exact .inr (.inr (.inr hsingle))

theorem mem_sealed_paths {package : SealedPackage}
    (h : sealEvidencePackage unicode sha256Hex info none audits = .ok package) :
    path ∈ package.files.map (·.path) ↔ PackagePath unicode info path := by
  rw [(sealEvidencePackage_eq_ok h).1]
  exact mem_packagePaths

theorem hasCategory_packagePath (h : PackagePath unicode info path) : hasCategory path = false := by
  cases h with
  | document | signer | report => rfl
  | single h =>
    have hall : ∀ path ∈ singlePaths, hasCategory path = false := by decide
    exact hall path h

/-! ## They stay apart -/

theorem mem_of_mem_trim {s : Text} {c : Char} (h : c ∈ trim s) : c ∈ s := by
  have hinner := (List.dropWhile_sublist _).subset (List.mem_reverse.mp h)
  exact (List.dropWhile_sublist _).subset (List.mem_reverse.mp hinner)

theorem slash_not_mem_safeFileName (value : Text) : '/' ∉ safeFileName unicode value := by
  have hreplaced : ∀ c ∈ value.map fun c =>
      if c ∈ ['\\', '/', '\x00', '\r', '\n'] then '_' else c, c ≠ '/' := by
    intro c hc
    obtain ⟨d, -, rfl⟩ := List.mem_map.mp hc
    split
    · decide
    · rintro rfl
      simp_all
  unfold safeFileName
  intro hmem
  have hcleaned : ∀ c ∈ trim ((value.map fun c =>
      if c ∈ ['\\', '/', '\x00', '\r', '\n'] then '_' else c).map fun c =>
        if unicode.isLetterOrNumber c || c ∈ ['.', '_', ' ', '-'] then c else '_'), c ≠ '/' := by
    intro c hc
    obtain ⟨d, hd, rfl⟩ := List.mem_map.mp (mem_of_mem_trim hc)
    split
    · exact hreplaced d hd
    · decide
  dsimp only at hmem
  split at hmem
  · exact hcleaned _ hmem rfl
  · rcases List.mem_append.mp hmem with hmem | hmem
    · exact hcleaned _ hmem rfl
    · exact absurd hmem (by decide)

theorem slash_not_mem_padStart (width n : Nat) : '/' ∉ padStart width n :=
  fun h => absurd (isDigit_of_mem_padStart h) (by decide)

theorem isHex_or_hyphen_of_mem_id {id : RowId} {c : Char} (h : c ∈ id.value.toList) :
    isHex c = true ∨ c = '-' := isHex_or_hyphen_of_isUuid id.valid c h

theorem slash_not_mem_id (id : RowId) : '/' ∉ id.value.toList := by
  intro h
  rcases isHex_or_hyphen_of_mem_id h with hhex | hhyphen
  · exact absurd hhex (by decide)
  · exact absurd hhyphen (by decide)

theorem length_id (id : RowId) : id.value.toList.length = 36 := by
  have hvalid := id.valid
  rw [isUuid, Bool.and_eq_true, beq_iff_eq] at hvalid
  exact hvalid.1.trans rfl

theorem flattenPath_documentPath (index : Nat) (document : EvidenceDocument) :
    flattenPath (documentPath unicode index document) = "documents_".toList ++
      (padStart 3 (index + 1) ++ '-' :: safeFileName unicode document.displayName) := by
  have hrest : '/' ∉ padStart 3 (index + 1) ++ '-' :: safeFileName unicode document.displayName := by
    simp [slash_not_mem_padStart, slash_not_mem_safeFileName]
  have hdirectory : flattenPath "documents/".toList = "documents_".toList := by decide
  show flattenPath ("documents/".toList ++ _) = _
  rw [flattenPath_append, flattenPath_of_not_mem hrest, hdirectory]

theorem flattenPath_signerPath (id : RowId) {name : Text} (h : name ∈ signerFileNames) :
    flattenPath (signerPath id name) =
      "signers_".toList ++ (id.value.toList ++ '_' :: name) := by
  have hname : ∀ name ∈ signerFileNames, '/' ∉ name := by decide
  show flattenPath ("signers/".toList ++ (id.value.toList ++ '/' :: name)) = _
  rw [flattenPath_append, flattenPath_append, flattenPath_of_not_mem (slash_not_mem_id id)]
  have hlast : flattenPath ('/' :: name) = '_' :: name :=
    congrArg ('_' :: ·) (flattenPath_of_not_mem (hname name h))
  have hdirectory : flattenPath "signers/".toList = "signers_".toList := by decide
  rw [hlast, hdirectory]

theorem flattenPath_reportPath (index : Nat) : flattenPath (reportPath index) =
    "reports_pdfa-validation-".toList ++ (padStart 3 (index + 1) ++ ".json".toList) := by
  have hrest : '/' ∉ padStart 3 (index + 1) ++ ".json".toList := by
    simp [slash_not_mem_padStart]
  have hdirectory : flattenPath "reports/pdfa-validation-".toList =
      "reports_pdfa-validation-".toList := by decide
  show flattenPath ("reports/pdfa-validation-".toList ++ _) = _
  rw [flattenPath_append, flattenPath_of_not_mem hrest, hdirectory]

def unflattenPath (path : Text) : Text :=
  if startsWith path "documents_".toList then "documents/".toList ++ path.drop 10
  else if startsWith path "reports_".toList then "reports/".toList ++ path.drop 8
  else if startsWith path "audit_".toList then "audit/".toList ++ path.drop 6
  else if startsWith path "signers_".toList then
    "signers/".toList ++ ((path.drop 8).take 36 ++ '/' :: path.drop 45)
  else path

theorem unflattenPath_flattenPath (h : PackagePath unicode info path) :
    unflattenPath (flattenPath path) = path := by
  cases h with
  | document => rw [flattenPath_documentPath]; rfl
  | @signer signer name _ hname =>
    rw [flattenPath_signerPath signer.id hname]
    have hid := length_id signer.id
    -- the id ends before the second slash
    show "signers/".toList ++ ((signer.id.value.toList ++ '_' :: name).take 36 ++
      '/' :: (signer.id.value.toList ++ '_' :: name).drop 37) = _
    have hdrop : (signer.id.value.toList ++ '_' :: name).drop 37 = name := by
      rw [List.drop_append, hid, List.drop_eq_nil_of_le (by rw [hid]; decide)]
      rfl
    rw [List.take_left' hid, hdrop]
    rfl
  | report => rw [flattenPath_reportPath]; rfl
  | single h =>
    have hall : ∀ path ∈ singlePaths, unflattenPath (flattenPath path) = path := by decide
    exact hall path h

theorem archivePath_injOn {path' : Text} (h : PackagePath unicode info path)
    (h' : PackagePath unicode info path') (heq : archivePath path = archivePath path') :
    path = path' := by
  rw [archivePath_of_not_hasCategory (hasCategory_packagePath h),
    archivePath_of_not_hasCategory (hasCategory_packagePath h')] at heq
  rw [← unflattenPath_flattenPath h, List.append_cancel_left heq, unflattenPath_flattenPath h']

/-! ## What the archive accepts -/

def AcceptedName (unicode : UnicodeTexts) (index : Nat) (document : EvidenceDocument) : Prop :=
  (safeFileName unicode document.displayName).all isArchiveChar = true ∧
    includes (safeFileName unicode document.displayName) "..".toList = false ∧
    (padStart 3 (index + 1)).length + (safeFileName unicode document.displayName).length ≤ 110

theorem all_padStart (width n : Nat) : (padStart width n).all isArchiveChar = true :=
  List.all_eq_true.mpr fun _ h => isArchiveChar_of_isDigit (isDigit_of_mem_padStart h)

theorem dot_not_mem_padStart {width n : Nat} : ∀ c ∈ padStart width n, c ≠ '.' := by
  rintro c h rfl
  exact absurd (isDigit_of_mem_padStart h) (by decide)

theorem length_padStart_le {n : Nat} (h : n < 10 ^ 4) : (padStart 3 n).length ≤ 4 := by
  have hdigits := (Nat.length_toDigits_le_iff (by decide) (by decide)).mpr h
  rw [padStart, List.length_append, List.length_replicate]
  omega

theorem documentPath_accepted_iff (index : Nat) (document : EvidenceDocument) :
    isArchivePath (archivePath (documentPath unicode index document)) = true ↔
      AcceptedName unicode index document := by
  have hname : isArchiveName "documents_".toList = true := by decide
  have hlength : "documents_".toList.length = 10 := by decide
  rw [archivePath_accepted_iff rfl, flattenPath_documentPath, isArchiveName_append hname,
    List.all_append, all_padStart, Bool.true_and, hlength,
    includes_dots_append (List.all_iff_forall_prop.mp (by decide)),
    includes_dots_append dot_not_mem_padStart, List.length_append, List.length_cons]
  have hhyphen : ∀ name : Text, includes ('-' :: name) "..".toList = includes name "..".toList :=
    fun name => includes_dots_append (s := ['-']) (List.all_iff_forall_prop.mp (by decide))
  have hall : ∀ name : Text, ('-' :: name).all isArchiveChar = name.all isArchiveChar :=
    fun name => rfl
  rw [hhyphen, hall, AcceptedName]
  constructor
  · rintro ⟨⟨hall, hlength⟩, hdots⟩
    exact ⟨hall, hdots, by omega⟩
  · rintro ⟨hall, hdots, hlength⟩
    exact ⟨⟨hall, by omega⟩, hdots⟩

theorem signerPath_accepted (id : RowId) {name : Text} (h : name ∈ signerFileNames) :
    isArchivePath (archivePath (signerPath id name)) = true := by
  have hnames : ∀ name ∈ signerFileNames, name.all isArchiveChar = true ∧ name.length ≤ 25 ∧
      includes ('_' :: name) "..".toList = false := by decide
  obtain ⟨hall, hlength, hdots⟩ := hnames name h
  have hid : id.value.toList.all isArchiveChar = true := by
    refine List.all_eq_true.mpr fun c hc => ?_
    rcases isHex_or_hyphen_of_mem_id hc with hhex | rfl
    · simp only [isHex, Bool.or_eq_true, Bool.and_eq_true, decide_eq_true_eq] at hhex
      rcases hhex with (hdigit | ⟨hlow, hhigh⟩) | ⟨hlow, hhigh⟩
      · exact isArchiveChar_of_isDigit hdigit
      · have hle : c ≤ 'z' := le_trans hhigh (by decide)
        simp [isArchiveChar, isAlphanumeric, hlow, hle]
      · have hle : c ≤ 'Z' := le_trans hhigh (by decide)
        simp [isArchiveChar, isAlphanumeric, hlow, hle]
    · rfl
  have hdot : ∀ c ∈ id.value.toList, c ≠ '.' := by
    rintro c hc rfl
    rcases isHex_or_hyphen_of_mem_id hc with hhex | hhyphen
    · exact absurd hhex (by decide)
    · exact absurd hhyphen (by decide)
  have hname : isArchiveName "signers_".toList = true := by decide
  have hsigners : "signers_".toList.length = 8 := by decide
  rw [archivePath_accepted_iff rfl, flattenPath_signerPath id h, isArchiveName_append hname,
    includes_dots_append (List.all_iff_forall_prop.mp (by decide)), includes_dots_append hdot, List.all_append, hid,
    List.length_append, length_id, hsigners, List.length_cons]
  exact ⟨⟨hall, by omega⟩, hdots⟩

theorem reportPath_accepted {index : Nat} (h : index + 1 < 10 ^ 4) :
    isArchivePath (archivePath (reportPath index)) = true := by
  have hname : isArchiveName "reports_pdfa-validation-".toList = true := by decide
  have hreports : "reports_pdfa-validation-".toList.length = 24 := by decide
  have hlength := length_padStart_le h
  rw [archivePath_accepted_iff rfl, flattenPath_reportPath, isArchiveName_append hname,
    includes_dots_append (List.all_iff_forall_prop.mp (by decide)), includes_dots_append dot_not_mem_padStart, List.all_append,
    all_padStart, List.length_append, hreports]
  have hjson : ".json".toList.length = 5 := by decide
  exact ⟨⟨by decide, by rw [hjson]; omega⟩, by decide⟩

theorem singlePath_accepted (h : path ∈ singlePaths) : isArchivePath (archivePath path) = true := by
  have hall : ∀ path ∈ singlePaths, isArchivePath (archivePath path) = true := by decide
  exact hall path h

theorem length_reports_le {package : SealedPackage}
    (h : sealEvidencePackage unicode sha256Hex info none audits = .ok package) :
    info.reports.length ≤ maxFileCount := by
  obtain ⟨hfiles, hcreate⟩ := sealEvidencePackage_eq_ok h
  have hcount : package.files.length ≤ maxFileCount := by
    unfold createEvidenceZip at hcreate
    split at hcreate
    · cases hcreate
    · rename_i hnot
      rw [List.length_map] at hnot
      omega
  have hreports : info.reports.length ≤ package.files.length := by
    rw [hfiles]
    unfold allPackageFiles packageFiles loadEvidenceFiles
    rw [List.length_insertionSort]
    simp only [List.length_append, reportFiles, List.length_map, List.length_zipIdx]
    omega
  exact le_trans hreports hcount

theorem packagePath_accepted (hreports : info.reports.length ≤ maxFileCount)
    (hnames : ∀ index document, info.documents[index]? = some document →
      AcceptedName unicode index document)
    (h : PackagePath unicode info path) : isArchivePath (archivePath path) = true := by
  cases h with
  | document hat => exact (documentPath_accepted_iff _ _).mpr (hnames _ _ hat)
  | signer _ hname => exact signerPath_accepted _ hname
  | report hlt => exact reportPath_accepted (by unfold maxFileCount at hreports; omega)
  | single hsingle => exact singlePath_accepted hsingle

end Paths

theorem assertPath_eq_ok {path : Text} :
    assertPath path = .ok path ↔ isArchivePath path = true := by
  unfold assertPath
  by_cases h : isArchivePath path = true <;> simp [h]

/-- The files of a package stand under different paths in the archive, all of them accepted,
exactly when the names of its documents fit the archive. -/
theorem archive_paths_iff (unicode : UnicodeTexts) (sha256Hex : Bytes → Text) (info : EvidenceCase)
    (audits : List Json) (package : SealedPackage)
    (h : sealEvidencePackage unicode sha256Hex info none audits = .ok package) :
    (∃ files, loadPackageFiles sha256Hex (packageFileRows sha256Hex package) = .ok files ∧
        (files.map (·.path)).Nodup ∧ ∀ file ∈ files, assertPath file.path = .ok file.path) ↔
      ∀ index document, info.documents[index]? = some document →
        AcceptedName unicode index document := by
  have hloaded := loadPackageFiles_packageFileRows sha256Hex package
  have hmapped : (package.files.map fun file => { file with path := archivePath file.path }).map
      (·.path) = (package.files.map (·.path)).map archivePath := by
    rw [List.map_map, List.map_map]
    rfl
  constructor
  · rintro ⟨files, hload, -, haccepted⟩ index document hat
    obtain rfl := Except.ok.inj (hloaded.symm.trans hload)
    obtain ⟨file, hfile, hpath⟩ := List.mem_map.mp ((mem_sealed_paths h).mpr (.document hat))
    have hok := haccepted _ (List.mem_map_of_mem hfile)
    rw [assertPath_eq_ok, hpath] at hok
    exact (documentPath_accepted_iff index document).mp hok
  · intro hnames
    refine ⟨_, hloaded, ?_, fun file hfile => ?_⟩
    · rw [hmapped]
      refine (nodup_paths_of_build h).map_on fun path hpath path' hpath' heq => ?_
      exact archivePath_injOn ((mem_sealed_paths h).mp hpath) ((mem_sealed_paths h).mp hpath') heq
    · obtain ⟨source, hsource, rfl⟩ := List.mem_map.mp hfile
      rw [assertPath_eq_ok]
      exact packagePath_accepted (length_reports_le h) hnames
        ((mem_sealed_paths h).mp (List.mem_map_of_mem hsource))

/-! ## Small packages -/

theorem length_utf8_le_four (s : Text) : (utf8 s).length ≤ 4 * s.length := by
  unfold utf8
  induction s with
  | nil => simp
  | cons c s ih =>
    have hc := Char.utf8Size_le_four c
    rw [List.flatMap_cons, List.length_append, List.length_cons, String.length_utf8EncodeChar]
    omega

theorem length_evidenceArchive_le {ordered : List EvidenceZipInput} {path bytes : ℕ}
    (hpath : ∀ file ∈ ordered, (utf8 file.path).length ≤ path)
    (hbytes : ∀ file ∈ ordered, file.bytes.length ≤ bytes) :
    (evidenceArchive ordered).length ≤ ordered.length * (76 + 2 * path + bytes) + 22 := by
  have hparts : (localParts ordered).length ≤ ordered.length * (30 + path + bytes) := by
    induction ordered with
    | nil => simp [localParts]
    | cons file ordered ih =>
      have hp := hpath file List.mem_cons_self
      have hb := hbytes file List.mem_cons_self
      have hrest := ih (fun f hf => hpath f (List.mem_cons_of_mem _ hf))
        (fun f hf => hbytes f (List.mem_cons_of_mem _ hf))
      unfold localParts at hrest ⊢
      rw [List.flatMap_cons, List.length_append, List.length_append, length_localHeader,
        List.length_cons, Nat.succ_mul]
      omega
  have hcentral : ∀ offset, (centralParts offset ordered).length ≤ ordered.length * (46 + path) := by
    clear hparts hbytes
    induction ordered with
    | nil => simp [centralParts]
    | cons file ordered ih =>
      intro offset
      have hp := hpath file List.mem_cons_self
      have hrest := ih (fun f hf => hpath f (List.mem_cons_of_mem _ hf))
        (offset + (localHeader file).length + file.bytes.length)
      have hheader : (centralHeader file offset).length = 46 + (utf8 file.path).length := by
        simp only [centralHeader, List.length_append, length_littleEndian]
      rw [centralParts, List.length_append, hheader, List.length_cons, Nat.succ_mul]
      omega
  have hdirectory := hcentral 0
  rw [length_evidenceArchive, directoryOffset, List.length_append]
  have hsum : ordered.length * (30 + path + bytes) + ordered.length * (46 + path) =
      ordered.length * (76 + 2 * path + bytes) := by
    rw [← Nat.mul_add]
    congr 1
    omega
  omega

section

variable {unicode : UnicodeTexts} {sha256Hex : Bytes → Text} {files : List EvidenceFile} {bytes : ℕ}

theorem length_packageFiles_le {id createdAt : Text} {metadata : Json}
    (hfiles : ∀ file ∈ files, file.bytes.length ≤ bytes)
    (hmanifest : 4 * (Json.canonical (createEvidenceManifest unicode sha256Hex id files metadata
      createdAt).json).bulk ≤ bytes)
    (hchecksums : 4 * (checksumLines unicode (createEvidenceManifest unicode sha256Hex id files
      metadata createdAt)).length ≤ bytes) :
    ∀ file ∈ packageFiles unicode sha256Hex id files metadata createdAt,
      file.bytes.length ≤ bytes := by
  intro file hfile
  unfold packageFiles at hfile
  rw [(List.perm_insertionSort _ _).mem_iff, List.mem_append, List.mem_pair] at hfile
  rcases hfile with hfile | rfl | rfl
  · exact hfiles file hfile
  · exact le_trans (length_utf8_le_four _)
      (le_trans (Nat.mul_le_mul_left 4 (Json.length_render_le _)) hmanifest)
  · exact le_trans (length_utf8_le_four _) hchecksums

/-- Files that are small enough for any number of them are archived. -/
theorem createEvidenceZip_of_small {path : ℕ}
    (hcount : 0 < files.length ∧ files.length ≤ maxFileCount)
    (hfiles : ∀ file ∈ files, file.bytes.length ≤ bytes ∧
      (utf8 (unicode.normalize file.path)).length ≤ path ∧ isEvidencePath file.path = true)
    (hdistinct : (files.map fun file => unicode.normalize file.path).Nodup)
    (hfile : bytes ≤ maxFileBytes)
    (harchive : maxFileCount * (76 + 2 * path + bytes) + 22 ≤ maxArchiveBytes) :
    ∃ zip, createEvidenceZip unicode (files.map (·.input)) = .ok zip := by
  have hmember : ∀ input ∈ orderedFiles unicode (files.map (·.input)),
      input.bytes.length ≤ bytes ∧ (utf8 input.path).length ≤ path := by
    intro input hinput
    obtain ⟨_, hgiven, rfl⟩ := mem_orderedFiles.mp hinput
    obtain ⟨file, hmem, rfl⟩ := List.mem_map.mp hgiven
    exact ⟨(hfiles file hmem).1, (hfiles file hmem).2.1⟩
  have hordered : (orderedFiles unicode (files.map (·.input))).length ≤ maxFileCount := by
    rw [orderedFiles, List.length_insertionSort, List.length_map, List.length_map]
    exact hcount.2
  have hlimits : WithinLimits unicode (files.map (·.input)) := by
    refine ⟨?_, by rw [List.length_map]; exact hcount.2, ?_, ?_, ?_⟩
    · rw [← List.length_pos_iff, List.length_map]
      exact hcount.1
    · rintro _ hinput
      obtain ⟨file, hmem, rfl⟩ := List.mem_map.mp hinput
      exact le_trans (hfiles file hmem).1 hfile
    · have hlength := length_evidenceArchive_le (fun input h => (hmember input h).2)
        (fun input h => (hmember input h).1)
      exact le_trans hlength
        (le_trans (Nat.add_le_add_right (Nat.mul_le_mul_right _ hordered) 22) harchive)
    · rintro _ hinput
      obtain ⟨file, hmem, rfl⟩ := List.mem_map.mp hinput
      exact (hfiles file hmem).2.2
  exact ⟨_, createEvidenceZip_eq hlimits (by rw [List.map_map]; exact hdistinct)⟩

theorem sealEvidencePackage_of_zip {info : EvidenceCase} {signerId : Option RowId}
    {audits : List Json} {zip : Bytes}
    (h : createEvidenceZip unicode
      ((allPackageFiles unicode sha256Hex info signerId audits).map (·.input)) = .ok zip) :
    sealEvidencePackage unicode sha256Hex info signerId audits =
      .ok ⟨allPackageFiles unicode sha256Hex info signerId audits, zip⟩ := by
  unfold sealEvidencePackage
  dsimp only
  rw [h]
  rfl

end

/-! ## A name with a space -/

def oneSigner : EvidenceSigner where
  id := ⟨"00000000-0000-4000-8000-000000000001", by decide⟩
  visibleText := "Jag signerar".toList
  nonVisiblePayload := "{}".toList
  collectResponse := [1]
  signatureXml := [2]
  ocspResponse := [3]
  verificationReport := [4]
  verifiedAt := 0

def spacedNameCase : EvidenceCase where
  signatureCaseId := ⟨"00000000-0000-4000-8000-000000000002", by decide⟩
  title := "Beslut".toList
  externalReference := none
  legalName := none
  signers := [oneSigner]
  protectedSignerCount := 0
  documents := [⟨"Beslut 1.pdf".toList, [5]⟩]
  reports := []

def spacedNameFiles : List EvidenceFile :=
  allPackageFiles characterOrder transcript spacedNameCase none []

theorem length_spacedNameFiles_le : ∀ file ∈ spacedNameFiles, file.bytes.length ≤ 100000 := by
  have hlengths : (∀ file ∈ loadEvidenceFiles characterOrder spacedNameCase none [],
        file.bytes.length ≤ 100000) ∧
      4 * (Json.canonical (createEvidenceManifest characterOrder transcript
        spacedNameCase.signatureCaseId.value.toList
        (loadEvidenceFiles characterOrder spacedNameCase none [])
        (packageMetadata spacedNameCase none)
        (packageCreatedAt spacedNameCase)).json).bulk ≤ 100000 ∧
      4 * (checksumLines characterOrder (createEvidenceManifest characterOrder transcript
        spacedNameCase.signatureCaseId.value.toList
        (loadEvidenceFiles characterOrder spacedNameCase none [])
        (packageMetadata spacedNameCase none)
        (packageCreatedAt spacedNameCase))).length ≤ 100000 := by
    decide +kernel
  exact length_packageFiles_le hlengths.1 hlengths.2.1 hlengths.2.2

theorem spacedNameCase_seals : ∃ package,
    sealEvidencePackage characterOrder transcript spacedNameCase none [] = .ok package := by
  obtain ⟨hcount, hdistinct, hsafe⟩ : (0 < spacedNameFiles.length ∧
      spacedNameFiles.length ≤ maxFileCount) ∧ (spacedNameFiles.map (·.path)).Nodup ∧
      ∀ file ∈ spacedNameFiles, isEvidencePath file.path = true := by
    decide +kernel
  have hpath (file : EvidenceFile) (hmem : file ∈ spacedNameFiles) :
      (utf8 file.path).length ≤ 3 * 512 :=
    le_trans (length_utf8_le _) (Nat.mul_le_mul_left 3 (isEvidencePath_length (hsafe file hmem)))
  have hzip : ∃ zip, createEvidenceZip characterOrder (spacedNameFiles.map (·.input)) = .ok zip :=
    createEvidenceZip_of_small hcount
      (fun file hmem => ⟨length_spacedNameFiles_le file hmem, hpath file hmem, hsafe file hmem⟩)
      hdistinct (by unfold maxFileBytes; omega)
      (by unfold maxFileCount maxArchiveBytes; omega)
  obtain ⟨zip, hzip⟩ := hzip
  unfold spacedNameFiles at hzip
  exact ⟨_, sealEvidencePackage_of_zip hzip⟩

theorem spacedNameCase_paths : ∃ package,
    sealEvidencePackage characterOrder transcript spacedNameCase none [] = .ok package ∧
      ((∃ files, loadPackageFiles transcript (packageFileRows transcript package) = .ok files ∧
          (files.map (·.path)).Nodup ∧ ∀ file ∈ files, assertPath file.path = .ok file.path) ↔
        ∀ (index : Nat) document, spacedNameCase.documents[index]? = some document →
          AcceptedName characterOrder index document) :=
  let ⟨package, h⟩ := spacedNameCase_seals
  ⟨package, h, archive_paths_iff characterOrder transcript spacedNameCase [] package h⟩

/-- The document is packaged, and the archive refuses its path. -/
theorem spacedName_refused : ∃ package,
    sealEvidencePackage characterOrder transcript spacedNameCase none [] = .ok package ∧
      ¬ ∃ files, loadPackageFiles transcript (packageFileRows transcript package) = .ok files ∧
        (files.map (·.path)).Nodup ∧ ∀ file ∈ files, assertPath file.path = .ok file.path := by
  obtain ⟨package, h⟩ := spacedNameCase_seals
  refine ⟨package, h, ?_⟩
  rintro ⟨files, hload, -, haccepted⟩
  obtain rfl := Except.ok.inj ((loadPackageFiles_packageFileRows _ _).symm.trans hload)
  have hmem : documentPath characterOrder 0 ⟨"Beslut 1.pdf".toList, [5]⟩ ∈
      package.files.map (·.path) := (mem_sealed_paths h).mpr (.document rfl)
  obtain ⟨file, hfile, hpath⟩ := List.mem_map.mp hmem
  have hok := haccepted _ (List.mem_map_of_mem hfile)
  rw [assertPath_eq_ok, hpath, documentPath_accepted_iff] at hok
  exact absurd hok.1 (by decide)

end Kommunsign
