import Mathlib.Data.Bool.AllAny
import Mathlib.Algebra.Order.BigOperators.Group.List
import Mathlib.Algebra.Order.Ring.Nat
import Kommunsign.Evidence.ReadBack
import Kommunsign.Infra.Table

/-!
# Whether the verifier accepts what the worker seals

The path of a file stands in a package three times: in the manifest as it is, in the checksum file
as the rest of a line, and in the archive as NFC makes it. The verifier compares the three.

* `OneSpelling` — a path that is read alike in all three places
* `sealed_package_verified_iff` — the packages of the worker that are accepted
* `angstrom_package_not_verified` — one that is not
-/

namespace Kommunsign

open Infra

/-- What is known of `String.prototype.normalize('NFC')`. -/
structure NormalizesToNfc (unicode : UnicodeTexts) : Prop where
  ascii : ∀ s : Text, (∀ c ∈ s, c.toNat < 128) → unicode.normalize s = s
  lines : ∀ s : Text, s.all (!isLineTerminator ·) = true →
    (unicode.normalize s).all (!isLineTerminator ·) = true
  /-- No text becomes more than three times as long. -/
  expansion : ∀ s : Text, (utf8 (unicode.normalize s)).length ≤ 3 * (utf8 s).length

/-- A path that NFC, the lines of a file and the decoder of names leave as it is. -/
structure OneSpelling (unicode : UnicodeTexts) (path : Text) : Prop where
  normal : unicode.normalize path = path
  oneLine : path.all (!isLineTerminator ·) = true
  unmarked : dropByteOrderMark path = path

/-! ## The length of names -/

section

theorem length_utf8EncodeChar_le (c : Char) :
    (String.utf8EncodeChar c).length ≤ 3 * (Json.utf16Units c).length := by
  rw [String.length_utf8EncodeChar]
  unfold Json.utf16Units
  have hsize := Char.utf8Size_le_four c
  split
  · rename_i hc
    -- four bytes are for characters of two units
    have hfour : c.utf8Size ≠ 4 := by
      rw [ne_eq, Char.utf8Size_eq_four_iff, UInt32.lt_iff_toNat_lt, not_lt]
      exact Nat.lt_succ_iff.mp hc
    exact Nat.lt_succ_iff.mp (lt_of_le_of_ne hsize hfour)
  · exact Nat.le_trans hsize (by simp)

theorem length_utf8_le (s : Text) : (utf8 s).length ≤ 3 * (Json.utf16 s).length := by
  induction s with
  | nil => rfl
  | cons c s ih =>
    have hc := length_utf8EncodeChar_le c
    unfold utf8 Json.utf16 at ih ⊢
    rw [List.flatMap_cons, List.flatMap_cons, List.length_append, List.length_append]
    omega

theorem isEvidencePath_length {path : Text} (h : isEvidencePath path = true) :
    (Json.utf16 path).length ≤ 512 := by
  unfold isEvidencePath at h
  simp only [Bool.and_eq_true, decide_eq_true_eq] at h
  exact h.1.1.1.1.1.2

end

/-! ## The package -/

def EvidenceFile.member (unicode : UnicodeTexts) (file : EvidenceFile) : EvidenceZipInput :=
  ⟨unicode.normalize file.path, file.bytes⟩

def EvidenceFile.entry (sha256Hex : Bytes → Text) (file : EvidenceFile) : EvidenceManifestEntry :=
  ⟨file.path, sha256Hex file.bytes, file.bytes.length, file.mediaType⟩

def manifestMember (manifest : EvidenceManifest) : EvidenceZipInput :=
  ⟨"manifest.json".toList, utf8 (canonicalJson manifest.json)⟩

def checksumMember (unicode : UnicodeTexts) (manifest : EvidenceManifest) : EvidenceZipInput :=
  ⟨"checksums.sha256".toList, utf8 (checksumLines unicode manifest)⟩

/-- The members of an archive and the entries of a manifest are those of the files. -/
structure SealedFrom (unicode : UnicodeTexts) (sha256Hex : Bytes → Text) (files : List EvidenceFile)
    (manifest : EvidenceManifest) (ordered : List EvidenceZipInput) : Prop where
  archivable : Archivable ordered
  unique : (ordered.map (·.path)).Nodup
  members : ordered.Perm (files.map (·.member unicode) ++
    [manifestMember manifest, checksumMember unicode manifest])
  entries : manifest.entries.Perm (files.map (·.entry sha256Hex))
  safe : ∀ file ∈ files, isEvidencePath file.path = true

section

variable {unicode : UnicodeTexts} {sha256Hex : Bytes → Text} {files : List EvidenceFile}
  {manifest : EvidenceManifest} {ordered : List EvidenceZipInput}

theorem archivable_of_createEvidenceZip (hnfc : NormalizesToNfc unicode)
    {inputs : List EvidenceZipInput} {zip : Bytes} (h : createEvidenceZip unicode inputs = .ok zip) :
    Archivable (orderedFiles unicode inputs) ∧
      ∀ input ∈ inputs, isEvidencePath input.path = true := by
  obtain ⟨-, hbytes, rfl⟩ := createEvidenceZip_eq_ok h
  unfold createEvidenceZip at h
  split at h
  · cases h
  rename_i hcount
  split at h
  · cases h
  rename_i hpaths
  dsimp only at h
  split at h
  · cases h
  split at h
  · cases h
  split at h
  · cases h
  rename_i hsize
  have hsafe : ∀ input ∈ inputs, isEvidencePath input.path = true := by
    intro input hinput
    by_contra hunsafe
    refine hpaths ?_
    rw [Bool.not_eq_true', List.all_eq_false]
    exact ⟨input, hinput, hunsafe⟩
  have hlength : (orderedFiles unicode inputs).length = inputs.length := by
    unfold orderedFiles
    rw [List.length_insertionSort, List.length_map]
  refine ⟨⟨fun hnil => ?_, ?_, fun file hfile => ⟨?_, hbytes file hfile⟩, Nat.not_lt.mp hsize⟩, hsafe⟩
  · rw [hnil] at hlength
    exact hcount (Or.inl hlength.symm)
  · rw [hlength]
    exact Nat.not_lt.mp fun hlarge => hcount (Or.inr hlarge)
  · -- a name of 512 units has at most 1536 bytes, and NFC makes at most 4608 of them
    obtain ⟨input, hinput, rfl⟩ := List.mem_map.mp ((List.mem_insertionSort _).mp hfile)
    have hunits := isEvidencePath_length (hsafe input hinput)
    have hutf8 := length_utf8_le input.path
    have hexpansion := hnfc.expansion input.path
    dsimp only
    omega

theorem isAscii_manifest : ∀ c ∈ "manifest.json".toList, c.toNat < 128 :=
  List.all_iff_forall_prop.mp (by decide)

theorem isAscii_checksums : ∀ c ∈ "checksums.sha256".toList, c.toNat < 128 :=
  List.all_iff_forall_prop.mp (by decide)

theorem sealedFrom_of_createEvidenceZip (hnfc : NormalizesToNfc unicode) {signatureCaseId : Text}
    {metadata : Json} {createdAt : Text} {zip : Bytes}
    (h : createEvidenceZip unicode ((packageFiles unicode sha256Hex signatureCaseId files metadata
      createdAt).map (·.input)) = .ok zip) :
    ∃ ordered, zip = evidenceArchive ordered ∧ SealedFrom unicode sha256Hex files
      (createEvidenceManifest unicode sha256Hex signatureCaseId files metadata createdAt)
      ordered := by
  obtain ⟨hunique, -, hzip⟩ := createEvidenceZip_eq_ok h
  obtain ⟨harchivable, hsafe⟩ := archivable_of_createEvidenceZip hnfc h
  refine ⟨_, hzip, harchivable, hunique, ?_, List.perm_insertionSort _ _, fun file hfile => ?_⟩
  · obtain ⟨described, hperm, hdescribed⟩ : ∃ described,
        (packageFiles unicode sha256Hex signatureCaseId files metadata createdAt).Perm
          (files ++ described) ∧ described.map (·.member unicode) = [manifestMember _,
            checksumMember unicode
              (createEvidenceManifest unicode sha256Hex signatureCaseId files metadata createdAt)] := by
      unfold packageFiles
      dsimp only
      refine ⟨_, List.perm_insertionSort _ _, ?_⟩
      -- the names of the two descriptions are ASCII
      have hmanifest := hnfc.ascii _ isAscii_manifest
      have hchecksums := hnfc.ascii _ isAscii_checksums
      rw [List.map_cons, List.map_cons, List.map_nil]
      unfold EvidenceFile.member manifestMember checksumMember
      dsimp only
      rw [hmanifest, hchecksums]
    have hmembers := hperm.map (·.member unicode)
    rw [List.map_append, hdescribed] at hmembers
    refine (List.perm_insertionSort _ _).trans ?_
    rw [List.map_map]
    exact hmembers
  · refine hsafe file.input (List.mem_map_of_mem ?_)
    exact (List.mem_insertionSort _).mpr (List.mem_append_left _ hfile)

/-! ## The names of the members -/

theorem path_manifestMember (manifest : EvidenceManifest) :
    (manifestMember manifest).path = "manifest.json".toList := rfl

theorem path_checksumMember (unicode : UnicodeTexts) (manifest : EvidenceManifest) :
    (checksumMember unicode manifest).path = "checksums.sha256".toList := rfl

theorem SealedFrom.manifestMember_mem (h : SealedFrom unicode sha256Hex files manifest ordered) :
    manifestMember manifest ∈ ordered :=
  h.members.mem_iff.mpr (List.mem_append_right _ List.mem_cons_self)

theorem SealedFrom.checksumMember_mem (h : SealedFrom unicode sha256Hex files manifest ordered) :
    checksumMember unicode manifest ∈ ordered :=
  h.members.mem_iff.mpr (List.mem_append_right _ (List.mem_cons_of_mem _ List.mem_cons_self))

theorem SealedFrom.member_mem (h : SealedFrom unicode sha256Hex files manifest ordered)
    {file : EvidenceFile} (hfile : file ∈ files) : file.member unicode ∈ ordered :=
  h.members.mem_iff.mpr (List.mem_append_left _ (List.mem_map_of_mem hfile))

theorem SealedFrom.isMetadataPath_member
    (h : SealedFrom unicode sha256Hex files manifest ordered) {file : EvidenceFile}
    (hfile : file ∈ files) : isMetadataPath (file.member unicode).path = false := by
  have hunique := (h.members.map (·.path)).nodup_iff.mp h.unique
  rw [List.map_append, List.nodup_append] at hunique
  have hne := hunique.2.2 _ (List.mem_map_of_mem (List.mem_map_of_mem hfile))
  have hmanifest := hne _ (List.mem_map_of_mem List.mem_cons_self)
  have hchecksums := hne _ (List.mem_map_of_mem (List.mem_cons_of_mem _ List.mem_cons_self))
  rw [path_manifestMember] at hmanifest
  rw [path_checksumMember] at hchecksums
  unfold isMetadataPath
  rw [Bool.or_eq_false_iff, beq_eq_false_iff_ne, beq_eq_false_iff_ne]
  exact ⟨hmanifest, hchecksums⟩

theorem SealedFrom.mem_cases (h : SealedFrom unicode sha256Hex files manifest ordered)
    {member : EvidenceZipInput} (hmember : member ∈ ordered) :
    (∃ file ∈ files, file.member unicode = member) ∨ member = manifestMember manifest ∨
      member = checksumMember unicode manifest := by
  rcases List.mem_append.mp (h.members.mem_iff.mp hmember) with hfile | hdescribed
  · exact Or.inl (List.mem_map.mp hfile)
  · rcases List.mem_cons.mp hdescribed with hmanifest | hchecksums
    · exact Or.inr (Or.inl hmanifest)
    · exact Or.inr (Or.inr (List.mem_singleton.mp hchecksums))

/-! ## Paths of one spelling -/

theorem SealedFrom.parse (h : SealedFrom unicode sha256Hex files manifest ordered)
    (hnfc : NormalizesToNfc unicode) (hspelling : ∀ file ∈ files, OneSpelling unicode file.path) :
    parseEvidenceZip unicode (evidenceArchive ordered) = .ok ordered := by
  refine parseEvidenceZip_archive h.archivable (fun member hmember => ?_) h.unique
  rcases h.mem_cases hmember with ⟨file, hfile, rfl⟩ | rfl | rfl
  · obtain ⟨hnormal, -, hunmarked⟩ := hspelling file hfile
    unfold EvidenceFile.member
    rw [hnormal]
    exact ⟨h.safe file hfile, hnormal, hunmarked⟩
  · rw [path_manifestMember]
    exact ⟨by decide, hnfc.ascii _ isAscii_manifest, rfl⟩
  · rw [path_checksumMember]
    exact ⟨by decide, hnfc.ascii _ isAscii_checksums, rfl⟩

theorem SealedFrom.exists_entry (h : SealedFrom unicode sha256Hex files manifest ordered)
    {entry : EvidenceManifestEntry} (hentry : entry ∈ manifest.entries) :
    ∃ file ∈ files, file.entry sha256Hex = entry :=
  List.mem_map.mp (h.entries.mem_iff.mp hentry)

theorem SealedFrom.readable (h : SealedFrom unicode sha256Hex files manifest ordered)
    (hdigest : ∀ bytes, isSha256 (sha256Hex bytes) = true)
    (hspelling : ∀ file ∈ files, OneSpelling unicode file.path) {entry : EvidenceManifestEntry}
    (hentry : entry ∈ manifest.entries) : entry.Readable unicode := by
  obtain ⟨file, hfile, rfl⟩ := h.exists_entry hentry
  refine ⟨h.safe file hfile, (hspelling file hfile).normal, hdigest _, ?_⟩
  exact Nat.lt_of_le_of_lt (h.archivable.fits _ (h.member_mem hfile)).bytes (by decide)

theorem SealedFrom.nodup_entries (h : SealedFrom unicode sha256Hex files manifest ordered)
    (hspelling : ∀ file ∈ files, OneSpelling unicode file.path) :
    (manifest.entries.map (·.path)).Nodup := by
  have hunique := (h.members.map (·.path)).nodup_iff.mp h.unique
  rw [List.map_append, List.nodup_append, List.map_map] at hunique
  rw [(h.entries.map (·.path)).nodup_iff, List.map_map]
  refine (List.map_congr_left fun file hfile => ?_) ▸ hunique.1
  exact (hspelling file hfile).normal

theorem SealedFrom.verifyEvidenceFiles_read
    (h : SealedFrom unicode sha256Hex files manifest ordered)
    (hspelling : ∀ file ∈ files, OneSpelling unicode file.path) :
    verifyEvidenceFiles sha256Hex manifest.read
      (ordered.filter fun member => !isMetadataPath member.path) = [] := by
  have hkeys : ((ordered.filter fun member => !isMetadataPath member.path).reverse.map
      (·.path)).Nodup := by
    rw [List.map_reverse, List.nodup_reverse]
    exact h.unique.sublist (List.filter_sublist.map _)
  unfold verifyEvidenceFiles
  refine List.append_eq_nil_iff.mpr ⟨List.flatMap_eq_nil_iff.mpr fun read hread => ?_,
    List.flatMap_eq_nil_iff.mpr fun member hmember => ?_⟩
  · obtain ⟨entry, hentry, rfl⟩ := List.mem_map.mp hread
    obtain ⟨file, hfile, rfl⟩ := h.exists_entry hentry
    -- the member of an entry is found under its path
    have hnormal := (hspelling file hfile).normal
    have hmem : file.member unicode ∈
        (ordered.filter fun member => !isMetadataPath member.path).reverse := by
      refine List.mem_reverse.mpr (List.mem_filter.mpr ⟨h.member_mem hfile, ?_⟩)
      rw [h.isMetadataPath_member hfile]
      rfl
    have hfind := find?_of_mem hkeys hmem
    unfold EvidenceFile.member at hfind
    rw [hnormal] at hfind
    unfold verifyEvidenceFile
    rw [show ((file.entry sha256Hex).read).path = file.path from rfl, hfind]
    exact List.append_eq_nil_iff.mpr ⟨if_neg (not_not.mpr rfl), if_neg (not_not.mpr rfl)⟩
  · obtain ⟨hordered, hother⟩ := List.mem_filter.mp hmember
    refine if_pos (List.any_eq_true.mpr ?_)
    rcases h.mem_cases hordered with ⟨file, hfile, rfl⟩ | rfl | rfl
    · refine ⟨(file.entry sha256Hex).read, List.mem_map_of_mem ?_, ?_⟩
      · exact h.entries.mem_iff.mpr (List.mem_map_of_mem hfile)
      · exact beq_iff_eq.mpr (hspelling file hfile).normal.symm
    · rw [path_manifestMember] at hother
      exact absurd hother (by decide)
    · rw [path_checksumMember] at hother
      exact absurd hother (by decide)

/-! ## The checksum file -/

def EvidenceManifestEntry.line (entry : EvidenceManifestEntry) : Text :=
  entry.sha256 ++ "  ".toList ++ entry.path

theorem length_of_isSha256 {s : Text} (h : isSha256 s = true) : s.length = 64 := by
  unfold isSha256 at h
  rw [Bool.and_eq_true, beq_iff_eq] at h
  exact h.1

theorem not_isLineTerminator_of_isSha256 {s : Text} (h : isSha256 s = true) {c : Char}
    (hc : c ∈ s) : isLineTerminator c = false ∧ c ≠ '\uFEFF' := by
  unfold isSha256 at h
  rw [Bool.and_eq_true, List.all_eq_true] at h
  have hhex := h.2 c hc
  constructor
  · by_contra hterminator
    unfold isLineTerminator at hterminator
    simp only [Bool.not_eq_false, Bool.or_eq_true, beq_iff_eq] at hterminator
    rcases hterminator with ((rfl | rfl) | rfl) | rfl
    all_goals exact absurd hhex (by decide)
  · rintro rfl
    exact absurd hhex (by decide)

theorem ne_nil_of_isEvidencePath {path : Text} (h : isEvidencePath path = true) : path ≠ [] := by
  rintro rfl
  exact absurd h (by decide)

theorem checksumOfLine_line {entry : EvidenceManifestEntry} (hreadable : entry.Readable unicode)
    (hline : entry.path.all (!isLineTerminator ·) = true) :
    checksumOfLine entry.line = some (entry.path, entry.sha256) := by
  have hlength := length_of_isSha256 hreadable.sha256
  have hdrop : entry.line.drop 64 = ' ' :: ' ' :: entry.path := by
    unfold EvidenceManifestEntry.line
    rw [List.append_assoc, ← hlength, List.drop_left]
    rfl
  have htake : entry.line.take 64 = entry.sha256 := by
    unfold EvidenceManifestEntry.line
    rw [List.append_assoc, ← hlength, List.take_left]
  have hne : (entry.path != []) = true := bne_iff_ne.mpr (ne_nil_of_isEvidencePath hreadable.safe)
  unfold checksumOfLine
  rw [hdrop, htake]
  refine if_pos ?_
  rw [hreadable.sha256, hne, hline]
  rfl

theorem readChecksums_nil : ∀ {lines : List Text} {actual : List (Text × Text)},
    (∀ line ∈ lines, line = []) → readChecksums unicode lines actual = .ok ([], actual)
  | [], _, _ => rfl
  | line :: lines, actual, h => by
    rw [readChecksums, if_pos (h line List.mem_cons_self)]
    exact readChecksums_nil fun line hline => h line (List.mem_cons_of_mem _ hline)

theorem readChecksums_lines {rest : List Text} (hrest : ∀ line ∈ rest, line = []) :
    ∀ {entries : List EvidenceManifestEntry} {actual : List (Text × Text)},
      (∀ entry ∈ entries, entry.Readable unicode) →
      (∀ entry ∈ entries, entry.path.all (!isLineTerminator ·) = true) →
      (entries.map (·.path)).Nodup →
      (∀ entry ∈ entries, ∀ listed ∈ actual, listed.1 ≠ entry.path) →
      readChecksums unicode (entries.map (·.line) ++ rest) actual =
        .ok ([], actual ++ entries.map fun entry => (entry.path, entry.sha256))
  | [], actual, _, _, _, _ => by
    rw [List.map_nil, List.nil_append, List.map_nil, List.append_nil]
    exact readChecksums_nil hrest
  | entry :: entries, actual, hreadable, hlines, hunique, hnew => by
    have hentry := hreadable entry List.mem_cons_self
    have hchecksum := checksumOfLine_line hentry (hlines entry List.mem_cons_self)
    have hline : entry.line ≠ [] := by
      intro hnil
      rw [hnil] at hchecksum
      cases hchecksum
    have hpath : validatePath unicode entry.path = .ok entry.path := by
      unfold validatePath
      rw [if_pos hentry.safe, hentry.normal]
    have hfirst : actual.any (·.1 == entry.path) = false := by
      rw [List.any_eq_false]
      intro listed hlisted hsame
      exact hnew entry List.mem_cons_self listed hlisted (beq_iff_eq.mp hsame)
    rw [List.map_cons, List.nodup_cons] at hunique
    have hlater : ∀ later ∈ entries, ∀ listed ∈ actual ++ [(entry.path, entry.sha256)],
        listed.1 ≠ later.path := by
      intro later hlater listed hlisted
      rcases List.mem_append.mp hlisted with hold | hlast
      · exact hnew later (List.mem_cons_of_mem _ hlater) listed hold
      · obtain rfl := List.mem_singleton.mp hlast
        intro hsame
        exact hunique.1 (List.mem_map.mpr ⟨later, hlater, hsame.symm⟩)
    have hrec := readChecksums_lines hrest
      (fun later hlater => hreadable later (List.mem_cons_of_mem _ hlater))
      (fun later hlater => hlines later (List.mem_cons_of_mem _ hlater)) hunique.2 hlater
    rw [List.map_cons, List.cons_append, readChecksums, if_neg hline, hchecksum]
    dsimp only
    refine except_bind_eq_ok.mpr ⟨entry.path, hpath, ?_⟩
    rw [setChecksum_of_not_any hfirst]
    refine except_bind_eq_ok.mpr ⟨_, hrec, ?_⟩
    dsimp only
    rw [hfirst, List.map_cons, List.append_assoc]
    rfl

theorem dropByteOrderMark_of_head {s : Text} (h : s.head? ≠ some '\uFEFF') :
    dropByteOrderMark s = s := by
  unfold dropByteOrderMark
  split
  · exact absurd rfl h
  · rfl

theorem checksumLines_eq (unicode : UnicodeTexts) (manifest : EvidenceManifest) :
    ∃ sorted : List EvidenceManifestEntry, sorted.Perm manifest.entries ∧
      checksumLines unicode manifest = ['\n'].intercalate (sorted.map (·.line)) ++ ['\n'] :=
  ⟨_, List.perm_insertionSort _ _, rfl⟩

theorem splitOn_checksumLines (hreadable : ∀ entry ∈ manifest.entries, entry.Readable unicode)
    (hlines : ∀ entry ∈ manifest.entries, entry.path.all (!isLineTerminator ·) = true) :
    ∃ (sorted : List EvidenceManifestEntry) (rest : List Text), sorted.Perm manifest.entries ∧
      (∀ line ∈ rest, line = []) ∧
      (checksumLines unicode manifest).splitOn '\n' = sorted.map (·.line) ++ rest := by
  obtain ⟨sorted, hperm, htext⟩ := checksumLines_eq unicode manifest
  rw [htext, List.splitOn_append_cons_self]
  cases hsorted : sorted with
  | nil =>
    subst hsorted
    exact ⟨[], [[], []], hperm, by simp, by simp⟩
  | cons entry entries =>
    refine ⟨sorted, [[]], hperm, by simp, ?_⟩
    rw [← hsorted, List.splitOn_intercalate, List.splitOn_nil]
    · intro line hline hnewline
      obtain ⟨entry, hentry, rfl⟩ := List.mem_map.mp hline
      have hmem := hperm.mem_iff.mp hentry
      unfold EvidenceManifestEntry.line at hnewline
      rw [List.append_assoc] at hnewline
      rcases List.mem_append.mp hnewline with hdigest | hrest
      · exact absurd (not_isLineTerminator_of_isSha256 (hreadable entry hmem).sha256 hdigest).1
          (by decide)
      · rcases List.mem_append.mp hrest with hblank | hpath
        · exact absurd hblank (by decide)
        · exact absurd (List.all_eq_true.mp (hlines entry hmem) _ hpath) (by decide)
    · rw [hsorted]
      exact List.cons_ne_nil _ _

theorem decodeUtf8_checksumLines (hreadable : ∀ entry ∈ manifest.entries, entry.Readable unicode) :
    decodeUtf8 (utf8 (checksumLines unicode manifest)) = some (checksumLines unicode manifest) := by
  obtain ⟨sorted, hperm, htext⟩ := checksumLines_eq unicode manifest
  rw [decodeUtf8_utf8, htext]
  cases sorted with
  | nil => rfl
  | cons entry entries =>
    -- the first character is one of a digest
    have hdigest := (hreadable entry (hperm.mem_iff.mp List.mem_cons_self)).sha256
    refine congrArg some (dropByteOrderMark_of_head fun hhead => ?_)
    obtain ⟨c, digest, hcons⟩ : ∃ c digest, entry.sha256 = c :: digest := by
      refine List.exists_cons_of_ne_nil fun hnil => ?_
      rw [hnil] at hdigest
      cases hdigest
    have hfirst : c = '\uFEFF' := by
      cases entries with
      | nil =>
        rw [List.map_cons, List.map_nil, List.intercalate_singleton, EvidenceManifestEntry.line,
          hcons] at hhead
        exact Option.some.inj hhead
      | cons entry' entries =>
        rw [List.map_cons, List.map_cons, List.intercalate_cons_cons, EvidenceManifestEntry.line,
          hcons] at hhead
        exact Option.some.inj hhead
    exact (not_isLineTerminator_of_isSha256 hdigest (hcons ▸ List.mem_cons_self)).2 hfirst

theorem verifyChecksumFile_checksumLines
    (hreadable : ∀ entry ∈ manifest.entries, entry.Readable unicode)
    (hlines : ∀ entry ∈ manifest.entries, entry.path.all (!isLineTerminator ·) = true)
    (hunique : (manifest.entries.map (·.path)).Nodup) :
    verifyChecksumFile unicode manifest.read (utf8 (checksumLines unicode manifest)) = .ok [] := by
  obtain ⟨sorted, rest, hperm, hrest, hsplit⟩ := splitOn_checksumLines hreadable hlines
  have hmem : ∀ {entry : EvidenceManifestEntry}, entry ∈ sorted ↔ entry ∈ manifest.entries :=
    hperm.mem_iff
  have hsorted : (sorted.map (·.path)).Nodup := (hperm.map _).nodup_iff.mpr hunique
  have hread := @readChecksums_lines unicode rest hrest sorted []
    (fun entry hentry => hreadable entry (hmem.mp hentry))
    (fun entry hentry => hlines entry (hmem.mp hentry)) hsorted (fun _ _ _ => nofun)
  have hkeys : ((sorted.map fun entry => (entry.path, entry.sha256)).map (·.1)).Nodup := by
    rw [List.map_map]
    exact hsorted
  unfold verifyChecksumFile
  rw [decodeUtf8_checksumLines hreadable]
  dsimp only
  rw [hsplit]
  refine except_bind_eq_ok.mpr ⟨_, hread, congrArg Except.ok ?_⟩
  dsimp only
  rw [List.nil_append, List.nil_append]
  refine List.append_eq_nil_iff.mpr ⟨List.flatMap_eq_nil_iff.mpr fun described hdescribed => ?_,
    List.flatMap_eq_nil_iff.mpr fun listed hlisted => ?_⟩
  · obtain ⟨entry, hentry, rfl⟩ := List.mem_map.mp hdescribed
    have hlisted : (entry.path, entry.sha256) ∈
        sorted.map fun entry => (entry.path, entry.sha256) :=
      List.mem_map.mpr ⟨entry, hmem.mpr hentry, rfl⟩
    have hfind := find?_of_mem hkeys hlisted
    rw [show entry.read.path = entry.path from rfl, hfind]
    exact if_neg (not_not.mpr rfl)
  · obtain ⟨entry, hentry, rfl⟩ := List.mem_map.mp hlisted
    refine if_pos (List.any_eq_true.mpr ⟨entry.read, List.mem_map_of_mem (hmem.mp hentry), ?_⟩)
    exact beq_iff_eq.mpr rfl

/-! ## The package as a whole -/

theorem verified_of_oneSpelling {jsonParse : Text → Option Json}
    (h : SealedFrom unicode sha256Hex files manifest ordered) (hnfc : NormalizesToNfc unicode)
    (hdigest : ∀ bytes, isSha256 (sha256Hex bytes) = true)
    (hparse : jsonParse (canonicalJson manifest.json) = some manifest.json.canonical)
    (hspelling : ∀ file ∈ files, OneSpelling unicode file.path) :
    (verifyEvidenceZip unicode jsonParse sha256Hex (evidenceArchive ordered)).verified = true := by
  have hreadable : ∀ entry ∈ manifest.entries, entry.Readable unicode := fun entry hentry =>
    h.readable hdigest hspelling hentry
  have hlines : ∀ entry ∈ manifest.entries, entry.path.all (!isLineTerminator ·) = true := by
    intro entry hentry
    obtain ⟨file, hfile, rfl⟩ := h.exists_entry hentry
    exact (hspelling file hfile).oneLine
  have hunique := h.nodup_entries hspelling
  have hreferences : manifest.read.entries.any (isMetadataPath ·.path) = false := by
    rw [List.any_eq_false]
    intro read hread
    obtain ⟨entry, hentry, rfl⟩ := List.mem_map.mp hread
    obtain ⟨file, hfile, rfl⟩ := h.exists_entry hentry
    have hother := h.isMetadataPath_member hfile
    rw [EvidenceFile.member, (hspelling file hfile).normal] at hother
    exact Bool.eq_false_iff.mp hother
  exact verified_of_parts (h.parse hnfc hspelling) (find?_of_mem h.unique h.manifestMember_mem)
    (parseManifest_manifest hparse hreadable hunique) (h.verifyEvidenceFiles_read hspelling)
    (find?_of_mem h.unique h.checksumMember_mem)
    (verifyChecksumFile_checksumLines hreadable hlines hunique) hreferences

theorem dropByteOrderMark_of_perm {paths : List Text}
    (h : (paths.map dropByteOrderMark).Perm paths) {path : Text} (hpath : path ∈ paths) :
    dropByteOrderMark path = path := by
  have hle : ∀ p : Text, (dropByteOrderMark p).length ≤ p.length ∧
      (dropByteOrderMark p ≠ p → (dropByteOrderMark p).length < p.length) := by
    intro p
    unfold dropByteOrderMark
    split
    · simp
    · simp
  by_contra hne
  have hlt := List.sum_lt_sum (fun p => (dropByteOrderMark p).length) List.length
    (fun p _ => (hle p).1) ⟨path, hpath, (hle path).2 hne⟩
  have hsum := (h.map List.length).sum_eq
  rw [List.map_map] at hsum
  exact absurd hsum (Nat.ne_of_lt hlt)

theorem all_of_checksumOfLine {line path checksum : Text}
    (h : checksumOfLine line = some (path, checksum)) :
    path.all (!isLineTerminator ·) = true := by
  unfold checksumOfLine at h
  split at h
  · split at h
    · rename_i hline
      cases h
      rw [Bool.and_eq_true] at hline
      exact hline.2
    · cases h
  · cases h

theorem SealedFrom.paths_perm (h : SealedFrom unicode sha256Hex files manifest ordered)
    (hnormal : ∀ file ∈ files, unicode.normalize file.path = file.path) :
    (((ordered.map fun member => { member with path := dropByteOrderMark member.path }).filter
      fun member => !isMetadataPath member.path).map (·.path)).Perm
        (((files.map (·.path)).map dropByteOrderMark).filter (!isMetadataPath ·)) := by
  have hmembers := (h.members.map fun member => dropByteOrderMark member.path).filter
    (!isMetadataPath ·)
  have hdescribed : [dropByteOrderMark (manifestMember manifest).path,
      dropByteOrderMark (checksumMember unicode manifest).path].filter (!isMetadataPath ·) = [] := by
    rw [path_manifestMember, path_checksumMember]
    decide
  have hfiles : files.map ((fun member => dropByteOrderMark member.path) ∘ (·.member unicode)) =
      (files.map (·.path)).map dropByteOrderMark := by
    rw [List.map_map]
    exact List.map_congr_left fun file hfile => congrArg dropByteOrderMark (hnormal file hfile)
  rw [List.map_append, List.map_cons, List.map_cons, List.map_nil, List.filter_append, hdescribed,
    List.append_nil, List.map_map, hfiles, List.filter_map] at hmembers
  rw [List.filter_map, List.map_map]
  exact hmembers

theorem oneSpelling_of_verified {jsonParse : Text → Option Json}
    (h : SealedFrom unicode sha256Hex files manifest ordered) (hnfc : NormalizesToNfc unicode)
    (hparse : jsonParse (canonicalJson manifest.json) = some manifest.json.canonical)
    (hverified :
      (verifyEvidenceZip unicode jsonParse sha256Hex (evidenceArchive ordered)).verified = true)
    {file : EvidenceFile} (hfile : file ∈ files) : OneSpelling unicode file.path := by
  obtain ⟨members, manifestFile, checksumFile, read, hmembers, hmanifestFile, hread, hdescribed, -,
    hchecksums⟩ := parts_of_verified hverified
  obtain ⟨-, hunique⟩ := parseEvidenceZip_eq_ok hmembers
  obtain rfl := members_of_parse_archive h.archivable hmembers
  -- the manifest that is read is the one that was written
  have hmanifest : manifestFile = manifestMember manifest := by
    have hmem := List.mem_map_of_mem (f := fun member : EvidenceZipInput =>
      { member with path := dropByteOrderMark member.path }) h.manifestMember_mem
    exact Option.some.inj (hmanifestFile.symm.trans (find?_of_mem hunique hmem))
  rw [hmanifest] at hread
  obtain ⟨hentries, hnormal⟩ := parseManifest_manifest_eq_ok hparse hread
  have hentry : file.entry sha256Hex ∈ manifest.entries :=
    h.entries.mem_iff.mpr (List.mem_map_of_mem hfile)
  obtain ⟨-, hunique'⟩ := parseManifest_eq_ok hread
  refine ⟨hnormal _ hentry, ?_, ?_⟩
  · -- the entry is listed, and what is listed stands on one line
    obtain ⟨text, -, hlisted⟩ := verifyChecksumFile_eq_nil hunique' hchecksums
    have hmem : some (file.entry sha256Hex).read.listed ∈
        read.entries.map fun entry => some entry.listed := by
      rw [hentries]
      exact List.mem_map_of_mem (List.mem_map_of_mem hentry)
    obtain ⟨line, -, hline⟩ := List.mem_map.mp (hlisted.mem_iff.mpr hmem)
    obtain ⟨⟨raw, checksum⟩, hraw, heq⟩ := Option.map_eq_some_iff.mp hline
    have hpath : unicode.normalize raw = file.path := congrArg (·.1) heq
    rw [← hpath]
    exact hnfc.lines raw (all_of_checksumOfLine hraw)
  · -- as many names are left as there are entries, and none of them has become shorter
    have hfiles := (h.paths_perm fun file hfile =>
      hnormal _ (h.entries.mem_iff.mpr (List.mem_map_of_mem hfile)))
    have hperm := (verifyEvidenceFiles_eq_nil (hunique.sublist (List.filter_sublist.map _)) hunique'
      hdescribed).map (·.1)
    rw [List.map_map, List.map_map] at hperm
    have hpaths : (read.entries.map (·.path)).Perm (files.map (·.path)) := by
      have hperm := h.entries.map (·.path)
      rw [List.map_map] at hperm
      rw [hentries, List.map_map]
      exact hperm
    have hkept := hfiles.symm.trans (hperm.trans hpaths)
    have hall : ((files.map (·.path)).map dropByteOrderMark).filter (!isMetadataPath ·) =
        (files.map (·.path)).map dropByteOrderMark := by
      refine List.filter_eq_self.mpr (List.length_filter_eq_length_iff.mp ?_)
      rw [hkept.length_eq, List.length_map, List.length_map, List.length_map]
    rw [hall] at hkept
    exact dropByteOrderMark_of_perm hkept (List.mem_map_of_mem hfile)

end

/--
Whatever files are sealed: the archive is accepted if and only if each path is read alike in all
three places.
-/
theorem sealed_package_verified_iff (unicode : UnicodeTexts) (jsonParse : Text → Option Json)
    (sha256Hex : Bytes → Text) (signatureCaseId : Text) (files : List EvidenceFile)
    (metadata : Json) (createdAt : Text) (zip : Bytes) (hnfc : NormalizesToNfc unicode)
    (hdigest : ∀ bytes, isSha256 (sha256Hex bytes) = true)
    (hparse : jsonParse (canonicalJson (createEvidenceManifest unicode sha256Hex signatureCaseId
      files metadata createdAt).json) = some (createEvidenceManifest unicode sha256Hex
        signatureCaseId files metadata createdAt).json.canonical)
    (hzip : createEvidenceZip unicode ((packageFiles unicode sha256Hex signatureCaseId files metadata
      createdAt).map (·.input)) = .ok zip) :
    (verifyEvidenceZip unicode jsonParse sha256Hex zip).verified = true ↔
      ∀ file ∈ files, OneSpelling unicode file.path := by
  obtain ⟨ordered, rfl, hsealed⟩ := sealedFrom_of_createEvidenceZip hnfc hzip
  constructor
  · intro hverified file hfile
    exact oneSpelling_of_verified hsealed hnfc hparse hverified hfile
  · intro hspelling
    exact verified_of_oneSpelling hsealed hnfc hdigest hparse hspelling

/-! ## A letter of two spellings -/

namespace AngstromPackage

def composeAngstrom (c : Char) : Char := if c = '\u212B' then '\u00C5' else c

def unicode : UnicodeTexts where
  normalize s := s.map composeAngstrom
  localeLe left right := decide (left ≤ right)
  isLetterOrNumber c := c.isAlphanum || c == '\u212B' || c == '\u00C5'
  lowerCase := id

theorem normalizesToNfc : NormalizesToNfc unicode where
  ascii s hs := by
    refine (List.map_congr_left fun c hc => if_neg ?_).trans (List.map_id s)
    rintro rfl
    exact absurd (hs _ hc) (by decide)
  lines s hs := by
    rw [List.all_eq_true] at hs ⊢
    intro c hc
    obtain ⟨d, hd, rfl⟩ := List.mem_map.mp hc
    unfold composeAngstrom
    split
    · decide
    · exact hs d hd
  expansion s := by
    have hle : (utf8 (s.map composeAngstrom)).length ≤ (utf8 s).length := by
      induction s with
      | nil => exact Nat.le_refl _
      | cons c s ih =>
        have hc : (String.utf8EncodeChar (composeAngstrom c)).length ≤
            (String.utf8EncodeChar c).length := by
          unfold composeAngstrom
          split
          · rename_i hangstrom
            rw [hangstrom]
            decide
          · exact Nat.le_refl _
        unfold utf8 at ih ⊢
        rw [List.map_cons, List.flatMap_cons, List.flatMap_cons, List.length_append,
          List.length_append]
        exact Nat.add_le_add hc ih
    exact Nat.le_trans hle (Nat.le_mul_of_pos_left _ (by decide))

def files (displayName : Text) : List EvidenceFile := documentFiles unicode [⟨displayName, []⟩]

def sealFiles (displayName : Text) : Except EvidenceZipError Bytes :=
  createEvidenceZip unicode ((packageFiles unicode (fun _ => emptySha256) [] (files displayName) .null
    []).map (·.input))

def accepts (zip : Bytes) : Bool :=
  (verifyEvidenceZip unicode Json.parse (fun _ => emptySha256) zip).verified

def documentFile (path : String) : EvidenceFile := ⟨path.toList, [], "application/pdf".toList⟩

theorem exists_sealFiles_eq {displayName : Text} (h : (sealFiles displayName).isOk = true) :
    ∃ zip, sealFiles displayName = .ok zip := by
  cases hseal : sealFiles displayName with
  | ok zip => exact ⟨zip, rfl⟩
  | error e =>
    rw [hseal] at h
    cases h

end AngstromPackage

open AngstromPackage in
/-- A document whose name is the sign of the unit: its package is sealed and not accepted. -/
theorem angstrom_package_not_verified :
    ∃ zip, sealFiles ['\u212B'] = .ok zip ∧ accepts zip = false := by
  have hfile : documentFile "documents/001-\u212B.pdf" ∈ files ['\u212B'] := by decide +kernel
  obtain ⟨zip, hzip⟩ := @exists_sealFiles_eq ['\u212B'] (by decide +kernel)
  refine ⟨zip, hzip, Bool.eq_false_iff.mpr fun haccepts => ?_⟩
  obtain ⟨ordered, rfl, hsealed⟩ := sealedFrom_of_createEvidenceZip normalizesToNfc hzip
  have hspelling := oneSpelling_of_verified hsealed normalizesToNfc (Json.parse_render _) haccepts
    hfile
  exact absurd hspelling.normal (by decide +kernel)

open AngstromPackage in
theorem sealed_package_verified_iff_of_letter :
    ∃ zip, sealFiles "brev.pdf".toList = .ok zip ∧ accepts zip = true := by
  have hfiles : files "brev.pdf".toList = [documentFile "documents/001-brev.pdf"] := by
    decide +kernel
  obtain ⟨zip, hzip⟩ := @exists_sealFiles_eq "brev.pdf".toList (by decide +kernel)
  refine ⟨zip, hzip, (sealed_package_verified_iff unicode Json.parse (fun _ => emptySha256) [] _ .null
    [] zip normalizesToNfc (fun _ => by decide) (Json.parse_render _) hzip).mpr fun file hfile => ?_⟩
  rw [hfiles] at hfile
  obtain rfl := List.mem_singleton.mp hfile
  exact ⟨by decide +kernel, by decide +kernel, by decide +kernel⟩

end Kommunsign
