import Kommunsign.Evidence.Reads
import Kommunsign.Infra.BufferReader
import Kommunsign.Infra.Lists
import Kommunsign.Properties.EvidenceVerification
import Kommunsign.Properties.SealedPackages

/-!
# An archive read back, and written again from another order

The files of an archive are sorted by path with a comparison that takes different paths for equal,
and a sort that leaves those as they came. Their names are written as NFC makes them and are read
without a mark in front and under the limits again.

* `zipRoundTrips_iff` — those, and no others
* `softHyphen_order` — two files whose archive depends on their order
* `parse_accounts_iff` — no read leaves the buffer, and an accepted archive is accounted for exactly
  when its members follow one another
-/

namespace Kommunsign

open Infra

/-- The comparison of texts is a total preorder; it may take different texts for equal. -/
structure Compares (unicode : UnicodeTexts) : Prop where
  total : ∀ a b, unicode.localeLe a b = true ∨ unicode.localeLe b a = true
  trans : ∀ a b c, unicode.localeLe a b = true → unicode.localeLe b c = true →
    unicode.localeLe a c = true

def normalizedFiles (unicode : UnicodeTexts) (files : List EvidenceZipInput) :
    List EvidenceZipInput :=
  files.map fun file => { file with path := unicode.normalize file.path }

/-- Files that `createEvidenceZip` takes, whatever becomes of their paths. -/
structure WithinLimits (unicode : UnicodeTexts) (files : List EvidenceZipInput) : Prop where
  nonempty : files ≠ []
  count : files.length ≤ maxFileCount
  bytes : ∀ file ∈ files, file.bytes.length ≤ maxFileBytes
  size : (evidenceArchive (orderedFiles unicode files)).length ≤ maxArchiveBytes
  paths : ∀ file ∈ files, isEvidencePath file.path = true

/-- The archive is read back as the files, and no order of them gives another archive. -/
structure ZipRoundTrips (unicode : UnicodeTexts) (files : List EvidenceZipInput) : Prop where
  reads : ∃ zip back, createEvidenceZip unicode files = .ok zip ∧
    parseEvidenceZip unicode zip = .ok back ∧ back.Perm (normalizedFiles unicode files)
  deterministic : ∀ files', files'.Perm files →
    createEvidenceZip unicode files' = createEvidenceZip unicode files

/--
The paths that NFC makes are different, are paths of an archive without a mark in front, and
different ones do not compare equal.
-/
structure PathsKept (unicode : UnicodeTexts) (files : List EvidenceZipInput) : Prop where
  distinct : (files.map fun file => unicode.normalize file.path).Nodup
  safe : ∀ file ∈ files, isEvidencePath (unicode.normalize file.path) = true
  unmarked : ∀ file ∈ files,
    dropByteOrderMark (unicode.normalize file.path) = unicode.normalize file.path
  apart : ∀ a ∈ files, ∀ b ∈ files,
    unicode.localeLe (unicode.normalize a.path) (unicode.normalize b.path) = true →
    unicode.localeLe (unicode.normalize b.path) (unicode.normalize a.path) = true →
      unicode.normalize a.path = unicode.normalize b.path

section

variable {unicode : UnicodeTexts} {files : List EvidenceZipInput}

theorem orderedFiles_perm (unicode : UnicodeTexts) (files : List EvidenceZipInput) :
    (orderedFiles unicode files).Perm (normalizedFiles unicode files) :=
  List.perm_insertionSort _ _

theorem map_path_normalizedFiles : (normalizedFiles unicode files).map (·.path) =
    files.map fun file => unicode.normalize file.path := List.map_map

theorem nodup_orderedFiles_iff : ((orderedFiles unicode files).map (·.path)).Nodup ↔
    (files.map fun file => unicode.normalize file.path).Nodup := by
  rw [← map_path_normalizedFiles]
  exact ((orderedFiles_perm unicode files).map _).nodup_iff

theorem mem_orderedFiles {file : EvidenceZipInput} : file ∈ orderedFiles unicode files ↔
    ∃ given ∈ files, { given with path := unicode.normalize given.path } = file := by
  rw [(orderedFiles_perm unicode files).mem_iff]
  exact List.mem_map

/-! ## Writing -/

theorem createEvidenceZip_eq (hlimits : WithinLimits unicode files)
    (hdistinct : (files.map fun file => unicode.normalize file.path).Nodup) :
    createEvidenceZip unicode files = .ok (evidenceArchive (orderedFiles unicode files)) := by
  have hcount : ¬(files.length = 0 ∨ maxFileCount < files.length) := by
    have hpos := List.length_pos_iff.mpr hlimits.nonempty
    have hle := hlimits.count
    omega
  have hpaths : (!files.all (isEvidencePath ·.path)) = false := by
    rw [Bool.not_eq_false', List.all_eq_true]
    exact hlimits.paths
  have hbytes : ((orderedFiles unicode files).any fun file =>
      decide (maxFileBytes < file.bytes.length)) = false := by
    rw [List.any_eq_false]
    intro file hfile
    obtain ⟨given, hgiven, rfl⟩ := mem_orderedFiles.mp hfile
    have hle := hlimits.bytes given hgiven
    simpa using hle
  unfold createEvidenceZip
  dsimp only
  rw [if_neg hcount, hpaths, if_neg (by decide), if_neg (not_not.mpr (nodup_orderedFiles_iff.mpr
    hdistinct)), hbytes, if_neg (by decide), if_neg (Nat.not_lt.mpr hlimits.size)]

theorem WithinLimits.archivable (hlimits : WithinLimits unicode files) (hnfc : NormalizesToNfc unicode)
    (hdistinct : (files.map fun file => unicode.normalize file.path).Nodup) :
    Archivable (orderedFiles unicode files) :=
  (archivable_of_createEvidenceZip hnfc (createEvidenceZip_eq hlimits hdistinct)).1

/-! ## Names that are read as they were written -/

theorem readsAs_of_pathsKept (hidempotent : ∀ s, unicode.normalize (unicode.normalize s) =
    unicode.normalize s) (h : PathsKept unicode files) :
    ∀ file ∈ orderedFiles unicode files, ReadsAs unicode file.path := by
  intro file hfile
  obtain ⟨given, hgiven, rfl⟩ := mem_orderedFiles.mp hfile
  exact ⟨h.safe given hgiven, hidempotent _, h.unmarked given hgiven⟩

theorem length_dropByteOrderMark_le (s : Text) : (dropByteOrderMark s).length ≤ s.length := by
  unfold dropByteOrderMark
  split
  · exact Nat.le_succ _
  · exact Nat.le_refl _

theorem dropByteOrderMark_of_length {s : Text} (h : (dropByteOrderMark s).length = s.length) :
    dropByteOrderMark s = s := by
  unfold dropByteOrderMark at h ⊢
  split
  · rename_i rest
    exact absurd h (by simp)
  · rfl

theorem eq_of_sum_eq {α : Type} {f g : α → Nat} {l : List α} (hle : ∀ a ∈ l, f a ≤ g a)
    (hsum : (l.map f).sum = (l.map g).sum) : ∀ a ∈ l, f a = g a := by
  induction l with
  | nil => exact fun a ha => absurd ha List.not_mem_nil
  | cons b l ih =>
    rw [List.forall_mem_cons] at hle
    rw [List.map_cons, List.map_cons, List.sum_cons, List.sum_cons] at hsum
    have hrest : (l.map f).sum ≤ (l.map g).sum := List.sum_le_sum hle.2
    have hb := hle.1
    exact List.forall_mem_cons.mpr ⟨by omega, ih hle.2 (by omega)⟩

theorem unmarked_of_perm {ordered : List EvidenceZipInput}
    (h : (ordered.map fun file => { file with path := dropByteOrderMark file.path }).Perm ordered) :
    ∀ file ∈ ordered, dropByteOrderMark file.path = file.path := by
  have hsum := (h.map fun file => file.path.length).sum_eq
  rw [List.map_map] at hsum
  intro file hfile
  refine dropByteOrderMark_of_length ?_
  exact eq_of_sum_eq (fun file _ => length_dropByteOrderMark_le file.path) hsum file hfile

def NamesPath (bytes : Bytes) (cursor : Nat) : Prop :=
  ∃ name, decodeUtf8 (centralHeaderAt bytes cursor).name = some name ∧ isEvidencePath name = true

theorem namesPath_of_readMember {bytes : Bytes} {centralOffset endOffset cursor next : Nat}
    {file : EvidenceZipInput}
    (h : readMember unicode bytes centralOffset endOffset cursor = .ok (file, next)) :
    NamesPath bytes cursor ∧ next = (centralEntryAt bytes cursor).next := by
  unfold readMember at h
  simp only [except_guard_eq_ok, except_bind_eq_ok] at h
  obtain ⟨_, _, _, _, _, _, _, _, name, hname, path, hpath, _, _, _, _, _, _, _, _, _, h⟩ := h
  obtain ⟨_, hnext⟩ := Prod.mk.inj (Except.ok.inj h)
  exact ⟨⟨name, decodeName_eq_ok hname, (validatePath_eq_ok hpath).1⟩, hnext.symm⟩

theorem namesPath_of_readMembers {bytes : Bytes} {centralOffset endOffset : Nat} :
    ∀ {count cursor last : Nat} {found : List EvidenceZipInput},
      readMembers unicode bytes centralOffset endOffset count cursor = .ok (found, last) →
        ∀ c ∈ directoryCursors bytes count cursor, NamesPath bytes c
  | 0, _, _, _, _ => fun _ hc => absurd hc List.not_mem_nil
  | count + 1, cursor, last, found, h => by
    simp only [readMembers, except_bind_eq_ok] at h
    obtain ⟨⟨file, next⟩, hmember, ⟨rest, last'⟩, hrest, _⟩ := h
    obtain ⟨hnames, rfl⟩ := namesPath_of_readMember hmember
    rw [directoryCursors]
    exact List.forall_mem_cons.mpr ⟨hnames, namesPath_of_readMembers hrest⟩

theorem namesPath_of_parse {bytes : Bytes} {found : List EvidenceZipInput}
    (h : parseEvidenceZip unicode bytes = .ok found) :
    ∀ c ∈ memberCursors bytes, NamesPath bytes c := by
  unfold parseEvidenceZip at h
  simp only [except_guard_eq_ok, except_bind_eq_ok] at h
  obtain ⟨_, endOffset, hend, _, _, _, _, ⟨members, cursor⟩, hmembers, _⟩ := h
  unfold memberCursors
  rw [hend]
  exact namesPath_of_readMembers hmembers

theorem isEvidencePath_of_directory {ordered : List EvidenceZipInput} (ha : Archivable ordered) :
    ∀ {post pre : List EvidenceZipInput}, ordered = pre ++ post →
      (∀ c ∈ directoryCursors (evidenceArchive ordered) post.length (directoryOffset ordered pre),
        NamesPath (evidenceArchive ordered) c) →
      ∀ file ∈ post, isEvidencePath (dropByteOrderMark file.path) = true
  | [], _, _, _ => fun _ hfile => absurd hfile List.not_mem_nil
  | file :: post, pre, h, hnames => by
    rw [List.length_cons, directoryCursors, centralEntryAt_archive ha h, List.forall_mem_cons]
      at hnames
    refine List.forall_mem_cons.mpr ⟨?_, isEvidencePath_of_directory ha
      (h.trans (by simp) : ordered = (pre ++ [file]) ++ post) hnames.2⟩
    obtain ⟨name, hname, hpath⟩ := hnames.1
    rw [centralHeaderAt, centralEntryAt_archive ha h] at hname
    have heq : dropByteOrderMark file.path = name :=
      Option.some.inj ((decodeUtf8_utf8 _).symm.trans hname)
    rw [heq]
    exact hpath

theorem isEvidencePath_of_parse_archive {ordered found : List EvidenceZipInput}
    (ha : Archivable ordered) (h : parseEvidenceZip unicode (evidenceArchive ordered) = .ok found) :
    ∀ file ∈ ordered, isEvidencePath (dropByteOrderMark file.path) = true := by
  have hnames := namesPath_of_parse h
  obtain ⟨_, _, hcount, _, hoffset, _⟩ := end_archive ha
  have hfirst : directoryOffset ordered [] = (localParts ordered).length := by
    simp [directoryOffset, centralParts]
  unfold memberCursors at hnames
  rw [findEndOfCentralDirectory_archive] at hnames
  dsimp only at hnames
  rw [hcount, hoffset, ← hfirst] at hnames
  have hall : ordered = [] ++ ordered := rfl
  exact isEvidencePath_of_directory ha hall hnames

/-! ## The order of the files -/

theorem exists_perm_of_normalized {sorted : List EvidenceZipInput}
    (h : sorted.Perm (normalizedFiles unicode files)) :
    ∃ files', files'.Perm files ∧ normalizedFiles unicode files' = sorted := by
  have hnormal : List.Forall₂ (fun new old => new = ({ old with
      path := unicode.normalize old.path } : EvidenceZipInput)) (normalizedFiles unicode files)
      files := by
    rw [normalizedFiles, List.forall₂_map_left_iff]
    exact List.forall₂_same.mpr fun _ _ => rfl
  obtain ⟨files', hfiles', hperm⟩ := List.perm_comp_forall₂ h hnormal
  refine ⟨files', hperm, ?_⟩
  rw [normalizedFiles]
  have heq : List.Forall₂ Eq sorted (files'.map fun old => ({ old with
      path := unicode.normalize old.path } : EvidenceZipInput)) :=
    List.forall₂_map_right_iff.mpr hfiles'
  rw [List.forall₂_eq_eq_eq] at heq
  exact heq.symm

theorem normalizedFiles_perm {files' : List EvidenceZipInput} (h : files'.Perm files) :
    (normalizedFiles unicode files').Perm (normalizedFiles unicode files) := h.map _

theorem orderedFiles_eq_iff (hcompares : Compares unicode) :
    (∀ files', files'.Perm files → orderedFiles unicode files' = orderedFiles unicode files) ↔
      ∀ a ∈ normalizedFiles unicode files, ∀ b ∈ normalizedFiles unicode files,
        unicode.localeLe a.path b.path = true → unicode.localeLe b.path a.path = true → a = b := by
  rw [← insertionSort_eq_iff (fun a b => hcompares.total a.path b.path)
    (fun a b c => hcompares.trans a.path b.path c.path) (normalizedFiles unicode files)]
  constructor
  · intro h sorted hsorted
    obtain ⟨files', hperm, rfl⟩ := exists_perm_of_normalized hsorted
    exact h files' hperm
  · exact fun h files' hperm => h _ (normalizedFiles_perm hperm)

theorem createEvidenceZip_perm {files' : List EvidenceZipInput} (hperm : files'.Perm files)
    (hordered : orderedFiles unicode files' = orderedFiles unicode files) :
    createEvidenceZip unicode files' = createEvidenceZip unicode files := by
  unfold createEvidenceZip
  rw [hperm.length_eq, hordered, hperm.all_eq]

/-! ## What is kept -/

theorem zipRoundTrips_of_pathsKept (hlimits : WithinLimits unicode files)
    (hnfc : NormalizesToNfc unicode) (hcompares : Compares unicode)
    (hidempotent : ∀ s, unicode.normalize (unicode.normalize s) = unicode.normalize s)
    (h : PathsKept unicode files) : ZipRoundTrips unicode files := by
  have harchivable := hlimits.archivable hnfc h.distinct
  refine ⟨⟨_, _, createEvidenceZip_eq hlimits h.distinct, parseEvidenceZip_archive harchivable
    (readsAs_of_pathsKept hidempotent h) (nodup_orderedFiles_iff.mpr h.distinct),
    orderedFiles_perm unicode files⟩, fun files' hperm => createEvidenceZip_perm hperm ?_⟩
  -- files that compare equal have one path, and there is one file of a path
  have hnodup : ((normalizedFiles unicode files).map (·.path)).Nodup := by
    rw [map_path_normalizedFiles]
    exact h.distinct
  refine (orderedFiles_eq_iff hcompares).mpr (fun a ha b hb hab hba => ?_) files' hperm
  refine List.inj_on_of_nodup_map hnodup ha hb ?_
  obtain ⟨given, hgiven, rfl⟩ := List.mem_map.mp ha
  obtain ⟨given', hgiven', rfl⟩ := List.mem_map.mp hb
  exact h.apart given hgiven given' hgiven' hab hba

theorem pathsKept_of_zipRoundTrips (hlimits : WithinLimits unicode files)
    (hnfc : NormalizesToNfc unicode) (hcompares : Compares unicode)
    (hidempotent : ∀ s, unicode.normalize (unicode.normalize s) = unicode.normalize s)
    (h : ZipRoundTrips unicode files) : PathsKept unicode files := by
  obtain ⟨zip, back, hzip, hparse, hback⟩ := h.reads
  obtain ⟨hnodup, _, rfl⟩ := createEvidenceZip_eq_ok hzip
  have hdistinct := nodup_orderedFiles_iff.mp hnodup
  have harchivable := hlimits.archivable hnfc hdistinct
  -- what is read back has lost the marks
  have hdropped := members_of_parse_archive harchivable hparse
  rw [hdropped] at hback
  have hunmarked := unmarked_of_perm (hback.trans (orderedFiles_perm unicode files).symm)
  have hpaths := isEvidencePath_of_parse_archive harchivable hparse
  have hmem : ∀ file ∈ files, { file with path := unicode.normalize file.path } ∈
      orderedFiles unicode files := fun file hfile => mem_orderedFiles.mpr ⟨file, hfile, rfl⟩
  have hreads : ∀ file ∈ orderedFiles unicode files, ReadsAs unicode file.path := by
    intro file hfile
    obtain ⟨given, _, rfl⟩ := mem_orderedFiles.mp hfile
    have hsafe := hpaths _ hfile
    rw [hunmarked _ hfile] at hsafe
    exact ⟨hsafe, hidempotent _, hunmarked _ hfile⟩
  refine ⟨hdistinct, fun file hfile => (hreads _ (hmem file hfile)).safe,
    fun file hfile => hunmarked _ (hmem file hfile), ?_⟩
  -- another order of the files has the same archive, which is read in its own order
  have hordered : ∀ files', files'.Perm files →
      orderedFiles unicode files' = orderedFiles unicode files := by
    intro files' hperm
    have hcreate := (h.deterministic files' hperm).trans hzip
    obtain ⟨hnodup', _, heq⟩ := createEvidenceZip_eq_ok hcreate
    have hsame : (orderedFiles unicode files').Perm (orderedFiles unicode files) :=
      (orderedFiles_perm unicode files').trans
        ((normalizedFiles_perm hperm).trans (orderedFiles_perm unicode files).symm)
    have hread := parseEvidenceZip_archive harchivable hreads hnodup
    have harchivable' := (archivable_of_createEvidenceZip hnfc hcreate).1
    have hread' := parseEvidenceZip_archive harchivable'
      (fun file hfile => hreads file (hsame.subset hfile)) hnodup'
    rw [← heq, hread] at hread'
    exact (Except.ok.inj hread').symm
  intro a ha b hb hab hba
  exact congrArg EvidenceZipInput.path ((orderedFiles_eq_iff hcompares).mp hordered
    { a with path := unicode.normalize a.path } (List.mem_map_of_mem ha)
    { b with path := unicode.normalize b.path } (List.mem_map_of_mem hb) hab hba)

end

/--
**Files within the limits are read back under the paths of NFC, from one archive for all orders,
exactly when their paths are kept.**
-/
theorem zipRoundTrips_iff (unicode : UnicodeTexts) (files : List EvidenceZipInput)
    (hnfc : NormalizesToNfc unicode)
    (hidempotent : ∀ s, unicode.normalize (unicode.normalize s) = unicode.normalize s)
    (hcompares : Compares unicode) (hlimits : WithinLimits unicode files) :
    ZipRoundTrips unicode files ↔ PathsKept unicode files :=
  ⟨pathsKept_of_zipRoundTrips hlimits hnfc hcompares hidempotent,
    zipRoundTrips_of_pathsKept hlimits hnfc hcompares hidempotent⟩

/-! ## A letter that the comparison does not see -/

namespace SoftHyphen

def seen (s : Text) : Text := s.filter (· ≠ '\u00AD')

def unicode : UnicodeTexts where
  normalize := id
  localeLe left right := decide (seen left ≤ seen right)
  isLetterOrNumber c := c.isAlphanum
  lowerCase := id

theorem normalizesToNfc : NormalizesToNfc unicode where
  ascii _ _ := rfl
  lines _ hs := hs
  expansion _ := Nat.le_mul_of_pos_left _ (by decide)

theorem compares : Compares unicode where
  total a b := (le_total (seen a) (seen b)).imp decide_eq_true decide_eq_true
  trans _ _ _ hab hbc := decide_eq_true (le_trans (of_decide_eq_true hab) (of_decide_eq_true hbc))

def files : List EvidenceZipInput := [⟨['a', 'b'], []⟩, ⟨['a', '\u00AD', 'b'], []⟩]

theorem withinLimits : WithinLimits unicode files where
  nonempty := List.cons_ne_nil _ _
  count := by decide
  bytes := by decide
  size := by decide +kernel
  paths := by decide +kernel

theorem withinLimits_single : WithinLimits unicode [⟨['a', 'b'], []⟩] where
  nonempty := List.cons_ne_nil _ _
  count := by decide
  bytes := by decide
  size := by decide +kernel
  paths := by decide +kernel

end SoftHyphen

theorem zipRoundTrips_single : ZipRoundTrips SoftHyphen.unicode [⟨['a', 'b'], []⟩] :=
  (zipRoundTrips_iff SoftHyphen.unicode _ SoftHyphen.normalizesToNfc (fun _ => rfl)
    SoftHyphen.compares SoftHyphen.withinLimits_single).mpr
    ⟨by decide, by decide +kernel, by decide, by decide⟩

/-- The two names are different, and the archive depends on which file comes first. -/
theorem softHyphen_order : ¬∀ (unicode : UnicodeTexts) (files : List EvidenceZipInput),
    NormalizesToNfc unicode → (∀ s, unicode.normalize (unicode.normalize s) = unicode.normalize s) →
      Compares unicode → WithinLimits unicode files → (files.map (·.path)).Nodup →
        ZipRoundTrips unicode files := by
  intro h
  have hround := h _ _ SoftHyphen.normalizesToNfc (fun _ => rfl) SoftHyphen.compares
    SoftHyphen.withinLimits (by decide)
  have hreversed := hround.deterministic SoftHyphen.files.reverse (List.reverse_perm _)
  exact absurd hreversed (by decide +kernel)

/-!
# What stands between the members of an accepted archive

The entries of the directory point to their members, and nothing compares where one member ends with
where another begins. An archive is accepted with bytes between its members, with one member inside
of another, and with extra fields and comments.
-/

open BufferReader

def endOffset? (bytes : Bytes) : Option Nat := (findEndOfCentralDirectory bytes).toOption

def centralOffsetOf (bytes : Bytes) : Nat :=
  ((endOffset? bytes).map fun endOffset => getUint32 bytes (endOffset + 16)).getD 0

def archiveCommentLength (bytes : Bytes) : Nat :=
  ((endOffset? bytes).map fun endOffset => getUint16 bytes (endOffset + 20)).getD 0

/-- The local header and the bytes of the member that the entry at the cursor points to. -/
def memberSpan (bytes : Bytes) (cursor : Nat) : Span where
  start := (centralEntryAt bytes cursor).localOffset
  stop := (localEntryAt bytes (centralEntryAt bytes cursor).localOffset).dataStart +
    (centralHeaderAt bytes cursor).compressedSize

def memberSpans (bytes : Bytes) : List Span := (memberCursors bytes).map (memberSpan bytes)

/-- The lengths of the extra field and the comment of an entry, and of the extra field of its member. -/
def extraLengths (bytes : Bytes) (cursor : Nat) : List Nat :=
  [getUint16 bytes (cursor + 30), getUint16 bytes (cursor + 32),
    getUint16 bytes ((centralEntryAt bytes cursor).localOffset + 28)]

structure Bare (bytes : Bytes) : Prop where
  comment : archiveCommentLength bytes = 0
  extra : ∀ cursor ∈ memberCursors bytes, ∀ length ∈ extraLengths bytes cursor, length = 0

instance (bytes : Bytes) : Decidable (Bare bytes) :=
  decidable_of_iff (archiveCommentLength bytes = 0 ∧
    ∀ cursor ∈ memberCursors bytes, ∀ length ∈ extraLengths bytes cursor, length = 0)
    ⟨fun h => ⟨h.1, h.2⟩, fun h => ⟨h.comment, h.extra⟩⟩

/-- Every byte before the directory is of one member, and no header holds anything else. -/
structure AccountedFor (unicode : UnicodeTexts) (bytes : Bytes) (files : List EvidenceZipInput) :
    Prop where
  members : List.Forall₂ (MemberAt unicode bytes) (memberCursors bytes) files
  tiled : Tiles 0 (centralOffsetOf bytes) (memberSpans bytes)
  bare : Bare bytes

/--
In the order of their offsets, the first member begins at the first byte, each other one where the
one before ends, and the last one ends at the directory.
-/
structure OneAfterAnother (bytes : Bytes) : Prop where
  chained : Chained 0 ((memberSpans bytes).insertionSort Span.startLe) (centralOffsetOf bytes)
  bare : Bare bytes

instance (bytes : Bytes) : Decidable (OneAfterAnother bytes) :=
  decidable_of_iff (Chained 0 ((memberSpans bytes).insertionSort Span.startLe)
    (centralOffsetOf bytes) ∧ Bare bytes)
    ⟨fun h => ⟨h.1, h.2⟩, fun h => ⟨h.chained, h.bare⟩⟩

theorem memberSpan_lt (bytes : Bytes) (cursor : Nat) :
    (memberSpan bytes cursor).start < (memberSpan bytes cursor).stop := by
  unfold memberSpan localEntryAt
  dsimp only
  omega

theorem tiles_memberSpans_iff (bytes : Bytes) :
    Tiles 0 (centralOffsetOf bytes) (memberSpans bytes) ↔
      Chained 0 ((memberSpans bytes).insertionSort Span.startLe) (centralOffsetOf bytes) :=
  tiles_iff_chained (Nat.zero_le _)
    (List.forall_mem_map.mpr fun cursor _ => memberSpan_lt bytes cursor)

/--
**Every read is inside the buffer and there are boundedly many of them; and an archive that is
accepted is accounted for exactly when its members follow one another.**
-/
theorem parse_accounts_iff (unicode : UnicodeTexts) (bytes : Bytes) :
    BufferReader.Keeps bytes (parseReads unicode) maxReads (parseEvidenceZip unicode bytes) ∧
      ∀ files, parseEvidenceZip unicode bytes = .ok files →
        (AccountedFor unicode bytes files ↔ OneAfterAnother bytes) := by
  refine ⟨keeps_parseReads unicode bytes, fun files h => ?_⟩
  have hmembers := (parseEvidenceZip_eq_ok h).1
  constructor
  · exact fun haccounted => ⟨(tiles_memberSpans_iff bytes).mp haccounted.tiled, haccounted.bare⟩
  · exact fun hfollow => ⟨hmembers, (tiles_memberSpans_iff bytes).mpr hfollow.chained, hfollow.bare⟩

/-! ## A byte that is of no member -/

def writtenArchive : Bytes := evidenceArchive [⟨['a'], []⟩]

theorem writtenArchive_accountedFor : AccountedFor acuteUnicode writtenArchive [⟨['a'], []⟩] :=
  ((parse_accounts_iff acuteUnicode writtenArchive).2 _ (by decide +kernel)).mpr (by decide +kernel)

def shiftedArchive : Bytes :=
  let file : EvidenceZipInput := ⟨['a'], []⟩
  0 :: (localParts [file] ++ (centralParts 1 [file] ++
    endOfCentralDirectory 1 (centralParts 1 [file]).length ((localParts [file]).length + 1)))

/-- It is accepted, and its first byte is of no member. -/
theorem shiftedArchive_unaccounted : ¬∀ (unicode : UnicodeTexts) (bytes : Bytes)
    (files : List EvidenceZipInput), parseEvidenceZip unicode bytes = .ok files →
      AccountedFor unicode bytes files := by
  intro h
  have hparse : parseEvidenceZip acuteUnicode shiftedArchive = .ok [⟨['a'], []⟩] := by
    decide +kernel
  have htiled := (h _ _ _ hparse).tiled
  have hspans : memberSpans shiftedArchive = [⟨1, 32⟩] := by decide +kernel
  have hdirectory : centralOffsetOf shiftedArchive = 32 := by decide +kernel
  rw [hspans, hdirectory] at htiled
  obtain ⟨s, hs, hcontains⟩ := (htiled.covers 0).mp (by decide)
  rw [List.mem_singleton.mp hs] at hcontains
  exact absurd hcontains.1 (by decide)

end Kommunsign
