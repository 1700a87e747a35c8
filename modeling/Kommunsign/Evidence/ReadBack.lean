import Kommunsign.Properties.EvidenceVerification

/-!
# Reading back what `createEvidenceZip` has written

* `centralEntryAt_centralHeader`, `localEntryAt_localHeader` — the headers, field by field
* `findEndOfCentralDirectory_archive` — the end of an archive is found
-/

namespace Kommunsign

open Infra

/-! ## The headers -/

section

theorem getUint16_append (front rest : Bytes) (offset : Nat) :
    getUint16 (front ++ rest) (front.length + offset) = getUint16 rest offset := by
  unfold getUint16
  rw [← List.drop_drop, List.drop_left]

theorem getUint32_append (front rest : Bytes) (offset : Nat) :
    getUint32 (front ++ rest) (front.length + offset) = getUint32 rest offset := by
  unfold getUint32
  rw [← List.drop_drop, List.drop_left]

theorem subarray_append (front rest : Bytes) (start length : Nat) :
    subarray (front ++ rest) (front.length + start) length = subarray rest start length := by
  unfold subarray
  rw [← List.drop_drop, List.drop_left]

theorem crc32_lt (bytes : Bytes) : crc32 bytes < 256 ^ 4 := UInt32.toNat_lt _

/-- What fits into the fields of a header. -/
structure EvidenceZipInput.Fits (file : EvidenceZipInput) : Prop where
  name : (utf8 file.path).length < 256 ^ 2
  bytes : file.bytes.length ≤ maxFileBytes

/-- What both headers say of a file. -/
def EvidenceZipInput.header (file : EvidenceZipInput) : MemberHeader where
  flags := 0x0800
  method := 0
  crc := crc32 file.bytes
  compressedSize := file.bytes.length
  uncompressedSize := file.bytes.length
  name := utf8 file.path

variable {file : EvidenceZipInput}

theorem EvidenceZipInput.Fits.size (hfits : file.Fits) : file.bytes.length < 256 ^ 4 :=
  Nat.lt_of_le_of_lt hfits.bytes (by decide)

theorem getUint16_eq {bytes : Bytes} {offset n : Nat} (h : (bytes.drop offset).take 2 = uint16 n)
    (hn : n < 256 ^ 2) : getUint16 bytes offset = n := by
  rw [getUint16, h, ofLittleEndian_of_lt hn]

theorem getUint32_eq {bytes : Bytes} {offset n : Nat} (h : (bytes.drop offset).take 4 = uint32 n)
    (hn : n < 256 ^ 4) : getUint32 bytes offset = n := by
  rw [getUint32, h, ofLittleEndian_of_lt hn]

theorem length_centralHeader (file : EvidenceZipInput) (offset : Nat) :
    (centralHeader file offset).length = 46 + (utf8 file.path).length := by
  simp only [centralHeader, List.length_append, length_littleEndian]

theorem getUint32_centralHeader (file : EvidenceZipInput) (offset : Nat) (rest : Bytes) :
    getUint32 (centralHeader file offset ++ rest) 0 = 0x02014b50 :=
  getUint32_eq (by simp [centralHeader, littleEndian]) (by decide)

theorem getUint32_localHeader (file : EvidenceZipInput) (rest : Bytes) :
    getUint32 (localHeader file ++ rest) 0 = 0x04034b50 :=
  getUint32_eq (by simp [localHeader, littleEndian]) (by decide)

theorem centralEntryAt_centralHeader (hfits : file.Fits) {offset : Nat} (hoffset : offset < 256 ^ 4)
    (rest : Bytes) : centralEntryAt (centralHeader file offset ++ rest) 0 =
      ⟨file.header, 0, offset, 46 + (utf8 file.path).length⟩ := by
  have hflags : getUint16 (centralHeader file offset ++ rest) 8 = 0x0800 :=
    getUint16_eq (by simp [centralHeader, littleEndian]) (by decide)
  have hmethod : getUint16 (centralHeader file offset ++ rest) 10 = 0 :=
    getUint16_eq (by simp [centralHeader, littleEndian]) (by decide)
  have hcrc : getUint32 (centralHeader file offset ++ rest) 16 = crc32 file.bytes :=
    getUint32_eq (by simp [centralHeader, littleEndian]) (crc32_lt _)
  have hcompressed : getUint32 (centralHeader file offset ++ rest) 20 = file.bytes.length :=
    getUint32_eq (by simp [centralHeader, littleEndian]) hfits.size
  have huncompressed : getUint32 (centralHeader file offset ++ rest) 24 = file.bytes.length :=
    getUint32_eq (by simp [centralHeader, littleEndian]) hfits.size
  have hname : getUint16 (centralHeader file offset ++ rest) 28 = (utf8 file.path).length :=
    getUint16_eq (by simp [centralHeader, littleEndian]) hfits.name
  have hextra : getUint16 (centralHeader file offset ++ rest) 30 = 0 :=
    getUint16_eq (by simp [centralHeader, littleEndian]) (by decide)
  have hcomment : getUint16 (centralHeader file offset ++ rest) 32 = 0 :=
    getUint16_eq (by simp [centralHeader, littleEndian]) (by decide)
  have hdisk : getUint16 (centralHeader file offset ++ rest) 34 = 0 :=
    getUint16_eq (by simp [centralHeader, littleEndian]) (by decide)
  have hplace : getUint32 (centralHeader file offset ++ rest) 42 = offset :=
    getUint32_eq (by simp [centralHeader, littleEndian]) hoffset
  have hpath : subarray (centralHeader file offset ++ rest) 46 (utf8 file.path).length =
    utf8 file.path := by simp [subarray, centralHeader, littleEndian]
  simp only [centralEntryAt, Nat.zero_add, hflags, hmethod, hcrc, hcompressed, huncompressed, hname,
    hextra, hcomment, hdisk, hplace, hpath, Nat.add_zero, EvidenceZipInput.header]

theorem localEntryAt_localHeader (hfits : file.Fits) (rest : Bytes) :
    localEntryAt (localHeader file ++ rest) 0 =
      ⟨file.header, 30 + (utf8 file.path).length⟩ := by
  have hflags : getUint16 (localHeader file ++ rest) 6 = 0x0800 :=
    getUint16_eq (by simp [localHeader, littleEndian]) (by decide)
  have hmethod : getUint16 (localHeader file ++ rest) 8 = 0 :=
    getUint16_eq (by simp [localHeader, littleEndian]) (by decide)
  have hcrc : getUint32 (localHeader file ++ rest) 14 = crc32 file.bytes :=
    getUint32_eq (by simp [localHeader, littleEndian]) (crc32_lt _)
  have hcompressed : getUint32 (localHeader file ++ rest) 18 = file.bytes.length :=
    getUint32_eq (by simp [localHeader, littleEndian]) hfits.size
  have huncompressed : getUint32 (localHeader file ++ rest) 22 = file.bytes.length :=
    getUint32_eq (by simp [localHeader, littleEndian]) hfits.size
  have hname : getUint16 (localHeader file ++ rest) 26 = (utf8 file.path).length :=
    getUint16_eq (by simp [localHeader, littleEndian]) hfits.name
  have hextra : getUint16 (localHeader file ++ rest) 28 = 0 :=
    getUint16_eq (by simp [localHeader, littleEndian]) (by decide)
  have hpath : subarray (localHeader file ++ rest) 30 (utf8 file.path).length =
    utf8 file.path := by simp [subarray, localHeader, littleEndian]
  simp only [localEntryAt, Nat.zero_add, hflags, hmethod, hcrc, hcompressed, huncompressed, hname,
    hextra, hpath, Nat.add_zero, EvidenceZipInput.header]

/-! ## Behind other bytes -/

theorem centralEntryAt_append (front rest : Bytes) :
    centralEntryAt (front ++ rest) front.length =
      { centralEntryAt rest 0 with next := front.length + (centralEntryAt rest 0).next } := by
  simp only [centralEntryAt, getUint16_append, getUint32_append, subarray_append, Nat.zero_add,
    Nat.add_assoc]

theorem localEntryAt_append (front rest : Bytes) :
    localEntryAt (front ++ rest) front.length =
      { localEntryAt rest 0 with dataStart := front.length + (localEntryAt rest 0).dataStart } := by
  simp only [localEntryAt, getUint16_append, getUint32_append, subarray_append, Nat.zero_add,
    Nat.add_assoc]

/-! ## In an archive -/

/-- What `createEvidenceZip` makes sure of. -/
structure Archivable (ordered : List EvidenceZipInput) : Prop where
  nonempty : ordered ≠ []
  count : ordered.length ≤ maxFileCount
  fits : ∀ file ∈ ordered, file.Fits
  size : (evidenceArchive ordered).length ≤ maxArchiveBytes

theorem localParts_append (pre post : List EvidenceZipInput) :
    localParts (pre ++ post) = localParts pre ++ localParts post := List.flatMap_append ..

theorem centralParts_append (offset : Nat) (pre post : List EvidenceZipInput) :
    centralParts offset (pre ++ post) =
      centralParts offset pre ++ centralParts (offset + (localParts pre).length) post := by
  induction pre generalizing offset with
  | nil => rfl
  | cons file pre ih =>
    have hlength : (localParts (file :: pre)).length =
        (localHeader file).length + file.bytes.length + (localParts pre).length := by
      simp [localParts, Nat.add_assoc]
    rw [List.cons_append, centralParts, centralParts, ih, List.append_assoc, hlength,
      ← Nat.add_assoc, ← Nat.add_assoc]

/-- Where the directory goes on behind some of its entries. -/
def directoryOffset (ordered pre : List EvidenceZipInput) : Nat :=
  (localParts ordered ++ centralParts 0 pre).length

theorem length_evidenceArchive (ordered : List EvidenceZipInput) :
    (evidenceArchive ordered).length = directoryOffset ordered ordered + 22 := by
  simp only [evidenceArchive, directoryOffset, endOfCentralDirectory, List.length_append,
    length_littleEndian]
  omega

variable {ordered pre post : List EvidenceZipInput}

theorem archive_eq_central (h : ordered = pre ++ file :: post) : ∃ rest,
    evidenceArchive ordered = (localParts ordered ++ centralParts 0 pre) ++
      (centralHeader file (localParts pre).length ++ rest) := by
  have hparts : centralParts 0 ordered = centralParts 0 pre ++
      (centralHeader file (localParts pre).length ++
        centralParts ((localParts pre).length + (localHeader file).length + file.bytes.length)
          post) := by
    rw [h, centralParts_append, Nat.zero_add, centralParts]
  unfold evidenceArchive
  rw [hparts]
  simp only [List.append_assoc]
  exact ⟨_, rfl⟩

theorem archive_eq_local (h : ordered = pre ++ file :: post) : ∃ rest,
    evidenceArchive ordered = localParts pre ++ (localHeader file ++ (file.bytes ++ rest)) := by
  have hparts : localParts ordered =
      localParts pre ++ (localHeader file ++ (file.bytes ++ localParts post)) := by
    rw [h, localParts_append]
    simp [localParts]
  unfold evidenceArchive
  nth_rewrite 1 [hparts]
  simp only [List.append_assoc]
  exact ⟨_, rfl⟩

theorem length_localParts_le (h : ordered = pre ++ post) :
    (localParts pre).length ≤ (localParts ordered).length := by
  rw [h, localParts_append, List.length_append]
  exact Nat.le_add_right _ _

theorem Archivable.localParts_lt (ha : Archivable ordered) :
    (localParts ordered).length < 256 ^ 4 := by
  have hsize := ha.size
  have hlarge : maxArchiveBytes < 256 ^ 4 := by decide
  rw [length_evidenceArchive, directoryOffset, List.length_append] at hsize
  omega

theorem getUint32_archive_central (h : ordered = pre ++ file :: post) :
    getUint32 (evidenceArchive ordered) (directoryOffset ordered pre) = 0x02014b50 := by
  obtain ⟨rest, heq⟩ := archive_eq_central h
  rw [heq, directoryOffset]
  exact (getUint32_append _ _ 0).trans (getUint32_centralHeader file _ rest)

theorem centralEntryAt_archive (ha : Archivable ordered) (h : ordered = pre ++ file :: post) :
    centralEntryAt (evidenceArchive ordered) (directoryOffset ordered pre) =
      ⟨file.header, 0, (localParts pre).length, directoryOffset ordered (pre ++ [file])⟩ := by
  have hfits : file.Fits := ha.fits file (by simp [h])
  have hoffset : (localParts pre).length < 256 ^ 4 :=
    Nat.lt_of_le_of_lt (length_localParts_le h) ha.localParts_lt
  have hnext : directoryOffset ordered pre + (46 + (utf8 file.path).length) =
      directoryOffset ordered (pre ++ [file]) := by
    simp only [directoryOffset, centralParts_append, centralParts, List.length_append,
      length_centralHeader, List.append_nil, Nat.zero_add]
    omega
  obtain ⟨rest, heq⟩ := archive_eq_central h
  rw [← hnext]
  unfold directoryOffset
  rw [heq, centralEntryAt_append, centralEntryAt_centralHeader hfits hoffset]

theorem getUint32_archive_local (h : ordered = pre ++ file :: post) :
    getUint32 (evidenceArchive ordered) (localParts pre).length = 0x04034b50 := by
  obtain ⟨rest, heq⟩ := archive_eq_local h
  rw [heq]
  exact (getUint32_append _ _ 0).trans (getUint32_localHeader file _)

theorem localEntryAt_archive (ha : Archivable ordered) (h : ordered = pre ++ file :: post) :
    localEntryAt (evidenceArchive ordered) (localParts pre).length =
      ⟨file.header, (localParts pre).length + (localHeader file).length⟩ := by
  have hfits : file.Fits := ha.fits file (by simp [h])
  obtain ⟨rest, heq⟩ := archive_eq_local h
  rw [heq, localEntryAt_append, localEntryAt_localHeader hfits, length_localHeader]

theorem subarray_archive (h : ordered = pre ++ file :: post) :
    subarray (evidenceArchive ordered) ((localParts pre).length + (localHeader file).length)
      file.bytes.length = file.bytes := by
  obtain ⟨rest, heq⟩ := archive_eq_local h
  rw [heq, subarray_append]
  have hstart := subarray_append (localHeader file) (file.bytes ++ rest) 0 file.bytes.length
  rw [Nat.add_zero] at hstart
  rw [hstart]
  simp [subarray]

/-! ## The end of the directory -/

theorem getUint32_archive_end (ordered : List EvidenceZipInput) :
    getUint32 (evidenceArchive ordered) (directoryOffset ordered ordered) = 0x06054b50 := by
  unfold evidenceArchive directoryOffset
  rw [← List.append_assoc]
  refine (getUint32_append _ _ 0).trans (getUint32_eq ?_ (by decide))
  simp [endOfCentralDirectory, littleEndian]

theorem findEndOfCentralDirectory_archive (ordered : List EvidenceZipInput) :
    findEndOfCentralDirectory (evidenceArchive ordered) = .ok (directoryOffset ordered ordered) := by
  have hlast : (evidenceArchive ordered).length - 22 = directoryOffset ordered ordered := by
    rw [length_evidenceArchive, Nat.add_sub_cancel]
  unfold findEndOfCentralDirectory
  dsimp only
  rw [hlast, List.range_succ_eq_map, List.find?_cons_of_pos]
  · rfl
  · rw [Nat.sub_zero, getUint32_archive_end]
    rfl

theorem end_archive (ha : Archivable ordered) :
    getUint16 (evidenceArchive ordered) (directoryOffset ordered ordered + 4) = 0 ∧
      getUint16 (evidenceArchive ordered) (directoryOffset ordered ordered + 6) = 0 ∧
      getUint16 (evidenceArchive ordered) (directoryOffset ordered ordered + 10) = ordered.length ∧
      getUint32 (evidenceArchive ordered) (directoryOffset ordered ordered + 12) =
        (centralParts 0 ordered).length ∧
      getUint32 (evidenceArchive ordered) (directoryOffset ordered ordered + 16) =
        (localParts ordered).length ∧
      getUint16 (evidenceArchive ordered) (directoryOffset ordered ordered + 20) = 0 := by
  have hcount : ordered.length < 256 ^ 2 := Nat.lt_of_le_of_lt ha.count (by decide)
  have hdirectory : (centralParts 0 ordered).length < 256 ^ 4 := by
    have hsize := ha.size
    have hlarge : maxArchiveBytes < 256 ^ 4 := by decide
    rw [length_evidenceArchive, directoryOffset, List.length_append] at hsize
    omega
  have hoffset := ha.localParts_lt
  unfold evidenceArchive directoryOffset
  rw [← List.append_assoc]
  simp only [getUint16_append, getUint32_append]
  refine ⟨getUint16_eq ?_ (by decide), getUint16_eq ?_ (by decide), getUint16_eq ?_ hcount,
    getUint32_eq ?_ hdirectory, getUint32_eq ?_ hoffset, getUint16_eq ?_ (by decide)⟩
  all_goals simp [endOfCentralDirectory, littleEndian]

/-! ## Its members -/

/-- A name that is read as it was written. -/
structure ReadsAs (unicode : UnicodeTexts) (path : Text) : Prop where
  safe : isEvidencePath path = true
  normal : unicode.normalize path = path
  unmarked : dropByteOrderMark path = path

theorem decodeName_utf8 {path : Text} (h : dropByteOrderMark path = path) :
    decodeName (utf8 path) = .ok path := by
  unfold decodeName
  rw [decodeUtf8_utf8, h]

variable {unicode : UnicodeTexts}

theorem readMember_archive (ha : Archivable ordered) (h : ordered = pre ++ file :: post)
    (hreads : ReadsAs unicode file.path) :
    readMember unicode (evidenceArchive ordered) (localParts ordered).length
      (directoryOffset ordered ordered) (directoryOffset ordered pre) =
      .ok (file, directoryOffset ordered (pre ++ [file])) := by
  have hlater : directoryOffset ordered (pre ++ [file]) ≤ directoryOffset ordered ordered := by
    have hparts : centralParts 0 ordered = centralParts 0 (pre ++ [file]) ++
        centralParts (0 + (localParts (pre ++ [file])).length) post := by
      rw [← centralParts_append, h, List.append_assoc]
      rfl
    simp only [directoryOffset, List.length_append] at hparts ⊢
    rw [hparts, List.length_append]
    omega
  have hentry : directoryOffset ordered pre + 46 ≤ directoryOffset ordered (pre ++ [file]) := by
    simp only [directoryOffset, centralParts_append, centralParts, List.length_append,
      length_centralHeader, List.append_nil]
    omega
  have hdata : (localParts pre).length + (localHeader file).length + file.bytes.length ≤
      (localParts ordered).length := by
    have hparts : (localParts ordered).length = (localParts (pre ++ [file])).length +
        (localParts post).length := by
      rw [← List.length_append, ← localParts_append, h, List.append_assoc]
      rfl
    have hlast : (localParts (pre ++ [file])).length =
        (localParts pre).length + ((localHeader file).length + file.bytes.length) := by
      simp [localParts]
    omega
  have hheader := length_localHeader file
  have hbytes := (ha.fits file (by simp [h])).bytes
  unfold readMember
  simp only [except_guard_eq_ok, except_bind_eq_ok, centralEntryAt_archive ha h,
    localEntryAt_archive ha h, getUint32_archive_central h, getUint32_archive_local h,
    EvidenceZipInput.header, subarray_archive h]
  refine ⟨by omega, by simp, by decide, by decide, by simp, by omega, by simp, by omega,
    file.path, decodeName_utf8 hreads.unmarked, file.path, ?_, by omega, by simp, by simp, by simp,
    file.path, decodeName_utf8 hreads.unmarked, by simp, by omega, by simp, rfl⟩
  unfold validatePath
  rw [if_pos hreads.safe, hreads.normal]

theorem readMembers_archive (ha : Archivable ordered)
    (hreads : ∀ file ∈ ordered, ReadsAs unicode file.path) :
    ∀ {post pre : List EvidenceZipInput}, ordered = pre ++ post →
      readMembers unicode (evidenceArchive ordered) (localParts ordered).length
        (directoryOffset ordered ordered) post.length (directoryOffset ordered pre) =
        .ok (post, directoryOffset ordered ordered)
  | [], pre, h => by
    rw [List.append_nil] at h
    rw [h]
    rfl
  | file :: post, pre, h => by
    have hmember := readMember_archive ha h (hreads file (by simp [h]))
    have hrest := readMembers_archive ha hreads (h.trans (by simp) : ordered = (pre ++ [file]) ++ post)
    rw [List.length_cons, readMembers]
    refine except_bind_eq_ok.mpr ⟨_, hmember, ?_⟩
    exact except_bind_eq_ok.mpr ⟨_, hrest, rfl⟩

theorem parseEvidenceZip_archive (ha : Archivable ordered)
    (hreads : ∀ file ∈ ordered, ReadsAs unicode file.path)
    (hunique : (ordered.map (·.path)).Nodup) :
    parseEvidenceZip unicode (evidenceArchive ordered) = .ok ordered := by
  obtain ⟨hdisk, hstart, hcount, hsize, hoffset, hcomment⟩ := end_archive ha
  have hall : ordered = [] ++ ordered := rfl
  have hmembers := readMembers_archive ha hreads hall
  have hfirst : directoryOffset ordered [] = (localParts ordered).length := by
    simp [directoryOffset, centralParts]
  rw [hfirst] at hmembers
  have hlength := length_evidenceArchive ordered
  have hlimit := ha.size
  have hdirectory : (localParts ordered).length + (centralParts 0 ordered).length =
      directoryOffset ordered ordered := by rw [directoryOffset, List.length_append]
  unfold parseEvidenceZip
  simp only [except_guard_eq_ok, except_bind_eq_ok]
  refine ⟨by omega, _, findEndOfCentralDirectory_archive ordered, ?_⟩
  rw [hdisk, hstart, hcount, hsize, hoffset, hcomment]
  refine ⟨by simp, ?_, by omega, by omega, _, hmembers, by simp, by simp [hunique], rfl⟩
  have hnonempty := List.length_pos_iff.mpr ha.nonempty
  have hmany := ha.count
  omega

theorem directoryCursors_archive (ha : Archivable ordered) :
    ∀ {post pre : List EvidenceZipInput} {files : List EvidenceZipInput}, ordered = pre ++ post →
      List.Forall₂ (MemberAt unicode (evidenceArchive ordered))
        (directoryCursors (evidenceArchive ordered) post.length (directoryOffset ordered pre)) files →
      files = post.map fun file => { file with path := dropByteOrderMark file.path }
  | [], pre, files, h, hfiles => by
    cases hfiles
    rfl
  | file :: post, pre, files, h, hfiles => by
    rw [List.length_cons, directoryCursors, centralEntryAt_archive ha h] at hfiles
    obtain ⟨member, files, hmember, hrest, rfl⟩ := List.forall₂_cons_left_iff.mp hfiles
    have hpath : member.path = dropByteOrderMark file.path := by
      have hname := hmember.localName
      rw [localHeaderAt, centralEntryAt_archive ha h, localEntryAt_archive ha h] at hname
      exact Option.some.inj (hname.symm.trans (decodeUtf8_utf8 _))
    have hbytes : member.bytes = file.bytes := by
      have hsize := hmember.size.1
      have hcontents := hmember.contents
      rw [centralHeaderAt, centralEntryAt_archive ha h] at hsize
      rw [centralEntryAt_archive ha h, localEntryAt_archive ha h, ← hsize] at hcontents
      exact hcontents.trans (subarray_archive h)
    rw [directoryCursors_archive ha (h.trans (by simp) : ordered = (pre ++ [file]) ++ post) hrest,
      List.map_cons]
    cases member
    subst hpath hbytes
    rfl

theorem members_of_parse_archive (ha : Archivable ordered) {files : List EvidenceZipInput}
    (h : parseEvidenceZip unicode (evidenceArchive ordered) = .ok files) :
    files = ordered.map fun file => { file with path := dropByteOrderMark file.path } := by
  obtain ⟨-, -, hcount, -, hoffset, -⟩ := end_archive ha
  obtain ⟨hmembers, -⟩ := parseEvidenceZip_eq_ok h
  have hfirst : directoryOffset ordered [] = (localParts ordered).length := by
    simp [directoryOffset, centralParts]
  have hcursors : memberCursors (evidenceArchive ordered) =
      directoryCursors (evidenceArchive ordered) ordered.length (directoryOffset ordered []) := by
    unfold memberCursors
    rw [findEndOfCentralDirectory_archive]
    dsimp only
    rw [hcount, hoffset, hfirst]
  rw [hcursors] at hmembers
  have hall : ordered = [] ++ ordered := rfl
  exact directoryCursors_archive ha hall hmembers

end

end Kommunsign
