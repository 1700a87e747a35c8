import Kommunsign.Evidence.Verify
import Kommunsign.Infra.BufferReader

/-!
# What `parseEvidenceZip` reads

The same function with each access to the buffer in it, in the order of the source. A comparison of
two fields reads both of them here, where the source leaves the second one out when the first one
differs.

* `readMemberReads`, `readMembersReads`, `findEndReads`, `parseReads` — the function with its reads
* `keeps_parseReads` — it has the result of `parseEvidenceZip`, and every read is inside the buffer
-/

namespace Kommunsign

open Infra BufferReader

abbrev ByteReader := BufferReader UInt8 Text

def uint16At (offset : Nat) : ByteReader Nat := field ofLittleEndian offset 2

def uint32At (offset : Nat) : ByteReader Nat := field ofLittleEndian offset 4

def readMemberReads (unicode : UnicodeTexts) (centralOffset endOffset cursor : Nat) :
    ByteReader (EvidenceZipInput × Nat) := do
  rejectIf (endOffset < cursor + 46) "EVIDENCE_ZIP_CENTRAL_ENTRY_TRUNCATED".toList
  let signature ← uint32At cursor
  rejectIf (signature ≠ 0x02014b50) "EVIDENCE_ZIP_CENTRAL_SIGNATURE_INVALID".toList
  let flags ← uint16At (cursor + 8)
  let method ← uint16At (cursor + 10)
  let expectedCrc ← uint32At (cursor + 16)
  let compressedSize ← uint32At (cursor + 20)
  let uncompressedSize ← uint32At (cursor + 24)
  let nameLength ← uint16At (cursor + 28)
  let extraLength ← uint16At (cursor + 30)
  let fileCommentLength ← uint16At (cursor + 32)
  let disk ← uint16At (cursor + 34)
  let localOffset ← uint32At (cursor + 42)
  rejectIf (flags &&& 0x0001 ≠ 0) "EVIDENCE_ZIP_ENCRYPTED_UNSUPPORTED".toList
  rejectIf (flags &&& 0x0008 ≠ 0) "EVIDENCE_ZIP_DATA_DESCRIPTOR_UNSUPPORTED".toList
  rejectIf (method ≠ 0 ∨ compressedSize ≠ uncompressedSize)
    "EVIDENCE_ZIP_COMPRESSION_UNSUPPORTED".toList
  rejectIf (maxFileBytes < uncompressedSize) "EVIDENCE_ZIP_FILE_TOO_LARGE".toList
  rejectIf (disk ≠ 0) "EVIDENCE_ZIP_MULTIDISK_UNSUPPORTED".toList
  let centralEnd := cursor + 46 + nameLength + extraLength + fileCommentLength
  rejectIf (endOffset < centralEnd) "EVIDENCE_ZIP_CENTRAL_ENTRY_TRUNCATED".toList
  let encoded ← BufferReader.subarray (cursor + 46) nameLength
  let name ← ofExcept (decodeName encoded)
  let path ← ofExcept (validatePath unicode name)
  rejectIf (centralOffset < localOffset + 30) "EVIDENCE_ZIP_LOCAL_ENTRY_INVALID".toList
  let localSignature ← uint32At localOffset
  rejectIf (localSignature ≠ 0x04034b50) "EVIDENCE_ZIP_LOCAL_SIGNATURE_INVALID".toList
  let localFlags ← uint16At (localOffset + 6)
  let localMethod ← uint16At (localOffset + 8)
  rejectIf (localFlags ≠ flags ∨ localMethod ≠ method) "EVIDENCE_ZIP_HEADER_MISMATCH".toList
  let localCrc ← uint32At (localOffset + 14)
  let localCompressedSize ← uint32At (localOffset + 18)
  let localUncompressedSize ← uint32At (localOffset + 22)
  rejectIf (localCrc ≠ expectedCrc ∨ localCompressedSize ≠ compressedSize ∨
    localUncompressedSize ≠ uncompressedSize) "EVIDENCE_ZIP_HEADER_MISMATCH".toList
  let localNameLength ← uint16At (localOffset + 26)
  let localExtraLength ← uint16At (localOffset + 28)
  let localEncoded ← BufferReader.subarray (localOffset + 30) localNameLength
  let localName ← ofExcept (decodeName localEncoded)
  rejectIf (localName ≠ path) "EVIDENCE_ZIP_NAME_MISMATCH".toList
  let dataStart := localOffset + 30 + localNameLength + localExtraLength
  rejectIf (centralOffset < dataStart + compressedSize) "EVIDENCE_ZIP_FILE_TRUNCATED".toList
  let fileBytes ← BufferReader.subarray dataStart compressedSize
  rejectIf (crc32 fileBytes ≠ expectedCrc) ("CRC mismatch: ".toList ++ path)
  return (⟨path, fileBytes⟩, centralEnd)

def readMembersReads (unicode : UnicodeTexts) (centralOffset endOffset : Nat) :
    Nat → Nat → ByteReader (List EvidenceZipInput × Nat)
  | 0, cursor => pure ([], cursor)
  | count + 1, cursor => do
    let (file, next) ← readMemberReads unicode centralOffset endOffset cursor
    let (files, last) ← readMembersReads unicode centralOffset endOffset count next
    return (file :: files, last)

/-- So many places, from the offset down. -/
def findEndReads : Nat → Nat → ByteReader Nat
  | 0, _ => fail "EVIDENCE_ZIP_END_NOT_FOUND".toList
  | places + 1, offset => do
    let signature ← uint32At offset
    if signature = 0x06054b50 then return offset else findEndReads places (offset - 1)

def parseReads (unicode : UnicodeTexts) : ByteReader (List EvidenceZipInput) := do
  let length ← byteLength
  rejectIf (length < 22 ∨ maxArchiveBytes < length) "EVIDENCE_ZIP_SIZE_INVALID".toList
  let endOffset ← findEndReads (min (length - 22) 65535 + 1) (length - 22)
  let disk ← uint16At (endOffset + 4)
  let startDisk ← uint16At (endOffset + 6)
  rejectIf (disk ≠ 0 ∨ startDisk ≠ 0) "EVIDENCE_ZIP_MULTIDISK_UNSUPPORTED".toList
  let entryCount ← uint16At (endOffset + 10)
  let centralSize ← uint32At (endOffset + 12)
  let centralOffset ← uint32At (endOffset + 16)
  let commentLength ← uint16At (endOffset + 20)
  rejectIf (entryCount = 0 ∨ maxFileCount < entryCount) "EVIDENCE_ZIP_FILE_COUNT_INVALID".toList
  rejectIf (endOffset + 22 + commentLength ≠ length) "EVIDENCE_ZIP_TRAILING_DATA".toList
  rejectIf (centralOffset + centralSize ≠ endOffset) "EVIDENCE_ZIP_CENTRAL_DIRECTORY_INVALID".toList
  let (files, cursor) ← readMembersReads unicode centralOffset endOffset entryCount centralOffset
  rejectIf (cursor ≠ endOffset) "EVIDENCE_ZIP_CENTRAL_DIRECTORY_INVALID".toList
  rejectIf (¬(files.map (·.path)).Nodup) "EVIDENCE_ZIP_DUPLICATE_PATH".toList
  return files

/-- The reads of the search for the end, of the end itself, and of so many members. -/
def maxReads : Nat := 65536 + (6 + 22 * maxFileCount)

section

variable {unicode : UnicodeTexts} {bytes : Bytes}

theorem keeps_uint16At {offset count : Nat} {α : Type} {x : Except Text α}
    (hinside : offset + 2 ≤ bytes.length) {f : Nat → ByteReader α}
    (h : BufferReader.Keeps bytes (f (getUint16 bytes offset)) count x) :
    BufferReader.Keeps bytes (uint16At offset >>= f) (count + 1) x := keeps_field hinside h

theorem keeps_uint32At {offset count : Nat} {α : Type} {x : Except Text α}
    (hinside : offset + 4 ≤ bytes.length) {f : Nat → ByteReader α}
    (h : BufferReader.Keeps bytes (f (getUint32 bytes offset)) count x) :
    BufferReader.Keeps bytes (uint32At offset >>= f) (count + 1) x := keeps_field hinside h

theorem keeps_readMemberReads {centralOffset endOffset cursor : Nat}
    (hcentral : centralOffset ≤ endOffset) (hend : endOffset ≤ bytes.length) :
    BufferReader.Keeps bytes (readMemberReads unicode centralOffset endOffset cursor) 22
      (readMember unicode bytes centralOffset endOffset cursor) := by
  unfold readMemberReads readMember
  refine keeps_rejectIf fun hentry => ?_
  refine keeps_uint32At (by omega) ?_
  refine keeps_rejectIf fun _ => ?_
  -- the fields of the entry lie in its 46 bytes
  refine keeps_uint16At (by omega) ?_
  refine keeps_uint16At (by omega) ?_
  refine keeps_uint32At (by omega) ?_
  refine keeps_uint32At (by omega) ?_
  refine keeps_uint32At (by omega) ?_
  refine keeps_uint16At (by omega) ?_
  refine keeps_uint16At (by omega) ?_
  refine keeps_uint16At (by omega) ?_
  refine keeps_uint16At (by omega) ?_
  refine keeps_uint32At (by omega) ?_
  refine keeps_rejectIf fun _ => ?_
  refine keeps_rejectIf fun _ => ?_
  refine keeps_rejectIf fun _ => ?_
  refine keeps_rejectIf fun _ => ?_
  refine keeps_rejectIf fun _ => ?_
  refine keeps_rejectIf fun _ => ?_
  refine keeps_subarray ?_
  refine keeps_ofExcept fun name _ => ?_
  refine keeps_ofExcept fun path _ => ?_
  refine keeps_rejectIf fun hlocal => ?_
  -- and those of the local header in its 30
  have hoffset : getUint32 bytes (cursor + 42) + 30 ≤ bytes.length := by
    have hle : getUint32 bytes (cursor + 42) + 30 ≤ centralOffset := Nat.not_lt.mp hlocal
    omega
  refine keeps_uint32At (by omega) ?_
  refine keeps_rejectIf fun _ => ?_
  refine keeps_uint16At (by omega) ?_
  refine keeps_uint16At (by omega) ?_
  refine keeps_rejectIf fun _ => ?_
  refine keeps_uint32At (by omega) ?_
  refine keeps_uint32At (by omega) ?_
  refine keeps_uint32At (by omega) ?_
  refine keeps_rejectIf fun _ => ?_
  refine keeps_uint16At (by omega) ?_
  refine keeps_uint16At (by omega) ?_
  refine keeps_subarray ?_
  refine keeps_ofExcept fun localName _ => ?_
  refine keeps_rejectIf fun _ => ?_
  refine keeps_rejectIf fun _ => ?_
  refine keeps_subarray ?_
  refine keeps_rejectIf fun _ => ?_
  exact keeps_pure _

theorem keeps_readMembersReads {centralOffset endOffset : Nat} (hcentral : centralOffset ≤ endOffset)
    (hend : endOffset ≤ bytes.length) (count cursor : Nat) :
    BufferReader.Keeps bytes (readMembersReads unicode centralOffset endOffset count cursor)
      (22 * count) (readMembers unicode bytes centralOffset endOffset count cursor) := by
  induction count generalizing cursor with
  | zero => exact keeps_pure _
  | succ count ih =>
    rw [readMembersReads, readMembers]
    refine (keeps_readMemberReads hcentral hend).bind_le (k := 22 * count) ?_ (by omega)
    rintro ⟨file, next⟩ _
    refine (ih next).bind_le (k := 0) ?_ (Nat.le_refl _)
    rintro ⟨files, last⟩ _
    exact keeps_pure _

theorem keeps_findEndReads (places offset : Nat) (hinside : offset + 4 ≤ bytes.length) :
    BufferReader.Keeps bytes (findEndReads places offset) places
      (match (List.range places).find? fun back =>
          getUint32 bytes (offset - back) == 0x06054b50 with
      | some back => .ok (offset - back)
      | none => .error "EVIDENCE_ZIP_END_NOT_FOUND".toList) := by
  induction places generalizing offset with
  | zero => exact keeps_fail _
  | succ places ih =>
    rw [findEndReads, List.range_succ_eq_map, List.find?_cons, Nat.sub_zero]
    refine keeps_uint32At hinside ?_
    by_cases hfound : getUint32 bytes offset = 0x06054b50
    · rw [if_pos hfound, hfound]
      exact (keeps_pure offset).mono (Nat.zero_le _)
    · have hnot : (getUint32 bytes offset == 0x06054b50) = false := beq_false_of_ne hfound
      rw [if_neg hfound, hnot, List.find?_map]
      have hrest := ih (offset - 1) (by omega)
      have hback : ((fun back => getUint32 bytes (offset - back) == 0x06054b50) ∘ Nat.succ) =
          fun back => getUint32 bytes (offset - 1 - back) == 0x06054b50 := by
        funext back
        rw [Function.comp_apply, Nat.succ_eq_add_one, Nat.sub_add_eq, Nat.sub_right_comm]
      rw [hback]
      cases hfind : (List.range places).find? fun back =>
          getUint32 bytes (offset - 1 - back) == 0x06054b50 with
      | none =>
        rw [hfind] at hrest
        exact hrest
      | some back =>
        rw [hfind] at hrest
        have hplace : offset - 1 - back = offset - (back + 1) := by omega
        dsimp only [Option.map_some] at hrest ⊢
        rw [hplace] at hrest
        exact hrest

theorem findEndOfCentralDirectory_le {endOffset : Nat}
    (h : findEndOfCentralDirectory bytes = .ok endOffset) : endOffset ≤ bytes.length - 22 := by
  unfold findEndOfCentralDirectory at h
  dsimp only at h
  split at h
  · cases h
    exact Nat.sub_le _ _
  · exact nomatch h

/-- **The function never reads outside of the buffer, and makes a bounded number of reads.** -/
theorem keeps_parseReads (unicode : UnicodeTexts) (bytes : Bytes) :
    BufferReader.Keeps bytes (parseReads unicode) maxReads (parseEvidenceZip unicode bytes) := by
  unfold parseReads parseEvidenceZip
  refine keeps_byteLength ?_
  refine keeps_rejectIf fun hsize => ?_
  rw [not_or, Nat.not_lt] at hsize
  have hplaces : min (bytes.length - 22) 65535 + 1 ≤ 65536 := by omega
  have hfind : BufferReader.Keeps bytes
      (findEndReads (min (bytes.length - 22) 65535 + 1) (bytes.length - 22))
      65536 (findEndOfCentralDirectory bytes) :=
    (keeps_findEndReads _ _ (by omega)).mono hplaces
  refine hfind.bind_le (k := 22 * maxFileCount + 6) (fun endOffset hend => ?_) (by
    unfold maxReads
    omega)
  have hle := findEndOfCentralDirectory_le hend
  refine keeps_uint16At (by omega) ?_
  refine keeps_uint16At (by omega) ?_
  refine keeps_rejectIf fun _ => ?_
  refine keeps_uint16At (by omega) ?_
  refine keeps_uint32At (by omega) ?_
  refine keeps_uint32At (by omega) ?_
  refine keeps_uint16At (by omega) ?_
  refine keeps_rejectIf fun hcount => ?_
  refine keeps_rejectIf fun _ => ?_
  refine keeps_rejectIf fun hdirectory => ?_
  rw [not_or, Nat.not_lt] at hcount
  rw [not_not] at hdirectory
  have hmembers : BufferReader.Keeps bytes
      (readMembersReads unicode (getUint32 bytes (endOffset + 16)) endOffset
      (getUint16 bytes (endOffset + 10)) (getUint32 bytes (endOffset + 16))) _ _ :=
    keeps_readMembersReads (by omega) (by omega) _ _
  refine hmembers.bind_le (k := 0) ?_ (by omega)
  rintro ⟨files, cursor⟩ _
  refine keeps_rejectIf fun _ => ?_
  refine keeps_rejectIf fun _ => ?_
  exact keeps_pure files

end

end Kommunsign
