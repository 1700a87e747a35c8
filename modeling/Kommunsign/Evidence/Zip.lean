import Mathlib.Data.List.Sort
import Kommunsign.Infra.Bytes
import Kommunsign.Storage.Put

/-!
# `createEvidenceZip`

A ZIP archive of stored files: for each a local header and its bytes, then a directory of the same
headers, then the end of the directory.

* `isEvidencePath` — the paths that an archive may hold
* `createEvidenceZip` — the archive, or why there is none
-/

namespace Kommunsign

open Infra

/-- What the language knows of Unicode. -/
structure UnicodeTexts where
  /-- `String.prototype.normalize('NFC')` -/
  normalize : Text → Text
  /-- `left.localeCompare(right, 'en') <= 0` -/
  localeLe : Text → Text → Bool
  /-- `/[\p{L}\p{N}]/u` -/
  isLetterOrNumber : Char → Bool
  /-- `String.prototype.toLowerCase`, of texts that are not ASCII. -/
  lowerCase : Text → Text

inductive EvidenceZipError where
  | EVIDENCE_ZIP_FILE_COUNT_INVALID
  | EVIDENCE_ZIP_PATH_INVALID
  | EVIDENCE_ZIP_DUPLICATE_PATH
  | EVIDENCE_ZIP_FILE_TOO_LARGE
  | EVIDENCE_ZIP_TOO_LARGE
  deriving DecidableEq

structure EvidenceZipInput where
  path : Text
  bytes : Bytes
  deriving DecidableEq

def maxArchiveBytes : Nat := 250 * 1024 * 1024
def maxFileCount : Nat := 2000
def maxFileBytes : Nat := 100 * 1024 * 1024

/-! ## Paths -/

/-- The lengths of texts count UTF-16 units. -/
def isEvidencePath (input : Text) : Bool :=
  input != [] && (Json.utf16 input).length ≤ 512 && input.head? != some '/' &&
    input.getLast? != some '/' && !input.contains '\\' && !input.contains '\x00' &&
    (input.splitOn '/').all fun segment =>
      segment != [] && segment != ".".toList && segment != "..".toList

/-! ## Headers -/

/-- `crc32` -/
def crc32 (bytes : Bytes) : Nat :=
  let round (crc : UInt32) : UInt32 :=
    (crc >>> 1) ^^^ (if crc &&& 1 = 1 then 0xedb88320 else 0)
  let crc := bytes.foldl (fun crc byte =>
    round (round (round (round (round (round (round (round (crc ^^^ byte.toUInt32))))))))) 0xffffffff
  (crc ^^^ 0xffffffff).toNat

abbrev uint16 : Nat → Bytes := littleEndian 2
abbrev uint32 : Nat → Bytes := littleEndian 4

/-- Version 2.0, UTF-8 names, stored, 1980-01-01. -/
def localHeader (file : EvidenceZipInput) : Bytes :=
  uint32 0x04034b50 ++ uint16 20 ++ uint16 0x0800 ++ uint16 0 ++ uint16 0x0000 ++ uint16 0x0021 ++
    uint32 (crc32 file.bytes) ++ uint32 file.bytes.length ++ uint32 file.bytes.length ++
    uint16 (utf8 file.path).length ++ uint16 0 ++ utf8 file.path

def centralHeader (file : EvidenceZipInput) (offset : Nat) : Bytes :=
  uint32 0x02014b50 ++ uint16 0x0314 ++ uint16 20 ++ uint16 0x0800 ++ uint16 0 ++ uint16 0x0000 ++
    uint16 0x0021 ++ uint32 (crc32 file.bytes) ++ uint32 file.bytes.length ++
    uint32 file.bytes.length ++ uint16 (utf8 file.path).length ++ uint16 0 ++ uint16 0 ++
    uint16 0 ++ uint16 0 ++ uint32 (0o100644 * 2 ^ 16) ++ uint32 offset ++ utf8 file.path

def localParts (files : List EvidenceZipInput) : Bytes :=
  files.flatMap fun file => localHeader file ++ file.bytes

/-- The directory, for files of which the first begins at the offset. -/
def centralParts : Nat → List EvidenceZipInput → Bytes
  | _, [] => []
  | offset, file :: files =>
    centralHeader file offset ++
      centralParts (offset + (localHeader file).length + file.bytes.length) files

def endOfCentralDirectory (count size offset : Nat) : Bytes :=
  uint32 0x06054b50 ++ uint16 0 ++ uint16 0 ++ uint16 count ++ uint16 count ++ uint32 size ++
    uint32 offset ++ uint16 0

def evidenceArchive (ordered : List EvidenceZipInput) : Bytes :=
  localParts ordered ++ (centralParts 0 ordered ++
    endOfCentralDirectory ordered.length (centralParts 0 ordered).length (localParts ordered).length)

/-- The validated files in the order of their paths. -/
def orderedFiles (unicode : UnicodeTexts) (files : List EvidenceZipInput) :
    List EvidenceZipInput :=
  (files.map fun file => { file with path := unicode.normalize file.path }).insertionSort
    fun left right => unicode.localeLe left.path right.path

def createEvidenceZip (unicode : UnicodeTexts) (files : List EvidenceZipInput) :
    Except EvidenceZipError Bytes :=
  if files.length = 0 ∨ maxFileCount < files.length then
    .error .EVIDENCE_ZIP_FILE_COUNT_INVALID
  else if !files.all (isEvidencePath ·.path) then .error .EVIDENCE_ZIP_PATH_INVALID
  else
    let ordered := orderedFiles unicode files
    if ¬(ordered.map (·.path)).Nodup then .error .EVIDENCE_ZIP_DUPLICATE_PATH
    else if ordered.any fun file => maxFileBytes < file.bytes.length then
      .error .EVIDENCE_ZIP_FILE_TOO_LARGE
    else if maxArchiveBytes < (evidenceArchive ordered).length then .error .EVIDENCE_ZIP_TOO_LARGE
    else .ok (evidenceArchive ordered)

/-! ## What an archive determines -/

theorem length_localHeader (file : EvidenceZipInput) :
    (localHeader file).length = 30 + (utf8 file.path).length := by
  simp only [localHeader, List.length_append, length_littleEndian]

theorem createEvidenceZip_eq_ok {unicode : UnicodeTexts} {files : List EvidenceZipInput}
    {zip : Bytes} (h : createEvidenceZip unicode files = .ok zip) :
    ((orderedFiles unicode files).map (·.path)).Nodup ∧
      (∀ file ∈ orderedFiles unicode files, file.bytes.length ≤ maxFileBytes) ∧
      zip = evidenceArchive (orderedFiles unicode files) := by
  unfold createEvidenceZip at h
  split at h
  · cases h
  split at h
  · cases h
  dsimp only at h
  split at h
  · cases h
  rename_i hnodup
  split at h
  · cases h
  rename_i hsizes
  split at h
  · cases h
  obtain rfl := Except.ok.inj h
  refine ⟨not_not.mp hnodup, fun file hfile => ?_, rfl⟩
  by_contra hlarge
  exact hsizes (List.any_eq_true.mpr ⟨file, hfile, by simpa using hlarge⟩)

theorem map_path_orderedFiles (unicode : UnicodeTexts) (files : List EvidenceZipInput) :
    (orderedFiles unicode files).map (·.path) =
      ((files.map (·.path)).map unicode.normalize).insertionSort
        fun left right => unicode.localeLe left right := by
  refine (List.map_insertionSort _ (fun left right => unicode.localeLe left right) _ _ ?_).trans ?_
  · intro left _ right _
    exact Iff.rfl
  · rw [List.map_map, List.map_map]
    rfl

end Kommunsign
