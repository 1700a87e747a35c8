import Kommunsign.Evidence.Package

/-!
# `verifyEvidenceZip`

The archive is read from its end: the end of the directory, the directory, and for each entry of it
the header and the bytes of a member. What the members say of each other is then compared.

* `CentralEntry`, `LocalEntry` — the two headers of a member
* `readMember`, `readMembers`, `parseEvidenceZip` — the members of an archive
-/

namespace Kommunsign

open Infra

/-! ## The headers -/

def getUint16 (bytes : Bytes) (offset : Nat) : Nat := ofLittleEndian ((bytes.drop offset).take 2)

def getUint32 (bytes : Bytes) (offset : Nat) : Nat := ofLittleEndian ((bytes.drop offset).take 4)

def subarray (bytes : Bytes) (start length : Nat) : Bytes := (bytes.drop start).take length

/-- What both headers say of a member. -/
structure MemberHeader where
  flags : Nat
  method : Nat
  crc : Nat
  compressedSize : Nat
  uncompressedSize : Nat
  name : Bytes
  deriving DecidableEq

structure CentralEntry where
  header : MemberHeader
  disk : Nat
  localOffset : Nat
  /-- `centralEnd` -/
  next : Nat

def centralEntryAt (bytes : Bytes) (cursor : Nat) : CentralEntry :=
  let nameLength := getUint16 bytes (cursor + 28)
  { header := {
      flags := getUint16 bytes (cursor + 8)
      method := getUint16 bytes (cursor + 10)
      crc := getUint32 bytes (cursor + 16)
      compressedSize := getUint32 bytes (cursor + 20)
      uncompressedSize := getUint32 bytes (cursor + 24)
      name := subarray bytes (cursor + 46) nameLength }
    disk := getUint16 bytes (cursor + 34)
    localOffset := getUint32 bytes (cursor + 42)
    next := cursor + 46 + nameLength + getUint16 bytes (cursor + 30) +
      getUint16 bytes (cursor + 32) }

structure LocalEntry where
  header : MemberHeader
  dataStart : Nat

def localEntryAt (bytes : Bytes) (offset : Nat) : LocalEntry :=
  let nameLength := getUint16 bytes (offset + 26)
  { header := {
      flags := getUint16 bytes (offset + 6)
      method := getUint16 bytes (offset + 8)
      crc := getUint32 bytes (offset + 14)
      compressedSize := getUint32 bytes (offset + 18)
      uncompressedSize := getUint32 bytes (offset + 22)
      name := subarray bytes (offset + 30) nameLength }
    dataStart := offset + 30 + nameLength + getUint16 bytes (offset + 28) }

/-! ## The members -/

def validatePath (unicode : UnicodeTexts) (input : Text) : Except Text Text :=
  if isEvidencePath input then .ok (unicode.normalize input)
  else .error "EVIDENCE_ZIP_PATH_INVALID".toList

/-- A name, or the error of the decoder. -/
def decodeName (name : Bytes) : Except Text Text :=
  match decodeUtf8 name with
  | some text => .ok text
  | none => .error "The encoded data was not valid for encoding utf-8".toList

/-- The member of the entry at the cursor, and where the next entry begins. -/
def readMember (unicode : UnicodeTexts) (bytes : Bytes) (centralOffset endOffset cursor : Nat) :
    Except Text (EvidenceZipInput × Nat) := do
  if endOffset < cursor + 46 then throw "EVIDENCE_ZIP_CENTRAL_ENTRY_TRUNCATED".toList
  if getUint32 bytes cursor ≠ 0x02014b50 then throw "EVIDENCE_ZIP_CENTRAL_SIGNATURE_INVALID".toList
  let entry := centralEntryAt bytes cursor
  let header := entry.header
  if header.flags &&& 0x0001 ≠ 0 then throw "EVIDENCE_ZIP_ENCRYPTED_UNSUPPORTED".toList
  if header.flags &&& 0x0008 ≠ 0 then throw "EVIDENCE_ZIP_DATA_DESCRIPTOR_UNSUPPORTED".toList
  if header.method ≠ 0 ∨ header.compressedSize ≠ header.uncompressedSize then
    throw "EVIDENCE_ZIP_COMPRESSION_UNSUPPORTED".toList
  if maxFileBytes < header.uncompressedSize then throw "EVIDENCE_ZIP_FILE_TOO_LARGE".toList
  if entry.disk ≠ 0 then throw "EVIDENCE_ZIP_MULTIDISK_UNSUPPORTED".toList
  if endOffset < entry.next then throw "EVIDENCE_ZIP_CENTRAL_ENTRY_TRUNCATED".toList
  let name ← decodeName header.name
  let path ← validatePath unicode name
  if centralOffset < entry.localOffset + 30 then throw "EVIDENCE_ZIP_LOCAL_ENTRY_INVALID".toList
  if getUint32 bytes entry.localOffset ≠ 0x04034b50 then
    throw "EVIDENCE_ZIP_LOCAL_SIGNATURE_INVALID".toList
  let stored := localEntryAt bytes entry.localOffset
  if stored.header.flags ≠ header.flags ∨ stored.header.method ≠ header.method then
    throw "EVIDENCE_ZIP_HEADER_MISMATCH".toList
  if stored.header.crc ≠ header.crc ∨ stored.header.compressedSize ≠ header.compressedSize ∨
      stored.header.uncompressedSize ≠ header.uncompressedSize then
    throw "EVIDENCE_ZIP_HEADER_MISMATCH".toList
  let localName ← decodeName stored.header.name
  if localName ≠ path then throw "EVIDENCE_ZIP_NAME_MISMATCH".toList
  if centralOffset < stored.dataStart + header.compressedSize then
    throw "EVIDENCE_ZIP_FILE_TRUNCATED".toList
  let fileBytes := subarray bytes stored.dataStart header.compressedSize
  if crc32 fileBytes ≠ header.crc then throw ("CRC mismatch: ".toList ++ path)
  return (⟨path, fileBytes⟩, entry.next)

/-- As many members as the directory has entries, and where it ends. -/
def readMembers (unicode : UnicodeTexts) (bytes : Bytes) (centralOffset endOffset : Nat) :
    Nat → Nat → Except Text (List EvidenceZipInput × Nat)
  | 0, cursor => .ok ([], cursor)
  | count + 1, cursor => do
    let (file, next) ← readMember unicode bytes centralOffset endOffset cursor
    let (files, last) ← readMembers unicode bytes centralOffset endOffset count next
    return (file :: files, last)

/-- The last place of the signature, no further from the end than a comment is long. -/
def findEndOfCentralDirectory (bytes : Bytes) : Except Text Nat :=
  let last := bytes.length - 22
  match (List.range (min last 65535 + 1)).find? fun back =>
      getUint32 bytes (last - back) == 0x06054b50 with
  | some back => .ok (last - back)
  | none => .error "EVIDENCE_ZIP_END_NOT_FOUND".toList

def parseEvidenceZip (unicode : UnicodeTexts) (bytes : Bytes) :
    Except Text (List EvidenceZipInput) := do
  if bytes.length < 22 ∨ maxArchiveBytes < bytes.length then
    throw "EVIDENCE_ZIP_SIZE_INVALID".toList
  let endOffset ← findEndOfCentralDirectory bytes
  if getUint16 bytes (endOffset + 4) ≠ 0 ∨ getUint16 bytes (endOffset + 6) ≠ 0 then
    throw "EVIDENCE_ZIP_MULTIDISK_UNSUPPORTED".toList
  let entryCount := getUint16 bytes (endOffset + 10)
  let centralSize := getUint32 bytes (endOffset + 12)
  let centralOffset := getUint32 bytes (endOffset + 16)
  let commentLength := getUint16 bytes (endOffset + 20)
  if entryCount = 0 ∨ maxFileCount < entryCount then
    throw "EVIDENCE_ZIP_FILE_COUNT_INVALID".toList
  if endOffset + 22 + commentLength ≠ bytes.length then throw "EVIDENCE_ZIP_TRAILING_DATA".toList
  if centralOffset + centralSize ≠ endOffset then
    throw "EVIDENCE_ZIP_CENTRAL_DIRECTORY_INVALID".toList
  let (files, cursor) ←
    readMembers unicode bytes centralOffset endOffset entryCount centralOffset
  if cursor ≠ endOffset then throw "EVIDENCE_ZIP_CENTRAL_DIRECTORY_INVALID".toList
  if ¬(files.map (·.path)).Nodup then throw "EVIDENCE_ZIP_DUPLICATE_PATH".toList
  return files

/-! ## The manifest -/

/-- An entry as it has been read; the digest is a value that is written like one. -/
structure ReadEntry where
  path : Text
  sha256 : Json
  bytes : Int
  mediaType : Text
  deriving DecidableEq

structure ReadManifest where
  createdAt : Text
  signatureCaseId : Text
  entries : List ReadEntry
  metadata : Option Json

/--
`/^[0-9a-f]{64}$/.test(String(value))`; apart from a text, only an array of one such value is
written like that.
-/
def isWrittenSha256 : Json → Bool
  | .str s => isSha256 s
  | .arr [item] => isWrittenSha256 item
  | _ => false

def readManifestEntry (unicode : UnicodeTexts) (entry : Json) : Except Text ReadEntry :=
  match entry.field "path" with
  | some (.str path) => do
    let validated ← validatePath unicode path
    match entry.field "sha256", entry.field "bytes", entry.field "mediaType" with
    | some sha256, some (.num bytes), some (.str mediaType) =>
      if validated ≠ path ∨ isWrittenSha256 sha256 = false ∨ bytes < 0 ∨ 2 ^ 53 ≤ bytes then
        throw "EVIDENCE_MANIFEST_ENTRY_INVALID".toList
      return { path, sha256, bytes, mediaType }
    | _, _, _ => throw "EVIDENCE_MANIFEST_ENTRY_INVALID".toList
  | _ => .error "EVIDENCE_MANIFEST_ENTRY_INVALID".toList

/-- What a value of `JSON.parse` must be. -/
def readManifest (unicode : UnicodeTexts) (parsed : Json) : Except Text ReadManifest :=
  match parsed.field "signatureCaseId", parsed.field "createdAt", parsed.field "entries" with
  | some (.str signatureCaseId), some (.str createdAt), some (.arr items) => do
    if parsed.field "schema" ≠ some (.lit "kommunsign.evidence-package.v1") then
      throw "EVIDENCE_MANIFEST_INVALID".toList
    let entries ← items.mapM (readManifestEntry unicode)
    if ¬(entries.map (·.path)).Nodup then throw "EVIDENCE_ZIP_DUPLICATE_PATH".toList
    return { createdAt, signatureCaseId, entries, metadata := parsed.field "metadata" }
  | _, _, _ => .error "EVIDENCE_MANIFEST_INVALID".toList

/-- `jsonParse` is `JSON.parse`; a number that is no safe integer is one beyond them. -/
def parseManifest (unicode : UnicodeTexts) (jsonParse : Text → Option Json) (bytes : Bytes) :
    Except Text ReadManifest :=
  match (decodeUtf8 bytes).bind jsonParse with
  | some parsed => readManifest unicode parsed
  | none => .error "EVIDENCE_MANIFEST_INVALID_JSON".toList

/-! ## The members against the descriptions -/

def verifyEvidenceFile (sha256Hex : Bytes → Text) (files : List EvidenceZipInput)
    (entry : ReadEntry) : List Text :=
  match files.reverse.find? (·.path == entry.path) with
  | none => ["Missing file: ".toList ++ entry.path]
  | some file =>
    (if (file.bytes.length : Int) ≠ entry.bytes then ["Size mismatch: ".toList ++ entry.path]
      else []) ++
    (if Json.str (sha256Hex file.bytes) ≠ entry.sha256 then
      ["Hash mismatch: ".toList ++ entry.path] else [])

def verifyEvidenceFiles (sha256Hex : Bytes → Text) (manifest : ReadManifest)
    (files : List EvidenceZipInput) : List Text :=
  manifest.entries.flatMap (verifyEvidenceFile sha256Hex files) ++
    files.flatMap fun file =>
      if manifest.entries.any (·.path == file.path) then []
      else ["Unexpected file: ".toList ++ file.path]

/-- The groups of `^([0-9a-f]{64})  (.+)$`, the path first. -/
def checksumOfLine (line : Text) : Option (Text × Text) :=
  match line.drop 64 with
  | ' ' :: ' ' :: path =>
    if isSha256 (line.take 64) && path != [] && path.all (!isLineTerminator ·) then
      some (path, line.take 64)
    else none
  | _ => none

/-- `actual.set(path, checksum)` -/
def setChecksum (actual : List (Text × Text)) (path checksum : Text) : List (Text × Text) :=
  if actual.any (·.1 == path) then
    actual.map fun listed => if listed.1 = path then (path, checksum) else listed
  else actual ++ [(path, checksum)]

/-- The failures and the checksums of the lines, after those of earlier lines. -/
def readChecksums (unicode : UnicodeTexts) :
    List Text → List (Text × Text) → Except Text (List Text × List (Text × Text))
  | [], actual => .ok ([], actual)
  | line :: lines, actual =>
    if line = [] then readChecksums unicode lines actual
    else
      match checksumOfLine line with
      | none => do
        let (failures, actual) ← readChecksums unicode lines actual
        return ("CHECKSUM_FILE_INVALID_LINE".toList :: failures, actual)
      | some (listed, checksum) => do
        let path ← validatePath unicode listed
        let (failures, all) ← readChecksums unicode lines (setChecksum actual path checksum)
        return ((if actual.any (·.1 == path) then ["Duplicate checksum: ".toList ++ path]
          else []) ++ failures, all)

def verifyChecksumFile (unicode : UnicodeTexts) (manifest : ReadManifest) (bytes : Bytes) :
    Except Text (List Text) :=
  match decodeUtf8 bytes with
  | none => .ok ["CHECKSUM_FILE_INVALID_ENCODING".toList]
  | some text => do
    let (failures, actual) ← readChecksums unicode (text.splitOn '\n') []
    let unmatched := manifest.entries.flatMap fun entry =>
      match actual.find? (·.1 == entry.path) with
      | none => ["Missing checksum: ".toList ++ entry.path]
      | some (_, checksum) =>
        if Json.str checksum ≠ entry.sha256 then ["Checksum mismatch: ".toList ++ entry.path]
        else []
    let unexpected := actual.flatMap fun (path, _) =>
      if manifest.entries.any (·.path == path) then []
      else ["Unexpected checksum: ".toList ++ path]
    return failures ++ unmatched ++ unexpected

/-! ## The package -/

structure EvidenceZipVerification where
  verified : Bool
  packageSha256 : Text
  failures : List Text
  manifest : Option ReadManifest

def isMetadataPath (path : Text) : Bool :=
  path == "manifest.json".toList || path == "checksums.sha256".toList

/-- The failures that are found before the first exception, then the exception. -/
def packageFailures (unicode : UnicodeTexts) (jsonParse : Text → Option Json)
    (sha256Hex : Bytes → Text) (bytes : Bytes) : List Text × Option ReadManifest :=
  match parseEvidenceZip unicode bytes with
  | .error e => ([e], none)
  | .ok files =>
    match files.find? (·.path == "manifest.json".toList) with
    | none => (["Missing file: manifest.json".toList], none)
    | some manifestFile =>
      match parseManifest unicode jsonParse manifestFile.bytes with
      | .error e => ([e], none)
      | .ok manifest =>
        let fileFailures := verifyEvidenceFiles sha256Hex manifest
          (files.filter fun file => !isMetadataPath file.path)
        let selfReferences := if manifest.entries.any (isMetadataPath ·.path) then
          ["Manifest must not self-reference package metadata files".toList] else []
        match files.find? (·.path == "checksums.sha256".toList) with
        | none =>
          ("Missing file: checksums.sha256".toList :: (fileFailures ++ selfReferences),
            some manifest)
        | some checksumFile =>
          match verifyChecksumFile unicode manifest checksumFile.bytes with
          | .error e => (fileFailures ++ [e], some manifest)
          | .ok failures => (fileFailures ++ failures ++ selfReferences, some manifest)

def verifyEvidenceZip (unicode : UnicodeTexts) (jsonParse : Text → Option Json)
    (sha256Hex : Bytes → Text) (bytes : Bytes) : EvidenceZipVerification :=
  let (failures, manifest) := packageFailures unicode jsonParse sha256Hex bytes
  { verified := failures.isEmpty
    packageSha256 := sha256Hex bytes
    failures
    manifest }

/-! ## A manifest read back -/

section

variable {unicode : UnicodeTexts}

/-- The members of an entry in the order of their names. -/
def EvidenceManifestEntry.canonical (entry : EvidenceManifestEntry) : Json :=
  .object [
    ("bytes", .num entry.bytes),
    ("mediaType", .str entry.mediaType),
    ("path", .str entry.path),
    ("sha256", .str entry.sha256)]

theorem canonical_manifest (manifest : EvidenceManifest) : manifest.json.canonical =
    .object [
      ("createdAt", .str manifest.createdAt),
      ("entries", .arr (manifest.entries.map (·.canonical))),
      ("metadata", manifest.metadata.canonical),
      ("schema", .lit "kommunsign.evidence-package.v1"),
      ("signatureCaseId", .str manifest.signatureCaseId)] := by
  have hentries : Json.canonicalItems (manifest.entries.map fun entry => .object [
      ("path", .str entry.path),
      ("sha256", .str entry.sha256),
      ("bytes", .num entry.bytes),
      ("mediaType", .str entry.mediaType)]) = manifest.entries.map (·.canonical) := by
    rw [Json.canonicalItems_eq_map, List.map_map]
    refine List.map_congr_left fun entry _ => ?_
    simp [Json.canonical, Json.canonicalMembers, Json.object, EvidenceManifestEntry.canonical,
      List.insertionSort, List.orderedInsert, Json.nameLe, Json.utf16, Json.unitsLe,
      Json.utf16Units]
  rw [← hentries]
  simp [Json.canonical, Json.canonicalMembers, Json.object, EvidenceManifest.json, Json.lit,
    List.insertionSort, List.orderedInsert, Json.nameLe, Json.utf16, Json.unitsLe, Json.utf16Units]

theorem field_object (name : String) (members : List (String × Json)) :
    (Json.object members).field name =
      (members.reverse.find? fun member => member.1 == name).map (·.2) := by
  unfold Json.object Json.field
  dsimp only
  rw [← List.map_reverse, List.find?_map, Option.map_map]
  have hname : (fun member : Text × Json => member.1 == name.toList) ∘
      (fun member : String × Json => (member.1.toList, member.2)) =
        fun member => member.1 == name := by
    funext member
    exact Bool.eq_iff_iff.mpr (by simp [String.toList_inj])
  rw [hname]
  rfl

def EvidenceManifestEntry.read (entry : EvidenceManifestEntry) : ReadEntry :=
  ⟨entry.path, .str entry.sha256, entry.bytes, entry.mediaType⟩

def EvidenceManifest.read (manifest : EvidenceManifest) : ReadManifest where
  createdAt := manifest.createdAt
  signatureCaseId := manifest.signatureCaseId
  entries := manifest.entries.map (·.read)
  metadata := some manifest.metadata.canonical

/-- An entry that is read as it was written. -/
structure EvidenceManifestEntry.Readable (unicode : UnicodeTexts) (entry : EvidenceManifestEntry) :
    Prop where
  safe : isEvidencePath entry.path = true
  normal : unicode.normalize entry.path = entry.path
  sha256 : isSha256 entry.sha256 = true
  bytes : entry.bytes < 2 ^ 53

theorem EvidenceManifestEntry.field_canonical (entry : EvidenceManifestEntry) :
    entry.canonical.field "path" = some (.str entry.path) ∧
      entry.canonical.field "sha256" = some (.str entry.sha256) ∧
      entry.canonical.field "bytes" = some (.num entry.bytes) ∧
      entry.canonical.field "mediaType" = some (.str entry.mediaType) := by
  simp [EvidenceManifestEntry.canonical, field_object]

theorem readManifestEntry_canonical {entry : EvidenceManifestEntry}
    (h : entry.Readable unicode) : readManifestEntry unicode entry.canonical = .ok entry.read := by
  obtain ⟨hpath, hsha256, hbytes, hmedia⟩ := entry.field_canonical
  have hvalid : validatePath unicode entry.path = .ok entry.path := by
    unfold validatePath
    rw [if_pos h.safe, h.normal]
  have hsize := h.bytes
  unfold readManifestEntry
  rw [hpath, hsha256, hbytes, hmedia]
  refine except_bind_eq_ok.mpr ⟨entry.path, hvalid, ?_⟩
  refine except_guard_eq_ok.mpr ⟨?_, rfl⟩
  have hwritten : isWrittenSha256 (.str entry.sha256) = true := h.sha256
  simp only [hwritten, ne_eq, not_true_eq_false, false_or, Bool.true_eq_false]
  omega

theorem readManifestEntry_canonical_eq_ok {entry : EvidenceManifestEntry} {read : ReadEntry}
    (h : readManifestEntry unicode entry.canonical = .ok read) :
    read = entry.read ∧ unicode.normalize entry.path = entry.path := by
  obtain ⟨hpath, hsha256, hbytes, hmedia⟩ := entry.field_canonical
  unfold readManifestEntry at h
  rw [hpath, hsha256, hbytes, hmedia] at h
  obtain ⟨validated, hvalidated, h⟩ := except_bind_eq_ok.mp h
  obtain ⟨hguard, h⟩ := except_guard_eq_ok.mp h
  refine ⟨(Except.ok.inj h).symm, ?_⟩
  rw [not_or, not_not] at hguard
  unfold validatePath at hvalidated
  split at hvalidated
  · exact (Except.ok.inj hvalidated).trans hguard.1
  · cases hvalidated

theorem eq_map_of_mapM_map_eq_ok {α β γ ε : Type} {f : β → Except ε γ} {g : α → β} {k : α → γ}
    {P : α → Prop} (hf : ∀ a c, f (g a) = .ok c → c = k a ∧ P a) :
    ∀ {items : List α} {results : List γ}, (items.map g).mapM f = .ok results →
      results = items.map k ∧ ∀ a ∈ items, P a
  | [], results, h => by
    cases h
    exact ⟨rfl, nofun⟩
  | a :: items, results, h => by
    rw [List.map_cons, List.mapM_cons] at h
    obtain ⟨first, hfirst, h⟩ := except_bind_eq_ok.mp h
    obtain ⟨rest, hrest, h⟩ := except_bind_eq_ok.mp h
    cases h
    obtain ⟨rfl, ha⟩ := hf a first hfirst
    obtain ⟨rfl, hitems⟩ := eq_map_of_mapM_map_eq_ok hf hrest
    refine ⟨rfl, fun b hb => ?_⟩
    rcases List.mem_cons.mp hb with rfl | hb
    · exact ha
    · exact hitems b hb

theorem EvidenceManifest.field_canonical (manifest : EvidenceManifest) :
    manifest.json.canonical.field "signatureCaseId" = some (.str manifest.signatureCaseId) ∧
      manifest.json.canonical.field "createdAt" = some (.str manifest.createdAt) ∧
      manifest.json.canonical.field "entries" =
        some (.arr (manifest.entries.map (·.canonical))) ∧
      manifest.json.canonical.field "schema" = some (.lit "kommunsign.evidence-package.v1") ∧
      manifest.json.canonical.field "metadata" = some manifest.metadata.canonical := by
  simp [canonical_manifest, field_object]

theorem readManifest_canonical {manifest : EvidenceManifest}
    (hentries : ∀ entry ∈ manifest.entries, entry.Readable unicode)
    (hunique : (manifest.entries.map (·.path)).Nodup) :
    readManifest unicode manifest.json.canonical = .ok manifest.read := by
  obtain ⟨hcase, hcreated, hitems, hschema, hmetadata⟩ := manifest.field_canonical
  have hread : (manifest.entries.map (·.canonical)).mapM (readManifestEntry unicode) =
      .ok (manifest.entries.map (·.read)) := by
    rw [List.mapM_map]
    exact except_mapM_map fun entry hentry => readManifestEntry_canonical (hentries entry hentry)
  unfold readManifest
  rw [hcase, hcreated, hitems, hschema, hmetadata]
  refine except_guard_eq_ok.mpr ⟨not_not.mpr rfl, ?_⟩
  refine except_bind_eq_ok.mpr ⟨_, hread, ?_⟩
  refine except_guard_eq_ok.mpr ⟨not_not.mpr ?_, rfl⟩
  rw [List.map_map]
  exact hunique

theorem readManifest_canonical_eq_ok {manifest : EvidenceManifest} {read : ReadManifest}
    (h : readManifest unicode manifest.json.canonical = .ok read) :
    read.entries = manifest.entries.map (·.read) ∧
      ∀ entry ∈ manifest.entries, unicode.normalize entry.path = entry.path := by
  obtain ⟨hcase, hcreated, hitems, hschema, -⟩ := manifest.field_canonical
  unfold readManifest at h
  rw [hcase, hcreated, hitems, hschema] at h
  obtain ⟨-, h⟩ := except_guard_eq_ok.mp h
  obtain ⟨entries, hentries, h⟩ := except_bind_eq_ok.mp h
  obtain ⟨-, h⟩ := except_guard_eq_ok.mp h
  cases h
  exact eq_map_of_mapM_map_eq_ok (fun _ _ => readManifestEntry_canonical_eq_ok) hentries

theorem decodeUtf8_manifest (manifest : EvidenceManifest) :
    decodeUtf8 (utf8 (canonicalJson manifest.json)) = some (canonicalJson manifest.json) := by
  have hbrace : ∃ rest, canonicalJson manifest.json = '{' :: rest := by
    unfold canonicalJson
    rw [canonical_manifest]
    exact ⟨_, rfl⟩
  obtain ⟨rest, hrest⟩ := hbrace
  rw [decodeUtf8_utf8, hrest]
  rfl

theorem parseManifest_manifest {jsonParse : Text → Option Json}
    {manifest : EvidenceManifest}
    (hparse : jsonParse (canonicalJson manifest.json) = some manifest.json.canonical)
    (hentries : ∀ entry ∈ manifest.entries, entry.Readable unicode)
    (hunique : (manifest.entries.map (·.path)).Nodup) :
    parseManifest unicode jsonParse (utf8 (canonicalJson manifest.json)) = .ok manifest.read := by
  unfold parseManifest
  rw [decodeUtf8_manifest, Option.bind_some, hparse]
  exact readManifest_canonical hentries hunique

theorem parseManifest_manifest_eq_ok {jsonParse : Text → Option Json}
    {manifest : EvidenceManifest} {read : ReadManifest}
    (hparse : jsonParse (canonicalJson manifest.json) = some manifest.json.canonical)
    (h : parseManifest unicode jsonParse (utf8 (canonicalJson manifest.json)) = .ok read) :
    read.entries = manifest.entries.map (·.read) ∧
      ∀ entry ∈ manifest.entries, unicode.normalize entry.path = entry.path := by
  unfold parseManifest at h
  rw [decodeUtf8_manifest, Option.bind_some, hparse] at h
  exact readManifest_canonical_eq_ok h

end

end Kommunsign
