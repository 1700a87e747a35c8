import Kommunsign.Evidence.Verify

/-!
# What an accepted evidence package says

* `verified_package_agrees` — an accepted archive, its manifest and its checksums say the same
* `verified_names_differ` — of an accepted archive whose headers spell a name in two ways
-/

namespace Kommunsign

open Infra

/-! ## The members of an archive -/

/-- Where the entries of the directory begin, for so many from the cursor on. -/
def directoryCursors (bytes : Bytes) : Nat → Nat → List Nat
  | 0, _ => []
  | count + 1, cursor => cursor :: directoryCursors bytes count (centralEntryAt bytes cursor).next

def memberCursors (bytes : Bytes) : List Nat :=
  match findEndOfCentralDirectory bytes with
  | .ok endOffset =>
    directoryCursors bytes (getUint16 bytes (endOffset + 10)) (getUint32 bytes (endOffset + 16))
  | .error _ => []

def centralHeaderAt (bytes : Bytes) (cursor : Nat) : MemberHeader :=
  (centralEntryAt bytes cursor).header

def localHeaderAt (bytes : Bytes) (cursor : Nat) : MemberHeader :=
  (localEntryAt bytes (centralEntryAt bytes cursor).localOffset).header

/-- The member of the entry at a cursor, as both of its headers describe it. -/
structure MemberAt (unicode : UnicodeTexts) (bytes : Bytes) (cursor : Nat)
    (file : EvidenceZipInput) : Prop where
  flags : (localHeaderAt bytes cursor).flags = (centralHeaderAt bytes cursor).flags
  method : (localHeaderAt bytes cursor).method = (centralHeaderAt bytes cursor).method
  crc : (localHeaderAt bytes cursor).crc = (centralHeaderAt bytes cursor).crc
  compressedSize :
    (localHeaderAt bytes cursor).compressedSize = (centralHeaderAt bytes cursor).compressedSize
  uncompressedSize :
    (localHeaderAt bytes cursor).uncompressedSize = (centralHeaderAt bytes cursor).uncompressedSize
  localName : decodeUtf8 (localHeaderAt bytes cursor).name = some file.path
  centralName :
    (decodeUtf8 (centralHeaderAt bytes cursor).name).map unicode.normalize = some file.path
  /-- The bytes are stored as they are. -/
  stored : (centralHeaderAt bytes cursor).method = 0
  size : (centralHeaderAt bytes cursor).compressedSize = file.bytes.length ∧
    (centralHeaderAt bytes cursor).uncompressedSize = file.bytes.length
  contents : file.bytes = subarray bytes
    (localEntryAt bytes (centralEntryAt bytes cursor).localOffset).dataStart file.bytes.length
  checked : crc32 file.bytes = (centralHeaderAt bytes cursor).crc

section

variable {unicode : UnicodeTexts} {bytes : Bytes}

theorem validatePath_eq_ok {input path : Text} (h : validatePath unicode input = .ok path) :
    isEvidencePath input = true ∧ unicode.normalize input = path := by
  unfold validatePath at h
  split at h
  · rename_i hpath
    exact ⟨hpath, Except.ok.inj h⟩
  · cases h

theorem decodeName_eq_ok {name : Bytes} {text : Text} (h : decodeName name = .ok text) :
    decodeUtf8 name = some text := by
  unfold decodeName at h
  split at h
  · rename_i hname
    rw [hname, Except.ok.inj h]
  · cases h

theorem length_subarray {start length : Nat} (h : start + length ≤ bytes.length) :
    (subarray bytes start length).length = length := by
  unfold subarray
  rw [List.length_take, List.length_drop]
  omega

theorem readMember_eq_ok {centralOffset endOffset cursor next : Nat} {file : EvidenceZipInput}
    (hoffset : centralOffset ≤ bytes.length)
    (h : readMember unicode bytes centralOffset endOffset cursor = .ok (file, next)) :
    MemberAt unicode bytes cursor file ∧ next = (centralEntryAt bytes cursor).next := by
  unfold readMember at h
  simp only [except_guard_eq_ok, except_bind_eq_ok, not_or, not_not] at h
  obtain ⟨-, -, -, -, ⟨hmethod, hsizes⟩, -, -, -, name, hname, path, hpath, -, -, ⟨hflags, hstored⟩,
    ⟨hcrc, hcompressed, huncompressed⟩, localName, hlocal, hsame, hend, hchecked, h⟩ := h
  obtain ⟨rfl, rfl⟩ := Prod.mk.inj (Except.ok.inj h)
  have hlength := @length_subarray bytes _ _ (Nat.le_trans (Nat.not_lt.mp hend) hoffset)
  refine ⟨⟨hflags, hstored, hcrc, hcompressed, huncompressed, ?_, ?_, hmethod, ⟨hlength.symm, ?_⟩,
    ?_, hchecked⟩, rfl⟩
  · rw [← hsame]
    exact decodeName_eq_ok hlocal
  · have hcentral : decodeUtf8 (centralHeaderAt bytes cursor).name = some name := decodeName_eq_ok hname
    rw [hcentral, Option.map_some, (validatePath_eq_ok hpath).2]
  · exact hsizes.symm.trans hlength.symm
  · rw [hlength]

theorem readMembers_eq_ok {centralOffset endOffset : Nat} (hoffset : centralOffset ≤ bytes.length) :
    ∀ {count cursor last : Nat} {files : List EvidenceZipInput},
      readMembers unicode bytes centralOffset endOffset count cursor = .ok (files, last) →
        List.Forall₂ (MemberAt unicode bytes) (directoryCursors bytes count cursor) files
  | 0, _, _, _, h => by
    obtain ⟨rfl, -⟩ := Prod.mk.inj (Except.ok.inj h)
    exact .nil
  | count + 1, cursor, last, files, h => by
    simp only [readMembers, except_bind_eq_ok] at h
    obtain ⟨⟨file, next⟩, hmember, ⟨rest, last'⟩, hrest, h⟩ := h
    obtain ⟨hat, rfl⟩ := readMember_eq_ok hoffset hmember
    cases h
    exact .cons hat (readMembers_eq_ok hoffset hrest)

theorem parseEvidenceZip_eq_ok {files : List EvidenceZipInput}
    (h : parseEvidenceZip unicode bytes = .ok files) :
    List.Forall₂ (MemberAt unicode bytes) (memberCursors bytes) files ∧
      (files.map (·.path)).Nodup := by
  unfold parseEvidenceZip at h
  simp only [except_guard_eq_ok, except_bind_eq_ok, not_or, not_not] at h
  obtain ⟨-, endOffset, hend, -, -, hcomment, hdirectory, ⟨found, cursor⟩, hmembers, -, hnodup, h⟩ := h
  cases h
  refine ⟨?_, hnodup⟩
  unfold memberCursors
  rw [hend]
  exact readMembers_eq_ok (by omega) hmembers

/-! ## The manifest -/

theorem readManifestEntry_eq_ok {item : Json} {entry : ReadEntry}
    (h : readManifestEntry unicode item = .ok entry) :
    isEvidencePath entry.path = true ∧ unicode.normalize entry.path = entry.path := by
  unfold readManifestEntry at h
  split at h
  · rename_i path _
    obtain ⟨validated, hvalidated, h⟩ := except_bind_eq_ok.mp h
    split at h
    · simp only [except_guard_eq_ok, not_or, not_not] at h
      obtain ⟨⟨rfl, -⟩, h⟩ := h
      cases h
      obtain ⟨hpath, hnormal⟩ := validatePath_eq_ok hvalidated
      exact ⟨hpath, hnormal⟩
    · cases h
  · cases h

theorem parseManifest_eq_ok {jsonParse : Text → Option Json} {manifest : ReadManifest}
    (h : parseManifest unicode jsonParse bytes = .ok manifest) :
    (∀ entry ∈ manifest.entries,
      isEvidencePath entry.path = true ∧ unicode.normalize entry.path = entry.path) ∧
      (manifest.entries.map (·.path)).Nodup := by
  unfold parseManifest at h
  split at h
  · unfold readManifest at h
    split at h
    · simp only [except_guard_eq_ok, except_bind_eq_ok, not_not] at h
      obtain ⟨-, entries, hentries, hnodup, h⟩ := h
      cases h
      refine ⟨fun entry hentry => ?_, hnodup⟩
      obtain ⟨item, -, hitem⟩ := (mem_of_except_mapM hentries).2 entry hentry
      exact readManifestEntry_eq_ok hitem
    · cases h
  · cases h

/-! ## The members against the descriptions -/

theorem perm_of_keys {κ ν : Type} {l l' : List (κ × ν)} (hl : (l.map (·.1)).Nodup)
    (hl' : (l'.map (·.1)).Nodup) (hsub : ∀ x ∈ l', x ∈ l)
    (hkeys : ∀ x ∈ l, x.1 ∈ l'.map (·.1)) : l.Perm l' := by
  refine (List.perm_ext_iff_of_nodup hl.of_map hl'.of_map).mpr fun x => ⟨fun hx => ?_, hsub x⟩
  obtain ⟨y, hy, hkey⟩ := List.mem_map.mp (hkeys x hx)
  -- the value under the key is the one of the other list
  obtain rfl : y = x := List.inj_on_of_nodup_map hl (hsub y hy) hx hkey
  exact hy

def ReadEntry.described (entry : ReadEntry) : Text × Int × Json :=
  (entry.path, entry.bytes, entry.sha256)

def ReadEntry.listed (entry : ReadEntry) : Text × Json := (entry.path, entry.sha256)

def EvidenceZipInput.actual (sha256Hex : Bytes → Text) (file : EvidenceZipInput) :
    Text × Int × Json :=
  (file.path, file.bytes.length, .str (sha256Hex file.bytes))

theorem verifyEvidenceFile_eq_nil {sha256Hex : Bytes → Text} {files : List EvidenceZipInput}
    {entry : ReadEntry} (h : verifyEvidenceFile sha256Hex files entry = []) :
    entry.described ∈ files.map (·.actual sha256Hex) := by
  unfold verifyEvidenceFile at h
  split at h
  · cases h
  · rename_i file hfile
    obtain ⟨hsize, hhash⟩ := List.append_eq_nil_iff.mp h
    have hpath : file.path = entry.path := by simpa using List.find?_some hfile
    have hmem : file ∈ files := List.mem_reverse.mp (List.mem_of_find?_eq_some hfile)
    refine List.mem_map.mpr ⟨file, hmem, ?_⟩
    have hbytes : (file.bytes.length : Int) = entry.bytes := by
      by_contra hne
      rw [if_pos hne] at hsize
      cases hsize
    have hdigest : Json.str (sha256Hex file.bytes) = entry.sha256 := by
      by_contra hne
      rw [if_pos hne] at hhash
      cases hhash
    unfold EvidenceZipInput.actual ReadEntry.described
    rw [hpath, hbytes, hdigest]

theorem verifyEvidenceFiles_eq_nil {sha256Hex : Bytes → Text} {manifest : ReadManifest}
    {files : List EvidenceZipInput} (hfiles : (files.map (·.path)).Nodup)
    (hentries : (manifest.entries.map (·.path)).Nodup)
    (h : verifyEvidenceFiles sha256Hex manifest files = []) :
    (files.map (·.actual sha256Hex)).Perm (manifest.entries.map (·.described)) := by
  unfold verifyEvidenceFiles at h
  obtain ⟨hdescribed, hexpected⟩ := List.append_eq_nil_iff.mp h
  rw [List.flatMap_eq_nil_iff] at hdescribed hexpected
  refine perm_of_keys ?_ ?_ ?_ ?_
  · rw [List.map_map]
    exact hfiles
  · rw [List.map_map]
    exact hentries
  · intro x hx
    obtain ⟨entry, hentry, rfl⟩ := List.mem_map.mp hx
    exact verifyEvidenceFile_eq_nil (hdescribed entry hentry)
  · intro x hx
    obtain ⟨file, hfile, rfl⟩ := List.mem_map.mp hx
    have hany := hexpected file hfile
    split at hany
    · rename_i hentry
      obtain ⟨entry, hentry, hpath⟩ := List.any_eq_true.mp hentry
      rw [List.map_map]
      exact List.mem_map.mpr ⟨entry, hentry, beq_iff_eq.mp hpath⟩
    · cases hany

def listedChecksum (unicode : UnicodeTexts) (line : Text) : Option (Text × Json) :=
  (checksumOfLine line).map fun listed => (unicode.normalize listed.1, .str listed.2)

theorem setChecksum_of_not_any {actual : List (Text × Text)} {path checksum : Text}
    (h : actual.any (·.1 == path) = false) :
    setChecksum actual path checksum = actual ++ [(path, checksum)] := by
  unfold setChecksum
  rw [h]
  rfl

theorem readChecksums_eq_ok : ∀ {lines : List Text} {actual all : List (Text × Text)},
    (actual.map (·.1)).Nodup → readChecksums unicode lines actual = .ok ([], all) →
      (all.map (·.1)).Nodup ∧ ∃ listed, all = actual ++ listed ∧
        (lines.filter (· != [])).map (listedChecksum unicode) =
          listed.map fun (path, checksum) => some (path, .str checksum)
  | [], actual, all, hactual, h => by
    obtain ⟨-, rfl⟩ := Prod.mk.inj (Except.ok.inj h)
    exact ⟨hactual, [], (List.append_nil actual).symm, rfl⟩
  | line :: lines, actual, all, hactual, h => by
    unfold readChecksums at h
    split at h
    · rename_i hline
      obtain ⟨hnodup, listed, hall, hlisted⟩ := readChecksums_eq_ok hactual h
      refine ⟨hnodup, listed, hall, ?_⟩
      rw [List.filter_cons_of_neg (by simp [hline]), hlisted]
    · rename_i hline
      split at h
      · obtain ⟨⟨failures, rest⟩, -, h⟩ := except_bind_eq_ok.mp h
        cases h
      · rename_i raw checksum hchecksum
        obtain ⟨path, hpath, h⟩ := except_bind_eq_ok.mp h
        obtain ⟨⟨failures, rest⟩, hrest, h⟩ := except_bind_eq_ok.mp h
        obtain ⟨hfailures, rfl⟩ := Prod.mk.inj (Except.ok.inj h)
        obtain ⟨hduplicate, rfl⟩ := List.append_eq_nil_iff.mp hfailures
        have hnew : actual.any (·.1 == path) = false := by
          by_contra hany
          rw [if_pos (by simpa using hany)] at hduplicate
          cases hduplicate
        rw [setChecksum_of_not_any hnew] at hrest
        have hactual' : ((actual ++ [(path, checksum)]).map (·.1)).Nodup := by
          rw [List.map_append, List.nodup_append]
          refine ⟨hactual, List.nodup_singleton _, ?_⟩
          rintro p hp q hq rfl
          obtain rfl := List.mem_singleton.mp hq
          obtain ⟨listed, hlisted, hp⟩ := List.mem_map.mp hp
          have hold := List.any_eq_false.mp hnew listed hlisted
          exact hold (beq_iff_eq.mpr hp)
        obtain ⟨hnodup, listed, hall, hlisted⟩ := readChecksums_eq_ok hactual' hrest
        refine ⟨hnodup, (path, checksum) :: listed, by rw [hall]; simp, ?_⟩
        have hfirst : listedChecksum unicode line = some (path, .str checksum) := by
          unfold listedChecksum
          rw [hchecksum, Option.map_some, (validatePath_eq_ok hpath).2]
        rw [List.filter_cons_of_pos (by simpa using hline), List.map_cons, hlisted, hfirst]
        rfl

theorem verifyChecksumFile_eq_nil {manifest : ReadManifest}
    (hentries : (manifest.entries.map (·.path)).Nodup)
    (h : verifyChecksumFile unicode manifest bytes = .ok []) :
    ∃ text, decodeUtf8 bytes = some text ∧
      (((text.splitOn '\n').filter (· != [])).map (listedChecksum unicode)).Perm
        (manifest.entries.map fun entry => some entry.listed) := by
  unfold verifyChecksumFile at h
  split at h
  · cases h
  rename_i text htext
  obtain ⟨⟨failures, actual⟩, hread, h⟩ := except_bind_eq_ok.mp h
  obtain ⟨hfound, hunexpected⟩ := List.append_eq_nil_iff.mp (Except.ok.inj h)
  obtain ⟨rfl, hunmatched⟩ := List.append_eq_nil_iff.mp hfound
  obtain ⟨hnodup, listed, hall, hlisted⟩ := readChecksums_eq_ok (by simp) hread
  rw [List.nil_append] at hall
  subst hall
  rw [List.flatMap_eq_nil_iff] at hunmatched hunexpected
  refine ⟨text, htext, ?_⟩
  have hperm : (actual.map fun (path, checksum) => (path, Json.str checksum)).Perm
      (manifest.entries.map (·.listed)) := by
    refine perm_of_keys ?_ ?_ ?_ ?_
    · rw [List.map_map]
      exact hnodup
    · rw [List.map_map]
      exact hentries
    · intro x hx
      obtain ⟨entry, hentry, rfl⟩ := List.mem_map.mp hx
      have hentry' := hunmatched entry hentry
      split at hentry'
      · cases hentry'
      · rename_i path checksum hfind
        have hpath : path = entry.path := by simpa using List.find?_some hfind
        refine List.mem_map.mpr ⟨(path, checksum), List.mem_of_find?_eq_some hfind, ?_⟩
        have hchecksum : Json.str checksum = entry.sha256 := by
          by_contra hne
          rw [if_pos hne] at hentry'
          cases hentry'
        unfold ReadEntry.listed
        rw [← hpath, ← hchecksum]
    · intro x hx
      obtain ⟨⟨path, checksum⟩, hmem, rfl⟩ := List.mem_map.mp hx
      have hany := hunexpected (path, checksum) hmem
      dsimp only at hany
      split at hany
      · rename_i hentry
        obtain ⟨entry, hentry, hpath⟩ := List.any_eq_true.mp hentry
        rw [List.map_map]
        exact List.mem_map.mpr ⟨entry, hentry, beq_iff_eq.mp hpath⟩
      · cases hany
  have hsome := hperm.map some
  rw [List.map_map, List.map_map] at hsome
  rw [hlisted]
  exact hsome

/-! ## The package -/

/--
What an accepted archive amounts to: its members, its manifest and its checksum file describe the
same files.
-/
structure VerifiedPackage (unicode : UnicodeTexts) (jsonParse : Text → Option Json)
    (sha256Hex : Bytes → Text) (bytes : Bytes) (files : List EvidenceZipInput)
    (manifest : ReadManifest) : Prop where
  members : List.Forall₂ (MemberAt unicode bytes) (memberCursors bytes) files
  unique : (files.map (·.path)).Nodup
  safe : ∀ file ∈ files, isEvidencePath file.path = true
  manifestFile : ∃ file ∈ files, file.path = "manifest.json".toList ∧
    parseManifest unicode jsonParse file.bytes = .ok manifest
  described : ((files.filter fun file => !isMetadataPath file.path).map
    (·.actual sha256Hex)).Perm (manifest.entries.map (·.described))
  checksumFile : ∃ file ∈ files, file.path = "checksums.sha256".toList ∧
    ∃ text, decodeUtf8 file.bytes = some text ∧
      (((text.splitOn '\n').filter (· != [])).map (listedChecksum unicode)).Perm
        (manifest.entries.map fun entry => some entry.listed)

theorem isEvidencePath_of_isMetadataPath {path : Text} (h : isMetadataPath path = true) :
    isEvidencePath path = true := by
  unfold isMetadataPath at h
  rw [Bool.or_eq_true, beq_iff_eq, beq_iff_eq] at h
  rcases h with rfl | rfl
  · decide
  · decide

theorem verified_of_parts {jsonParse : Text → Option Json} {sha256Hex : Bytes → Text}
    {files : List EvidenceZipInput} {manifestFile checksumFile : EvidenceZipInput}
    {manifest : ReadManifest} (hparse : parseEvidenceZip unicode bytes = .ok files)
    (hmanifestFile : files.find? (·.path == "manifest.json".toList) = some manifestFile)
    (hmanifest : parseManifest unicode jsonParse manifestFile.bytes = .ok manifest)
    (hfiles : verifyEvidenceFiles sha256Hex manifest
      (files.filter fun file => !isMetadataPath file.path) = [])
    (hchecksumFile : files.find? (·.path == "checksums.sha256".toList) = some checksumFile)
    (hchecksums : verifyChecksumFile unicode manifest checksumFile.bytes = .ok [])
    (hreferences : manifest.entries.any (isMetadataPath ·.path) = false) :
    (verifyEvidenceZip unicode jsonParse sha256Hex bytes).verified = true := by
  have hfailures : (packageFailures unicode jsonParse sha256Hex bytes).1 = [] := by
    unfold packageFailures
    simp only [hparse, hmanifestFile, hmanifest, hfiles, hchecksumFile, hchecksums, hreferences,
      Bool.false_eq_true, if_false, List.append_nil]
  unfold verifyEvidenceZip
  dsimp only
  rw [hfailures]
  rfl

theorem parts_of_verified {jsonParse : Text → Option Json} {sha256Hex : Bytes → Text}
    (h : (verifyEvidenceZip unicode jsonParse sha256Hex bytes).verified = true) :
    ∃ files manifestFile checksumFile manifest, parseEvidenceZip unicode bytes = .ok files ∧
      files.find? (·.path == "manifest.json".toList) = some manifestFile ∧
      parseManifest unicode jsonParse manifestFile.bytes = .ok manifest ∧
      verifyEvidenceFiles sha256Hex manifest
        (files.filter fun file => !isMetadataPath file.path) = [] ∧
      files.find? (·.path == "checksums.sha256".toList) = some checksumFile ∧
      verifyChecksumFile unicode manifest checksumFile.bytes = .ok [] := by
  have hfailures : (packageFailures unicode jsonParse sha256Hex bytes).1 = [] := by
    simpa [verifyEvidenceZip] using h
  unfold packageFailures at hfailures
  split at hfailures
  · cases hfailures
  rename_i files hfiles
  split at hfailures
  · cases hfailures
  rename_i manifestFile hmanifestFile
  split at hfailures
  · cases hfailures
  rename_i manifest hmanifest
  dsimp only at hfailures
  split at hfailures
  · cases hfailures
  rename_i checksumFile hchecksumFile
  split at hfailures
  · exact absurd hfailures (by simp)
  rename_i failures hchecksums
  obtain ⟨hfound, -⟩ := List.append_eq_nil_iff.mp hfailures
  obtain ⟨hdescribed, rfl⟩ := List.append_eq_nil_iff.mp hfound
  exact ⟨files, manifestFile, checksumFile, manifest, hfiles, hmanifestFile, hmanifest, hdescribed,
    hchecksumFile, hchecksums⟩

/-- Whatever bytes are given: if they are accepted, the three descriptions agree. -/
theorem verified_package_agrees {jsonParse : Text → Option Json} {sha256Hex : Bytes → Text}
    (h : (verifyEvidenceZip unicode jsonParse sha256Hex bytes).verified = true) :
    ∃ files manifest, VerifiedPackage unicode jsonParse sha256Hex bytes files manifest := by
  obtain ⟨files, manifestFile, checksumFile, manifest, hfiles, hmanifestFile, hmanifest, hdescribed,
    hchecksumFile, hchecksums⟩ := parts_of_verified h
  obtain ⟨hmembers, hunique⟩ := parseEvidenceZip_eq_ok hfiles
  obtain ⟨hpaths, hentries⟩ := parseManifest_eq_ok hmanifest
  have hevidence : ((files.filter fun file => !isMetadataPath file.path).map (·.path)).Nodup :=
    hunique.sublist (List.filter_sublist.map _)
  have hperm := verifyEvidenceFiles_eq_nil hevidence hentries hdescribed
  refine ⟨files, manifest, hmembers, hunique, fun file hfile => ?_, ?_, hperm, ?_⟩
  · cases hmetadata : isMetadataPath file.path with
    | true => exact isEvidencePath_of_isMetadataPath hmetadata
    | false =>
      -- a member that the manifest describes has the path of its entry
      have hmem : file.actual sha256Hex ∈ manifest.entries.map (·.described) := by
        refine hperm.mem_iff.mp (List.mem_map_of_mem (List.mem_filter.mpr ⟨hfile, ?_⟩))
        rw [hmetadata]
        rfl
      obtain ⟨entry, hentry, heq⟩ := List.mem_map.mp hmem
      have hpath : entry.path = file.path := congrArg (·.1) heq
      rw [← hpath]
      exact (hpaths entry hentry).1
  · have hpath : manifestFile.path = "manifest.json".toList := by
      simpa using List.find?_some hmanifestFile
    exact ⟨manifestFile, List.mem_of_find?_eq_some hmanifestFile, hpath, hmanifest⟩
  · have hpath : checksumFile.path = "checksums.sha256".toList := by
      simpa using List.find?_some hchecksumFile
    exact ⟨checksumFile, List.mem_of_find?_eq_some hchecksumFile, hpath,
      verifyChecksumFile_eq_nil hentries hchecksums⟩

end

/-! ## Names that differ -/

section

def composeAcute : Text → Text
  | 'e' :: '\u0301' :: rest => 'é' :: composeAcute rest
  | c :: rest => c :: composeAcute rest
  | [] => []

def acuteUnicode : UnicodeTexts where
  normalize := composeAcute
  localeLe left right := decide (left ≤ right)
  isLetterOrNumber c := c.isAlphanum
  lowerCase := id

def emptySha256 : Text := "e3b0c44298fc1c149afbf4c8996fb92427ae41e4649b934ca495991b7852b855".toList

def acuteManifest : EvidenceManifest where
  createdAt := []
  signatureCaseId := []
  entries := [⟨['é'], emptySha256, 0, []⟩]
  metadata := .null

/-- An empty file, its manifest and its checksums; the path of the file is one character. -/
def acuteFiles : List EvidenceZipInput := [
  ⟨['é'], []⟩,
  ⟨"manifest.json".toList, utf8 (canonicalJson acuteManifest.json)⟩,
  ⟨"checksums.sha256".toList, utf8 (checksumLines acuteUnicode acuteManifest)⟩]

def twoSpellings : Bytes :=
  let directory := centralHeader ⟨['e', '\u0301'], []⟩ 0 ++
    (centralParts 0 acuteFiles).drop (46 + (utf8 ['é']).length)
  localParts acuteFiles ++
    (directory ++ endOfCentralDirectory 3 directory.length (localParts acuteFiles).length)

theorem parseEvidenceZip_twoSpellings :
    parseEvidenceZip acuteUnicode twoSpellings = .ok acuteFiles := by
  decide +kernel

theorem parseManifest_acuteManifest : parseManifest acuteUnicode Json.parse
    (utf8 (canonicalJson acuteManifest.json)) = .ok acuteManifest.read := by
  refine parseManifest_manifest (Json.parse_render _) (fun entry hentry => ?_)
    (by decide)
  obtain rfl := List.mem_singleton.mp hentry
  exact ⟨by decide, by decide, by decide +kernel, by decide⟩

theorem verified_twoSpellings : (verifyEvidenceZip acuteUnicode Json.parse
    (fun _ => emptySha256) twoSpellings).verified = true := by
  have hfiles : verifyEvidenceFiles (fun _ => emptySha256) acuteManifest.read
    (acuteFiles.filter fun file => !isMetadataPath file.path) = [] := by decide +kernel
  have hlines : verifyChecksumFile acuteUnicode acuteManifest.read
    (utf8 (checksumLines acuteUnicode acuteManifest)) = .ok [] := by decide +kernel
  exact verified_of_parts parseEvidenceZip_twoSpellings rfl parseManifest_acuteManifest hfiles rfl
    hlines (by decide +kernel)

theorem twoSpellings_agrees : ∃ files manifest, VerifiedPackage acuteUnicode Json.parse
    (fun _ => emptySha256) twoSpellings files manifest :=
  verified_package_agrees verified_twoSpellings

/-- Both headers of a member name it, but not in the same bytes. -/
theorem verified_names_differ :
    ¬∀ (unicode : UnicodeTexts) (jsonParse : Text → Option Json) (sha256Hex : Bytes → Text)
      (bytes : Bytes), (verifyEvidenceZip unicode jsonParse sha256Hex bytes).verified = true →
        ∀ cursor ∈ memberCursors bytes, localHeaderAt bytes cursor = centralHeaderAt bytes cursor := by
  intro h
  have hheaders := h _ _ _ _ verified_twoSpellings (localParts acuteFiles).length (by decide +kernel)
  exact absurd hheaders (by decide +kernel)

end

end Kommunsign
