import Kommunsign.Crypto.KeyRing
import Kommunsign.Data.Texts
import Kommunsign.Infra.Bytes

/-!
# The adapter of sensitive data

Texts are stored under AES-GCM. An envelope names in its first byte the version that was active when
it was written, and it is read under that version as long as the ring of the reader allows it.

* `createSensitiveDataAdapter`, `encryptText`, `decryptText` — `aes-gcm-sensitive-data.ts`
* `decryptText_encryptText_iff` — which texts are read back
-/

namespace Kommunsign.SensitiveData

open Infra

abbrev Bytes := List UInt8

/-- What `crypto.subtle.importKey` makes a key of. -/
abbrev Key := {bytes : Bytes // bytes.length = 32}

/-- What `getRandomValues` fills. -/
abbrev Iv := {bytes : Bytes // bytes.length = 12}

/--
AES-GCM, of a key, an initialisation vector, additional data and a text. What is decrypted is what
was encrypted, and nothing with other additional data.
-/
structure AesGcm where
  encrypt : Key → Bytes → Bytes → Bytes → Bytes
  decrypt : Key → Bytes → Bytes → Bytes → Option Bytes
  decrypt_encrypt : ∀ key iv additionalData plaintext,
    decrypt key iv additionalData (encrypt key iv additionalData plaintext) = some plaintext
  decrypt_other : ∀ key iv additionalData plaintext other, other ≠ additionalData →
    decrypt key iv other (encrypt key iv additionalData plaintext) = none
  /-- The ciphertext holds a tag. -/
  encrypt_ne_nil : ∀ key iv additionalData plaintext, encrypt key iv additionalData plaintext ≠ []

/-- What is left to the platform when the configuration is read. -/
structure Platform where
  /-- `Number`, where `Number.isInteger` holds of it. -/
  number : Text → Option Int
  atob : Text → Option Bytes

inductive KeyAlgorithm where
  | aesGcm
  | hmac
  deriving DecidableEq

inductive SensitiveDataError where
  | missing (name : Text)
  | keyBase64Invalid
  | keyLengthInvalid (algorithm : KeyAlgorithm)
  | keyVersionInvalid
  | keyVersionConflict
  | activeKeyMissing
  | activeKeyRetired
  | keyRotation (error : KeyRotationError)
  /-- What the platform throws for a key that is undefined. -/
  | typeError
  | purposeInvalid
  | envelopeInvalid
  | keyVersionNotReadable
  | decryptionFailed
  deriving DecidableEq

/-! ## The configuration -/

/-- The variables of the environment, each once. -/
abbrev Configuration := List (Text × Text)

/-- The trimmed value of a variable, unless it is blank. -/
def Configuration.value (configuration : Configuration) (name : Text) : Option Text :=
  ((configuration.lookup name).map trim).filter (· ≠ [])

def required (configuration : Configuration) (name : Text) : Except SensitiveDataError Text :=
  match configuration.value name with
  | some value => .ok value
  | none => .error (.missing name)

section Load

variable (platform : Platform)

def decodeBase64 (value : Text) : Except SensitiveDataError Bytes :=
  let normalized := (trim value).map fun c => if c = '-' then '+' else if c = '_' then '/' else c
  let padded := normalized.rightpad ((normalized.length + 3) / 4 * 4) '='
  match platform.atob padded with
  | some bytes => .ok bytes
  | none => .error .keyBase64Invalid

def importKey (encoded : Text) (algorithm : KeyAlgorithm) : Except SensitiveDataError Key := do
  let bytes ← decodeBase64 platform encoded
  if h : bytes.length = 32 then return ⟨bytes, h⟩
  else throw (.keyLengthInvalid algorithm)

/-- `Number` of a variable, from 1 on. -/
def positiveNumber (raw : Text) : Except SensitiveDataError ℕ :=
  match platform.number raw with
  | some (.ofNat (version + 1)) => .ok (version + 1)
  | _ => .error .keyVersionInvalid

def versionNumber (configuration : Configuration) (name : Text) (fallback : ℕ) :
    Except SensitiveDataError ℕ :=
  match configuration.value name with
  | none => .ok fallback
  | some raw => do
    let version ← positiveNumber platform raw
    if 255 < version then throw .keyVersionInvalid
    return version

/-- `/^SENSITIVE_DATA_ENCRYPTION_KEY_V(\d+)_BASE64$/` -/
def versionOfName (name : Text) : Option ℕ := do
  let rest ← "SENSITIVE_DATA_ENCRYPTION_KEY_V".toList.isPrefixOf? name
  if rest.takeWhile Char.isDigit = [] ∨ rest.dropWhile Char.isDigit ≠ "_BASE64".toList then none
  return Nat.ofDigitChars 10 (rest.takeWhile Char.isDigit) 0

/-- What one variable adds to the key material. -/
def addMaterial (material : ℕ → Option Text) (entry : Text × Text) :
    Except SensitiveDataError (ℕ → Option Text) :=
  match versionOfName entry.1 with
  | none => return material
  | some version => do
    if trim entry.2 = [] then return material
    if version < 1 ∨ 255 < version then throw .keyVersionInvalid
    if material version ≠ none ∧ material version ≠ some (trim entry.2) then
      throw .keyVersionConflict
    return Function.update material version (some (trim entry.2))

def retiredVersions (configuration : Configuration) : Except SensitiveDataError (List ℕ) :=
  (((((configuration.lookup "SENSITIVE_DATA_RETIRED_KEY_VERSIONS".toList).getD []).splitOn
    ',').map trim).filter (· ≠ [])).mapM (positiveNumber platform)

/-- The versions with key material, none of which is beyond 255, in their order. -/
def ringOf (material : ℕ → Option Text) (activeVersion : ℕ) (retired : List ℕ) : KeyRing where
  purpose := .sensitive_data
  versions := ((List.range 256).filter fun version => (material version).isSome).map fun version =>
    { version
      state := if version = activeVersion then .active
        else if version ∈ retired then .retired else .decrypt_only
      secretReference := if version = 1 then "env://SENSITIVE_DATA_ENCRYPTION_KEY_BASE64"
        else "env://SENSITIVE_DATA_ENCRYPTION_KEY_V" ++ toString version ++ "_BASE64"
      createdAt := "1970-01-01T00:00:00.000Z"
      compromised := false }

def loadEncryptionRing (configuration : Configuration) :
    Except SensitiveDataError (KeyRing × List (ℕ × Key)) := do
  let first ← required configuration "SENSITIVE_DATA_ENCRYPTION_KEY_BASE64".toList
  let material ← configuration.foldlM addMaterial fun version =>
    if version = 1 then some first else none
  let activeVersion ←
    versionNumber platform configuration "SENSITIVE_DATA_ACTIVE_KEY_VERSION".toList 1
  if material activeVersion = none then throw .activeKeyMissing
  let retired ← retiredVersions platform configuration
  if activeVersion ∈ retired then throw .activeKeyRetired
  let ring := ringOf material activeVersion retired
  (assertKeyRingIsSane ring).mapError .keyRotation
  let keys ← ring.versions.mapM fun version => do
    return (version.version,
      ← importKey platform ((material version.version).getD []) .aesGcm)
  return (ring, keys)

/-- What the adapter closes over, the key of the blind index left out. -/
structure Adapter where
  ring : KeyRing
  keys : List (ℕ × Key)
  writeVersion : ℕ
  writeKey : Key

def createSensitiveDataAdapter (configuration : Configuration) :
    Except SensitiveDataError Adapter := do
  let (ring, keys) ← loadEncryptionRing platform configuration
  let active ← (activeKeyVersion ring).mapError .keyRotation
  let blindIndex ← required configuration "SENSITIVE_DATA_BLIND_INDEX_KEY_BASE64".toList
  let _ ← importKey platform blindIndex .hmac
  match keys.lookup active.version with
  | some writeKey => return ⟨ring, keys, active.version, writeKey⟩
  | none => throw .typeError

end Load

/-! ## Encryption and decryption -/

/-- `/^[A-Za-z0-9._:-]{3,100}$/` -/
def isPurpose (purpose : Text) : Bool :=
  decide (3 ≤ purpose.length) && decide (purpose.length ≤ 100) &&
    purpose.all fun c => c.isAlphanum || c ∈ ['.', '_', ':', '-']

section Texts

variable (aes : AesGcm) (adapter : Adapter)

def encryptText (iv : Iv) (value purpose : Text) : Except SensitiveDataError Bytes := do
  if ¬isPurpose purpose then throw .purposeInvalid
  let ciphertext := aes.encrypt adapter.writeKey iv (utf8 purpose) (utf8 value)
  return UInt8.ofNat adapter.writeVersion :: (iv ++ ciphertext)

def decryptText (value : Bytes) (purpose : Text) : Except SensitiveDataError Text := do
  if ¬isPurpose purpose then throw .purposeInvalid
  if value.length ≤ 13 then throw .envelopeInvalid
  let version := (value.headD 0).toNat
  (assertReadableVersion adapter.ring version).mapError fun _ => .keyVersionNotReadable
  let iv := (value.drop 1).take 12
  let ciphertext := value.drop 13
  let plaintext := (adapter.keys.lookup version).bind fun key =>
    aes.decrypt key iv (utf8 purpose) ciphertext
  match plaintext.bind decodeUtf8 with
  | some text => return text
  | none => throw .decryptionFailed

end Texts

/-! ## The rings of a configuration -/

section Rings

variable {platform : Platform} {configuration : Configuration} {adapter : Adapter}
  {material : ℕ → Option Text} {activeVersion version : ℕ} {retired : List ℕ}

theorem mem_versions_ringOf {v : KeyVersion}
    (h : v ∈ (ringOf material activeVersion retired).versions) : v.version < 256 := by
  obtain ⟨version, hmem, rfl⟩ := List.mem_map.mp h
  exact List.mem_range.mp (List.mem_filter.mp hmem).1

theorem distinct_ringOf : (ringOf material activeVersion retired).Distinct := by
  unfold KeyRing.Distinct ringOf
  rw [List.map_map]
  exact (List.nodup_range.filter _).map Function.injective_id

theorem readable_ringOf (hactive : activeVersion ∉ retired) :
    (ringOf material activeVersion retired).Readable version ↔
      version < 256 ∧ (material version).isSome ∧ version ∉ retired := by
  constructor
  · rintro ⟨state, hstate, hreadable⟩
    obtain ⟨v, hv, rfl, rfl⟩ := exists_of_state? hstate
    obtain ⟨version, hmem, rfl⟩ := List.mem_map.mp hv
    obtain ⟨hrange, hmaterial⟩ := List.mem_filter.mp hmem
    refine ⟨List.mem_range.mp hrange, hmaterial, fun hretired => ?_⟩
    have hne : version ≠ activeVersion := fun h => hactive (h ▸ hretired)
    simp [hne, hretired, KeyVersionState.isReadable] at hreadable
  · rintro ⟨hlt, hmaterial, hretired⟩
    have hmem : version ∈ (List.range 256).filter fun version => (material version).isSome :=
      List.mem_filter.mpr ⟨List.mem_range.mpr hlt, hmaterial⟩
    refine ⟨_, state?_of_mem distinct_ringOf (List.mem_map.mpr ⟨version, hmem, rfl⟩), ?_⟩
    dsimp only
    rw [if_neg hretired]
    split <;> rfl

theorem loadEncryptionRing_eq_ok {ring : KeyRing} {keys : List (ℕ × Key)}
    (h : loadEncryptionRing platform configuration = .ok (ring, keys)) :
    ∃ material activeVersion retired, activeVersion ∉ retired ∧
      ring = ringOf material activeVersion retired := by
  obtain ⟨first, -, h⟩ := except_bind_eq_ok.mp h
  obtain ⟨material, -, h⟩ := except_bind_eq_ok.mp h
  obtain ⟨activeVersion, -, h⟩ := except_bind_eq_ok.mp h
  obtain ⟨-, h⟩ := except_guard_eq_ok.mp h
  obtain ⟨retired, -, h⟩ := except_bind_eq_ok.mp h
  obtain ⟨hactive, h⟩ := except_guard_eq_ok.mp h
  obtain ⟨_, -, h⟩ := except_bind_eq_ok.mp h
  obtain ⟨keys, -, h⟩ := except_bind_eq_ok.mp h
  exact ⟨material, activeVersion, retired, hactive, (Prod.mk.inj (Except.ok.inj h)).1.symm⟩

theorem createSensitiveDataAdapter_spec
    (h : createSensitiveDataAdapter platform configuration = .ok adapter) :
    adapter.writeVersion < 256 ∧ adapter.ring.Readable adapter.writeVersion ∧
      adapter.keys.lookup adapter.writeVersion = some adapter.writeKey := by
  obtain ⟨⟨ring, keys⟩, hload, h⟩ := except_bind_eq_ok.mp h
  obtain ⟨active, hactive, h⟩ := except_bind_eq_ok.mp h
  obtain ⟨_, -, h⟩ := except_bind_eq_ok.mp h
  obtain ⟨_, -, h⟩ := except_bind_eq_ok.mp h
  obtain ⟨-, hone⟩ := activeKeyVersion_eq_ok (except_mapError_eq_ok.mp hactive)
  obtain ⟨material, activeVersion, retired, -, rfl⟩ := loadEncryptionRing_eq_ok hload
  obtain ⟨v, hv, hversion, -⟩ := hone.exists_mem
  cases hkey : keys.lookup active.version with
  | none =>
    rw [hkey] at h
    exact nomatch h
  | some writeKey =>
    rw [hkey] at h
    obtain rfl := Except.ok.inj h
    exact ⟨hversion ▸ mem_versions_ringOf hv, ⟨.active, (hone _).mpr rfl, rfl⟩, hkey⟩

end Rings

/-! ## What comes back -/

section Envelope

variable {aes : AesGcm} {writer reader : Adapter} {iv : Iv} {text purpose other : Text}

/-- What `encryptText` writes. -/
def envelope (aes : AesGcm) (writer : Adapter) (iv : Iv) (text purpose : Text) : Bytes :=
  UInt8.ofNat writer.writeVersion ::
    (iv ++ aes.encrypt writer.writeKey iv (utf8 purpose) (utf8 text))

theorem encryptText_eq (hpurpose : isPurpose purpose = true) :
    encryptText aes writer iv text purpose = .ok (envelope aes writer iv text purpose) := by
  unfold encryptText
  rw [if_neg (not_not.mpr hpurpose)]
  rfl

theorem decryptText_envelope (hversion : writer.writeVersion < 256)
    (hother : isPurpose other = true) :
    decryptText aes reader (envelope aes writer iv text purpose) other =
      match assertReadableVersion reader.ring writer.writeVersion with
      | .error _ => .error .keyVersionNotReadable
      | .ok () =>
        match ((reader.keys.lookup writer.writeVersion).bind fun key =>
          aes.decrypt key iv (utf8 other)
            (aes.encrypt writer.writeKey iv (utf8 purpose) (utf8 text))).bind decodeUtf8 with
        | some text => .ok text
        | none => .error .decryptionFailed := by
  have hbyte : (UInt8.ofNat writer.writeVersion).toNat = writer.writeVersion :=
    UInt8.toNat_ofNat_of_lt' hversion
  have hpos := List.length_pos_of_ne_nil
    (aes.encrypt_ne_nil writer.writeKey iv (utf8 purpose) (utf8 text))
  have hiv := iv.property
  have hlength : ¬(envelope aes writer iv text purpose).length ≤ 13 := by
    simp only [envelope, List.length_cons, List.length_append]
    omega
  have htake : ((envelope aes writer iv text purpose).drop 1).take 12 = iv :=
    List.take_left' hiv
  have hdrop : (envelope aes writer iv text purpose).drop 13 = _ := List.drop_left' hiv
  unfold decryptText
  rw [if_neg (not_not.mpr hother), if_neg hlength, htake, hdrop]
  simp only [envelope, List.headD_cons, hbyte]
  cases assertReadableVersion reader.ring writer.writeVersion with
  | error e => rfl
  | ok u => rfl

end Envelope

/-! ## The round trip -/

/--
What the writer stores of the text comes back from the reader, and neither from it under another
purpose nor from an adapter in whose ring the version is retired or unknown.
-/
def Preserved (aes : AesGcm) (writer reader : Adapter) (iv : Iv) (text purpose : Text) : Prop :=
  ∃ stored, encryptText aes writer iv text purpose = .ok stored ∧
    decryptText aes reader stored purpose = .ok text ∧
    (∀ other, other ≠ purpose → ∃ error, decryptText aes reader stored other = .error error) ∧
    ∀ adapter : Adapter, ¬adapter.ring.Readable writer.writeVersion →
      decryptText aes adapter stored purpose = .error .keyVersionNotReadable

section RoundTrip

variable {aes : AesGcm} {writer reader : Adapter} {iv : Iv} {text purpose other : Text}

theorem dropByteOrderMark_eq_self : dropByteOrderMark text = text ↔ text.head? ≠ some '\uFEFF' := by
  constructor
  · rintro h hhead
    obtain ⟨rest, rfl⟩ := List.head?_eq_some_iff.mp hhead
    have hlength := congrArg List.length h
    simp [dropByteOrderMark] at hlength
  · intro hhead
    unfold dropByteOrderMark
    split
    · exact absurd rfl hhead
    · rfl

theorem decryptText_same (hversion : writer.writeVersion < 256)
    (hreadable : reader.ring.Readable writer.writeVersion)
    (hkey : reader.keys.lookup writer.writeVersion = some writer.writeKey)
    (hpurpose : isPurpose purpose = true) :
    decryptText aes reader (envelope aes writer iv text purpose) purpose =
      .ok (dropByteOrderMark text) := by
  rw [decryptText_envelope hversion hpurpose, readable_iff.mpr hreadable, hkey, Option.bind_some,
    aes.decrypt_encrypt, Option.bind_some, decodeUtf8_utf8]

theorem decryptText_other (hversion : writer.writeVersion < 256)
    (hkey : reader.keys.lookup writer.writeVersion = some writer.writeKey)
    (hother : other ≠ purpose) :
    ∃ error, decryptText aes reader (envelope aes writer iv text purpose) other = .error error := by
  by_cases hpurpose : isPurpose other = true
  · rw [decryptText_envelope hversion hpurpose, hkey, Option.bind_some,
      aes.decrypt_other _ _ _ _ _ (utf8_injective.ne hother)]
    cases assertReadableVersion reader.ring writer.writeVersion <;> exact ⟨_, rfl⟩
  · unfold decryptText
    rw [if_pos hpurpose]
    exact ⟨_, rfl⟩

theorem decryptText_unreadable (hversion : writer.writeVersion < 256)
    (hunreadable : ¬reader.ring.Readable writer.writeVersion)
    (hpurpose : isPurpose purpose = true) :
    decryptText aes reader (envelope aes writer iv text purpose) purpose =
      .error .keyVersionNotReadable := by
  rw [decryptText_envelope hversion hpurpose]
  cases h : assertReadableVersion reader.ring writer.writeVersion with
  | error e => rfl
  | ok u => exact absurd (readable_iff.mp h) hunreadable

theorem preserved_iff (hversion : writer.writeVersion < 256)
    (hreadable : reader.ring.Readable writer.writeVersion)
    (hkey : reader.keys.lookup writer.writeVersion = some writer.writeKey)
    (hpurpose : isPurpose purpose = true) :
    Preserved aes writer reader iv text purpose ↔ dropByteOrderMark text = text := by
  have hsame : decryptText aes reader (envelope aes writer iv text purpose) purpose = _ :=
    decryptText_same hversion hreadable hkey hpurpose
  constructor
  · rintro ⟨stored, hstored, hread, -⟩
    obtain rfl := Except.ok.inj ((encryptText_eq hpurpose).symm.trans hstored)
    exact Except.ok.inj (hsame.symm.trans hread)
  · intro htext
    exact ⟨_, encryptText_eq hpurpose, hsame.trans (congrArg _ htext),
      fun other hother => decryptText_other hversion hkey hother,
      fun adapter hadapter => decryptText_unreadable hversion hadapter hpurpose⟩

/--
For every purpose that the adapter takes and every reader that reads the version of the writer, by
the same key, a text is preserved unless it begins with a byte order mark.
-/
theorem decryptText_encryptText_iff {platform : Platform} {configuration : Configuration}
    (hwriter : createSensitiveDataAdapter platform configuration = .ok writer)
    (hreadable : reader.ring.Readable writer.writeVersion)
    (hkey : reader.keys.lookup writer.writeVersion = writer.keys.lookup writer.writeVersion)
    (hpurpose : isPurpose purpose = true) :
    Preserved aes writer reader iv text purpose ↔ text.head? ≠ some '\uFEFF' := by
  obtain ⟨hversion, -, hown⟩ := createSensitiveDataAdapter_spec hwriter
  rw [preserved_iff hversion hreadable (hkey.trans hown) hpurpose, dropByteOrderMark_eq_self]

end RoundTrip

/-! ## A text that begins with a byte order mark -/

/-- Every byte of the additional data stands marked in front of the text. -/
def sealWith : Bytes → Bytes → Bytes
  | [], plaintext => 0 :: plaintext
  | a :: additionalData, plaintext => 1 :: a :: sealWith additionalData plaintext

def openWith : Bytes → Bytes → Option Bytes
  | [], b :: plaintext => if b = 0 then some plaintext else none
  | a :: additionalData, b :: c :: sealed =>
    if b = 1 ∧ a = c then openWith additionalData sealed else none
  | _, _ => none

theorem openWith_sealWith (plaintext : Bytes) : ∀ additionalData : Bytes,
    openWith additionalData (sealWith additionalData plaintext) = some plaintext
  | [] => rfl
  | a :: additionalData => by
    rw [sealWith, openWith, if_pos ⟨rfl, rfl⟩, openWith_sealWith plaintext additionalData]

theorem openWith_other (plaintext : Bytes) : ∀ additionalData other : Bytes,
    other ≠ additionalData → openWith other (sealWith additionalData plaintext) = none
  | [], [], h => absurd rfl h
  | [], b :: other, _ => by
    cases plaintext with
    | nil => rfl
    | cons c plaintext => exact if_neg fun h => absurd h.1 (by decide)
  | a :: additionalData, [], _ => rfl
  | a :: additionalData, b :: other, h => by
    rw [sealWith, openWith]
    split
    · next hab =>
      refine openWith_other plaintext additionalData other fun hrest => h ?_
      rw [hab.2, hrest]
    · rfl

def taggingAesGcm : AesGcm where
  encrypt _ _ := sealWith
  decrypt _ _ := openWith
  decrypt_encrypt _ _ additionalData plaintext := openWith_sealWith plaintext additionalData
  decrypt_other _ _ additionalData plaintext other := openWith_other plaintext additionalData other
  encrypt_ne_nil _ _ additionalData plaintext := by
    cases additionalData <;> exact List.cons_ne_nil _ _

/-- The keys of the configuration below are 32 zeros. -/
def zeroPlatform : Platform where
  number _ := none
  atob _ := some (List.replicate 32 0)

def zeroConfiguration : Configuration :=
  [("SENSITIVE_DATA_ENCRYPTION_KEY_BASE64".toList, List.replicate 43 'A' ++ ['=']),
    ("SENSITIVE_DATA_BLIND_INDEX_KEY_BASE64".toList, List.replicate 43 'A' ++ ['='])]

theorem exists_zeroAdapter :
    ∃ adapter, createSensitiveDataAdapter zeroPlatform zeroConfiguration = .ok adapter := by
  have hsome : (createSensitiveDataAdapter zeroPlatform zeroConfiguration).toOption.isSome := by
    decide +kernel
  obtain ⟨adapter, hadapter⟩ := Option.isSome_iff_exists.mp hsome
  exact ⟨adapter, toOption_eq_some.mp hadapter⟩

def zeroIv : Iv := ⟨List.replicate 12 0, rfl⟩

/-- The mark in front of the text is lost. -/
theorem not_preserved_byteOrderMark : ∃ adapter,
    createSensitiveDataAdapter zeroPlatform zeroConfiguration = .ok adapter ∧
      ¬Preserved taggingAesGcm adapter adapter zeroIv ['\uFEFF', 'a']
        ['n', 'a', 'm', 'e'] := by
  obtain ⟨adapter, hadapter⟩ := exists_zeroAdapter
  obtain ⟨hversion, hreadable, hkey⟩ := createSensitiveDataAdapter_spec hadapter
  refine ⟨adapter, hadapter, ?_⟩
  rw [preserved_iff hversion hreadable hkey (by decide)]
  decide

theorem decryptText_encryptText_name : ∃ adapter,
    createSensitiveDataAdapter zeroPlatform zeroConfiguration = .ok adapter ∧
      (Preserved taggingAesGcm adapter adapter zeroIv ['a'] ['n', 'a', 'm', 'e'] ↔
        ['a'].head? ≠ some '\uFEFF') := by
  obtain ⟨adapter, hadapter⟩ := exists_zeroAdapter
  exact ⟨adapter, hadapter, decryptText_encryptText_iff hadapter
    (createSensitiveDataAdapter_spec hadapter).2.1 rfl (by decide)⟩

end Kommunsign.SensitiveData
