import Mathlib.Data.List.Infix
import Mathlib.Logic.Function.Basic
import Kommunsign.Api.EvidencePayload
import Kommunsign.Data.Contracts
import Kommunsign.Data.Texts
import Kommunsign.Infra.Json

/-!
# The storage adapters

Both adapters check a reference against the tenant of the caller and then resolve it, on their own,
to a bucket and a path.

* `assertTenantObject` — the check, with the characters that each adapter refuses
* `explicitBucket` — the pattern of a reference that names its bucket
* `resolveBucket` — the bucket and the path of a reference
-/

namespace Kommunsign

open Infra

inductive StorageAdapter where
  | s3
  | supabase
  deriving DecidableEq

inductive StorageOperation where
  | createUploadGrant
  | headObject
  | downloadObject
  | putObject
  | deleteObject
  deriving DecidableEq

inductive StorageError where
  | STORAGE_OBJECT_TENANT_MISMATCH
  | STORAGE_OBJECT_KEY_INVALID
  | STORAGE_OBJECT_ALREADY_EXISTS
  | STORAGE_UPLOAD_FAILED
  deriving DecidableEq

/-- The buckets an adapter is configured with. -/
structure StorageSettings where
  applicationQuarantineBucket : Text
  documentQuarantineBucket : Text
  canonicalDocumentsBucket : Text
  signedDocumentsBucket : Text
  validationReportsBucket : Text
  evidencePackagesBucket : Text

/-- The names that both adapters fall back to. -/
def StorageSettings.default : StorageSettings where
  applicationQuarantineBucket := "application-quarantine".toList
  documentQuarantineBucket := "document-quarantine".toList
  canonicalDocumentsBucket := "canonical-documents".toList
  signedDocumentsBucket := "signed-documents".toList
  validationReportsBucket := "validation-reports".toList
  evidencePackagesBucket := "evidence-packages".toList

/-- What `resolveBucket` returns. -/
structure StoragePlace where
  bucket : Text
  path : Text
  deriving DecidableEq

/-- `String.prototype.includes` -/
def includes (s part : Text) : Bool := decide (part <:+: s)

/-- `String.prototype.startsWith` -/
def startsWith (s start : Text) : Bool := start.isPrefixOf s

/-! ## The check -/

/-- The characters of a key that `assertTenantObject` refuses. -/
def StorageAdapter.refuses : StorageAdapter → Char → Bool
  | .s3, c => decide (c.toNat ≤ 0x1f) || c == '\x7f' || c == ' '
  | .supabase, c => c == '\x00'

/-- How the keys of a tenant begin. -/
def tenantPrefix (tenantId : RowId) : Text := tenantId.value.toList ++ ['/']

def assertTenantObject (adapter : StorageAdapter) (tenantId : RowId) (objectKey : Text) :
    Except StorageError Unit :=
  if !startsWith objectKey (tenantPrefix tenantId) &&
      !includes objectKey ("://".toList ++ tenantPrefix tenantId) then
    .error .STORAGE_OBJECT_TENANT_MISMATCH
  else if includes objectKey "..".toList || includes objectKey ['\\'] ||
      objectKey.any adapter.refuses then
    .error .STORAGE_OBJECT_KEY_INVALID
  else .ok ()

/-! ## The path -/

/-- `[a-z0-9]` -/
def isBucketEnd (c : Char) : Bool := ('a' ≤ c && c ≤ 'z') || ('0' ≤ c && c ≤ '9')

/-- `[a-z0-9-]` -/
def isBucketChar (c : Char) : Bool := isBucketEnd c || c == '-'

/-- `^[a-z0-9][a-z0-9-]{1,61}[a-z0-9]$` -/
def isBucketName (bucket : Text) : Bool :=
  3 ≤ bucket.length && bucket.length ≤ 63 && bucket.all isBucketChar &&
    bucket.head?.any isBucketEnd && bucket.getLast?.any isBucketEnd

/-- The characters that a full stop of a pattern leaves out. -/
def isLineTerminator (c : Char) : Bool :=
  c == '\n' || c == '\r' || c == '\u2028' || c == '\u2029'

/--
The two groups of `^([a-z0-9][a-z0-9-]{1,61}[a-z0-9]):\/\/(.+)$`. A colon is no character of the
first group, so that the group is all that stands before the first character of another kind.
-/
def explicitBucket (objectKey : Text) : Option StoragePlace :=
  let bucket := objectKey.takeWhile isBucketChar
  let rest := objectKey.dropWhile isBucketChar
  if startsWith rest "://".toList then
    let path := rest.drop 3
    if isBucketName bucket && path != [] && path.all (!isLineTerminator ·) then
      some { bucket, path }
    else none
  else none

def resolveBucket (settings : StorageSettings) (objectKey : Text) : StoragePlace :=
  match explicitBucket objectKey with
  | some place => place
  | none =>
    if includes objectKey "/signed/".toList then ⟨settings.signedDocumentsBucket, objectKey⟩
    else if includes objectKey "/validation/".toList then
      ⟨settings.validationReportsBucket, objectKey⟩
    else if includes objectKey "/evidence/".toList then
      ⟨settings.evidencePackagesBucket, objectKey⟩
    else if includes objectKey "/canonical/".toList then
      ⟨settings.canonicalDocumentsBucket, objectKey⟩
    else if includes objectKey "/application-quarantine/".toList then
      ⟨settings.applicationQuarantineBucket, objectKey⟩
    else ⟨settings.documentQuarantineBucket, objectKey⟩

/-- The object that an operation of an adapter reads, writes or deletes. -/
def addressed (adapter : StorageAdapter) (settings : StorageSettings) (tenantId : RowId) :
    StorageOperation → Text → Except StorageError StoragePlace
  -- an upload grant takes the key as it is
  | .createUploadGrant, objectKey => do
    assertTenantObject adapter tenantId objectKey
    return ⟨settings.documentQuarantineBucket, objectKey⟩
  | _, objectKey => do
    assertTenantObject adapter tenantId objectKey
    return resolveBucket settings objectKey

/-! ## What the pattern accepts -/

theorem isBucketChar_colon : isBucketChar ':' = false := by decide

theorem isBucketChar_slash : isBucketChar '/' = false := by decide

theorem explicitBucket_append {bucket path : Text} (hb : isBucketName bucket = true)
    (hp : path ≠ []) (hl : path.all (!isLineTerminator ·) = true) :
    explicitBucket (bucket ++ "://".toList ++ path) = some ⟨bucket, path⟩ := by
  have hall : ∀ c ∈ bucket, isBucketChar c = true := by
    simp only [isBucketName, Bool.and_eq_true] at hb
    exact List.all_eq_true.mp hb.1.1.2
  have htake : (bucket ++ "://".toList ++ path).takeWhile isBucketChar = bucket := by
    rw [List.append_assoc, List.takeWhile_append_of_pos hall]
    simp [isBucketChar_colon]
  have hdrop : (bucket ++ "://".toList ++ path).dropWhile isBucketChar = "://".toList ++ path := by
    rw [List.append_assoc, List.dropWhile_append_of_pos hall]
    simp [isBucketChar_colon]
  have hstart : startsWith ("://".toList ++ path) "://".toList = true := by
    rw [startsWith, List.isPrefixOf_iff_prefix]
    exact List.prefix_append _ _
  unfold explicitBucket
  dsimp only
  rw [htake, hdrop, if_pos hstart]
  have hpath : ("://".toList ++ path).drop 3 = path := rfl
  rw [hpath, if_pos (by simp only [hb, hl, bne_iff_ne.mpr hp, Bool.and_self])]

theorem eq_of_explicitBucket {objectKey : Text} {place : StoragePlace}
    (h : explicitBucket objectKey = some place) :
    objectKey = place.bucket ++ "://".toList ++ place.path ∧ isBucketName place.bucket = true ∧
      place.path ≠ [] ∧ place.path.all (!isLineTerminator ·) = true := by
  unfold explicitBucket at h
  dsimp only at h
  split at h
  · rename_i hstart
    split at h
    · rename_i hgroups
      obtain rfl := Option.some.inj h
      simp only [Bool.and_eq_true, bne_iff_ne, ne_eq] at hgroups
      refine ⟨?_, hgroups.1.1, hgroups.1.2, hgroups.2⟩
      -- the reference is what was taken, the mark and what was left
      obtain ⟨path, hpath⟩ := List.isPrefixOf_iff_prefix.mp hstart
      have hdrop : (objectKey.dropWhile isBucketChar).drop 3 = path := by
        rw [← hpath]
        simp
      rw [hdrop, List.append_assoc, hpath, List.takeWhile_append_dropWhile]
    · cases h
  · cases h

theorem resolveBucket_path_of_none {settings : StorageSettings} {objectKey : Text}
    (h : explicitBucket objectKey = none) : (resolveBucket settings objectKey).path = objectKey := by
  unfold resolveBucket
  rw [h]
  dsimp only
  repeat' split
  all_goals rfl

theorem resolveBucket_of_some {settings : StorageSettings} {objectKey : Text}
    {place : StoragePlace} (h : explicitBucket objectKey = some place) :
    resolveBucket settings objectKey = place := by
  unfold resolveBucket
  rw [h]

/-!
# `putObject` of the storage adapters

The service behind an adapter keeps objects by bucket and path, and refuses to write over one where
it is asked to. The S3 adapter then compares digests; the other one reports the refusal.
-/

abbrev Bytes := List UInt8

/-- What the services compute of bytes: the digest, and the checksum header of an object. -/
structure ObjectService where
  /-- `sha256Hex` -/
  sha256 : Bytes → Text
  /-- `x-amz-checksum-sha256` of a `HEAD`, where the backend sends it. -/
  checksum : Bytes → Option Text

structure StoredObject where
  bytes : Bytes
  /-- `x-amz-meta-sha256` -/
  metaSha256 : Option Text
  deriving DecidableEq

abbrev ObjectStore := StoragePlace → Option StoredObject

/-- The value of a character of `[A-Za-z0-9+/]`. -/
def base64Value (c : Char) : Option Nat :=
  if 'A' ≤ c ∧ c ≤ 'Z' then some (c.toNat - 'A'.toNat)
  else if 'a' ≤ c ∧ c ≤ 'z' then some (c.toNat - 'a'.toNat + 26)
  else if '0' ≤ c ∧ c ≤ '9' then some (c.toNat - '0'.toNat + 52)
  else if c = '+' then some 62
  else if c = '/' then some 63
  else none

/-- `/^[A-Za-z0-9+/]{43}=$/`, and the bytes of it: two bits of the last character are left over. -/
def base64ChecksumToHex (value : Text) : Option Text :=
  if value.length = 44 ∧ value.getLast? = some '=' then
    ((value.take 43).mapM base64Value).map fun values =>
      digits 16 64 (values.foldl (fun n v => n * 64 + v) 0 / 4)
  else none

/-- The digest of what is already stored, if it can be established. -/
def storedDigest (service : ObjectService) (object : Option StoredObject) : Option Text :=
  object.bind fun object =>
    (((service.checksum object.bytes).bind base64ChecksumToHex).or object.metaSha256).filter isSha256

structure PutResult where
  byteSize : Nat
  sha256 : Option Text
  deriving DecidableEq

/-- `if-none-match: *`, and a comparison of digests on 412. -/
def s3Put (service : ObjectService) (place : StoragePlace) (bytes : Bytes) (immutable : Bool)
    (store : ObjectStore) : Except StorageError PutResult × ObjectStore :=
  let digest := service.sha256 bytes
  if immutable && (store place).isSome then
    if storedDigest service (store place) = some digest then
      (.ok ⟨bytes.length, some digest⟩, store)
    else (.error .STORAGE_OBJECT_ALREADY_EXISTS, store)
  else
    (.ok ⟨bytes.length, some digest⟩, Function.update store place (some ⟨bytes, some digest⟩))

/-- `x-upsert: false`, and an error for every answer that is not a success. -/
def supabasePut (place : StoragePlace) (bytes : Bytes) (immutable : Bool) (store : ObjectStore) :
    Except StorageError PutResult × ObjectStore :=
  if immutable && (store place).isSome then (.error .STORAGE_UPLOAD_FAILED, store)
  else (.ok ⟨bytes.length, none⟩, Function.update store place (some ⟨bytes, none⟩))

def putObject (adapter : StorageAdapter) (settings : StorageSettings) (service : ObjectService)
    (tenantId : RowId) (objectKey : Text) (bytes : Bytes) (immutable : Bool)
    (store : ObjectStore) : Except StorageError PutResult × ObjectStore :=
  match addressed adapter settings tenantId .putObject objectKey with
  | .error e => (.error e, store)
  | .ok place =>
    match adapter with
    | .s3 => s3Put service place bytes immutable store
    | .supabase => supabasePut place bytes immutable store

inductive PutAction where
  | put (tenantId : RowId) (objectKey : Text) (bytes : Bytes)
  /-- The caller never sees the answer; the service may have stored the object. -/
  | crash (tenantId : RowId) (objectKey : Text) (bytes : Bytes) (uploaded : Bool)

def PutAction.bytes : PutAction → Bytes
  | .put _ _ bytes => bytes
  | .crash _ _ bytes _ => bytes

def storageStep (adapter : StorageAdapter) (settings : StorageSettings) (service : ObjectService)
    (store : ObjectStore) : PutAction → Option ObjectStore
  | .put tenantId objectKey bytes =>
    some (putObject adapter settings service tenantId objectKey bytes true store).2
  | .crash tenantId objectKey bytes uploaded =>
    if uploaded then
      some (putObject adapter settings service tenantId objectKey bytes true store).2
    else some store

/-! ## What an immutable put leaves -/

section

variable {settings : StorageSettings} {service : ObjectService} {tenantId : RowId}
  {objectKey : Text} {bytes : Bytes} {store : ObjectStore} {place : StoragePlace}

theorem putObject_of_refused {adapter : StorageAdapter} {e : StorageError}
    (h : addressed adapter settings tenantId .putObject objectKey = .error e) :
    (putObject adapter settings service tenantId objectKey bytes true store).2 = store := by
  unfold putObject
  rw [h]

theorem putObject_of_none {adapter : StorageAdapter}
    (h : addressed adapter settings tenantId .putObject objectKey = .ok place)
    (hnone : store place = none) : ∃ result digest,
      putObject adapter settings service tenantId objectKey bytes true store =
        (.ok result, Function.update store place (some ⟨bytes, digest⟩)) ∧
      (adapter = .s3 → digest = some (service.sha256 bytes)) := by
  unfold putObject
  rw [h]
  cases adapter with
  | s3 =>
    refine ⟨⟨bytes.length, some (service.sha256 bytes)⟩, some (service.sha256 bytes), ?_,
      fun _ => rfl⟩
    simp [s3Put, hnone]
  | supabase =>
    refine ⟨⟨bytes.length, none⟩, none, ?_, fun h => nomatch h⟩
    simp [supabasePut, hnone]

theorem putObject_of_some {adapter : StorageAdapter} {object : StoredObject}
    (h : addressed adapter settings tenantId .putObject objectKey = .ok place)
    (hsome : store place = some object) :
    (putObject adapter settings service tenantId objectKey bytes true store).2 = store := by
  unfold putObject
  rw [h]
  cases adapter with
  | s3 =>
    simp only [s3Put, hsome, Option.isSome_some, Bool.and_self, if_true]
    split
    · rfl
    · rfl
  | supabase => simp [supabasePut, hsome]

theorem putObject_supabase_of_some {object : StoredObject}
    (h : addressed .supabase settings tenantId .putObject objectKey = .ok place)
    (hsome : store place = some object) :
    (putObject .supabase settings service tenantId objectKey bytes true store).1 =
      .error .STORAGE_UPLOAD_FAILED := by
  unfold putObject
  rw [h]
  simp [supabasePut, hsome]

theorem putObject_s3_isOk_iff {object : StoredObject}
    (h : addressed .s3 settings tenantId .putObject objectKey = .ok place)
    (hsome : store place = some object) :
    (putObject .s3 settings service tenantId objectKey bytes true store).1.isOk = true ↔
      storedDigest service (some object) = some (service.sha256 bytes) := by
  unfold putObject
  rw [h]
  simp only [s3Put, hsome, Option.isSome_some, Bool.and_self, if_true]
  split
  · rename_i hdigest
    exact iff_of_true rfl hdigest
  · rename_i hdigest
    exact iff_of_false (by simp [Except.isOk, Except.toBool]) hdigest

end

end Kommunsign
