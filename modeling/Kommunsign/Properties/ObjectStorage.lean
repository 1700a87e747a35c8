import Mathlib.Data.Set.Function
import Kommunsign.Infra.Run
import Kommunsign.Infra.Transaction
import Kommunsign.Storage.Put

/-!
# A reference that passes the tenant check resolves inside the tenant

* `addressed_under_tenant_iff` — an operation goes to an object of the tenant exactly on these
* `addressed_other_tenant` — a reference that passes the check and names an object of another tenant
* `immutable_put_law` — a run obeys it exactly when the adapter is the S3 adapter or nobody puts what
  is stored already
-/

namespace Kommunsign

open Infra

def UnderTenant (tenantId : RowId) (path : Text) : Prop := tenantPrefix tenantId <+: path

instance (tenantId : RowId) (path : Text) : Decidable (UnderTenant tenantId path) :=
  inferInstanceAs (Decidable (_ <+: _))

/-- A reference that begins with the tenant, or with a bucket and the tenant. -/
def TenantReference (tenantId : RowId) (operation : StorageOperation) (objectKey : Text) : Prop :=
  tenantPrefix tenantId <+: objectKey ∨
    operation ≠ .createUploadGrant ∧
      ∃ bucket rest, objectKey = bucket ++ "://".toList ++ (tenantPrefix tenantId ++ rest) ∧
        isBucketName bucket = true ∧ rest.all (!isLineTerminator ·) = true

/-! ## The prefix of a tenant -/

theorem isHex_slash : isHex '/' = false := by decide

theorem isHex_colon : isHex ':' = false := by decide

theorem slash_not_mem_tenantId (tenantId : RowId) : '/' ∉ tenantId.value.toList := by
  intro h
  rcases isHex_or_hyphen_of_isUuid tenantId.valid '/' h with h | h
  · rw [isHex_slash] at h
    cases h
  · exact absurd h (by decide)

theorem colon_not_mem_tenantId (tenantId : RowId) : ':' ∉ tenantId.value.toList := by
  intro h
  rcases isHex_or_hyphen_of_isUuid tenantId.valid ':' h with h | h
  · rw [isHex_colon] at h
    cases h
  · exact absurd h (by decide)

theorem not_isLineTerminator_of_isHex {c : Char} (h : isHex c = true ∨ c = '-') :
    isLineTerminator c = false := by
  by_contra hc
  rw [Bool.not_eq_false] at hc
  simp only [isLineTerminator, Bool.or_eq_true, beq_iff_eq] at hc
  rcases hc with ((rfl | rfl) | rfl) | rfl <;> revert h <;> decide

theorem tenantPrefix_all (tenantId : RowId) :
    (tenantPrefix tenantId).all (!isLineTerminator ·) = true := by
  rw [tenantPrefix, List.all_append, Bool.and_eq_true]
  refine ⟨List.all_eq_true.mpr fun c hc => ?_, by decide⟩
  rw [not_isLineTerminator_of_isHex (isHex_or_hyphen_of_isUuid tenantId.valid c hc)]
  rfl

/-! ## The segments of a path -/

def firstSegment (path : Text) : Text := path.takeWhile (· != '/')

theorem firstSegment_of_under {tenantId : RowId} {path : Text} (h : UnderTenant tenantId path) :
    firstSegment path = tenantId.value.toList := by
  obtain ⟨rest, rfl⟩ := h
  have hid : ∀ c ∈ tenantId.value.toList, (c != '/') = true := by
    intro c hc
    refine bne_iff_ne.mpr fun h => ?_
    subst h
    exact slash_not_mem_tenantId tenantId hc
  rw [firstSegment, tenantPrefix, List.append_assoc, List.takeWhile_append_of_pos hid]
  simp

/-! ## Which references stay inside -/

theorem explicitBucket_of_startsWith {tenantId : RowId} {objectKey : Text}
    (h : tenantPrefix tenantId <+: objectKey) : explicitBucket objectKey = none := by
  cases hb : explicitBucket objectKey with
  | none => rfl
  | some place =>
    exfalso
    obtain ⟨hkey, hname, -, -⟩ := eq_of_explicitBucket hb
    obtain ⟨rest, hrest⟩ := h
    have hchars : ∀ c ∈ place.bucket, (c != '/') = true := by
      intro c hc
      refine bne_iff_ne.mpr fun h => ?_
      subst h
      simp only [isBucketName, Bool.and_eq_true] at hname
      have hslash := List.all_eq_true.mp hname.1.1.2 _ hc
      rw [isBucketChar_slash] at hslash
      cases hslash
    -- up to the first slash, one reading has a colon and the other has none
    have hleft : firstSegment objectKey = tenantId.value.toList := firstSegment_of_under ⟨rest, hrest⟩
    have hright : firstSegment objectKey = place.bucket ++ [':'] := by
      rw [hkey, firstSegment, List.append_assoc, List.takeWhile_append_of_pos hchars]
      simp
    refine colon_not_mem_tenantId tenantId ?_
    rw [← hleft, hright]
    simp

theorem resolveBucket_under_iff (settings : StorageSettings) (tenantId : RowId) (objectKey : Text) :
    UnderTenant tenantId (resolveBucket settings objectKey).path ↔
      tenantPrefix tenantId <+: objectKey ∨
        ∃ bucket rest, objectKey = bucket ++ "://".toList ++ (tenantPrefix tenantId ++ rest) ∧
          isBucketName bucket = true ∧ rest.all (!isLineTerminator ·) = true := by
  constructor
  · intro h
    cases hb : explicitBucket objectKey with
    | none =>
      rw [resolveBucket_path_of_none hb] at h
      exact .inl h
    | some place =>
      rw [resolveBucket_of_some hb] at h
      obtain ⟨hkey, hname, -, hall⟩ := eq_of_explicitBucket hb
      obtain ⟨rest, hrest⟩ := h
      rw [← hrest] at hkey hall
      rw [List.all_append, Bool.and_eq_true] at hall
      exact .inr ⟨place.bucket, rest, hkey, hname, hall.2⟩
  · rintro (h | ⟨bucket, rest, rfl, hname, hall⟩)
    · rw [resolveBucket_path_of_none (explicitBucket_of_startsWith h)]
      exact h
    · have hpath : tenantPrefix tenantId ++ rest ≠ [] := by simp [tenantPrefix]
      have hline : (tenantPrefix tenantId ++ rest).all (!isLineTerminator ·) = true := by
        rw [List.all_append, tenantPrefix_all, hall, Bool.and_self]
      rw [resolveBucket_of_some (explicitBucket_append hname hpath hline)]
      exact List.prefix_append _ _

/--
An operation of either adapter that gets past the check goes to an object under the prefix of the
tenant exactly when the reference begins with the tenant, or, where the reference is resolved, with
a bucket and the tenant and then has no line terminator.
-/
theorem addressed_under_tenant_iff (adapter : StorageAdapter) (settings : StorageSettings)
    (tenantId : RowId) (operation : StorageOperation) (objectKey : Text) {place : StoragePlace}
    (h : addressed adapter settings tenantId operation objectKey = .ok place) :
    UnderTenant tenantId place.path ↔ TenantReference tenantId operation objectKey := by
  have hresolved (hop : operation ≠ .createUploadGrant)
      (hplace : resolveBucket settings objectKey = place) :
      UnderTenant tenantId place.path ↔ TenantReference tenantId operation objectKey := by
    rw [← hplace, resolveBucket_under_iff]
    simp only [TenantReference, ne_eq, hop, not_false_eq_true, true_and]
  cases operation
  case createUploadGrant =>
    -- the key is taken as it is, whatever it names
    obtain ⟨⟨⟩, -, h⟩ := except_bind_eq_ok.mp h
    obtain rfl := Except.ok.inj h
    simp [TenantReference, UnderTenant]
  all_goals
    obtain ⟨⟨⟩, -, h⟩ := except_bind_eq_ok.mp h
    exact hresolved (by decide) (Except.ok.inj h)

def tenantA : RowId := ⟨"0a6c3a52-8d6f-4c1e-9a53-0f6f2f1f7a01", by decide +kernel⟩

def tenantB : RowId := ⟨"7d0b2f3e-51c4-4b7a-8e0d-93e1b7c4d202", by decide +kernel⟩

theorem addressed_under_tenant_iff_download :
    UnderTenant tenantA (tenantPrefix tenantA ++ "a.pdf".toList) ↔
      TenantReference tenantA .downloadObject
        ("canonical-documents://".toList ++ tenantPrefix tenantA ++ "a.pdf".toList) := by
  have h : addressed .s3 .default tenantA .downloadObject
      ("canonical-documents://".toList ++ tenantPrefix tenantA ++ "a.pdf".toList) =
        .ok ⟨"canonical-documents".toList, tenantPrefix tenantA ++ "a.pdf".toList⟩ := by
    decide +kernel
  exact addressed_under_tenant_iff .s3 .default tenantA .downloadObject _ h

/-- In both adapters the check lets a reference pass that resolves to an object of another tenant. -/
theorem addressed_other_tenant :
    ¬∀ (adapter : StorageAdapter) (settings : StorageSettings) (tenantId : RowId)
      (operation : StorageOperation) (objectKey : Text) (place : StoragePlace),
      addressed adapter settings tenantId operation objectKey = .ok place →
        UnderTenant tenantId place.path := by
  intro h
  have hother := h .s3 .default tenantA .downloadObject
    ("canonical-documents://".toList ++ tenantPrefix tenantB ++ "x://".toList ++
      tenantPrefix tenantA ++ "y".toList)
    ⟨"canonical-documents".toList,
      tenantPrefix tenantB ++ "x://".toList ++ tenantPrefix tenantA ++ "y".toList⟩
    (by decide +kernel)
  revert hother
  decide +kernel

/-!
# The law of immutable puts
-/

def Kept (store store' : ObjectStore) : Prop :=
  ∀ place object, store place = some object → store' place = some object

def PutLaw (adapter : StorageAdapter) (settings : StorageSettings) (service : ObjectService)
    (store : ObjectStore) (action : PutAction) : Prop :=
  ∀ store', storageStep adapter settings service store action = some store' →
    Kept store store' ∧
    match action with
    | .crash _ _ _ _ => True
    | .put tenantId objectKey bytes => ∀ place,
      addressed adapter settings tenantId .putObject objectKey = .ok place →
      let answer := (putObject adapter settings service tenantId objectKey bytes true store).1
      (store place = none → answer.isOk = true ∧ (store' place).map (·.bytes) = some bytes) ∧
      ∀ object, store place = some object → (answer.isOk = true ↔ object.bytes = bytes)

/-- The adapter is the one that compares, or the bytes are not what the key already holds. -/
def NotStoredYet (adapter : StorageAdapter) (settings : StorageSettings) (store : ObjectStore) :
    PutAction → Prop
  | .crash _ _ _ _ => True
  | .put tenantId objectKey bytes => adapter = .s3 ∨ ∀ place object,
      addressed adapter settings tenantId .putObject objectKey = .ok place →
      store place = some object → object.bytes ≠ bytes

/--
What the digests of the bytes in use are taken to be: texts of 64 digits, without a collision, and
what the checksum header of the backend says.
-/
structure DigestsOf (service : ObjectService) (used : Set Bytes) : Prop where
  hex : ∀ bytes ∈ used, isSha256 (service.sha256 bytes) = true
  injOn : Set.InjOn service.sha256 used
  checksum : ∀ bytes ∈ used, ∀ value digest, service.checksum bytes = some value →
    base64ChecksumToHex value = some digest → digest = service.sha256 bytes

section

variable {adapter : StorageAdapter} {settings : StorageSettings} {service : ObjectService}
  {used : Set Bytes}

/-- What the adapter has stored: bytes in use, in the S3 adapter with their digest. -/
def StoredBy (adapter : StorageAdapter) (service : ObjectService) (used : Set Bytes)
    (store : ObjectStore) : Prop :=
  ∀ place object, store place = some object →
    object.bytes ∈ used ∧ (adapter = .s3 → object.metaSha256 = some (service.sha256 object.bytes))

theorem storedBy_empty : StoredBy adapter service used fun _ => none :=
  fun _ _ h => nomatch h

theorem storedDigest_eq (hdigests : DigestsOf service used) {object : StoredObject}
    (hused : object.bytes ∈ used) (hmeta : object.metaSha256 = some (service.sha256 object.bytes)) :
    storedDigest service (some object) = some (service.sha256 object.bytes) := by
  have hhex := hdigests.hex object.bytes hused
  unfold storedDigest
  rw [Option.bind_some, hmeta]
  cases hheader : (service.checksum object.bytes).bind base64ChecksumToHex with
  | none => rw [Option.none_or, Option.filter_some, if_pos hhex]
  | some digest =>
    obtain ⟨value, hvalue, hdigest⟩ := Option.bind_eq_some_iff.mp hheader
    obtain rfl := hdigests.checksum object.bytes hused value digest hvalue hdigest
    rw [Option.some_or, Option.filter_some, if_pos hhex]

theorem putObject_cases (tenantId : RowId) (objectKey : Text) (bytes : Bytes) (store : ObjectStore) :
    (putObject adapter settings service tenantId objectKey bytes true store).2 = store ∨
      ∃ place digest, store place = none ∧ (adapter = .s3 → digest = some (service.sha256 bytes)) ∧
        (putObject adapter settings service tenantId objectKey bytes true store).2 =
          Function.update store place (some ⟨bytes, digest⟩) := by
  cases hplace : addressed adapter settings tenantId .putObject objectKey with
  | error e => exact .inl (putObject_of_refused hplace)
  | ok place =>
    cases hstore : store place with
    | some object => exact .inl (putObject_of_some hplace hstore)
    | none =>
      obtain ⟨result, digest, hput, hdigest⟩ := putObject_of_none hplace hstore
      exact .inr ⟨place, digest, hstore, hdigest, by rw [hput]⟩

theorem kept_putObject (tenantId : RowId) (objectKey : Text) (bytes : Bytes) (store : ObjectStore) :
    Kept store (putObject adapter settings service tenantId objectKey bytes true store).2 := by
  intro place object hobject
  rcases putObject_cases tenantId objectKey bytes store with h | ⟨place', digest, hnone, -, h⟩
  · rw [h]
    exact hobject
  · have hne : place ≠ place' := by
      rintro rfl
      rw [hnone] at hobject
      cases hobject
    rw [h, Function.update_of_ne hne]
    exact hobject

theorem storedBy_putObject {tenantId : RowId} {objectKey : Text} {bytes : Bytes}
    {store : ObjectStore} (hused : bytes ∈ used) (hs : StoredBy adapter service used store) :
    StoredBy adapter service used
      (putObject adapter settings service tenantId objectKey bytes true store).2 := by
  intro place object hobject
  rcases putObject_cases tenantId objectKey bytes store with h | ⟨place', digest, -, hdigest, h⟩
  · rw [h] at hobject
    exact hs place object hobject
  · rw [h] at hobject
    by_cases hplace : place = place'
    · subst hplace
      rw [Function.update_self] at hobject
      cases hobject
      exact ⟨hused, hdigest⟩
    · rw [Function.update_of_ne hplace] at hobject
      exact hs place object hobject

theorem storedBy_step (store : ObjectStore) (action : PutAction) (store' : ObjectStore)
    (hused : action.bytes ∈ used) (hs : StoredBy adapter service used store)
    (h : storageStep adapter settings service store action = some store') :
    StoredBy adapter service used store' := by
  cases action with
  | put tenantId objectKey bytes =>
    cases h
    exact storedBy_putObject hused hs
  | crash tenantId objectKey bytes uploaded =>
    cases uploaded with
    | false =>
      cases h
      exact hs
    | true =>
      cases h
      exact storedBy_putObject hused hs

theorem kept_step {store store' : ObjectStore} {action : PutAction}
    (h : storageStep adapter settings service store action = some store') : Kept store store' := by
  cases action with
  | put tenantId objectKey bytes =>
    cases h
    exact kept_putObject tenantId objectKey bytes store
  | crash tenantId objectKey bytes uploaded =>
    cases uploaded with
    | false =>
      cases h
      exact fun _ _ hobject => hobject
    | true =>
      cases h
      exact kept_putObject tenantId objectKey bytes store

theorem s3_answers (hdigests : DigestsOf service used) {tenantId : RowId} {objectKey : Text}
    {bytes : Bytes} {store : ObjectStore} {place : StoragePlace} {object : StoredObject}
    (hused : bytes ∈ used) (hs : StoredBy .s3 service used store)
    (hplace : addressed .s3 settings tenantId .putObject objectKey = .ok place)
    (hobject : store place = some object) :
    (putObject .s3 settings service tenantId objectKey bytes true store).1.isOk = true ↔
      object.bytes = bytes := by
  obtain ⟨hin, hmeta⟩ := hs place object hobject
  rw [putObject_s3_isOk_iff hplace hobject, storedDigest_eq hdigests hin (hmeta rfl),
    Option.some_inj]
  exact hdigests.injOn.eq_iff hin hused

theorem putLaw_iff (hdigests : DigestsOf service used) (store : ObjectStore) (action : PutAction)
    (store' : ObjectStore) (hused : action.bytes ∈ used)
    (hs : StoredBy adapter service used store)
    (h : storageStep adapter settings service store action = some store') :
    PutLaw adapter settings service store action ↔ NotStoredYet adapter settings store action := by
  cases action with
  | crash tenantId objectKey bytes uploaded =>
    exact iff_of_true (fun _ hstep => ⟨kept_step hstep, trivial⟩) trivial
  | put tenantId objectKey bytes =>
    have hfirst : ∀ place, addressed adapter settings tenantId .putObject objectKey = .ok place →
        store place = none →
        (putObject adapter settings service tenantId objectKey bytes true store).1.isOk = true ∧
          ((putObject adapter settings service tenantId objectKey bytes true store).2 place).map
            (·.bytes) = some bytes := by
      intro place hplace hnone
      obtain ⟨result, digest, hput, -⟩ := putObject_of_none hplace hnone
      rw [hput]
      exact ⟨rfl, by simp⟩
    cases adapter with
    | s3 =>
      refine iff_of_true ?_ (.inl rfl)
      rintro store₁ ⟨⟩
      refine ⟨kept_putObject _ _ _ _, fun place hplace => ⟨hfirst place hplace, ?_⟩⟩
      exact fun object hobject => s3_answers hdigests hused hs hplace hobject
    | supabase =>
      constructor
      · intro hlaw
        refine .inr fun place object hplace hobject hbytes => ?_
        -- the adapter has refused what the law accepts
        have hanswer := ((hlaw _ rfl).2 place hplace).2 object hobject
        rw [putObject_supabase_of_some hplace hobject] at hanswer
        exact nomatch hanswer.mpr hbytes
      · rintro hnot store₁ ⟨⟩
        refine ⟨kept_putObject _ _ _ _, fun place hplace => ⟨hfirst place hplace, ?_⟩⟩
        intro object hobject
        rw [putObject_supabase_of_some hplace hobject]
        refine iff_of_false (by simp [Except.isOk, Except.toBool]) fun hbytes => ?_
        rcases hnot with h | hnot
        · cases h
        · exact hnot place object hplace hobject hbytes

end

/--
Over any sequence of puts, crashes and retries, every step obeys the law exactly when the adapter is
the S3 adapter or no put is of the bytes that its key holds already.
-/
theorem immutable_put_law (adapter : StorageAdapter) (settings : StorageSettings)
    {service : ObjectService} {used : Set Bytes} (hdigests : DigestsOf service used)
    {actions : List PutAction} (hused : ∀ action ∈ actions, action.bytes ∈ used)
    {store : ObjectStore}
    (hr : run (storageStep adapter settings service) (fun _ => none) actions = some store) :
    Meets (storageStep adapter settings service) (PutLaw adapter settings service) (fun _ => none)
        actions ↔
      Meets (storageStep adapter settings service) (NotStoredYet adapter settings) (fun _ => none)
        actions :=
  meets_iff_meets_of_labels storedBy_step (putLaw_iff hdigests) hused storedBy_empty hr

/-- The digests of no bytes and of the letter a; a backend without checksum headers. -/
def twoDigests : ObjectService where
  sha256 bytes :=
    if bytes = [97] then "ca978112ca1bbdcafac231b39a23dc4da786eff8147c4e72b9807785afee48bb".toList
    else "e3b0c44298fc1c149afbf4c8996fb92427ae41e4649b934ca495991b7852b855".toList
  checksum _ := none

theorem twoDigests_digestsOf : DigestsOf twoDigests {[], [97]} where
  hex := by
    rintro bytes (rfl | rfl)
    · decide +kernel
    · decide +kernel
  injOn := by
    rintro a (rfl | rfl) b (rfl | rfl) h
    · rfl
    · exact absurd h (by decide +kernel)
    · exact absurd h (by decide +kernel)
    · rfl
  checksum := fun _ _ _ _ h => nomatch h

def signedKey : Text := "0a6c3a52-8d6f-4c1e-9a53-0f6f2f1f7a01/cases/1/signed/a.pdf".toList

def ownerOfSignedKey : RowId := ⟨"0a6c3a52-8d6f-4c1e-9a53-0f6f2f1f7a01", by decide +kernel⟩

def retriedPuts : List PutAction :=
  [.crash ownerOfSignedKey signedKey [97] true, .put ownerOfSignedKey signedKey [97],
    .put ownerOfSignedKey signedKey []]

theorem retriedPuts_bytes : ∀ action ∈ retriedPuts, action.bytes ∈ ({[], [97]} : Set Bytes) := by
  intro action haction
  simp only [retriedPuts, List.mem_cons, List.not_mem_nil, or_false] at haction
  rcases haction with rfl | rfl | rfl <;> simp [PutAction.bytes]

theorem immutable_put_law_retried :
    Meets (storageStep .s3 .default twoDigests) (PutLaw .s3 .default twoDigests) (fun _ => none)
        retriedPuts ↔
      Meets (storageStep .s3 .default twoDigests) (NotStoredYet .s3 .default) (fun _ => none)
        retriedPuts := by
  obtain ⟨store, hr⟩ : ∃ store,
      run (storageStep .s3 .default twoDigests) (fun _ => none) retriedPuts = some store :=
    ⟨_, rfl⟩
  exact immutable_put_law .s3 .default twoDigests_digestsOf retriedPuts_bytes hr

/-- After a crash behind the upload, the other adapter refuses the retry. -/
theorem supabase_refuses_retry :
    ¬∀ (adapter : StorageAdapter) (settings : StorageSettings) (service : ObjectService)
      (used : Set Bytes) (actions : List PutAction), DigestsOf service used →
      (∀ action ∈ actions, action.bytes ∈ used) →
      Meets (storageStep adapter settings service) (PutLaw adapter settings service)
        (fun _ => none) actions := by
  intro h
  obtain ⟨-, hrest⟩ := h .supabase .default twoDigests {[], [97]} retriedPuts twoDigests_digestsOf
    retriedPuts_bytes
  obtain ⟨hretry, -⟩ := hrest _ rfl
  let place : StoragePlace := ⟨"signed-documents".toList, signedKey⟩
  have hplace : addressed .supabase .default ownerOfSignedKey .putObject signedKey = .ok place := by
    decide +kernel
  have hanswer := ((hretry _ rfl).2 place hplace).2 ⟨[97], none⟩ (by decide +kernel)
  have hok := hanswer.mpr rfl
  revert hok
  decide +kernel

end Kommunsign
