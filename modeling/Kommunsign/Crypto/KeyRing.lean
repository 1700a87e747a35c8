import Kommunsign.Infra.Table

/-!
# Key rings and their rotation

A key ring holds the versions of a key. New ciphertext is written under the active version, and a
ciphertext is read under the version that its envelope names.

* `assertKeyRingIsSane`, `activeKeyVersion`, `assertReadableVersion` — the rules of a ring
* `beginDualRead`, `retireOldVersion`, `rollbackRotation` — the operations of a rotation
-/

namespace Kommunsign

open Infra

inductive KeyRotationErrorCode where
  | KEY_VERSION_UNKNOWN
  | KEY_VERSION_RETIRED
  | KEY_NO_ACTIVE_VERSION
  | KEY_MULTIPLE_ACTIVE_VERSIONS
  | KEY_ROTATION_INCOMPLETE
  | KEY_ROTATION_NOT_VERIFIED
  | KEY_STATE_INVALID
  deriving DecidableEq

structure KeyRotationError where
  code : KeyRotationErrorCode
  message : String
  deriving DecidableEq

inductive KeyVersionState where
  | pending | active | decrypt_only | retired
  deriving DecidableEq

structure KeyVersion where
  version : Nat
  state : KeyVersionState
  secretReference : String
  createdAt : String
  /-- The key material is known to have leaked. -/
  compromised : Bool
  deriving DecidableEq

inductive KeyPurpose where
  | sensitive_data | blind_index
  deriving DecidableEq

structure KeyRing where
  purpose : KeyPurpose
  versions : List KeyVersion
  deriving DecidableEq

/-- What a rotation reports about itself. -/
structure RotationProgress where
  fromVersion : Nat
  toVersion : Nat
  totalRows : Nat
  reencryptedRows : Nat
  verifiedRows : Nat
  failedRows : Nat
  deriving DecidableEq

/-! ## The rules of a ring -/

def assertKeyRingIsSane (ring : KeyRing) : Except KeyRotationError Unit := do
  if ring.versions.length = 0 then
    throw ⟨.KEY_NO_ACTIVE_VERSION, "A key ring must contain at least one version"⟩
  let active := ring.versions.filter fun version => version.state == .active
  if active.length = 0 then
    throw ⟨.KEY_NO_ACTIVE_VERSION, "A key ring must have exactly one active version"⟩
  if 1 < active.length then
    throw ⟨.KEY_MULTIPLE_ACTIVE_VERSIONS, "Only one key version may be active at a time"⟩
  if ¬(ring.versions.map (·.version)).Nodup then
    throw ⟨.KEY_STATE_INVALID, "Duplicate key version number"⟩

/-- The version with this number. -/
def KeyRing.find? (ring : KeyRing) (version : Nat) : Option KeyVersion :=
  ring.versions.find? fun candidate => candidate.version == version

/-- In a sane ring the lookup always finds the version. -/
def activeKeyVersion (ring : KeyRing) : Except KeyRotationError KeyVersion := do
  assertKeyRingIsSane ring
  match ring.versions.find? fun version => version.state == .active with
  | some version => return version
  | none => throw ⟨.KEY_NO_ACTIVE_VERSION, "A key ring must have exactly one active version"⟩

def assertReadableVersion (ring : KeyRing) (version : Nat) : Except KeyRotationError Unit :=
  match ring.find? version with
  | none => throw ⟨.KEY_VERSION_UNKNOWN, "Unknown key version " ++ toString version⟩
  | some found => do
    if found.state = .retired then
      throw ⟨.KEY_VERSION_RETIRED,
        "Key version " ++ toString version ++ " is retired and may no longer decrypt"⟩
    if found.state = .pending then
      throw ⟨.KEY_STATE_INVALID, "Key version " ++ toString version ++ " was never used to encrypt"⟩

/-! ## The operations -/

/-- The versions that `state` names get that state. -/
def KeyRing.withStates (ring : KeyRing) (state : Nat → Option KeyVersionState) : KeyRing :=
  { ring with
    versions := ring.versions.map fun version =>
      { version with state := (state version.version).getD version.state } }

def beginDualRead (ring : KeyRing) (toVersion : Nat) : Except KeyRotationError KeyRing := do
  let current ← activeKeyVersion ring
  match ring.find? toVersion with
  | none => throw ⟨.KEY_VERSION_UNKNOWN, "Unknown key version " ++ toString toVersion⟩
  | some next =>
    if next.state ≠ .pending then
      throw ⟨.KEY_STATE_INVALID,
        "Version " ++ toString toVersion ++ " must be pending to be promoted"⟩
    if next.compromised then
      throw ⟨.KEY_STATE_INVALID, "Cannot rotate onto a compromised key version"⟩
    return ring.withStates fun version =>
      if version = toVersion then some .active
      else if version = current.version then some .decrypt_only
      else none

def assertRotationComplete (progress : RotationProgress) : Except KeyRotationError Unit := do
  if 0 < progress.failedRows then
    throw ⟨.KEY_ROTATION_INCOMPLETE, toString progress.failedRows ++
      " rows failed to re-encrypt; the old key must stay readable"⟩
  if progress.reencryptedRows < progress.totalRows then
    throw ⟨.KEY_ROTATION_INCOMPLETE, toString (progress.totalRows - progress.reencryptedRows) ++
      " rows still hold ciphertext under version " ++ toString progress.fromVersion⟩
  if progress.verifiedRows < progress.totalRows then
    throw ⟨.KEY_ROTATION_NOT_VERIFIED, toString (progress.totalRows - progress.verifiedRows) ++
      " rows were re-encrypted but never verified"⟩

def retireOldVersion (ring : KeyRing) (progress : RotationProgress) :
    Except KeyRotationError KeyRing := do
  assertRotationComplete progress
  assertReadableVersion ring progress.fromVersion
  return ring.withStates fun version =>
    if version = progress.fromVersion then some .retired else none

def rollbackRotation (ring : KeyRing) (progress : RotationProgress) :
    Except KeyRotationError KeyRing :=
  match ring.find? progress.fromVersion with
  | none => throw ⟨.KEY_VERSION_UNKNOWN, "Unknown source version"⟩
  | some old => do
    if old.state = .retired then
      throw ⟨.KEY_STATE_INVALID, "Cannot roll back after the old key has been retired"⟩
    if old.compromised then
      throw ⟨.KEY_STATE_INVALID, "Cannot roll back onto a compromised key version"⟩
    return ring.withStates fun version =>
      if version = progress.fromVersion then some .active
      else if version = progress.toVersion then some .pending
      else none

/-! ## The adapter -/

/-- AES-GCM: what is encrypted under a key, an initialisation vector and a purpose is decrypted. -/
structure Cipher (Key Iv Plaintext Ciphertext : Type) where
  encrypt : Key → Iv → String → Plaintext → Ciphertext
  decrypt : Key → Iv → String → Ciphertext → Option Plaintext
  decrypt_encrypt : ∀ key iv purpose plaintext,
    decrypt key iv purpose (encrypt key iv purpose plaintext) = some plaintext

/-- A ciphertext with what its first bytes say. -/
structure Envelope (Iv Ciphertext : Type) where
  version : Nat
  iv : Iv
  ciphertext : Ciphertext
  deriving DecidableEq

section Adapter

variable {Key Iv Plaintext Ciphertext : Type} (cipher : Cipher Key Iv Plaintext Ciphertext)

def encryptText (ring : KeyRing) (keys : Nat → Key) (iv : Iv) (value : Plaintext)
    (purpose : String) : Except KeyRotationError (Envelope Iv Ciphertext) := do
  let active ← activeKeyVersion ring
  return ⟨active.version, iv, cipher.encrypt (keys active.version) iv purpose value⟩

/-- `none` stands for the errors of the adapter. -/
def decryptText (ring : KeyRing) (keys : Nat → Key) (value : Envelope Iv Ciphertext)
    (purpose : String) : Option Plaintext :=
  match assertReadableVersion ring value.version with
  | .error _ => none
  | .ok () => cipher.decrypt (keys value.version) value.iv purpose value.ciphertext

end Adapter

/-! ## The rules in terms of states -/

def KeyRing.state? (ring : KeyRing) (version : Nat) : Option KeyVersionState :=
  (ring.find? version).map (·.state)

/-- The states in which a version still decrypts. -/
def KeyVersionState.isReadable : KeyVersionState → Bool
  | .active | .decrypt_only => true
  | .pending | .retired => false

def KeyRing.Readable (ring : KeyRing) (version : Nat) : Prop :=
  ∃ state, ring.state? version = some state ∧ state.isReadable = true

def KeyRing.Distinct (ring : KeyRing) : Prop := (ring.versions.map (·.version)).Nodup

section Rules

variable {ring ring' : KeyRing} {version : Nat}

theorem readable_iff : assertReadableVersion ring version = .ok () ↔ ring.Readable version := by
  unfold assertReadableVersion KeyRing.Readable KeyRing.state?
  cases hfind : ring.find? version with
  | none => simp [throw, throwThe, MonadExceptOf.throw]
  | some found =>
    simp only [Option.map_some, Option.some.injEq, exists_eq_left']
    cases found.state <;> simp [KeyVersionState.isReadable, throw, throwThe, MonadExceptOf.throw,
      bind, Except.bind, pure, Except.pure]

theorem state?_of_mem (h : ring.Distinct) {v : KeyVersion} (hv : v ∈ ring.versions) :
    ring.state? v.version = some v.state := by
  have hfind : ring.find? v.version = some v := find?_of_mem h hv
  rw [KeyRing.state?, hfind]
  rfl

theorem exists_of_state? {state : KeyVersionState} (h : ring.state? version = some state) :
    ∃ v ∈ ring.versions, v.version = version ∧ v.state = state := by
  obtain ⟨v, hv, hstate⟩ := Option.map_eq_some_iff.mp h
  obtain ⟨hmem, hversion⟩ := exists_of_find?_key hv
  exact ⟨v, hmem, hversion, hstate⟩

/-- One version is active, and no other. -/
def KeyRing.OneActive (ring : KeyRing) (version : Nat) : Prop :=
  ∀ other, ring.state? other = some .active ↔ other = version

theorem KeyRing.OneActive.exists_mem (h : ring.OneActive version) :
    ∃ v ∈ ring.versions, v.version = version ∧ v.state = .active :=
  exists_of_state? ((h version).mpr rfl)

theorem isSane_iff : assertKeyRingIsSane ring = .ok () ↔
    ring.Distinct ∧ ∃ version, ring.OneActive version := by
  have hactive : ∀ v, v ∈ ring.versions.filter (fun version => version.state == .active) ↔
      v ∈ ring.versions ∧ v.state = .active := by
    intro v
    rw [List.mem_filter, beq_iff_eq]
  unfold assertKeyRingIsSane
  rw [except_guard_eq_ok, except_guard_eq_ok, except_guard_eq_ok, except_guard_end_eq_ok,
    not_not]
  constructor
  · rintro ⟨-, hnone, htwo, hdistinct, -⟩
    have hlength : (ring.versions.filter fun version => version.state == .active).length = 1 := by
      omega
    obtain ⟨v, hv⟩ := List.length_eq_one_iff.mp hlength
    have hmem : ∀ w, w ∈ ring.versions ∧ w.state = .active ↔ w = v := by
      intro w
      rw [← hactive, hv, List.mem_singleton]
    obtain ⟨hvmem, hvstate⟩ := (hmem v).mpr rfl
    refine ⟨hdistinct, v.version, fun other => ⟨fun h => ?_, fun h => ?_⟩⟩
    · obtain ⟨w, hw, rfl, hstate⟩ := exists_of_state? h
      rw [(hmem w).mp ⟨hw, hstate⟩]
    · rw [h, state?_of_mem hdistinct hvmem, hvstate]
  · rintro ⟨hdistinct, version, hone⟩
    obtain ⟨v, hv, rfl, hstate⟩ := hone.exists_mem
    have hunique : ring.versions.filter (fun version => version.state == .active) ⊆ [v] := by
      intro w hw
      obtain ⟨hw, hwstate⟩ := (hactive w).mp hw
      rw [List.mem_singleton]
      refine eq_of_key_eq hdistinct hw hv ((hone w.version).mp ?_)
      rw [state?_of_mem hdistinct hw, hwstate]
    have hnodup : (ring.versions.filter (fun version => version.state == .active)).Nodup :=
      (List.Nodup.of_map _ hdistinct).filter _
    have hpos := List.length_pos_of_mem ((hactive v).mpr ⟨hv, hstate⟩)
    have hle : _ ≤ 1 := (List.subperm_of_subset hnodup hunique).length_le
    refine ⟨?_, by omega, by omega, hdistinct, rfl⟩
    rw [List.length_eq_zero_iff]
    exact List.ne_nil_of_mem hv

theorem activeKeyVersion_eq_ok {v : KeyVersion} (h : activeKeyVersion ring = .ok v) :
    ring.Distinct ∧ ring.OneActive v.version := by
  obtain ⟨_, hsane, h⟩ := except_bind_eq_ok.mp h
  obtain ⟨hdistinct, version, hone⟩ := isSane_iff.mp hsane
  cases hfind : ring.versions.find? fun version => version.state == .active with
  | none =>
    rw [hfind] at h
    exact nomatch h
  | some found =>
    rw [hfind] at h
    obtain rfl : found = v := Except.ok.inj h
    have hstate : ring.state? found.version = some .active := by
      rw [state?_of_mem hdistinct (List.mem_of_find?_eq_some hfind)]
      have hfound := List.find?_some (p := fun v : KeyVersion => v.state == .active) hfind
      rw [beq_iff_eq.mp hfound]
    rw [(hone found.version).mp hstate]
    exact ⟨hdistinct, hone⟩

/-! ## What the operations do to the states -/

theorem state?_withStates {state : Nat → Option KeyVersionState} :
    (ring.withStates state).state? version =
      (ring.state? version).map fun old => (state version).getD old := by
  unfold KeyRing.state? KeyRing.find? KeyRing.withStates
  rw [List.find?_map, Option.map_map]
  cases hfind : ring.versions.find? fun candidate => candidate.version == version with
  | none =>
    have hnone : ring.versions.find? ((fun candidate => candidate.version == version) ∘
        fun v => { v with state := (state v.version).getD v.state }) = none := hfind
    rw [hnone]
    rfl
  | some v =>
    obtain ⟨-, rfl⟩ := exists_of_find?_key hfind
    have hsome : ring.versions.find? ((fun candidate => candidate.version == v.version) ∘
        fun v => { v with state := (state v.version).getD v.state }) = some v := hfind
    rw [hsome]
    rfl

theorem distinct_withStates {state : Nat → Option KeyVersionState} :
    (ring.withStates state).Distinct ↔ ring.Distinct := by
  unfold KeyRing.Distinct KeyRing.withStates
  rw [List.map_map]
  rfl

theorem beginDualRead_eq_ok {toVersion : Nat} (h : beginDualRead ring toVersion = .ok ring') :
    ∃ current, ring.OneActive current ∧ ring.state? toVersion = some .pending ∧
      ring' = ring.withStates fun version =>
        if version = toVersion then some .active
        else if version = current then some .decrypt_only
        else none := by
  obtain ⟨current, hcurrent, h⟩ := except_bind_eq_ok.mp h
  cases hfind : ring.find? toVersion with
  | none =>
    rw [hfind] at h
    exact nomatch h
  | some next =>
    rw [hfind] at h
    obtain ⟨hpending, h⟩ := except_guard_eq_ok.mp h
    obtain ⟨-, h⟩ := except_guard_eq_ok.mp h
    refine ⟨current.version, (activeKeyVersion_eq_ok hcurrent).2, ?_, (Except.ok.inj h).symm⟩
    rw [KeyRing.state?, hfind, Option.map_some, not_not.mp hpending]

theorem retireOldVersion_eq_ok {progress : RotationProgress}
    (h : retireOldVersion ring progress = .ok ring') :
    ring.Readable progress.fromVersion ∧
      ring' = ring.withStates fun version =>
        if version = progress.fromVersion then some .retired else none := by
  obtain ⟨_, -, h⟩ := except_bind_eq_ok.mp h
  obtain ⟨_, hreadable, h⟩ := except_bind_eq_ok.mp h
  exact ⟨readable_iff.mp hreadable, (Except.ok.inj h).symm⟩

theorem rollbackRotation_eq_ok {progress : RotationProgress}
    (h : rollbackRotation ring progress = .ok ring') :
    (∃ state, ring.state? progress.fromVersion = some state) ∧
      ring' = ring.withStates fun version =>
        if version = progress.fromVersion then some .active
        else if version = progress.toVersion then some .pending
        else none := by
  unfold rollbackRotation at h
  cases hfind : ring.find? progress.fromVersion with
  | none =>
    rw [hfind] at h
    exact nomatch h
  | some old =>
    rw [hfind] at h
    obtain ⟨-, h⟩ := except_guard_eq_ok.mp h
    obtain ⟨-, h⟩ := except_guard_eq_ok.mp h
    refine ⟨⟨old.state, ?_⟩, (Except.ok.inj h).symm⟩
    rw [KeyRing.state?, hfind, Option.map_some]

/-! ## Which version is active, and which are readable, afterwards -/

theorem isSane_withStates {state : Nat → Option KeyVersionState} (h : ring.Distinct) :
    assertKeyRingIsSane (ring.withStates state) = .ok () ↔
      ∃ version, (ring.withStates state).OneActive version := by
  rw [isSane_iff, distinct_withStates, and_iff_right h]

theorem state?_of_untouched {state : Nat → Option KeyVersionState} (h : state version = none) :
    (ring.withStates state).state? version = ring.state? version := by
  rw [state?_withStates, h]
  exact congrFun Option.map_id_fun _

theorem state?_of_set {state : Nat → Option KeyVersionState} {old new : KeyVersionState}
    (h : ring.state? version = some old) (hset : state version = some new) :
    (ring.withStates state).state? version = some new := by
  rw [state?_withStates, h, hset]
  rfl

theorem not_readable_of_state? {state : KeyVersionState} (h : ring.state? version = some state)
    (hstate : state.isReadable = false) : ¬ring.Readable version := by
  rintro ⟨state', h', hreadable⟩
  cases h.symm.trans h'
  rw [hstate] at hreadable
  exact nomatch hreadable

theorem oneActive_of_beginDualRead {toVersion : Nat}
    (h : beginDualRead ring toVersion = .ok ring') : ring'.OneActive toVersion := by
  obtain ⟨current, hone, hpending, rfl⟩ := beginDualRead_eq_ok h
  intro other
  by_cases hto : other = toVersion
  · subst hto
    exact iff_of_true (state?_of_set hpending (if_pos rfl)) rfl
  · refine iff_of_false (fun hactive => ?_) hto
    by_cases hcurrent : other = current
    · rw [state?_of_set ((hone other).mpr hcurrent)
        ((if_neg hto).trans (if_pos hcurrent))] at hactive
      exact nomatch hactive
    · rw [state?_of_untouched ((if_neg hto).trans (if_neg hcurrent))] at hactive
      exact hcurrent ((hone other).mp hactive)

theorem readable_of_beginDualRead {toVersion : Nat}
    (h : beginDualRead ring toVersion = .ok ring') (hreadable : ring.Readable version) :
    ring'.Readable version := by
  obtain ⟨current, hone, hpending, rfl⟩ := beginDualRead_eq_ok h
  by_cases hto : version = toVersion
  · subst hto
    exact ⟨.active, state?_of_set hpending (if_pos rfl), rfl⟩
  · by_cases hcurrent : version = current
    · exact ⟨.decrypt_only, state?_of_set ((hone version).mpr hcurrent)
        ((if_neg hto).trans (if_pos hcurrent)), rfl⟩
    · unfold KeyRing.Readable
      rw [state?_of_untouched ((if_neg hto).trans (if_neg hcurrent))]
      exact hreadable

theorem readable_of_retireOldVersion {progress : RotationProgress}
    (h : retireOldVersion ring progress = .ok ring') (hne : version ≠ progress.fromVersion) :
    ring'.Readable version ↔ ring.Readable version := by
  obtain ⟨-, rfl⟩ := retireOldVersion_eq_ok h
  unfold KeyRing.Readable
  rw [state?_of_untouched (if_neg hne)]

theorem isSane_of_retireOldVersion {progress : RotationProgress}
    (h : retireOldVersion ring progress = .ok ring') (hsane : assertKeyRingIsSane ring = .ok ()) :
    assertKeyRingIsSane ring' = .ok () ↔ ring.state? progress.fromVersion ≠ some .active := by
  obtain ⟨hdistinct, current, hone⟩ := isSane_iff.mp hsane
  obtain ⟨⟨state, hstate, -⟩, rfl⟩ := retireOldVersion_eq_ok h
  have hretired : (ring.withStates fun version =>
      if version = progress.fromVersion then some .retired else none).state?
        progress.fromVersion = some .retired := state?_of_set hstate (if_pos rfl)
  rw [isSane_withStates hdistinct]
  constructor
  · rintro ⟨version, hone'⟩ hactive
    have hversion := (hone' version).mpr rfl
    have hne : version ≠ progress.fromVersion := by
      rintro rfl
      rw [hretired] at hversion
      exact nomatch hversion
    rw [state?_of_untouched (if_neg hne)] at hversion
    exact hne (((hone _).mp hversion).trans ((hone _).mp hactive).symm)
  · intro hactive
    refine ⟨current, fun other => ?_⟩
    by_cases hother : other = progress.fromVersion
    · subst hother
      rw [hretired, ← hone]
      exact iff_of_false nofun hactive
    · rw [state?_of_untouched (if_neg hother)]
      exact hone other

theorem isSane_of_rollbackRotation {progress : RotationProgress}
    (h : rollbackRotation ring progress = .ok ring') (hsane : assertKeyRingIsSane ring = .ok ()) :
    assertKeyRingIsSane ring' = .ok () ↔
      ring.state? progress.fromVersion = some .active ∨
        ring.state? progress.toVersion = some .active := by
  obtain ⟨hdistinct, current, hone⟩ := isSane_iff.mp hsane
  obtain ⟨⟨state, hstate⟩, rfl⟩ := rollbackRotation_eq_ok h
  rw [isSane_withStates hdistinct, hone, hone]
  generalize hset : (fun version => if version = progress.fromVersion then
    some KeyVersionState.active else if version = progress.toVersion then
    some KeyVersionState.pending else none) = set
  have hfrom : set progress.fromVersion = some .active := by
    rw [← hset]
    exact if_pos rfl
  have hto : ∀ other, other ≠ progress.fromVersion → other = progress.toVersion →
      set other = some .pending := by
    intro other hne hother
    rw [← hset]
    exact (if_neg hne).trans (if_pos hother)
  have hrest : ∀ other, other ≠ progress.fromVersion → other ≠ progress.toVersion →
      set other = none := by
    intro other hne hother
    rw [← hset]
    exact (if_neg hne).trans (if_neg hother)
  have hactive := state?_of_set hstate hfrom
  constructor
  · rintro ⟨version, hone'⟩
    obtain rfl := (hone' _).mp hactive
    by_contra hneither
    obtain ⟨hf, ht⟩ := not_or.mp hneither
    -- The version that was active is still active, beside the one it has rolled back to.
    have hcurrent := (hone' current).mp (by
      rw [state?_of_untouched (hrest current (Ne.symm hf) (Ne.symm ht))]
      exact (hone current).mpr rfl)
    exact hf hcurrent.symm
  · intro hcurrent
    refine ⟨progress.fromVersion, fun other => ?_⟩
    by_cases hf : other = progress.fromVersion
    · subst hf
      exact iff_of_true hactive rfl
    · refine iff_of_false (fun hother => ?_) hf
      by_cases ht : other = progress.toVersion
      · rw [state?_withStates, hto other hf ht] at hother
        obtain ⟨old, -, hold⟩ := Option.map_eq_some_iff.mp hother
        exact nomatch hold
      · rw [state?_of_untouched (hrest other hf ht), hone] at hother
        subst hother
        rcases hcurrent with hcurrent | hcurrent
        · exact hf hcurrent.symm
        · exact ht hcurrent.symm

theorem readable_of_rollbackRotation {progress : RotationProgress}
    (h : rollbackRotation ring progress = .ok ring') (hreadable : ring.Readable version) :
    ring'.Readable version ↔
      (progress.toVersion = progress.fromVersion ∨ version ≠ progress.toVersion) := by
  obtain ⟨⟨state, hstate⟩, rfl⟩ := rollbackRotation_eq_ok h
  by_cases hf : version = progress.fromVersion
  · subst hf
    exact iff_of_true ⟨.active, state?_of_set hstate (if_pos rfl), rfl⟩
      ((eq_or_ne _ _).imp Eq.symm id)
  · by_cases ht : version = progress.toVersion
    · subst ht
      obtain ⟨old, hold, -⟩ := hreadable
      exact iff_of_false (not_readable_of_state?
        (state?_of_set hold ((if_neg hf).trans (if_pos rfl))) rfl) (by simp [hf])
    · unfold KeyRing.Readable
      rw [state?_of_untouched ((if_neg hf).trans (if_neg ht))]
      exact iff_of_true hreadable (.inr ht)

end Rules

end Kommunsign
