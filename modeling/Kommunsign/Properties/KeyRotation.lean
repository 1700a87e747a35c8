import Mathlib.Algebra.Order.BigOperators.Group.List
import Mathlib.Algebra.Order.Group.Int
import Kommunsign.Crypto.KeyRing
import Kommunsign.Crypto.RotationLedger
import Kommunsign.Infra.Run

/-!
# What a rotation keeps readable

The operations of a rotation follow each other in any order, and between them the adapter writes.
A ciphertext counts as long as no operation has verified that no row depends on its version.

* `keyringKept_throughout_iff` — the runs that keep everything readable are those of such steps
* `verifiedRotations_throughout_iff` — it stays so if and only if each statement is one of these
* `not_verifiedRotations_late_row` — a row under the old key, after the verification
-/

namespace Kommunsign

open Infra

section KeyRotation

variable {Key Iv Plaintext Ciphertext : Type}

structure WrittenText (Iv Plaintext Ciphertext : Type) where
  value : Plaintext
  purpose : String
  envelope : Envelope Iv Ciphertext
  deriving DecidableEq

structure Keyring (Iv Plaintext Ciphertext : Type) where
  ring : KeyRing
  written : List (WrittenText Iv Plaintext Ciphertext)
  deriving DecidableEq

inductive RotationStep (Iv Plaintext : Type) where
  | encryptText (iv : Iv) (value : Plaintext) (purpose : String)
  | beginDualRead (toVersion : Nat)
  | retireOldVersion (progress : RotationProgress)
  | rollbackRotation (progress : RotationProgress)
  deriving DecidableEq

section Step

variable (cipher : Cipher Key Iv Plaintext Ciphertext) (keys : Nat → Key)

def rotationStep (s : Keyring Iv Plaintext Ciphertext) :
    RotationStep Iv Plaintext → Option (Keyring Iv Plaintext Ciphertext)
  | .encryptText iv value purpose =>
    (encryptText cipher s.ring keys iv value purpose).toOption.map fun envelope =>
      { s with written := s.written ++ [⟨value, purpose, envelope⟩] }
  | .beginDualRead toVersion =>
    (beginDualRead s.ring toVersion).toOption.map fun ring => { s with ring := ring }
  | .retireOldVersion progress =>
    -- The counts have verified that no row depends on the version any more.
    (retireOldVersion s.ring progress).toOption.map fun ring =>
      ⟨ring, s.written.filter fun text => text.envelope.version != progress.fromVersion⟩
  | .rollbackRotation progress =>
    (rollbackRotation s.ring progress).toOption.map fun ring => { s with ring := ring }

/-- The ring is valid, and every ciphertext that counts decrypts to what was encrypted. -/
def KeyringKept (s : Keyring Iv Plaintext Ciphertext) : Prop :=
  assertKeyRingIsSane s.ring = .ok () ∧
    ∀ text ∈ s.written, decryptText cipher s.ring keys text.envelope text.purpose = some text.value

end Step

def LosesNoKey (s : Keyring Iv Plaintext Ciphertext) : RotationStep Iv Plaintext → Prop
  | .encryptText _ _ _ | .beginDualRead _ => True
  | .retireOldVersion progress => s.ring.state? progress.fromVersion ≠ some .active
  | .rollbackRotation progress =>
    (s.ring.state? progress.fromVersion = some .active ∨
      s.ring.state? progress.toVersion = some .active) ∧
    (progress.toVersion = progress.fromVersion ∨
      ∀ text ∈ s.written, text.envelope.version ≠ progress.toVersion)

/-! ## What decrypts -/

section Readable

variable {cipher : Cipher Key Iv Plaintext Ciphertext} {keys : Nat → Key} {ring ring' : KeyRing}

theorem decryptText_eq_some {value : Envelope Iv Ciphertext} {purpose : String}
    {plaintext : Plaintext} :
    decryptText cipher ring keys value purpose = some plaintext ↔
      ring.Readable value.version ∧
        cipher.decrypt (keys value.version) value.iv purpose value.ciphertext = some plaintext := by
  unfold decryptText
  rw [← readable_iff]
  cases assertReadableVersion ring value.version with
  | error e => simp
  | ok u => simp

theorem decryptText_iff_readable {value : Envelope Iv Ciphertext} {purpose : String}
    {plaintext : Plaintext} (h : decryptText cipher ring keys value purpose = some plaintext) :
    decryptText cipher ring' keys value purpose = some plaintext ↔
      ring'.Readable value.version := by
  rw [decryptText_eq_some, and_iff_left (decryptText_eq_some.mp h).2]

end Readable

/-! ## What one step keeps -/

section Kept

variable {cipher : Cipher Key Iv Plaintext Ciphertext} {keys : Nat → Key}
  {s s' : Keyring Iv Plaintext Ciphertext}

theorem keyringKept_iff_of_kept {ring : KeyRing} {written : List _} (hs : KeyringKept cipher keys s)
    (hwritten : ∀ text ∈ written, text ∈ s.written) :
    KeyringKept cipher keys ⟨ring, written⟩ ↔ assertKeyRingIsSane ring = .ok () ∧
      ∀ text ∈ written, ring.Readable text.envelope.version :=
  and_congr_right fun _ => forall₂_congr fun text htext =>
    decryptText_iff_readable (hs.2 text (hwritten text htext))

theorem KeyringKept.readable (hs : KeyringKept cipher keys s) {text : WrittenText _ _ _}
    (htext : text ∈ s.written) : s.ring.Readable text.envelope.version :=
  (decryptText_eq_some.mp (hs.2 text htext)).1

theorem keyringKept_of_encryptText {iv : Iv} {value : Plaintext} {purpose : String}
    (hs : KeyringKept cipher keys s)
    (h : rotationStep cipher keys s (.encryptText iv value purpose) = some s') :
    KeyringKept cipher keys s' := by
  obtain ⟨envelope, hok, rfl⟩ := Option.map_eq_some_iff.mp h
  have hencrypt := toOption_eq_some.mp hok
  obtain ⟨active, hactive, henvelope⟩ := except_bind_eq_ok.mp hencrypt
  cases henvelope
  refine ⟨hs.1, fun text htext => ?_⟩
  rcases List.mem_append.mp htext with htext | htext
  · exact hs.2 text htext
  · rw [List.mem_singleton.mp htext]
    have hstate := ((activeKeyVersion_eq_ok hactive).2 active.version).mpr rfl
    exact decryptText_eq_some.mpr
      ⟨⟨.active, hstate, rfl⟩, cipher.decrypt_encrypt _ _ _ _⟩

theorem keyringKept_of_beginDualRead {toVersion : Nat} (hs : KeyringKept cipher keys s)
    (h : rotationStep cipher keys s (.beginDualRead toVersion) = some s') :
    KeyringKept cipher keys s' := by
  obtain ⟨ring, hok, rfl⟩ := Option.map_eq_some_iff.mp h
  have hbegin := toOption_eq_some.mp hok
  refine (keyringKept_iff_of_kept hs fun _ => id).mpr ⟨isSane_iff.mpr ⟨?_, toVersion, ?_⟩, ?_⟩
  · obtain ⟨current, -, -, rfl⟩ := beginDualRead_eq_ok hbegin
    exact distinct_withStates.mpr (isSane_iff.mp hs.1).1
  · exact oneActive_of_beginDualRead hbegin
  · intro text htext
    exact readable_of_beginDualRead hbegin (hs.readable htext)

theorem keyringKept_of_retireOldVersion_iff {progress : RotationProgress}
    (hs : KeyringKept cipher keys s)
    (h : rotationStep cipher keys s (.retireOldVersion progress) = some s') :
    KeyringKept cipher keys s' ↔ s.ring.state? progress.fromVersion ≠ some .active := by
  obtain ⟨ring, hok, rfl⟩ := Option.map_eq_some_iff.mp h
  have hretire := toOption_eq_some.mp hok
  rw [keyringKept_iff_of_kept hs fun _ => List.mem_of_mem_filter,
    isSane_of_retireOldVersion hretire hs.1]
  -- Nothing that still counts has been written under the retired version.
  refine and_iff_left fun text htext => ?_
  obtain ⟨htext, hne⟩ := List.mem_filter.mp htext
  exact (readable_of_retireOldVersion hretire (bne_iff_ne.mp hne)).mpr (hs.readable htext)

theorem keyringKept_of_rollbackRotation_iff {progress : RotationProgress}
    (hs : KeyringKept cipher keys s)
    (h : rotationStep cipher keys s (.rollbackRotation progress) = some s') :
    KeyringKept cipher keys s' ↔ LosesNoKey s (.rollbackRotation progress) := by
  obtain ⟨ring, hok, rfl⟩ := Option.map_eq_some_iff.mp h
  have hroll := toOption_eq_some.mp hok
  rw [keyringKept_iff_of_kept hs fun _ => id, isSane_of_rollbackRotation hroll hs.1]
  refine and_congr_right fun _ => Iff.trans (forall₂_congr (q := fun text _ =>
    progress.toVersion = progress.fromVersion ∨ text.envelope.version ≠ progress.toVersion)
    fun text htext => readable_of_rollbackRotation hroll (hs.readable htext)) ?_
  by_cases hsame : progress.toVersion = progress.fromVersion
  · exact iff_of_true (fun _ _ => .inl hsame) (.inl hsame)
  · simp only [hsame, false_or]

theorem keyringKept_step_iff {i : RotationStep Iv Plaintext} (hs : KeyringKept cipher keys s)
    (h : rotationStep cipher keys s i = some s') : KeyringKept cipher keys s' ↔ LosesNoKey s i := by
  cases i with
  | encryptText iv value purpose => exact iff_of_true (keyringKept_of_encryptText hs h) trivial
  | beginDualRead toVersion => exact iff_of_true (keyringKept_of_beginDualRead hs h) trivial
  | retireOldVersion progress => exact keyringKept_of_retireOldVersion_iff hs h
  | rollbackRotation progress => exact keyringKept_of_rollbackRotation_iff hs h

end Kept

/--
The ring stays valid with one active version, and every ciphertext decrypts until its version has
been verified away, exactly in the runs whose steps all meet `LosesNoKey`.
-/
theorem keyringKept_throughout_iff {cipher : Cipher Key Iv Plaintext Ciphertext} {keys : Nat → Key}
    {s s' : Keyring Iv Plaintext Ciphertext} {steps : List (RotationStep Iv Plaintext)}
    (hs : KeyringKept cipher keys s) (hr : run (rotationStep cipher keys) s steps = some s') :
    Throughout (rotationStep cipher keys) (KeyringKept cipher keys) s steps ↔
      Meets (rotationStep cipher keys) LosesNoKey s steps :=
  throughout_iff_meets (fun _ _ _ (_ : True) _ => trivial)
    (fun _ _ _ _ hkept h => keyringKept_step_iff hkept h) trivial hs hr

/-! ## A rollback after writes -/

def Cipher.labelled : Cipher Nat Nat String (Nat × Nat × String × String) where
  encrypt key iv purpose plaintext := (key, iv, purpose, plaintext)
  decrypt key iv purpose ciphertext :=
    if (ciphertext.1, ciphertext.2.1, ciphertext.2.2.1) = (key, iv, purpose) then
      some ciphertext.2.2.2
    else none
  decrypt_encrypt _ _ _ _ := if_pos rfl

def KeyRing.sample : KeyRing :=
  ⟨.sensitive_data, [
    ⟨1, .active, "env://SENSITIVE_DATA_ENCRYPTION_KEY_BASE64", "1970-01-01T00:00:00.000Z", false⟩,
    ⟨2, .pending, "env://SENSITIVE_DATA_ENCRYPTION_KEY_V2_BASE64", "1970-01-01T00:00:00.000Z",
      false⟩]⟩

def Keyring.sample : Keyring Nat String (Nat × Nat × String × String) := ⟨.sample, []⟩

def RotationStep.dualRead : List (RotationStep Nat String) :=
  [.encryptText 7 "199001011234" "signer.identifier", .beginDualRead 2,
    .encryptText 8 "198002022345" "signer.identifier"]

instance (s : Keyring Nat String (Nat × Nat × String × String)) :
    Decidable (KeyringKept Cipher.labelled id s) :=
  inferInstanceAs (Decidable (_ ∧ _))

instance (s : Keyring Nat String (Nat × Nat × String × String)) :
    ∀ i : RotationStep Nat String, Decidable (LosesNoKey s i)
  | .encryptText _ _ _ | .beginDualRead _ => isTrue trivial
  | .retireOldVersion _ => inferInstanceAs (Decidable (_ ≠ _))
  | .rollbackRotation _ => inferInstanceAs (Decidable (_ ∧ _))

/-- The old version is retired when its ciphertext has been written again under the new one. -/
theorem keyringKept_throughout_iff_retired :
    Throughout (rotationStep Cipher.labelled id) (KeyringKept Cipher.labelled id) Keyring.sample
      (RotationStep.dualRead ++ [.retireOldVersion ⟨1, 2, 1, 1, 1, 0⟩]) := by
  have hkept : KeyringKept Cipher.labelled id Keyring.sample := by decide
  have hmeets : Meets (rotationStep Cipher.labelled id) LosesNoKey Keyring.sample
      (RotationStep.dualRead ++ [.retireOldVersion ⟨1, 2, 1, 1, 1, 0⟩]) := by decide
  obtain ⟨s', hs'⟩ : ∃ s', run (rotationStep Cipher.labelled id) Keyring.sample
      (RotationStep.dualRead ++ [.retireOldVersion ⟨1, 2, 1, 1, 1, 0⟩]) = some s' :=
    Option.isSome_iff_exists.mp (by decide)
  exact (keyringKept_throughout_iff hkept hs').mpr hmeets

/-- A rollback leaves nobody who reads what has been written under the new version. -/
theorem not_keyringKept_of_rollbackRotation :
    assertKeyRingIsSane KeyRing.sample = .ok () ∧
      ∃ s' ∈ run (rotationStep Cipher.labelled id) Keyring.sample
        (RotationStep.dualRead ++ [.rollbackRotation ⟨1, 2, 1, 0, 0, 0⟩]),
      ∃ text ∈ s'.written, decryptText Cipher.labelled s'.ring id text.envelope text.purpose = none := by
  decide

end KeyRotation

/-!
# When a verified rotation stays verified

The completeness of a rotation is looked at when its state is set, and at no other time. What is
inserted or updated afterwards can make it untrue.
-/

structure LedgerOk (s : KeyLedger) : Prop where
  ids : (s.rotations.map (·.id)).Nodup
  keys : (s.columns.map (·.key)).Nodup
  references : ∀ column ∈ s.columns, ∃ rotation ∈ s.rotations, rotation.id = column.keyRotationId
  within : ∀ column ∈ s.columns, column.rowsReencrypted ≤ column.rowsTotal

def KeyLedger.Cleared (s : KeyLedger) (tableName : String) (version : Int) : Prop :=
  ∀ row ∈ s.rows, row.tableName = tableName → row.keyVersion ≠ version

structure Reencrypted (s : KeyLedger) (rotation : KeyRotation) : Prop where
  recorded : ∃ column ∈ s.columns, column.keyRotationId = rotation.id
  complete : ∀ column ∈ s.columns, column.keyRotationId = rotation.id →
    column.rowsReencrypted = column.rowsTotal
  cleared : ∀ column ∈ s.columns, column.keyRotationId = rotation.id →
    s.Cleared column.tableName rotation.fromVersion

def VerifiedRotations (s : KeyLedger) : Prop :=
  ∀ rotation ∈ s.rotations, rotation.state.isVerified = true → Reencrypted s rotation

def FitsColumn (s : KeyLedger) (column : KeyRotationColumn) : Prop :=
  ∀ rotation ∈ s.rotations, rotation.state.isVerified = true →
    column.keyRotationId = rotation.id →
      column.rowsReencrypted = column.rowsTotal ∧
        s.Cleared column.tableName rotation.fromVersion

def FitsRow (s : KeyLedger) (row : EncryptedRow) : Prop :=
  ∀ rotation ∈ s.rotations, rotation.state.isVerified = true →
    ∀ column ∈ s.columns, column.keyRotationId = rotation.id → row.tableName = column.tableName →
      row.keyVersion ≠ rotation.fromVersion

/-- A verified rotation with this id has a column besides the one with the key. -/
def LeavesColumn (s : KeyLedger) (key : UUID × String × String) (keyRotationId : UUID) : Prop :=
  ∀ rotation ∈ s.rotations, rotation.state.isVerified = true → keyRotationId = rotation.id →
    ∃ other ∈ s.columns, other.key ≠ key ∧ other.keyRotationId = rotation.id

def KeepsVerified (s : KeyLedger) : LedgerStep → Prop
  | .insertRotation new => new.state.isVerified = false
  | .updateRotation id setsState f => ∀ old ∈ s.rotations, old.id = id →
    (updatedRotation setsState f old).state.isVerified = true →
      ∀ column ∈ s.columns, column.keyRotationId = (updatedRotation setsState f old).id →
        s.Cleared column.tableName (updatedRotation setsState f old).fromVersion
  | .insertColumn new => FitsColumn s new
  | .updateColumn key f => ∀ old ∈ s.columns, old.key = key → FitsColumn s (f old) ∧
    ((f old).keyRotationId ≠ old.keyRotationId → LeavesColumn s key old.keyRotationId)
  | .insertRow session new => FitsRow s (stampKeyVersion session new)
  | .updateRow tableName id keyVersion =>
    (∃ row ∈ s.rows, row.tableName = tableName ∧ row.id = id) →
      FitsRow s ⟨tableName, id, keyVersion⟩

/-! ## The guards -/

section Guards

variable {s : KeyLedger} {old new : KeyRotation}

theorem mem_columnsOf {column : KeyRotationColumn} {keyRotationId : UUID} :
    column ∈ s.columnsOf keyRotationId ↔
      column ∈ s.columns ∧ column.keyRotationId = keyRotationId := by
  rw [KeyLedger.columnsOf, List.mem_filter, beq_iff_eq]

theorem complete_of_assertComplete
    (hwithin : ∀ column ∈ s.columns, column.rowsReencrypted ≤ column.rowsTotal)
    (hverified : new.state.isVerified = true)
    (h : refuse (assertKeyRotationComplete s new) = .ok ()) :
    (∃ column ∈ s.columns, column.keyRotationId = new.id) ∧
      ∀ column ∈ s.columns, column.keyRotationId = new.id →
        column.rowsReencrypted = column.rowsTotal := by
  simp only [assertKeyRotationComplete, refuse_append, refuse_raises, hverified, Bool.true_and,
    decide_eq_false_iff_not, not_lt, List.isEmpty_eq_false_iff] at h
  obtain ⟨hsum, hne⟩ := h
  constructor
  · obtain ⟨column, hcolumn⟩ := List.exists_mem_of_ne_nil _ hne
    exact ⟨column, mem_columnsOf.mp hcolumn⟩
  · intro column hcolumn hid
    have hnonneg : ∀ t ∈ (s.columnsOf new.id).map fun column =>
        column.rowsTotal - column.rowsReencrypted, 0 ≤ t := by
      intro t ht
      obtain ⟨other, hother, rfl⟩ := List.mem_map.mp ht
      exact Int.sub_nonneg_of_le (hwithin other (mem_columnsOf.mp hother).1)
    have hzero := List.all_zero_of_le_zero_le_of_sum_eq_zero hnonneg
      (le_antisymm hsum (List.sum_nonneg hnonneg))
      (List.mem_map_of_mem (mem_columnsOf.mpr ⟨hcolumn, hid⟩))
    exact (sub_eq_zero.mp hzero).symm

theorem fresh_of_rotationConstraints {others : List KeyRotation}
    (h : refuse (keyRotationConstraints others new) = .ok ()) :
    ∀ rotation ∈ others, rotation.id ≠ new.id := by
  simp only [keyRotationConstraints, refuse_append, refuse_violates, List.any_eq_false,
    beq_iff_eq] at h
  exact h.1.2

theorem of_columnConstraints {rotations : List KeyRotation} {others : List KeyRotationColumn}
    {column : KeyRotationColumn}
    (h : refuse (keyRotationColumnConstraints rotations others column) = .ok ()) :
    column.rowsReencrypted ≤ column.rowsTotal ∧ (∀ other ∈ others, other.key ≠ column.key) ∧
      ∃ rotation ∈ rotations, rotation.id = column.keyRotationId := by
  simp only [keyRotationColumnConstraints, refuse_append, refuse_violates, List.any_eq_false,
    beq_iff_eq, decide_eq_false_iff_not, not_lt, Bool.not_eq_false', List.any_eq_true] at h
  exact ⟨h.1.1.2, h.1.2, h.2⟩

end Guards

/-! ## The invariant -/

section Steps

variable {s s' : KeyLedger} {old new : KeyRotation} {column : KeyRotationColumn}

theorem ledgerOk_step {step : LedgerStep} (hok : LedgerOk s) (h : ledgerStep s step = some s') :
    LedgerOk s' := by
  cases step with
  | insertRotation new =>
    obtain ⟨_, h⟩ := Transaction.outcome_eq_some.mp h
    obtain ⟨hchecks, rfl⟩ := Table.insert_eq_ok.mp h
    refine ⟨nodup_concat_key hok.ids (fresh_of_rotationConstraints hchecks), hok.keys,
      fun column hcolumn => ?_, hok.within⟩
    obtain ⟨rotation, hrotation, hid⟩ := hok.references column hcolumn
    exact ⟨rotation, List.mem_append_left _ hrotation, hid⟩
  | updateRotation id setsState f =>
    rcases Table.update_key_cases h with ⟨-, rfl⟩ | ⟨old, hold, rfl, hchecks, rfl⟩
    · exact hok
    simp only [keyRotations, refuse_append, refuse_violates, Bool.and_eq_false_imp,
      Bool.not_eq_false', List.isEmpty_iff, bne_iff_ne] at hchecks
    obtain ⟨⟨-, hconstraints⟩, hreference⟩ := hchecks
    refine ⟨nodup_assign_key hok.ids hold fun other hother hid =>
      fresh_of_rotationConstraints hconstraints other
        (List.mem_filter.mpr ⟨hother, bne_iff_ne.mpr hid⟩), hok.keys, ?_, hok.within⟩
    intro column hcolumn
    obtain ⟨rotation, hrotation, hid⟩ := hok.references column hcolumn
    by_cases hsame : rotation.id = old.id
    · -- its columns keep the rotation that is updated at its id
      refine ⟨updatedRotation setsState f old,
        (mem_assign_key hok.ids hold).mpr (Or.inl rfl), ?_⟩
      by_contra hne
      have hnone := hreference fun h => hne (h.trans (hsame.symm.trans hid))
      have hmem : column ∈ s.columnsOf old.id :=
        mem_columnsOf.mpr ⟨hcolumn, hid.symm.trans hsame⟩
      rw [hnone] at hmem
      exact absurd hmem List.not_mem_nil
    · exact ⟨rotation, (mem_assign_key hok.ids hold).mpr (Or.inr ⟨hrotation, hsame⟩), hid⟩
  | insertColumn new =>
    obtain ⟨_, h⟩ := Transaction.outcome_eq_some.mp h
    obtain ⟨hchecks, rfl⟩ := Table.insert_eq_ok.mp h
    obtain ⟨hwithin, hfresh, hreference⟩ := of_columnConstraints hchecks
    refine ⟨hok.ids, nodup_concat_key hok.keys hfresh, fun column hcolumn => ?_,
      fun column hcolumn => ?_⟩
    · rcases List.mem_append.mp hcolumn with hold | hnew
      · exact hok.references column hold
      · rw [List.mem_singleton.mp hnew]
        exact hreference
    · rcases List.mem_append.mp hcolumn with hold | hnew
      · exact hok.within column hold
      · rw [List.mem_singleton.mp hnew]
        exact hwithin
  | updateColumn key f =>
    rcases Table.update_key_cases h with ⟨-, rfl⟩ | ⟨old, hold, rfl, hchecks, rfl⟩
    · exact hok
    simp only [keyRotationColumns, refuse_append] at hchecks
    obtain ⟨hwithin, hfresh, hreference⟩ := of_columnConstraints hchecks.2
    refine ⟨hok.ids, nodup_assign_key hok.keys hold fun other hother hkey =>
      hfresh other (List.mem_filter.mpr ⟨hother, bne_iff_ne.mpr hkey⟩), fun column hcolumn => ?_,
      fun column hcolumn => ?_⟩
    · rcases (mem_assign_key hok.keys hold).mp hcolumn with rfl | ⟨hcolumn, -⟩
      · exact hreference
      · exact hok.references column hcolumn
    · rcases (mem_assign_key hok.keys hold).mp hcolumn with rfl | ⟨hcolumn, -⟩
      · exact hwithin
      · exact hok.within column hcolumn
  | insertRow session new =>
    obtain ⟨_, h⟩ := Transaction.outcome_eq_some.mp h
    obtain ⟨-, rfl⟩ := Table.insert_eq_ok.mp h
    exact ⟨hok.ids, hok.keys, hok.references, hok.within⟩
  | updateRow tableName id keyVersion =>
    obtain ⟨_, h⟩ := Transaction.outcome_eq_some.mp h
    obtain ⟨-, rfl, -⟩ := Table.update_eq_ok.mp h
    exact ⟨hok.ids, hok.keys, hok.references, hok.within⟩

/-! ## What a statement leaves of the verified rotations -/

theorem verifiedRotations_insertRotation (hok : LedgerOk s) (hP : VerifiedRotations s)
    (hfresh : ∀ rotation ∈ s.rotations, rotation.id ≠ new.id) :
    VerifiedRotations { s with rotations := s.rotations ++ [new] } ↔
      new.state.isVerified = false := by
  constructor
  · intro h
    by_contra hverified
    obtain ⟨column, hcolumn, hid⟩ := (h new (List.mem_append_right _ (List.mem_singleton_self _))
      (Bool.eq_true_of_not_eq_false hverified)).recorded
    obtain ⟨rotation, hrotation, hreference⟩ := hok.references column hcolumn
    exact hfresh rotation hrotation (hreference.trans hid)
  · intro hnew rotation hrotation hverified
    rcases List.mem_append.mp hrotation with hold | hlast
    · exact ⟨(hP rotation hold hverified).recorded, (hP rotation hold hverified).complete,
        (hP rotation hold hverified).cleared⟩
    · rw [List.mem_singleton.mp hlast, hnew] at hverified
      cases hverified

theorem complete_of_update (hok : LedgerOk s) (hP : VerifiedRotations s) (hold : old ∈ s.rotations)
    {setsState : Bool} {f : KeyRotation → KeyRotation}
    (hchecks : (keyRotations setsState).onUpdate s old (updatedRotation setsState f old) = .ok ())
    (hverified : (updatedRotation setsState f old).state.isVerified = true) :
    (∃ column ∈ s.columns, column.keyRotationId = (updatedRotation setsState f old).id) ∧
      ∀ column ∈ s.columns, column.keyRotationId = (updatedRotation setsState f old).id →
        column.rowsReencrypted = column.rowsTotal := by
  simp only [keyRotations, refuse_append, refuse_violates, Bool.and_eq_false_imp,
    Bool.not_eq_false', List.isEmpty_iff, bne_iff_ne] at hchecks
  obtain ⟨⟨⟨hcomplete, -⟩, -⟩, hreference⟩ := hchecks
  cases setsState with
  | true => exact complete_of_assertComplete hok.within hverified hcomplete
  | false =>
    -- the state is the one that it has been, and so is the id
    have hbefore : old.state.isVerified = true := hverified
    obtain ⟨column, hcolumn, hid⟩ := (hP old hold hbefore).recorded
    have hsame : (updatedRotation false f old).id = old.id := by
      by_contra hne
      have hmem : column ∈ s.columnsOf old.id := mem_columnsOf.mpr ⟨hcolumn, hid⟩
      rw [hreference hne] at hmem
      exact absurd hmem List.not_mem_nil
    rw [hsame]
    exact ⟨⟨column, hcolumn, hid⟩, (hP old hold hbefore).complete⟩

theorem verifiedRotations_updateRotation (hok : LedgerOk s) (hP : VerifiedRotations s)
    (hold : old ∈ s.rotations) {setsState : Bool} {f : KeyRotation → KeyRotation}
    (hchecks : (keyRotations setsState).onUpdate s old (updatedRotation setsState f old) =
      .ok ()) :
    VerifiedRotations { s with
        rotations := assign (·.id == old.id) (updatedRotation setsState f) s.rotations } ↔
      ((updatedRotation setsState f old).state.isVerified = true →
        ∀ column ∈ s.columns, column.keyRotationId = (updatedRotation setsState f old).id →
          s.Cleared column.tableName (updatedRotation setsState f old).fromVersion) := by
  constructor
  · intro h hverified
    exact (h _ ((mem_assign_key hok.ids hold).mpr (Or.inl rfl)) hverified).cleared
  · intro hcleared rotation hrotation hverified
    rcases (mem_assign_key hok.ids hold).mp hrotation with rfl | ⟨hbefore, -⟩
    · obtain ⟨hrecorded, hcomplete⟩ := complete_of_update hok hP hold hchecks hverified
      exact ⟨hrecorded, hcomplete, hcleared hverified⟩
    · exact ⟨(hP rotation hbefore hverified).recorded, (hP rotation hbefore hverified).complete,
        (hP rotation hbefore hverified).cleared⟩

theorem verifiedRotations_insertColumn (hP : VerifiedRotations s) :
    VerifiedRotations { s with columns := s.columns ++ [column] } ↔ FitsColumn s column := by
  constructor
  · intro h rotation hrotation hverified hid
    have hafter := h rotation hrotation hverified
    have hmem : column ∈ s.columns ++ [column] :=
      List.mem_append_right _ (List.mem_singleton_self _)
    exact ⟨hafter.complete column hmem hid, hafter.cleared column hmem hid⟩
  · intro hfits rotation hrotation hverified
    obtain ⟨⟨first, hfirst, hid⟩, hcomplete, hcleared⟩ := hP rotation hrotation hverified
    refine ⟨⟨first, List.mem_append_left _ hfirst, hid⟩, fun other hother hid => ?_,
      fun other hother hid => ?_⟩
    · rcases List.mem_append.mp hother with hother | hother
      · exact hcomplete other hother hid
      · obtain rfl := List.mem_singleton.mp hother
        exact (hfits rotation hrotation hverified hid).1
    · rcases List.mem_append.mp hother with hother | hother
      · exact hcleared other hother hid
      · obtain rfl := List.mem_singleton.mp hother
        exact (hfits rotation hrotation hverified hid).2

theorem verifiedRotations_updateColumn (hok : LedgerOk s) (hP : VerifiedRotations s)
    (hcolumn : column ∈ s.columns) {f : KeyRotationColumn → KeyRotationColumn} :
    VerifiedRotations { s with columns := assign (·.key == column.key) f s.columns } ↔
      FitsColumn s (f column) ∧ ((f column).keyRotationId ≠ column.keyRotationId →
        LeavesColumn s column.key column.keyRotationId) := by
  have hmem {other : KeyRotationColumn} : other ∈ assign (·.key == column.key) f s.columns ↔
      other = f column ∨ other ∈ s.columns ∧ other.key ≠ column.key :=
    mem_assign_key hok.keys hcolumn
  constructor
  · intro h
    refine ⟨fun rotation hrotation hverified hid => ?_, fun hne rotation hrotation hverified hid =>
      ?_⟩
    · have hafter := h rotation hrotation hverified
      exact ⟨hafter.complete _ (hmem.mpr (Or.inl rfl)) hid,
        hafter.cleared _ (hmem.mpr (Or.inl rfl)) hid⟩
    · obtain ⟨other, hother, hotherid⟩ := (h rotation hrotation hverified).recorded
      rcases hmem.mp hother with rfl | ⟨hother, hkey⟩
      · exact absurd (hotherid.trans hid.symm) hne
      · exact ⟨other, hother, hkey, hotherid⟩
  · rintro ⟨hfits, hleft⟩ rotation hrotation hverified
    obtain ⟨⟨first, hfirst, hid⟩, hcomplete, hcleared⟩ := hP rotation hrotation hverified
    refine ⟨?_, fun other hother hid => ?_, fun other hother hid => ?_⟩
    · by_cases hkey : first.key = column.key
      · obtain rfl := eq_of_key_eq hok.keys hfirst hcolumn hkey
        by_cases hsame : (f first).keyRotationId = first.keyRotationId
        · exact ⟨f first, hmem.mpr (Or.inl rfl), hsame.trans hid⟩
        · obtain ⟨other, hother, hkey, hid⟩ := hleft hsame rotation hrotation hverified hid
          exact ⟨other, hmem.mpr (Or.inr ⟨hother, hkey⟩), hid⟩
      · exact ⟨first, hmem.mpr (Or.inr ⟨hfirst, hkey⟩), hid⟩
    · rcases hmem.mp hother with rfl | ⟨hother, -⟩
      · exact (hfits rotation hrotation hverified hid).1
      · exact hcomplete other hother hid
    · rcases hmem.mp hother with rfl | ⟨hother, -⟩
      · exact (hfits rotation hrotation hverified hid).2
      · exact hcleared other hother hid

theorem verifiedRotations_rows {rows : List EncryptedRow} (written : EncryptedRow → Prop)
    (hP : VerifiedRotations s) (hrows : ∀ row ∈ rows, row ∈ s.rows ∨ written row)
    (hwritten : ∀ row, written row → row ∈ rows) :
    VerifiedRotations { s with rows := rows } ↔ ∀ row, written row → FitsRow s row := by
  constructor
  · intro h row hrow rotation hrotation hverified column hcolumn hid htable
    exact (h rotation hrotation hverified).cleared column hcolumn hid row (hwritten row hrow) htable
  · intro hfits rotation hrotation hverified
    obtain ⟨hrecorded, hcomplete, hcleared⟩ := hP rotation hrotation hverified
    refine ⟨hrecorded, hcomplete, fun column hcolumn hid row hrow htable => ?_⟩
    rcases hrows row hrow with hold | hnew
    · exact hcleared column hcolumn hid row hold htable
    · exact hfits row hnew rotation hrotation hverified column hcolumn hid htable

theorem verifiedRotations_step {step : LedgerStep} (hok : LedgerOk s) (hP : VerifiedRotations s)
    (h : ledgerStep s step = some s') : VerifiedRotations s' ↔ KeepsVerified s step := by
  cases step with
  | insertRotation new =>
    obtain ⟨_, h⟩ := Transaction.outcome_eq_some.mp h
    obtain ⟨hchecks, rfl⟩ := Table.insert_eq_ok.mp h
    exact verifiedRotations_insertRotation hok hP (fresh_of_rotationConstraints hchecks)
  | updateRotation id setsState f =>
    rcases Table.update_key_cases h with ⟨hnone, rfl⟩ | ⟨old, hold, rfl, hchecks, rfl⟩
    · exact iff_of_true hP fun old hold hid => absurd hid (hnone old hold)
    · refine (verifiedRotations_updateRotation hok hP hold hchecks).trans
        ⟨fun hcleared other hother hid => ?_, fun hcleared => hcleared old hold rfl⟩
      obtain rfl := eq_of_key_eq hok.ids hother hold hid
      exact hcleared
  | insertColumn new =>
    obtain ⟨_, h⟩ := Transaction.outcome_eq_some.mp h
    obtain ⟨-, rfl⟩ := Table.insert_eq_ok.mp h
    exact verifiedRotations_insertColumn hP
  | updateColumn key f =>
    rcases Table.update_key_cases h with ⟨hnone, rfl⟩ | ⟨old, hold, rfl, -, rfl⟩
    · exact iff_of_true hP fun old hold hkey => absurd hkey (hnone old hold)
    · refine (verifiedRotations_updateColumn hok hP hold).trans
        ⟨fun hfits other hother hkey => ?_, fun hfits => hfits old hold rfl⟩
      obtain rfl := eq_of_key_eq hok.keys hother hold hkey
      exact hfits
  | insertRow session new =>
    obtain ⟨_, h⟩ := Transaction.outcome_eq_some.mp h
    obtain ⟨-, rfl⟩ := Table.insert_eq_ok.mp h
    refine (verifiedRotations_rows (· = stampKeyVersion session new) hP
      (fun row hrow => ?_) fun row hrow => ?_).trans forall_eq
    · exact (List.mem_append.mp hrow).imp_right List.mem_singleton.mp
    · rw [hrow]
      exact List.mem_append_right _ (List.mem_singleton_self _)
  | updateRow tableName id keyVersion =>
    obtain ⟨_, h⟩ := Transaction.outcome_eq_some.mp h
    obtain ⟨-, rfl, -⟩ := Table.update_eq_ok.mp h
    have hset : ∀ row : EncryptedRow, (row.tableName == tableName && row.id == id) = true ↔
        row.tableName = tableName ∧ row.id = id := by
      intro row
      rw [Bool.and_eq_true, beq_iff_eq, beq_iff_eq]
    refine (verifiedRotations_rows (fun row => (∃ old ∈ s.rows, old.tableName = tableName ∧
      old.id = id) ∧ row = ⟨tableName, id, keyVersion⟩) hP ?_ ?_).trans
        ⟨fun h hold => h _ ⟨hold, rfl⟩, fun h row hrow => hrow.2 ▸ h hrow.1⟩
    · intro row hrow
      obtain ⟨old, hold, rfl⟩ := mem_assign.mp hrow
      by_cases hp : (old.tableName == tableName && old.id == id) = true
      · obtain ⟨htable, hid⟩ := (hset old).mp hp
        rw [if_pos hp, htable, hid]
        exact Or.inr ⟨⟨old, hold, htable, hid⟩, rfl⟩
      · rw [if_neg hp]
        exact Or.inl hold
    · rintro _ ⟨⟨old, hold, htable, hid⟩, rfl⟩
      refine mem_assign.mpr ⟨old, hold, ?_⟩
      rw [if_pos ((hset old).mpr ⟨htable, hid⟩), htable, hid]

end Steps

/-! ## Runs of statements -/

def KeyLedger.unrotated (rows : List EncryptedRow) : KeyLedger := ⟨[], [], rows⟩

/--
Whatever is written on a ledger without rotations: every verified or completed rotation always has
columns with nothing outstanding and no row left under the old version, if and only if every
statement of the run keeps it so.
-/
theorem verifiedRotations_throughout_iff {rows : List EncryptedRow} {steps : List LedgerStep}
    {s : KeyLedger} (h : run ledgerStep (.unrotated rows) steps = some s) :
    Throughout ledgerStep VerifiedRotations (.unrotated rows) steps ↔
      Meets ledgerStep KeepsVerified (.unrotated rows) steps := by
  refine throughout_iff_meets (fun s step s' hok h => ledgerOk_step hok h)
    (fun s step s' hok hP h => verifiedRotations_step hok hP h) ?_ ?_ h
  · exact ⟨List.nodup_nil, List.nodup_nil, nofun, nofun⟩
  · exact nofun

/-! ### Statements that can be tried -/

instance (s : KeyLedger) (tableName : String) (version : Int) :
    Decidable (s.Cleared tableName version) :=
  inferInstanceAs (Decidable (∀ row ∈ s.rows, _ → _))

instance (s : KeyLedger) (column : KeyRotationColumn) : Decidable (FitsColumn s column) :=
  inferInstanceAs (Decidable (∀ rotation ∈ s.rotations, _ → _))

instance (s : KeyLedger) (key : UUID × String × String) (keyRotationId : UUID) :
    Decidable (LeavesColumn s key keyRotationId) :=
  inferInstanceAs (Decidable (∀ rotation ∈ s.rotations, _ → _ → ∃ other ∈ s.columns, _ ∧ _))

instance (s : KeyLedger) (row : EncryptedRow) : Decidable (FitsRow s row) :=
  inferInstanceAs (Decidable (∀ rotation ∈ s.rotations, _ → ∀ column ∈ s.columns, _ → _ → _))

instance (s : KeyLedger) : (step : LedgerStep) → Decidable (KeepsVerified s step)
  | .insertRotation new => inferInstanceAs (Decidable (new.state.isVerified = false))
  | .updateRotation _ _ _ =>
    inferInstanceAs (Decidable (∀ old ∈ s.rotations, _ → _ → ∀ column ∈ s.columns, _ → _))
  | .insertColumn new => inferInstanceAs (Decidable (FitsColumn s new))
  | .updateColumn _ _ => inferInstanceAs (Decidable (∀ old ∈ s.columns, _ → _ ∧ (_ → _)))
  | .insertRow session new => inferInstanceAs (Decidable (FitsRow s (stampKeyVersion session new)))
  | .updateRow _ _ _ => inferInstanceAs (Decidable ((∃ row ∈ s.rows, _ ∧ _) → _))

def KeyRotation.sample : KeyRotation :=
  ⟨"rotation", "signer.email", .PLANNED, 1, 2, none, none⟩

def verifiedRotation : List LedgerStep :=
  [.insertRotation .sample,
    .updateRotation "rotation" true fun rotation => { rotation with state := .DUAL_READ },
    .updateRotation "rotation" true fun rotation => { rotation with state := .REENCRYPTING },
    .insertColumn ⟨"rotation", "signers", "email_ciphertext", 1, 0⟩,
    .updateRow "signers" "signer" 2,
    .updateColumn ("rotation", "signers", "email_ciphertext") fun column =>
      { column with rowsReencrypted := 1 },
    .updateRotation "rotation" true fun rotation => { rotation with state := .VERIFIED }]

theorem verifiedRotations_throughout_sample : Throughout ledgerStep VerifiedRotations
    (.unrotated [⟨"signers", "signer", 1⟩])
    (verifiedRotation ++ [.insertRow (some 2) ⟨"signers", "late", 1⟩]) := by
  obtain ⟨s, hs⟩ := Option.isSome_iff_exists.mp (show (run ledgerStep
    (.unrotated [⟨"signers", "signer", 1⟩])
    (verifiedRotation ++ [.insertRow (some 2) ⟨"signers", "late", 1⟩])).isSome = true by
      decide +kernel)
  exact (verifiedRotations_throughout_iff hs).mpr (by decide +kernel)

/-- A session without a key version writes a row under the first key, after the verification. -/
theorem not_verifiedRotations_late_row : ¬∀ (rows : List EncryptedRow) (steps : List LedgerStep)
    (s : KeyLedger), run ledgerStep (.unrotated rows) steps = some s →
      Throughout ledgerStep VerifiedRotations (.unrotated rows) steps := by
  intro hall
  have hrun : run ledgerStep (.unrotated [⟨"signers", "signer", 1⟩])
      (verifiedRotation ++ [.insertRow none ⟨"signers", "late", 1⟩]) =
      some ⟨[{ KeyRotation.sample with state := .VERIFIED }],
        [⟨"rotation", "signers", "email_ciphertext", 1, 1⟩],
        [⟨"signers", "signer", 2⟩, ⟨"signers", "late", 1⟩]⟩ := by
    decide +kernel
  have hverified := (hall _ _ _ hrun).last hrun
  have hcleared := (hverified _ List.mem_cons_self rfl).cleared _ List.mem_cons_self rfl
  exact hcleared ⟨"signers", "late", 1⟩ (List.mem_cons_of_mem _ List.mem_cons_self) rfl rfl

end Kommunsign
