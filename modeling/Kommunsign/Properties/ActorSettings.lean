import Kommunsign.Data.ActorSettings

/-!
# Terminal statuses and evidence under every setting

The guards refuse whoever the setting names that is no server. They refuse nobody when the session
has no setting: their conditions are unknown then, and the exception is not raised.

* `RowChange.Permitted` — what a change asks of the actor
* `guards_permit_iff` — for which statements and settings the guards are enough
-/

namespace Kommunsign

open Infra

/-- The row reaches a status that needs verified evidence, or is evidence itself. -/
def RowChange.Guarded : RowChange → Prop
  | .insertStatus _ status => ∃ s ∈ terminalStatuses, status = some s
  | .updateStatus _ old set => ∃ s ∈ terminalStatuses, set = some (some s) ∧ old ≠ some s
  | .insertEvidence _ => True
  | _ => False

/-- The actor is exactly a server; for cryptographic evidence, exactly the trusted service. -/
def RowChange.ByServer (actor : Setting) : RowChange → Prop
  | .insertEvidence table =>
    actor = some "trusted_service" ∨ (actor = some "worker" ∧ table.isCryptographic = false)
  | _ => actor = some "worker" ∨ actor = some "trusted_service"

def RowChange.Permitted (actor : Setting) (change : RowChange) : Prop :=
  change.Guarded → change.ByServer actor

instance (change : RowChange) : Decidable change.Guarded := by
  cases change <;> unfold RowChange.Guarded <;> infer_instance

theorem mem_serverActors {actor : Setting} :
    (∃ a ∈ serverActors, actor = some a) ↔
      actor = some "worker" ∨ actor = some "trusted_service" := by
  simp [serverActors]

/-! ## One change -/

section Change

variable {actor : Setting} {change : RowChange}

theorem guards_of_missing : refuse (change.guards none) = .ok () := by
  cases change with
  | insertStatus table status => exact Setting.preventUnverifiedTerminalStatus_iff.mpr (.inl rfl)
  | updateStatus table old set =>
    cases set with
    | none => rfl
    | some status => exact Setting.preventUnverifiedTerminalStatus_iff.mpr (.inl rfl)
  | insertEvidence table =>
    rw [RowChange.guards]
    split
    · exact Setting.requireTrustedCryptographicService_iff.mpr (.inl rfl)
    · exact Setting.requireEvidenceWriter_iff.mpr (.inl rfl)
  | deleteStatus | updateEvidence | deleteEvidence => rfl

theorem permitted_of_guards (hset : actor ≠ none) (h : refuse (change.guards actor) = .ok ()) :
    change.Permitted actor := by
  intro hguarded
  cases change with
  | insertStatus table status =>
    have hserver := (Setting.preventUnverifiedTerminalStatus_iff.mp h).resolve_left hset hguarded
    exact mem_serverActors.mp hserver
  | updateStatus table old set =>
    obtain ⟨s, hterminal, rfl, -⟩ := hguarded
    have hserver :=
      (Setting.preventUnverifiedTerminalStatus_iff.mp h).resolve_left hset ⟨s, hterminal, rfl⟩
    exact mem_serverActors.mp hserver
  | insertEvidence table =>
    rw [RowChange.guards] at h
    split at h
    · exact .inl ((Setting.requireTrustedCryptographicService_iff.mp h).resolve_left hset)
    · rename_i hcryptographic
      have hserver := (Setting.requireEvidenceWriter_iff.mp h).resolve_left hset
      rcases mem_serverActors.mp hserver with hworker | htrusted
      · exact .inr ⟨hworker, Bool.not_eq_true _ ▸ hcryptographic⟩
      · exact .inl htrusted
  | deleteStatus | updateEvidence | deleteEvidence => exact hguarded.elim

theorem not_byServer_of_missing : ¬ change.ByServer none := by
  cases change <;> simp [RowChange.ByServer]

end Change

/-! ## Statements -/

section Statement

variable {rest : List RowChange → Checks} {actor : Setting} {changes : List RowChange}

theorem refuse_flatMap {α : Type} {f : α → Checks} {xs : List α} :
    refuse (xs.flatMap f) = .ok () ↔ ∀ x ∈ xs, refuse (f x) = .ok () := by
  induction xs with
  | nil => simp
  | cons x xs ih => rw [List.flatMap_cons, refuse_append, ih, List.forall_mem_cons]

theorem executeStatement_iff :
    executeStatement rest actor changes = .ok () ↔
      (∀ change ∈ changes, refuse (change.guards actor) = .ok ()) ∧
        refuse (rest changes) = .ok () := by
  rw [executeStatement, refuse_append, refuse_flatMap]

end Statement

/-- The guards alone make every row of a statement permitted when the setting is there, when the
statement makes no guarded row, or when it is refused for another reason; and never else. -/
theorem guards_permit_iff (rest : List RowChange → Checks) (actor : Setting)
    (changes : List RowChange) :
    (executeStatement rest actor changes = .ok () →
        ∀ change ∈ changes, change.Permitted actor) ↔
      actor ≠ none ∨ (∀ change ∈ changes, ¬ change.Guarded) ∨ refuse (rest changes) ≠ .ok () := by
  constructor
  · intro hpermits
    by_contra hnot
    simp only [not_or, not_not, not_forall] at hnot
    obtain ⟨rfl, ⟨change, hmem, hguarded⟩, hrest⟩ := hnot
    -- nothing stands against the statement, and the guarded row of it has no server
    have hok := executeStatement_iff.mpr ⟨fun _ _ => guards_of_missing, hrest⟩
    exact not_byServer_of_missing (hpermits hok change hmem hguarded)
  · intro hwhen hok change hmem
    obtain ⟨hguards, hrest⟩ := executeStatement_iff.mp hok
    rcases hwhen with hset | hnone | hrefused
    · exact permitted_of_guards hset (hguards change hmem)
    · exact fun hguarded => absurd hguarded (hnone change hmem)
    · exact absurd hrest hrefused

/-- A session without the setting inserts a certificate and moves an attempt to `validated`, over
the transitions that the attempts allow. -/
theorem missing_setting_passes :
    executeStatement (·.flatMap RowChange.attemptTransition) none
        [.insertEvidence .signatureCertificates,
          .updateStatus .signatureAttempts (some "signed") (some (some "validated"))] = .ok () ∧
      ¬ (RowChange.insertEvidence .signatureCertificates).Permitted none ∧
      ¬ (RowChange.updateStatus .signatureAttempts (some "signed")
          (some (some "validated"))).Permitted none :=
  ⟨rfl, fun h => not_byServer_of_missing (h trivial),
    fun h => not_byServer_of_missing (h (by decide))⟩

end Kommunsign
