import Kommunsign.Data.Rows

/-!
# The PAdES level ladder and the admission gate

One rule stands in two places. `packages/pades` decides over references that a caller hands it,
and migration 0021 decides over the rows of the evidence tables; the policy snapshot is read once
by the worker and once by the triggers.

* `padesLevelRank`, `attainedPadesLevel?` — the ladder of the database
* `attainedPadesLevel`, `admitPadesSignature` — the ladder and the gate of `packages/pades`
-/

namespace Kommunsign

open Infra

/-- Why a statement or a handler stops. -/
inductive Failure where
  /-- `RAISE EXCEPTION` of a trigger. -/
  | raised (message : String)
  /-- A unique, foreign key or check constraint. -/
  | constraint (name : String)
  /-- An error thrown by the TypeScript. -/
  | thrown (code : String)
  deriving DecidableEq, Repr

namespace PadesLevel

def all : List PadesLevel := [.B, .T, .LT, .LTA]

/-- The level as a policy writes it. -/
def name : PadesLevel → Text
  | .B => "B".toList
  | .T => "T".toList
  | .LT => "LT".toList
  | .LTA => "LTA".toList

/-- The level as an artifact records it. -/
def format (level : PadesLevel) : Text := "PAdES-".toList ++ level.name

def ofName (s : Text) : Option PadesLevel := all.find? fun level => level.name == s

def rank : PadesLevel → Nat
  | .B => 1
  | .T => 2
  | .LT => 3
  | .LTA => 4

theorem name_of_ofName {s : Text} {level : PadesLevel} (h : ofName s = some level) :
    level.name = s := by
  have := List.find?_some h
  simpa using this

end PadesLevel

/-! ## The ladder of the database -/

/-- `replace(s, word, '')`; `skip` characters of a match are still to be dropped. -/
def removeWord (word : Text) : Nat → Text → Text
  | _, [] => []
  | skip + 1, _ :: s => removeWord word skip s
  | 0, c :: s =>
    if (Json.stripWord word (c :: s)).isSome then removeWord word (word.length - 1) s
    else c :: removeWord word 0 s

/-- `app.pades_level_rank`. -/
def padesLevelRank (level : Option Text) : Option Nat :=
  let name := removeWord "PAdES-".toList 0 (level.getD "NONE".toList)
  if name = "NONE".toList then some 0
  else if name = "B".toList then some 1
  else if name = "T".toList then some 2
  else if name = "LT".toList then some 3
  else if name = "LTA".toList then some 4
  else none

/-- `a >= b` in a `where` clause, where a null side makes it not true. -/
def rankGe : Option Nat → Option Nat → Bool
  | some a, some b => b ≤ a
  | _, _ => false

/-- `a > b` in an `if`, where a null side makes it not true. -/
def rankGt : Option Nat → Option Nat → Bool
  | some a, some b => b < a
  | _, _ => false

@[simp] theorem padesLevelRank_format (level : PadesLevel) :
    padesLevelRank (some level.format) = some level.rank := by
  cases level <;> decide

@[simp] theorem padesLevelRank_name (level : PadesLevel) :
    padesLevelRank (some level.name) = some level.rank := by
  cases level <;> decide

def Db.hasEvidence (db : Db) (kind : EvidenceKind) (artifactId : Id) : Bool :=
  db.evidence.any fun e => e.kind == kind && e.signatureArtifactId == artifactId

/-- `app.attained_pades_level`. -/
def Db.attainedPadesLevel? (db : Db) (artifactId : Id) : Option PadesLevel :=
  if !(db.hasEvidence .signatureCertificate artifactId &&
      db.hasEvidence .certificateChain artifactId) then none
  else if !db.hasEvidence .signatureTimestamp artifactId then some .B
  else if !((db.hasEvidence .ocspEvidence artifactId || db.hasEvidence .crlEvidence artifactId) &&
      db.validationRuns.any fun run =>
        run.signatureArtifactId == artifactId && run.trustListSnapshotObjectKey.isSome) then some .T
  else if !db.hasEvidence .archiveTimestamp artifactId then some .LT
  else some .LTA

/-! ## The triggers' reading of the policy snapshot -/

/-- `policy ->> name`. -/
def Json.textOf (policy : Json) (name : String) : Option Text :=
  match policy.field name with
  | none | some .null => none
  | some (.str s) => some s
  | some value => some value.render

/-- `value ? word`. -/
def Json.hasWord (word : String) : Json → Bool
  | .arr items => items.any fun item => decide (item = Json.lit word)
  | .obj members => members.any fun m => m.1 == word.toList
  | .str s => s == word.toList
  | _ => false

/-- `coalesce(policy->>'requiredPadesLevel', 'B')`. -/
def requiredLevelText (policy : Json) : Text :=
  (Json.textOf policy "requiredPadesLevel").getD "B".toList

/-- Whether a validation run counts under the policy. -/
def acceptsIndication (policy : Json) : Indication → Bool
  | .TOTAL_PASSED => true
  | .INDETERMINATE =>
    Json.hasWord "INDETERMINATE"
      ((policy.field "allowedValidationResults").getD (.arr [Json.lit "TOTAL_PASSED"]))
  | .TOTAL_FAILED => false

/-! ## The worker's reading of the policy snapshot -/

/-- `requiredPadesLevel` of `pades-handlers.ts`; the level `NONE` is `none`. -/
def requiredPadesLevel (policy : Json) : Except Failure (Option PadesLevel) :=
  match policy.field "requiredPadesLevel" with
  | some (.str s) =>
    if s = "NONE".toList then .ok none
    else
      match PadesLevel.ofName s with
      | some level => .ok (some level)
      | none => .error (.thrown "SIGNATURE_POLICY_REQUIRED_PADES_LEVEL_INVALID")
  | _ => .error (.thrown "SIGNATURE_POLICY_REQUIRED_PADES_LEVEL_INVALID")

def allowedIndication (entry : Json) : Option Indication :=
  if entry = Json.lit "TOTAL_PASSED" then some .TOTAL_PASSED
  else if entry = Json.lit "INDETERMINATE" then some .INDETERMINATE
  else none

def allowedValidationResults (policy : Json) : List Indication :=
  match policy.field "allowedValidationResults" with
  | some (.arr items) =>
    let allowed := items.filterMap allowedIndication
    if allowed.isEmpty then [.TOTAL_PASSED] else allowed
  | _ => [.TOTAL_PASSED]

/-- JavaScript truth of a property. -/
def Json.isTruthy : Option Json → Bool
  | none | some .null => false
  | some (.bool b) => b
  | some (.num n) => n != 0
  | some (.str s) => !s.isEmpty
  | some (.arr _) | some (.obj _) => true

def requiresTimestamp (policy : Json) : Bool := Json.isTruthy (policy.field "requiresTimestamp")

/-! ## The gate of `packages/pades` -/

/-- The name of an evidence row: its table and its artifact. -/
structure EvidenceReference where
  kind : EvidenceKind
  signatureArtifactId : Id
  deriving DecidableEq

/-- What the gate is handed. -/
structure AdmissionEvidence where
  signedRevisionSha256 : Option Digest
  signingCertificateReference : Option EvidenceReference
  certificateChainReference : Option EvidenceReference
  signatureTimestampReference : Option EvidenceReference
  revocationEvidenceReferences : List EvidenceReference
  trustListSnapshotReference : Option EvidenceReference
  archiveTimestampReference : Option EvidenceReference
  validationResult : Option Indication
  validatedAt : Option Time

structure PadesAdmissionPolicy where
  requiredPadesLevel : Option PadesLevel
  requiresTimestamp : Bool
  allowedValidationResults : List Indication

inductive PadesRejectionCode where
  | PADES_SIGNATURE_MISSING
  | PADES_CERTIFICATE_MISSING
  | PADES_CHAIN_MISSING
  | PADES_NOT_VALIDATED
  | PADES_VALIDATION_FAILED
  | PADES_VALIDATION_RESULT_NOT_ALLOWED
  | PADES_TIMESTAMP_MISSING
  | PADES_REVOCATION_EVIDENCE_MISSING
  | PADES_TRUST_LIST_MISSING
  | PADES_ARCHIVE_TIMESTAMP_MISSING
  | PADES_LEVEL_NOT_REACHED
  | PADES_NOT_REQUIRED_BY_POLICY
  deriving DecidableEq, Repr

def attainedPadesLevel (evidence : AdmissionEvidence) : Option PadesLevel :=
  if evidence.signedRevisionSha256.isNone || evidence.signingCertificateReference.isNone ||
      evidence.certificateChainReference.isNone then none
  else if evidence.signatureTimestampReference.isNone then some .B
  else if evidence.revocationEvidenceReferences.isEmpty ||
      evidence.trustListSnapshotReference.isNone then some .T
  else if evidence.archiveTimestampReference.isNone then some .LT
  else some .LTA

def missingEvidenceCode (evidence : AdmissionEvidence) (required : PadesLevel) :
    PadesRejectionCode :=
  if evidence.signedRevisionSha256.isNone then .PADES_SIGNATURE_MISSING
  else if evidence.signingCertificateReference.isNone then .PADES_CERTIFICATE_MISSING
  else if evidence.certificateChainReference.isNone then .PADES_CHAIN_MISSING
  else if evidence.signatureTimestampReference.isNone then .PADES_TIMESTAMP_MISSING
  else if (required = .LT || required = .LTA) && evidence.revocationEvidenceReferences.isEmpty then
    .PADES_REVOCATION_EVIDENCE_MISSING
  else if (required = .LT || required = .LTA) && evidence.trustListSnapshotReference.isNone then
    .PADES_TRUST_LIST_MISSING
  else if required = .LTA && evidence.archiveTimestampReference.isNone then
    .PADES_ARCHIVE_TIMESTAMP_MISSING
  else .PADES_LEVEL_NOT_REACHED

/-- The level that may be recorded, or why none may. -/
def admitPadesSignature (policy : PadesAdmissionPolicy) (evidence : AdmissionEvidence) :
    Except PadesRejectionCode PadesLevel :=
  match policy.requiredPadesLevel, evidence.validationResult with
  | none, _ => .error .PADES_NOT_REQUIRED_BY_POLICY
  | some _, none => .error .PADES_NOT_VALIDATED
  | some required, some result =>
    if evidence.validatedAt.isNone then .error .PADES_NOT_VALIDATED
    else if result = .TOTAL_FAILED then .error .PADES_VALIDATION_FAILED
    else if !policy.allowedValidationResults.contains result then
      .error .PADES_VALIDATION_RESULT_NOT_ALLOWED
    else
      match attainedPadesLevel evidence with
      | none => .error (missingEvidenceCode evidence required)
      | some attained =>
        if policy.requiresTimestamp && evidence.signatureTimestampReference.isNone then
          .error .PADES_TIMESTAMP_MISSING
        else if attained.rank < required.rank then .error (missingEvidenceCode evidence required)
        else .ok attained

/-! ## The two readings -/

theorem requiredLevelText_of_requiredPadesLevel {policy : Json} {level : PadesLevel}
    (h : requiredPadesLevel policy = .ok (some level)) : requiredLevelText policy = level.name := by
  unfold requiredPadesLevel at h
  unfold requiredLevelText Json.textOf
  split at h
  · next s hs =>
    split at h
    · cases h
    · split at h
      · next level' hl =>
        cases h
        rw [hs]
        exact (PadesLevel.name_of_ofName hl).symm
      · cases h
  · cases h

theorem mem_allowedValidationResults {policy : Json} {result : Indication}
    (h : result ∈ allowedValidationResults policy) :
    result = .TOTAL_PASSED ∨ result = .INDETERMINATE := by
  cases result with
  | TOTAL_PASSED => exact Or.inl rfl
  | INDETERMINATE => exact Or.inr rfl
  | TOTAL_FAILED =>
    exfalso
    unfold allowedValidationResults at h
    split at h
    · next items hi =>
      simp only at h
      split at h
      · simp at h
      · obtain ⟨entry, -, he⟩ := List.mem_filterMap.mp h
        unfold allowedIndication at he
        split at he
        · cases he
        · split at he <;> cases he
    · simp at h

theorem acceptsIndication_of_allowed {policy : Json} {result : Indication}
    (h : result ∈ allowedValidationResults policy) : acceptsIndication policy result = true := by
  rcases mem_allowedValidationResults h with rfl | rfl
  · rfl
  · unfold allowedValidationResults at h
    unfold acceptsIndication
    split at h
    · next items hi =>
      simp only at h
      split at h
      · simp at h
      · obtain ⟨entry, hentry, he⟩ := List.mem_filterMap.mp h
        unfold allowedIndication at he
        split at he
        · cases he
        · split at he
          · next hlit =>
            rw [hi, Option.getD_some, Json.hasWord, List.any_eq_true]
            exact ⟨entry, hentry, by simpa using hlit⟩
          · cases he
    · simp at h

end Kommunsign
