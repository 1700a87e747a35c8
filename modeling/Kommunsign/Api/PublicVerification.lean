import Kommunsign.Workflow.CaseDocuments
import Mathlib.Data.List.Dedup

/-!
# Public verification of an evidence package

Whoever has the verification id of a package may look up what was signed. The view is not read from
the package: it is queried again from the tables, whatever has become of them since.

* `Registry` — the workflow, with the columns of the identity artifacts and the packages that it
  leaves out
* `loadEvidence` — the queries of `loadEvidenceFiles` that say what a package covers
-/

namespace Kommunsign

open Infra

/-- What a report of the validation service adds to the row of `app.tic_identity_artifacts`. -/
structure VerificationResult where
  pass : Bool
  engine : Text
  policyVersion : Text
  verifiedAt : Time

structure VerifiedArtifact extends IdentityArtifact where
  verifierEngine : Text
  verifierPolicyVersion : Text
  verifiedAt : Time

/-! ## What a package covers -/

structure EvidenceSignerRow where
  id : Id
  verifiedAt : Time
  deriving DecidableEq

/-- A document that is sealed; the object under the canonical key has the digest of the row. -/
structure EvidenceDocumentRow where
  displayName : Text
  sha256 : Digest
  deriving DecidableEq

/-- What `loadEvidenceFiles` has read for the package of a case or of a signer. -/
structure EvidenceLoad where
  signatureCaseId : Id
  signerId : Option Id
  signers : List EvidenceSignerRow
  documents : List EvidenceDocumentRow
  deriving DecidableEq

/-- The signers whose evidence the package has. -/
def EvidenceLoad.covered (load : EvidenceLoad) : List Id := (load.signers.map (·.id)).dedup

/-- `createdAt` of the manifest: the latest verification that the package has. -/
def EvidenceLoad.createdAt (load : EvidenceLoad) : Time :=
  (load.signers.map (·.verifiedAt)).max?.getD 0

/-- A ready row of `app.evidence_packages`. -/
structure ReadyPackage where
  contents : EvidenceLoad
  verificationId : Text
  packageSha256 : Digest
  deriving DecidableEq

structure Registry where
  sys : Sys
  artifacts : List VerifiedArtifact
  /-- The packages that have been loaded and are being built. -/
  loads : List EvidenceLoad
  packages : List ReadyPackage

namespace Registry

variable (r : Registry)

def db : Db := r.sys.db

/-- The accepted verifications of the signers of the case, or of one of them, in the order of the signers. -/
def evidenceSigners (signatureCaseId : Id) (signerId : Option Id) : List EvidenceSignerRow :=
  ((r.db.signersInOrder signatureCaseId).filter fun s => signerId.all (· == s.id)).flatMap fun s =>
    (r.db.intents.filter (·.signerId == s.id)).flatMap fun si =>
      (r.artifacts.filter fun a => a.signingIntentId == si.id && a.pass).map fun a =>
        ⟨s.id, a.verifiedAt⟩

/-- `order by d.created_at, d.id`, of the versions that are locked. -/
def evidenceVersions (signatureCaseId : Id) : List (Document × DocumentVersion) :=
  ((r.db.caseVersions signatureCaseId).filter (·.2.status.isFrozen)).insertionSort fun a b =>
    a.1.createdAt < b.1.createdAt ∨ a.1.createdAt = b.1.createdAt ∧ a.1.id ≤ b.1.id

end Registry

def documentRow (dv : Document × DocumentVersion) : Except Failure EvidenceDocumentRow := do
  let _ ← orFail "DOCUMENT_NOT_READY" dv.2.canonicalObjectKey
  let sha256 ← orFail "DOCUMENT_HASH_MISSING" dv.2.sha256
  return ⟨dv.1.displayName, sha256⟩

/-- Only the package of the case has the documents in it. -/
def loadEvidence (r : Registry) (signatureCaseId : Id) (signerId : Option Id) :
    Except Failure EvidenceLoad := do
  let _ ← orFail "SIGNATURE_CASE_NOT_FOUND" (r.db.case? signatureCaseId)
  let signers := r.evidenceSigners signatureCaseId signerId
  if signers = [] then throw (.thrown "EVIDENCE_VERIFIED_SIGNER_MISSING")
  let documents ← if signerId.isNone then (r.evidenceVersions signatureCaseId).mapM documentRow
    else pure []
  return ⟨signatureCaseId, signerId, signers, documents⟩

/-! ## What is published -/

structure PublicVerificationView where
  organization : Text
  caseReference : Text
  documents : List (Text × Option Digest)
  signerCount : Nat
  signedAt : Time
  verifierEngine : Option Text
  verifierPolicyVersion : Option Text
  packageSha256 : Digest

/-- `/^[A-Za-z0-9_-]{16,100}$/`. -/
def isVerificationId (text : Text) : Bool :=
  16 ≤ text.length && text.length ≤ 100 && text.all fun c => c.isAlphanum || c == '_' || c == '-'

/-- `randomToken(32)`: the number of 32 random bytes in hexadecimal. -/
def randomToken (bytes : Nat) : Text := digits 16 64 bytes

namespace Registry

variable (r : Registry)

/-- `app.resolve_public_verification`. -/
def resolvePublicVerification (verificationId : Text) : Option ReadyPackage :=
  r.packages.find? (·.verificationId == verificationId)

/-- The artifacts whose intents are of the case, accepted or not. -/
def caseArtifacts (signatureCaseId : Id) : List VerifiedArtifact :=
  r.artifacts.filter fun a =>
    (r.db.intent? a.signingIntentId).any (·.signatureCaseId == signatureCaseId)

/-- `order by tia.verified_at desc limit 1`. -/
def latestArtifact? (signatureCaseId : Id) : Option VerifiedArtifact :=
  ((r.caseArtifacts signatureCaseId).insertionSort fun a b => b.verifiedAt ≤ a.verifiedAt).head?

def signedSigners (signatureCaseId : Id) : List Signer :=
  r.db.signers.filter fun s => s.signatureCaseId == signatureCaseId && s.status == .signed

/-- The documents under the names that the database's collation orders. -/
def publicDocuments (collate : Text → Text → Bool) (signatureCaseId : Id) :
    List (Text × Option Digest) :=
  (r.db.listedDocuments signatureCaseId).dedup.insertionSort fun a b => collate a.1 b.1 = true

/-- `publicVerification.get`. A `null` as the time becomes the beginning of 1970. -/
def publicVerification (collate : Text → Text → Bool) (verificationId : Text) :
    Except Failure (Option PublicVerificationView) := do
  if !isVerificationId verificationId then return none
  match r.resolvePublicVerification verificationId with
  | none => return none
  | some p =>
    let c ← orFail "NOT_FOUND" (r.db.case? p.contents.signatureCaseId)
    return some {
      organization := r.db.organizationName.getD "Kommunsign-tenant".toList
      caseReference := c.externalReference.getD (idText c.id)
      documents := r.publicDocuments collate c.id
      signerCount := (r.signedSigners c.id).length
      signedAt := ((r.caseArtifacts c.id).map (·.verifiedAt)).max?.getD 0
      verifierEngine := (r.latestArtifact? c.id).map (·.verifierEngine)
      verifierPolicyVersion := (r.latestArtifact? c.id).map (·.verifierPolicyVersion)
      packageSha256 := p.packageSha256 }

end Registry

/-! ## The system -/

inductive RegistryStep where
  /-- Any other step of the workflow. -/
  | workflow (i : Step)
  | verify (index : Nat) (result : VerificationResult)
  | load (signatureCaseId : Id) (signerId : Option Id)
  | build (index : Nat) (token : Nat) (packageSha256 : Digest)

/-- The job that builds the package. -/
def packageJob (signatureCaseId : Id) : Option Id → DurableJob
  | some signerId => .signerPackage signatureCaseId signerId
  | none => .casePackage signatureCaseId

/-- The steps that the registry takes in a form of its own. -/
def Step.isRegistered : Step → Bool
  | .recordVerification _ _ | .buildPackage _ _ => true
  | _ => false

def Registry.step (r : Registry) : RegistryStep → Option Registry
  | .workflow i => do
    if i.isRegistered then none
    some { r with sys := ← Sys.step r.sys i }
  | .verify index result => do
    let sys ← Sys.step r.sys (.recordVerification index result.pass)
    let inserted := sys.db.identityArtifacts.drop r.db.identityArtifacts.length
    some { r with
      sys := sys
      artifacts := r.artifacts ++ inserted.map fun a =>
        ⟨a, result.engine, result.policyVersion, result.verifiedAt⟩ }
  | .load c signerId => do
    if packageJob c signerId ∉ r.db.jobs then none
    some { r with loads := r.loads ++ [← (loadEvidence r c signerId).toOption] }
  | .build index token packageSha256 => do
    let load ← r.loads[index]?
    let sys ← Sys.step r.sys (.buildPackage load.signatureCaseId load.signerId)
    let loads := r.loads.eraseIdx index
    if ⟨load.signatureCaseId, load.signerId⟩ ∈ r.db.evidencePackages then
      return { r with sys := sys, loads := loads }
    -- `evidence_packages_public_verification_idx`
    if r.packages.any (·.verificationId == randomToken token) then none
    some { r with
      sys := sys
      loads := loads
      packages := r.packages ++ [⟨load, randomToken token, packageSha256⟩] }

def Registry.start (tenantId : Text) (organizationName : Option Text) (rollout : Bool)
    (clock : Time) : Registry :=
  ⟨Sys.start tenantId organizationName rollout clock, [], [], []⟩

/-! ## Steps that have been taken -/

section Steps

variable {r r' : Registry}

theorem step_workflow {i : Step} (h : r.step (.workflow i) = some r') :
    ∃ sys, i.isRegistered = false ∧ Sys.step r.sys i = some sys ∧ r' = { r with sys := sys } := by
  simp only [Registry.step] at h
  cases hregistered : i.isRegistered with
  | true => simp [hregistered] at h
  | false =>
    simp only [hregistered, Bool.false_eq_true, if_false, Option.bind_eq_bind,
      Option.bind_eq_some_iff, Option.some.injEq] at h
    obtain ⟨sys, hsys, rfl⟩ := h
    exact ⟨sys, rfl, hsys, rfl⟩

theorem step_verify {index : Nat} {result : VerificationResult}
    (h : r.step (.verify index result) = some r') : ∃ sys,
      Sys.step r.sys (.recordVerification index result.pass) = some sys ∧
      r' = { r with
        sys := sys
        artifacts := r.artifacts ++ (sys.db.identityArtifacts.drop
          r.db.identityArtifacts.length).map fun a =>
            ⟨a, result.engine, result.policyVersion, result.verifiedAt⟩ } := by
  simp only [Registry.step, Option.bind_eq_bind, Option.bind_eq_some_iff, Option.some.injEq] at h
  obtain ⟨sys, hsys, rfl⟩ := h
  exact ⟨sys, hsys, rfl⟩

theorem step_load {c : Id} {signerId : Option Id} (h : r.step (.load c signerId) = some r') :
    ∃ load, loadEvidence r c signerId = .ok load ∧ r' = { r with loads := r.loads ++ [load] } := by
  simp only [Registry.step] at h
  by_cases hjob : packageJob c signerId ∈ r.db.jobs
  · simp only [hjob, not_true_eq_false, if_false, Option.bind_eq_bind, Option.bind_eq_some_iff,
      Option.some.injEq] at h
    obtain ⟨load, hload, rfl⟩ := h
    exact ⟨load, toOption_eq_some.mp hload, rfl⟩
  · simp [hjob] at h

theorem step_build {index token : Nat} {packageSha256 : Digest}
    (h : r.step (.build index token packageSha256) = some r') :
    ∃ load sys, r.loads[index]? = some load ∧
      Sys.step r.sys (.buildPackage load.signatureCaseId load.signerId) = some sys ∧
      (r' = { r with sys := sys, loads := r.loads.eraseIdx index } ∨
        (∀ p ∈ r.packages, p.verificationId ≠ randomToken token) ∧
        r' = { r with
          sys := sys
          loads := r.loads.eraseIdx index
          packages := r.packages ++ [⟨load, randomToken token, packageSha256⟩] }) := by
  simp only [Registry.step, Option.bind_eq_bind, Option.bind_eq_some_iff] at h
  obtain ⟨load, hload, sys, hsys, h⟩ := h
  refine ⟨load, sys, hload, hsys, ?_⟩
  by_cases hready : ⟨load.signatureCaseId, load.signerId⟩ ∈ r.db.evidencePackages
  · simp only [hready, if_true, Option.pure_def, Option.some.injEq] at h
    exact Or.inl h.symm
  · cases hany : r.packages.any (·.verificationId == randomToken token) with
    | true => simp [hready, hany] at h
    | false =>
      simp only [hready, hany, if_false, Bool.false_eq_true, Option.some.injEq] at h
      rw [List.any_eq_false] at hany
      exact Or.inr ⟨fun p hp heq => hany p hp (beq_iff_eq.mpr heq), h.symm⟩

theorem sys_of_step {i : RegistryStep} (h : r.step i = some r') :
    r'.sys = r.sys ∨ ∃ j, Sys.step r.sys j = some r'.sys := by
  cases i with
  | workflow i =>
    obtain ⟨sys, -, hsys, rfl⟩ := step_workflow h
    exact Or.inr ⟨i, hsys⟩
  | verify index result =>
    obtain ⟨sys, hsys, rfl⟩ := step_verify h
    exact Or.inr ⟨_, hsys⟩
  | load c signerId =>
    obtain ⟨load, -, rfl⟩ := step_load h
    exact Or.inl rfl
  | build index token packageSha256 =>
    obtain ⟨load, sys, -, hsys, rfl | ⟨-, rfl⟩⟩ := step_build h <;> exact Or.inr ⟨_, hsys⟩

end Steps

/-! ## What the queries answer -/

section Queries

variable {r : Registry} {c : Id} {signerId : Option Id}

theorem mem_evidenceSigners {row : EvidenceSignerRow} (h : row ∈ r.evidenceSigners c signerId) :
    ∃ s ∈ r.db.signers, s.signatureCaseId = c ∧ s.id = row.id ∧
      ∃ si ∈ r.db.intents, si.signerId = s.id ∧
        ∃ a ∈ r.artifacts, a.signingIntentId = si.id ∧ a.verifiedAt = row.verifiedAt := by
  simp only [Registry.evidenceSigners, List.mem_flatMap, List.mem_filter, List.mem_map,
    beq_iff_eq, Bool.and_eq_true] at h
  obtain ⟨s, ⟨hs, -⟩, si, ⟨hsi, hsigner⟩, a, ⟨ha, hintent, -⟩, rfl⟩ := h
  rw [Db.signersInOrder, (List.perm_insertionSort _ _).mem_iff, List.mem_filter, beq_iff_eq] at hs
  exact ⟨s, hs.1, hs.2, rfl, si, hsi, hsigner, a, ha, hintent, rfl⟩

theorem mem_evidenceVersions {dv : Document × DocumentVersion} :
    dv ∈ r.evidenceVersions c ↔ dv ∈ r.db.caseVersions c ∧ dv.2.status.isFrozen = true := by
  rw [Registry.evidenceVersions, (List.perm_insertionSort _ _).mem_iff, List.mem_filter]

theorem documentRow_eq_ok {dv : Document × DocumentVersion} {row : EvidenceDocumentRow}
    (h : documentRow dv = .ok row) :
    row.displayName = dv.1.displayName ∧ dv.2.sha256 = some row.sha256 := by
  unfold documentRow at h
  obtain ⟨_, -, h⟩ := except_bind_eq_ok.mp h
  obtain ⟨sha256, hsha, h⟩ := except_bind_eq_ok.mp h
  cases h
  exact ⟨rfl, orFail_eq_ok.mp hsha⟩

/-- What has been loaded: the verified signers, and for a case the versions that are locked. -/
structure Loaded (r : Registry) (c : Id) (signerId : Option Id) (load : EvidenceLoad) : Prop where
  ofCase : load.signatureCaseId = c
  ofSigner : load.signerId = signerId
  signers : load.signers = r.evidenceSigners c signerId
  nonempty : load.signers ≠ []
  documents : signerId = none → List.Forall₂ (fun dv row => documentRow dv = .ok row)
    (r.evidenceVersions c) load.documents
  noDocuments : signerId ≠ none → load.documents = []

theorem loadEvidence_eq_ok {load : EvidenceLoad} (h : loadEvidence r c signerId = .ok load) :
    Loaded r c signerId load := by
  unfold loadEvidence at h
  obtain ⟨_, -, h⟩ := except_bind_eq_ok.mp h
  obtain ⟨hsome, h⟩ := except_guard_eq_ok.mp h
  cases signerId with
  | none =>
    obtain ⟨documents, hdocuments, h⟩ := except_bind_eq_ok.mp h
    cases h
    exact ⟨rfl, rfl, rfl, hsome, fun _ => except_mapM_eq_ok.mp hdocuments, fun hnot => absurd rfl hnot⟩
  | some signerId =>
    cases h
    exact ⟨rfl, rfl, rfl, hsome, nofun, fun _ => rfl⟩

theorem mem_publicDocuments {collate : Text → Text → Bool} {entry : Text × Option Digest} :
    entry ∈ r.publicDocuments collate c ↔ entry ∈ r.db.listedDocuments c := by
  rw [Registry.publicDocuments, (List.perm_insertionSort _ _).mem_iff, List.mem_dedup]

theorem mem_caseArtifacts {a : VerifiedArtifact} : a ∈ r.caseArtifacts c ↔ a ∈ r.artifacts ∧
    ∃ si, r.db.intent? a.signingIntentId = some si ∧ si.signatureCaseId = c := by
  simp only [Registry.caseArtifacts, List.mem_filter, Option.any_eq_true, beq_iff_eq]

theorem length_digits (base : Nat) : ∀ width n, (digits base width n).length = width
  | 0, _ => rfl
  | width + 1, n => by
    rw [digits, List.length_append, length_digits base width, List.length_singleton]

theorem isAlphanum_of_mem_digits : ∀ {width n : Nat} {c : Char}, c ∈ digits 16 width n →
    c.isAlphanum = true
  | 0, _, _, h => nomatch h
  | width + 1, n, c, h => by
    have hdigit : ∀ d < 16, (Json.hexDigit d).isAlphanum = true := by decide
    rw [digits, List.mem_append, List.mem_singleton] at h
    rcases h with h | rfl
    · exact isAlphanum_of_mem_digits h
    · exact hdigit _ (Nat.mod_lt _ (by decide))

theorem isVerificationId_randomToken (token : Nat) :
    isVerificationId (randomToken token) = true := by
  have hall : (randomToken token).all (fun c => c.isAlphanum || c == '_' || c == '-') = true := by
    rw [List.all_eq_true]
    intro c hc
    rw [isAlphanum_of_mem_digits hc]
    rfl
  rw [isVerificationId, hall, randomToken, length_digits]
  rfl

end Queries

end Kommunsign
