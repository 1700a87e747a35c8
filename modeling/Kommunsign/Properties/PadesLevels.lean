import Kommunsign.Properties.SignedEvidence
import Kommunsign.Worker.PadesValidate
import Kommunsign.Worker.RevisionSessions

/-!
# The two level ladders along the pipeline

`handlePadesCreate` fixes the format of an artifact before anything has validated it, and writes
the two kinds of evidence that level B needs. `handlePadesValidate` later hands the gate references
to further evidence, which nothing has written, and never one to a trust list.

* `laddersAgree_iff` — exactly when the ladders agree, for every policy level and report
* `not_laddersAgree_of_level_T` — a policy of level T makes every signature an over-claim
-/

namespace Kommunsign

open Infra

def LevelEvidence.supports (evidence : LevelEvidence) (level : PadesLevel) : Bool :=
  evidence.hasTrustedCertificatePath &&
    (level.rank < PadesLevel.T.rank || evidence.hasSignatureTimestamp) &&
    (level.rank < PadesLevel.LT.rank || evidence.hasRevocationEvidence) &&
    (level.rank < PadesLevel.LTA.rank || evidence.hasArchiveTimestamp)

/--
`db` is the state in which a new artifact at the required level commits. If it commits and a report
is admitted, the gate admits it at the level of the rows and every reference it was handed names a
row; and a report that supports the required level belongs to an artifact that could commit.
-/
structure LaddersAgree (db : Db) (artifact : SignatureArtifact) (policy : Json) (level : PadesLevel)
    (report : PadesReport) : Prop where
  admitted : refuse (assertPadesLevelNotOverclaimed db artifact) = .ok () → report.pass = true →
    ∀ admittedLevel, padesAdmission policy (some level) artifact.id artifact.signedDocumentSha256
        report = .ok admittedLevel →
      db.attainedPadesLevel? artifact.id = some admittedLevel ∧
        ∀ reference ∈ (admissionEvidence artifact.id artifact.signedDocumentSha256
          report).references, db.hasEvidence reference.kind reference.signatureArtifactId = true
  supported : report.levelEvidence.supports level = true →
    refuse (assertPadesLevelNotOverclaimed db artifact) = .ok ()

/--
At level B, no report that the policy admits speaks of evidence beyond the certificate path; at a
higher level, the report does not support the level.
-/
def ReportsNoMore (policy : Json) (level : PadesLevel) (report : PadesReport) : Prop :=
  if level = .B then
    report.pass = true → report.indication ∈ allowedValidationResults policy →
      report.levelEvidence.hasTrustedCertificatePath = true →
      (requiresTimestamp policy = true → report.levelEvidence.hasSignatureTimestamp = true) →
        report.levelEvidence.hasSignatureTimestamp = false ∧
          report.levelEvidence.hasRevocationEvidence = false ∧
          report.levelEvidence.hasArchiveTimestamp = false
  else report.levelEvidence.supports level = false

/-! ## The rows -/

section Rows

variable {db db' : Db} {intent : IntentRow} {document : IntentDocumentRow}
  {artifact : SignatureArtifact} {u : Unit}

theorem hasEvidence_of_writeSignature
    (hfk : ∀ e ∈ db.evidence, ∃ a ∈ db.artifacts, a.id = e.signatureArtifactId)
    (h : writeSignature intent artifact document db = .ok (u, db')) (kind : EvidenceKind) :
    db'.hasEvidence kind artifact.id = (kind == .signatureCertificate || kind == .certificateChain) := by
  obtain ⟨-, -, hartifact, rfl⟩ := writeSignature_eq h
  simp only [Tables.artifacts, refuse_append, refuse_violates, List.any_eq_false,
    beq_iff_eq] at hartifact
  have hnone : (db.evidence.any fun e => e.kind == kind && e.signatureArtifactId == artifact.id) =
      false := by
    rw [List.any_eq_false]
    intro e he hmatch
    obtain ⟨a, ha, hid⟩ := hfk e he
    rw [Bool.and_eq_true, beq_iff_eq, beq_iff_eq] at hmatch
    exact hartifact.1.1 a ha (hid.trans hmatch.2)
  rw [Db.hasEvidence, withSignature, List.any_append, hnone]
  simp only [List.any_cons, List.any_nil, beq_self_eq_true, Bool.and_true, Bool.false_or,
    Bool.or_false]
  cases kind <;> rfl

theorem attainedPadesLevel?_of_writeSignature
    (hfk : ∀ e ∈ db.evidence, ∃ a ∈ db.artifacts, a.id = e.signatureArtifactId)
    (h : writeSignature intent artifact document db = .ok (u, db')) :
    db'.attainedPadesLevel? artifact.id = some .B := by
  have hkind := hasEvidence_of_writeSignature hfk h
  unfold Db.attainedPadesLevel?
  rw [hkind, hkind, hkind]
  rfl

theorem refuse_overclaim_of_writeSignature
    (hfk : ∀ e ∈ db.evidence, ∃ a ∈ db.artifacts, a.id = e.signatureArtifactId)
    (h : writeSignature intent artifact document db = .ok (u, db')) :
    refuse (assertPadesLevelNotOverclaimed db' artifact) = .ok () ↔ artifact.format = .B := by
  rw [assertPadesLevelNotOverclaimed, attainedPadesLevel?_of_writeSignature hfk h, refuse_raises,
    padesLevelRank_format, padesLevelRank_format]
  cases artifact.format <;> decide

end Rows

/-! ## The gate -/

theorem mem_references {artifactId : Id} {sha256 : Digest} {report : PadesReport}
    {reference : EvidenceReference} :
    reference ∈ (admissionEvidence artifactId sha256 report).references ↔
      reference.signatureArtifactId = artifactId ∧
        match reference.kind with
        | .signatureCertificate | .certificateChain =>
          report.levelEvidence.hasTrustedCertificatePath = true
        | .signatureTimestamp => report.levelEvidence.hasSignatureTimestamp = true
        | .ocspEvidence => report.levelEvidence.hasRevocationEvidence = true
        | .archiveTimestamp => report.levelEvidence.hasArchiveTimestamp = true
        | .crlEvidence => False := by
  obtain ⟨kind, id⟩ := reference
  obtain ⟨pass, indication, ⟨path, timestamp, revocation, archive⟩, validatedAt⟩ := report
  unfold AdmissionEvidence.references admissionEvidence
  cases kind <;> cases path <;> cases timestamp <;> cases revocation <;> cases archive <;> simp

/-! ## The ladders together -/

section Together

variable {db db' : Db} {intent : IntentRow} {document : IntentDocumentRow}
  {attemptId artifactId : Id} {input signed : Digest} {level : PadesLevel} {report : PadesReport}
  {u : Unit}

/--
The ladders agree for a new artifact exactly when the report speaks of no more evidence than
`handlePadesCreate` has written.
-/
theorem laddersAgree_iff
    (hfk : ∀ e ∈ db.evidence, ∃ a ∈ db.artifacts, a.id = e.signatureArtifactId)
    (h : writeSignature intent
      (artifactRow intent level document attemptId artifactId input signed) document db
        = .ok (u, db')) :
    LaddersAgree db' (artifactRow intent level document attemptId artifactId input signed)
      intent.policySnapshot level report ↔ ReportsNoMore intent.policySnapshot level report := by
  have hattained := attainedPadesLevel?_of_writeSignature hfk h
  have hrow := hasEvidence_of_writeSignature hfk h
  have hcommit := refuse_overclaim_of_writeSignature hfk h
  unfold ReportsNoMore
  by_cases hB : level = .B
  · subst hB
    rw [if_pos rfl]
    have hcommits := hcommit.mpr rfl
    constructor
    · intro hagree hpass hallowed hpath htimestamp
      have hadmitted : padesAdmission intent.policySnapshot (some .B) artifactId signed report =
          .ok report.levelEvidence.gateLevel := by
        refine padesAdmission_eq_ok.mpr ⟨hallowed, hpath, htimestamp, ?_, rfl⟩
        unfold LevelEvidence.gateLevel
        split <;> decide
      obtain ⟨-, hreferences⟩ := hagree.admitted hcommits hpass _ hadmitted
      -- a reference to evidence that no row stands for
      have hmissing : ∀ kind, kind ≠ .signatureCertificate → kind ≠ .certificateChain →
          ¬(⟨kind, artifactId⟩ : EvidenceReference) ∈
            (admissionEvidence artifactId signed report).references := by
        intro kind hcert hchain hmem
        have hexists := hreferences _ hmem
        rw [show Db.hasEvidence db' kind artifactId = _ from hrow kind] at hexists
        cases kind <;> simp_all
      refine ⟨?_, ?_, ?_⟩
      · exact Bool.eq_false_iff.mpr fun he =>
          hmissing .signatureTimestamp (by decide) (by decide) (mem_references.mpr ⟨rfl, he⟩)
      · exact Bool.eq_false_iff.mpr fun he =>
          hmissing .ocspEvidence (by decide) (by decide) (mem_references.mpr ⟨rfl, he⟩)
      · exact Bool.eq_false_iff.mpr fun he =>
          hmissing .archiveTimestamp (by decide) (by decide) (mem_references.mpr ⟨rfl, he⟩)
    · intro hmore
      refine ⟨fun _ hpass admittedLevel hadmitted => ?_, fun _ => hcommits⟩
      obtain ⟨hallowed, hpath, htimestamp, -, rfl⟩ := padesAdmission_eq_ok.mp hadmitted
      obtain ⟨hts, hrev, harch⟩ := hmore hpass hallowed hpath htimestamp
      refine ⟨?_, fun reference hmem => ?_⟩
      · rw [hattained, LevelEvidence.gateLevel, hts]
        rfl
      · obtain ⟨hid, hkind⟩ := mem_references.mp hmem
        rw [show reference.signatureArtifactId = artifactId from hid,
          show Db.hasEvidence db' reference.kind artifactId = _ from hrow reference.kind]
        cases hk : reference.kind <;> simp_all
  · rw [if_neg hB]
    have hrefused : ¬refuse (assertPadesLevelNotOverclaimed db'
        (artifactRow intent level document attemptId artifactId input signed)) = .ok () :=
      fun hok => hB (hcommit.mp hok)
    constructor
    · intro hagree
      exact Bool.eq_false_iff.mpr fun hsupports => hrefused (hagree.supported hsupports)
    · intro hunsupported
      refine ⟨fun hok => absurd hok hrefused, fun hsupports => ?_⟩
      rw [hunsupported] at hsupports
      cases hsupports

end Together

/-! ## Two policies -/

namespace LaddersAgree

/-- Signer 1 of `Sessions.twoSigners`, under a policy of the given level. -/
def intentRow (level : PadesLevel) : IntentRow where
  signingIntentId := 1
  signatureCaseId := 1
  signerId := 1
  intentStatus := .verified
  identityTransactionId := 1
  decisionMode := .ELECTRONIC_SIGNATURE
  policySnapshot := .obj [("requiredPadesLevel".toList, .str level.name)]

def documentRow : IntentDocumentRow where
  documentVersionId := 1
  ordinal := 1
  documentSha256 := 10
  documentRole := .signable
  canonicalObjectKey := some (.canonical 1)

def newArtifact (level : PadesLevel) : SignatureArtifact :=
  artifactRow (intentRow level) level documentRow 1 1 10 20

/-- A passing report with a certificate path, and with a timestamp or without. -/
def passingReport (timestamp : Bool) : PadesReport :=
  ⟨true, .TOTAL_PASSED, ⟨true, timestamp, false, false⟩, 0⟩

end LaddersAgree

/-- Under a policy of level B and a report without a timestamp the ladders agree. -/
theorem laddersAgree_iff_level_B :
    ∃ db, writeSignature (LaddersAgree.intentRow .B) (LaddersAgree.newArtifact .B)
        LaddersAgree.documentRow Sessions.twoSigners.db = .ok ((), db) ∧
      LaddersAgree db (LaddersAgree.newArtifact .B) (LaddersAgree.intentRow .B).policySnapshot .B
        (LaddersAgree.passingReport false) := by
  obtain ⟨db, hdb⟩ : ∃ db, (writeSignature (LaddersAgree.intentRow .B)
      (LaddersAgree.newArtifact .B) LaddersAgree.documentRow).outcome Sessions.twoSigners.db =
        some db := Option.isSome_iff_exists.mp (by decide +kernel)
  obtain ⟨_, hwrite⟩ := Transaction.outcome_eq_some.mp hdb
  exact ⟨db, hwrite, (laddersAgree_iff (by decide) hwrite).mpr fun _ _ _ _ => ⟨rfl, rfl, rfl⟩⟩

/--
The ladders do not always agree: under a policy of level T a report with a timestamp supports the
level, but no artifact of that level commits.
-/
theorem not_laddersAgree_of_level_T :
    ¬∀ (db db' : Db) (intent : IntentRow) (document : IntentDocumentRow)
      (artifact : SignatureArtifact) (level : PadesLevel) (report : PadesReport),
      requiredPadesLevel intent.policySnapshot = .ok (some level) → artifact.format = level →
      writeSignature intent artifact document db = .ok ((), db') →
        LaddersAgree db' artifact intent.policySnapshot level report := by
  intro h
  obtain ⟨db, hdb⟩ : ∃ db, (writeSignature (LaddersAgree.intentRow .T)
      (LaddersAgree.newArtifact .T) LaddersAgree.documentRow).outcome Sessions.twoSigners.db =
        some db := Option.isSome_iff_exists.mp (by decide +kernel)
  obtain ⟨_, hwrite⟩ := Transaction.outcome_eq_some.mp hdb
  have hagree := h _ db _ _ _ .T (LaddersAgree.passingReport true) (by rfl) rfl hwrite
  have hcommits := hagree.supported rfl
  rw [refuse_overclaim_of_writeSignature (by decide) hwrite] at hcommits
  cases hcommits

/-!
# The recorded level of a signature artifact

`signature_artifacts.format` is checked when its transaction commits, and the evidence for it is in
other tables. Here a transaction is any list of statements: an artifact may come before its
evidence, with other rows between them, and evidence may come in later transactions. The tables of
artifacts, evidence and validation runs are append-only, and more evidence never lowers the level
that `app.attained_pades_level` derives.
-/

/-! ## Transactions -/

/--
A statement of a transaction. A `row` operation that signs checks the level of its artifact at
once, as after `SET CONSTRAINTS … IMMEDIATE`.
-/
inductive DataWrite where
  | row (op : RowOp)
  | insertArtifact (actor : ActorKind) (artifact : SignatureArtifact)
  | updateArtifact (actor : ActorKind) (artifact : SignatureArtifact)
  | deleteArtifact (actor : ActorKind) (id : Id)

def DataWrite.apply : DataWrite → Tx Unit
  | .row op => op.apply
  | .insertArtifact actor artifact => (Tables.artifacts actor).insert artifact
  | .updateArtifact actor artifact => do
    let _ ← (Tables.artifacts actor).update (fun old => old.id == artifact.id) fun _ => artifact
    pure ()
  | .deleteArtifact actor id => (Tables.artifacts actor).delete fun old => old.id == id

def DataWrite.deferred : DataWrite → List SignatureArtifact
  | .insertArtifact _ artifact => [artifact]
  | _ => []

/-- A transaction: its statements, and then the deferred checks of the artifacts it has inserted. -/
def writeAndCheck (writes : List DataWrite) : Tx Unit := do
  Transaction.forEach DataWrite.apply writes
  Transaction.forEach deferredChecks (writes.flatMap DataWrite.deferred)

def dataCommit (db : Db) (writes : List DataWrite) : Option Db := (writeAndCheck writes).outcome db

/-! ## The property -/

/-- The evidence for an artifact supports a level that is at least the recorded one. -/
def Db.SupportsFormat (db : Db) (artifact : SignatureArtifact) : Prop :=
  ∃ attained, db.attainedPadesLevel? artifact.id = some attained ∧
    artifact.format.rank ≤ attained.rank

/-- No artifact is recorded at a level above the one that its evidence supports. -/
def LevelsRecorded (db : Db) : Prop := ∀ artifact ∈ db.artifacts, db.SupportsFormat artifact

theorem supportsFormat_of_check {db : Db} {artifact : SignatureArtifact}
    (h : refuse (assertPadesLevelNotOverclaimed db artifact) = .ok ()) :
    db.SupportsFormat artifact := by
  unfold assertPadesLevelNotOverclaimed at h
  cases hlevel : db.attainedPadesLevel? artifact.id with
  | none => simp [hlevel] at h
  | some attained =>
    rw [hlevel, refuse_raises, padesLevelRank_format, padesLevelRank_format] at h
    exact ⟨attained, hlevel, by simpa [rankGt] using h⟩

def Db.hasRung (db : Db) (id : Id) : PadesLevel → Bool
  | .B => db.hasEvidence .signatureCertificate id && db.hasEvidence .certificateChain id
  | .T => db.hasEvidence .signatureTimestamp id
  | .LT => (db.hasEvidence .ocspEvidence id || db.hasEvidence .crlEvidence id) &&
      db.validationRuns.any fun run =>
        run.signatureArtifactId == id && run.trustListSnapshotObjectKey.isSome
  | .LTA => db.hasEvidence .archiveTimestamp id

theorem supportsFormat_iff {db : Db} {artifact : SignatureArtifact} :
    db.SupportsFormat artifact ↔
      ∀ rung : PadesLevel, rung.rank ≤ artifact.format.rank → db.hasRung artifact.id rung = true := by
  have hlevels : (∀ rung : PadesLevel, rung.rank ≤ artifact.format.rank →
      db.hasRung artifact.id rung = true) ↔ (db.hasRung artifact.id .B = true ∧
        (1 < artifact.format.rank → db.hasRung artifact.id .T = true) ∧
        (2 < artifact.format.rank → db.hasRung artifact.id .LT = true) ∧
        (3 < artifact.format.rank → db.hasRung artifact.id .LTA = true)) := by
    constructor
    · exact fun h => ⟨h .B (by cases artifact.format <;> decide), h .T, h .LT, h .LTA⟩
    · rintro ⟨hB, hT, hLT, hLTA⟩ rung hle
      cases rung
      · exact hB
      · exact hT hle
      · exact hLT hle
      · exact hLTA hle
  rw [hlevels]
  unfold Db.SupportsFormat Db.attainedPadesLevel?
  change (∃ attained, (if !db.hasRung artifact.id .B then none
    else if !db.hasRung artifact.id .T then some .B
    else if !db.hasRung artifact.id .LT then some .T
    else if !db.hasRung artifact.id .LTA then some .LT
    else some .LTA) = some attained ∧ artifact.format.rank ≤ PadesLevel.rank attained) ↔ _
  cases db.hasRung artifact.id .B <;> cases db.hasRung artifact.id .T <;>
    cases db.hasRung artifact.id .LT <;> cases db.hasRung artifact.id .LTA <;>
    cases artifact.format <;> simp [PadesLevel.rank]

/-! ## Evidence only grows -/

section Grows

variable {db db' db'' : Db}

structure EvidenceGrows (db db' : Db) : Prop where
  evidence : db.evidence ⊆ db'.evidence
  validationRuns : db.validationRuns ⊆ db'.validationRuns

theorem EvidenceGrows.same (hevidence : db'.evidence = db.evidence)
    (hruns : db'.validationRuns = db.validationRuns) : EvidenceGrows db db' :=
  ⟨hevidence ▸ List.Subset.refl _, hruns ▸ List.Subset.refl _⟩

theorem EvidenceGrows.hasEvidence (h : EvidenceGrows db db') {kind : EvidenceKind} {id : Id}
    (hkind : db.hasEvidence kind id = true) : db'.hasEvidence kind id = true := by
  unfold Db.hasEvidence at hkind ⊢
  obtain ⟨e, he, hmatch⟩ := List.any_eq_true.mp hkind
  exact List.any_eq_true.mpr ⟨e, h.evidence he, hmatch⟩

theorem EvidenceGrows.hasRung (h : EvidenceGrows db db') {id : Id} {rung : PadesLevel}
    (hrung : db.hasRung id rung = true) : db'.hasRung id rung = true := by
  cases rung with
  | B =>
    rw [Db.hasRung, Bool.and_eq_true] at hrung ⊢
    exact ⟨h.hasEvidence hrung.1, h.hasEvidence hrung.2⟩
  | T => exact h.hasEvidence hrung
  | LT =>
    rw [Db.hasRung, Bool.and_eq_true, Bool.or_eq_true] at hrung ⊢
    obtain ⟨hrevocation, htrust⟩ := hrung
    obtain ⟨run, hrun, hmatch⟩ := List.any_eq_true.mp htrust
    exact ⟨hrevocation.imp h.hasEvidence h.hasEvidence,
      List.any_eq_true.mpr ⟨run, h.validationRuns hrun, hmatch⟩⟩
  | LTA => exact h.hasEvidence hrung

theorem EvidenceGrows.supportsFormat (h : EvidenceGrows db db') {artifact : SignatureArtifact}
    (hs : db.SupportsFormat artifact) : db'.SupportsFormat artifact := by
  rw [supportsFormat_iff] at hs ⊢
  exact fun rung hle => h.hasRung (hs rung hle)

end Grows

/-! ## Statements -/

section Statements

variable {db db' : Db} {actor : ActorKind}

theorem EvidenceGrows.insert (t : TableName) (row : t.Row) :
    EvidenceGrows db ((t.table actor).put ((t.table actor).rows db ++ [row]) db) := by
  cases t with
  | evidence => exact ⟨List.subset_append_left _ _, List.Subset.refl _⟩
  | validationRuns => exact ⟨List.Subset.refl _, List.subset_append_left _ _⟩
  | cases | documents | versions | signers | invitations | intents | intentDocuments
  | identityTransactions | identityArtifacts | attempts => exact EvidenceGrows.same rfl rfl

theorem EvidenceGrows.update {t : TableName} {row : t.Row}
    (hok : ∀ old ∈ (t.table actor).rows db, t.key old = t.key row →
      (t.table actor).onUpdate db old row = .ok ()) :
    EvidenceGrows db ((t.table actor).put
      (assign (fun old => t.key old == t.key row) (fun _ => row) ((t.table actor).rows db)) db) := by
  cases t with
  | evidence | validationRuns =>
    rw [assign_eq_self fun old hold => beq_false_of_ne (no_row_of_appendOnly hok old hold)]
    exact EvidenceGrows.same rfl rfl
  | cases | documents | versions | signers | invitations | intents | intentDocuments
  | identityTransactions | identityArtifacts | attempts => exact EvidenceGrows.same rfl rfl

theorem EvidenceGrows.delete {t : TableName} {k : Id}
    (hok : ∀ old ∈ (t.table actor).rows db, t.key old = k →
      (t.table actor).onDelete db old = .ok ()) :
    EvidenceGrows db ((t.table actor).put
      (((t.table actor).rows db).filter fun old => !(t.key old == k)) db) := by
  cases t with
  | evidence | validationRuns =>
    rw [List.filter_eq_self.mpr fun old hold => by
      simpa using no_row_of_appendOnly hok old hold]
    exact EvidenceGrows.same rfl rfl
  | cases | documents | versions | signers | invitations | intents | intentDocuments
  | identityTransactions | identityArtifacts | attempts => exact EvidenceGrows.same rfl rfl

theorem artifacts_put (t : TableName) (rows : List t.Row) :
    ((t.table actor).put rows db).artifacts = db.artifacts := by
  cases t <;> rfl

/-- What a statement leaves: no evidence is lost, and its artifacts are supported or deferred. -/
structure WriteLeaves (db db' : Db) (deferred : List SignatureArtifact) : Prop where
  grows : EvidenceGrows db db'
  artifacts : ∀ artifact ∈ db'.artifacts,
    artifact ∈ db.artifacts ∨ artifact ∈ deferred ∨ db'.SupportsFormat artifact

theorem WriteLeaves.of_artifacts {deferred : List SignatureArtifact} (hgrows : EvidenceGrows db db')
    (hartifacts : db'.artifacts = db.artifacts) : WriteLeaves db db' deferred where
  grows := hgrows
  artifacts _ ha := Or.inl (hartifacts ▸ ha)

theorem writeLeaves_row {op : RowOp} (h : dataStep db op = some db') : WriteLeaves db db' [] := by
  cases op with
  | insert actor t row =>
    obtain ⟨-, rfl⟩ := dataStep_insert.mp h
    exact .of_artifacts (.insert t row) (artifacts_put t _)
  | update actor t row =>
    obtain ⟨hok, rfl⟩ := dataStep_update.mp h
    exact .of_artifacts (.update hok) (artifacts_put t _)
  | delete actor t k =>
    obtain ⟨hok, rfl⟩ := dataStep_delete.mp h
    exact .of_artifacts (.delete hok) (artifacts_put t _)
  | sign actor artifact kinds =>
    obtain ⟨-, hlevel, hdb'⟩ := dataStep_sign h
    have hsupports := supportsFormat_of_check hlevel
    subst hdb'
    refine ⟨⟨List.subset_append_left _ _, List.Subset.refl _⟩, fun a ha => ?_⟩
    rcases List.mem_append.mp ha with hold | hnew
    · exact Or.inl hold
    · rw [List.mem_singleton.mp hnew]
      exact Or.inr (Or.inr hsupports)

theorem writeLeaves_apply {write : DataWrite} {u : Unit} (h : write.apply db = .ok (u, db')) :
    WriteLeaves db db' write.deferred := by
  cases write with
  | row op => exact writeLeaves_row (dataStep_eq_some.mpr h)
  | insertArtifact actor artifact =>
    obtain ⟨-, rfl⟩ := Table.insert_eq_ok.mp h
    refine ⟨EvidenceGrows.same rfl rfl, fun a ha => ?_⟩
    rcases List.mem_append.mp ha with hold | hnew
    · exact Or.inl hold
    · exact Or.inr (Or.inl hnew)
  | updateArtifact actor artifact =>
    obtain ⟨n, db₁, h₁, h₂⟩ := Transaction.bind_eq_ok.mp h
    obtain ⟨-, rfl⟩ := Transaction.pure_eq_ok.mp h₂
    obtain ⟨hok, rfl, -⟩ := Table.update_eq_ok.mp h₁
    -- an artifact is never replaced: the statement passes only where it has found none
    have hself : assign (fun old => old.id == artifact.id) (fun _ => artifact) db.artifacts =
        db.artifacts := assign_eq_self fun old hold =>
      Bool.not_eq_true _ ▸ no_row_of_appendOnly hok old hold
    exact .of_artifacts (EvidenceGrows.same rfl rfl) hself
  | deleteArtifact actor id =>
    obtain ⟨-, rfl⟩ := Table.delete_eq_ok.mp h
    exact ⟨EvidenceGrows.same rfl rfl, fun _ ha => Or.inl (List.mem_filter.mp ha).1⟩

end Statements

/-! ## Transactions and runs -/

/-- The artifacts are supported, but for those that the commit has still to check. -/
def LevelsRecordedBut (deferred : List SignatureArtifact) (db : Db) : Prop :=
  ∀ artifact ∈ db.artifacts, artifact ∈ deferred ∨ db.SupportsFormat artifact

theorem levelsRecordedBut_of_writes : ∀ {writes : List DataWrite} {deferred : List SignatureArtifact}
    {db db' : Db} {u : Unit}, LevelsRecordedBut deferred db →
      Transaction.forEach DataWrite.apply writes db = .ok (u, db') →
      LevelsRecordedBut (deferred ++ writes.flatMap DataWrite.deferred) db'
  | [], deferred, db, db', u, hdb, h => by
    obtain ⟨-, rfl⟩ := Transaction.pure_eq_ok.mp h
    rw [List.flatMap_nil, List.append_nil]
    exact hdb
  | write :: writes, deferred, db, db', u, hdb, h => by
    obtain ⟨_, db₁, h₁, h₂⟩ := Transaction.bind_eq_ok.mp h
    have hleaves := writeLeaves_apply h₁
    have hdb₁ : LevelsRecordedBut (deferred ++ write.deferred) db₁ := by
      intro artifact ha
      rcases hleaves.artifacts artifact ha with hold | hnew | hsupports
      · rcases hdb artifact hold with hdeferred | hsupports
        · exact Or.inl (List.mem_append_left _ hdeferred)
        · exact Or.inr (hleaves.grows.supportsFormat hsupports)
      · exact Or.inl (List.mem_append_right _ hnew)
      · exact Or.inr hsupports
    have hrest := levelsRecordedBut_of_writes hdb₁ h₂
    rw [List.append_assoc] at hrest
    exact hrest

theorem supportsFormat_of_deferredChecks : ∀ {artifacts : List SignatureArtifact} {db db' : Db}
    {u : Unit}, Transaction.forEach deferredChecks artifacts db = .ok (u, db') →
      db' = db ∧ ∀ artifact ∈ artifacts, db.SupportsFormat artifact
  | [], db, db', u, h => by
    obtain ⟨-, rfl⟩ := Transaction.pure_eq_ok.mp h
    exact ⟨rfl, fun _ ha => absurd ha List.not_mem_nil⟩
  | artifact :: artifacts, db, db', u, h => by
    obtain ⟨_, db₁, h₁, h₂⟩ := Transaction.bind_eq_ok.mp h
    obtain ⟨hcheck, rfl⟩ := Transaction.check_eq_ok.mp h₁
    obtain ⟨rfl, hrest⟩ := supportsFormat_of_deferredChecks h₂
    exact ⟨rfl, List.forall_mem_cons.mpr ⟨supportsFormat_of_check hcheck, hrest⟩⟩

theorem levelsRecorded_of_commit {db db' : Db} {writes : List DataWrite} (hdb : LevelsRecorded db)
    (h : dataCommit db writes = some db') : LevelsRecorded db' := by
  obtain ⟨u, h⟩ := Transaction.outcome_eq_some.mp h
  obtain ⟨_, db₁, h₁, h₂⟩ := Transaction.bind_eq_ok.mp h
  have hbut : LevelsRecordedBut [] db := fun artifact ha => Or.inr (hdb artifact ha)
  obtain ⟨rfl, hchecked⟩ := supportsFormat_of_deferredChecks h₂
  intro artifact ha
  rcases levelsRecordedBut_of_writes hbut h₁ artifact ha with hdeferred | hsupports
  · exact hchecked artifact hdeferred
  · exact hsupports

/--
Whatever is written, in whatever transactions and in whatever order, no artifact is ever recorded
at a level above the one that the committed evidence supports.
-/
theorem levelsRecorded_of_run {transactions : List (List DataWrite)} {db : Db}
    (h : run dataCommit Db.empty transactions = some db) : LevelsRecorded db :=
  run_invariant (fun _ _ _ hs hstep => levelsRecorded_of_commit hs hstep)
    (show LevelsRecorded Db.empty from fun _ ha => absurd ha List.not_mem_nil) h

namespace LevelsRecorded

/-- An artifact at `PAdES-T`: its certificate, its chain and its timestamp come after it. -/
def timestampedWrites : List DataWrite := [
  .insertArtifact .trustedService
    { id := 1, signatureAttemptId := 1, format := .T, signedDocumentObjectKey := .signed 1 1,
      signedDocumentSha256 := 20, inputRevisionSha256 := 10 },
  .row (.insert .trustedService .evidence ⟨.signatureTimestamp, 1⟩),
  .row (.insert .trustedService .evidence ⟨.certificateChain, 1⟩),
  .row (.insert .trustedService .evidence ⟨.signatureCertificate, 1⟩)]

end LevelsRecorded

/-- A signature at `PAdES-T`, and a validation run that comes in a later transaction. -/
theorem levelsRecorded_of_run_timestamped :
    ∃ db, run dataCommit Db.empty [SignedEvidence.preparedOps.map .row,
        (SignedEvidence.signingOps.take 3).map .row, LevelsRecorded.timestampedWrites,
        [.row (.insert .trustedService .validationRuns ⟨1, .TOTAL_PASSED, none⟩)]] = some db ∧
      (∃ artifact ∈ db.artifacts, artifact.format = .T) ∧ LevelsRecorded db := by
  obtain ⟨db, hdb⟩ : ∃ db, run dataCommit Db.empty [SignedEvidence.preparedOps.map .row,
      (SignedEvidence.signingOps.take 3).map .row, LevelsRecorded.timestampedWrites,
      [.row (.insert .trustedService .validationRuns ⟨1, .TOTAL_PASSED, none⟩)]] = some db :=
    Option.isSome_iff_exists.mp (by decide +kernel)
  have hformat : ∀ db' ∈ run dataCommit Db.empty [SignedEvidence.preparedOps.map .row,
      (SignedEvidence.signingOps.take 3).map .row, LevelsRecorded.timestampedWrites,
      [.row (.insert .trustedService .validationRuns ⟨1, .TOTAL_PASSED, none⟩)]],
        ∃ artifact ∈ db'.artifacts, artifact.format = .T := by decide +kernel
  exact ⟨db, hdb, hformat db hdb, levelsRecorded_of_run hdb⟩

end Kommunsign
