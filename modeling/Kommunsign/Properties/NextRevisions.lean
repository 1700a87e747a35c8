import Kommunsign.Worker.RevisionSessions
import Kommunsign.Workflow.Bindings

/-!
# The revision that the next signature is applied to

`loadLatestRevision` takes the artifact that has been validated as passed and that nothing continues,
and the canonical document where there is none. `app.assert_signature_revision_chain` takes every
artifact into account, whatever has become of it. The two agree as long as the last artifact on the
version has passed.

* `acceptsSignature_iff` — the input that is selected is accepted exactly in that case
* `not_acceptsSignature_of_refused` — a signature that was not admitted blocks those after it
-/

namespace Kommunsign

open Infra

/-! ## Chains in every reachable state -/

theorem artifactsOn_withAttempt {db : Db} (h : db.Chained) {attempt : SignatureAttempt}
    (documentVersionId : Id) :
    (withAttempt db attempt).artifactsOn documentVersionId = db.artifactsOn documentVersionId := by
  refine artifactsOn_congr (by rfl) (fun artifact hartifact => artifactVersion?_congr ?_) _
  obtain ⟨a, ha⟩ := Option.isSome_iff_exists.mp (h.attempted artifact hartifact)
  have hfound : (withAttempt db attempt).attempt? artifact.signatureAttemptId = some a := by
    rw [Db.attempt?] at ha
    rw [Db.attempt?, withAttempt, List.find?_append, ha, Option.some_or]
  rw [ha, hfound]

theorem refuse_revisionChain_withAttempt {db : Db} (h : db.Chained) {attempt : SignatureAttempt}
    {artifact : SignatureArtifact} (howner : artifact.signatureAttemptId = attempt.id)
    (hattempt : ∀ a ∈ db.attempts, a.id ≠ attempt.id)
    (hartifact : ∀ a ∈ db.artifacts, a.id ≠ artifact.id) :
    refuse (assertSignatureRevisionChain (withAttempt db attempt) artifact) = .ok () ↔
      AcceptedRevision (db.canonicalSha256 attempt.documentVersionId)
        (db.artifactsOn attempt.documentVersionId) artifact := by
  have hfound : (withAttempt db attempt).attempt? artifact.signatureAttemptId = some attempt := by
    rw [howner]
    exact find?_append_new (fun a : SignatureAttempt => a.id) hattempt rfl
  have hversion : (withAttempt db attempt).artifactVersion? artifact =
      some attempt.documentVersionId :=
    artifactVersion?_eq_some.mpr ⟨attempt, hfound, rfl⟩
  rw [refuse_assertSignatureRevisionChain (show ∀ other ∈ (withAttempt db attempt).artifacts,
    other.id ≠ artifact.id from hartifact)]
  constructor
  · rintro ⟨documentVersionId, hon, haccepted⟩
    obtain rfl := Option.some.inj (hversion.symm.trans hon)
    rw [artifactsOn_withAttempt h] at haccepted
    exact haccepted
  · intro haccepted
    refine ⟨attempt.documentVersionId, hversion, ?_⟩
    rw [artifactsOn_withAttempt h]
    exact haccepted

section Steps

variable {s s' : Sys} {i : Step}

theorem canonicalSha256_of_step (hstep : Sys.step s i = some s') {id : Id} {sha256 : Digest}
    (h : s.db.canonicalSha256 id = some sha256) : s'.db.canonicalSha256 id = some sha256 := by
  obtain ⟨v, hv, hsha⟩ := Option.bind_eq_some_iff.mp h
  obtain ⟨v', hv', hmove⟩ := version?_of_step hstep hv
  refine Option.bind_eq_some_iff.mpr ⟨v', hv', ?_⟩
  rw [hmove.row]
  exact hsha

theorem Chained.of_other (h : s.db.Chained) (hstep : Sys.step s i = some s')
    (hsign : ∀ index attemptId artifactId signed,
      i ≠ .commitSignature index attemptId artifactId signed) : s'.db.Chained := by
  have hartifacts : s'.db.artifacts = s.db.artifacts := by
    rcases intake_or_leaves hstep with ⟨intake, rfl, -, rfl⟩ | hleaves
    · rfl
    · have hmoved : Moved Eq s.db.artifacts s'.db.artifacts := by
        refine hleaves.artifacts.moved fun _ hsigns => ?_
        obtain ⟨signerId, hsigns⟩ := hsigns
        obtain ⟨index, attemptId, artifactId, signed, heq, -⟩ := signs_of_effect hsigns
        exact hsign index attemptId artifactId signed heq
      rw [Moved, List.forall₂_eq_eq_eq] at hmoved
      exact hmoved.symm
  have hattempt : ∀ artifact ∈ s.db.artifacts, ∃ a a',
      s.db.attempt? artifact.signatureAttemptId = some a ∧
        s'.db.attempt? artifact.signatureAttemptId = some a' ∧
        a'.documentVersionId = a.documentVersionId := by
    intro artifact hartifact
    obtain ⟨a, ha⟩ := Option.isSome_iff_exists.mp (h.attempted artifact hartifact)
    obtain ⟨a', ha', hchange⟩ := attempt?_of_step hstep ha
    exact ⟨a, a', ha, ha', hchange.documentVersionId⟩
  refine ⟨fun artifact hartifact => ?_, fun documentVersionId => ?_⟩
  · rw [hartifacts] at hartifact
    obtain ⟨_, a', -, ha', -⟩ := hattempt artifact hartifact
    rw [ha', Option.isSome_some]
  · have hon : s'.db.artifactsOn documentVersionId = s.db.artifactsOn documentVersionId := by
      refine artifactsOn_congr hartifacts (fun artifact hartifact => artifactVersion?_congr ?_) _
      obtain ⟨a, a', ha, ha', hversion⟩ := hattempt artifact hartifact
      rw [ha, ha', Option.map_some, Option.map_some, hversion]
    have hchain := h.chain documentVersionId
    rw [Db.ChainOn, hon]
    refine ⟨fun first hfirst => ?_, hchain.linked, hchain.unshared⟩
    -- the chain has a start, so the version is there and its digest stays
    exact (canonicalSha256_of_step hstep (hchain.first first hfirst).symm).symm

theorem Chained.of_commitSignature (h : s.db.Chained) {index : Nat} {attemptId artifactId : Id}
    {signed : Digest} (hstep : Sys.step s (.commitSignature index attemptId artifactId signed) =
      some s') : s'.db.Chained := by
  obtain ⟨run, document, input, db, -, -, -, -, hok, rfl⟩ := step_commitSignature hstep
  obtain ⟨-, hnew, hinsert, rfl⟩ := writeSignature_eq (commitSignature_eq hok).1
  simp only [Tables.artifacts, refuse_append, refuse_violates, List.any_eq_false,
    beq_iff_eq] at hinsert
  obtain ⟨⟨hfresh, -⟩, hguard⟩ := hinsert
  have haccepted := (@refuse_revisionChain_withAttempt s.db h
    { attemptRow s.db run.intent document attemptId with status := .credential_issued } _
    (by rfl) hnew hfresh).mp hguard
  exact h.append rfl rfl rfl hnew rfl haccepted

theorem chained_of_reachable (h : s.Reachable) : s.db.Chained := by
  refine @Sys.Reachable.induction (fun s => s.db.Chained) ?_ ?_ s h
  · intro _ _ _ _
    refine ⟨fun _ hartifact => absurd hartifact List.not_mem_nil, fun _ => RevisionChain.nil⟩
  · intro s i s' _ hchained hstep
    by_cases hsign : ∃ index attemptId artifactId signed,
        i = .commitSignature index attemptId artifactId signed
    · obtain ⟨index, attemptId, artifactId, signed, rfl⟩ := hsign
      exact Chained.of_commitSignature hchained hstep
    · exact Chained.of_other hchained hstep fun index attemptId artifactId signed heq =>
        hsign ⟨index, attemptId, artifactId, signed, heq⟩

end Steps

/-! ## The input that is selected -/

def credentialRow (db : Db) (intent : IntentRow) (document : IntentDocumentRow) (attemptId : Id) :
    SignatureAttempt :=
  { attemptRow db intent document attemptId with status := .credential_issued }

/-- Whatever its outcome, the guard accepts a signature of the document applied to the input. -/
def AcceptsSignature (db : Db) (run : PadesCreateRun) (document : IntentDocumentRow)
    (input : Digest) : Prop :=
  ∀ attemptId artifactId signed, (∀ a ∈ db.attempts, a.id ≠ attemptId) →
    (∀ a ∈ db.artifacts, a.id ≠ artifactId) →
      refuse (assertSignatureRevisionChain
        (withAttempt db (credentialRow db run.intent document attemptId))
        (artifactRow run.intent run.requestedFormat document attemptId artifactId input signed)) =
          .ok ()

/-- The last artifact on the version, if there is one, has passed and has no successor. -/
def Db.LastHasPassed (db : Db) (documentVersionId : Id) : Prop :=
  ∀ last ∈ (db.artifactsOn documentVersionId).getLast?,
    db.isValidated last = true ∧ db.hasSuccessor documentVersionId last = false

instance (db : Db) (documentVersionId : Id) : Decidable (db.LastHasPassed documentVersionId) :=
  inferInstanceAs (Decidable (∀ last ∈ (db.artifactsOn documentVersionId).getLast?,
    db.isValidated last = true ∧ db.hasSuccessor documentVersionId last = false))

section Selected

variable {s : Sys} {run : PadesCreateRun} {document : IntentDocumentRow}
  {download : ObjectKey → Digest} {input : Digest}

theorem acceptsSignature_iff_accepted (h : s.db.Chained) :
    AcceptsSignature s.db run document input ↔ ∀ artifact : SignatureArtifact,
      artifact.inputRevisionSha256 = input →
        AcceptedRevision (s.db.canonicalSha256 document.documentVersionId)
          (s.db.artifactsOn document.documentVersionId) artifact := by
  constructor
  · intro haccepts artifact hinput
    have hattempt : ∀ a ∈ s.db.attempts, a.id ≠ freshKey (s.db.attempts.map (·.id)) :=
      fun a ha => (lt_freshKey (List.mem_map_of_mem ha)).ne
    have hartifact : ∀ a ∈ s.db.artifacts, a.id ≠ freshKey (s.db.artifacts.map (·.id)) :=
      fun a ha => (lt_freshKey (List.mem_map_of_mem ha)).ne
    have hguard := haccepts _ _ artifact.signedDocumentSha256 hattempt hartifact
    obtain ⟨hfirst, hcontinues, hfree⟩ :=
      (refuse_revisionChain_withAttempt h (by rfl) hattempt hartifact).mp hguard
    rw [← hinput] at hfirst hcontinues hfree
    exact ⟨hfirst, hcontinues, hfree⟩
  · intro haccepted attemptId artifactId signed hattempt hartifact
    exact (refuse_revisionChain_withAttempt h (by rfl) hattempt hartifact).mpr (haccepted _ rfl)

theorem latestRevision?_eq_some {db : Db} {documentVersionId : Id} {latest : SignatureArtifact}
    (h : db.latestRevision? documentVersionId = some latest) :
    latest ∈ db.artifactsOn documentVersionId ∧ db.isValidated latest = true ∧
      db.hasSuccessor documentVersionId latest = false := by
  have hp := List.find?_some h
  rw [Bool.and_eq_true, Bool.not_eq_true'] at hp
  exact ⟨List.mem_of_find?_eq_some h, hp.1, hp.2⟩

theorem hasSuccessor_eq_false {db : Db} {documentVersionId : Id} {artifact : SignatureArtifact} :
    db.hasSuccessor documentVersionId artifact = false ↔
      ∀ sibling ∈ db.artifactsOn documentVersionId,
        inputRevision sibling ≠ outputRevision artifact := by
  simp only [Db.hasSuccessor, List.any_eq_false, beq_iff_eq, inputRevision, outputRevision, ne_eq,
    Option.some.injEq]

/--
In every reachable state, the guard accepts the input that is selected for a document exactly when
the last artifact on its version, if there is one, has passed and is not continued.
-/
theorem acceptsSignature_iff (h : s.Reachable)
    (hdocument : document ∈ loadIntentDocuments s.db run.intent.signingIntentId)
    (hload : loadLatestRevision s.db download document = .ok input) :
    AcceptsSignature s.db run document input ↔
      s.db.LastHasPassed document.documentVersionId := by
  have hchained := chained_of_reachable h
  have hchain := hchained.chain document.documentVersionId
  have hinput := loadLatestRevision_eq_ok hload
  have hcanonical : s.db.canonicalSha256 document.documentVersionId =
      some document.documentSha256 := by
    obtain ⟨d, hd, -, _, -, hrow⟩ := mem_loadIntentDocuments.mp hdocument
    obtain ⟨-, v, -, hv, hsha, -⟩ := (bound_of_reachable h).names d hd
    rw [hrow]
    exact Option.bind_eq_some_iff.mpr ⟨v, hv, hsha⟩
  rw [acceptsSignature_iff_accepted hchained]
  cases hlatest : s.db.latestRevision? document.documentVersionId with
  | some latest =>
    rw [hlatest] at hinput
    obtain ⟨hon, hpassed, hlast⟩ := latestRevision?_eq_some hlatest
    -- an artifact that is not continued is the last one
    have hgetLast : (s.db.artifactsOn document.documentVersionId).getLast? = some latest := by
      rcases hchain.eq_last_or_continued hon with hgetLast | ⟨successor, hsuccessor, hcontinues⟩
      · exact hgetLast
      · exact absurd hcontinues (hasSuccessor_eq_false.mp hlast successor hsuccessor)
    refine iff_of_true (fun artifact hartifact => ?_) (fun last hmem => ?_)
    · have hsame : inputRevision artifact = outputRevision latest := by
        rw [inputRevision, outputRevision, hartifact, hinput]
        rfl
      refine ⟨fun hnil => ?_, fun _ => ⟨latest, hon, hsame.symm⟩, fun sibling hsibling => ?_⟩
      · rw [hnil] at hon
        exact absurd hon List.not_mem_nil
      · rw [hsame]
        exact hasSuccessor_eq_false.mp hlast sibling hsibling
    · rw [hgetLast, Option.mem_some_iff] at hmem
      rw [← hmem]
      exact ⟨hpassed, hlast⟩
  | none =>
    rw [hlatest] at hinput
    cases hartifacts : s.db.artifactsOn document.documentVersionId with
    | nil =>
      refine iff_of_true (fun artifact hartifact => ⟨fun _ => ?_, fun hne => absurd rfl hne, List.forall_mem_nil _⟩) (fun last hmem => ?_)
      · rw [inputRevision, hartifact, hinput, hcanonical]
        rfl
      · rw [hartifacts] at hmem
        cases hmem
    | cons first rest =>
      refine iff_of_false (fun haccepted => ?_) (fun hlastHasPassed => ?_)
      · -- the canonical revision is the input of the first artifact
        have hfirst : inputRevision first = some document.documentSha256 := by
          rw [← hcanonical]
          refine hchain.first first ?_
          rw [hartifacts]
          rfl
        have hfree := (haccepted { first with inputRevisionSha256 := input } rfl).free first
          List.mem_cons_self
        rw [hfirst, hinput] at hfree
        exact hfree rfl
      · -- an artifact that has passed and is not continued would have been selected
        obtain ⟨last, hgetLast⟩ : ∃ last,
            (s.db.artifactsOn document.documentVersionId).getLast? = some last := by
          rw [hartifacts, List.getLast?_cons]
          exact ⟨_, rfl⟩
        obtain ⟨hpassed, hsuccessor⟩ := hlastHasPassed last hgetLast
        have hnone := List.find?_eq_none.mp hlatest last (List.mem_of_getLast? hgetLast)
        rw [hpassed, hsuccessor] at hnone
        exact hnone rfl

end Selected

/-! ## Two signers of one document -/

namespace NextRevisions

def failed : PadesReport := { Step.passed with pass := false, indication := .TOTAL_FAILED }

/--
Two signers whose turn it is; the first signs, and its signature gets that report. Then the run of
the second is started.
-/
def untilSecond (report : PadesReport) : List Step :=
  .prepareCase (Intake.sample 1 [(1, true), (1, true)]) :: .send 1 idText :: Step.identify 0 0 ++
    Step.sign 0 1 100 200 ++
    [.readValidate ⟨0, 1, 1, 0, .signed 0 0⟩ report, .commitValidation 0] ++
    Step.identify 1 1 ++ [.startCreate 1]

end NextRevisions

/-- The second signer continues what the first has signed. -/
theorem acceptsSignature_of_passed : ∃ s ∈ Sys.after (NextRevisions.untilSecond Step.passed),
    s.db.artifacts ≠ [] ∧ ∃ run ∈ s.creates,
      ∃ document ∈ loadIntentDocuments s.db run.intent.signingIntentId,
        AcceptsSignature s.db run document 200 := by
  obtain ⟨s, hs, hsigned, run, hrun, document, hdocument, hload, hpassed⟩ :
      ∃ s ∈ Sys.after (NextRevisions.untilSecond Step.passed), s.db.artifacts ≠ [] ∧
        ∃ run ∈ s.creates, ∃ document ∈ loadIntentDocuments s.db run.intent.signingIntentId,
          loadLatestRevision s.db (fun _ => 200) document = .ok 200 ∧
            s.db.LastHasPassed document.documentVersionId := by
    decide +kernel
  exact ⟨s, hs, hsigned, run, hrun, document, hdocument,
    (acceptsSignature_iff (Sys.reachable_of_after hs) hdocument hload).mpr hpassed⟩

/-- After a signature that was not admitted the canonical revision is selected, and refused. -/
theorem not_acceptsSignature_of_refused : ¬∀ (s : Sys) (run : PadesCreateRun)
    (document : IntentDocumentRow) (download : ObjectKey → Digest) (input : Digest), s.Reachable →
    run ∈ s.creates → document ∈ loadIntentDocuments s.db run.intent.signingIntentId →
    loadLatestRevision s.db download document = .ok input →
    AcceptsSignature s.db run document input := by
  intro hall
  obtain ⟨s, hs, run, hrun, document, hdocument, hload, hattempt, hartifact, hrefused⟩ :
      ∃ s ∈ Sys.after (NextRevisions.untilSecond NextRevisions.failed), ∃ run ∈ s.creates,
        ∃ document ∈ loadIntentDocuments s.db run.intent.signingIntentId,
          loadLatestRevision s.db (fun _ => 100) document = .ok 100 ∧
          (∀ a ∈ s.db.attempts, a.id ≠ 2) ∧ (∀ a ∈ s.db.artifacts, a.id ≠ 2) ∧
          refuse (assertSignatureRevisionChain
            (withAttempt s.db (credentialRow s.db run.intent document 2))
            (artifactRow run.intent run.requestedFormat document 2 2 100 300)) ≠ .ok () := by
    decide +kernel
  exact hrefused (hall s run document _ _ (Sys.reachable_of_after hs) hrun hdocument hload 2 2 300
    hattempt hartifact)

end Kommunsign
