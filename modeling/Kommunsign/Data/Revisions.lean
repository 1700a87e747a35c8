import Kommunsign.Data.Tables
import Kommunsign.Infra.RevisionChain

/-!
# The revisions of a document version

`app.assert_signature_revision_chain` looks at the artifacts of a document version as a set. In
the order in which they were inserted they are a chain from the canonical revision, as long as the
guard has seen all of them.

* `Db.Chained` — the artifacts on every document version form a chain
* `AcceptedRevision` — what the guard asks of a new artifact
-/

namespace Kommunsign

open Infra

/-- The digest of the canonical revision of a document version. -/
def Db.canonicalSha256 (db : Db) (documentVersionId : Id) : Option Digest :=
  (db.version? documentVersionId).bind (·.sha256)

/-- The revision that an artifact was made from, and the one it is. -/
def inputRevision (artifact : SignatureArtifact) : Option Digest :=
  some artifact.inputRevisionSha256

def outputRevision (artifact : SignatureArtifact) : Option Digest :=
  some artifact.signedDocumentSha256

/-- The artifacts on a document version form one chain from its canonical revision. -/
def Db.ChainOn (db : Db) (documentVersionId : Id) : Prop :=
  RevisionChain inputRevision outputRevision (db.canonicalSha256 documentVersionId)
    (db.artifactsOn documentVersionId)

/-- Every artifact has its attempt, and the artifacts on every version form a chain. -/
structure Db.Chained (db : Db) : Prop where
  attempted : ∀ artifact ∈ db.artifacts, (db.attempt? artifact.signatureAttemptId).isSome = true
  chain : ∀ documentVersionId, db.ChainOn documentVersionId

/-- What a new artifact has to satisfy among the artifacts that are on the version. -/
structure AcceptedRevision (canonical : Option Digest) (present : List SignatureArtifact)
    (artifact : SignatureArtifact) : Prop where
  first : present = [] → inputRevision artifact = canonical
  continues : present ≠ [] → ∃ previous ∈ present,
    outputRevision previous = inputRevision artifact
  free : ∀ sibling ∈ present, inputRevision sibling ≠ inputRevision artifact

variable {db : Db}

theorem mem_artifactsOn {documentVersionId : Id} {artifact : SignatureArtifact} :
    artifact ∈ db.artifactsOn documentVersionId ↔
      artifact ∈ db.artifacts ∧ db.artifactVersion? artifact = some documentVersionId := by
  rw [Db.artifactsOn, List.mem_filter, beq_iff_eq]

theorem artifactVersion?_eq_some {artifact : SignatureArtifact} {documentVersionId : Id} :
    db.artifactVersion? artifact = some documentVersionId ↔
      ∃ attempt, db.attempt? artifact.signatureAttemptId = some attempt ∧
        attempt.documentVersionId = documentVersionId := by
  rw [Db.artifactVersion?, Option.map_eq_some_iff]

theorem refuse_assertSignatureRevisionChain {artifact : SignatureArtifact}
    (hnew : ∀ other ∈ db.artifacts, other.id ≠ artifact.id) :
    refuse (assertSignatureRevisionChain db artifact) = .ok () ↔
      ∃ documentVersionId, db.artifactVersion? artifact = some documentVersionId ∧
        AcceptedRevision (db.canonicalSha256 documentVersionId)
          (db.artifactsOn documentVersionId) artifact := by
  unfold assertSignatureRevisionChain
  cases hv : db.artifactVersion? artifact with
  | none => simp
  | some v =>
    have hothers : ((db.artifactsOn v).filter fun a => a.id != artifact.id) = db.artifactsOn v :=
      List.filter_eq_self.mpr fun a ha => by
        simpa using hnew a (mem_artifactsOn.mp ha).1
    simp only [hothers, Option.some.injEq, exists_eq_left', List.isEmpty_iff]
    by_cases hempty : db.artifactsOn v = []
    · rw [if_pos hempty, refuse_raises, hempty]
      constructor
      · intro h
        have h : db.canonicalSha256 v = inputRevision artifact := by
          simpa [Db.canonicalSha256, inputRevision] using h
        exact ⟨fun _ => h.symm, fun hne => absurd rfl hne, by simp⟩
      · intro h
        have hfirst := h.first rfl
        simpa [Db.canonicalSha256, inputRevision] using hfirst.symm
    · rw [if_neg hempty, refuse_append, refuse_raises, refuse_raises]
      simp only [Bool.not_eq_false', List.any_eq_true, beq_iff_eq, List.any_eq_false]
      constructor
      · rintro ⟨⟨previous, hp, hout⟩, hfree⟩
        exact ⟨fun he => absurd he hempty,
          fun _ => ⟨previous, hp, congrArg some hout⟩,
          fun sibling hs he => hfree sibling hs (Option.some.inj he)⟩
      · intro h
        obtain ⟨previous, hp, hout⟩ := h.continues hempty
        exact ⟨⟨previous, hp, Option.some.inj hout⟩,
          fun sibling hs he => h.free sibling hs (congrArg some he)⟩

/-! ## How the artifacts of a version change -/

section Change

variable {db' : Db}

theorem artifactVersion?_congr {artifact : SignatureArtifact}
    (h : (db'.attempt? artifact.signatureAttemptId).map (·.documentVersionId) =
      (db.attempt? artifact.signatureAttemptId).map (·.documentVersionId)) :
    db'.artifactVersion? artifact = db.artifactVersion? artifact := h

theorem artifactsOn_congr (hartifacts : db'.artifacts = db.artifacts)
    (hversion : ∀ artifact ∈ db.artifacts,
      db'.artifactVersion? artifact = db.artifactVersion? artifact) (documentVersionId : Id) :
    db'.artifactsOn documentVersionId = db.artifactsOn documentVersionId := by
  rw [Db.artifactsOn, hartifacts, Db.artifactsOn]
  exact List.filter_congr fun artifact ha => by rw [hversion artifact ha]

theorem artifactVersion?_assign {p : SignatureAttempt → Bool}
    {f : SignatureAttempt → SignatureAttempt} (hattempts : db'.attempts = assign p f db.attempts)
    (hid : ∀ a, (f a).id = a.id) (hversion : ∀ a, (f a).documentVersionId = a.documentVersionId)
    (artifact : SignatureArtifact) :
    db'.artifactVersion? artifact = db.artifactVersion? artifact := by
  rw [Db.artifactVersion?, Db.attempt?, hattempts,
    find?_assign (·.id) fun a _ _ => hid a, Option.map_map, Db.artifactVersion?,
    Db.attempt?]
  congr 1
  funext a
  rw [Function.comp_apply]
  split
  · exact hversion a
  · rfl

theorem Db.Chained.of_assign {p : SignatureAttempt → Bool}
    {f : SignatureAttempt → SignatureAttempt} (h : db.Chained)
    (hattempts : db'.attempts = assign p f db.attempts)
    (hid : ∀ a, (f a).id = a.id) (hversion : ∀ a, (f a).documentVersionId = a.documentVersionId)
    (hartifacts : db'.artifacts = db.artifacts) (hversions : db'.versions = db.versions) :
    db'.Chained where
  attempted := by
    intro artifact ha
    rw [hartifacts] at ha
    rw [Db.attempt?, hattempts, find?_assign (·.id) fun a _ _ => hid a, Option.isSome_map]
    exact h.attempted artifact ha
  chain v := by
    rw [Db.ChainOn, Db.canonicalSha256, Db.version?, hversions,
      artifactsOn_congr hartifacts fun a _ => artifactVersion?_assign hattempts hid hversion a]
    exact h.chain v

theorem artifactsOn_append {attempt : SignatureAttempt} {artifact : SignatureArtifact}
    (h : ∀ a ∈ db.artifacts, (db.attempt? a.signatureAttemptId).isSome = true)
    (hattempts : db'.attempts = db.attempts ++ [attempt])
    (hartifacts : db'.artifacts = db.artifacts ++ [artifact])
    (hnew : ∀ a ∈ db.attempts, a.id ≠ attempt.id)
    (howner : artifact.signatureAttemptId = attempt.id)
    (documentVersionId : Id) :
    db'.artifactsOn documentVersionId = db.artifactsOn documentVersionId ++
      if attempt.documentVersionId = documentVersionId then [artifact] else [] := by
  have hold : ∀ a ∈ db.artifacts, db'.artifactVersion? a = db.artifactVersion? a := by
    intro a ha
    obtain ⟨found, hfound⟩ := Option.isSome_iff_exists.mp (h a ha)
    refine artifactVersion?_congr ?_
    rw [Db.attempt?, hattempts, List.find?_append]
    rw [Db.attempt?] at hfound
    rw [hfound, Option.some_or, Db.attempt?, hfound]
  have hown : db'.artifactVersion? artifact = some attempt.documentVersionId := by
    have hnone : db.attempts.find? (fun a => a.id == artifact.signatureAttemptId) = none :=
      List.find?_eq_none.mpr fun a ha => by simpa [howner] using hnew a ha
    rw [Db.artifactVersion?, Db.attempt?, hattempts, List.find?_append, hnone]
    simp [howner]
  rw [Db.artifactsOn, hartifacts, List.filter_append, Db.artifactsOn]
  congr 1
  · exact List.filter_congr fun a ha => by rw [hold a ha]
  · by_cases hv : attempt.documentVersionId = documentVersionId
    · simp [hown, hv]
    · simp [hown, hv]

theorem Db.Chained.append {attempt : SignatureAttempt} {artifact : SignatureArtifact}
    (h : db.Chained) (hattempts : db'.attempts = db.attempts ++ [attempt])
    (hartifacts : db'.artifacts = db.artifacts ++ [artifact])
    (hversions : db'.versions = db.versions)
    (hnew : ∀ a ∈ db.attempts, a.id ≠ attempt.id)
    (howner : artifact.signatureAttemptId = attempt.id)
    (haccepted : AcceptedRevision (db.canonicalSha256 attempt.documentVersionId)
      (db.artifactsOn attempt.documentVersionId) artifact) : db'.Chained where
  attempted := by
    intro a ha
    rw [Db.attempt?, hattempts, List.find?_append]
    rw [hartifacts] at ha
    rcases List.mem_append.mp ha with hold | hrow
    · have hfound := h.attempted a hold
      rw [Db.attempt?] at hfound
      simp [hfound]
    · rw [List.mem_singleton.mp hrow]
      simp [howner]
  chain v := by
    rw [Db.ChainOn, Db.canonicalSha256, Db.version?, hversions,
      artifactsOn_append h.attempted hattempts hartifacts hnew howner]
    by_cases hv : attempt.documentVersionId = v
    · subst hv
      rw [if_pos rfl]
      exact (h.chain _).append haccepted.first haccepted.continues haccepted.free
    · rw [if_neg hv, List.append_nil]
      exact h.chain v

end Change

end Kommunsign
