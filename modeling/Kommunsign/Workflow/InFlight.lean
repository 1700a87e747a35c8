import Kommunsign.Workflow.Standing

/-!
# Runs of `handlePadesCreate` in flight

A run that has been started keeps its intent, and is done with one document after the other. It
knows nothing of what happens to the signer and the case in the meantime.

* `Continues` — what a step may make of a run
* `RunsAfter`, `runsAfter_of_step` — a run after a step continues one before it, or has just been
  started
-/

namespace Kommunsign

open Infra

/-- The intent that a step starts a run for. -/
def Sys.created? (s : Sys) : Step → Option SigningIntent
  | .startCreate intentId => s.db.intent? intentId
  | _ => none

/-- A run after a step, and what it was before the step. -/
structure Continues (s : Sys) (i : Step) (run run' : PadesCreateRun) : Prop where
  intent : run'.intent = run.intent
  documents : run'.documents ≠ [] → run.documents ≠ []
  unmarked : run'.marked = false → run.marked = false ∧ run'.documents = run.documents
  marked : run.marked = false → run'.marked = true →
    ∃ index, i = .markSigning index ∧ s.creates[index]? = some run
  requestedFormat : run'.requestedFormat = run.requestedFormat

theorem Continues.refl (s : Sys) (i : Step) (run : PadesCreateRun) : Continues s i run run :=
  ⟨rfl, id, fun h => ⟨h, rfl⟩, fun h h' => absurd (h.symm.trans h') Bool.false_ne_true, rfl⟩

theorem Continues.of_marked {s : Sys} {i : Step} {run run' : PadesCreateRun}
    (hmarked : run.marked = true) (hintent : run'.intent = run.intent)
    (hsame : run'.marked = run.marked) (hformat : run'.requestedFormat = run.requestedFormat)
    (hdocuments : run'.documents ≠ [] → run.documents ≠ []) : Continues s i run run' := by
  refine ⟨hintent, hdocuments, fun h => ?_, fun h => ?_, hformat⟩
  · rw [hsame, hmarked] at h
    cases h
  · rw [hmarked] at h
    cases h

theorem next_documents {run : PadesCreateRun} (h : run.next.documents ≠ []) :
    run.documents ≠ [] := by
  intro hnil
  rw [PadesCreateRun.next, hnil] at h
  exact h rfl

section Steps

variable {s s' : Sys}

theorem continues_of_set {i : Step} {index : Nat} {run next run' : PadesCreateRun}
    (hrun : s.creates[index]? = some run) (hmem : run' ∈ s.creates.set index next)
    (hnext : Continues s i run next) : ∃ run ∈ s.creates, Continues s i run run' := by
  rcases List.mem_or_eq_of_mem_set hmem with hold | rfl
  · exact ⟨run', hold, Continues.refl s i run'⟩
  · exact ⟨run, List.mem_of_getElem? hrun, hnext⟩

/-- What is in flight after a step: what was before it, and what the step has started. -/
structure RunsAfter (s : Sys) (i : Step) (s' : Sys) : Prop where
  starts : ∀ start ∈ s'.starts, start ∈ s.starts ∨ ∃ invitationId text,
    i = .startSession invitationId ∧ startSession s.db s.clock invitationId = .ok (start, text)
  checks : ∀ t ∈ s'.checks, t ∈ s.checks ∨ i = .readEvidence t ∧ .signatureValidate t ∈ s.db.jobs
  creates : ∀ run' ∈ s'.creates, (∃ run ∈ s.creates, Continues s i run run') ∨
    ∃ intentId, i = .startCreate intentId ∧ startPadesCreate s.db intentId = .ok (some run')
  validates : ∀ run ∈ s'.validates, run ∈ s.validates ∨ ∃ payload report,
    i = .readValidate payload report ∧ .padesValidate payload ∈ s.db.jobs ∧
      readPadesValidate s.db payload report = .ok (some run)

theorem RunsAfter.of_db (s : Sys) (i : Step) (db : Db) (clock : Time) :
    RunsAfter s i { s with db := db, clock := clock } where
  starts _ hstart := Or.inl hstart
  checks _ ht := Or.inl ht
  creates run hrun := Or.inl ⟨run, hrun, Continues.refl s i run⟩
  validates _ hrun := Or.inl hrun

theorem runsAfter_of_step {i : Step} (hstep : Sys.step s i = some s') : RunsAfter s i s' := by
  cases i with
  | tick duration =>
    cases hstep
    exact RunsAfter.of_db s _ _ _
  | prepareCase | send | cancel | expire | remind | delivery | markOpened | decline
  | sessionStatus | cancelSession | pollIdentity =>
    obtain ⟨_, _, rfl⟩ := Sys.commit_eq_some.mp hstep
    exact RunsAfter.of_db s _ _ _
  | collectEvidence | failIdentity | buildPackage =>
    obtain ⟨_, _, _, rfl⟩ := Sys.work_eq_some.mp hstep
    exact RunsAfter.of_db s _ _ _
  | startSession invitationId =>
    obtain ⟨read, text, hread, rfl⟩ := step_startSession hstep
    refine { RunsAfter.of_db s _ s.db s.clock with starts := fun start hstart => ?_ }
    rcases List.mem_append.mp hstart with hold | hnew
    · exact Or.inl hold
    · obtain rfl := List.mem_singleton.mp hnew
      exact Or.inr ⟨invitationId, text, rfl, hread⟩
  | recordSession =>
    obtain ⟨_, _, _, _, rfl⟩ := step_recordSession hstep
    refine { RunsAfter.of_db s _ s.db s.clock with starts := fun start hstart => Or.inl ?_ }
    exact List.mem_of_mem_eraseIdx hstart
  | completeSession =>
    obtain ⟨_, _, _, rfl⟩ := step_completeSession hstep
    exact RunsAfter.of_db s _ _ _
  | readEvidence t =>
    obtain ⟨hjob, -, rfl⟩ := step_readEvidence hstep
    refine { RunsAfter.of_db s _ s.db s.clock with checks := fun checked hchecked => ?_ }
    rcases List.mem_append.mp hchecked with hold | hnew
    · exact Or.inl hold
    · obtain rfl := List.mem_singleton.mp hnew
      exact Or.inr ⟨rfl, hjob⟩
  | recordVerification =>
    obtain ⟨_, _, _, _, rfl⟩ := step_recordVerification hstep
    refine { RunsAfter.of_db s _ s.db s.clock with checks := fun t ht => Or.inl ?_ }
    exact List.mem_of_mem_eraseIdx ht
  | startCreate intentId =>
    obtain ⟨-, run, hstart, rfl⟩ := step_startCreate hstep
    refine { RunsAfter.of_db s _ s.db s.clock with creates := fun run' hrun' => ?_ }
    rcases List.mem_append.mp hrun' with hold | hnew
    · exact (RunsAfter.of_db s _ s.db s.clock).creates run' hold
    · obtain rfl := List.mem_singleton.mp hnew
      exact Or.inr ⟨intentId, rfl, hstart⟩
  | markSigning index =>
    obtain ⟨run, _, _, hrun, -, -, rfl⟩ := step_markSigning hstep
    refine { RunsAfter.of_db s _ s.db s.clock with creates := fun run' hrun' => Or.inl ?_ }
    refine continues_of_set hrun hrun' ⟨rfl, id, fun h => ?_, fun _ _ => ?_, rfl⟩
    · cases h
    · exact ⟨index, rfl, hrun⟩
  | skipDocument index =>
    obtain ⟨run, _, hrun, _, hmarked, _, rfl⟩ := step_skipDocument hstep
    refine { RunsAfter.of_db s _ s.db s.clock with creates := fun run' hrun' => Or.inl ?_ }
    exact continues_of_set hrun hrun' (.of_marked hmarked rfl rfl rfl next_documents)
  | loadRevision index download =>
    obtain ⟨run, _, _, hrun, _, hmarked, _, _, rfl⟩ := step_loadRevision hstep
    refine { RunsAfter.of_db s _ s.db s.clock with creates := fun run' hrun' => Or.inl ?_ }
    exact continues_of_set hrun hrun' (.of_marked hmarked rfl rfl rfl id)
  | commitSignature index attemptId artifactId signed =>
    obtain ⟨run, _, _, _, hrun, _, _, hmarked, _, rfl⟩ := step_commitSignature hstep
    refine { RunsAfter.of_db s _ s.db s.clock with creates := fun run' hrun' => Or.inl ?_ }
    exact continues_of_set hrun hrun' (.of_marked hmarked rfl rfl rfl next_documents)
  | dropCreate index =>
    cases hstep
    refine { RunsAfter.of_db s _ s.db s.clock with creates := fun run' hrun' => ?_ }
    exact (RunsAfter.of_db s _ s.db s.clock).creates run' (List.mem_of_mem_eraseIdx hrun')
  | readValidate payload report =>
    obtain ⟨hjob, read, hread, rfl⟩ := step_readValidate hstep
    refine { RunsAfter.of_db s _ s.db s.clock with validates := fun run hrun => ?_ }
    rcases List.mem_append.mp hrun with hold | hnew
    · exact Or.inl hold
    · obtain rfl := List.mem_singleton.mp hnew
      exact Or.inr ⟨payload, report, rfl, hjob, hread⟩
  | commitValidation =>
    obtain ⟨_, _, _, _, rfl⟩ := step_commitValidation hstep
    refine { RunsAfter.of_db s _ s.db s.clock with validates := fun run hrun => Or.inl ?_ }
    exact List.mem_of_mem_eraseIdx hrun

/-! ## New signatures -/

theorem attempts_of_step {i : Step} (hstep : Sys.step s i = some s') : ∀ a' ∈ s'.db.attempts,
    (∃ a ∈ s.db.attempts, a.id = a'.id ∧ a.signerId = a'.signerId) ∨
      ∃ run ∈ s.creates, run.marked = true ∧ run.documents ≠ [] ∧
        run.intent.signerId = a'.signerId := by
  intro a' ha'
  rcases intake_or_leaves hstep with ⟨intake, rfl, -, rfl⟩ | hleaves
  · exact Or.inl ⟨a', ha', rfl, rfl⟩
  rcases hleaves.attempts.exists_before ha' with ⟨a, ha, hchange⟩ | hsigns
  · exact Or.inl ⟨a, ha, hchange.id.symm, hchange.signerId.symm⟩
  · obtain ⟨index, attemptId, artifactId, signed, rfl, run', hrun', hsigner⟩ :=
      signs_of_effect hsigns
    obtain ⟨run, document, _, _, hrun, hdocument, _, hmarked, _, rfl⟩ := step_commitSignature hstep
    obtain rfl := Option.some.inj (hrun.symm.trans hrun')
    refine Or.inr ⟨run, List.mem_of_getElem? hrun, hmarked, fun hnil => ?_, hsigner⟩
    rw [hnil] at hdocument
    cases hdocument

theorem artifacts_of_step {i : Step} (hstep : Sys.step s i = some s') :
    ∀ artifact ∈ s'.db.artifacts, artifact ∈ s.db.artifacts ∨
      ∃ run ∈ s.creates, run.marked = true ∧ run.documents ≠ [] ∧
        ∃ a, s'.db.attempt? artifact.signatureAttemptId = some a ∧
          run.intent.signerId = a.signerId := by
  intro artifact hartifact
  rcases intake_or_leaves hstep with ⟨intake, rfl, -, rfl⟩ | hleaves
  · exact Or.inl hartifact
  rcases hleaves.artifacts.exists_before hartifact with ⟨_, hold, rfl⟩ | ⟨signerId, hsigns⟩
  · exact Or.inl hold
  · obtain ⟨index, attemptId, artifactId, signed, rfl, -⟩ := signs_of_effect hsigns
    obtain ⟨run, document, input, _, hrun, hdocument, _, hmarked, hok, rfl⟩ :=
      step_commitSignature hstep
    obtain ⟨-, hnew, -, rfl⟩ := writeSignature_eq (commitSignature_eq hok).1
    rcases List.mem_append.mp hartifact with hold | hrow
    · exact Or.inl hold
    · obtain rfl := List.mem_singleton.mp hrow
      have hfound : (withSignature s.db run.intent document (artifactRow run.intent
          run.requestedFormat document attemptId artifactId input signed)).attempt? attemptId =
            some { attemptRow s.db run.intent document attemptId with status := .signed } :=
        find?_append_new (fun a : SignatureAttempt => a.id) hnew rfl
      refine Or.inr ⟨run, List.mem_of_getElem? hrun, hmarked, fun hnil => ?_, _, hfound, rfl⟩
      rw [hnil] at hdocument
      cases hdocument

theorem signer?_markSigning {db db' : Db} {id : Id} {n : Nat} {signer : Signer}
    (hok : markSigning id db = .ok (n, db')) (hsigner : db.signer? id = some signer) :
    ∃ signer', db'.signer? id = some signer' ∧ signer'.signatureCaseId = signer.signatureCaseId ∧
      signer'.status = if signer.status = .identity_verified then .signing else signer.status := by
  obtain ⟨-, rfl, -⟩ := Table.update_eq_ok.mp hok
  have hfind : (assign (fun row => row.id == id && row.status == .identity_verified)
      (fun row => { row with status := .signing }) db.signers).find? (fun row => row.id == id) =
        (db.signer? id).map fun row => if (row.id == id && row.status == .identity_verified) = true
          then { row with status := .signing } else row :=
    find?_assign (fun row : Signer => row.id) fun _ _ _ => rfl
  have hid : signer.id = id := (exists_of_find?_key hsigner).2
  rw [hsigner] at hfind
  refine ⟨_, hfind, ?_⟩
  by_cases hverified : signer.status = .identity_verified
  · simp [hid, hverified]
  · simp [hverified]

end Steps

end Kommunsign
