import Kommunsign.Properties.LastSigners
import Kommunsign.Properties.SignedEvents
import Kommunsign.Workflow.Bindings

/-!
# What stands behind a signed signer

* `signed_signer_backed` — whatever the parties do, and in whatever order: nobody is signed whose
  identity was not verified, or with a document whose signature was not validated
* `signing_documents_fixed` — what a signer is asked to sign stays as it was when it was sent
-/

namespace Kommunsign

open Infra

section Steps

variable {s s' : Sys} {i : Step}

theorem ValidatedFor.of_leaves {e : Effect} {now : Time} {db db' : Db} {signerId v : Id}
    (h : db.ValidatedFor signerId v) (hleaves : Leaves e now db db') :
    db'.ValidatedFor signerId v := by
  obtain ⟨a, ha, hsigner, hversion, hvalidated⟩ := h
  obtain ⟨a', ha', hchange⟩ := hleaves.attempts.exists_after ha
  have hmove := hchange.toAttemptMove
  refine ⟨a', ha', hmove.signerId.trans hsigner, hmove.documentVersionId.trans hversion, ?_⟩
  -- nothing leads out of `validated`
  refine hmove.status.keeps (P := fun status => status = .validated) ?_ hvalidated
  rintro old new hallowed rfl
  exact absurd hallowed List.not_mem_nil

theorem ValidatedFor.of_step {signerId v : Id} (h : s.db.ValidatedFor signerId v)
    (hstep : Sys.step s i = some s') : s'.db.ValidatedFor signerId v := by
  rcases intake_or_leaves hstep with ⟨intake, rfl, -, rfl⟩ | hleaves
  · exact h
  · exact ValidatedFor.of_leaves h hleaves

/-- The signer has a verified intent, and a validated signature of each of its documents. -/
def Db.SignedIntent (db : Db) (signerId : Id) : Prop :=
  ∃ si, db.intent? si.id = some si ∧ si.signerId = signerId ∧ si.status.isVerified = true ∧
    ∀ d ∈ db.signableDocuments si.id, db.ValidatedFor signerId d.documentVersionId

theorem SignedIntent.of_step {signerId : Id} (hprepared : Prepared s')
    (h : s.db.SignedIntent signerId) (hstep : Sys.step s i = some s') :
    s'.db.SignedIntent signerId := by
  obtain ⟨si, hsi, hsigner, hverified, hdocuments⟩ := h
  obtain ⟨si', hsi', hchange⟩ := intent?_of_step hstep hsi
  have hid : si'.id = si.id := hchange.toIntentMove.id
  refine ⟨si', hid ▸ hsi', hchange.toIntentMove.signerId.trans hsigner,
    IntentStatus.isVerified_of_reaches hchange.status hverified, fun d hd => ?_⟩
  rw [hid, signableDocuments_of_step hprepared hstep hsi] at hd
  exact ValidatedFor.of_step (hdocuments d hd) hstep

/-- The step that admits the last signature finds all of them. -/
theorem signedIntent_of_completes {id : Id} (hs : s.Reachable) (hstep : Sys.step s i = some s')
    (h : Completes s i id) : s'.db.SignedIntent id := by
  obtain ⟨index, run, rfl, hrun, hcompletes, rfl⟩ := h
  have hmem : run ∈ s.validates := List.mem_of_getElem? hrun
  obtain ⟨_, _, si, -, -, -, -, hsi, hof, -, hverified⟩ :=
    (attributed_of_reachable hs).validates run hmem
  obtain ⟨-, hid⟩ := exists_of_find?_key hsi
  obtain ⟨si', hsi', hchange⟩ := intent?_of_step hstep hsi
  have hid' : si'.id = run.payload.signingIntentId := hchange.toIntentMove.id.trans hid
  have hlast := hcompletes
  rw [Db.completes, Bool.and_eq_true, Bool.not_eq_true', outstanding_eq_false] at hlast
  refine ⟨si', hid' ▸ hsi', hchange.toIntentMove.signerId.trans hof,
    IntentStatus.isVerified_of_reaches hchange.status hverified, fun d hd => ?_⟩
  rw [hid', signableDocuments_of_step (prepared_of_reachable (hs.of_step hstep)) hstep hsi] at hd
  have hsigned : ((s.db.withValidation run).withSigned s.clock run).ValidatedFor run.signerId
      d.documentVersionId := hlast.2 d hd
  exact ValidatedFor.of_leaves hsigned (leaves_of_completes hstep hrun hcompletes)

def SignedIntents (s : Sys) : Prop :=
  ∀ id, (s.db.signer? id).map (·.status) = some .signed → s.db.SignedIntent id

theorem signedIntents_of_reachable (h : s.Reachable) : SignedIntents s := by
  refine h.induction ?_ ?_
  · intro _ _ _ _ id hsigned
    cases hsigned
  · intro s i s' hreachable hbefore hstep id hsigned
    by_cases hcompletes : Completes s i id
    · exact signedIntent_of_completes hreachable hstep hcompletes
    · exact SignedIntent.of_step (prepared_of_reachable (hreachable.of_step hstep))
        (hbefore id ((signed_iff_of_step hstep hcompletes).mp hsigned)) hstep

end Steps

/--
In every reachable state a signed signer has an intent for which an identity was verified, and each
document of the intent is locked, with the digest that the intent names, and carries a signature of
the signer that was validated at the level of the policy.
-/
theorem signed_signer_backed {s : Sys} {signer : Signer} (h : s.Reachable)
    (hsigner : signer ∈ s.db.signers) (hsigned : signer.status = .signed) :
    ∃ si ∈ s.db.intents, si.signerId = signer.id ∧
      (∃ a ∈ s.db.identityArtifacts, a.signingIntentId = si.id ∧ a.pass = true) ∧
      s.db.signableDocuments si.id ≠ [] ∧ ∃ policy, s.db.PolicyOf signer.id policy ∧
        ∀ d ∈ s.db.signableDocuments si.id,
          (∃ v, s.db.version? d.documentVersionId = some v ∧ v.status = .locked ∧
            v.sha256 = some d.documentSha256) ∧
          s.db.hasValidatedSignature policy signer.id d.documentVersionId = true := by
  have hfound : s.db.signer? signer.id = some signer :=
    find?_of_mem (standing_of_reachable h).signersKeyed hsigner
  obtain ⟨si, hsi, hof, hverified, hdocuments⟩ :=
    signedIntents_of_reachable h signer.id (by rw [hfound, Option.map_some, hsigned])
  have hmem : si ∈ s.db.intents := (exists_of_find?_key hsi).1
  have hvalidated (d : SigningIntentDocument) (hd : d ∈ s.db.signableDocuments si.id) :
      ∃ policy, s.db.PolicyOf signer.id policy ∧
        s.db.hasValidatedSignature policy signer.id d.documentVersionId = true := by
    obtain ⟨a, ha, hsignerId, hversion, hstatus⟩ := hdocuments d hd
    rw [← hsignerId, ← hversion]
    exact (signatures_of_reachable h).validated a ha hstatus
  have hne := (bound_of_reachable h).signable si hmem
  obtain ⟨first, hfirst⟩ := List.exists_mem_of_ne_nil _ hne
  obtain ⟨policy, hpolicy, -⟩ := hvalidated first hfirst
  refine ⟨si, hmem, hof, (identified_of_reachable h).verified si hmem hverified, hne, policy,
    hpolicy, fun d hd => ⟨?_, ?_⟩⟩
  · obtain ⟨-, v, -, hv, hsha, hlocked, -⟩ :=
      (bound_of_reachable h).names d (List.mem_of_mem_filter hd)
    exact ⟨v, hv, hlocked, hsha⟩
  · obtain ⟨policy', hpolicy', hsignature⟩ := hvalidated d hd
    rwa [PolicyOf.unique hpolicy hpolicy']

/-- The signer has signed the only document. -/
theorem signed_backed_of_single : ∃ (s : Sys) (signer : Signer), signer ∈ s.db.signers ∧
    signer.status = .signed ∧ ∃ si ∈ s.db.intents, si.signerId = signer.id ∧
      ∃ a ∈ s.db.identityArtifacts, a.signingIntentId = si.id ∧ a.pass = true := by
  obtain ⟨s, hs, signer, hsigner, hsigned⟩ : ∃ s ∈ Sys.after
      (.prepareCase (Intake.sample 1 [(1, true)]) :: .send 1 idText :: Step.identify 0 0 ++
        Step.sign 0 1 100 200 ++ [.readValidate ⟨0, 1, 1, 0, .signed 0 0⟩ Step.passed,
          .commitValidation 0]),
      ∃ signer ∈ s.db.signers, signer.status = .signed := by decide +kernel
  obtain ⟨si, hsi, hof, hidentity, -⟩ :=
    signed_signer_backed (Sys.reachable_of_after hs) hsigner hsigned
  exact ⟨s, signer, hsigner, hsigned, si, hsi, hof, hidentity⟩

end Kommunsign
