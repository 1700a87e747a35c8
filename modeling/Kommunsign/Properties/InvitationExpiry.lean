import Kommunsign.Workflow.Turns
import Mathlib.Order.MinMax

/-!
# The expiry of invitations

`send` lets the intents and the first invitations expire an hour later, whatever the case allows.
`activateNextSigningGroup` gives later groups the expiry of their intents. Only a reminder looks at
the expiry of the case.

* `SendsInTime` — a case that is sent expires within the hour
* `throughout_invitationsUsable_iff` — a run keeps the one exactly when its steps meet the other
* `not_invitationsUsable_of_delay` — the second group is invited when its intents have expired
-/

namespace Kommunsign

open Infra

/--
From the moment it is made, and so also when it is mailed, the invitation has not expired as long as
the case has not.
-/
def SignerInvitation.UsableUntil (i : SignerInvitation) (c : SignatureCase) : Prop :=
  ∀ t, i.createdAt ≤ t → c.expiresAt.all (t < ·) = true → t < i.expiresAt

def Db.InvitationsUsable (db : Db) : Prop :=
  ∀ i ∈ db.invitations, ∀ signer ∈ db.signer? i.signerId,
    ∀ c ∈ db.case? signer.signatureCaseId, i.UsableUntil c

def SignatureCase.EndsBy (c : SignatureCase) (t : Time) : Prop := ∃ d ∈ c.expiresAt, d ≤ t

def Sys.sending? (s : Sys) : Step → Option SignatureCase
  | .send c _ => s.db.case? c
  | _ => none

def SendsInTime (s : Sys) (i : Step) : Prop :=
  ∀ c ∈ s.sending? i, c.EndsBy (s.clock + 3600000)

instance (c : SignatureCase) (t : Time) : Decidable (c.EndsBy t) := by
  unfold SignatureCase.EndsBy
  infer_instance

instance (s : Sys) (i : Step) : Decidable (SendsInTime s i) := by
  unfold SendsInTime
  infer_instance

def IntentsInTime (s : Sys) : Prop :=
  ∀ si ∈ s.db.intents, ∀ c ∈ s.db.case? si.signatureCaseId, c.EndsBy si.expiresAt

/-! ## Invitations and cases -/

section

variable {i i' : SignerInvitation} {c c' : SignatureCase} {t : Time}

theorem usableUntil_iff : i.UsableUntil c ↔ c.EndsBy (max i.createdAt i.expiresAt) := by
  unfold SignerInvitation.UsableUntil SignatureCase.EndsBy
  constructor
  · intro h
    -- otherwise the invitation would have to work when it has expired
    have hnot := h (max i.createdAt i.expiresAt) (le_max_left _ _)
    cases hc : c.expiresAt with
    | none =>
      rw [hc] at hnot
      exact absurd (hnot rfl) (not_lt.mpr (le_max_right _ _))
    | some d =>
      refine ⟨d, rfl, not_lt.mp fun hlt => ?_⟩
      rw [hc, Option.all_some, decide_eq_true hlt] at hnot
      exact absurd (hnot rfl) (not_lt.mpr (le_max_right _ _))
  · rintro ⟨d, hd, hle⟩ t hcreated hopen
    rw [Option.mem_def] at hd
    rw [hd, Option.all_some, decide_eq_true_eq] at hopen
    have hlt : t < max i.createdAt i.expiresAt := hopen.trans_le hle
    exact (lt_max_iff.mp hlt).resolve_left (not_lt.mpr hcreated)

theorem SignerInvitation.UsableUntil.of_endsBy (h : c.EndsBy i.expiresAt) : i.UsableUntil c := by
  obtain ⟨d, hd, hle⟩ := h
  exact usableUntil_iff.mpr ⟨d, hd, hle.trans (le_max_right _ _)⟩

theorem SignerInvitation.UsableUntil.of_move (h : i.UsableUntil c) (hmove : InvitationMove i i')
    (hcase : c'.expiresAt = c.expiresAt) : i'.UsableUntil c' := by
  unfold SignerInvitation.UsableUntil
  rw [hmove.createdAt, hmove.expiresAt, hcase]
  exact h

theorem SignatureCase.EndsBy.of_eq (h : c.EndsBy t) (hcase : c'.expiresAt = c.expiresAt) :
    c'.EndsBy t := by
  unfold SignatureCase.EndsBy
  rw [hcase]
  exact h

instance (i : SignerInvitation) (c : SignatureCase) : Decidable (i.UsableUntil c) :=
  decidable_of_iff _ usableUntil_iff.symm

end

/-! ## What a send writes -/

section Sending

variable {db db' : Db} {now : Time} {nonce : Id → Text} {c : SignatureCase}
  {rows : List SigningDocumentRow} {group : Nat} {signer : Signer} {u : Unit}

structure Issues (c : SignatureCase) (expiresAt : Time) (db db' : Db) : Prop where
  invitations : db.invitations ⊆ db'.invitations
  intents : ∀ si ∈ db'.intents,
    si ∈ db.intents ∨ si.signatureCaseId = c.id ∧ si.expiresAt = expiresAt

theorem Issues.refl (c : SignatureCase) (expiresAt : Time) (db : Db) : Issues c expiresAt db db :=
  ⟨List.Subset.refl _, fun _ hsi => Or.inl hsi⟩

theorem Issues.trans {expiresAt : Time} (db db' db'' : Db) (h : Issues c expiresAt db db')
    (h' : Issues c expiresAt db' db'') : Issues c expiresAt db db'' := by
  refine ⟨List.Subset.trans h.invitations h'.invitations, fun si hsi => ?_⟩
  rcases h'.intents si hsi with hold | hnew
  · exact h.intents si hold
  · exact Or.inr hnew

def Db.InvitedNow (db : Db) (now expiresAt : Time) (signerId : Id) : Prop :=
  ∃ i ∈ db.invitations, i.signerId = signerId ∧ i.createdAt = now ∧ i.expiresAt = expiresAt

theorem issues_of_sendSigner (h : sendSigner now nonce c rows group signer db = .ok (u, db')) :
    Issues c (now + 3600000) db db' := by
  obtain ⟨mode, -, -, -, hinvite⟩ := sendSigner_eq h
  have hintent : Issues c (now + 3600000) db (db.withIntent
      (preparedIntent db.organizationName c rows (intentSource db now nonce signer mode))
      ((numbered rows).map fun r =>
        intentDocument (intentSource db now nonce signer mode).signingIntentId r.1 r.2)) := by
    refine ⟨List.Subset.refl _, fun si hsi => ?_⟩
    refine (List.mem_append.mp hsi).imp_right fun hnew => ?_
    rw [List.mem_singleton.mp hnew]
    exact ⟨rfl, rfl⟩
  rcases hinvite with ⟨-, hinvite⟩ | ⟨-, rfl⟩
  · obtain ⟨-, -, rfl⟩ := inviteFirst_eq hinvite
    exact ⟨List.subset_append_left _ _, hintent.intents⟩
  · exact hintent

theorem invitedNow_of_sendSigner (h : sendSigner now nonce c rows group signer db = .ok (u, db'))
    (hfirst : signer.signingOrder = group) : db'.InvitedNow now (now + 3600000) signer.id := by
  obtain ⟨mode, -, -, -, ⟨-, hinvite⟩ | ⟨hnot, -⟩⟩ := sendSigner_eq h
  · obtain ⟨-, -, rfl⟩ := inviteFirst_eq hinvite
    exact ⟨_, List.mem_append_right _ List.mem_cons_self, rfl, rfl, rfl⟩
  · exact absurd hfirst hnot

theorem Issues.invitedNow {expiresAt : Time} {id : Id} (h : Issues c expiresAt db db')
    (hinvited : db.InvitedNow now expiresAt id) : db'.InvitedNow now expiresAt id := by
  obtain ⟨i, hi, hsigner⟩ := hinvited
  exact ⟨i, h.invitations hi, hsigner⟩

end Sending

section Steps

variable {s s' : Sys} {i : Step}

theorem issues_of_send {c : Id} {nonce : Id → Text} (hstep : Sys.step s (.send c nonce) = some s') :
    ∃ row, s.db.case? c = some row ∧ Issues row (s.clock + 3600000) s.db s'.db ∧
      ∃ signer ∈ s.db.signersInOrder c,
        s'.db.InvitedNow s.clock (s.clock + 3600000) signer.id := by
  obtain ⟨db, hok, rfl⟩ := Sys.commit_eq_some.mp hstep
  obtain ⟨row, prepared, db₁, hrow, rfl, hsendable, hloop, -, rfl⟩ := send_eq hok
  have hissues (signer : Signer) (db : Db) : Transaction.Within (Issues row (s.clock + 3600000))
      (sendSigner s.clock nonce row (s.db.sendRows row.id)
        (firstGroup (s.db.signersInOrder row.id)) signer) db :=
    fun _ _ h => issues_of_sendSigner h
  refine ⟨row, hrow, ?_, ?_⟩
  · have hall : Issues row (s.clock + 3600000) (s.db.withLockedVersions s.clock row.id) db₁ :=
      Transaction.Within.forEach (Issues.refl row _) Issues.trans (fun _ _ => True)
        (fun signer _ db _ => ⟨hissues signer db, fun _ _ _ => trivial⟩) trivial _ _ hloop
    exact ⟨hall.invitations, hall.intents⟩
  · obtain ⟨signer, hsigner, hfirst⟩ := exists_firstGroup hsendable.signers
    have hinvited : db₁.InvitedNow s.clock (s.clock + 3600000) signer.id :=
      Transaction.forEach_post (Q := fun signer db =>
          signer.signingOrder = firstGroup (s.db.signersInOrder row.id) →
            db.InvitedNow s.clock (s.clock + 3600000) signer.id)
        hissues (fun _ _ _ h hold hfirst => h.invitedNow (hold hfirst))
        (fun _ _ _ _ h hfirst => invitedNow_of_sendSigner h hfirst) hloop signer hsigner hfirst
    exact ⟨signer, hsigner, hinvited⟩

/-! ## Steps -/

theorem expiresAt_of_step (hstep : Sys.step s i = some s') {id : Id} {c c' : SignatureCase}
    (hc : s.db.case? id = some c) (hc' : s'.db.case? id = some c') : c'.expiresAt = c.expiresAt := by
  obtain ⟨c₁, hc₁, hchange⟩ := case?_of_step hstep hc
  rw [hc', Option.some.injEq] at hc₁
  rw [hc₁]
  exact hchange.expiresAt

theorem intentsInTime_of_step (h : IntentsInTime s) (hprepared : Prepared s)
    (htime : SendsInTime s i) (hstep : Sys.step s i = some s') : IntentsInTime s' := by
  have hkept (si : SigningIntent) (hsi : si ∈ s.db.intents) (c' : SignatureCase)
      (hc' : s'.db.case? si.signatureCaseId = some c') : c'.EndsBy si.expiresAt := by
    obtain ⟨c, _, hc, -⟩ := hprepared.sent si hsi
    exact (h si hsi c hc).of_eq (expiresAt_of_step hstep hc hc')
  intro si' hsi' c' hc'
  by_cases hsend : ∃ c nonce, i = .send c nonce
  · obtain ⟨c, nonce, rfl⟩ := hsend
    obtain ⟨row, hrow, hissues, -⟩ := issues_of_send hstep
    rcases hissues.intents si' hsi' with hold | ⟨hcase, hexpires⟩
    · exact hkept si' hold c' hc'
    · obtain rfl : row.id = c := (exists_of_find?_key hrow).2
      rw [hcase] at hc'
      rw [hexpires]
      exact (htime row hrow).of_eq (expiresAt_of_step hstep hrow hc')
  · obtain ⟨si, hsi, hchange⟩ :=
      (intents_moved hstep fun c nonce heq => hsend ⟨c, nonce, heq⟩).exists_before hsi'
    have hexpires : si'.expiresAt = si.expiresAt := congrArg (·.expiresAt) hchange.payload
    rw [hchange.toIntentMove.signatureCaseId] at hc'
    rw [hexpires]
    exact hkept si hsi c' hc'

theorem endsBy_of_invites (h : IntentsInTime s) (hprepared : Prepared s)
    (hstanding : Standing s) (htime : SendsInTime s i) {signer : Signer} {expiresAt : Time}
    (hsigner : signer ∈ s.db.signers) (hinvites : (stepEffect s i).invites signer.id expiresAt)
    {c : SignatureCase} (hc : s.db.case? signer.signatureCaseId = some c) : c.EndsBy expiresAt := by
  cases i with
  | send c₁ nonce =>
    obtain ⟨rfl, row, hrow, hid⟩ := hinvites
    obtain ⟨hmem, hcase⟩ := mem_signersInOrder.mp hrow
    obtain rfl := eq_of_key_eq hstanding.signersKeyed hmem hsigner hid
    rw [hcase] at hc
    exact htime c hc
  | remind c₁ =>
    obtain ⟨item, hitem, hid, rfl⟩ := hinvites
    obtain ⟨row, hrow, hitem⟩ := List.mem_flatMap.mp hitem
    obtain ⟨c₂, hc₂, rfl⟩ := List.mem_map.mp hitem
    obtain rfl := eq_of_key_eq hstanding.signersKeyed (List.mem_filter.mp hrow).1 hsigner hid
    obtain ⟨hmem, hopen⟩ := List.mem_filter.mp hc₂
    simp only [Bool.and_eq_true, beq_iff_eq] at hopen
    obtain rfl : c₂ = c := by
      obtain ⟨hmem', hid'⟩ := exists_of_find?_key hc
      exact eq_of_key_eq hstanding.casesKeyed hmem hmem' (hopen.1.1.1.trans hid'.symm)
    -- the case is open, so the signer has an intent, which says that the case expires
    obtain ⟨si, hsi, hof⟩ := hprepared.covers row hsigner c₂ hc hopen.1.1.2
    obtain ⟨_, signer', -, -, hfound, hcase⟩ := hprepared.sent si hsi
    obtain ⟨hmem', hid'⟩ := exists_of_find?_key hfound
    obtain rfl := eq_of_key_eq hstanding.signersKeyed hmem' hsigner (hid'.trans hof)
    obtain ⟨d, hd, -⟩ := h si hsi c₂ (hcase ▸ hc)
    rw [Option.mem_def] at hd
    exact ⟨d, hd, by rw [hd, Option.getD_some]⟩
  | commitValidation index =>
    obtain ⟨si, hsi, hof, rfl⟩ := hinvites
    obtain ⟨_, signer', -, -, hfound, hcase⟩ := hprepared.sent si hsi
    obtain ⟨hmem', hid'⟩ := exists_of_find?_key hfound
    obtain rfl := eq_of_key_eq hstanding.signersKeyed hmem' hsigner (hid'.trans hof)
    exact h si hsi c (hcase ▸ hc)
  | buildPackage c₁ signerId => cases signerId <;> cases hinvites
  | tick | prepareCase | cancel | expire | delivery | markOpened | decline | startSession
  | recordSession | sessionStatus | cancelSession | pollIdentity | completeSession
  | collectEvidence | failIdentity | readEvidence | recordVerification | startCreate | markSigning
  | skipDocument | loadRevision | commitSignature | dropCreate | readValidate => cases hinvites

theorem case?_of_signer_after (hstanding : Standing s) (hstep : Sys.step s i = some s')
    {signer signer' : Signer} (hsigner : signer ∈ s.db.signers)
    (hsigner' : s'.db.signer? signer.id = some signer') {c' : SignatureCase}
    (hc' : s'.db.case? signer'.signatureCaseId = some c') :
    ∃ c, s.db.case? signer.signatureCaseId = some c ∧ c'.expiresAt = c.expiresAt := by
  obtain ⟨signer₁, hsigner₁, hchange⟩ :=
    signer?_of_step hstep (find?_of_mem hstanding.signersKeyed hsigner)
  obtain rfl := Option.some.inj (hsigner₁.symm.trans hsigner')
  rw [hchange.toSignerMove.signatureCaseId] at hc'
  have hconsistent := hstanding.consistent signer hsigner
  simp only [Tables.signerConstraints, refuse_append, refuse_violates] at hconsistent
  obtain ⟨c, hc⟩ := Option.isSome_iff_exists.mp (Option.isNone_eq_false_iff.mp hconsistent.1.1)
  exact ⟨c, hc, expiresAt_of_step hstep hc hc'⟩

theorem invitationsUsable_of_step (h : s.db.InvitationsUsable) (hintents : IntentsInTime s)
    (hprepared : Prepared s) (hstanding : Standing s) (htime : SendsInTime s i)
    (hstep : Sys.step s i = some s') : s'.db.InvitationsUsable := by
  intro inv' hinv' signer' hsigner' c' hc'
  -- an invitation that was there is of a signer who was there
  have hkept (inv : SignerInvitation) (hinv : inv ∈ s.db.invitations)
      (hmove : InvitationMove inv inv') : inv'.UsableUntil c' := by
    obtain ⟨-, signer, hsigner, hid, -⟩ := hstanding.invitations inv hinv
    rw [hmove.signerId, ← hid] at hsigner'
    obtain ⟨c, hc, hexpires⟩ := case?_of_signer_after hstanding hstep hsigner hsigner' hc'
    have hfound := find?_of_mem hstanding.signersKeyed hsigner
    exact (h inv hinv signer (hid ▸ hfound) c hc).of_move hmove hexpires
  rcases intake_or_leaves hstep with ⟨intake, rfl, -, rfl⟩ | hleaves
  · exact hkept inv' hinv' (InvitationMove.refl inv')
  · rcases hleaves.invitations inv' hinv' with ⟨inv, hinv, hmove⟩ | ⟨-, hinvites, signer₁, hs₁, hid, -⟩
    · exact hkept inv hinv hmove
    · obtain ⟨signer, hsigner, hchange⟩ := hleaves.signers.exists_before hs₁
      rw [← hid, hchange.id] at hsigner' hinvites
      obtain ⟨c, hc, hexpires⟩ := case?_of_signer_after hstanding hstep hsigner hsigner' hc'
      have hends := endsBy_of_invites hintents hprepared hstanding htime hsigner hinvites hc
      exact SignerInvitation.UsableUntil.of_endsBy (hends.of_eq hexpires)

theorem sendsInTime_of_usable (hstanding : Standing s) (hstep : Sys.step s i = some s')
    (h : s'.db.InvitationsUsable) : SendsInTime s i := by
  intro c hc
  cases i with
  | send id nonce =>
    obtain ⟨row, hrow, -, signer, hsigner, inv, hinv, hof, hcreated, hexpires⟩ :=
      issues_of_send hstep
    obtain rfl : row = c := Option.some.inj (hrow.symm.trans hc)
    obtain ⟨hmem, hcase⟩ := mem_signersInOrder.mp hsigner
    obtain ⟨signer', hsigner', hchange⟩ :=
      signer?_of_step hstep (find?_of_mem hstanding.signersKeyed hmem)
    obtain ⟨c', hc', hmove⟩ := case?_of_step hstep hrow
    have husable : inv.UsableUntil c' := by
      refine h inv hinv signer' (hof ▸ hsigner') c' ?_
      rw [hchange.toSignerMove.signatureCaseId, hcase]
      exact hc'
    rw [usableUntil_iff, hcreated, hexpires, max_eq_right (Nat.le_add_right _ _)] at husable
    exact husable.of_eq hmove.expiresAt.symm
  | _ => cases hc

end Steps

/-! ## Runs -/

/--
In the states of a run every invitation works until its case expires, exactly when every case that
is sent in the run expires within the hour.
-/
theorem throughout_invitationsUsable_iff {tenantId : Text} {organizationName : Option Text}
    {rollout : Bool} {clock : Time} {steps : List Step} {s : Sys}
    (h : run Sys.step (Sys.start tenantId organizationName rollout clock) steps = some s) :
    Throughout Sys.step (fun s => s.db.InvitationsUsable)
        (Sys.start tenantId organizationName rollout clock) steps ↔
      Meets Sys.step SendsInTime (Sys.start tenantId organizationName rollout clock) steps := by
  let inv (s : Sys) : Prop := s.Reachable ∧ IntentsInTime s
  have hinv (s : Sys) (i : Step) (s' : Sys) (hs : inv s) (htime : SendsInTime s i) (_ : True)
      (hstep : Sys.step s i = some s') : inv s' := by
    obtain ⟨hreachable, hintents⟩ := hs
    exact ⟨hreachable.of_step hstep,
      intentsInTime_of_step hintents (prepared_of_reachable hreachable) htime hstep⟩
  have hiff (s : Sys) (i : Step) (s' : Sys) (hs : inv s) (husable : s.db.InvitationsUsable)
      (_ : True) (hstep : Sys.step s i = some s') :
      s'.db.InvitationsUsable ↔ SendsInTime s i := by
    obtain ⟨hreachable, hintents⟩ := hs
    have hstanding := standing_of_reachable hreachable
    have hprepared := prepared_of_reachable hreachable
    exact ⟨sendsInTime_of_usable hstanding hstep, fun htime =>
      invitationsUsable_of_step husable hintents hprepared hstanding htime hstep⟩
  refine throughout_iff_meets_keeping hinv hiff ⟨?_, ?_⟩ ?_ (throughout_true _ _) h
  · exact ⟨tenantId, organizationName, rollout, clock, [], rfl⟩
  · exact fun si hsi => absurd hsi List.not_mem_nil
  · exact fun inv hinv => absurd hinv List.not_mem_nil

namespace InvitationExpiry

def caseUntil (expiresAt : Option Time) : Intake :=
  let intake := Intake.sample 1 [(1, true), (2, true)]
  { intake with case := { intake.case with expiresAt := expiresAt } }

/-- The first signer signs, and the second is invited this long after the case was sent. -/
def secondInvited (expiresAt : Option Time) (delay : Time) : List Step :=
  [.prepareCase (caseUntil expiresAt), .send 1 idText] ++ Step.identify 0 0 ++
    Step.sign 0 1 100 200 ++ [.tick delay] ++ Step.validate ⟨0, 1, 1, 0, .signed 0 0⟩

end InvitationExpiry

open InvitationExpiry in
/-- The case expires within the hour; the second signer is invited, and reminded. -/
theorem throughout_invitationsUsable_sample : Throughout Sys.step (fun s => s.db.InvitationsUsable)
    (Sys.start "1".toList none true 0) (secondInvited (some 1000000) 5000 ++ [.remind 1]) := by
  obtain ⟨s, hs, hthree⟩ : ∃ s ∈ Sys.after (secondInvited (some 1000000) 5000 ++ [.remind 1]),
      s.db.invitations.length = 3 := by decide +kernel
  exact (throughout_invitationsUsable_iff hs).mpr (by decide +kernel)

open InvitationExpiry in
/-- The second signer is invited when the hour is over: the invitation has expired, the case has not. -/
theorem not_invitationsUsable_of_delay : ¬∀ s : Sys, s.Reachable → s.db.InvitationsUsable := by
  intro hall
  obtain ⟨s, hs, inv, hinv, signer, hsigner, c, hc, hexpired, hopen⟩ :
      ∃ s ∈ Sys.after (secondInvited (some 10000000) 3600000), ∃ inv ∈ s.db.invitations,
        ∃ signer ∈ s.db.signer? inv.signerId, ∃ c ∈ s.db.case? signer.signatureCaseId,
          inv.expiresAt ≤ inv.createdAt ∧ c.expiresAt.all (inv.createdAt < ·) = true := by
    decide +kernel
  have hlt := hall s (Sys.reachable_of_after hs) inv hinv signer hsigner c hc inv.createdAt le_rfl hopen
  exact absurd hlt (not_lt.mpr hexpired)

end Kommunsign
