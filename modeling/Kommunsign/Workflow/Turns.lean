import Kommunsign.Infra.Turns
import Kommunsign.Workflow.Payloads

/-!
# The turns of a case

The signers of a case take turns by their signing orders. A required signer is done when the
signer has signed, and signers wait as long as they are pending.

* `Db.turns` — the signers of a case as members of groups
* `blocked_iff` — the predicate of the database is that of the turns
-/

namespace Kommunsign

open Infra

/-- The signers of a case, by their ids, in groups by their signing orders. -/
def Db.turns (db : Db) (c : Id) : Turns Id Nat where
  member x := ∃ signer ∈ db.signer? x, signer.signatureCaseId = c
  group x := ((db.signer? x).map (·.signingOrder)).getD 0
  required x := ∃ signer ∈ db.signer? x, signer.required = true
  done x := ∃ signer ∈ db.signer? x, signer.status = .signed
  waiting x := ∃ signer ∈ db.signer? x, signer.status = .pending

section Rows

variable {db : Db} {c x : Id} {signer : Signer}

theorem turns_member (h : db.signer? x = some signer) :
    (db.turns c).member x ↔ signer.signatureCaseId = c := by
  simp [Db.turns, h]

theorem turns_group (h : db.signer? x = some signer) :
    (db.turns c).group x = signer.signingOrder := by
  simp [Db.turns, h]

theorem turns_required (h : db.signer? x = some signer) :
    (db.turns c).required x ↔ signer.required = true := by
  simp [Db.turns, h]

theorem turns_done (h : db.signer? x = some signer) :
    (db.turns c).done x ↔ signer.status = .signed := by
  simp [Db.turns, h]

theorem turns_waiting (h : db.signer? x = some signer) :
    (db.turns c).waiting x ↔ signer.status = .pending := by
  simp [Db.turns, h]

theorem not_done_of_waiting (h : (db.turns c).waiting x) : ¬(db.turns c).done x := by
  obtain ⟨signer, hsigner, hpending⟩ := h
  rw [turns_done hsigner, hpending]
  nofun

theorem signer?_of_member (h : (db.turns c).member x) :
    ∃ signer, db.signer? x = some signer ∧ signer ∈ db.signers ∧ signer.id = x ∧
      signer.signatureCaseId = c := by
  obtain ⟨signer, hsigner, hcase⟩ := h
  obtain ⟨hmem, hid⟩ := exists_of_find?_key hsigner
  exact ⟨signer, hsigner, hmem, hid, hcase⟩

variable (hkeys : (db.signers.map (·.id)).Nodup)
include hkeys

theorem signer?_of_mem (h : signer ∈ db.signers) : db.signer? signer.id = some signer :=
  find?_of_mem hkeys h

theorem blocked_iff (h : db.signer? x = some signer) :
    (db.turns signer.signatureCaseId).Blocked x ↔ db.signingTurnBlocked x = true := by
  simp only [Db.signingTurnBlocked, List.any_eq_true, Bool.and_eq_true, beq_iff_eq, bne_iff_ne,
    decide_eq_true_eq]
  constructor
  · rintro ⟨y, hy, hlt, hrequired, hdone⟩
    obtain ⟨lower, hlower, hmem, -, hcase⟩ := signer?_of_member hy
    rw [turns_group hlower, turns_group h] at hlt
    rw [turns_required hlower] at hrequired
    rw [turns_done hlower] at hdone
    obtain ⟨htarget, hid⟩ := exists_of_find?_key h
    exact ⟨signer, htarget, hid, lower, hmem, ⟨⟨hcase, hlt⟩, hrequired⟩, hdone⟩
  · rintro ⟨target, htarget, hid, lower, hlower, ⟨⟨hcase, hlt⟩, hrequired⟩, hdone⟩
    have hrow := signer?_of_mem hkeys htarget
    rw [hid, h, Option.some.injEq] at hrow
    subst hrow
    have hfound := signer?_of_mem hkeys hlower
    refine ⟨lower.id, (turns_member hfound).mpr hcase, ?_, (turns_required hfound).mpr hrequired, ?_⟩
    · rw [turns_group hfound, turns_group h]
      exact hlt
    · rw [turns_done hfound]
      exact hdone

theorem free_iff (h : db.signer? x = some signer) :
    (db.turns c).Free x ↔ signer.signatureCaseId = c ∧ signer.status = .pending ∧
      db.signingTurnBlocked x = false := by
  rw [Turns.Free, turns_member h, turns_waiting h]
  refine and_congr_right fun hcase => and_congr_right fun _ => ?_
  rw [← hcase, blocked_iff hkeys h, Bool.not_eq_true]

end Rows

/-! ## What steps do to the turns -/

theorem SignerStatus.signed_of_reaches {old new : SignerStatus} (h : Reaches allowed old new)
    (hold : old = .signed) : new = .signed := by
  refine h.keeps (P := fun status => status = .signed) ?_ hold
  rintro a b hb rfl
  simp [allowed] at hb

theorem SignerMove.pending {old new : Signer} (h : SignerMove old new)
    (hnew : new.status = .pending) : old.status = .pending := by
  have hle := h.stage_le
  rw [hnew] at hle
  exact SignerStatus.eq_pending (Nat.le_zero.mp hle)

theorem advances_of_moves {db db' : Db} {c : Id}
    (hafter : ∀ x signer, db.signer? x = some signer →
      ∃ signer', db'.signer? x = some signer' ∧ SignerMove signer signer')
    (hbefore : ∀ x signer', db'.signer? x = some signer' → signer'.signatureCaseId = c →
      ∃ signer, db.signer? x = some signer) : (db.turns c).Advances (db'.turns c) where
  member x := by
    constructor
    · rintro ⟨signer', hsigner', hcase⟩
      obtain ⟨signer, hsigner⟩ := hbefore x signer' hsigner' hcase
      obtain ⟨_, hfound, hmove⟩ := hafter x signer hsigner
      obtain rfl := Option.some.inj (hsigner'.symm.trans hfound)
      exact ⟨signer, hsigner, hmove.signatureCaseId.symm.trans hcase⟩
    · rintro ⟨signer, hsigner, hcase⟩
      obtain ⟨signer', hsigner', hmove⟩ := hafter x signer hsigner
      exact ⟨signer', hsigner', hmove.signatureCaseId.trans hcase⟩
  group x hx := by
    obtain ⟨signer, hsigner, -⟩ := hx
    obtain ⟨signer', hsigner', hmove⟩ := hafter x signer hsigner
    rw [turns_group hsigner, turns_group hsigner']
    exact congrArg (·.signingOrder) hmove.binding
  required x hx := by
    obtain ⟨signer, hsigner, -⟩ := hx
    obtain ⟨signer', hsigner', hmove⟩ := hafter x signer hsigner
    rw [turns_required hsigner, turns_required hsigner',
      show signer'.required = signer.required from congrArg (·.required) hmove.binding]
  done x _ hdone := by
    obtain ⟨signer, hsigner, hsigned⟩ := hdone
    obtain ⟨signer', hsigner', hmove⟩ := hafter x signer hsigner
    exact ⟨signer', hsigner', SignerStatus.signed_of_reaches hmove.status hsigned⟩

theorem Leaves.advances {e : Effect} {now : Time} {db db' : Db} (h : Leaves e now db db') (c : Id) :
    (db.turns c).Advances (db'.turns c) := by
  refine advances_of_moves (fun x signer hsigner => ?_) fun x signer' hsigner' _ => ?_
  · obtain ⟨signer', hsigner', hchange⟩ := h.signer? hsigner
    exact ⟨signer', hsigner', hchange.toSignerMove⟩
  · obtain ⟨signer, hsigner, -⟩ := h.signer?_before hsigner'
    exact ⟨signer, hsigner⟩

section Steps

variable {s s' : Sys} {i : Step} {signer signer' : Signer}

theorem advances_of_step (hstep : Sys.step s i = some s') {c : Id} {row : SignatureCase}
    (hc : s.db.case? c = some row) : (s.db.turns c).Advances (s'.db.turns c) := by
  refine advances_of_moves (fun x signer hsigner => ?_) fun x signer' hsigner' hcase => ?_
  · obtain ⟨signer', hsigner', hchange⟩ := signer?_of_step hstep hsigner
    exact ⟨signer', hsigner', hchange.toSignerMove⟩
  · rcases signer?_before_step hstep hsigner' with ⟨signer, hsigner, -⟩ | ⟨-, hnone, -⟩
    · exact ⟨signer, hsigner⟩
    · rw [hcase, hc] at hnone
      cases hnone

theorem called_of_change (hchange : SignerChange (stepEffect s i) signer signer')
    (hold : signer.status = .pending) (hnew : signer'.status ≠ .pending) :
    (∃ c nonce, i = .send c nonce ∧ ∃ row ∈ s.db.signersInOrder c, row.id = signer.id ∧
      row.signingOrder = firstGroup (s.db.signersInOrder c)) ∨
    ∃ index run, i = .commitValidation index ∧ s.validates[index]? = some run ∧
      s.db.completes run = true ∧ (s.db.withValidation run).calledBy s.clock run signer.id := by
  by_contra hnot
  rw [not_or] at hnot
  refine hnew (hchange.change.keeps (P := fun status => status = .pending) ?_ hold)
  rintro old new hallowed hmay rfl
  cases signerTransition_of_effect hmay with
  | invitesFirst c nonce _ row hrow hid hfirst =>
    exact absurd ⟨c, nonce, rfl, row, hrow, hid, hfirst⟩ hnot.1
  | invitesNext index run hrun hcompletes hcalled =>
    exact absurd ⟨index, run, rfl, hrun, hcompletes, hcalled⟩ hnot.2
  | expires | starts | failsIdentity | failsVerification => simp [SignerStatus.allowed] at hallowed
  | declines _ _ h => simp at h

theorem signed_of_change (hchange : SignerChange (stepEffect s i) signer signer')
    (hold : signer.status ≠ .signed) (hnew : signer'.status = .signed) :
    ∃ index run, i = .commitValidation index ∧ s.validates[index]? = some run ∧
      s.db.completes run = true ∧ run.signerId = signer.id := by
  by_contra hnot
  refine hchange.change.keeps (P := fun status => status ≠ .signed) ?_ hold hnew
  rintro old new - hmay -
  cases signerTransition_of_effect hmay with
  | signs index run hrun hid hcompletes => exact absurd ⟨index, run, rfl, hrun, hcompletes, hid⟩ hnot
  | invitesFirst | invitesNext | expires | opens | declines | starts | verifies | failsIdentity
  | failsVerification | marks | refuses => nofun

end Steps

/-! ## Activation -/

section Activation

variable {now : Time} {db db' : Db} {c : Id} {u : Unit}

/-- Pending signers may be invited, if they are in the next group of the case. -/
def Effect.activating (db : Db) (c : Id) : Effect :=
  { Effect.none with
    signer := fun id _ old new => old = .pending ∧ new = .invited ∧ ∃ group,
      db.nextSigningGroup? c = some group ∧ ∃ signer ∈ db.groupSigners c group, signer.1 = id
    invites := db.IntentExpires }

theorem nextSigningGroup?_eq_some (hkeys : (db.signers.map (·.id)).Nodup) {group : Nat} :
    db.nextSigningGroup? c = some group ↔
      (∃ x, (db.turns c).Free x ∧ (db.turns c).group x = group) ∧
        ∀ w, (db.turns c).Free w → group ≤ (db.turns c).group w := by
  have hfree {k : Nat} : k ∈ ((db.signers.filter fun s => s.signatureCaseId == c &&
      s.status == .pending && !db.signingTurnBlocked s.id).map (·.signingOrder)) ↔
        ∃ x, (db.turns c).Free x ∧ (db.turns c).group x = k := by
    simp only [List.mem_map, List.mem_filter, Bool.and_eq_true, beq_iff_eq, Bool.not_eq_true']
    constructor
    · rintro ⟨signer, ⟨hmem, ⟨hcase, hpending⟩, hblocked⟩, rfl⟩
      have hsigner := signer?_of_mem hkeys hmem
      exact ⟨signer.id, (free_iff hkeys hsigner).mpr ⟨hcase, hpending, hblocked⟩, turns_group hsigner⟩
    · rintro ⟨x, hx, rfl⟩
      obtain ⟨signer, hsigner, hmem, rfl, -⟩ := signer?_of_member hx.1
      obtain ⟨hcase, hpending, hblocked⟩ := (free_iff hkeys hsigner).mp hx
      exact ⟨signer, ⟨hmem, ⟨hcase, hpending⟩, hblocked⟩, (turns_group hsigner).symm⟩
  rw [Db.nextSigningGroup?, List.min?_eq_some_iff, hfree]
  refine and_congr_right fun _ => ⟨fun h w hw => h _ (hfree.mpr ⟨w, hw, rfl⟩), fun h k hk => ?_⟩
  obtain ⟨w, hw, rfl⟩ := hfree.mp hk
  exact h w hw

theorem mem_groupSigners {group : Nat} {x : Id} :
    (∃ item ∈ db.groupSigners c group, item.1 = x) ↔
      ∃ signer ∈ db.signers, signer.id = x ∧ signer.signatureCaseId = c ∧
        signer.signingOrder = group ∧ signer.status = .pending ∧
        ∃ si ∈ db.intents, si.signerId = x := by
  simp only [Db.groupSigners, List.mem_flatMap, List.mem_map, List.mem_filter, Bool.and_eq_true,
    beq_iff_eq]
  constructor
  · rintro ⟨_, ⟨signer, ⟨hmem, ⟨hcase, horder⟩, hpending⟩, si, ⟨hsi, hid⟩, rfl⟩, rfl⟩
    exact ⟨signer, hmem, rfl, hcase, horder, hpending, si, hsi, hid⟩
  · rintro ⟨signer, hmem, rfl, hcase, horder, hpending, si, hsi, hid⟩
    exact ⟨_, ⟨signer, ⟨hmem, ⟨hcase, horder⟩, hpending⟩, si, ⟨hsi, hid⟩, rfl⟩, rfl⟩

/-- Signers may get any status, and rows may be inserted. -/
def Effect.lenient : Effect :=
  { Effect.none with
    signer := fun _ _ _ _ => True
    inserts := fun _ => True
    invites := fun _ _ => True }

theorem called_of_leaves {e : Effect} {x : Id} (h : Leaves e now db db')
    (hcalled : ∀ row ∈ db.signers, row.id = x → row.status ≠ .pending) :
    ∀ row ∈ db'.signers, row.id = x → row.status ≠ .pending := by
  intro row' hrow' hid hpending
  obtain ⟨row, hrow, hchange⟩ := h.signers.exists_before hrow'
  exact hcalled row hrow (hchange.id.symm.trans hid) (hchange.toSignerMove.pending hpending)

theorem called_of_inviteSigners {items : List (Id × Time)}
    (h : Transaction.forEach (inviteSigner now) items db = .ok (u, db')) :
    ∀ item ∈ items, ∀ row ∈ db'.signers, row.id = item.1 → row.status ≠ .pending := by
  refine Transaction.forEach_post (R := Leaves Effect.lenient now)
    (Q := fun item db => ∀ row ∈ db.signers, row.id = item.1 → row.status ≠ .pending)
    (fun item db => ?_) (fun _ _ _ hleaves hcalled => called_of_leaves hleaves hcalled)
    (fun item db u db' hok => ?_) h
  · exact effect_inviteSigner (fun _ => trivial) trivial db
  · rw [inviteSigner, Transaction.read_bind] at hok
    simp only [Transaction.bind_eq_ok] at hok
    obtain ⟨_, db₁, h₁, _, db₂, h₂, h₃⟩ := hok
    obtain ⟨-, rfl⟩ := Table.insert_eq_ok.mp h₁
    obtain ⟨-, rfl, -⟩ := Table.update_eq_ok.mp h₂
    obtain rfl := Transaction.rewrite_eq_ok.mp h₃
    intro row' hrow' hid hpending
    obtain ⟨row, hrow, rfl⟩ := List.mem_map.mp hrow'
    -- a pending row of the signer would have been updated
    split at hid
    · next hp =>
      rw [if_pos hp] at hpending
      cases hpending
    · next hp =>
      rw [if_neg hp] at hpending
      exact hp (by simp [hid, hpending])

theorem activate_leaves (h : activateNextSigningGroup now c db = .ok (u, db')) :
    Leaves (Effect.activating db c) now db db' := by
  refine effect_activateNextSigningGroup (fun group hgroup item hitem _ => ?_)
    (fun _ _ => id) _ _ h
  exact ⟨rfl, rfl, group, hgroup, item, hitem, rfl⟩

theorem not_blocked_of_group (hkeys : (db.signers.map (·.id)).Nodup) {group : Nat} {x : Id}
    (hgroup : db.nextSigningGroup? c = some group)
    (hx : ∃ item ∈ db.groupSigners c group, item.1 = x) : ¬(db.turns c).Blocked x := by
  obtain ⟨⟨w, hw, hwgroup⟩, -⟩ := (nextSigningGroup?_eq_some hkeys).mp hgroup
  obtain ⟨row, hrow, rfl, -, horder, -⟩ := mem_groupSigners.mp hx
  intro hblocked
  refine hw.2.2 (hblocked.of_group ?_)
  rw [turns_group (signer?_of_mem hkeys hrow), horder, hwgroup]

theorem calls_of_activate (hkeys : (db.signers.map (·.id)).Nodup)
    (horder : ∀ signer ∈ db.signers, 0 < signer.signingOrder)
    (hintents : ∀ signer ∈ db.signers, signer.signatureCaseId = c →
      ∃ si ∈ db.intents, si.signerId = signer.id)
    (h : activateNextSigningGroup now c db = .ok (u, db')) :
    (db.turns c).Calls (db'.turns c) := by
  have hleaves := activate_leaves h
  refine ⟨hleaves.advances c, fun x hx hdone => ?_, fun x hx => ?_⟩
  · obtain ⟨signer, hsigner, -⟩ := hx
    obtain ⟨signer', hsigner', hchange⟩ := hleaves.signer? hsigner
    rw [turns_done hsigner'] at hdone
    rw [turns_done hsigner]
    by_contra hnot
    refine hchange.change.keeps (P := fun status => status ≠ .signed) ?_ hnot hdone
    rintro old new - ⟨-, rfl, -⟩ -
    nofun
  · obtain ⟨signer, hsigner, hmem, rfl, hcase⟩ := signer?_of_member hx
    obtain ⟨signer', hsigner', hchange⟩ := hleaves.signer? hsigner
    rw [turns_waiting hsigner', turns_waiting hsigner]
    constructor
    · intro hpending
      have hbefore := hchange.toSignerMove.pending hpending
      refine ⟨hbefore, fun ⟨hfree, hfirst⟩ => ?_⟩
      -- the signer is in the next group, and was invited
      have hnext : db.nextSigningGroup? c = some signer.signingOrder := by
        rw [nextSigningGroup?_eq_some hkeys, ← turns_group (c := c) hsigner]
        exact ⟨⟨_, hfree, rfl⟩, hfirst⟩
      rcases activateNextSigningGroup_eq h with ⟨hnone | hzero, -⟩ | ⟨group, hgroup, hinvite⟩
      · rw [hnext] at hnone
        cases hnone
      · rw [hnext, Option.some.injEq] at hzero
        exact absurd (horder signer hmem) (by omega)
      · obtain rfl : signer.signingOrder = group := Option.some.inj (hnext.symm.trans hgroup)
        obtain ⟨item, hitem, hid⟩ := mem_groupSigners.mpr
          ⟨signer, hmem, rfl, hcase, rfl, hbefore, hintents signer hmem hcase⟩
        exact called_of_inviteSigners hinvite item hitem signer' (List.mem_of_find?_eq_some hsigner')
          (hchange.id.trans hid.symm) hpending
    · rintro ⟨hpending, hnot⟩
      refine hchange.change.keeps (P := fun status => status = .pending) ?_ hpending
      rintro old new - ⟨-, -, group, hgroup, hcalled⟩ -
      exfalso
      have hfree := not_blocked_of_group hkeys hgroup hcalled
      obtain ⟨row, hrow, hid, -, rowOrder, -⟩ := mem_groupSigners.mp hcalled
      obtain rfl : row = signer := eq_of_key_eq hkeys hrow hmem hid
      refine hnot ⟨⟨hx, (turns_waiting hsigner).mpr hpending, hfree⟩, fun w hw => ?_⟩
      rw [turns_group hsigner, rowOrder]
      exact ((nextSigningGroup?_eq_some hkeys).mp hgroup).2 w hw

end Activation

/-! ## Sending -/

theorem called_of_sendSigners {now : Time} {nonce : Id → Text} {c : SignatureCase}
    {rows : List SigningDocumentRow} {group : Nat} {signers : List Signer} {db db' : Db} {u : Unit}
    (h : Transaction.forEach (sendSigner now nonce c rows group) signers db = .ok (u, db')) :
    ∀ signer ∈ signers, signer.signingOrder = group →
      ∀ row ∈ db'.signers, row.id = signer.id → row.status ≠ .pending := by
  refine Transaction.forEach_post (R := Leaves Effect.lenient now)
    (Q := fun signer db => signer.signingOrder = group →
      ∀ row ∈ db.signers, row.id = signer.id → row.status ≠ .pending)
    (fun signer db => ?_) (fun signer _ _ hleaves hcalled => ?_) (fun signer db u db' hok => ?_) h
  · exact effect_sendSigner trivial trivial (fun _ _ _ => trivial) trivial db
  · exact fun hgroup => called_of_leaves hleaves (hcalled hgroup)
  · intro hgroup
    obtain ⟨mode, -, -, -, hinvite⟩ := sendSigner_eq hok
    rcases hinvite with ⟨-, hinvite⟩ | ⟨hnot, -⟩
    · obtain ⟨-, -, rfl⟩ := inviteFirst_eq hinvite
      intro row' hrow' hid hpending
      obtain ⟨row, hrow, rfl⟩ := List.mem_map.mp hrow'
      split at hid
      · next hp =>
        rw [if_pos hp] at hpending
        cases hpending
      · next hp => exact hp (beq_iff_eq.mpr hid)
    · exact absurd hgroup hnot

theorem firstGroup_le {signers : List Signer} {signer : Signer} (h : signer ∈ signers) :
    firstGroup signers ≤ signer.signingOrder :=
  List.min?_getD_le_of_mem (List.mem_map_of_mem h)

theorem exists_firstGroup {signers : List Signer} (h : signers ≠ []) :
    ∃ signer ∈ signers, signer.signingOrder = firstGroup signers := by
  unfold firstGroup
  cases hmin : (signers.map (·.signingOrder)).min? with
  | none =>
    rw [List.min?_eq_none_iff, List.map_eq_nil_iff] at hmin
    exact absurd hmin h
  | some group => exact List.mem_map.mp (List.min?_mem hmin)

section Steps

variable {s s' : Sys}

theorem signer?_of_validates (h : s.Reachable) {run : PadesValidateRun} (hrun : run ∈ s.validates) :
    ∃ signer row, s.db.signer? run.signerId = some signer ∧
      signer.signatureCaseId = run.signatureCaseId ∧
      s.db.case? run.signatureCaseId = some row ∧ row.status.isUnsent = false := by
  obtain ⟨_, _, si, -, -, -, -, hsi, hid, hcase, -⟩ := (attributed_of_reachable h).validates run hrun
  obtain ⟨row, signer, hrow, hsent, hsigner, hof⟩ :=
    (prepared_of_reachable h).sent si (List.mem_of_find?_eq_some hsi)
  rw [hid] at hsigner
  rw [hcase] at hrow hof
  exact ⟨signer, row, hsigner, hof, hrow, hsent⟩

/-- Only signers of cases that have been sent have been called. -/
def CallsSent (s : Sys) : Prop :=
  ∀ x signer, s.db.signer? x = some signer → signer.status ≠ .pending →
    ∃ row, s.db.case? signer.signatureCaseId = some row ∧ row.status.isUnsent = false

theorem callsSent_of_reachable (h : s.Reachable) : CallsSent s := by
  refine h.induction ?_ ?_
  · intro _ _ _ _ x signer hsigner
    cases hsigner
  intro s i s' hreachable hsent hstep x signer' hsigner' hcalled
  rcases signer?_before_step hstep hsigner' with ⟨signer, hsigner, hchange⟩ | ⟨-, -, hpending⟩
  · obtain ⟨hmem, hid⟩ := exists_of_find?_key hsigner
    have hkeys := (standing_of_reachable hreachable).signersKeyed
    rw [hchange.toSignerMove.signatureCaseId]
    have hlater {row : SignatureCase} (hrow : s.db.case? signer.signatureCaseId = some row)
        (hunsent : row.status.isUnsent = false) :
        ∃ row', s'.db.case? signer.signatureCaseId = some row' ∧ row'.status.isUnsent = false := by
      obtain ⟨row', hrow', hcase⟩ := case?_of_step hstep hrow
      exact ⟨row', hrow', CaseStatus.isUnsent_of_reaches hcase.status hunsent⟩
    by_cases hpending : signer.status = .pending
    · rcases called_of_change hchange hpending hcalled with
        ⟨c, nonce, rfl, row, hrow, hrowId, -⟩ | ⟨index, run, rfl, hrun, -, group, -, hgroup⟩
      · -- the case is the one that is sent
        obtain ⟨hrowMem, hcase⟩ := mem_signersInOrder.mp hrow
        obtain rfl := eq_of_key_eq hkeys hrowMem hmem hrowId
        obtain ⟨row, hrow, hstatus⟩ := case?_of_send hstep
        refine ⟨row, hcase ▸ hrow, ?_⟩
        rw [hstatus]
        rfl
      · -- the case is that of the run, which has been sent before
        obtain ⟨_, row, -, -, hrow, hunsent⟩ :=
          signer?_of_validates hreachable (List.mem_of_getElem? hrun)
        obtain ⟨other, hother, hotherId, hcase, -⟩ := mem_groupSigners.mp hgroup
        obtain ⟨before, hbefore, hbeforeId, hbeforeCase⟩ : ∃ before ∈ s.db.signers,
            before.id = signer.id ∧ before.signatureCaseId = run.signatureCaseId := by
          obtain ⟨before, hbefore, rfl⟩ := List.mem_map.mp hother
          refine ⟨before, hbefore, ?_⟩
          split at hotherId <;> split at hcase <;> exact ⟨hotherId, hcase⟩
        obtain rfl := eq_of_key_eq hkeys hbefore hmem hbeforeId
        exact hlater (hbeforeCase ▸ hrow) hunsent
    · obtain ⟨row, hrow, hunsent⟩ := hsent x signer hsigner hpending
      exact hlater hrow hunsent
  · exact absurd hpending hcalled

theorem waiting_of_sendable (h : s.Reachable) {c : SignatureCase} (hc : s.db.case? c.id = some c)
    (hsendable : Sendable s.db c) {x : Id} (hx : (s.db.turns c.id).member x) :
    (s.db.turns c.id).waiting x := by
  obtain ⟨signer, hsigner, -, -, hcase⟩ := signer?_of_member hx
  rw [turns_waiting hsigner]
  by_contra hcalled
  obtain ⟨row, hrow, hsent⟩ := callsSent_of_reachable h x signer hsigner hcalled
  rw [hcase, hc, Option.some.injEq] at hrow
  rw [← hrow, hsendable.ready] at hsent
  cases hsent

theorem calls_of_send (h : s.Reachable) {c : Id} {nonce : Id → Text}
    (hstep : Sys.step s (.send c nonce) = some s') :
    (s.db.turns c).Calls (s'.db.turns c) ∧ (s.db.turns c).Fresh := by
  obtain ⟨db, hok, hs'⟩ := Sys.commit_eq_some.mp hstep
  obtain ⟨row, prepared, db₁, hrow, rfl, hsendable, hloop, -, rfl⟩ := send_eq hok
  have hkeys := (standing_of_reachable h).signersKeyed
  have hwaiting := fun x => waiting_of_sendable (x := x) h hrow hsendable
  have hsignersInOrder {x : Id} {signer : Signer} (hsigner : s.db.signer? x = some signer)
      (hcase : signer.signatureCaseId = row.id) : signer ∈ s.db.signersInOrder row.id :=
    mem_signersInOrder.mpr ⟨List.mem_of_find?_eq_some hsigner, hcase⟩
  -- the signers of the first group are free, and no group is free before them
  have hfree {x : Id} {signer : Signer} (hsigner : s.db.signer? x = some signer)
      (hcase : signer.signatureCaseId = row.id)
      (hfirst : signer.signingOrder = firstGroup (s.db.signersInOrder row.id)) :
      (s.db.turns row.id).Free x := by
    refine ⟨(turns_member hsigner).mpr hcase, hwaiting x ((turns_member hsigner).mpr hcase), ?_⟩
    rintro ⟨y, hy, hlt, -, -⟩
    obtain ⟨lower, hlower, -, -, hlowerCase⟩ := signer?_of_member hy
    rw [turns_group hlower, turns_group hsigner, hfirst] at hlt
    exact absurd (firstGroup_le (hsignersInOrder hlower hlowerCase)) (not_le_of_gt hlt)
  refine ⟨⟨advances_of_step hstep hrow, fun x hx hdone => ?_, fun x hx => ?_⟩,
    fun _ _ y hy _ => hwaiting y hy⟩
  · obtain ⟨signer, hsigner, -⟩ := hx
    obtain ⟨signer', hsigner', hchange⟩ := signer?_of_step hstep hsigner
    rw [turns_done hsigner'] at hdone
    rw [turns_done hsigner]
    by_contra hnot
    obtain ⟨_, _, heq, -⟩ := signed_of_change hchange hnot hdone
    cases heq
  · obtain ⟨signer, hsigner, hmem, rfl, hcase⟩ := signer?_of_member hx
    obtain ⟨signer', hsigner', hchange⟩ := signer?_of_step hstep hsigner
    rw [turns_waiting hsigner', turns_waiting hsigner]
    constructor
    · intro hpending
      refine ⟨hchange.toSignerMove.pending hpending, fun ⟨_, hleast⟩ => ?_⟩
      obtain ⟨first, hfirst, horder⟩ := exists_firstGroup hsendable.signers
      obtain ⟨hfirstMem, hfirstCase⟩ := mem_signersInOrder.mp hfirst
      have hfound := signer?_of_mem hkeys hfirstMem
      have hle := hleast first.id (hfree hfound hfirstCase horder)
      rw [turns_group hsigner, turns_group hfound, horder] at hle
      have hin := hsignersInOrder hsigner hcase
      have hmem' := List.mem_of_find?_eq_some hsigner'
      rw [hs'] at hmem'
      exact called_of_sendSigners hloop signer hin (le_antisymm hle (firstGroup_le hin)) signer' hmem'
        hchange.id hpending
    · rintro ⟨hpending, hnot⟩
      by_contra hcalled
      rcases called_of_change hchange hpending hcalled with
        ⟨c, _, heq, other, hother, hid, hfirst⟩ | ⟨_, _, heq, -⟩
      · obtain ⟨rfl, -⟩ := Step.send.inj heq
        obtain rfl : other = signer := eq_of_key_eq hkeys (mem_signersInOrder.mp hother).1 hmem hid
        refine hnot ⟨hfree hsigner hcase hfirst, fun w hw => ?_⟩
        obtain ⟨row', hrow', -, -, hcase'⟩ := signer?_of_member hw.1
        rw [turns_group hsigner, turns_group hrow', hfirst]
        exact firstGroup_le (hsignersInOrder hrow' hcase')
      · cases heq

/-! ## Completing a signature -/

theorem signer?_withSigned (db : Db) (now : Time) (run : PadesValidateRun) (x : Id) :
    (db.withSigned now run).signer? x = (db.signer? x).map fun signer =>
      if (signer.id == run.signerId && signer.status == .signing) = true
      then { signer with status := .signed } else signer :=
  find?_assign (fun signer : Signer => signer.id) fun _ _ _ => rfl

theorem turns_withSigned (db : Db) (now : Time) (run : PadesValidateRun) (c : Id) :
    (db.turns c).Advances ((db.withSigned now run).turns c) ∧
      ∀ x, ((db.withSigned now run).turns c).waiting x ↔ (db.turns c).waiting x := by
  have hafter {x : Id} {signer : Signer} (hsigner : db.signer? x = some signer) :
      ∃ signer', (db.withSigned now run).signer? x = some signer' ∧ SignerMove signer signer' ∧
        (signer'.status = .pending ↔ signer.status = .pending) := by
    rw [signer?_withSigned, hsigner, Option.map_some]
    refine ⟨_, rfl, ?_⟩
    split
    · next hp =>
      rw [Bool.and_eq_true, beq_iff_eq, beq_iff_eq] at hp
      rw [hp.2]
      refine ⟨⟨rfl, rfl, rfl, rfl, Relation.ReflTransGen.single ?_⟩, by simp⟩
      rw [hp.2]
      exact List.mem_cons_self
    · exact ⟨SignerMove.refl signer, Iff.rfl⟩
  have hbefore {x : Id} {signer' : Signer} (hsigner' : (db.withSigned now run).signer? x = some signer') :
      ∃ signer, db.signer? x = some signer := by
    rw [signer?_withSigned, Option.map_eq_some_iff] at hsigner'
    obtain ⟨signer, hsigner, -⟩ := hsigner'
    exact ⟨signer, hsigner⟩
  refine ⟨advances_of_moves (fun x signer hsigner => ?_) fun x signer' hsigner' _ => hbefore hsigner',
    fun x => ⟨?_, ?_⟩⟩
  · obtain ⟨signer', hsigner', hmove, -⟩ := hafter hsigner
    exact ⟨signer', hsigner', hmove⟩
  · rintro ⟨signer', hsigner', hpending⟩
    obtain ⟨signer, hsigner⟩ := hbefore hsigner'
    obtain ⟨_, hfound, -, hiff⟩ := hafter hsigner
    obtain rfl := Option.some.inj (hfound.symm.trans hsigner')
    exact ⟨signer, hsigner, hiff.mp hpending⟩
  · rintro ⟨signer, hsigner, hpending⟩
    obtain ⟨signer', hsigner', -, hiff⟩ := hafter hsigner
    exact ⟨signer', hsigner', hiff.mpr hpending⟩

theorem activate_of_completes {db db' : Db} {now : Time} {run : PadesValidateRun} {u : Unit}
    (hcompletes : db.completes run = true) (h : commitValidation now run db = .ok (u, db')) :
    ∃ db₁, activateNextSigningGroup now run.signatureCaseId
        ((db.withValidation run).withSigned now run) = .ok ((), db₁) ∧
      db' = db₁.withCaseJob run.signatureCaseId := by
  rcases commitValidation_eq h with ⟨hrefused, -⟩ | ⟨-, ⟨-, hnot, -⟩ | ⟨-, hcomplete⟩⟩
  · rw [Db.completes, hrefused] at hcompletes
    cases hcompletes
  · rw [hnot] at hcompletes
    cases hcompletes
  · exact (completeSigner_eq hcomplete).2

theorem turns_withCaseJob (db : Db) (c c' : Id) : (db.withCaseJob c).turns c' = db.turns c' := by
  unfold Db.withCaseJob
  split <;> rfl

theorem keyed_withSigned (db : Db) (h : (db.signers.map (·.id)).Nodup) (now : Time)
    (run : PadesValidateRun) : ((db.withSigned now run).signers.map (·.id)).Nodup := by
  rw [show (db.withSigned now run).signers.map (·.id) = db.signers.map (·.id) from
    map_assign fun _ _ _ => rfl]
  exact h

theorem calls_of_completes (h : s.Reachable) {index : Nat} {run : PadesValidateRun}
    (hrun : s.validates[index]? = some run) (hcompletes : s.db.completes run = true)
    {c : SignatureCase} (hc : s.db.case? run.signatureCaseId = some c) (hopen : c.status.isOpen = true)
    (hstep : Sys.step s (.commitValidation index) = some s') :
    ((s.db.withSigned s.clock run).turns run.signatureCaseId).Calls
      (s'.db.turns run.signatureCaseId) := by
  obtain ⟨run', db, hrun', hok, rfl⟩ := step_commitValidation hstep
  obtain rfl := Option.some.inj (hrun.symm.trans hrun')
  obtain ⟨db₁, hactivate, rfl⟩ := activate_of_completes hcompletes hok
  have hstanding := standing_of_reachable h
  rw [turns_withCaseJob]
  show (((s.db.withValidation run).withSigned s.clock run).turns run.signatureCaseId).Calls _
  -- the row of a signer has kept its order, and the intents have kept their signers
  have hbefore : ∀ signer' ∈ ((s.db.withValidation run).withSigned s.clock run).signers,
      ∃ signer ∈ s.db.signers, signer'.id = signer.id ∧
        signer'.toSignerBinding = signer.toSignerBinding := by
    intro signer' hsigner'
    obtain ⟨signer, hsigner, rfl⟩ := List.mem_map.mp hsigner'
    refine ⟨signer, hsigner, ?_⟩
    split <;> exact ⟨rfl, rfl⟩
  have hkeys := keyed_withSigned (s.db.withValidation run) hstanding.signersKeyed s.clock run
  refine calls_of_activate hkeys (fun signer' hsigner' => ?_) (fun signer' hsigner' hcase => ?_)
    hactivate
  · obtain ⟨signer, hsigner, -, hbinding⟩ := hbefore signer' hsigner'
    have hconsistent := hstanding.consistent signer hsigner
    simp only [Tables.signerConstraints, refuse_append, refuse_violates] at hconsistent
    rw [show signer'.signingOrder = signer.signingOrder from congrArg (·.signingOrder) hbinding]
    exact Nat.pos_of_ne_zero (by simpa using hconsistent.1.2)
  · obtain ⟨signer, hsigner, hid, hbinding⟩ := hbefore signer' hsigner'
    rw [show signer'.signatureCaseId = signer.signatureCaseId from
      congrArg (·.signatureCaseId) hbinding] at hcase
    obtain ⟨si, hsi, hsiId⟩ :=
      (prepared_of_reachable h).covers signer hsigner c (hcase ▸ hc) hopen
    refine ⟨_, List.mem_map_of_mem hsi, ?_⟩
    split <;> exact hsiId.trans hid.symm

end Steps

end Kommunsign
