import Kommunsign.Infra.Lists
import Kommunsign.Worker.Webhooks

/-!
# When the deliveries of an event are settled

A run that is left to itself settles every delivery whose endpoint it has loaded. What it has not
loaded it leaves as it is, and what another run does meanwhile it does not see.

* `webhook_settled` — every job ends with settled deliveries, and nothing is posted once delivered
* `webhook_left_unsettled` — a deactivated endpoint, and a second run
-/

namespace Kommunsign

open Infra

def Undisturbed (s : WebhookDispatch) : WebhookAction → Prop
  | .start _ _ => (∀ r ∈ s.runs, r = none) ∧
      ∀ d ∈ s.deliveries, d.status.settled = false → d.endpointId ∈ s.loaded
  | .throws i permanent => permanent = false ∧ ∀ r ∈ s.runs[i]?.join, r.finalAttempt = false
  | .replay endpointId => ∀ slot ∈ s.runs, ∀ r ∈ slot, endpointId ∈ r.endpoints
  | _ => True

instance decidableUndisturbed (s : WebhookDispatch) : ∀ action, Decidable (Undisturbed s action)
  | .start _ _ => inferInstanceAs (Decidable (_ ∧ _))
  | .throws i permanent =>
    inferInstanceAs (Decidable (permanent = false ∧ ∀ r ∈ s.runs[i]?.join, r.finalAttempt = false))
  | .replay endpointId =>
    inferInstanceAs (Decidable (∀ slot ∈ s.runs, ∀ r ∈ slot, endpointId ∈ r.endpoints))
  | .tick _ => isTrue trivial
  | .configure _ => isTrue trivial
  | .claim _ => isTrue trivial
  | .deliver _ _ => isTrue trivial
  | .record _ => isTrue trivial
  | .finish _ => isTrue trivial

/-! ## The table -/

structure DeliveriesOk (deliveries : List WebhookDelivery) : Prop where
  keys : (deliveries.map (·.endpointId)).Nodup
  times : ∀ d ∈ deliveries, d.status ≠ .delivered → d.deliveredAt = none

def HasStatus (deliveries : List WebhookDelivery) (endpointId : Id) (status : DeliveryStatus) : Prop :=
  ∃ d ∈ deliveries, d.endpointId = endpointId ∧ d.status = status

section

variable {deliveries deliveries' : List WebhookDelivery} {endpointId other : Id}
  {row d : WebhookDelivery} {f : WebhookDelivery → WebhookDelivery} {status : DeliveryStatus}

theorem DeliveriesOk.status_unique (h : DeliveriesOk deliveries) {status' : DeliveryStatus}
    (hs : HasStatus deliveries endpointId status) (hs' : HasStatus deliveries endpointId status') :
    status = status' := by
  obtain ⟨d, hd, hkey, rfl⟩ := hs
  obtain ⟨d', hd', hkey', rfl⟩ := hs'
  rw [eq_of_key_eq h.keys hd hd' (hkey.trans hkey'.symm)]

theorem refuse_deliveryChecks {old new : WebhookDelivery} (hopen : old.status ≠ .delivered) :
    refuse (deliveryChecks old new) = .ok () ↔
      (new.status = .delivered → new.responseStatus.isSome = true ∧ new.deliveredAt.isSome = true) ∧
      (new.status ≠ .delivered → new.deliveredAt = none) ∧
      (new.status = old.status ∨ new.status ∈ old.status.allowed) := by
  simp only [deliveryChecks, assertWebhookDeliveryState, assertWebhookDeliveryTransition,
    refuse_append, refuse_raises]
  by_cases hdelivered : new.status = .delivered <;> by_cases hsame : new.status = old.status <;>
    simp_all

theorem claimable {status : DeliveryStatus} (h : status.settled = false) :
    DeliveryStatus.delivering = status ∨ DeliveryStatus.delivering ∈ status.allowed := by
  cases status with
  | pending => exact .inr (by decide)
  | delivering => exact .inl rfl
  | failed => exact .inr (by decide)
  | delivered => exact nomatch h
  | dead_letter => exact nomatch h

theorem recordable (result : DeliveryResult) (finalAttempt : Bool) :
    result.status finalAttempt ∈ DeliveryStatus.delivering.allowed := by
  unfold DeliveryResult.status
  cases result.delivered <;> cases finalAttempt <;> decide

theorem updateDelivery_eq_ok (h : updateDelivery endpointId f deliveries = .ok deliveries') :
    deliveries' = deliveries ∧ deliveries.find? (·.endpointId == endpointId) = none ∨
    ∃ row, deliveries.find? (·.endpointId == endpointId) = some row ∧
      refuse (deliveryChecks row (f row)) = .ok () ∧
      deliveries' = assign (·.endpointId == endpointId) f deliveries := by
  unfold updateDelivery at h
  split at h
  · rename_i hnone
    cases h
    exact .inl ⟨rfl, hnone⟩
  · rename_i row hfound
    obtain ⟨⟨⟩, hchecks, h⟩ := except_bind_eq_ok.mp h
    cases h
    exact .inr ⟨row, hfound, hchecks, rfl⟩

theorem find?_delivery (hok : DeliveriesOk deliveries) (hd : d ∈ deliveries) :
    deliveries.find? (·.endpointId == d.endpointId) = some d :=
  find?_of_mem hok.keys hd

theorem updateDelivery_of_mem (hok : DeliveriesOk deliveries) (hrow : row ∈ deliveries)
    (hchecks : refuse (deliveryChecks row (f row)) = .ok ()) :
    updateDelivery row.endpointId f deliveries =
      .ok (assign (·.endpointId == row.endpointId) f deliveries) := by
  unfold updateDelivery
  rw [find?_delivery hok hrow]
  dsimp only
  rw [hchecks]
  rfl

theorem mem_assigned (hok : DeliveriesOk deliveries) (hrow : row ∈ deliveries) :
    d ∈ assign (·.endpointId == row.endpointId) f deliveries →
      d = f row ∨ (d ∈ deliveries ∧ d.endpointId ≠ row.endpointId) := by
  intro hd
  obtain ⟨old, hold, rfl⟩ := mem_assign.mp hd
  by_cases hkey : old.endpointId = row.endpointId
  · rw [eq_of_key_eq hok.keys hold hrow hkey]
    exact .inl (if_pos (beq_self_eq_true _))
  · rw [if_neg (by simpa using hkey)]
    exact .inr ⟨hold, hkey⟩

theorem HasStatus.assigned (h : HasStatus deliveries other status) (hne : other ≠ endpointId) :
    HasStatus (assign (·.endpointId == endpointId) f deliveries) other status := by
  obtain ⟨d, hd, rfl, hstatus⟩ := h
  refine ⟨d, mem_assign.mpr ⟨d, hd, ?_⟩, rfl, hstatus⟩
  rw [if_neg (by simpa using hne)]

theorem hasStatus_assigned (hrow : row ∈ deliveries) (hkey : (f row).endpointId = row.endpointId) :
    HasStatus (assign (·.endpointId == row.endpointId) f deliveries) row.endpointId (f row).status :=
  ⟨f row, mem_assign.mpr ⟨row, hrow, (if_pos (beq_self_eq_true _)).symm⟩, hkey, rfl⟩

theorem DeliveriesOk.assigned (hok : DeliveriesOk deliveries) (hrow : row ∈ deliveries)
    (hkey : ∀ d, (f d).endpointId = d.endpointId) (hopen : row.status ≠ .delivered)
    (hchecks : refuse (deliveryChecks row (f row)) = .ok ()) :
    DeliveriesOk (assign (·.endpointId == row.endpointId) f deliveries) where
  keys := by
    rw [map_assign fun d _ _ => hkey d]
    exact hok.keys
  times := by
    intro d hd
    rcases mem_assigned hok hrow hd with rfl | ⟨hd, -⟩
    · exact ((refuse_deliveryChecks hopen).mp hchecks).2.1
    · exact hok.times d hd

theorem mem_ensureDelivery : d ∈ ensureDelivery endpointId deliveries →
    d ∈ deliveries ∨ d = newDelivery endpointId := by
  unfold ensureDelivery
  split
  · exact .inl
  · intro hd
    rcases List.mem_append.mp hd with hd | hd
    · exact .inl hd
    · exact .inr (List.mem_singleton.mp hd)

theorem HasStatus.ensured (h : HasStatus deliveries other status) :
    HasStatus (ensureDelivery endpointId deliveries) other status := by
  obtain ⟨d, hd, hother⟩ := h
  unfold ensureDelivery
  split
  · exact ⟨d, hd, hother⟩
  · exact ⟨d, List.mem_append_left _ hd, hother⟩

theorem DeliveriesOk.ensured (hok : DeliveriesOk deliveries) (endpointId : Id) :
    DeliveriesOk (ensureDelivery endpointId deliveries) ∧
      ∃ row ∈ ensureDelivery endpointId deliveries, row.endpointId = endpointId := by
  unfold ensureDelivery
  split
  · rename_i hany
    obtain ⟨row, hrow, hkey⟩ := List.any_eq_true.mp hany
    exact ⟨hok, row, hrow, beq_iff_eq.mp hkey⟩
  · rename_i hany
    refine ⟨⟨?_, ?_⟩, newDelivery endpointId, List.mem_append_right _ (List.mem_singleton_self _), rfl⟩
    · rw [List.map_append]
      refine List.nodup_append.mpr ⟨hok.keys, List.nodup_singleton _, ?_⟩
      rintro key hkey other hother rfl
      obtain ⟨d, hd, rfl⟩ := List.mem_map.mp hkey
      rw [List.map_singleton, List.mem_singleton] at hother
      exact hany (List.any_eq_true.mpr ⟨d, hd, beq_iff_eq.mpr hother⟩)
    · intro d hd
      rcases List.mem_append.mp hd with hd | hd
      · exact hok.times d hd
      · rw [List.mem_singleton.mp hd]
        exact fun _ => rfl

/-! ## The transactions -/

structure Touched (endpointId : Id) (deliveries deliveries' : List WebhookDelivery) : Prop where
  ok : DeliveriesOk deliveries'
  others : ∀ d ∈ deliveries', d.endpointId = endpointId ∨ d ∈ deliveries
  delivered : ∀ other, HasStatus deliveries other .delivered → HasStatus deliveries' other .delivered

theorem Touched.assigned (hok : DeliveriesOk deliveries) (hrow : row ∈ deliveries)
    (hkey : ∀ d, (f d).endpointId = d.endpointId) (hopen : row.status ≠ .delivered)
    (hchecks : refuse (deliveryChecks row (f row)) = .ok ()) :
    Touched row.endpointId deliveries (assign (·.endpointId == row.endpointId) f deliveries) where
  ok := hok.assigned hrow hkey hopen hchecks
  others := by
    intro d hd
    rcases mem_assigned hok hrow hd with rfl | ⟨hd, -⟩
    · exact .inl (hkey row)
    · exact .inr hd
  delivered := by
    intro other hdelivered
    refine hdelivered.assigned fun hother => hopen ?_
    rw [hother] at hdelivered
    exact hok.status_unique ⟨row, hrow, rfl, rfl⟩ hdelivered

theorem claimDelivery_touched (hok : DeliveriesOk deliveries) (endpointId : Id) (attempt : Nat) :
    ∃ claimed deliveries' status, claimDelivery endpointId attempt deliveries =
        .ok (claimed, deliveries') ∧
      Touched endpointId deliveries deliveries' ∧ HasStatus deliveries' endpointId status ∧
      (claimed = true → status = .delivering) ∧ (claimed = false → status.settled = true) := by
  obtain ⟨hensured, row, hrow, rfl⟩ := hok.ensured endpointId
  have hothers : ∀ d ∈ ensureDelivery row.endpointId deliveries,
      d.endpointId = row.endpointId ∨ d ∈ deliveries := by
    intro d hd
    rcases mem_ensureDelivery hd with hd | rfl
    · exact .inr hd
    · exact .inl rfl
  unfold claimDelivery
  dsimp only
  rw [find?_delivery hensured hrow]
  dsimp only
  cases hsettled : row.status.settled with
  | true =>
    rw [if_pos rfl]
    exact ⟨false, _, row.status, rfl, ⟨hensured, hothers, fun _ h => h.ensured⟩,
      ⟨row, hrow, rfl, rfl⟩, fun h => (nomatch h), fun _ => hsettled⟩
  | false =>
    rw [if_neg Bool.false_ne_true]
    have hopen : row.status ≠ .delivered := by
      rintro heq
      rw [heq] at hsettled
      exact nomatch hsettled
    have htime := hensured.times row hrow hopen
    let f (row : WebhookDelivery) : WebhookDelivery :=
      { row with status := .delivering, attempt := attempt }
    -- from every status that is not settled the row may be claimed
    have hchecks : refuse (deliveryChecks row (f row)) = .ok () :=
      (refuse_deliveryChecks hopen).mpr ⟨nofun, fun _ => htime, claimable hsettled⟩
    rw [updateDelivery_of_mem hensured hrow hchecks]
    have htouched := @Touched.assigned _ row f hensured hrow (fun _ => rfl) hopen hchecks
    refine ⟨true, _, .delivering, rfl, ⟨htouched.ok, fun d hd => ?_, fun other h => ?_⟩, ?_,
      fun _ => rfl, fun h => (nomatch h)⟩
    · exact (htouched.others d hd).elim .inl fun hd => hothers d hd
    · exact htouched.delivered other h.ensured
    · exact hasStatus_assigned hrow rfl

theorem recordResult_touched (hok : DeliveriesOk deliveries) {result : DeliveryResult}
    (hcurrent : HasStatus deliveries endpointId .delivering)
    (hresponse : result.delivered = true → result.responseStatus.isSome = true)
    (finalAttempt : Bool) (now : Time) :
    ∃ deliveries', recordResult endpointId result finalAttempt now deliveries = .ok deliveries' ∧
      Touched endpointId deliveries deliveries' ∧
      HasStatus deliveries' endpointId (result.status finalAttempt) := by
  obtain ⟨row, hrow, rfl, hstatus⟩ := hcurrent
  have hopen : row.status ≠ .delivered := by
    rw [hstatus]
    exact nofun
  have htime := hok.times row hrow hopen
  let f (row : WebhookDelivery) : WebhookDelivery := { row with
    status := result.status finalAttempt
    responseStatus := result.responseStatus
    responseBodySha256 := result.responseBodySha256
    deliveredAt := if result.delivered then some now else row.deliveredAt }
  have hchecks : refuse (deliveryChecks row (f row)) = .ok () := by
    refine (refuse_deliveryChecks hopen).mpr ⟨fun h => ?_, fun h => ?_, .inr ?_⟩
    · have hdelivered : result.delivered = true := by
        simp only [f, DeliveryResult.status] at h
        by_contra hnot
        rw [if_neg hnot] at h
        split at h <;> cases h
      refine ⟨hresponse hdelivered, ?_⟩
      simp only [f, hdelivered, if_true]
      rfl
    · have hdelivered : result.delivered ≠ true := fun hdelivered => h (if_pos hdelivered)
      simp only [f, if_neg hdelivered]
      exact htime
    · rw [hstatus]
      exact recordable result finalAttempt
  refine ⟨_, updateDelivery_of_mem hok hrow hchecks, ?_, hasStatus_assigned hrow rfl⟩
  exact Touched.assigned hok hrow (fun _ => rfl) hopen hchecks

theorem replayDelivery_touched (hok : DeliveriesOk deliveries)
    (h : replayDelivery endpointId deliveries = .ok deliveries') :
    Touched endpointId deliveries deliveries' ∧
      ∀ other, HasStatus deliveries other .delivering → HasStatus deliveries' other .delivering := by
  unfold replayDelivery at h
  split at h
  · exact nomatch h
  · rename_i row hfound
    have hrow := List.mem_of_find?_eq_some hfound
    have hkey : row.endpointId = endpointId := by simpa using List.find?_some hfound
    split at h
    · exact nomatch h
    · rename_i hopen
      rcases updateDelivery_eq_ok h with ⟨-, hnone⟩ | ⟨row', hfound', hchecks, rfl⟩
      · exact nomatch hnone.symm.trans hfound
      · obtain rfl := Option.some.inj (hfound.symm.trans hfound')
        subst hkey
        refine ⟨Touched.assigned hok hrow (fun _ => rfl) hopen hchecks, fun other hother => ?_⟩
        refine hother.assigned fun heq => ?_
        -- a delivery that is under way is not replayed
        rw [heq] at hother
        have hdelivering := hok.status_unique ⟨row, hrow, rfl, rfl⟩ hother
        rcases ((refuse_deliveryChecks hopen).mp hchecks).2.2 with hsame | hallowed
        · rw [hdelivering] at hsame
          exact nomatch hsame
        · rw [hdelivering] at hallowed
          exact absurd hallowed (show DeliveryStatus.pending ∉ DeliveryStatus.delivering.allowed
            by decide)

end

/-! ## Runs -/

structure WebhookRun.Sound (deliveries : List WebhookDelivery) (r : WebhookRun) : Prop where
  pending : ∀ d ∈ deliveries, d.status.settled = false →
    d.endpointId ∈ r.endpoints ∨ r.phase.current = some d.endpointId ∨ 0 < r.outstanding
  retried : 0 < r.outstanding → r.finalAttempt = false
  current : ∀ endpointId, r.phase.current = some endpointId →
    HasStatus deliveries endpointId .delivering
  answered : ∀ endpointId result, r.phase = .answered endpointId result →
    result.delivered = true → result.responseStatus.isSome = true

structure LogOk (deliveries : List WebhookDelivery) (log : List WebhookEvent) : Prop where
  delivered : ∀ endpointId, .delivered endpointId ∈ log → HasStatus deliveries endpointId .delivered
  quiet : log.Pairwise fun a b => ∀ endpointId, a = .delivered endpointId → b ≠ .posted endpointId
  ended : ∀ deliveries, .ended deliveries ∈ log → ∀ d ∈ deliveries, d.status.settled = true

structure WebhookDispatch.Orderly (s : WebhookDispatch) : Prop where
  table : DeliveriesOk s.deliveries
  log : LogOk s.deliveries s.log
  alone : Alone s.runs
  sound : ∀ (i : Nat) (r : WebhookRun), s.runs[i]?.join = some r → r.Sound s.deliveries

section

variable {s s' : WebhookDispatch} {deliveries deliveries' : List WebhookDelivery}
  {log : List WebhookEvent} {endpointId : Id} {i : Nat} {r : WebhookRun}

theorem LogOk.touched (h : LogOk deliveries log) (ht : Touched endpointId deliveries deliveries') :
    LogOk deliveries' log where
  delivered := fun other hother => ht.delivered other (h.delivered other hother)
  quiet := h.quiet
  ended := h.ended

theorem LogOk.append (h : LogOk deliveries log) {event : WebhookEvent}
    (hdelivered : ∀ endpointId, event = .delivered endpointId →
      HasStatus deliveries endpointId .delivered)
    (hposted : ∀ endpointId, event = .posted endpointId → .delivered endpointId ∉ log)
    (hended : ∀ snapshot, event = .ended snapshot → ∀ d ∈ snapshot, d.status.settled = true) :
    LogOk deliveries (log ++ [event]) where
  delivered := by
    intro endpointId hmem
    rcases List.mem_append.mp hmem with hmem | hmem
    · exact h.delivered endpointId hmem
    · exact hdelivered endpointId (List.mem_singleton.mp hmem).symm
  quiet := by
    refine List.pairwise_append.mpr ⟨h.quiet, List.pairwise_singleton _ _, ?_⟩
    rintro earlier hearlier _ hlast endpointId rfl heq
    rw [List.mem_singleton.mp hlast] at heq
    exact hposted endpointId heq hearlier
  ended := by
    intro snapshot hmem
    rcases List.mem_append.mp hmem with hmem | hmem
    · exact h.ended snapshot hmem
    · exact hended snapshot (List.mem_singleton.mp hmem).symm

theorem LogOk.not_delivered (h : LogOk deliveries log) (hok : DeliveriesOk deliveries)
    (hcurrent : HasStatus deliveries endpointId .delivering) : .delivered endpointId ∉ log :=
  fun hmem => nomatch hok.status_unique hcurrent (h.delivered endpointId hmem)

theorem LogOk.endJob (h : LogOk deliveries log)
    (hsettled : ∀ d ∈ deliveries, d.status.settled = true) :
    LogOk deliveries (log ++ [.ended deliveries]) := by
  refine h.append nofun nofun ?_
  rintro _ ⟨⟩
  exact hsettled

theorem WebhookDispatch.Orderly.goOn (hs : s.Orderly) (hi : s.runs[i]?.join = some r)
    {next : WebhookRun} (htable : DeliveriesOk s'.deliveries) (hlog : LogOk s'.deliveries s'.log)
    (hruns : s'.runs = s.runs.set i (some next)) (hsound : next.Sound s'.deliveries) :
    s'.Orderly := by
  obtain ⟨halone, honly⟩ := hs.alone.set hi (some next)
  refine ⟨htable, hlog, hruns ▸ halone, fun j p hj => ?_⟩
  rw [hruns] at hj
  cases honly j p hj
  exact hsound

theorem WebhookDispatch.Orderly.goAway (hs : s.Orderly) (hi : s.runs[i]?.join = some r)
    (hruns : s'.runs = s.runs.set i none) (hdeliveries : s'.deliveries = s.deliveries)
    (hlog : LogOk s'.deliveries s'.log) : s'.Orderly := by
  obtain ⟨halone, honly⟩ := hs.alone.set hi none
  refine ⟨hdeliveries ▸ hs.table, hlog, hruns ▸ halone, fun j p hj => ?_⟩
  rw [hruns] at hj
  exact nomatch honly j p hj

theorem WebhookDispatch.Orderly.abort (hs : s.Orderly) (hi : s.runs[i]?.join = some r)
    {permanent : Bool} (hpermanent : permanent = false) (hretry : r.finalAttempt = false) :
    (s.abort i r permanent).Orderly := by
  unfold WebhookDispatch.abort
  rw [hpermanent, hretry]
  exact hs.goAway hi rfl rfl hs.log

@[simp] theorem markPublished_deliveries : s.markPublished.deliveries = s.deliveries := by
  unfold WebhookDispatch.markPublished
  split <;> rfl

@[simp] theorem markPublished_runs : s.markPublished.runs = s.runs := by
  unfold WebhookDispatch.markPublished
  split <;> rfl

@[simp] theorem markPublished_log : s.markPublished.log = s.log := by
  unfold WebhookDispatch.markPublished
  split <;> rfl

/-! ## Steps -/

theorem Orderly.startRun (hs : s.Orderly) (attempts maximumAttempts : Nat)
    (hidle : ∀ r ∈ s.runs, r = none)
    (hloaded : ∀ d ∈ s.deliveries, d.status.settled = false → d.endpointId ∈ s.loaded) :
    (s.startRun attempts maximumAttempts).Orderly := by
  unfold WebhookDispatch.startRun
  split
  · rename_i hempty
    -- nothing is loaded, and so nothing is unsettled
    have hsettled : ∀ d ∈ s.deliveries, d.status.settled = true := by
      intro d hd
      by_contra hnot
      have hmem := hloaded d hd (by simpa using hnot)
      rw [hempty] at hmem
      exact nomatch hmem
    exact {
      table := by simpa [WebhookDispatch.endJob, WebhookDispatch.note] using hs.table
      log := by simpa [WebhookDispatch.endJob, WebhookDispatch.note] using hs.log.endJob hsettled
      alone := by simpa [WebhookDispatch.endJob, WebhookDispatch.note] using hs.alone
      sound := by simpa [WebhookDispatch.endJob, WebhookDispatch.note] using hs.sound }
  · obtain ⟨halone, honly⟩ :=
      alone_append hidle (⟨attempts, maximumAttempts, s.loaded, .ready, 0⟩ : WebhookRun)
    refine ⟨hs.table, hs.log, halone, fun j p hj => ?_⟩
    rw [honly j p hj]
    exact ⟨fun d hd hopen => .inl (hloaded d hd hopen), fun h => absurd h (lt_irrefl 0), nofun, nofun⟩

theorem Orderly.claim (hs : s.Orderly) {rest : List Id} (hi : s.runs[i]?.join = some r)
    (hendpoints : r.endpoints = endpointId :: rest) (hphase : r.phase = .ready) :
    (s.claim i r endpointId rest).Orderly := by
  obtain ⟨claimed, deliveries', status, hclaim, htouched, hstatus, hclaimed, hterminal⟩ :=
    claimDelivery_touched hs.table endpointId r.attempts
  have hr := hs.sound i r hi
  unfold WebhookDispatch.claim
  rw [hclaim]
  refine hs.goOn hi htouched.ok (hs.log.touched htouched) rfl ⟨?_, hr.retried, ?_, ?_⟩
  · intro d hd hopen
    by_cases hkey : d.endpointId = endpointId
    · cases claimed with
      | true => exact .inr (.inl (congrArg some hkey.symm))
      | false =>
        -- the delivery was settled before
        have heq := htouched.ok.status_unique ⟨d, hd, hkey, rfl⟩ hstatus
        rw [heq, hterminal rfl] at hopen
        exact nomatch hopen
    · have hold := (htouched.others d hd).resolve_left hkey
      rcases hr.pending d hold hopen with hmem | hcurrent | houtstanding
      · rw [hendpoints] at hmem
        exact .inl ((List.mem_cons.mp hmem).resolve_left hkey)
      · rw [hphase] at hcurrent
        exact nomatch hcurrent
      · exact .inr (.inr houtstanding)
  · intro other hother
    cases claimed with
    | true =>
      cases hother
      rw [← hclaimed rfl]
      exact hstatus
    | false => exact nomatch hother
  · intro other result hanswered
    cases claimed <;> exact nomatch hanswered

theorem DeliveryAttempt.result_responseStatus (attempt : DeliveryAttempt)
    (h : attempt.result.delivered = true) : attempt.result.responseStatus.isSome = true := by
  cases attempt with
  | rejected => exact nomatch h
  | transportFailed => exact nomatch h
  | answered status body =>
    simp only [DeliveryAttempt.result] at h ⊢
    split
    · rfl
    · split <;> rfl

theorem Orderly.deliver (hs : s.Orderly) (hi : s.runs[i]?.join = some r)
    (hphase : r.phase = .claimed endpointId) (attempt : DeliveryAttempt) :
    (s.deliver i r endpointId attempt).Orderly := by
  have hr := hs.sound i r hi
  have hcurrent := hr.current endpointId (by rw [hphase]; rfl)
  have hnext : WebhookRun.Sound s.deliveries
      { r with phase := .answered endpointId attempt.result } := by
    refine ⟨fun d hd hopen => ?_, hr.retried, ?_, ?_⟩
    · have hpending := hr.pending d hd hopen
      rw [hphase] at hpending
      exact hpending
    · rintro other ⟨⟩
      exact hcurrent
    · rintro other result ⟨⟩
      exact attempt.result_responseStatus
  unfold WebhookDispatch.deliver
  split
  · refine hs.goOn hi hs.table (hs.log.append nofun ?_ nofun) rfl hnext
    rintro other ⟨⟩
    exact hs.log.not_delivered hs.table hcurrent
  · exact hs.goOn hi hs.table hs.log rfl hnext

theorem Orderly.record (hs : s.Orderly) (hi : s.runs[i]?.join = some r) {result : DeliveryResult}
    (hphase : r.phase = .answered endpointId result) :
    (s.record i r endpointId result).Orderly := by
  have hr := hs.sound i r hi
  have hcurrent := hr.current endpointId (by rw [hphase]; rfl)
  obtain ⟨deliveries', hrecord, htouched, hstatus⟩ :=
    recordResult_touched hs.table hcurrent (hr.answered endpointId result hphase) r.finalAttempt s.now
  have hnext : WebhookRun.Sound deliveries' { r with
      phase := .ready
      outstanding :=
        if result.delivered || r.finalAttempt then r.outstanding else r.outstanding + 1 } := by
    refine ⟨fun d hd hopen => ?_, fun h => ?_, nofun, nofun⟩
    · by_cases hkey : d.endpointId = endpointId
      · -- what was recorded is not settled: it is counted
        have heq := htouched.ok.status_unique ⟨d, hd, hkey, rfl⟩ hstatus
        rw [heq] at hopen
        refine .inr (.inr ?_)
        unfold DeliveryResult.status at hopen
        split at hopen
        · exact nomatch hopen
        · rename_i hdelivered
          split at hopen
          · exact nomatch hopen
          · rename_i hfinal
            dsimp only
            rw [if_neg (by simp [hdelivered, hfinal])]
            exact Nat.succ_pos _
      · have hold := (htouched.others d hd).resolve_left hkey
        rcases hr.pending d hold hopen with hmem | hcur | houtstanding
        · exact .inl hmem
        · rw [hphase] at hcur
          exact absurd (Option.some.inj hcur).symm hkey
        · refine .inr (.inr ?_)
          dsimp only
          split
          · exact houtstanding
          · exact Nat.succ_pos _
    · dsimp only at h
      split at h
      · exact hr.retried h
      · rename_i hnot
        have hfinal : ¬r.finalAttempt = true := fun hfinal => hnot (by rw [hfinal, Bool.or_true])
        exact Bool.eq_false_of_not_eq_true hfinal
  unfold WebhookDispatch.record
  rw [hrecord]
  dsimp only
  split
  · rename_i hdelivered
    refine hs.goOn hi htouched.ok ((hs.log.touched htouched).append ?_ nofun nofun) rfl hnext
    rintro other ⟨⟩
    rw [DeliveryResult.status, if_pos hdelivered] at hstatus
    exact hstatus
  · exact hs.goOn hi htouched.ok (hs.log.touched htouched) rfl hnext

theorem Orderly.finish (hs : s.Orderly) (hi : s.runs[i]?.join = some r) (hempty : r.endpoints = [])
    (hphase : r.phase = .ready) : (s.finish i r).Orderly := by
  have hr := hs.sound i r hi
  unfold WebhookDispatch.finish
  split
  · rename_i houtstanding
    exact hs.abort hi rfl (hr.retried houtstanding)
  · rename_i hnone
    have hsettled : ∀ d ∈ s.deliveries, d.status.settled = true := by
      intro d hd
      by_contra hnot
      rcases hr.pending d hd (by simpa using hnot) with hmem | hcurrent | houtstanding
      · rw [hempty] at hmem
        exact nomatch hmem
      · rw [hphase] at hcurrent
        exact nomatch hcurrent
      · exact hnone houtstanding
    refine hs.goAway hi ?_ ?_ ?_
    · simp [WebhookDispatch.endJob, WebhookDispatch.note, WebhookDispatch.setRun]
    · simp [WebhookDispatch.endJob, WebhookDispatch.note, WebhookDispatch.setRun]
    · simpa [WebhookDispatch.endJob, WebhookDispatch.note, WebhookDispatch.setRun] using
        hs.log.endJob hsettled

theorem Orderly.step {action : WebhookAction} (hs : s.Orderly) (hundisturbed : Undisturbed s action)
    (h : webhookStep s action = some s') : s'.Orderly := by
  cases action with
  | tick duration =>
    cases h
    exact { hs with }
  | configure endpoints =>
    cases h
    exact { hs with }
  | start attempts maximumAttempts =>
    cases h
    exact Orderly.startRun hs attempts maximumAttempts hundisturbed.1 hundisturbed.2
  | claim i =>
    simp only [webhookStep] at h
    split at h
    · rename_i hi
      cases h
      exact Orderly.claim hs hi rfl rfl
    · exact nomatch h
  | deliver i attempt =>
    simp only [webhookStep] at h
    split at h
    · rename_i hi
      cases h
      exact Orderly.deliver hs hi rfl attempt
    · exact nomatch h
  | record i =>
    simp only [webhookStep] at h
    split at h
    · rename_i hi
      cases h
      exact Orderly.record hs hi rfl
    · exact nomatch h
  | finish i =>
    simp only [webhookStep] at h
    split at h
    · rename_i hi
      cases h
      exact Orderly.finish hs hi rfl rfl
    · exact nomatch h
  | throws i permanent =>
    obtain ⟨r, hi, rfl⟩ := Option.map_eq_some_iff.mp h
    exact hs.abort hi hundisturbed.1 (hundisturbed.2 r hi)
  | replay endpointId =>
    simp only [webhookStep] at h
    split at h
    · exact nomatch h
    · rename_i deliveries hreplay
      cases h
      obtain ⟨htouched, hdelivering⟩ := replayDelivery_touched hs.table hreplay
      refine ⟨htouched.ok, hs.log.touched htouched, hs.alone, fun i r hi => ?_⟩
      have hr := hs.sound i r hi
      refine ⟨fun d hd hopen => ?_, hr.retried, fun other h => hdelivering other (hr.current other h),
        hr.answered⟩
      by_cases hkey : d.endpointId = endpointId
      · rw [hkey]
        exact .inl (hundisturbed _ (mem_of_slot hi) r rfl)
      · exact hr.pending d ((htouched.others d hd).resolve_left hkey) hopen

theorem orderly_start (eventType : String) (now : Time) (endpoints : List WebhookEndpoint) :
    (dispatchStart eventType now endpoints).Orderly where
  table := ⟨List.nodup_nil, fun _ h => (nomatch h)⟩
  log := ⟨fun _ h => (nomatch h), List.Pairwise.nil, fun _ h => (nomatch h)⟩
  alone := alone_nil
  sound := fun i _ h => by simp [dispatchStart] at h

/--
In every run of undisturbed steps, every job has ended with settled deliveries, and nothing was
posted to an endpoint after its delivery had been recorded as delivered.
-/
theorem webhook_settled {eventType : String} {now : Time} {endpoints : List WebhookEndpoint}
    {actions : List WebhookAction}
    (hr : run webhookStep (dispatchStart eventType now endpoints) actions = some s)
    (hundisturbed : Meets webhookStep Undisturbed (dispatchStart eventType now endpoints) actions) :
    (∀ deliveries, .ended deliveries ∈ s.log → ∀ d ∈ deliveries, d.status.settled = true) ∧
      s.log.Pairwise fun a b =>
        ∀ endpointId, a = .delivered endpointId → b ≠ .posted endpointId := by
  have horderly : s.Orderly :=
    run_invariant_of_meets (fun _ _ _ hs hcondition h => Orderly.step hs hcondition h)
      (orderly_start eventType now endpoints) hundisturbed hr
  exact ⟨horderly.log.ended, horderly.log.quiet⟩

end

/-! ## Disturbances -/

def exampleEndpoint (id : Id) (active : Bool) : WebhookEndpoint :=
  ⟨id, active, some "c2VjcmV0".toList, ["case.completed"]⟩

def exampleDispatch : WebhookDispatch :=
  dispatchStart "case.completed" 0 [exampleEndpoint 1 true, exampleEndpoint 2 true]

def endpointDeactivated : List WebhookAction :=
  [.start 1 10, .claim 0, .deliver 0 (.answered 200 none), .record 0, .claim 0,
    .deliver 0 (.answered 500 none), .record 0, .finish 0,
    .configure [exampleEndpoint 1 true, exampleEndpoint 2 false],
    .start 2 10, .claim 1, .finish 1]

/-- The lease runs out while the first answer is awaited, and a second worker takes the job. -/
def overtaken : List WebhookAction :=
  [.start 1 10, .claim 0, .deliver 0 (.answered 200 none), .start 2 10, .claim 1, .record 0,
    .deliver 1 (.answered 200 none)]

def deliveredOnce : WebhookDelivery := ⟨1, 1, .delivered, some 200, none, some 0⟩

def failedOnce : WebhookDelivery := ⟨2, 1, .failed, some 500, none, none⟩

/-- A job is completed with a failed delivery, and a delivered one is posted again. -/
theorem webhook_left_unsettled :
    (∃ s, run webhookStep exampleDispatch endpointDeactivated = some s ∧
      .ended [deliveredOnce, failedOnce] ∈ s.log ∧ failedOnce.status.settled = false) ∧
    ∃ s, run webhookStep exampleDispatch overtaken = some s ∧
      ¬s.log.Pairwise fun a b =>
        ∀ endpointId, a = .delivered endpointId → b ≠ .posted endpointId := by
  constructor
  · have hrun : (run webhookStep exampleDispatch endpointDeactivated).map (·.log) = some
        [.posted 1, .delivered 1, .posted 2, .ended [deliveredOnce, failedOnce]] := by
      decide +kernel
    obtain ⟨s, hs, hlog⟩ := Option.map_eq_some_iff.mp hrun
    refine ⟨s, hs, ?_, rfl⟩
    rw [hlog]
    decide
  · have hrun : (run webhookStep exampleDispatch overtaken).map (·.log) =
        some [.posted 1, .delivered 1, .posted 1] := by
      decide +kernel
    obtain ⟨s, hs, hlog⟩ := Option.map_eq_some_iff.mp hrun
    refine ⟨s, hs, fun hquiet => ?_⟩
    rw [hlog] at hquiet
    have hlast := List.rel_of_pairwise_cons (List.pairwise_cons.mp hquiet).2
      (List.mem_singleton_self _)
    exact hlast 1 rfl rfl

/-- Left to itself, the second attempt settles what the first one did not. -/
theorem webhook_settled_by_retry :
    ∃ s, run webhookStep exampleDispatch
        [.start 1 10, .claim 0, .deliver 0 (.answered 200 none), .record 0, .claim 0,
          .deliver 0 (.answered 500 none), .record 0, .finish 0, .replay 2,
          .start 2 10, .claim 1, .claim 1, .deliver 1 (.answered 204 none), .record 1, .finish 1] =
        some s ∧
      s.publishedAt = some 0 ∧
      ∀ deliveries, .ended deliveries ∈ s.log → ∀ d ∈ deliveries, d.status.settled = true := by
  have hrun : (run webhookStep exampleDispatch
      [.start 1 10, .claim 0, .deliver 0 (.answered 200 none), .record 0, .claim 0,
        .deliver 0 (.answered 500 none), .record 0, .finish 0, .replay 2,
        .start 2 10, .claim 1, .claim 1, .deliver 1 (.answered 204 none), .record 1,
        .finish 1]).map (·.publishedAt) = some (some 0) := by
    decide +kernel
  obtain ⟨s, hs, hpublished⟩ := Option.map_eq_some_iff.mp hrun
  exact ⟨s, hs, hpublished, (webhook_settled hs (by decide +kernel)).1⟩

end Kommunsign
