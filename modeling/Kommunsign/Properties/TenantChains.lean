import Mathlib.Data.List.Induction
import Mathlib.Data.List.Chain
import Mathlib.Data.List.Forall2
import Kommunsign.Data.AuditEvents

/-!
# The chains of the tenants' audit log

The rows of a tenant are numbered from 1 and linked in that order. With a hash that has no
collisions the stored head tells them apart from any other rows, up to what the text of a time
leaves out: its era, and the sign of an infinity.

* `FieldsAgree` — two rows with the same hashed columns, up to a relation on the times
* `tampering_noticed_iff` — a change is noticed exactly when it is not of an era only
-/

namespace Kommunsign

open Infra ReadCommitted

structure NumberedChain (chain : Option AuditChainHead × List AuditEvent) : Prop where
  sequences : chain.2.map (·.sequence) = (List.range chain.2.length).map fun n : Nat => (n : Int) + 1
  first : ∀ row ∈ chain.2.head?, row.previousEventHash = firstHead.lastEventHash
  linked : chain.2.IsChain fun row next => next.previousEventHash = row.eventHash
  head : chain.1.getD firstHead =
    (chain.2.getLast?.map fun last => ⟨last.sequence, last.eventHash⟩).getD firstHead

/-- The same hashed columns, with times that `times` relates. -/
structure FieldsAgree (times : Timestamptz → Timestamptz → Prop) (a b : AuditEvent) : Prop where
  tenantId : a.tenantId = b.tenantId
  sequence : a.sequence = b.sequence
  category : a.category = b.category
  eventType : a.eventType = b.eventType
  actorType : a.actorType = b.actorType
  actorId : a.actorId = b.actorId
  resourceType : a.resourceType = b.resourceType
  resourceId : a.resourceId = b.resourceId
  payload : a.payload = b.payload
  occurredAt : times a.occurredAt b.occurredAt
  previousEventHash : a.previousEventHash = b.previousEventHash
  hashVersion : a.hashVersion = b.hashVersion

/-! ## One row -/

section

variable {a b : AuditEvent}

def memberNames : List String :=
  ["hashVersion", "previousEventHash", "tenantId", "sequence", "category", "eventType", "actorType",
    "actorId", "resourceType", "resourceId", "payload", "occurredAt"]

theorem names_members (a : AuditEvent) : a.members.map (·.1) = memberNames := rfl

theorem orNull_stored (value : Option String) : (orNull value).stored = orNull value := by
  cases value <;> rfl

theorem orNull_inj {value value' : Option String} : orNull value = orNull value' ↔ value = value' := by
  constructor
  · intro h
    cases value with
    | none =>
      cases value' with
      | none => rfl
      | some _ => exact nomatch h
    | some s =>
      cases value' with
      | none => exact nomatch h
      | some s' =>
        have hs : s.toList = s'.toList := Json.str.inj h
        rw [String.toList_injective hs]
  · rintro rfl
    rfl

theorem stored_occurredAt (time : Option Text) :
    ((time.map Json.str).getD .null).stored = (time.map Json.str).getD .null := by
  cases time <;> rfl

theorem occurredAt_inj {time time' : Option Text} :
    (time.map Json.str).getD .null = (time'.map Json.str).getD .null ↔ time = time' := by
  cases time <;> cases time' <;> simp

theorem material_eq_iff : a.material = b.material ↔ FieldsAgree Timestamptz.EraAlike a b := by
  have hlit (s s' : String) : Json.lit s = Json.lit s' ↔ s = s' := by
    simp [Json.lit, String.toList_inj]
  have hstored (s : String) : (Json.lit s).stored = Json.lit s := rfl
  constructor
  · intro h
    have hvalues := Jsonb.build_inj (names_members a ▸ by decide)
      ((names_members a).trans (names_members b).symm) (Json.spaced_injective h)
    simp only [AuditEvent.members, List.map_cons, List.map_nil, List.cons.injEq, Json.stored,
      orNull_stored, stored_occurredAt, a.payload.isStored, b.payload.isStored, Json.num.injEq,
      Json.str.injEq, hstored, hlit, orNull_inj, occurredAt_inj, Timestamptz.toChar_eq_iff] at hvalues
    obtain ⟨hversion, hprevious, htenant, hsequence, hcategory, htype, hactorType, hactor,
      hresourceType, hresource, hpayload, htime, _⟩ := hvalues
    exact ⟨htenant, hsequence, hcategory, htype, hactorType, hactor, hresourceType, hresource,
      Jsonb.ext_json hpayload, htime, hprevious, hversion⟩
  · rintro ⟨htenant, hsequence, hcategory, htype, hactorType, hactor, hresourceType, hresource,
      hpayload, htime, hprevious, hversion⟩
    unfold AuditEvent.material AuditEvent.members
    rw [htenant, hsequence, hcategory, htype, hactorType, hactor, hresourceType, hresource, hpayload,
      Timestamptz.toChar_eq_iff.mpr htime, hprevious, hversion]

end

/-! ## Rows -/

section

variable {lower sha256Hex : Text → Text} {rows tampered : List AuditEvent} {row : AuditEvent}
  {head : AuditChainHead}

theorem recompute_snoc : recompute sha256Hex (rows ++ [row]) = some head ↔
    ∃ before, recompute sha256Hex rows = some before ∧ row.sequence = before.lastSequence + 1 ∧
      row.previousEventHash = before.lastEventHash ∧
      head = ⟨row.sequence, sha256Hex row.material⟩ := by
  rw [recompute_append, Option.bind_eq_some_iff]
  refine exists_congr fun before => and_congr_right fun _ => ?_
  unfold recomputeRow
  constructor
  · intro h
    split at h
    · rename_i hfollows
      exact ⟨hfollows.1, hfollows.2, (Option.some.inj h).symm⟩
    · exact nomatch h
  · rintro ⟨hsequence, hprevious, rfl⟩
    rw [if_pos ⟨hsequence, hprevious⟩]

theorem lastSequence_of_recompute (h : recompute sha256Hex rows = some head) :
    head.lastSequence = rows.length := by
  induction rows using List.reverseRecOn generalizing head with
  | nil =>
    cases h
    rfl
  | append_singleton rows row ih =>
    obtain ⟨before, hbefore, hsequence, _, rfl⟩ := recompute_snoc.mp h
    rw [hsequence, ih hbefore, List.length_append]
    rfl

theorem head_of_recompute (hhashes : ∀ row ∈ rows, row.eventHash = sha256Hex row.material)
    (h : recompute sha256Hex rows = some head) :
    head = (rows.getLast?.map fun last => ⟨last.sequence, last.eventHash⟩).getD firstHead := by
  induction rows using List.reverseRecOn with
  | nil =>
    cases h
    rfl
  | append_singleton rows row _ =>
    obtain ⟨before, _, _, _, rfl⟩ := recompute_snoc.mp h
    rw [List.getLast?_concat, ← hhashes row (by simp)]
    rfl

theorem numberedChain_of_recomputes {chain : Option AuditChainHead × List AuditEvent}
    (h : Recomputes sha256Hex chain) : NumberedChain chain := by
  obtain ⟨stored, rows⟩ := chain
  obtain ⟨hhead, hhashes⟩ := h
  dsimp only at hhead hhashes
  refine ⟨?_, ?_, ?_, head_of_recompute hhashes hhead⟩ <;> dsimp only <;>
    generalize stored.getD firstHead = head at hhead
  · induction rows using List.reverseRecOn generalizing head with
    | nil => rfl
    | append_singleton rows row ih =>
      obtain ⟨before, hbefore, hsequence, _, _⟩ := recompute_snoc.mp hhead
      have hrows := ih (fun r hr => hhashes r (List.mem_append_left _ hr)) before hbefore
      rw [List.map_append, hrows, List.length_append, List.length_singleton, List.range_succ,
        List.map_append, List.map_singleton, List.map_singleton, hsequence,
        lastSequence_of_recompute hbefore]
  · induction rows using List.reverseRecOn generalizing head with
    | nil => exact fun row hrow => nomatch hrow
    | append_singleton rows row ih =>
      obtain ⟨before, hbefore, _, hprevious, _⟩ := recompute_snoc.mp hhead
      cases rows with
      | nil =>
        cases hbefore
        intro r hr
        cases hr
        exact hprevious
      | cons r rows => exact ih (fun r' hr => hhashes r' (List.mem_append_left _ hr)) before hbefore
  · induction rows using List.reverseRecOn generalizing head with
    | nil => exact List.isChain_nil
    | append_singleton rows row ih =>
      obtain ⟨before, hbefore, _, hprevious, _⟩ := recompute_snoc.mp hhead
      have hfront : ∀ r ∈ rows, r.eventHash = sha256Hex r.material :=
        fun r hr => hhashes r (List.mem_append_left _ hr)
      refine List.isChain_append.mpr ⟨ih hfront before hbefore, List.isChain_singleton row, ?_⟩
      intro last hlast next hnext
      cases hnext
      rw [hprevious, head_of_recompute hfront hbefore, hlast]
      rfl

theorem numberedChain_of_run {actions : List EventAction} {s : System AuditStore UUID}
    (hr : eventRun lower sha256Hex actions = some s) (t : UUID) :
    NumberedChain (s.committed.chain t) :=
  numberedChain_of_recomputes (recomputes_of_run hr t)

/-! ## Tampering -/

theorem recompute_congr (h : List.Forall₂ (FieldsAgree Timestamptz.EraAlike) tampered rows) :
    recompute sha256Hex tampered = recompute sha256Hex rows := by
  unfold recompute
  generalize firstHead = start
  induction h generalizing start with
  | nil => rfl
  | cons hrow _ ih =>
    rw [List.foldlM_cons, List.foldlM_cons]
    unfold recomputeRow
    rw [hrow.sequence, hrow.previousEventHash, material_eq_iff.mpr hrow]
    refine Option.bind_congr fun head _ => ih head

theorem agree_of_recompute (hinj : Function.Injective sha256Hex)
    (htampered : recompute sha256Hex tampered = some head)
    (h : recompute sha256Hex rows = some head) :
    List.Forall₂ (FieldsAgree Timestamptz.EraAlike) tampered rows := by
  induction rows using List.reverseRecOn generalizing tampered head with
  | nil =>
    have hlength := lastSequence_of_recompute htampered
    rw [lastSequence_of_recompute h] at hlength
    have hnil : tampered = [] := List.eq_nil_of_length_eq_zero (by simpa using hlength.symm)
    rw [hnil]
    exact .nil
  | append_singleton rows row ih =>
    rcases List.eq_nil_or_concat tampered with rfl | ⟨front, last, rfl⟩
    · have hlength := lastSequence_of_recompute h
      rw [lastSequence_of_recompute htampered] at hlength
      simp only [List.length_nil, List.length_append, List.length_singleton] at hlength
      omega
    · rw [List.concat_eq_append] at htampered ⊢
      obtain ⟨before, hbefore, hsequence, hprevious, rfl⟩ := recompute_snoc.mp h
      obtain ⟨before', hbefore', hsequence', hprevious', heq⟩ := recompute_snoc.mp htampered
      have hrow : FieldsAgree Timestamptz.EraAlike last row :=
        material_eq_iff.mp (hinj (congrArg AuditChainHead.lastEventHash heq)).symm
      -- the last rows name one head, so the rows before them lead to it as well
      have hhead : before' = before := by
        obtain ⟨number, hash⟩ := before
        obtain ⟨number', hash'⟩ := before'
        have hnumber : number' = number := by
          have := hrow.sequence
          dsimp only at hsequence hsequence'
          omega
        have hhash : hash' = hash := hprevious'.symm.trans (hrow.previousEventHash.trans hprevious)
        rw [hnumber, hhash]
      rw [hhead] at hbefore'
      exact List.rel_append (ih hbefore' hbefore) (.cons hrow .nil)

theorem recompute_eq_iff (hinj : Function.Injective sha256Hex)
    (h : recompute sha256Hex rows = some head) :
    recompute sha256Hex tampered = some head ↔
      List.Forall₂ (FieldsAgree Timestamptz.EraAlike) tampered rows :=
  ⟨fun htampered => agree_of_recompute hinj htampered h, fun hagree => recompute_congr hagree ▸ h⟩

/-- The rows are one chain, and a change of them is noticed unless it is of eras only. -/
theorem tampering_noticed_iff (hinj : Function.Injective sha256Hex) {actions : List EventAction}
    {s : System AuditStore UUID} (hr : eventRun lower sha256Hex actions = some s) (t : UUID) :
    NumberedChain (s.committed.chain t) ∧
      ∀ tampered, ¬List.Forall₂ (FieldsAgree Eq) tampered (s.committed.chain t).2 →
        (recompute sha256Hex tampered ≠ some ((s.committed.chain t).1.getD firstHead) ↔
          ¬List.Forall₂ (FieldsAgree Timestamptz.EraAlike) tampered (s.committed.chain t).2) := by
  refine ⟨numberedChain_of_run hr t, fun tampered _ => ?_⟩
  exact not_congr (recompute_eq_iff hinj (recomputes_of_run hr t).head)

end

/-! ## One append -/

def sampleTenant : UUID := "00000000-0000-4000-8000-000000000001"

def noonOf (year : Int) (h : 15 ≤ daysInMonth year 1) : CivilTime where
  year := year
  month := 1
  day := 15
  hour := 12
  minute := 0
  second := 0
  microsecond := 0
  valid := ⟨by decide, ⟨by decide, h⟩, by decide, by decide, by decide, by decide⟩

theorem wellNamed_object_nil : (Json.object []).WellNamed := ⟨List.nodup_nil, trivial⟩

def caseSent : EventCall where
  tenantId := sampleTenant
  category := "BUSINESS"
  eventType := "signature_case.sent"
  actorType := "user"
  actorId := none
  resourceType := none
  resourceId := none
  payload := ⟨.object [], rfl, wellNamed_object_nil⟩
  occurredAt := .finite (noonOf 2026 (by decide))

def oneAppend : List EventAction :=
  .begin 0 sampleTenant [caseSent] :: List.replicate 6 (.next 0)

def antedated : AuditEvent :=
  { caseSent.row id firstHead with occurredAt := .finite (noonOf (-2025) (by decide)) }

theorem eventRun_oneAppend : ∃ s, eventRun id id oneAppend = some s ∧
    s.committed.chain sampleTenant =
      (some ⟨1, (caseSent.row id firstHead).eventHash⟩, [caseSent.row id firstHead]) :=
  ⟨_, rfl, rfl⟩

/-- Another year for the row, and the head that is stored. -/
theorem tampering_unnoticed : Function.Injective (id : Text → Text) ∧
    ∃ s, eventRun id id oneAppend = some s ∧
      ¬List.Forall₂ (FieldsAgree Eq) [antedated] (s.committed.chain sampleTenant).2 ∧
      recompute id [antedated] = some ((s.committed.chain sampleTenant).1.getD firstHead) := by
  obtain ⟨s, hs, hchain⟩ := eventRun_oneAppend
  refine ⟨Function.injective_id, s, hs, ?_, ?_⟩
  · rw [hchain]
    intro h
    cases h with
    | cons hrow _ =>
      have hyear := congrArg CivilTime.year (Timestamptz.finite.inj hrow.occurredAt)
      exact absurd hyear (by decide)
  · rw [hchain]
    have hagree : List.Forall₂ (FieldsAgree Timestamptz.EraAlike) [antedated]
        [caseSent.row id firstHead] :=
      .cons ⟨rfl, rfl, rfl, rfl, rfl, rfl, rfl, rfl, rfl, (by decide : CivilTime.EraAlike _ _), rfl,
        rfl⟩ .nil
    rw [recompute_congr hagree]
    rfl

theorem tampering_noticed_oneAppend : ∃ s, eventRun id id oneAppend = some s ∧
    NumberedChain (s.committed.chain sampleTenant) ∧
    recompute id [] ≠ some ((s.committed.chain sampleTenant).1.getD firstHead) := by
  obtain ⟨s, hs, hchain⟩ := eventRun_oneAppend
  obtain ⟨hnumbered, hnoticed⟩ := tampering_noticed_iff Function.injective_id hs sampleTenant
  have hdropped (times : Timestamptz → Timestamptz → Prop) :
      ¬List.Forall₂ (FieldsAgree times) [] (s.committed.chain sampleTenant).2 := by
    rw [hchain]
    exact fun h => nomatch h
  exact ⟨s, hs, hnumbered, (hnoticed [] (hdropped _)).mpr (hdropped _)⟩

end Kommunsign
