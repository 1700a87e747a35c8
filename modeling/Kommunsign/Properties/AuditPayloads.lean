import Kommunsign.Infra.Scripts
import Kommunsign.Properties.TenantChains

/-!
# The payloads that the audit log takes

The guard goes through all objects and arrays of a payload. So `audit.append_event` refuses exactly
the payloads with a forbidden name somewhere inside, and then nothing is written.

* `KeyInside` — the names inside a value, at any depth
* `AppendsAnonymous` — what is taken, and what a refusal leaves
* `appendEvent_appends` — every call of every tenant meets it
-/

namespace Kommunsign

open Infra ReadCommitted

inductive KeyInside (name : Text) : Json → Prop
  | member (members : List (Text × Json)) (value : Json) (h : (name, value) ∈ members) :
      KeyInside name (.obj members)
  | under (members : List (Text × Json)) (key : Text) (value : Json) (h : (key, value) ∈ members)
      (hinside : KeyInside name value) : KeyInside name (.obj members)
  | item (items : List Json) (value : Json) (h : value ∈ items) (hinside : KeyInside name value) :
      KeyInside name (.arr items)

def Anonymous (lower : Text → Text) (payload : Json) : Prop :=
  ∀ name, KeyInside name payload → lower name ∉ forbiddenNames

section Guard

variable {lower : Text → Text}

theorem itemsCarryIdentity_of_mem {items : List Json} {item : Json} (hmem : item ∈ items)
    (h : carriesIdentity lower item = true) : itemsCarryIdentity lower items = true := by
  induction items with
  | nil => exact absurd hmem List.not_mem_nil
  | cons first items ih =>
    rw [itemsCarryIdentity, Bool.or_eq_true]
    rcases List.mem_cons.mp hmem with rfl | hmem
    · exact Or.inl h
    · exact Or.inr (ih hmem)

theorem membersCarryIdentity_of_mem {members : List (Text × Json)} {name : Text} {value : Json}
    (hmem : (name, value) ∈ members)
    (h : lower name ∈ forbiddenNames ∨ carriesIdentity lower value = true) :
    membersCarryIdentity lower members = true := by
  induction members with
  | nil => exact absurd hmem List.not_mem_nil
  | cons first members ih =>
    obtain ⟨first, firstValue⟩ := first
    rw [membersCarryIdentity, Bool.or_eq_true, Bool.or_eq_true]
    rcases List.mem_cons.mp hmem with heq | hmem
    · cases heq
      exact Or.inl (h.imp List.contains_iff_mem.mpr id)
    · exact Or.inr (ih hmem)

theorem carriesIdentity_of_key {payload : Json} {name : Text} (h : KeyInside name payload)
    (hforbidden : lower name ∈ forbiddenNames) : carriesIdentity lower payload = true := by
  induction h with
  | member members value hmem => exact membersCarryIdentity_of_mem hmem (Or.inl hforbidden)
  | under members key value hmem _ ih => exact membersCarryIdentity_of_mem hmem (Or.inr ih)
  | item items value hmem _ ih => exact itemsCarryIdentity_of_mem hmem ih

mutual

theorem exists_key_of_carries : ∀ {payload : Json}, carriesIdentity lower payload = true →
    ∃ name, KeyInside name payload ∧ lower name ∈ forbiddenNames
  | .obj members, h => by
    obtain ⟨key, value, hmem, hfound⟩ := exists_key_of_members h
    rcases hfound with hkey | ⟨name, hinside, hname⟩
    · exact ⟨key, .member members value hmem, hkey⟩
    · exact ⟨name, .under members key value hmem hinside, hname⟩
  | .arr items, h => by
    obtain ⟨value, hmem, name, hinside, hname⟩ := exists_key_of_items h
    exact ⟨name, .item items value hmem hinside, hname⟩
  | .null, h => nomatch h
  | .bool _, h => nomatch h
  | .num _, h => nomatch h
  | .str _, h => nomatch h

theorem exists_key_of_items : ∀ {items : List Json}, itemsCarryIdentity lower items = true →
    ∃ value ∈ items, ∃ name, KeyInside name value ∧ lower name ∈ forbiddenNames
  | [], h => nomatch h
  | item :: items, h => by
    rw [itemsCarryIdentity, Bool.or_eq_true] at h
    rcases h with h | h
    · exact ⟨item, List.mem_cons_self, exists_key_of_carries h⟩
    · obtain ⟨value, hmem, hfound⟩ := exists_key_of_items h
      exact ⟨value, List.mem_cons_of_mem item hmem, hfound⟩

theorem exists_key_of_members : ∀ {members : List (Text × Json)},
    membersCarryIdentity lower members = true → ∃ key value, (key, value) ∈ members ∧
      (lower key ∈ forbiddenNames ∨
        ∃ name, KeyInside name value ∧ lower name ∈ forbiddenNames)
  | [], h => nomatch h
  | (key, value) :: members, h => by
    rw [membersCarryIdentity, Bool.or_eq_true, Bool.or_eq_true] at h
    rcases h with (h | h) | h
    · exact ⟨key, value, List.mem_cons_self, Or.inl (List.contains_iff_mem.mp h)⟩
    · exact ⟨key, value, List.mem_cons_self, Or.inr (exists_key_of_carries h)⟩
    · obtain ⟨key', value', hmem, hfound⟩ := exists_key_of_members h
      exact ⟨key', value', List.mem_cons_of_mem _ hmem, hfound⟩

end

theorem carriesIdentity_iff {payload : Json} :
    carriesIdentity lower payload = false ↔ Anonymous lower payload := by
  rw [← Bool.not_eq_true]
  constructor
  · exact fun h name hinside hname => h (carriesIdentity_of_key hinside hname)
  · intro h hcarries
    obtain ⟨name, hinside, hname⟩ := exists_key_of_carries hcarries
    exact h name hinside hname

end Guard

/-! ## An append -/

def AuditStore.headOf (s : AuditStore) (t : UUID) : AuditChainHead := (s.heads t).getD firstHead

def AuditStore.appended (s : AuditStore) (t : UUID) (row : AuditEvent) : AuditStore where
  heads := Function.update s.heads t (some ⟨row.sequence, row.eventHash⟩)
  events := s.events ++ [row]

section Append

variable {lower sha256Hex : Text → Text} {t : UUID} {call : EventCall} {s : AuditStore}

theorem appendEvent_alone_eq : (appendEvent lower sha256Hex t call .commit).alone s =
    if call.tenantId = t ∧ call.category ∈ ["TECHNICAL", "BUSINESS"] ∧
        carriesIdentity lower call.payload.json = false ∧
        violatesEventKey s.events (call.row sha256Hex (s.headOf t)) = false then
      some (s.appended t (call.row sha256Hex (s.headOf t)))
    else none := by
  unfold appendEvent
  by_cases htenant : call.tenantId = t
  · rw [if_neg (not_not.mpr htenant)]
    obtain rfl := htenant
    by_cases hcategory : call.category ∈ ["TECHNICAL", "BUSINESS"]
    · rw [if_neg (not_not.mpr hcategory)]
      cases hidentity : carriesIdentity lower call.payload.json with
      | true =>
        rw [if_pos rfl, if_neg (by simp)]
        rfl
      | false =>
        -- the head that has been inserted is the one that is found
        have hhead : (s.insertHead call.tenantId).heads call.tenantId =
            some (s.headOf call.tenantId) := Function.update_self _ _ _
        have hevents : (s.insertHead call.tenantId).events = s.events := rfl
        simp only [Bool.false_eq_true, if_false, Program.alone, hhead, hevents, hcategory, true_and]
        cases hviolates : violatesEventKey s.events (call.row sha256Hex (s.headOf call.tenantId)) with
        | true => rfl
        | false =>
          simp only [Bool.false_eq_true, if_false, if_true, Program.alone, AuditStore.updateHead,
            AuditStore.insertEvent, AuditStore.insertHead, AuditStore.appended,
            Function.update_idem]
    · rw [if_pos hcategory, if_neg (fun h => hcategory h.2.1)]
      rfl
  · rw [if_pos htenant, if_neg (fun h => htenant h.1)]
    rfl

end Append

/-! ## Every call -/

/-- An event of the tenant has the hash already that the call's row would have. -/
def AuditStore.HashTaken (s : AuditStore) (sha256Hex : Text → Text) (t : UUID) (call : EventCall) :
    Prop :=
  ∃ row ∈ s.events, row.tenantId = t ∧
    row.eventHash = (call.row sha256Hex (s.headOf t)).eventHash

/-- What is asked of a call of `audit.append_event` by a session of the tenant. -/
structure AppendsAnonymous (lower sha256Hex : Text → Text) (t : UUID) (call : EventCall) : Prop where
  /-- After any interleaving, and up to a collision of the hash function. -/
  accepts : ∀ actions system, eventRun lower sha256Hex actions = some system →
    (((appendEvent lower sha256Hex t call .commit).alone system.committed).isSome = true ↔
      (call.tenantId = t ∧ call.category ∈ ["TECHNICAL", "BUSINESS"]) ∧
        Anonymous lower call.payload.json ∧ ¬system.committed.HashTaken sha256Hex t call)
  /-- In any transaction, and whatever others are doing. -/
  refuses : ¬Anonymous lower call.payload.json → ∀ (system : System AuditStore UUID) i writes next,
    system.sessions i = some ⟨appendEvent lower sha256Hex t call next, writes⟩ →
      ∃ system', step system (.next i) = some system' ∧ system'.committed = system.committed ∧
        system'.sessions i = none

section Calls

variable {lower sha256Hex : Text → Text} {t : UUID} {call : EventCall}

theorem violatesEventKey_iff {actions : List EventAction} {system : System AuditStore UUID}
    (hr : eventRun lower sha256Hex actions = some system) (htenant : call.tenantId = t) :
    violatesEventKey system.committed.events
        (call.row sha256Hex (system.committed.headOf t)) = true ↔
      system.committed.HashTaken sha256Hex t call := by
  have hrecomputes := recomputes_of_run hr t
  have hsequences := (numberedChain_of_recomputes hrecomputes).sequences
  have hlast := lastSequence_of_recompute hrecomputes.head
  unfold violatesEventKey AuditStore.HashTaken
  simp only [List.any_eq_true, Bool.and_eq_true, Bool.or_eq_true, beq_iff_eq]
  refine exists_congr fun row => and_congr_right fun hrow => ?_
  have hsame : (call.row sha256Hex (system.committed.headOf t)).tenantId = t := htenant
  rw [hsame]
  refine and_congr_right fun hof => or_iff_right fun hsequence => ?_
  -- the numbers of the chain are those up to that of its head
  have hmem : row ∈ (system.committed.chain t).2 :=
    List.mem_filter.mpr ⟨hrow, decide_eq_true hof⟩
  have hnumber := List.mem_map_of_mem (f := (·.sequence)) hmem
  rw [hsequences] at hnumber
  obtain ⟨n, hn, heq⟩ := List.mem_map.mp hnumber
  have hlt := List.mem_range.mp hn
  have hnext : (call.row sha256Hex (system.committed.headOf t)).sequence =
      (system.committed.headOf t).lastSequence + 1 := rfl
  have hhead : (system.committed.headOf t).lastSequence = (system.committed.chain t).2.length :=
    hlast
  omega

/-- Whatever a call has in its payload, it is taken exactly when no name in it is forbidden. -/
theorem appendEvent_appends (lower sha256Hex : Text → Text) (t : UUID) (call : EventCall) :
    AppendsAnonymous lower sha256Hex t call where
  accepts actions system hr := by
    rw [appendEvent_alone_eq, ← carriesIdentity_iff]
    constructor
    · intro h
      split at h
      · rename_i hall
        obtain ⟨htenant, hcategory, hanonymous, hfree⟩ := hall
        refine ⟨⟨htenant, hcategory⟩, hanonymous, fun htaken => ?_⟩
        exact Bool.false_ne_true (hfree.symm.trans ((violatesEventKey_iff hr htenant).mpr htaken))
      · cases h
    · rintro ⟨⟨htenant, hcategory⟩, hanonymous, hfree⟩
      have hkey := Bool.eq_false_iff.mpr fun h => hfree ((violatesEventKey_iff hr htenant).mp h)
      rw [if_pos ⟨htenant, hcategory, hanonymous, hkey⟩]
      rfl
  refuses hnot system i writes next hsession := by
    have hcarries : carriesIdentity lower call.payload.json = true :=
      Bool.eq_true_of_not_eq_false fun h => hnot (carriesIdentity_iff.mp h)
    have habort : appendEvent lower sha256Hex t call next = .abort := by
      unfold appendEvent
      rw [if_pos hcarries]
      split
      · rfl
      · split <;> rfl
    rw [habort] at hsession
    refine ⟨finish system i system.committed, ?_, rfl, Function.update_self _ _ _⟩
    simp only [step, hsession]

end Calls

end Kommunsign
