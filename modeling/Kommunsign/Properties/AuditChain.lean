import Mathlib.Data.List.Induction
import Kommunsign.Control.AuditLog

/-!
# The chain of the control-plane audit log

The advisory lock lets one transaction append at a time. Which row a new one names is decided by
time and id though, and a transaction's time is its start: rows of one transaction share it, and a
transaction that waited for the lock is older than the row it has to follow.

* `linearChain_iff_inTurn` — in every interleaving, the log is a chain exactly then
* `WriteAlike` — two calls that leave the same columns write the same text
* `verifiable_iff` — the first holds exactly when the second does of any two calls
-/

namespace Kommunsign

open Infra ReadCommitted

structure LinearChain (rows : List ControlAuditRow) : Prop where
  linked : ∀ row ∈ rows.tail, ∃ other ∈ rows, other ≠ row ∧
    other.eventHash = row.previousEventHash ∧
    ∀ other' ∈ rows, other'.eventHash = row.previousEventHash → other' = other
  single : (rows.map (·.previousEventHash)).Nodup

/--
Every row that has a successor sorts behind all the rows before it, and has not the hash that stands
for no row.
-/
structure InTurn (rows : List ControlAuditRow) : Prop where
  ascending : rows.dropLast.Pairwise fun a b => a.position < b.position
  nonzero : ∀ row ∈ rows.dropLast, row.eventHash ≠ zeroHash

/-! ## The latest row -/

theorem latest_append (rows : List ControlAuditRow) (r : ControlAuditRow) :
    latest (rows ++ [r]) =
      match latest rows with
      | none => some r
      | some last => if last.position < r.position then some r else some last := by
  induction rows with
  | nil => rfl
  | cons row rows ih =>
    rw [List.cons_append, latest, ih, latest]
    cases latest rows with
    | none =>
      simp only
    | some last =>
      simp only
      -- three rows compete, and the middle one may win either match
      by_cases h₁ : last.position < r.position <;> by_cases h₂ : row.position < last.position <;>
        simp only [h₁, h₂, if_true, if_false]
      · rw [if_pos (h₂.trans h₁)]
      · rw [if_neg (not_lt.mpr ((not_lt.mp h₁).trans (not_lt.mp h₂)))]

theorem latest_of_ascending {rows : List ControlAuditRow}
    (h : rows.Pairwise fun a b => a.position < b.position) : latest rows = rows.getLast? := by
  induction rows using List.reverseRecOn with
  | nil => rfl
  | append_singleton rows r ih =>
    rw [List.pairwise_append] at h
    rw [latest_append, ih h.1, List.getLast?_append]
    cases hlast : rows.getLast? with
    | none => rfl
    | some last =>
      have hlt := h.2.2 last (List.mem_of_getLast? hlast) r List.mem_cons_self
      simp [hlt]

theorem mem_of_latest {rows : List ControlAuditRow} {row : ControlAuditRow}
    (h : latest rows = some row) : row ∈ rows := by
  induction rows using List.reverseRecOn with
  | nil => exact nomatch h
  | append_singleton rows r ih =>
    rw [latest_append] at h
    rw [List.mem_append, List.mem_singleton]
    cases hlast : latest rows with
    | none =>
      rw [hlast] at h
      exact .inr (Option.some.inj h).symm
    | some last =>
      simp only [hlast] at h
      split at h
      · exact .inr (Option.some.inj h).symm
      · exact .inl (ih (hlast.trans h))

theorem previousHash_mem (rows : List ControlAuditRow) :
    previousHash rows ∈ zeroHash :: rows.map (·.eventHash) := by
  unfold previousHash
  cases hlast : latest rows with
  | none => exact List.mem_cons_self
  | some last => exact List.mem_cons_of_mem _ (List.mem_map_of_mem (mem_of_latest hlast))

/-! ## The table -/

section

variable {sha256Hex : Text → Text} {calls : AuditCall → Prop} {rows : List ControlAuditRow}

theorem violatesKey_eq_false {row : ControlAuditRow} (h : violatesKey rows row = false) :
    ∀ r ∈ rows, r.id ≠ row.id ∧ r.eventHash ≠ row.eventHash := by
  intro r hr
  have hany := List.any_eq_false.mp h r hr
  simpa using hany

theorem Appended.last {row : ControlAuditRow} (h : Appended sha256Hex calls (rows ++ [row])) :
    Appended sha256Hex calls rows ∧ row.previousEventHash = previousHash rows ∧
      violatesKey rows row = false := by
  generalize heq : rows ++ [row] = all at h
  cases h with
  | nil => exact absurd heq (by simp)
  | snoc startedAt call hrows _ hkey =>
    obtain ⟨rfl, hrow⟩ := List.append_inj' heq rfl
    obtain rfl := List.singleton_inj.mp hrow
    exact ⟨hrows, rfl, hkey⟩

theorem Appended.front {rest : List ControlAuditRow} (h : Appended sha256Hex calls (rows ++ rest)) :
    Appended sha256Hex calls rows := by
  induction rest using List.reverseRecOn with
  | nil => simpa using h
  | append_singleton rest row ih =>
    rw [← List.append_assoc] at h
    exact ih h.last.1

theorem Appended.hashes_nodup (h : Appended sha256Hex calls rows) :
    (rows.map (·.eventHash)).Nodup := by
  induction rows using List.reverseRecOn with
  | nil => exact List.nodup_nil
  | append_singleton rows row ih =>
    obtain ⟨hrows, _, hkey⟩ := h.last
    rw [List.map_append, List.nodup_append]
    refine ⟨ih hrows, List.nodup_singleton _, fun a ha b hb => ?_⟩
    obtain ⟨r, hr, rfl⟩ := List.mem_map.mp ha
    obtain rfl := List.mem_singleton.mp hb
    exact (violatesKey_eq_false hkey r hr).2

theorem Appended.zeroHash_mem (h : Appended sha256Hex calls rows) (hne : rows ≠ []) :
    zeroHash ∈ rows.map (·.previousEventHash) := by
  cases rows with
  | nil => exact absurd rfl hne
  | cons first rows =>
    have hfirst : Appended sha256Hex calls ([] ++ [first]) := by
      rw [← List.singleton_append] at h
      exact h.front
    exact List.mem_cons.mpr (.inl hfirst.last.2.1.symm)

theorem InTurn.previousHash_eq {row : ControlAuditRow} (h : InTurn (rows ++ [row])) :
    previousHash rows = (rows.getLast?.map (·.eventHash)).getD zeroHash := by
  have hascending := h.ascending
  rw [List.dropLast_concat] at hascending
  rw [previousHash, latest_of_ascending hascending]

theorem InTurn.front {rest : List ControlAuditRow} (h : InTurn (rows ++ rest)) : InTurn rows := by
  have hsub : rows.dropLast.Sublist (rows ++ rest).dropLast := by
    rw [List.dropLast_append]
    split
    · exact List.Sublist.refl _
    · exact (List.dropLast_sublist rows).trans (List.sublist_append_left rows _)
  exact ⟨h.ascending.sublist hsub, fun row hrow => h.nonzero row (hsub.subset hrow)⟩

/-! ## Both directions -/

theorem Appended.previous_mem {last row : ControlAuditRow}
    (h : Appended sha256Hex calls (rows ++ [last])) (hrow : row ∈ rows ++ [last]) :
    row.previousEventHash ∈ zeroHash :: rows.map (·.eventHash) := by
  induction rows using List.reverseRecOn generalizing last with
  | nil =>
    obtain rfl := List.mem_singleton.mp hrow
    rw [h.last.2.1]
    exact previousHash_mem []
  | append_singleton front last' ih =>
    rcases List.mem_append.mp hrow with hfront | hlast
    · have hmem := ih h.last.1 hfront
      rw [List.map_append, ← List.cons_append]
      exact List.mem_append_left _ hmem
    · obtain rfl := List.mem_singleton.mp hlast
      rw [h.last.2.1]
      exact previousHash_mem _

theorem Appended.single (h : Appended sha256Hex calls rows) (hturn : InTurn rows) :
    (rows.map (·.previousEventHash)).Nodup := by
  induction rows using List.reverseRecOn with
  | nil => exact List.nodup_nil
  | append_singleton rows row ih =>
    obtain ⟨hrows, hprevious, _⟩ := h.last
    rw [List.map_append, List.nodup_append]
    refine ⟨ih hrows hturn.front, List.nodup_singleton _, fun a ha b hb => ?_⟩
    obtain rfl := List.mem_singleton.mp hb
    obtain ⟨r, hr, rfl⟩ := List.mem_map.mp ha
    show r.previousEventHash ≠ row.previousEventHash
    rw [hprevious, hturn.previousHash_eq]
    rcases List.eq_nil_or_concat rows with rfl | ⟨front, last, rfl⟩
    · exact absurd hr List.not_mem_nil
    · -- what was named before is a row in front of the last one, or none
      rw [List.concat_eq_append] at hr hrows hturn ⊢
      rw [List.getLast?_concat]
      intro heq
      have hmem := hrows.previous_mem hr
      rw [heq] at hmem
      rcases List.mem_cons.mp hmem with hzero | hfront
      · refine hturn.nonzero last ?_ hzero
        rw [List.dropLast_concat]
        exact List.mem_append_right _ List.mem_cons_self
      · obtain ⟨r', hr', hhash⟩ := List.mem_map.mp hfront
        exact (violatesKey_eq_false hrows.last.2.2 r' hr').2 hhash

theorem Appended.linearChain (h : Appended sha256Hex calls rows) (hturn : InTurn rows) :
    LinearChain rows := by
  refine ⟨fun row hrow => ?_, h.single hturn⟩
  cases rows with
  | nil => exact absurd hrow List.not_mem_nil
  | cons first rows =>
    obtain ⟨front, rest, rfl⟩ := List.append_of_mem hrow
    have hsplit : first :: (front ++ row :: rest) = (first :: front ++ [row]) ++ rest := by simp
    have hhashes := h.hashes_nodup
    rw [hsplit] at h hturn
    obtain ⟨_, hprevious, hkey⟩ := h.front.last
    rw [hturn.front.previousHash_eq] at hprevious
    obtain ⟨before, other, hother⟩ : ∃ before other, first :: front = before ++ [other] :=
      ⟨_, _, (List.dropLast_append_getLast (List.cons_ne_nil first front)).symm⟩
    rw [hother, List.getLast?_concat] at hprevious
    have hmem : other ∈ first :: front := hother ▸ List.mem_append_right _ List.mem_cons_self
    refine ⟨other, ?_, fun heq => ?_, hprevious.symm, fun other' hother' hhash => ?_⟩
    · rw [hsplit]
      exact List.mem_append_left _ (List.mem_append_left _ hmem)
    · exact (violatesKey_eq_false hkey other hmem).2 (congrArg _ heq)
    · have hmem' : other ∈ first :: (front ++ row :: rest) := by
        rw [hsplit]
        exact List.mem_append_left _ (List.mem_append_left _ hmem)
      exact List.inj_on_of_nodup_map hhashes hother' hmem' (hhash.trans hprevious)

theorem Appended.inTurn (h : Appended sha256Hex calls rows)
    (hsingle : (rows.map (·.previousEventHash)).Nodup) : InTurn rows := by
  induction rows using List.reverseRecOn with
  | nil => exact ⟨List.Pairwise.nil, fun _ hrow => absurd hrow List.not_mem_nil⟩
  | append_singleton rows row ih =>
    obtain ⟨hrows, hprevious, _⟩ := h.last
    rw [List.map_append, List.nodup_append] at hsingle
    obtain ⟨hfront, _, hne⟩ := hsingle
    have hbefore := ih hrows hfront
    have hnamed : ∀ r ∈ rows, r.previousEventHash ≠ previousHash rows := by
      intro r hr heq
      exact hne _ (List.mem_map_of_mem hr) _ (List.mem_map_of_mem List.mem_cons_self)
        (heq.trans hprevious.symm)
    rcases List.eq_nil_or_concat rows with rfl | ⟨front, last, rfl⟩
    · exact ⟨List.Pairwise.nil, fun _ hrow => absurd hrow List.not_mem_nil⟩
    · rw [List.concat_eq_append] at hrows hbefore hnamed ⊢
      have hascending := hbefore.ascending
      have hnonzero := hbefore.nonzero
      rw [List.dropLast_concat] at hascending hnonzero
      have hlatest := latest_append front last
      rw [latest_of_ascending hascending] at hlatest
      -- otherwise its successor names what it names itself
      have hlt : ∀ q, front.getLast? = some q → q.position < last.position := by
        intro q hq
        by_contra hnot
        rw [hq] at hlatest
        simp only [hnot, if_false] at hlatest
        refine hnamed last (List.mem_append_right _ List.mem_cons_self) ?_
        rw [hrows.last.2.1, previousHash, previousHash, hlatest, latest_of_ascending hascending, hq]
      have hlast : latest (front ++ [last]) = some last := by
        rw [hlatest]
        cases hq : front.getLast? with
        | none => rfl
        | some q => simp only [hlt q hq, if_true]
      refine ⟨?_, ?_⟩
      · rw [List.dropLast_concat, List.pairwise_append]
        refine ⟨hascending, List.pairwise_singleton _ _, fun r hr b hb => ?_⟩
        obtain rfl := List.mem_singleton.mp hb
        obtain ⟨front', q, rfl⟩ : ∃ front' q, front = front' ++ [q] :=
          ⟨_, _, (List.dropLast_append_getLast (List.ne_nil_of_mem hr)).symm⟩
        have hq := hlt q List.getLast?_concat
        rcases List.mem_append.mp hr with hr | hr
        · exact ((List.pairwise_append.mp hascending).2.2 r hr q List.mem_cons_self).trans hq
        · obtain rfl := List.mem_singleton.mp hr
          exact hq
      · intro r hr hzero
        rw [List.dropLast_concat, List.mem_append, List.mem_singleton] at hr
        rcases hr with hr | rfl
        · exact hnonzero r hr hzero
        · have hnames : previousHash (front ++ [r]) = zeroHash := by
            rw [previousHash, hlast]
            exact hzero
          obtain ⟨q, hq, hprev⟩ := List.mem_map.mp (hrows.zeroHash_mem (by simp))
          exact hnamed q hq (hprev.trans hnames.symm)

/-- In every interleaving of transactions that append, the log is one chain exactly in turn. -/
theorem linearChain_iff_inTurn {actions : List AuditAction}
    {s : System (List ControlAuditRow) AuditLock} (hr : auditRun sha256Hex actions = some s) :
    LinearChain s.committed ↔ InTurn s.committed := by
  have happended : Appended sha256Hex (fun _ => True) s.committed :=
    appended_of_run (fun _ _ _ _ => trivial) hr
  exact ⟨fun h => happended.inTurn h.single, fun h => happended.linearChain h⟩

end

/-! ## Three appends -/

def auditIdA : RowId := ⟨"00000000-0000-4000-8000-00000000000a", by decide⟩

def auditIdB : RowId := ⟨"00000000-0000-4000-8000-00000000000b", by decide⟩

def auditIdC : RowId := ⟨"00000000-0000-4000-8000-00000000000c", by decide⟩

def threeAppends (first second : RowId) : List AuditAction :=
  [.begin 0 10 [.onboarding ⟨first, none, none, "onboarding.review.recorded", ⟨.object [], List.nodup_nil, trivial⟩⟩,
    .onboarding ⟨second, none, none, "onboarding.decision.approved", ⟨.object [], List.nodup_nil, trivial⟩⟩],
   .begin 1 20 [.worker auditIdC "tenant.readiness.evaluated" ⟨.object [], List.nodup_nil, trivial⟩]] ++
  List.replicate 7 (.next 0) ++ List.replicate 4 (.next 1)

def threeDigests (text : Text) : Text :=
  let material (eventType previous : String) : Text :=
    stringify (auditMaterial ⟨auditIdA, none, none, eventType, ⟨.object [], List.nodup_nil, trivial⟩⟩ previous.toList)
  if text = material "onboarding.review.recorded" (String.ofList zeroHash) then
    "0895a77c8799f02e8b1e5a7d6ba77dc505502e6a44961ae7f389a6e42dde0359".toList
  else if text = material "onboarding.decision.approved"
      "0895a77c8799f02e8b1e5a7d6ba77dc505502e6a44961ae7f389a6e42dde0359" then
    "42a4ba129e6624ef745ef7d8537f0df0bb1f118c5df15b6645bad53fc58139fc".toList
  else if text = material "tenant.readiness.evaluated"
      "0895a77c8799f02e8b1e5a7d6ba77dc505502e6a44961ae7f389a6e42dde0359" then
    "439a19916773920ec0e03aae65b473124f94fdb51828e8a91e0ad0743916f7a8".toList
  else
    "92971f8bc51106441acbf7b6330635ad28f6c5cb7fbacf38cc52d122c2b5db8e".toList

/-- The second row of a transaction with the smaller id: two rows name the first one. -/
theorem auditChain_forks :
    ∃ s, auditRun threeDigests (threeAppends auditIdB auditIdA) = some s ∧
      ¬LinearChain s.committed := by
  have hnamed : (auditRun threeDigests (threeAppends auditIdB auditIdA)).map
      (fun s => decide (s.committed.map (·.previousEventHash)).Nodup) = some false := by
    decide +kernel
  obtain ⟨s, hs, hfork⟩ := Option.map_eq_some_iff.mp hnamed
  exact ⟨s, hs, fun h => of_decide_eq_false hfork h.single⟩

/-- With the ids the other way round the three rows are a chain. -/
theorem auditChain_linear :
    ∃ s, auditRun threeDigests (threeAppends auditIdA auditIdB) = some s ∧
      s.committed.length = 3 ∧ LinearChain s.committed := by
  have hturn : (auditRun threeDigests (threeAppends auditIdA auditIdB)).map (fun s =>
      (s.committed.length, decide (s.committed.dropLast.Pairwise fun a b => a.position < b.position),
        decide (∀ row ∈ s.committed.dropLast, row.eventHash ≠ zeroHash))) =
      some (3, true, true) := by
    decide +kernel
  obtain ⟨s, hs, heq⟩ := Option.map_eq_some_iff.mp hturn
  simp only [Prod.mk.injEq, decide_eq_true_eq] at heq
  exact ⟨s, hs, heq.1, (linearChain_iff_inTurn hs).mpr ⟨heq.2.1, heq.2.2⟩⟩

/-!
# Recomputing the hashes of the control-plane audit log

A verifier has the columns of a row, with a payload that lost the order of its members. The
authentication and the bootstrap of the platform hash canonical JSON, which does not depend on that
order; the onboarding and the workers hash the members in the order they were written in.
-/

structure AuditColumns where
  id : RowId
  tenantId : Option UUID
  actorId : Option UUID
  eventType : String
  payload : Json
  occurredAt : Int
  previousEventHash : Text

def ControlAuditRow.columns (row : ControlAuditRow) : AuditColumns where
  id := row.id
  tenantId := row.tenantId
  actorId := row.actorId
  eventType := row.eventType
  payload := row.payload
  occurredAt := row.occurredAt
  previousEventHash := row.previousEventHash

/-- `calls` is which appends happen. One verifier serves every run, given the digest in use. -/
def Verifiable (calls : AuditCall → Prop) : Prop :=
  ∃ recompute : (Text → Text) → AuditColumns → Text, ∀ sha256Hex actions s,
    (∀ action ∈ actions, ∀ call ∈ AuditAction.appends action, calls call) →
    auditRun sha256Hex actions = some s →
    ∀ row ∈ s.committed, row.eventHash = recompute sha256Hex row.columns

def AuditCall.isCanonical : AuditCall → Bool
  | .authentication _ | .bootstrap .. => true
  | .onboarding _ | .worker .. => false

structure SameColumns (a b : AuditCall) : Prop where
  id : a.entry.id = b.entry.id
  tenantId : a.entry.tenantId = b.entry.tenantId
  actorId : a.entry.actorId = b.entry.actorId
  eventType : a.entry.eventType = b.entry.eventType
  payload : a.entry.payload.json.stored = b.entry.payload.json.stored

/-- Both write canonical JSON, or both write the members of the payload in one order. -/
def WriteAlike (a b : AuditCall) : Prop :=
  a.isCanonical = b.isCanonical ∧
    (a.isCanonical = true ∨ a.entry.payload.json = b.entry.payload.json)

theorem AuditCall.text_of_canonical {call : AuditCall} (h : call.isCanonical = true) :
    call.text = canonicalText := by
  cases call <;> first | rfl | exact nomatch h

theorem AuditCall.text_of_not_canonical {call : AuditCall} (h : call.isCanonical = false) :
    call.text = stringify := by
  cases call <;> first | rfl | exact nomatch h

/-! ## Same columns, same text -/

theorem text_eq_of_writeAlike {a b : AuditCall} (hsame : SameColumns a b) (halike : WriteAlike a b)
    (previous : Text) :
    a.text (auditMaterial a.entry previous) = b.text (auditMaterial b.entry previous) := by
  obtain ⟨hcanonical, hpayload⟩ := halike
  cases ha : a.isCanonical with
  | true =>
    have hb := hcanonical.symm.trans ha
    have hstored : a.entry.payload.json.canonical = b.entry.payload.json.canonical := by
      rw [← Json.canonical_stored a.entry.payload.wellNamed, hsame.payload,
        Json.canonical_stored b.entry.payload.wellNamed]
    rw [AuditCall.text_of_canonical ha, AuditCall.text_of_canonical hb, canonicalText,
      canonicalText, auditMaterial, auditMaterial, hsame.tenantId, hsame.actorId, hsame.eventType]
    simp only [Json.object, List.map_cons, List.map_nil, Json.canonical, Json.canonicalMembers,
      hstored]
  | false =>
    have hb := hcanonical.symm.trans ha
    rcases hpayload with h | h
    · exact nomatch ha.symm.trans h
    · rw [AuditCall.text_of_not_canonical ha, AuditCall.text_of_not_canonical hb, auditMaterial,
        auditMaterial, hsame.tenantId, hsame.actorId, hsame.eventType, h]

theorem canonicalText_ne_stringify (a b : AuditEntry) (previous previous' : Text) :
    canonicalText (auditMaterial a previous) ≠ stringify (auditMaterial b previous') := by
  intro h
  have heq := Json.render_injective h
  rw [auditMaterial, auditMaterial, Json.object, Json.object, Json.canonical, Json.obj.injEq] at heq
  have hsorted := List.pairwise_insertionSort Json.nameLe (Json.canonicalMembers
    ([("tenantId", nullable a.tenantId), ("actorId", nullable a.actorId),
      ("eventType", .lit a.eventType), ("payload", a.payload.json),
      ("previousHash", .str previous)].map fun m => (m.1.toList, m.2)))
  rw [heq] at hsorted
  have hle := (List.pairwise_cons.mp hsorted).1 _ List.mem_cons_self
  have hnot : ¬ Json.unitsLe (Json.utf16 "tenantId".toList) (Json.utf16 "actorId".toList) = true := by
    decide
  simp only [Json.nameLe] at hle
  exact hnot hle

theorem payload_eq_of_stringify {a b : AuditEntry} {previous previous' : Text}
    (h : stringify (auditMaterial a previous) = stringify (auditMaterial b previous')) :
    a.payload.json = b.payload.json := by
  have heq := Json.render_injective h
  simp only [auditMaterial, Json.object, List.map_cons, Json.obj.injEq, List.cons.injEq,
    Prod.mk.injEq] at heq
  exact heq.2.2.2.1.2

theorem writeAlike_of_text_eq {a b : AuditCall} {previous : Text}
    (h : a.text (auditMaterial a.entry previous) = b.text (auditMaterial b.entry previous)) :
    WriteAlike a b := by
  cases ha : a.isCanonical with
  | true =>
    cases hb : b.isCanonical with
    | true => exact ⟨ha.trans hb.symm, .inl ha⟩
    | false =>
      rw [AuditCall.text_of_canonical ha, AuditCall.text_of_not_canonical hb] at h
      exact absurd h (canonicalText_ne_stringify _ _ _ _)
  | false =>
    cases hb : b.isCanonical with
    | true =>
      rw [AuditCall.text_of_not_canonical ha, AuditCall.text_of_canonical hb] at h
      exact absurd h.symm (canonicalText_ne_stringify _ _ _ _)
    | false =>
      rw [AuditCall.text_of_not_canonical ha, AuditCall.text_of_not_canonical hb] at h
      exact ⟨ha.trans hb.symm, .inr (payload_eq_of_stringify h)⟩

/-! ## Every run -/

theorem Appended.exists_call {sha256Hex : Text → Text} {calls : AuditCall → Prop}
    {rows : List ControlAuditRow} (h : Appended sha256Hex calls rows) :
    ∀ row ∈ rows, ∃ call startedAt previous, calls call ∧
      row = auditRow sha256Hex call.text startedAt call.entry previous := by
  induction h with
  | nil => exact fun row hrow => absurd hrow List.not_mem_nil
  | snoc startedAt call _ hcall _ ih =>
    intro row hrow
    rcases List.mem_append.mp hrow with hrow | hrow
    · exact ih row hrow
    · exact ⟨call, startedAt, _, hcall, List.mem_singleton.mp hrow⟩

def singleAppend (call : AuditCall) : List AuditAction :=
  [.begin 0 0 [call], .next 0, .next 0, .next 0, .next 0]

theorem auditRun_singleAppend (sha256Hex : Text → Text) (call : AuditCall) :
    ∃ s, auditRun sha256Hex (singleAppend call) = some s ∧
      s.committed = [auditRow sha256Hex call.text 0 call.entry zeroHash] := by
  cases call <;> exact ⟨_, rfl, rfl⟩

/-- The call is one of `calls`, and its row has these columns. -/
def LeftBy (calls : AuditCall → Prop) (columns : AuditColumns) (call : AuditCall) : Prop :=
  calls call ∧ columns.id = call.entry.id ∧ columns.tenantId = call.entry.tenantId ∧
    columns.actorId = call.entry.actorId ∧ columns.eventType = call.entry.eventType ∧
    columns.payload = call.entry.payload.json.stored

theorem LeftBy.sameColumns {calls : AuditCall → Prop} {columns : AuditColumns} {a b : AuditCall}
    (ha : LeftBy calls columns a) (hb : LeftBy calls columns b) : SameColumns a b where
  id := ha.2.1.symm.trans hb.2.1
  tenantId := ha.2.2.1.symm.trans hb.2.2.1
  actorId := ha.2.2.2.1.symm.trans hb.2.2.2.1
  eventType := ha.2.2.2.2.1.symm.trans hb.2.2.2.2.1
  payload := ha.2.2.2.2.2.symm.trans hb.2.2.2.2.2

theorem Verifiable.writeAlike {calls : AuditCall → Prop} (h : Verifiable calls) {a b : AuditCall}
    (ha : calls a) (hb : calls b) (hsame : SameColumns a b) : WriteAlike a b := by
  obtain ⟨recompute, hrecompute⟩ := h
  -- a digest that returns its material shows what was digested
  have htext : ∀ call, calls call → call.text (auditMaterial call.entry zeroHash) =
      recompute id (auditRow id call.text 0 call.entry zeroHash).columns := by
    intro call hcall
    obtain ⟨s, hr, hs⟩ := auditRun_singleAppend id call
    refine hrecompute id (singleAppend call) s (fun action haction c hc => ?_) hr _
      (hs ▸ List.mem_singleton.mpr rfl)
    -- only the first action appends anything
    rw [singleAppend, List.mem_cons] at haction
    rcases haction with rfl | haction
    · rw [List.mem_singleton.mp hc]
      exact hcall
    · simp only [List.mem_cons, List.not_mem_nil, or_false, or_self] at haction
      subst haction
      exact absurd hc List.not_mem_nil
  have hcolumns : (auditRow id a.text 0 a.entry zeroHash).columns =
      (auditRow id b.text 0 b.entry zeroHash).columns := by
    simp only [ControlAuditRow.columns, auditRow, hsame.id, hsame.tenantId, hsame.actorId,
      hsame.eventType, hsame.payload]
  refine @writeAlike_of_text_eq a b zeroHash ?_
  rw [htext a ha, htext b hb, hcolumns]

theorem verifiable_of_writeAlike {calls : AuditCall → Prop}
    (halike : ∀ a b, calls a → calls b → SameColumns a b → WriteAlike a b) : Verifiable calls := by
  classical
  refine ⟨fun sha256Hex columns => if h : ∃ call, LeftBy calls columns call then
    sha256Hex (h.choose.text (auditMaterial h.choose.entry columns.previousEventHash)) else [], ?_⟩
  intro sha256Hex actions s hcalls hr row hrow
  obtain ⟨call, startedAt, previous, hcall, rfl⟩ :=
    (appended_of_run hcalls hr).exists_call row hrow
  have hleaves : LeftBy calls (auditRow sha256Hex call.text startedAt call.entry previous).columns
      call := ⟨hcall, rfl, rfl, rfl, rfl, rfl⟩
  have hex : ∃ call', LeftBy calls
      (auditRow sha256Hex call.text startedAt call.entry previous).columns call' := ⟨call, hleaves⟩
  have hsame := hleaves.sameColumns hex.choose_spec
  have htext := text_eq_of_writeAlike hsame (halike _ _ hcall hex.choose_spec.1 hsame) previous
  dsimp only
  rw [dif_pos hex]
  exact congrArg sha256Hex htext

/-- One verifier serves all rows exactly when calls that leave the same columns write alike. -/
theorem verifiable_iff (calls : AuditCall → Prop) :
    Verifiable calls ↔ ∀ a b, calls a → calls b → SameColumns a b → WriteAlike a b :=
  ⟨fun h _ _ ha hb => h.writeAlike ha hb, verifiable_of_writeAlike⟩

def queuedEntry : AuditEntry where
  id := ⟨"00000000-0000-4000-8000-00000000000d", by decide⟩
  tenantId := none
  actorId := none
  eventType := "tenant.provisioning.queued"
  payload :=
    { json := .object [("applicationId", .lit "00000000-0000-4000-8000-00000000000e"),
        ("requestId", .lit "00000000-0000-4000-8000-00000000000f")]
      wellNamed := ⟨by decide, trivial, trivial, trivial⟩ }

/-- The same entry through two appenders: the rows agree in every column, and not in the hash. -/
theorem auditHashes_differ :
    ¬Verifiable fun call => call = .authentication queuedEntry ∨ call = .onboarding queuedEntry := by
  intro h
  have halike := h.writeAlike (.inl rfl) (.inr rfl) ⟨rfl, rfl, rfl, rfl, rfl⟩
  exact nomatch halike.1

end Kommunsign
