import Kommunsign.Api.Idempotency

/-!
# What the calls of a key are answered

A key has one life after another: its first call runs the operation, and until the response expires
every other call of the key is answered from it.

* `honoured_iff_unhindered` — in every interleaving of calls these are the same
* `executed_at_most_once` — and none but the first call of a key is executed
-/

namespace Kommunsign

open Infra ReadCommitted

structure KeptResponse where
  payloadSha256 : String
  response : Json
  expiresAt : Int

/--
One answer, after the ones before it: a first call is executed, a repeated one gets the kept
response, and one with another hash is refused.
-/
def serve (kept : Option KeptResponse) (answer : IdempotencyAnswer) :
    Option (Option KeptResponse) :=
  match kept.filter fun k => decide (answer.startedAt < k.expiresAt), answer.result with
  | none, .executed response =>
    some (some ⟨answer.payloadSha256, response, answer.startedAt + idempotencyValidity⟩)
  | some k, .replayed body =>
    if k.payloadSha256 = answer.payloadSha256 ∧ answer.key.scope.stored k.response = some body then
      some (some k)
    else none
  | some k, .refused .conflict =>
    if k.payloadSha256 = answer.payloadSha256 then none else some (some k)
  | _, _ => none

def Honoured (answers : List IdempotencyAnswer) : Prop :=
  (run serve none answers).isSome

instance (answers : List IdempotencyAnswer) : Decidable (Honoured answers) :=
  inferInstanceAs (Decidable (_ = true))

section

variable {α : Type}

/--
No call of the key was made after its row had expired, and if the operation's response is one that
the column does not hold, none asked for it again.
-/
def Unhindered (key : IdempotencyKey) (s : IdempotencyState α) : Prop :=
  ∀ row ∈ s.rows, row.key = key → ∀ call ∈ (s.answers.filter (·.key = key)).tail,
    call.startedAt < row.expiresAt ∧
      (row.responseBody = none → row.payloadSha256 ≠ call.payloadSha256)

end

/-! ## One key -/

theorem serve_later {row : IdempotencyRow} {response : Json} {answer : IdempotencyAnswer}
    (hbody : row.responseBody = answer.key.scope.stored response)
    (hanswer : answer.result = row.later answer.payloadSha256 answer.startedAt) :
    serve (some ⟨row.payloadSha256, response, row.expiresAt⟩) answer =
      if answer.startedAt < row.expiresAt ∧
          (row.responseBody = none → row.payloadSha256 ≠ answer.payloadSha256) then
        some (some ⟨row.payloadSha256, response, row.expiresAt⟩)
      else none := by
  unfold serve
  by_cases htime : answer.startedAt < row.expiresAt
  · rw [IdempotencyRow.later, if_pos htime, IdempotencyRow.answer] at hanswer
    have hkept : (some (⟨row.payloadSha256, response, row.expiresAt⟩ : KeptResponse)).filter
        (fun k => decide (answer.startedAt < k.expiresAt)) =
          some ⟨row.payloadSha256, response, row.expiresAt⟩ := by
      simp [Option.filter, htime]
    rw [hkept]
    by_cases hhash : row.payloadSha256 = answer.payloadSha256
    · rw [if_neg (not_not.mpr hhash)] at hanswer
      cases hresponse : row.responseBody with
      | none =>
        simp only [hresponse] at hanswer
        simp [hanswer, hhash]
      | some body =>
        simp only [hresponse] at hanswer
        simp [hanswer, hhash, ← hbody, hresponse, htime]
    · rw [if_pos hhash] at hanswer
      simp [hanswer, hhash, htime]
  · -- an expired row should count for nothing, and the insert was refused
    rw [IdempotencyRow.later, if_neg htime] at hanswer
    simp [Option.filter, htime, hanswer]

theorem run_serve_isSome {row : IdempotencyRow} {response : Json}
    {answers : List IdempotencyAnswer}
    (hbody : ∀ answer ∈ answers, row.responseBody = answer.key.scope.stored response)
    (hanswers : ∀ answer ∈ answers,
      answer.result = row.later answer.payloadSha256 answer.startedAt) :
    (run serve (some ⟨row.payloadSha256, response, row.expiresAt⟩) answers).isSome ↔
      ∀ answer ∈ answers, answer.startedAt < row.expiresAt ∧
        (row.responseBody = none → row.payloadSha256 ≠ answer.payloadSha256) := by
  induction answers with
  | nil => simp
  | cons answer answers ih =>
    rw [List.forall_mem_cons, run, serve_later (hbody answer List.mem_cons_self)
      (hanswers answer List.mem_cons_self)]
    specialize ih (fun a ha => hbody a (List.mem_cons_of_mem answer ha))
      fun a ha => hanswers a (List.mem_cons_of_mem answer ha)
    split
    · rename_i hnone
      split at hnone
      · cases hnone
      · rename_i hhindered
        simp only [Option.isSome_none, Bool.false_eq_true, false_iff]
        exact fun h => hhindered h.1
    · rename_i kept hsome
      split at hsome
      · rename_i hclear
        cases hsome
        exact ih.trans (and_iff_right hclear).symm
      · cases hsome

section

variable {α : Type}

theorem KeyState.honoured_iff {key : IdempotencyKey} {s : IdempotencyState α}
    (h : KeyState key (onKey key s)) :
    Honoured (s.answers.filter (·.key = key)) ↔ Unhindered key s := by
  have hrows : ∀ row, (row ∈ s.rows ∧ row.key = key) ↔ row ∈ (onKey key s).1 := by
    intro row
    simp [onKey]
  have hunhindered : Unhindered key s ↔ ∀ row ∈ (onKey key s).1, ∀ call ∈ (onKey key s).2.tail,
      call.startedAt < row.expiresAt ∧
        (row.responseBody = none → row.payloadSha256 ≠ call.payloadSha256) := by
    refine forall_congr' fun row => ?_
    rw [← hrows]
    exact ⟨fun h hrow => h hrow.1 hrow.2, fun h hmem hkey => h ⟨hmem, hkey⟩⟩
  have hanswers : s.answers.filter (·.key = key) = (onKey key s).2 := rfl
  have hkeys : ∀ answer ∈ (onKey key s).2, answer.key = key := by
    intro answer hanswer
    simpa using (List.mem_filter.mp hanswer).2
  rw [hunhindered, hanswers]
  generalize onKey key s = value at h hkeys
  cases h with
  | unused => simp [Honoured]
  | @used row response answers hrow hbody hexpires hlater =>
    have hfirst : serve none ⟨key, row.payloadSha256, row.createdAt, .executed response⟩ =
        some (some ⟨row.payloadSha256, response, row.expiresAt⟩) := by
      rw [hexpires]
      rfl
    rw [Honoured, run, hfirst]
    dsimp only
    rw [run_serve_isSome (fun a ha => by rw [hkeys a (List.mem_cons_of_mem _ ha), hbody]) hlater]
    simp only [List.mem_singleton, forall_eq, List.tail_cons]

/--
In every interleaving of calls, the answers of a key are as promised exactly when no call of it is
hindered by its row.
-/
theorem honoured_iff_unhindered {hash : String → Int} {rest : α}
    {actions : List (IdempotencyAction α)} {s : System (IdempotencyState α) IdempotencyLock}
    (hr : idempotencyRun hash rest actions = some s) (key : IdempotencyKey) :
    Honoured (s.committed.answers.filter (·.key = key)) ↔ Unhindered key s.committed :=
  (keyState_of_run hr key).honoured_iff

end

theorem IdempotencyRow.later_ne_executed (row : IdempotencyRow) (payloadSha256 : String)
    (startedAt : Int) (response : Json) :
    row.later payloadSha256 startedAt ≠ .executed response := by
  unfold IdempotencyRow.later IdempotencyRow.answer
  repeat' split
  all_goals exact nofun

/--
In every interleaving the first call of a key that is answered was executed, and no other one, not
even when the key has expired.
-/
theorem executed_at_most_once {α : Type} {hash : String → Int} {rest : α}
    {actions : List (IdempotencyAction α)} {s : System (IdempotencyState α) IdempotencyLock}
    (hr : idempotencyRun hash rest actions = some s) (key : IdempotencyKey)
    (hne : s.committed.answers.filter (·.key = key) ≠ []) :
    ∃ first later response, s.committed.answers.filter (·.key = key) = first :: later ∧
      first.result = .executed response ∧ ∀ call ∈ later, ∀ response',
        call.result ≠ .executed response' := by
  have h := keyState_of_run hr key
  have hanswers : s.committed.answers.filter (·.key = key) = (onKey key s.committed).2 := rfl
  rw [hanswers] at hne ⊢
  generalize onKey key s.committed = value at h hne
  cases h with
  | unused => exact absurd rfl hne
  | @used row response answers _ _ _ hlater =>
    refine ⟨_, answers, response, rfl, rfl, fun call hcall response' hexecuted => ?_⟩
    exact IdempotencyRow.later_ne_executed _ _ _ _ ((hlater call hcall).symm.trans hexecuted)

/-! ## Two calls of one key -/

/-- An upload is created, and the same request is sent again at another time. -/
def createUpload : IdempotentCall Unit where
  key := ⟨.data "00000000-0000-4000-8000-000000000001", "upload:create", "request-1"⟩
  payloadSha256 := "9f86d081884c7d659a2feaa0c55ad015a3bf4f1b2b0b822cd15d6c15b0f00a08"
  work := .respond (.object [("id", .lit "00000000-0000-4000-8000-000000000002")])

def createUploadTwice (again : Int) (statements : Nat) : List (IdempotencyAction Unit) :=
  (.begin 0 0 createUpload :: List.replicate 6 (.next 0)) ++
    (.begin 1 again createUpload :: List.replicate statements (.next 1))

def createUploadLock (_ : String) : Int := 4251363957997259327

/-- When the key has expired the second call is refused, because the old row is still there. -/
theorem createUpload_refused_after_expiry :
    ∃ s, idempotencyRun createUploadLock () (createUploadTwice 86400000 5) = some s ∧
      s.committed.answers.length = 2 ∧
      ¬Honoured (s.committed.answers.filter (·.key = createUpload.key)) := by
  have hrun : (idempotencyRun createUploadLock () (createUploadTwice 86400000 5)).map (fun s =>
      (s.committed.answers.length,
        decide (Honoured (s.committed.answers.filter (·.key = createUpload.key))))) =
      some (2, false) := by
    decide +kernel
  obtain ⟨s, hs, heq⟩ := Option.map_eq_some_iff.mp hrun
  rw [Prod.mk.injEq] at heq
  exact ⟨s, hs, heq.1, of_decide_eq_false heq.2⟩

/-- A moment earlier it gets the kept response. -/
theorem createUpload_replayed :
    ∃ s, idempotencyRun createUploadLock () (createUploadTwice 86399999 4) = some s ∧
      s.committed.answers.length = 2 ∧
      Honoured (s.committed.answers.filter (·.key = createUpload.key)) := by
  have hrun : (idempotencyRun createUploadLock () (createUploadTwice 86399999 4)).map (fun s =>
      (s.committed.answers.length, s.committed.rows.all fun row =>
        (s.committed.answers.filter (·.key = createUpload.key)).tail.all fun call =>
          decide (call.startedAt < row.expiresAt) && row.responseBody.isSome)) =
      some (2, true) := by
    decide +kernel
  obtain ⟨s, hs, heq⟩ := Option.map_eq_some_iff.mp hrun
  rw [Prod.mk.injEq] at heq
  refine ⟨s, hs, heq.1, (honoured_iff_unhindered hs createUpload.key).mpr ?_⟩
  intro row hrow _ call hcall
  have hcheck := List.all_eq_true.mp (List.all_eq_true.mp heq.2 row hrow) call hcall
  rw [Bool.and_eq_true, decide_eq_true_eq] at hcheck
  exact ⟨hcheck.1, fun hnone => absurd hcheck.2 (by simp [hnone])⟩

/-- The second call comes when the key has expired, and is refused. -/
theorem createUpload_executed_once :
    ∃ s, idempotencyRun createUploadLock () (createUploadTwice 86400000 5) = some s ∧
      ∃ first later response,
        s.committed.answers.filter (·.key = createUpload.key) = first :: later ∧
          first.result = .executed response ∧ ∀ call ∈ later, ∀ response',
            call.result ≠ .executed response' := by
  have hrun : (idempotencyRun createUploadLock () (createUploadTwice 86400000 5)).map (fun s =>
      (s.committed.answers.filter (·.key = createUpload.key)).length) = some 2 := by
    decide +kernel
  obtain ⟨s, hs, hlength⟩ := Option.map_eq_some_iff.mp hrun
  exact ⟨s, hs, executed_at_most_once hs createUpload.key (List.ne_nil_of_length_pos (by omega))⟩

end Kommunsign
