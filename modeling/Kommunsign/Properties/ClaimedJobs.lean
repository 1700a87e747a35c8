import Kommunsign.Worker.ClaimCall

/-!
# Whether a claiming worker knows what it holds

A tenant's rows are leased and committed before they are turned into jobs, and before the next
tenant's are claimed. Where one of these throws, the caller gets nothing, and the leases stay.

* `Untroubled` — the turns in which nothing throws behind a lease
* `returnsWhatItLeases_iff` — the one exactly under the other, for every call
* `unknown_type_loses_others` — a job of a type that the worker does not know
-/

namespace Kommunsign

open Infra

def QueuedJob.claimNumber (row : QueuedJob) : (Id × Id) × Nat := (row.key, row.attempts)

def ReturnedJob.claimNumber (job : ReturnedJob) : (Id × Id) × Nat :=
  ((job.tenantId, job.id), job.attempts)

/--
The caller gets exactly the jobs that the call has leased. Where the call throws for a row, it has
leased no other; where it throws for anything else, it has leased none.
-/
def ReturnsWhatItLeases (result : ClaimResult) : Prop :=
  match result.answer with
  | .ok jobs => jobs.map (·.claimNumber) = result.leased.map (·.claimNumber)
  | .error failure => ∀ row ∈ result.leased, failure.row? = some row.key

def QueuedJob.isReadable (row : QueuedJob) : Bool :=
  (supportedTypes.find? fun type => type.name == row.jobType).isSome && row.availableAt.isSome

namespace ClaimCall

variable (call : ClaimCall)

/--
The turns to come, with the jobs held before them: a transaction fails or goes unanswered only
while no job is leased, and a row is unreadable only when no other job is.
-/
def Untroubled : List (Id × Visit) → List QueuedJob → List (Id × Id) → Prop
  | [], _, _ => True
  | (tenantId, visit) :: rest, table, held =>
    call.limit ≤ held.length ∨
      let table := visit.others table
      match visit.outcome with
      | .failed => held = []
      | .unanswered locked =>
        held = [] ∧ (call.statement table visit.now tenantId held.length locked).2 = []
      | .answered locked =>
        let (table', claimed) := call.statement table visit.now tenantId held.length locked
        if claimed.all (·.isReadable) then
          Untroubled rest table' (held ++ claimed.map (·.key))
        else ∃ row ∈ claimed, row.isReadable = false ∧
          ∀ key ∈ held ++ claimed.map (·.key), key = row.key

/-- Nothing is leased before the arguments are checked and the tenants are read. -/
def IsUntroubled (table : List QueuedJob) : Prop :=
  validateClaim call.workerId call.limit call.leaseSeconds = .ok () →
    ∀ tenantIds ∈ call.tenantIds, call.Untroubled (call.visits tenantIds) table []

end ClaimCall

/-! ## Rows as jobs -/

section Rows

variable {row : QueuedJob} {rows : List QueuedJob}

theorem returnedJob_cases (row : QueuedJob) :
    (row.isReadable = true ∧ ∃ job, returnedJob row = .ok job ∧
        job.claimNumber = row.claimNumber) ∨
      row.isReadable = false ∧ ∃ failure, returnedJob row = .error failure ∧
        failure.row? = some row.key := by
  unfold returnedJob durableJobType QueuedJob.isReadable
  cases hfound : supportedTypes.find? fun type => type.name == row.jobType with
  | none => exact Or.inr ⟨rfl, _, rfl, rfl⟩
  | some type =>
    cases hdate : row.availableAt with
    | none => exact Or.inr ⟨rfl, _, rfl, rfl⟩
    | some date => exact Or.inl ⟨rfl, _, rfl, rfl⟩

theorem mapM_returnedJob_cases (rows : List QueuedJob) :
    (rows.all (·.isReadable) = true ∧ ∃ jobs, rows.mapM returnedJob = .ok jobs ∧
        jobs.map (·.claimNumber) = rows.map (·.claimNumber)) ∨
      rows.all (·.isReadable) = false ∧ ∃ row ∈ rows, row.isReadable = false ∧
        ∃ failure, rows.mapM returnedJob = .error failure ∧ failure.row? = some row.key := by
  induction rows with
  | nil => exact Or.inl ⟨rfl, [], rfl, rfl⟩
  | cons row rows ih =>
    rw [List.mapM_cons, List.all_cons]
    rcases returnedJob_cases row with ⟨hreadable, job, hjob, hnumber⟩ |
      ⟨hunreadable, failure, hfailure, hrow⟩
    · rw [hreadable, Bool.true_and, hjob]
      rcases ih with ⟨hall, jobs, hjobs, hnumbers⟩ |
        ⟨hall, bad, hbad, hunreadable, failure, hfailure, hrow⟩
      · refine Or.inl ⟨hall, job :: jobs, ?_, ?_⟩
        · rw [hjobs]
          rfl
        · rw [List.map_cons, List.map_cons, hnumber, hnumbers]
      · refine Or.inr ⟨hall, bad, List.mem_cons_of_mem _ hbad, hunreadable, failure, ?_, hrow⟩
        rw [hfailure]
        rfl
    · rw [hunreadable, Bool.false_and, hfailure]
      exact Or.inr ⟨rfl, row, List.mem_cons_self, hunreadable, failure, rfl, hrow⟩

end Rows

/-! ## The turns -/

section Turns

variable {call : ClaimCall} {table : List QueuedJob}

theorem leasedRows_statement {now : Time} {tenantId claimed : Nat} {locked : List Id} :
    leasedRows table (call.statement table now tenantId claimed locked).1 =
      (call.statement table now tenantId claimed locked).2 :=
  leasedRows_claimQueuedJobs

theorem returns_database_iff {leased : List QueuedJob} :
    ReturnsWhatItLeases ⟨table, leased, .error .database⟩ ↔ leased.map (·.key) = [] := by
  rw [List.map_eq_nil_iff, List.eq_nil_iff_forall_not_mem]
  exact forall₂_congr fun _ _ => iff_of_false nofun not_false

theorem returns_row_iff {leased : List QueuedJob} {failure : ClaimFailure} {key : Id × Id}
    (h : failure.row? = some key) :
    ReturnsWhatItLeases ⟨table, leased, .error failure⟩ ↔
      ∀ other ∈ leased.map (·.key), other = key := by
  rw [List.forall_mem_map]
  refine forall₂_congr fun row _ => ?_
  rw [h, Option.some.injEq, eq_comm]

theorem visitTenants_iff (visits : List (Id × Visit)) (table leased : List QueuedJob)
    (jobs : List ReturnedJob)
    (hjobs : jobs.map (·.claimNumber) = leased.map (·.claimNumber)) :
    ReturnsWhatItLeases (call.visitTenants visits table leased jobs) ↔
      call.Untroubled visits table (leased.map (·.key)) := by
  induction visits generalizing table leased jobs with
  | nil => exact iff_of_true hjobs trivial
  | cons turn rest ih =>
    obtain ⟨tenantId, visit⟩ := turn
    have hlength : jobs.length = leased.length := by
      have h := congrArg List.length hjobs
      rwa [List.length_map, List.length_map] at h
    unfold ClaimCall.visitTenants ClaimCall.Untroubled
    rw [List.length_map, hlength]
    by_cases hlimit : call.limit ≤ leased.length
    · rw [if_pos hlimit]
      exact iff_of_true hjobs (Or.inl hlimit)
    · rw [if_neg hlimit, or_iff_right hlimit]
      dsimp only
      cases visit.outcome with
      | failed => exact returns_database_iff
      | unanswered locked =>
        dsimp only
        rw [returns_database_iff, leasedRows_statement, List.map_append, List.append_eq_nil_iff,
          List.map_eq_nil_iff (f := QueuedJob.key)]
        exact and_congr_right fun _ => by rw [List.map_eq_nil_iff]
      | answered locked =>
        dsimp only
        rw [leasedRows_statement]
        generalize hstatement : call.statement (visit.others table) visit.now tenantId
          leased.length locked = statement
        rcases mapM_returnedJob_cases statement.2 with ⟨hall, returned, hreturned, hnumbers⟩ |
          ⟨hall, bad, hbad, hunreadable, failure, hfailure, hrow⟩
        · -- the tenant's jobs go to the ones the call returns
          rw [if_pos hall, hreturned]
          dsimp only
          rw [ih, List.map_append]
          rw [List.map_append, List.map_append, hjobs, hnumbers]
        · rw [if_neg (by rw [hall]; exact Bool.false_ne_true), hfailure]
          dsimp only
          rw [returns_row_iff hrow, List.map_append]
          constructor
          · exact fun h => ⟨bad, hbad, hunreadable, h⟩
          · -- all rows have one key, which is then that of the row thrown for
            rintro ⟨row, -, -, h⟩ other hother
            have hkey : bad.key = row.key := by
              refine h bad.key (List.mem_append_right _ ?_)
              exact List.mem_map_of_mem hbad
            rw [hkey]
            exact h other hother

end Turns

/-- A call returns what it leases exactly when it is untroubled. -/
theorem returnsWhatItLeases_iff (call : ClaimCall) (table : List QueuedJob) :
    ReturnsWhatItLeases (call.claim table) ↔ call.IsUntroubled table := by
  unfold ClaimCall.claim ClaimCall.IsUntroubled
  cases hvalid : validateClaim call.workerId call.limit call.leaseSeconds with
  | error failure => exact iff_of_true (fun _ h => nomatch h) nofun
  | ok u =>
    cases htenants : call.tenantIds with
    | none => exact iff_of_true (fun _ h => nomatch h) fun _ _ h => nomatch h
    | some tenantIds =>
      dsimp only
      rw [visitTenants_iff _ table [] [] rfl]
      constructor
      · rintro h _ _ hmem
        cases hmem
        exact h
      · exact fun h => h rfl tenantIds rfl

/-! ## A job of an unknown type -/

namespace ClaimCall

def queuedJob (id : Id) (jobType : String) : QueuedJob where
  tenantId := platformJobTenantId
  id := id
  jobType := jobType.toList
  payload := .obj []
  idempotencyKey := "key".toList
  status := .pending
  availableAt := some 0
  attempts := 9
  maximumAttempts := 10
  leaseOwner := none
  leaseExpiresAt := none
  createdAt := id

def undisturbed : ClaimCall where
  workerId := "worker-1".toList
  limit := 10
  leaseSeconds := 60
  tenantIds := some []
  visit _ := ⟨id, 1000, .answered []⟩

end ClaimCall

/-- An unknown type costs the job before it its last attempt. -/
theorem unknown_type_loses_others : ¬ReturnsWhatItLeases (ClaimCall.undisturbed.claim
    [ClaimCall.queuedJob 1 "EMAIL_SEND", ClaimCall.queuedJob 2 "SMS_SEND"]) := by
  intro h
  have hanswer : (ClaimCall.undisturbed.claim [ClaimCall.queuedJob 1 "EMAIL_SEND",
      ClaimCall.queuedJob 2 "SMS_SEND"]).answer =
        .error (.WORKER_JOB_TYPE_UNSUPPORTED (0, 2) "SMS_SEND".toList) := by decide +kernel
  unfold ReturnsWhatItLeases at h
  rw [hanswer] at h
  have hall := h ((ClaimCall.queuedJob 1 "EMAIL_SEND").lease "worker-1".toList 61000)
    (by decide +kernel)
  exact absurd hall (by decide)

end Kommunsign
