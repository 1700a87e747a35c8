import Kommunsign.Api.GallringQueue

/-!
# A gallring that is queued twice

The call takes an idempotency key and does nothing with it. A retry gets a run of its own, or is
turned down because the first run is active; either way it is not answered with that run.

* `idempotent_throughout_iff` — the one exactly under the other, in every interleaving
* `key_gets_two_runs` — a key that is used again for another case
-/

namespace Kommunsign

open Infra

namespace QueueCall

def SameKey (first later : QueueCall) : Prop :=
  first.tenantId = later.tenantId ∧ first.idempotencyKey = later.idempotencyKey

/-- The input that `payloadHash` is made of. -/
def SameRequest (first later : QueueCall) : Prop :=
  first.policyKey = later.policyKey ∧ first.caseIds = later.caseIds

instance (first later : QueueCall) : Decidable (first.SameKey later) :=
  inferInstanceAs (Decidable (_ ∧ _))

instance (first later : QueueCall) : Decidable (first.SameRequest later) :=
  inferInstanceAs (Decidable (_ ∧ _))

end QueueCall

/--
Behind a call that has got its run, the same request under the key is answered with that run, and
any other is refused.
-/
def Follows (first later : QueueAnswer) : Prop :=
  first.call.SameKey later.call → ∀ job, first.result = .ok job →
    if first.call.SameRequest later.call then
      ∃ again, later.result = .ok again ∧ again.id = job.id
    else ∃ fault, later.result = .error fault

def Idempotent (desk : GallringDesk) : Prop := desk.answers.Pairwise Follows

def RetentionData.mayGo (data : RetentionData) (policy : RetentionPolicy) (now : Int)
    (caseId : UUID) : Bool :=
  (data.cases.find? (·.id == caseId)).any fun found => found.completedAt.isSome &&
    (decideRetention policy (data.subject found) now).toOption.any (·.action != .RETAIN)

namespace QueueSession

variable (session : QueueSession) (data : RetentionData)

def Refuses : Prop :=
  match session.stage with
  | .begun => session.call.caseIds = [] ∨ data.loadPolicy session.call.policyKey = none
  | .checking policy now (caseId :: _) => data.mayGo policy now caseId = false
  | .checking policy now [] =>
    gallringJobs.onInsert data (session.plannedRun policy now data) ≠ .ok ()

def IsLast : Prop :=
  match session.stage with
  | .checking _ _ [] => True
  | .begun | .checking _ _ (_ :: _) => False

end QueueSession

/--
Once a call has got its run, another under its key comes to its end only if it asks for something
else, and a check of its own refuses it.
-/
def EndsRefused (desk : GallringDesk) : GallringDeskStep → Prop
  | .statement i => ∀ session, desk.sessions i = some session →
    ∀ first ∈ desk.answers, first.call.SameKey session.call → (∃ job, first.result = .ok job) →
      session.IsLast ∨ session.Refuses (desk.tenants session.call.tenantId) →
        session.Refuses (desk.tenants session.call.tenantId) ∧
          ¬first.call.SameRequest session.call
  | .begin .. | .disconnect _ | .other .. => True

/-! ## The next statement -/

section

variable {session : QueueSession} {data : RetentionData}

theorem requireDue_cases (policy : RetentionPolicy) (now : Int) (caseId : UUID)
    (data : RetentionData) :
    (data.mayGo policy now caseId = true ∧ requireDue policy caseId { data with clock := now } =
        .ok ((), { data with clock := now })) ∨
      data.mayGo policy now caseId = false ∧ ∃ fault,
        requireDue policy caseId { data with clock := now } = .error fault := by
  unfold requireDue RetentionData.mayGo
  rw [Transaction.read_bind]
  cases hfind : data.cases.find? (·.id == caseId) with
  | none => exact Or.inr ⟨rfl, _, rfl⟩
  | some found =>
    rw [Option.any_some]
    dsimp only
    by_cases hopen : found.completedAt.isNone = true
    · rw [if_pos hopen, Option.isSome_eq_false_iff.mpr hopen]
      exact Or.inr ⟨rfl, _, rfl⟩
    have hclosed : found.completedAt.isSome = true := by simpa [Option.isSome_iff_ne_none] using hopen
    rw [if_neg hopen, hclosed, Bool.true_and]
    have hsubject : ({ data with clock := now } : RetentionData).subject found =
        data.subject found := rfl
    rw [hsubject]
    cases hdecide : decideRetention policy (data.subject found) now with
    | error e => exact Or.inr ⟨rfl, _, rfl⟩
    | ok decision =>
      dsimp only
      by_cases hretain : decision.action = .RETAIN
      · rw [if_pos hretain]
        exact Or.inr ⟨by simp [Except.toOption, hretain], _, rfl⟩
      · rw [if_neg hretain]
        exact Or.inl ⟨by simp [Except.toOption, hretain], rfl⟩

theorem next_cases (session : QueueSession) (data : RetentionData) :
    (session.Refuses data ∧ ∃ fault, session.next data = .refused fault) ∨
      (¬session.Refuses data ∧ ¬session.IsLast ∧ ∃ stage, session.next data = .goes stage) ∨
      ¬session.Refuses data ∧ session.IsLast ∧ ∃ job data',
        session.next data = .queued job data' := by
  obtain ⟨call, startedAt, stage⟩ := session
  cases stage with
  | begun =>
    unfold QueueSession.next QueueSession.Refuses QueueSession.IsLast
    dsimp only
    by_cases hempty : call.caseIds.length = 0
    · rw [if_pos hempty]
      exact Or.inl ⟨Or.inl (List.length_eq_zero_iff.mp hempty), _, rfl⟩
    rw [if_neg hempty]
    cases hpolicy : data.loadPolicy call.policyKey with
    | none => exact Or.inl ⟨Or.inr rfl, _, rfl⟩
    | some policy =>
      refine Or.inr (Or.inl ⟨?_, not_false, _, rfl⟩)
      rintro (hnil | hnone)
      · exact hempty (congrArg List.length hnil)
      · exact nomatch hnone
  | checking policy now rest =>
    cases rest with
    | cons caseId rest =>
      unfold QueueSession.next QueueSession.Refuses QueueSession.IsLast
      dsimp only
      rcases requireDue_cases policy now caseId data with ⟨hgo, hdue⟩ | ⟨hgo, fault, hdue⟩
      · rw [hdue]
        exact Or.inr (Or.inl ⟨by simp [hgo], not_false, _, rfl⟩)
      · rw [hdue]
        exact Or.inl ⟨hgo, _, rfl⟩
    | nil =>
      unfold QueueSession.next QueueSession.Refuses QueueSession.IsLast
      dsimp only
      cases hinsert : gallringJobs.insert (QueueSession.plannedRun
          ⟨call, startedAt, .checking policy now []⟩ policy now data) data with
      | error fault =>
        refine Or.inl ⟨fun haccepted => ?_, _, rfl⟩
        have hok := (Table.insert_eq_ok (u := ())).mpr ⟨haccepted, rfl⟩
        rw [hok] at hinsert
        exact nomatch hinsert
      | ok result =>
        obtain ⟨_, data'⟩ := result
        obtain ⟨haccepted, _⟩ := Table.insert_eq_ok.mp hinsert
        exact Or.inr (Or.inr ⟨not_not_intro haccepted, trivial, _, _, rfl⟩)

end

/-! ## The next answer -/

section

variable {desk desk' : GallringDesk}

theorem idempotent_answer_iff (h : Idempotent desk) {i : Nat} {session : QueueSession}
    {result : Except RetentionFault GallringJobRow} {data : RetentionData} :
    Idempotent (desk.answer i session result data) ↔
      ∀ first ∈ desk.answers, Follows first ⟨session.call, result⟩ := by
  unfold Idempotent GallringDesk.answer
  rw [List.pairwise_append]
  constructor
  · intro hall first hfirst
    exact hall.2.2 first hfirst _ List.mem_cons_self
  · intro hall
    refine ⟨h, List.pairwise_singleton _ _, fun first hfirst later hlater => ?_⟩
    obtain rfl := List.mem_singleton.mp hlater
    exact hall first hfirst

theorem follows_refused_iff {first : QueueAnswer} {call : QueueCall} {fault : RetentionFault} :
    Follows first ⟨call, .error fault⟩ ↔ (first.call.SameKey call →
      (∃ job, first.result = .ok job) → ¬first.call.SameRequest call) := by
  unfold Follows
  constructor
  · rintro hfollows hkey ⟨job, hjob⟩ hsame
    have hanswer := hfollows hkey job hjob
    rw [if_pos hsame] at hanswer
    obtain ⟨_, hagain, _⟩ := hanswer
    exact nomatch hagain
  · intro hother hkey job hjob
    rw [if_neg (hother hkey ⟨job, hjob⟩)]
    exact ⟨fault, rfl⟩

theorem follows_queued_iff (h : AnswersRecorded desk) {first : QueueAnswer} (hfirst : first ∈ desk.answers)
    {call : QueueCall} {job : GallringJobRow}
    (haccepted : gallringJobs.onInsert (desk.tenants call.tenantId) job = .ok ()) :
    Follows first ⟨call, .ok job⟩ ↔
      (first.call.SameKey call → ¬∃ job, first.result = .ok job) := by
  unfold Follows
  constructor
  · rintro hfollows hkey ⟨earlier, hearlier⟩
    have hanswer := hfollows hkey earlier hearlier
    split at hanswer
    · obtain ⟨again, hagain, hid⟩ := hanswer
      obtain rfl := Except.ok.inj hagain
      -- the primary key of the tenant's runs
      have hmem := h first hfirst earlier hearlier
      rw [hkey.1] at hmem
      obtain ⟨row, hrow, hrowid⟩ := List.mem_map.mp hmem
      exact fresh_of_onInsert haccepted row hrow (hrowid.trans hid.symm)
    · obtain ⟨_, hfault⟩ := hanswer
      exact nomatch hfault
  · intro hnone hkey earlier hearlier
    exact absurd ⟨earlier, hearlier⟩ (hnone hkey)

theorem idempotent_step_iff (h : AnswersRecorded desk) (hidempotent : Idempotent desk)
    {i : GallringDeskStep} (hs : desk.step i = some desk') :
    Idempotent desk' ↔ EndsRefused desk i := by
  cases i with
  | begin i call =>
    simp only [GallringDesk.step] at hs
    split at hs
    · cases hs
    · cases hs
      exact iff_of_true hidempotent trivial
  | disconnect i =>
    simp only [GallringDesk.step] at hs
    split at hs
    · cases hs
    · cases hs
      exact iff_of_true hidempotent trivial
  | other tenantId step =>
    simp only [GallringDesk.step] at hs
    split at hs
    · cases hs
    · obtain ⟨data, _, rfl⟩ := Option.map_eq_some_iff.mp hs
      exact iff_of_true hidempotent trivial
  | statement i =>
    obtain ⟨session, hsession, houtcome⟩ := statement_cases hs
    have hcondition : EndsRefused desk (.statement i) ↔ ∀ first ∈ desk.answers,
        first.call.SameKey session.call → (∃ job, first.result = .ok job) →
          session.IsLast ∨ session.Refuses (desk.tenants session.call.tenantId) →
            session.Refuses (desk.tenants session.call.tenantId) ∧
              ¬first.call.SameRequest session.call := by
      constructor
      · intro hends
        exact hends session hsession
      · intro hends session' hsession'
        rw [hsession] at hsession'
        cases hsession'
        exact hends
    rw [hcondition]
    rcases houtcome with ⟨stage, hnext, rfl⟩ | ⟨fault, hnext, rfl⟩ | ⟨job, data', hnext, rfl⟩
    · -- the call goes on
      refine iff_of_true hidempotent fun first _ _ _ hends => ?_
      rcases next_cases session (desk.tenants session.call.tenantId) with
        ⟨_, _, hrefused⟩ | ⟨hpasses, hmore, _⟩ | ⟨_, _, _, _, hqueued⟩
      · rw [hnext] at hrefused
        cases hrefused
      · exact (hends.elim hmore hpasses).elim
      · rw [hnext] at hqueued
        cases hqueued
    · -- the call is refused
      rw [idempotent_answer_iff hidempotent]
      refine forall₂_congr fun first _ => ?_
      rw [follows_refused_iff]
      have hrefuses : session.Refuses (desk.tenants session.call.tenantId) := by
        rcases next_cases session (desk.tenants session.call.tenantId) with
          ⟨hrefuses, _⟩ | ⟨_, _, _, hgoes⟩ | ⟨_, _, _, _, hqueued⟩
        · exact hrefuses
        · rw [hnext] at hgoes
          cases hgoes
        · rw [hnext] at hqueued
          cases hqueued
      exact forall₂_congr fun _ _ =>
        ⟨fun hother _ => ⟨hrefuses, hother⟩, fun hends => (hends (Or.inr hrefuses)).2⟩
    · -- the call has a run of its own
      rw [idempotent_answer_iff hidempotent]
      refine forall₂_congr fun first hfirst => ?_
      obtain ⟨policy, now, _, _, haccepted, _⟩ := next_eq_queued hnext
      rw [follows_queued_iff h hfirst haccepted]
      rcases next_cases session (desk.tenants session.call.tenantId) with
        ⟨_, _, hrefused⟩ | ⟨_, _, _, hgoes⟩ | ⟨hpasses, hlast, _⟩
      · rw [hnext] at hrefused
        cases hrefused
      · rw [hnext] at hgoes
        cases hgoes
      · constructor
        · intro hnone hkey hrun
          exact absurd hrun (hnone hkey)
        · intro hends hkey hrun
          exact hpasses (hends hkey hrun (Or.inl hlast)).1

end

/--
In every run the answers under a key have the effect of one call exactly if, behind a call that has
got its run, only calls for something else come to an end, and their own checks refuse them.
-/
theorem idempotent_throughout_iff {tenants : UUID → RetentionData}
    {steps : List GallringDeskStep} {desk : GallringDesk}
    (h : run GallringDesk.step (GallringDesk.start tenants) steps = some desk) :
    Throughout GallringDesk.step Idempotent (GallringDesk.start tenants) steps ↔
      Meets GallringDesk.step EndsRefused (GallringDesk.start tenants) steps := by
  have hinv : ∀ desk i desk', AnswersRecorded desk → GallringDesk.step desk i = some desk' →
      AnswersRecorded desk' := fun _ _ _ hrecorded hs => hrecorded.step hs
  have hstep : ∀ desk i desk', AnswersRecorded desk → Idempotent desk →
      GallringDesk.step desk i = some desk' → (Idempotent desk' ↔ EndsRefused desk i) :=
    fun _ _ _ hrecorded hidempotent hs => idempotent_step_iff hrecorded hidempotent hs
  have hrecorded : AnswersRecorded (GallringDesk.start tenants) :=
    fun _ hanswer => absurd hanswer List.not_mem_nil
  exact throughout_iff_meets hinv hstep hrecorded List.Pairwise.nil h

/-! ## A key that is used again -/

namespace GallringDesk

def deletionPolicy : RetentionPolicy where
  policyKey := "p"
  version := 1
  retentionClass := .business_data
  mode := .delete_after_period
  periodDays := some 1
  active := true
  instructionReference := none

def twoCases : RetentionData where
  tenantId := "t"
  clock := 1000000000
  policies := [⟨"p", 1, deletionPolicy, true⟩]
  cases := [⟨"a", "completed", some 0⟩, ⟨"b", "completed", some 0⟩, ⟨"c", "active", none⟩]
  legalHolds := []
  archiveExports := []
  jobs := []
  reports := []
  executions := []
  documents := []
  versions := []
  packages := []
  packageFiles := []
  processorReports := []
  versionReferences := []
  messages := []
  objects := []

/-- A call for one case under the key `k`. -/
def callFor (caseId gallringJobId : UUID) : QueueCall :=
  ⟨"t", "u", "p", [caseId], "k", "h", gallringJobId⟩

def whole (i : Nat) (call : QueueCall) : List GallringDeskStep :=
  .begin i call :: List.replicate (call.caseIds.length + 2) (.statement i)

def keyUsedTwice : List GallringDeskStep := whole 0 (callFor "a" "1") ++ whole 1 (callFor "b" "2")

def openCaseRefused : List GallringDeskStep :=
  whole 0 (callFor "a" "1") ++ [.begin 1 (callFor "c" "2"), .statement 1, .statement 1]

def atStart : GallringDesk := start fun _ => twoCases

end GallringDesk

instance {result : Except RetentionFault Unit} : Decidable (result ≠ .ok ()) :=
  match result with
  | .error _ => isTrue nofun
  | .ok () => isFalse fun h => h rfl

instance (session : QueueSession) (data : RetentionData) : Decidable (session.Refuses data) :=
  match session with
  | ⟨call, _, .begun⟩ =>
    inferInstanceAs (Decidable (call.caseIds = [] ∨ data.loadPolicy call.policyKey = none))
  | ⟨_, _, .checking policy now (caseId :: _)⟩ =>
    inferInstanceAs (Decidable (data.mayGo policy now caseId = false))
  | ⟨call, startedAt, .checking policy now []⟩ =>
    inferInstanceAs (Decidable (gallringJobs.onInsert data (QueueSession.plannedRun
      ⟨call, startedAt, .checking policy now []⟩ policy now data) ≠ .ok ()))

instance (session : QueueSession) : Decidable session.IsLast :=
  match session with
  | ⟨_, _, .begun⟩ => isFalse not_false
  | ⟨_, _, .checking _ _ (_ :: _)⟩ => isFalse not_false
  | ⟨_, _, .checking _ _ []⟩ => isTrue trivial

instance {result : Except RetentionFault GallringJobRow} : Decidable (∃ job, result = .ok job) :=
  match result with
  | .error _ => isFalse fun ⟨_, h⟩ => Except.noConfusion rfl rfl (heq_of_eq h)
  | .ok job => isTrue ⟨job, rfl⟩

instance (desk : GallringDesk) (i : GallringDeskStep) : Decidable (EndsRefused desk i) :=
  match i with
  | .begin .. | .disconnect _ | .other .. => isTrue trivial
  | .statement i =>
    match hsession : desk.sessions i with
    | none => isTrue fun _ h => nomatch hsession.symm.trans h
    | some session =>
      decidable_of_iff (∀ first ∈ desk.answers, first.call.SameKey session.call →
          (∃ job, first.result = .ok job) →
            session.IsLast ∨ session.Refuses (desk.tenants session.call.tenantId) →
              session.Refuses (desk.tenants session.call.tenantId) ∧
                ¬first.call.SameRequest session.call)
        ⟨fun hends _ h => Option.some.inj (hsession.symm.trans h) ▸ hends,
          fun hends => hends session hsession⟩

theorem idempotent_throughout_iff_openCaseRefused :
    Throughout GallringDesk.step Idempotent GallringDesk.atStart GallringDesk.openCaseRefused := by
  obtain ⟨desk, hdesk⟩ :
      ∃ desk, run GallringDesk.step GallringDesk.atStart GallringDesk.openCaseRefused = some desk :=
    Option.isSome_iff_exists.mp (by decide +kernel)
  exact (idempotent_throughout_iff hdesk).mpr (by decide +kernel)

/-- Two calls under one key, with a run for each. -/
theorem key_gets_two_runs : ∃ desk,
    run GallringDesk.step GallringDesk.atStart GallringDesk.keyUsedTwice = some desk ∧
      (desk.tenants "t").jobs.map (·.id) = ["1", "2"] ∧
      ¬Throughout GallringDesk.step Idempotent GallringDesk.atStart GallringDesk.keyUsedTwice := by
  have hrun : ∃ desk ∈ run GallringDesk.step GallringDesk.atStart GallringDesk.keyUsedTwice,
      (desk.tenants "t").jobs.map (·.id) = ["1", "2"] ∧
        (desk.answers.map fun answer => (answer.call, answer.result.toOption.map (·.id))) =
          [(GallringDesk.callFor "a" "1", some "1"), (GallringDesk.callFor "b" "2", some "2")] := by
    decide +kernel
  obtain ⟨desk, hdesk, hjobs, hanswers⟩ := hrun
  refine ⟨desk, hdesk, hjobs, fun hthroughout => ?_⟩
  have hidempotent : Idempotent desk := hthroughout.last hdesk
  obtain ⟨first, later, hboth⟩ := List.length_eq_two.mp (by simpa using congrArg List.length hanswers)
  unfold Idempotent at hidempotent
  rw [hboth] at hanswers hidempotent
  simp only [List.map_cons, List.map_nil, List.cons.injEq, Prod.mk.injEq, and_true,
    Option.map_eq_some_iff, toOption_eq_some] at hanswers
  obtain ⟨⟨hfirst, job, hjob, _⟩, hlater, job', hjob', _⟩ := hanswers
  have hfollows := List.rel_of_pairwise_cons hidempotent (List.mem_singleton_self later)
  unfold Follows at hfollows
  rw [hfirst, hlater] at hfollows
  -- the later call asks for another case, and is not refused
  have hfault := hfollows (by decide) job hjob
  rw [if_neg (by decide)] at hfault
  obtain ⟨fault, hrefused⟩ := hfault
  rw [hjob'] at hrefused
  exact nomatch hrefused

end Kommunsign
