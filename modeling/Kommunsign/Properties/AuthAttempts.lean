import Mathlib.Data.Finset.Card
import Mathlib.Order.Interval.Finset.Nat
import Kommunsign.Control.AuthRateLimit
import Kommunsign.Infra.Transaction

/-!
# How many attempts at authentication are let through

The attempts of a bucket are counted one after another, and the row that each one gets says how
many of its window there were before it. The user agent is a part of what names the bucket.

* `limitsAttempts_agent` — it holds of the attempts of one client with one user agent
* `not_limitsAttempts_client` — and not of those of one client
-/

namespace Kommunsign.AuthRateLimit

open Infra

/-! ## One upsert -/

/-- The row of an earlier attempt: of an earlier window, or of the same one with a lower number. -/
def Precedes (earlier later : AuthRateLimitBucket) : Prop :=
  earlier.windowStartedAt + fifteenMinutes < later.windowStartedAt ∨
    earlier.windowStartedAt = later.windowStartedAt ∧ earlier.attempts < later.attempts

theorem Precedes.trans {a b c : AuthRateLimitBucket} (hab : Precedes a b) (hbc : Precedes b c) :
    Precedes a c := by
  unfold Precedes at *
  omega

section Upsert

variable {now : ℕ} {maximum : ℤ} {old : AuthRateLimitBucket}

theorem upsertBucket_cases (now : ℕ) (maximum : ℤ) (old : AuthRateLimitBucket) :
    old.windowStartedAt + fifteenMinutes < now ∧
        (upsertBucket now maximum (some old)).windowStartedAt = now ∧
        (upsertBucket now maximum (some old)).attempts = 1 ∨
      now ≤ old.windowStartedAt + fifteenMinutes ∧
        (upsertBucket now maximum (some old)).windowStartedAt = old.windowStartedAt ∧
        (upsertBucket now maximum (some old)).attempts = old.attempts + 1 := by
  simp only [upsertBucket]
  by_cases h : old.windowStartedAt < now - fifteenMinutes
  · left
    rw [if_pos h, if_pos h]
    exact ⟨by omega, rfl, rfl⟩
  · right
    rw [if_neg h, if_neg h]
    exact ⟨by omega, rfl, rfl⟩

theorem precedes_upsertBucket : Precedes old (upsertBucket now maximum (some old)) := by
  unfold Precedes
  rcases upsertBucket_cases now maximum old with
    ⟨h, hwindow, _⟩ | ⟨_, hwindow, hattempts⟩ <;> omega

theorem startedAt_le_upsertBucket (row : Option AuthRateLimitBucket) :
    now ≤ (upsertBucket now maximum row).windowStartedAt + fifteenMinutes := by
  cases row with
  | none => exact Nat.le_add_right now fifteenMinutes
  | some old =>
    rcases upsertBucket_cases now maximum old with
      ⟨_, hwindow, _⟩ | ⟨h, hwindow, _⟩ <;> omega

theorem attempts_upsertBucket_pos (row : Option AuthRateLimitBucket) :
    0 < (upsertBucket now maximum row).attempts := by
  cases row with
  | none => exact Nat.one_pos
  | some old =>
    rcases upsertBucket_cases now maximum old with
      ⟨_, _, hattempts⟩ | ⟨_, _, hattempts⟩ <;> omega

theorem blockedUntil_upsertBucket {blockEnd : ℕ} (hblock : old.blockedUntil = some blockEnd)
    (h : now < blockEnd) : (upsertBucket now maximum (some old)).blockedUntil = some blockEnd := by
  simp only [upsertBucket, hblock]
  exact if_pos (by simpa using h)

theorem blockedUntil_upsertBucket_eq_some {row : Option AuthRateLimitBucket} {blockEnd : ℕ}
    (h : (upsertBucket now maximum row).blockedUntil = some blockEnd) :
    now < blockEnd ∧ ((∃ old, row = some old ∧ old.blockedUntil = some blockEnd) ∨
      blockEnd = now + fifteenMinutes ∧ maximum < (upsertBucket now maximum row).attempts) := by
  cases row with
  | none => cases h
  | some old =>
    simp only [upsertBucket] at h
    by_cases hkept : (old.blockedUntil.any fun b => decide (now < b)) = true
    · rw [if_pos hkept] at h
      rw [h] at hkept
      exact ⟨by simpa using hkept, Or.inl ⟨old, rfl, h⟩⟩
    · rw [if_neg hkept] at h
      by_cases hnew : now - fifteenMinutes ≤ old.windowStartedAt ∧ maximum < old.attempts + 1
      · rw [if_pos hnew] at h
        obtain rfl : now + fifteenMinutes = blockEnd := Option.some.inj h
        refine ⟨by unfold fifteenMinutes; omega, Or.inr ⟨rfl, ?_⟩⟩
        rcases upsertBucket_cases now maximum old with
          ⟨hpast, _, _⟩ | ⟨_, _, hattempts⟩ <;> omega
      · rw [if_neg hnew] at h
        cases h

theorem isSome_blockedUntil_upsertBucket {row : Option AuthRateLimitBucket} (hpos : 0 < maximum)
    (h : maximum < (upsertBucket now maximum row).attempts) :
    ∃ blockEnd, (upsertBucket now maximum row).blockedUntil = some blockEnd := by
  cases row with
  | none =>
    -- the first attempt is not beyond it
    have hone : (upsertBucket now maximum none).attempts = 1 := rfl
    omega
  | some old =>
    by_cases hkept : (old.blockedUntil.any fun b => decide (now < b)) = true
    · obtain ⟨blockEnd, hblock, hlt⟩ := (Option.any_eq_true _ _).mp hkept
      exact ⟨blockEnd, blockedUntil_upsertBucket hblock (of_decide_eq_true hlt)⟩
    · rcases upsertBucket_cases now maximum old with
        ⟨_, _, hattempts⟩ | ⟨hle, _, hattempts⟩
      · omega
      · refine ⟨now + fifteenMinutes, ?_⟩
        simp only [upsertBucket]
        rw [if_neg hkept, if_pos (by omega)]

end Upsert

/-! ## The attempts of a bucket -/

/-- Attempts, the latest first, each counted on the row that the one before it left. -/
def Recorded : List CountedAttempt → Prop
  | [] => True
  | c :: earlier =>
    c.row = upsertBucket c.startedAt c.request.maximumAttempts (earlier.head?.map (·.row)) ∧
      Recorded earlier

theorem Recorded.pairwise {counted : List CountedAttempt} (h : Recorded counted) :
    counted.Pairwise fun c e => Precedes e.row c.row := by
  induction counted with
  | nil => exact List.Pairwise.nil
  | cons c earlier ih =>
    obtain ⟨hrow, hearlier⟩ := h
    refine List.pairwise_cons.mpr ⟨fun e he => ?_, ih hearlier⟩
    cases earlier with
    | nil => cases he
    | cons d rest =>
      have hd : Precedes d.row c.row := by
        rw [hrow]
        exact precedes_upsertBucket
      rcases List.mem_cons.mp he with rfl | he
      · exact hd
      · exact ((List.pairwise_cons.mp (ih hearlier)).1 e he).trans hd

theorem Recorded.precedes {counted : List CountedAttempt} (h : Recorded counted)
    (hposition : counted.Pairwise fun c e => e.position < c.position) {e c : CountedAttempt}
    (he : e ∈ counted) (hc : c ∈ counted) (hlt : e.position < c.position) :
    Precedes e.row c.row := by
  induction counted with
  | nil => cases he
  | cons a rest ih =>
    obtain ⟨hhead, htail⟩ := List.pairwise_cons.mp hposition
    rcases List.mem_cons.mp hc with rfl | hcr
    · rcases List.mem_cons.mp he with rfl | her
      · exact absurd hlt (Nat.lt_irrefl _)
      · exact (List.pairwise_cons.mp h.pairwise).1 e her
    · rcases List.mem_cons.mp he with rfl | her
      · exact absurd hlt (Nat.lt_asymm (hhead c hcr))
      · exact ih h.2 htail her hcr

theorem Recorded.row_eq {counted : List CountedAttempt} (h : Recorded counted) :
    ∀ c ∈ counted, ∃ row, c.row = upsertBucket c.startedAt c.request.maximumAttempts row := by
  induction counted with
  | nil => exact fun c hc => nomatch hc
  | cons c earlier ih =>
    intro e he
    rcases List.mem_cons.mp he with rfl | he
    · exact ⟨_, h.1⟩
    · exact ih h.2 e he

theorem Recorded.attempts_eq {c : CountedAttempt} {earlier : List CountedAttempt}
    (h : Recorded (c :: earlier)) :
    c.row.attempts = ((c :: earlier).filter fun e =>
      e.row.windowStartedAt = c.row.windowStartedAt).length := by
  induction earlier generalizing c with
  | nil =>
    have hone : c.row.attempts = 1 := congrArg (·.attempts) h.1
    simp [hone]
  | cons d rest ih =>
    have hd := ih h.2
    have hpairwise := h.pairwise
    obtain ⟨hrow, -⟩ := h
    rw [List.filter_cons_of_pos (by simp), List.length_cons]
    rcases upsertBucket_cases c.startedAt c.request.maximumAttempts d.row with ⟨hpast, hwindow, hattempts⟩ | ⟨_, hwindow, hattempts⟩
    · -- a new window: all the others are of earlier ones
      have hnone : (d :: rest).filter (fun e =>
          e.row.windowStartedAt = c.row.windowStartedAt) = [] := by
        refine List.filter_eq_nil_iff.mpr fun e he => ?_
        have hprecedes : Precedes e.row d.row ∨ e.row = d.row := by
          rcases List.mem_cons.mp he with rfl | he
          · exact Or.inr rfl
          · exact Or.inl ((List.pairwise_cons.mp (List.pairwise_cons.mp hpairwise).2).1 e he)
        have hlt : e.row.windowStartedAt < c.row.windowStartedAt := by
          rw [hrow]
          change e.row.windowStartedAt < (upsertBucket _ _ (some d.row)).windowStartedAt
          rw [hwindow]
          rcases hprecedes with hprecedes | heq
          · unfold Precedes at hprecedes
            omega
          · rw [heq]
            omega
        simpa using hlt.ne
      rw [hnone, hrow]
      exact hattempts
    · have hsame : c.row.windowStartedAt = d.row.windowStartedAt := by
        rw [hrow]
        exact hwindow
      rw [hsame, ← hd, hrow]
      exact hattempts

theorem Recorded.attempts_eq_of_mem {counted : List CountedAttempt} (h : Recorded counted)
    (hposition : counted.Pairwise fun c e => e.position < c.position) {c : CountedAttempt}
    (hc : c ∈ counted) :
    c.row.attempts = (counted.filter fun e =>
      e.position ≤ c.position ∧ e.row.windowStartedAt = c.row.windowStartedAt).length := by
  induction counted with
  | nil => cases hc
  | cons d earlier ih =>
    obtain ⟨hhead, htail⟩ := List.pairwise_cons.mp hposition
    rcases List.mem_cons.mp hc with rfl | hc
    · rw [h.attempts_eq]
      refine congrArg List.length (List.filter_congr fun e he => ?_)
      have hle : e.position ≤ c.position := by
        rcases List.mem_cons.mp he with rfl | he
        · exact le_rfl
        · exact (hhead e he).le
      simp [hle]
    · have hlt := hhead c hc
      rw [List.filter_cons_of_neg (by simp; omega)]
      exact ih h.2 htail hc

theorem Recorded.length_filter_le {counted : List CountedAttempt} (h : Recorded counted)
    (window n : ℕ) :
    (counted.filter fun c => c.row.windowStartedAt = window ∧ c.row.attempts ≤ n).length ≤ n := by
  have hmem : ∀ c ∈ counted.filter fun c => c.row.windowStartedAt = window ∧ c.row.attempts ≤ n,
      c ∈ counted ∧ c.row.windowStartedAt = window ∧ c.row.attempts ≤ n := fun c hc => by
    simpa using List.mem_filter.mp hc
  have hnodup : ((counted.filter fun c =>
      c.row.windowStartedAt = window ∧ c.row.attempts ≤ n).map (·.row.attempts)).Nodup := by
    refine List.pairwise_map.mpr ((h.pairwise.filter _).imp_of_mem fun {c e} hc he hprecedes => ?_)
    have hwindow := (hmem c hc).2.1.trans (hmem e he).2.1.symm
    unfold Precedes at hprecedes
    omega
  rw [← List.length_map (fun c : CountedAttempt => c.row.attempts),
    ← List.toFinset_card_of_nodup hnodup]
  refine (Finset.card_le_card (t := Finset.Icc 1 n) fun number hnumber => ?_).trans (by simp)
  obtain ⟨c, hc, rfl⟩ := List.mem_map.mp (List.mem_toFinset.mp hnumber)
  obtain ⟨hcounted, _, hle⟩ := hmem c hc
  obtain ⟨row, hrow⟩ := h.row_eq c hcounted
  have hpos : 0 < c.row.attempts := by
    rw [hrow]
    exact attempts_upsertBucket_pos row
  exact Finset.mem_Icc.mpr ⟨hpos, hle⟩

/-! ## Blocks -/

section Blocks

variable {counted : List CountedAttempt}

theorem Recorded.blockedUntil_eq (h : Recorded counted)
    (hposition : counted.Pairwise fun c e => e.position < c.position) {i j : CountedAttempt}
    (hi : i ∈ counted) (hj : j ∈ counted) (hij : i.position < j.position) {blockEnd : ℕ}
    (hblock : i.row.blockedUntil = some blockEnd)
    (htime : ∀ c ∈ counted, c.position ≤ j.position → c.startedAt < blockEnd) :
    j.row.blockedUntil = some blockEnd := by
  induction counted generalizing j with
  | nil => cases hi
  | cons c earlier ih =>
    obtain ⟨hhead, htail⟩ := List.pairwise_cons.mp hposition
    -- the attempt that was blocked is not the last one
    have hmem : i ∈ earlier := by
      rcases List.mem_cons.mp hi with rfl | hi
      · rcases List.mem_cons.mp hj with rfl | hj
        · omega
        · have := hhead j hj
          omega
      · exact hi
    rcases List.mem_cons.mp hj with rfl | hj
    · cases earlier with
      | nil => cases hmem
      | cons d rest =>
        have hd : d.row.blockedUntil = some blockEnd := by
          rcases List.mem_cons.mp hmem with rfl | hi
          · exact hblock
          · have hlt := hhead d List.mem_cons_self
            refine ih h.2 htail hmem List.mem_cons_self ((List.pairwise_cons.mp htail).1 i hi)
              fun e he hposition => ?_
            exact htime e (List.mem_cons_of_mem _ he) (by omega)
        rw [h.1]
        exact blockedUntil_upsertBucket hd (htime _ List.mem_cons_self le_rfl)
    · exact ih h.2 htail hmem hj hij fun e he => htime e (List.mem_cons_of_mem _ he)

theorem Recorded.exists_opener (h : Recorded counted)
    (hposition : counted.Pairwise fun c e => e.position < c.position) {i : CountedAttempt}
    (hi : i ∈ counted) {blockEnd : ℕ} (hblock : i.row.blockedUntil = some blockEnd) :
    ∃ opener ∈ counted, opener.position ≤ i.position ∧
      opener.request.maximumAttempts < opener.row.attempts ∧
      blockEnd = opener.startedAt + fifteenMinutes := by
  induction counted generalizing i with
  | nil => cases hi
  | cons c earlier ih =>
    obtain ⟨hhead, htail⟩ := List.pairwise_cons.mp hposition
    rcases List.mem_cons.mp hi with rfl | hi
    · rw [h.1] at hblock
      rcases (blockedUntil_upsertBucket_eq_some hblock).2 with ⟨old, hold, hkept⟩ | ⟨hend, hlt⟩
      · obtain ⟨d, hd, rfl⟩ := Option.map_eq_some_iff.mp hold
        have hmem : d ∈ earlier := List.mem_of_head? hd
        obtain ⟨opener, hopener, hle, hrest⟩ := ih h.2 htail hmem hkept
        have := hhead d hmem
        exact ⟨opener, List.mem_cons_of_mem _ hopener, by omega, hrest⟩
      · rw [← h.1] at hlt
        exact ⟨i, List.mem_cons_self, le_rfl, hlt, hend⟩
    · obtain ⟨opener, hopener, hrest⟩ := ih h.2 htail hi hblock
      exact ⟨opener, List.mem_cons_of_mem _ hopener, hrest⟩

end Blocks

/-! ## Every state of a run -/

structure AuthLimiter.WellTimed (platform : Platform) (s : AuthLimiter) : Prop where
  begun : ∀ a ∈ s.begun, a.startedAt ≤ s.clock ∧ bucketKey platform a.request = .ok a.key
  counted : ∀ c ∈ s.counted, c.startedAt ≤ s.clock ∧ c.position < s.counted.length ∧
    bucketKey platform c.request = .ok c.key
  position : s.counted.Pairwise fun c e => e.position < c.position
  perm : (s.undecided ++ s.decided.map (·.counted)).Perm s.counted
  decided : ∀ d ∈ s.decided,
    d.result = AuthRateLimit.decideAttempt d.decidedAt d.counted.request.maximumAttempts
      d.counted.key d.counted.row ∧
    ∀ c ∈ s.counted, c.position ≤ d.counted.position → c.startedAt ≤ d.decidedAt

def AuthLimiter.ofBucket (s : AuthLimiter) (key : BucketKey) : List CountedAttempt :=
  s.counted.filter fun c => c.key = key

def AuthLimiter.IsRecorded (s : AuthLimiter) (key : BucketKey) : Prop :=
  Recorded (s.ofBucket key) ∧ s.buckets key = (s.ofBucket key).head?.map (·.row)

section Steps

variable {platform : Platform} {s s' : AuthLimiter}

theorem wellTimed_empty : emptyLimiter.WellTimed platform where
  begun _ h := nomatch h
  counted _ h := nomatch h
  position := List.Pairwise.nil
  perm := List.Perm.nil
  decided _ h := nomatch h

theorem AuthLimiter.WellTimed.countAttempt (h : s.WellTimed platform) {n : ℕ}
    {attempt : BegunAttempt} (hn : s.begun[n]? = some attempt) :
    (s.countAttempt n attempt).WellTimed platform where
  begun a ha := h.begun a (List.mem_of_mem_eraseIdx ha)
  counted c hc := by
    obtain ⟨htime, hkey⟩ := h.begun attempt (List.mem_of_getElem? hn)
    rcases List.mem_cons.mp hc with rfl | hc
    · exact ⟨htime, Nat.lt_succ_self _, hkey⟩
    · obtain ⟨htime, hposition, hkey⟩ := h.counted c hc
      exact ⟨htime, Nat.lt_succ_of_lt hposition, hkey⟩
  position := List.pairwise_cons.mpr ⟨fun c hc => (h.counted c hc).2.1, h.position⟩
  perm := h.perm.cons _
  decided d hd := by
    obtain ⟨hresult, htime⟩ := h.decided d hd
    refine ⟨hresult, fun c hc hle => ?_⟩
    rcases List.mem_cons.mp hc with rfl | hc
    · -- the new attempt comes after every one that is decided
      have hmem : d.counted ∈ s.counted :=
        h.perm.mem_iff.mp (List.mem_append_right _ (List.mem_map_of_mem hd))
      exact absurd hle (Nat.not_le_of_lt (h.counted _ hmem).2.1)
    · exact htime c hc hle

theorem AuthLimiter.WellTimed.decideAttempt (h : s.WellTimed platform) {n : ℕ}
    {counted : CountedAttempt} (hn : s.undecided[n]? = some counted) :
    (s.decideAttempt n counted).WellTimed platform where
  begun := h.begun
  counted := h.counted
  position := h.position
  perm := by
    obtain ⟨hlt, heq⟩ := List.getElem?_eq_some_iff.mp hn
    have hundecided : (counted :: s.undecided.eraseIdx n).Perm s.undecided := by
      rw [← heq]
      exact List.getElem_cons_eraseIdx_perm hlt
    refine List.Perm.trans ?_ h.perm
    refine List.Perm.trans ?_ (hundecided.append_right _)
    exact List.perm_middle
  decided d hd := by
    rcases List.mem_cons.mp hd with rfl | hd
    · exact ⟨rfl, fun c hc _ => (h.counted c hc).1⟩
    · exact h.decided d hd

theorem AuthLimiter.WellTimed.step (h : s.WellTimed platform) {label : LimiterStep}
    (hstep : limiterStep platform s label = some s') : s'.WellTimed platform := by
  cases label with
  | elapse time =>
    obtain rfl := Option.some.inj hstep
    exact ⟨fun a ha => ⟨(h.begun a ha).1.trans (Nat.le_add_right _ _), (h.begun a ha).2⟩,
      fun c hc => ⟨(h.counted c hc).1.trans (Nat.le_add_right _ _), (h.counted c hc).2⟩,
      h.position, h.perm, h.decided⟩
  | begin request =>
    simp only [limiterStep] at hstep
    cases hkey : bucketKey platform request with
    | error e =>
      rw [hkey] at hstep
      obtain rfl := Option.some.inj hstep
      exact h
    | ok key =>
      rw [hkey] at hstep
      obtain rfl := Option.some.inj hstep
      refine ⟨fun a ha => ?_, h.counted, h.position, h.perm, h.decided⟩
      rcases List.mem_cons.mp ha with rfl | ha
      · exact ⟨le_rfl, hkey⟩
      · exact h.begun a ha
  | count n =>
    obtain ⟨attempt, hn, rfl⟩ := Option.map_eq_some_iff.mp hstep
    exact h.countAttempt hn
  | decide n =>
    obtain ⟨counted, hn, rfl⟩ := Option.map_eq_some_iff.mp hstep
    exact h.decideAttempt hn
  | clear key =>
    obtain rfl := Option.some.inj hstep
    exact ⟨h.begun, h.counted, h.position, h.perm, h.decided⟩

theorem AuthLimiter.IsRecorded.step {key : BucketKey} (h : s.IsRecorded key) {label : LimiterStep}
    (hlabel : label ≠ .clear key) (hstep : limiterStep platform s label = some s') :
    s'.IsRecorded key := by
  cases label with
  | elapse time =>
    obtain rfl := Option.some.inj hstep
    exact h
  | begin request =>
    simp only [limiterStep] at hstep
    split at hstep <;> obtain rfl := Option.some.inj hstep <;> exact h
  | count n =>
    obtain ⟨attempt, hn, rfl⟩ := Option.map_eq_some_iff.mp hstep
    by_cases hkey : attempt.key = key
    · subst hkey
      have hbucket : (s.countAttempt n attempt).ofBucket attempt.key =
          _ :: s.ofBucket attempt.key := List.filter_cons_of_pos (by simp)
      unfold AuthLimiter.IsRecorded
      rw [hbucket]
      have hrow := congrArg (upsertBucket attempt.startedAt attempt.request.maximumAttempts) h.2
      exact ⟨⟨hrow, h.1⟩, Function.update_self attempt.key _ s.buckets⟩
    · have hbucket : (s.countAttempt n attempt).ofBucket key = s.ofBucket key :=
        List.filter_cons_of_neg (by simpa using hkey)
      unfold AuthLimiter.IsRecorded
      rw [hbucket]
      exact ⟨h.1, (Function.update_of_ne (Ne.symm hkey) _ s.buckets).trans h.2⟩
  | decide n =>
    obtain ⟨counted, hn, rfl⟩ := Option.map_eq_some_iff.mp hstep
    exact h
  | clear other =>
    obtain rfl := Option.some.inj hstep
    have hne : key ≠ other := fun heq => hlabel (heq ▸ rfl)
    unfold AuthLimiter.IsRecorded
    exact ⟨h.1, (Function.update_of_ne hne none s.buckets).trans h.2⟩

theorem wellTimed_and_isRecorded_of_run {steps : List LimiterStep} {key : BucketKey}
    (hsteps : .clear key ∉ steps) (hrun : run (limiterStep platform) emptyLimiter steps = some s) :
    s.WellTimed platform ∧ s.IsRecorded key := by
  have hlabels : Meets (limiterStep platform) (fun _ label => label ≠ .clear key) emptyLimiter
      steps :=
    meets_of_labels (· ≠ LimiterStep.clear key) (fun _ hmem heq => hsteps (heq ▸ hmem)) emptyLimiter
  have hkeeps : ∀ (s : AuthLimiter) label s', s.WellTimed platform ∧ s.IsRecorded key →
      label ≠ .clear key → limiterStep platform s label = some s' →
      s'.WellTimed platform ∧ s'.IsRecorded key :=
    fun _ _ _ h hlabel hstep => ⟨h.1.step hstep, h.2.step hlabel hstep⟩
  exact run_invariant_of_meets hkeeps ⟨wellTimed_empty, trivial, rfl⟩ hlabels hrun

end Steps

/-! ## The limit on the attempts of a group -/

section Limits

variable {γ : Type} [DecidableEq γ]

/-- The attempts of a group that are let through, of those of one window with such a maximum. -/
def AuthLimiter.letThrough (s : AuthLimiter) (group : LimitedRequest → γ) (g : γ) (window : ℕ)
    (maximum : ℤ) : List DecidedAttempt :=
  s.decided.filter fun d => d.result.isOk ∧ group d.counted.request = g ∧
    d.counted.row.windowStartedAt = window ∧ d.counted.request.maximumAttempts ≤ maximum

/--
`atMost` is the bound for any window, `windows` what a window is, `blocks` the blocking period of an
attempt that is refused, and `counted` the exact number.
-/
structure AuthLimiter.IsLimited (s : AuthLimiter) (group : LimitedRequest → γ) (g : γ) : Prop where
  atMost : ∀ window maximum,
    (s.letThrough group g window maximum).length ≤ Int.toNat maximum
  windows : ∀ c ∈ s.counted, group c.request = g →
    c.startedAt ≤ c.row.windowStartedAt + fifteenMinutes ∧
    ∀ e ∈ s.counted, group e.request = g → e.position < c.position →
      e.row.windowStartedAt = c.row.windowStartedAt ∨
        e.row.windowStartedAt + fifteenMinutes < c.row.windowStartedAt
  blocks : ∀ refused ∈ s.decided, group refused.counted.request = g →
    refused.result = .error "AUTH_RATE_LIMITED" → 0 < refused.counted.request.maximumAttempts →
    ∃ opener ∈ s.counted, opener.key = refused.counted.key ∧
      opener.position ≤ refused.counted.position ∧
      opener.request.maximumAttempts < opener.row.attempts ∧
      refused.counted.startedAt < opener.startedAt + fifteenMinutes ∧
      ∀ further ∈ s.decided, group further.counted.request = g →
        refused.counted.position < further.counted.position →
        further.decidedAt < opener.startedAt + fifteenMinutes →
        further.result = .error "AUTH_RATE_LIMITED"
  counted : ∀ c ∈ s.counted, group c.request = g →
    c.row.attempts = (s.counted.filter fun e => e.key = c.key ∧ e.position ≤ c.position ∧
      e.row.windowStartedAt = c.row.windowStartedAt).length

/-- No attempt of the group is successful: nothing clears a bucket that it is counted in. -/
def IsUnsuccessful (platform : Platform) (group : LimitedRequest → γ) (g : γ)
    (steps : List LimiterStep) : Prop :=
  ∀ key, .clear key ∈ steps → ∀ request, group request = g → bucketKey platform request ≠ .ok key

/-- The attempts of every group are limited in every run, whatever else there is in it. -/
def LimitsAttempts (platform : Platform) (group : LimitedRequest → γ) : Prop :=
  ∀ steps s, run (limiterStep platform) emptyLimiter steps = some s →
    ∀ g, IsUnsuccessful platform group g steps → s.IsLimited group g

end Limits

def clientOf (platform : Platform) (request : LimitedRequest) :
    AuthAction × Option Text × Option Text :=
  (request.action, (normalizeIp platform.unicode request.metadata.ipAddress).toOption,
    request.email)

def agentOf (platform : Platform) (request : LimitedRequest) :
    (AuthAction × Option Text × Option Text) × Option Units :=
  (clientOf platform request, (userAgentPart request.metadata).toOption)

/-! ## The decision of an attempt -/

section Decisions

variable {clock : ℕ} {maximum : ℤ} {key : BucketKey} {row : AuthRateLimitBucket}

theorem attempts_le_of_isOk (h : (decideAttempt clock maximum key row).isOk = true) :
    (row.attempts : ℤ) ≤ maximum := by
  unfold decideAttempt at h
  split at h
  · cases h
  · rename_i hnot
    exact not_lt.mp fun hlt => hnot (Or.inr hlt)

theorem decideAttempt_of_blocked {blockEnd : ℕ} (hblock : row.blockedUntil = some blockEnd)
    (h : clock < blockEnd) :
    decideAttempt clock maximum key row = .error "AUTH_RATE_LIMITED" := by
  unfold decideAttempt
  rw [if_pos (Or.inl (by simpa [hblock] using h))]
  rfl

theorem blocked_or_beyond_of_error {e : String}
    (h : decideAttempt clock maximum key row = .error e) :
    (∃ blockEnd, row.blockedUntil = some blockEnd) ∨ maximum < row.attempts := by
  unfold decideAttempt at h
  split at h
  · rename_i hrefused
    rcases hrefused with hblocked | hbeyond
    · obtain ⟨blockEnd, hblock, -⟩ := (Option.any_eq_true _ _).mp hblocked
      exact Or.inl ⟨blockEnd, hblock⟩
    · exact Or.inr hbeyond
  · cases h

end Decisions

/-! ## The attempts of one client with one user agent -/

section Agents

variable {platform : Platform} {γ : Type} [DecidableEq γ] {group : LimitedRequest → γ} {g : γ}
  {s : AuthLimiter}

theorem AuthLimiter.WellTimed.length_letThrough_le (h : s.WellTimed platform) {key : BucketKey}
    (hrecorded : s.IsRecorded key)
    (hkey : ∀ c ∈ s.counted, group c.request = g → c.key = key) (window : ℕ) (maximum : ℤ) :
    (s.letThrough group g window maximum).length ≤ maximum.toNat := by
  refine le_trans ?_ (hrecorded.1.length_filter_le window maximum.toNat)
  have hdecided : (s.decided.map (·.counted)).Subperm s.counted :=
    (List.sublist_append_right s.undecided _).subperm.trans h.perm.subperm
  have hthrough : ((s.letThrough group g window maximum).map (·.counted)).Subperm s.counted :=
    (List.filter_sublist.map _).subperm.trans hdecided
  have hfilter := (hthrough.filter (fun c => decide (c.key = key))).filter
    (fun c => decide (c.row.windowStartedAt = window ∧ c.row.attempts ≤ maximum.toNat))
  have hall : ∀ c ∈ (s.letThrough group g window maximum).map (·.counted),
      c.key = key ∧ c.row.windowStartedAt = window ∧ c.row.attempts ≤ maximum.toNat := by
    intro c hc
    obtain ⟨d, hd, rfl⟩ := List.mem_map.mp hc
    obtain ⟨hmem, hd⟩ := List.mem_filter.mp hd
    obtain ⟨hok, hgroup, hwindow, hmaximum⟩ := of_decide_eq_true hd
    rw [(h.decided d hmem).1] at hok
    have hle := attempts_le_of_isOk hok
    exact ⟨hkey _ (hdecided.subset (List.mem_map_of_mem hmem)) hgroup, hwindow, by omega⟩
  rw [List.filter_eq_self.mpr fun c hc => decide_eq_true (hall c hc).1,
    List.filter_eq_self.mpr fun c hc => decide_eq_true (hall c hc).2] at hfilter
  rw [← List.length_map (fun d : DecidedAttempt => d.counted)]
  exact hfilter.length_le

theorem AuthLimiter.WellTimed.isLimited (h : s.WellTimed platform)
    (hrecorded : ∀ c ∈ s.counted, group c.request = g → s.IsRecorded c.key)
    (hkey : ∀ c ∈ s.counted, group c.request = g →
      ∀ e ∈ s.counted, group e.request = g → e.key = c.key) : s.IsLimited group g := by
  have hposition : ∀ key, (s.ofBucket key).Pairwise fun c e => e.position < c.position :=
    fun key => h.position.filter _
  have hbucket : ∀ {c e : CountedAttempt}, e ∈ s.counted → e.key = c.key →
      e ∈ s.ofBucket c.key := fun he hk => List.mem_filter.mpr ⟨he, decide_eq_true hk⟩
  have hdecided : ∀ d ∈ s.decided, d.counted ∈ s.counted := fun d hd =>
    h.perm.mem_iff.mp (List.mem_append_right _ (List.mem_map_of_mem hd))
  refine ⟨fun window maximum => ?_, fun c hc hg => ⟨?_, fun e he hge hlt => ?_⟩,
    fun refused hrefused hg hresult hpos => ?_, fun c hc hg => ?_⟩
  · by_cases hany : ∃ c ∈ s.counted, group c.request = g
    · obtain ⟨c, hc, hg⟩ := hany
      exact h.length_letThrough_le (hrecorded c hc hg) (hkey c hc hg) window maximum
    · -- there is no attempt of the group at all
      have hnone : s.letThrough group g window maximum = [] :=
        List.filter_eq_nil_iff.mpr fun d hd hlet =>
          hany ⟨d.counted, hdecided d hd, (of_decide_eq_true hlet).2.1⟩
      rw [hnone]
      exact Nat.zero_le _
  · obtain ⟨row, hrow⟩ := (hrecorded c hc hg).1.row_eq c (hbucket hc rfl)
    rw [hrow]
    exact startedAt_le_upsertBucket row
  · have hmem := hbucket (c := c) he (hkey c hc hg e he hge)
    have hprecedes :=
      (hrecorded c hc hg).1.precedes (hposition c.key) hmem (hbucket hc rfl) hlt
    unfold Precedes at hprecedes
    omega
  · have hmem := hdecided refused hrefused
    have hrec := (hrecorded _ hmem hg).1
    have hin := hbucket (c := refused.counted) hmem rfl
    obtain ⟨row, hrow⟩ := hrec.row_eq _ hin
    obtain ⟨blockEnd, hblock⟩ : ∃ blockEnd, refused.counted.row.blockedUntil = some blockEnd := by
      rcases blocked_or_beyond_of_error ((h.decided refused hrefused).1.symm.trans hresult) with
        hblocked | hbeyond
      · exact hblocked
      · rw [hrow] at hbeyond ⊢
        exact isSome_blockedUntil_upsertBucket hpos hbeyond
    obtain ⟨opener, hopener, hle, hbeyond, rfl⟩ := hrec.exists_opener (hposition _) hin hblock
    obtain ⟨hcounted, hopenerKey⟩ := List.mem_filter.mp hopener
    refine ⟨opener, hcounted, of_decide_eq_true hopenerKey, hle, hbeyond, ?_,
      fun further hfurther hgf hlt htime => ?_⟩
    · rw [hrow] at hblock
      exact (blockedUntil_upsertBucket_eq_some hblock).1
    · -- whatever is counted up to the further attempt began before it was decided
      have hfurtherMem := hdecided further hfurther
      have hblocked := hrec.blockedUntil_eq (hposition _) hin
        (hbucket hfurtherMem (hkey _ hmem hg _ hfurtherMem hgf)) hlt hblock fun c hc hle =>
          ((h.decided further hfurther).2 c (List.mem_filter.mp hc).1 hle).trans_lt htime
      rw [(h.decided further hfurther).1]
      exact decideAttempt_of_blocked hblocked htime
  · rw [(hrecorded c hc hg).1.attempts_eq_of_mem (hposition _) (hbucket hc rfl)]
    unfold AuthLimiter.ofBucket
    rw [List.filter_filter]
    refine congrArg List.length (List.filter_congr fun e _ => ?_)
    simp only [Bool.decide_and]
    exact Bool.and_comm _ _

theorem limitsAttempts_of_bucketKey
    (hgroup : ∀ a b key, group a = group b → bucketKey platform a = .ok key →
      bucketKey platform b = .ok key) : LimitsAttempts platform group := by
  intro steps s hrun g hunsuccessful
  have hclear : ∀ c ∈ s.counted, bucketKey platform c.request = .ok c.key →
      group c.request = g → LimiterStep.clear c.key ∉ steps :=
    fun c _ hkey hg hmem => hunsuccessful c.key hmem c.request hg hkey
  -- whatever buckets are cleared, the times are those of the attempts
  have htimed : s.WellTimed platform :=
    run_invariant (fun _ _ _ (h : AuthLimiter.WellTimed _ _) hstep => h.step hstep)
      wellTimed_empty hrun
  refine htimed.isLimited (fun c hc hg => ?_) fun c hc hg e he hge => ?_
  · exact (wellTimed_and_isRecorded_of_run (hclear c hc (htimed.counted c hc).2.2 hg) hrun).2
  · have hsame := hgroup e.request c.request e.key (hge.trans hg.symm) (htimed.counted e he).2.2
    exact Except.ok.inj (hsame.symm.trans (htimed.counted c hc).2.2)

/-- The attempts at an action, of one client with one user agent, are limited. -/
theorem limitsAttempts_agent (platform : Platform) : LimitsAttempts platform (agentOf platform) := by
  refine limitsAttempts_of_bucketKey fun a b key hgroup hkey => ?_
  obtain ⟨hclient, hagent⟩ := Prod.mk.inj hgroup
  obtain ⟨haction, hclient⟩ := Prod.mk.inj hclient
  obtain ⟨hip, hemail⟩ := Prod.mk.inj hclient
  obtain ⟨ipAddress, ha, hkey⟩ := except_bind_eq_ok.mp hkey
  obtain ⟨userAgent, hu, hkey⟩ := except_bind_eq_ok.mp hkey
  have hb : normalizeIp platform.unicode b.metadata.ipAddress = .ok ipAddress := by
    rw [ha] at hip
    exact toOption_eq_some.mp hip.symm
  have hub : userAgentPart b.metadata = .ok userAgent := by
    rw [hu] at hagent
    exact toOption_eq_some.mp hagent.symm
  refine except_bind_eq_ok.mpr ⟨ipAddress, hb, except_bind_eq_ok.mpr ⟨userAgent, hub, ?_⟩⟩
  rw [← haction, ← hemail]
  exact hkey

end Agents

/-! ## The attempts of one client -/

/-- A platform whose digests tell two texts apart that end in different letters. -/
private def samplePlatform : Platform where
  sha256Hex text := List.replicate 64 (if text.getLast? = (unitsOf "b").head? then '1' else '0')
  unicode value := value

private def sampleRequest (userAgent : String) : LimitedRequest :=
  ⟨.login, ⟨"192.0.2.1".toList, unitsOf userAgent⟩, some "anna@example.se".toList, 1⟩

private def sampleSteps : List LimiterStep :=
  [.begin (sampleRequest "a"), .count 0, .decide 0, .begin (sampleRequest "b"), .count 0, .decide 0]

/-- Two attempts of one client are let through in one window where the maximum is one. -/
theorem not_limitsAttempts_client :
    ¬ ∀ platform, LimitsAttempts platform (clientOf platform) := by
  intro h
  obtain ⟨s, hs⟩ : ∃ s, run (limiterStep samplePlatform) emptyLimiter sampleSteps = some s :=
    Option.isSome_iff_exists.mp (by decide +kernel)
  have hlength : (run (limiterStep samplePlatform) emptyLimiter sampleSteps).map (fun s =>
      (s.letThrough (clientOf samplePlatform) (clientOf samplePlatform (sampleRequest "a")) 0
        1).length) = some 2 := by decide +kernel
  have hnone : IsUnsuccessful samplePlatform (clientOf samplePlatform)
      (clientOf samplePlatform (sampleRequest "a")) sampleSteps := by
    intro key hmem
    simp [sampleSteps] at hmem
  have hle := (h samplePlatform sampleSteps s hs _ hnone).atMost 0 1
  rw [hs] at hlength
  have htwo : (s.letThrough (clientOf samplePlatform) (clientOf samplePlatform (sampleRequest "a")) 0
    1).length = 2 := Option.some.inj hlength
  rw [htwo] at hle
  exact absurd hle (by decide)

end Kommunsign.AuthRateLimit
