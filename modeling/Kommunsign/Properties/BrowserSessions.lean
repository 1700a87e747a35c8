import Kommunsign.Control.Sessions

/-!
# What the session of a browser vouches for

* `closed_session_refused` — a session that is revoked or expired is not accepted again
* `mutating_request_csrf` — a request that changes something carries the CSRF token issued last
* `accepted_identity` — a request acts for the subject whose login made the session, on its host
* `sessions_after_revocation` — what can still be open once an account is disabled
* `session_stays_open` — an open session stays open, whoever logs out
-/

namespace Kommunsign.BrowserSessions

open Infra

section

variable {platform : Platform} {s s' : SessionSystem} {rows rows' : List HostBoundSession}
  {now : ℕ} {i : SessionStep} {past steps : List SessionStep}

/-! ## The statements -/

/-- What binds a session, and stays as it is. -/
structure SessionBinding where
  tokenHash : Text
  tenantId : Option UUID
  boundary : SessionBoundary
  hostname : Text
  subjectId : String
  expiresAt : ℕ

def HostBoundSession.binding (row : HostBoundSession) : SessionBinding :=
  ⟨row.tokenHash, row.tenantId, row.boundary, row.hostname, row.subjectId, row.expiresAt⟩

/-- What a step leaves of a session. -/
structure HostBoundSession.Continues (i : SessionStep) (row row' : HostBoundSession) : Prop where
  binding : row'.binding = row.binding
  revokedAt : row'.revokedAt = row.revokedAt ∨
    row'.revokedAt.isSome ∧ ∃ tenantId ∈ row.tenantId, i = .revoke tenantId row.subjectId

theorem HostBoundSession.Continues.refl (row : HostBoundSession) : row.Continues i row :=
  ⟨rfl, Or.inl rfl⟩

theorem HostBoundSession.Continues.tokenHash {row row' : HostBoundSession}
    (h : row.Continues i row') : row'.tokenHash = row.tokenHash :=
  congrArg SessionBinding.tokenHash h.binding

theorem isLive_iff {row : HostBoundSession} :
    row.isLive now = true ↔ row.revokedAt = none ∧ now < row.expiresAt := by
  rw [HostBoundSession.isLive, Bool.and_eq_true, Option.isNone_iff_eq_none, decide_eq_true_iff]

/-- Time does not open a session. -/
theorem HostBoundSession.Continues.isLive {row row' : HostBoundSession} {later : ℕ}
    (h : row.Continues i row') (hle : now ≤ later) (hlive : row'.isLive later = true) :
    row.isLive now = true := by
  rw [isLive_iff] at hlive ⊢
  obtain ⟨hopen, hlater⟩ := hlive
  have hexpires : row'.expiresAt = row.expiresAt := congrArg SessionBinding.expiresAt h.binding
  refine ⟨?_, hle.trans_lt (hexpires ▸ hlater)⟩
  rcases h.revokedAt with heq | ⟨hsome, -⟩
  · rw [← heq, hopen]
  · rw [hopen] at hsome
    cases hsome

theorem insertSession_eq_some {row : HostBoundSession}
    (h : insertSession now row rows = some rows') :
    (∀ r ∈ rows, r.tokenHash ≠ row.tokenHash) ∧ rows' = rows ++ [row] := by
  unfold insertSession at h
  split at h
  · cases h
  · rename_i hnew
    split at h
    · cases h
    · refine ⟨fun r hr heq => hnew (List.any_eq_true.mpr ⟨r, hr, beq_iff_eq.mpr heq⟩), ?_⟩
      exact (Option.some.inj h).symm

theorem updateReturning_eq_some {columns : List String} {p : HostBoundSession → Bool}
    {f : HostBoundSession → HostBoundSession}
    (h : updateReturning columns p f rows = some rows') :
    (∃ row ∈ rows, p row = true) ∧ rows' = assign p f rows := by
  unfold updateReturning at h
  split at h
  · rename_i hany
    exact ⟨List.any_eq_true.mp (Bool.and_eq_true _ _ ▸ hany).2, (Option.some.inj h).symm⟩
  · cases h

theorem session_eq_some {text origin csrf : Text}
    (h : session platform now text origin csrf rows = some rows') :
    ∃ token hostname, validateSessionToken text = some token ∧
      (∃ row ∈ rows, row.isFound now (platform.sha256Hex token) hostname = true) ∧
      rows' = assign (·.isFound now (platform.sha256Hex token) hostname)
        (fun row => { row with
          lastSeenAt := some now
          csrfTokenHash := some (platform.sha256Hex csrf)
          sessionVersion := row.sessionVersion + 1 }) rows := by
  unfold session at h
  obtain ⟨token, htoken, h⟩ := Option.bind_eq_some_iff.mp h
  obtain ⟨hostname, -, h⟩ := Option.bind_eq_some_iff.mp h
  exact ⟨token, hostname, htoken, updateReturning_eq_some h⟩

/-- The statement fails on the column `id`. -/
theorem logout_eq_none (text origin csrf : Text) :
    logout platform now text origin csrf rows = none := by
  unfold logout
  refine Option.eq_none_iff_forall_ne_some.mpr fun rows' h => ?_
  obtain ⟨token, -, h⟩ := Option.bind_eq_some_iff.mp h
  obtain ⟨hostname, -, h⟩ := Option.bind_eq_some_iff.mp h
  obtain ⟨csrf', -, h⟩ := Option.bind_eq_some_iff.mp h
  rw [updateReturning, if_neg (by simp [hostBoundSessionColumns])] at h
  cases h

theorem isFound_iff {row : HostBoundSession} {tokenHash hostname : Text} :
    row.isFound now tokenHash hostname = true ↔
      row.tokenHash = tokenHash ∧ row.hostname = hostname ∧ row.isLive now = true := by
  simp only [HostBoundSession.isFound, Bool.and_eq_true, beq_iff_eq, and_assoc]

theorem browserSession_eq_ok {boundary : SessionBoundary} {request : BrowserRequest}
    {answer : BrowserSessionIdentity × List HostBoundSession}
    (h : browserSession platform now boundary request rows = .ok (some answer)) :
    ∃ token hostname row, request.sessionToken = some token ∧
      request.origin.bind (originHostname platform) = some hostname ∧ row ∈ rows ∧
      isMatched platform now boundary token hostname request row = true ∧
      answer = (⟨row.subjectId, row.tenantId, row.boundary⟩,
        assign (isMatched platform now boundary token hostname request) (·.touch now) rows) := by
  unfold browserSession at h
  cases htoken : request.sessionToken.filter (· ≠ []) with
  | none => simp only [htoken] at h; cases h
  | some token =>
  cases horigin : request.origin.filter (· ≠ []) with
  | none => simp only [htoken, horigin] at h; cases h
  | some origin =>
  cases hhostname : originHostname platform origin with
  | none => simp only [htoken, horigin, hhostname] at h; cases h
  | some hostname =>
  simp only [htoken, horigin, hhostname] at h
  cases hrow : rows.find? (isMatched platform now boundary token hostname request) with
  | none => simp only [hrow] at h; cases h
  | some row =>
  simp only [hrow] at h
  refine ⟨token, hostname, row, (Option.filter_eq_some_iff.mp htoken).1, ?_,
    List.mem_of_find?_eq_some hrow, List.find?_some hrow, ?_⟩
  · rw [(Option.filter_eq_some_iff.mp horigin).1]
    exact hhostname
  · exact (Option.some.inj (Except.ok.inj h)).symm

theorem isMatched_iff {boundary : SessionBoundary} {token hostname : Text}
    {request : BrowserRequest} {row : HostBoundSession} :
    isMatched platform now boundary token hostname request row = true ↔
      row.isFound now (platform.sha256Hex token) hostname = true ∧ row.boundary = boundary ∧
        (request.isMutating = true →
          ∃ given, request.csrf = some given ∧
            row.csrfTokenHash = some (platform.sha256Hex given)) := by
  rw [isMatched, Bool.and_eq_true, Bool.and_eq_true, beq_iff_eq, and_assoc]
  refine and_congr_right' (and_congr_right' ?_)
  cases request.isMutating with
  | false => simp
  | true =>
    cases request.csrf with
    | none => simp
    | some given => simp

/-! ## One step -/

/-- The hash of a token, and the CSRF token that the step issues with it. -/
def SessionStep.issues (platform : Platform) : SessionStep → Option (Text × Text)
  | .create _ sessionToken csrfToken => some (platform.sha256Hex sessionToken, csrfToken)
  | .refresh sessionToken _ csrfToken =>
    (validateSessionToken sessionToken).map fun token => (platform.sha256Hex token, csrfToken)
  | _ => none

def remember (platform : Platform) (tokenHash : Text) (latest : Option Text) (step : SessionStep) :
    Option Text :=
  match step.issues platform with
  | some (hash, csrfToken) => if hash = tokenHash then some csrfToken else latest
  | none => latest

/-- The CSRF token that was last issued with a session. -/
def issuedCsrf (platform : Platform) (steps : List SessionStep) (tokenHash : Text) : Option Text :=
  steps.foldl (remember platform tokenHash) none

theorem issuedCsrf_append (tokenHash : Text) :
    issuedCsrf platform (steps ++ [i]) tokenHash =
      remember platform tokenHash (issuedCsrf platform steps tokenHash) i := by
  rw [issuedCsrf, List.foldl_append]
  rfl

theorem touch_continues (row : HostBoundSession) :
    row.Continues i (row.touch now) ∧ (row.touch now).csrfTokenHash = row.csrfTokenHash := by
  unfold HostBoundSession.touch
  split
  · exact ⟨⟨rfl, Or.inl rfl⟩, rfl⟩
  · exact ⟨.refl row, rfl⟩

/--
What a step does to the sessions: it updates some, and issues no CSRF token or the one that it
stores; or it adds the session of an admitted login.
-/
theorem step_rows (h : sessionStep platform s i = some s') :
    (∃ (p : HostBoundSession → Bool) (f : HostBoundSession → HostBoundSession),
      s'.rows = assign p f s.rows ∧
      (∀ row : HostBoundSession, p row = true → row.Continues i (f row)) ∧
      ((i.issues platform = none ∧
          ∀ row : HostBoundSession, (f row).csrfTokenHash = row.csrfTokenHash) ∨
        ∃ tokenHash csrf, i.issues platform = some (tokenHash, csrf) ∧
          (∀ row : HostBoundSession, p row = true → row.tokenHash = tokenHash) ∧
          (∃ row ∈ s.rows, p row = true) ∧
          ∀ row : HostBoundSession, (f row).csrfTokenHash = some (platform.sha256Hex csrf))) ∨
    ∃ login token csrf, i = .create login token csrf ∧ login ∈ s.admitted ∧
      (∀ row ∈ s.rows, row.tokenHash ≠ platform.sha256Hex token) ∧
      s'.rows = s.rows ++
        [newSession platform s.now login.subjectId login.destination token csrf] := by
  obtain ⟨rows, hrows, rfl⟩ := Option.map_eq_some_iff.mp h
  cases i with
  | revoke tenantId subjectId =>
    cases hrows
    refine Or.inl ⟨_, _, rfl, fun row hp => ⟨rfl, Or.inr ⟨rfl, tenantId, ?_⟩⟩,
      Or.inl ⟨rfl, fun _ => rfl⟩⟩
    rw [Bool.and_eq_true, Bool.and_eq_true, beq_iff_eq, beq_iff_eq] at hp
    exact ⟨hp.1.1, by rw [hp.1.2]⟩
  | create login token csrf =>
    simp only [rowsAfter] at hrows
    split at hrows
    · rename_i hadmitted
      obtain ⟨hnew, rfl⟩ := insertSession_eq_some hrows
      exact Or.inr ⟨login, token, csrf, rfl, hadmitted, hnew, rfl⟩
    · cases hrows
  | refresh text origin csrf =>
    obtain ⟨token, hostname, htoken, hfound, rfl⟩ := session_eq_some hrows
    refine Or.inl ⟨_, _, rfl, fun row _ => ⟨rfl, Or.inl rfl⟩, Or.inr
      ⟨platform.sha256Hex token, csrf, ?_, fun row hp => (isFound_iff.mp hp).1, hfound,
        fun _ => rfl⟩⟩
    rw [SessionStep.issues, htoken]
    rfl
  | logout text origin csrf => cases (logout_eq_none text origin csrf).symm.trans hrows
  | request boundary request =>
    simp only [rowsAfter] at hrows
    split at hrows
    · rename_i identity rows' hok
      cases hrows
      obtain ⟨token, hostname, row, -, -, -, -, heq⟩ := browserSession_eq_ok hok
      cases heq
      exact Or.inl ⟨_, _, rfl, fun row _ => (touch_continues row).1,
        Or.inl ⟨rfl, fun row => (touch_continues (i := .wait 0) row).2⟩⟩
    · cases hrows
  | assertAccess login =>
    simp only [rowsAfter] at hrows
    split at hrows
    · exact Or.inl ⟨fun _ => false, id, (assign_eq_self fun _ _ => rfl).symm,
        fun row _ => .refl row, Or.inl ⟨rfl, fun _ => rfl⟩⟩
    · cases hrows
  | _ =>
    cases hrows
    exact Or.inl ⟨fun _ => false, id, (assign_eq_self fun _ _ => rfl).symm, fun row _ => .refl row,
      Or.inl ⟨rfl, fun _ => rfl⟩⟩

theorem now_le_of_step (h : sessionStep platform s i = some s') : s.now ≤ s'.now := by
  obtain ⟨rows, -, rfl⟩ := Option.map_eq_some_iff.mp h
  cases i with
  | wait milliseconds => exact Nat.le_add_right _ _
  | _ => exact le_rfl

theorem admitted_of_step (h : sessionStep platform s i = some s') {login : Admitted}
    (hlogin : login ∈ s'.admitted) :
    login ∈ s.admitted ∨ (i = .assertAccess login ∧ s.hasAccess login = true) := by
  obtain ⟨rows, hrows, rfl⟩ := Option.map_eq_some_iff.mp h
  cases i with
  | assertAccess login' =>
    rcases List.mem_cons.mp hlogin with rfl | hlogin
    · simp only [rowsAfter] at hrows
      split at hrows
      · rename_i haccess
        exact Or.inr ⟨rfl, haccess⟩
      · cases hrows
    · exact Or.inl hlogin
  | create _ _ _ => exact Or.inl (List.mem_of_mem_erase hlogin)
  | _ => exact Or.inl hlogin

theorem member_of_step (h : sessionStep platform s i = some s') {tenantId : UUID}
    {subjectId : String} (hmember : (tenantId, subjectId) ∈ s'.members) :
    (tenantId, subjectId) ∈ s.members ∨ i = .enable tenantId subjectId := by
  obtain ⟨rows, -, rfl⟩ := Option.map_eq_some_iff.mp h
  cases i with
  | enable tenantId' subjectId' =>
    rcases List.mem_cons.mp hmember with heq | hmember
    · obtain ⟨rfl, rfl⟩ := Prod.mk.inj heq
      exact Or.inr rfl
    · exact Or.inl hmember
  | disable _ _ => exact Or.inl (List.mem_filter.mp hmember).1
  | _ => exact Or.inl hmember

/-- Every session after a step continues one before it, or is the one that the step adds. -/
theorem row_of_step (h : sessionStep platform s i = some s') {row' : HostBoundSession}
    (hrow' : row' ∈ s'.rows) :
    (∃ row ∈ s.rows, row.Continues i row') ∨
      ∃ login token csrf, i = .create login token csrf ∧ login ∈ s.admitted ∧
        (∀ row ∈ s.rows, row.tokenHash ≠ platform.sha256Hex token) ∧
        row' = newSession platform s.now login.subjectId login.destination token csrf := by
  rcases step_rows h with ⟨p, f, hrows, hcontinues, -⟩ |
    ⟨login, token, csrf, hi, hlogin, hnew, hrows⟩
  · rw [hrows] at hrow'
    obtain ⟨row, hrow, rfl⟩ := mem_assign.mp hrow'
    refine Or.inl ⟨row, hrow, ?_⟩
    split
    · exact hcontinues row ‹_›
    · exact .refl row
  · rw [hrows, List.mem_append, List.mem_singleton] at hrow'
    rcases hrow' with hrow | rfl
    · exact Or.inl ⟨row', hrow, .refl row'⟩
    · exact Or.inr ⟨login, token, csrf, hi, hlogin, hnew, rfl⟩

/-- No step drops a session. -/
theorem exists_continues (h : sessionStep platform s i = some s') {row : HostBoundSession}
    (hrow : row ∈ s.rows) : ∃ row' ∈ s'.rows, row.Continues i row' := by
  rcases step_rows h with ⟨p, f, hrows, hcontinues, -⟩ | ⟨login, token, csrf, -, -, -, hrows⟩
  · rw [hrows]
    refine ⟨_, mem_assign.mpr ⟨row, hrow, rfl⟩, ?_⟩
    split
    · exact hcontinues row ‹_›
    · exact .refl row
  · rw [hrows]
    exact ⟨row, List.mem_append_left _ hrow, .refl row⟩

theorem distinct_of_step (hdistinct : (s.rows.map (·.tokenHash)).Nodup)
    (h : sessionStep platform s i = some s') : (s'.rows.map (·.tokenHash)).Nodup := by
  rcases step_rows h with ⟨p, f, hrows, hcontinues, -⟩ | ⟨login, token, csrf, -, -, hnew, hrows⟩
  · rwa [hrows, map_assign fun row _ hp => (hcontinues row hp).tokenHash]
  · rw [hrows]
    exact nodup_concat_key hdistinct hnew

/-- There is a session with the token, and none that is open. -/
def IsClosed (tokenHash : Text) (s : SessionSystem) : Prop :=
  (∃ row ∈ s.rows, row.tokenHash = tokenHash) ∧
    ∀ row ∈ s.rows, row.tokenHash = tokenHash → ¬row.isLive s.now = true

theorem isClosed_of_call {tokenHash : Text} (hclosed : IsClosed tokenHash s) :
    IsClosed tokenHash (call (sessionStep platform) s i) := by
  rcases call_cases (sessionStep platform) s i with h | h
  · obtain ⟨⟨row, hrow, hhash⟩, hclosed⟩ := hclosed
    constructor
    · obtain ⟨row', hrow', hcontinues⟩ := exists_continues h hrow
      exact ⟨row', hrow', hcontinues.tokenHash.trans hhash⟩
    · intro row' hrow' hhash' hlive
      rcases row_of_step h hrow' with ⟨before, hbefore, hcontinues⟩ |
        ⟨login, token, csrf, -, -, hnew, rfl⟩
      · exact hclosed before hbefore (hcontinues.tokenHash.symm.trans hhash')
          (hcontinues.isLive (now_le_of_step h) hlive)
      · exact hnew row hrow (hhash.trans hhash'.symm)
  · rwa [h]

/-! ## Runs -/

/-- The login was admitted by a step of the run, in a state in which its subject had access. -/
def WasAdmitted (platform : Platform) (past : List SessionStep)
    (login : Admitted) : Prop :=
  ∃ before after s, past = before ++ .assertAccess login :: after ∧
    run (sessionStep platform) sessionStart before = some s ∧ s.hasAccess login = true

theorem WasAdmitted.append {login : Admitted} (h : WasAdmitted platform past login) :
    WasAdmitted platform (past ++ [i]) login := by
  obtain ⟨before, after, s, rfl, hrun, haccess⟩ := h
  exact ⟨before, after ++ [i], s, by rw [List.append_assoc, List.cons_append], hrun, haccess⟩

/-- What the sessions have of the steps taken so far. -/
structure Tracked (platform : Platform) (s : SessionSystem) (past : List SessionStep) : Prop where
  reached : run (sessionStep platform) sessionStart past = some s
  distinct : (s.rows.map (·.tokenHash)).Nodup
  admitted : ∀ login ∈ s.admitted, WasAdmitted platform past login
  created : ∀ row ∈ s.rows, ∃ login token csrf time, .create login token csrf ∈ past ∧
    WasAdmitted platform past login ∧
    row.binding = (newSession platform time login.subjectId login.destination token csrf).binding
  csrf : ∀ row ∈ s.rows,
    row.csrfTokenHash = (issuedCsrf platform past row.tokenHash).map platform.sha256Hex

/-- The hash that is stored is that of the token issued last. -/
theorem Tracked.csrf_of_step (ht : Tracked platform s past)
    (h : sessionStep platform s i = some s') : ∀ row ∈ s'.rows,
      row.csrfTokenHash =
        (issuedCsrf platform (past ++ [i]) row.tokenHash).map platform.sha256Hex := by
  intro row' hrow'
  rw [issuedCsrf_append]
  rcases step_rows h with ⟨p, f, hrows, hcontinues, hcsrf⟩ |
    ⟨login, token, csrf, rfl, -, hnew, hrows⟩
  · rw [hrows] at hrow'
    obtain ⟨row, hrow, rfl⟩ := mem_assign.mp hrow'
    have hbefore := ht.csrf row hrow
    have hhash : (if p row = true then f row else row).tokenHash = row.tokenHash := by
      split
      · exact (hcontinues row ‹_›).tokenHash
      · rfl
    rw [hhash]
    rcases hcsrf with ⟨hissues, hkept⟩ | ⟨tokenHash, csrf, hissues, hkey, ⟨found, hfound, hp⟩, hset⟩
    · rw [remember, hissues, ← hbefore]
      split
      · exact hkept row
      · rfl
    · by_cases heq : tokenHash = row.tokenHash
      · -- the only session with the token
        obtain rfl : found = row := eq_of_key_eq ht.distinct hfound hrow ((hkey found hp).trans heq)
        simp only [remember, hissues, if_pos heq, if_pos hp, hset, Option.map_some]
      · have hp' : ¬p row = true := fun hp' => heq (hkey row hp').symm
        simp only [remember, hissues, if_neg heq, if_neg hp', hbefore]
  · rw [hrows, List.mem_append, List.mem_singleton] at hrow'
    rcases hrow' with hrow | rfl
    · simp only [remember, SessionStep.issues, ht.csrf row' hrow, if_neg (hnew row' hrow).symm]
    · simp only [remember, SessionStep.issues, newSession, if_true, Option.map_some]

theorem Tracked.step (ht : Tracked platform s past) (h : sessionStep platform s i = some s') :
    Tracked platform s' (past ++ [i]) where
  reached := run_append.mpr ⟨s, ht.reached, run_cons_eq_some.mpr ⟨s', h, rfl⟩⟩
  distinct := distinct_of_step ht.distinct h
  admitted login hlogin := by
    rcases admitted_of_step h hlogin with hbefore | ⟨rfl, haccess⟩
    · exact (ht.admitted login hbefore).append
    · exact ⟨past, [], s, rfl, ht.reached, haccess⟩
  created row' hrow' := by
    rcases row_of_step h hrow' with ⟨row, hrow, hc⟩ | ⟨login, token, csrf, rfl, hlogin, -, rfl⟩
    · obtain ⟨login, token, csrf, time, hmem, hadmitted, hbinding⟩ := ht.created row hrow
      exact ⟨login, token, csrf, time, List.mem_append_left _ hmem, hadmitted.append,
        hc.binding.trans hbinding⟩
    · exact ⟨login, token, csrf, s.now, List.mem_append_right _ List.mem_cons_self,
        (ht.admitted login hlogin).append, rfl⟩
  csrf := ht.csrf_of_step h

theorem tracked_of_run (h : run (sessionStep platform) sessionStart steps = some s) :
    Tracked platform s steps :=
  run_history (fun made s => Tracked platform s made)
    ⟨rfl, List.nodup_nil, List.forall_mem_nil _, List.forall_mem_nil _, List.forall_mem_nil _⟩
    (fun _ _ _ _ => Tracked.step) h

/-! ## A session to go through -/

def signingHost : Text := "sign.kungalv.se".toList

/-- With a hash that tells the tokens of the examples apart. -/
def examplePlatform : Platform where
  hosts := ⟨id, id, some, platformDomain⟩
  sha256Hex text := List.replicate 64 (text.getLastD '0')
  parseUrl origin :=
    if origin = "https://sign.kungalv.se".toList then
      some ⟨"https:".toList, [], [], [], signingHost⟩
    else none
  sessionLifetimeSeconds := 3600

def clerkLogin : Admitted := ⟨"clerk", ⟨.tenant, signingHost, some "kungalv"⟩⟩

def sessionToken : Text := List.replicate 64 'a'

def csrfToken : Text := List.replicate 32 'b'

def clerkRow (token : Text) : HostBoundSession :=
  newSession examplePlatform 0 "clerk" clerkLogin.destination token csrfToken

def revokedRow : HostBoundSession := { clerkRow sessionToken with revokedAt := some 0 }

def clerkSteps : List SessionStep :=
  [.enable "kungalv" "clerk", .assertAccess clerkLogin, .create clerkLogin sessionToken csrfToken]

def clerkState (rows : List HostBoundSession) : SessionSystem :=
  ⟨0, rows, [], [("kungalv", "clerk")], []⟩

theorem run_clerkSteps : run (sessionStep examplePlatform) sessionStart clerkSteps =
    some (clerkState [clerkRow sessionToken]) := by
  decide +kernel

def clerkIdentity : BrowserSessionIdentity := ⟨"clerk", some "kungalv", .tenant⟩

def clerkRequest (method : String) (token : Text) : BrowserRequest :=
  ⟨method, some token, some "https://sign.kungalv.se".toList, some csrfToken⟩

theorem post_accepted : browserSession examplePlatform 0 .tenant (clerkRequest "POST" sessionToken)
    [clerkRow sessionToken] = .ok (some (clerkIdentity, [(clerkRow sessionToken).touch 0])) := by
  decide +kernel

/-! ## Main results -/

/--
A session that is revoked or has expired stays closed: whatever is done afterwards, no request with
its token is accepted, and no refresh.
-/
theorem closed_session_refused {row : HostBoundSession}
    (hreached : run (sessionStep platform) sessionStart steps = some s)
    (hrow : row ∈ s.rows) (hclosed : row.isLive s.now = false)
    (later : List SessionStep) (hlater : calls (sessionStep platform) s later = s') (token : Text)
    (htoken : platform.sha256Hex token = row.tokenHash) :
    (∀ boundary request, request.sessionToken = some token → ∀ answer,
      browserSession platform s'.now boundary request s'.rows ≠ .ok (some answer)) ∧
    ∀ text origin csrf, validateSessionToken text = some token →
      session platform s'.now text origin csrf s'.rows = none := by
  have ht := tracked_of_run hreached
  have hfirst : IsClosed row.tokenHash s := by
    refine ⟨⟨row, hrow, rfl⟩, fun other hother heq hlive => ?_⟩
    rw [eq_of_key_eq ht.distinct hother hrow heq, hclosed] at hlive
    cases hlive
  obtain ⟨-, hlast⟩ : IsClosed row.tokenHash s' :=
    hlater ▸ calls_history (fun _ => IsClosed row.tokenHash) hfirst
      (fun _ _ _ => isClosed_of_call) later
  have hnone (found : HostBoundSession) (hmem : found ∈ s'.rows) (hostname : Text) :
      ¬found.isFound s'.now (platform.sha256Hex token) hostname = true := by
    intro hfound
    obtain ⟨hhash, -, hlive⟩ := isFound_iff.mp hfound
    exact hlast found hmem (hhash.trans htoken) hlive
  constructor
  · intro boundary request hrequest answer hok
    obtain ⟨token', hostname, found, htoken', -, hmem, hmatched, -⟩ := browserSession_eq_ok hok
    obtain rfl : token = token' := Option.some.inj (hrequest.symm.trans htoken')
    exact hnone found hmem hostname (isMatched_iff.mp hmatched).1
  · intro text origin csrf hvalid
    refine Option.eq_none_iff_forall_ne_some.mpr fun rows hrows => ?_
    obtain ⟨token', hostname, htoken', ⟨found, hmem, hfound⟩, -⟩ := session_eq_some hrows
    obtain rfl : token = token' := Option.some.inj (hvalid.symm.trans htoken')
    exact hnone found hmem hostname hfound

/-- The account is disabled, and an hour passes. -/
theorem revoked_session_refused : ¬∃ answer, browserSession examplePlatform 3600000 .tenant
    (clerkRequest "GET" sessionToken) [revokedRow] = .ok (some answer) := by
  have hreached : run (sessionStep examplePlatform) sessionStart
      (clerkSteps ++ [.revoke "kungalv" "clerk"]) = some (clerkState [revokedRow]) := by
    decide +kernel
  have hlater : calls (sessionStep examplePlatform) (clerkState [revokedRow]) [.wait 3600000] =
      { clerkState [revokedRow] with now := 3600000 } := by
    decide +kernel
  rintro ⟨answer, hok⟩
  exact (closed_session_refused hreached (List.mem_singleton_self revokedRow) (by decide +kernel) _
    hlater sessionToken (by decide +kernel)).1 .tenant (clerkRequest "GET" sessionToken) rfl answer
      hok

/--
A request that changes something is accepted only with the CSRF token that was issued last with its
session: a refresh makes the tokens before it worthless.
-/
theorem mutating_request_csrf {boundary : SessionBoundary} {request : BrowserRequest}
    {answer : BrowserSessionIdentity × List HostBoundSession}
    (hreached : run (sessionStep platform) sessionStart steps = some s)
    (hmutating : request.isMutating = true)
    (hok : browserSession platform s.now boundary request s.rows = .ok (some answer)) :
    ∃ token given latest, request.sessionToken = some token ∧ request.csrf = some given ∧
      issuedCsrf platform steps (platform.sha256Hex token) = some latest ∧
      platform.sha256Hex given = platform.sha256Hex latest := by
  obtain ⟨token, hostname, row, htoken, -, hrow, hmatched, -⟩ := browserSession_eq_ok hok
  obtain ⟨hfound, -, hcsrf⟩ := isMatched_iff.mp hmatched
  obtain ⟨given, hgiven, hhash⟩ := hcsrf hmutating
  have hstored := (tracked_of_run hreached).csrf row hrow
  rw [hhash, (isFound_iff.mp hfound).1] at hstored
  obtain ⟨latest, hlatest, heq⟩ := Option.map_eq_some_iff.mp hstored.symm
  exact ⟨token, given, latest, htoken, hgiven, hlatest, heq.symm⟩

theorem posted_with_token : ∃ token given latest,
    (clerkRequest "POST" sessionToken).sessionToken = some token ∧
      (clerkRequest "POST" sessionToken).csrf = some given ∧
      issuedCsrf examplePlatform clerkSteps (examplePlatform.sha256Hex token) = some latest ∧
      examplePlatform.sha256Hex given = examplePlatform.sha256Hex latest :=
  mutating_request_csrf run_clerkSteps (by decide +kernel) post_accepted

/--
An accepted request acts for the subject and the tenant of a login with its token that was admitted
while the subject had access, within the boundary of that login and from its host.
-/
theorem accepted_identity {boundary : SessionBoundary} {request : BrowserRequest}
    {identity : BrowserSessionIdentity}
    (hreached : run (sessionStep platform) sessionStart steps = some s)
    (hok : browserSession platform s.now boundary request s.rows = .ok (some (identity, rows))) :
    ∃ login issued csrf token, .create login issued csrf ∈ steps ∧
      WasAdmitted platform steps login ∧
      request.sessionToken = some token ∧ platform.sha256Hex token = platform.sha256Hex issued ∧
      request.origin.bind (originHostname platform) = some login.destination.hostname ∧
      boundary = login.destination.boundary ∧
      identity = ⟨login.subjectId, login.destination.tenantId, boundary⟩ := by
  obtain ⟨token, hostname, row, htoken, horigin, hrow, hmatched, heq⟩ := browserSession_eq_ok hok
  obtain ⟨hfound, hboundary, -⟩ := isMatched_iff.mp hmatched
  obtain ⟨hhash, hhost, -⟩ := isFound_iff.mp hfound
  obtain ⟨login, issued, csrf, time, hmem, hadmitted, hbinding⟩ :=
    (tracked_of_run hreached).created row hrow
  obtain ⟨hissued, htenant, hbound, hhost', hsubject, -⟩ := SessionBinding.mk.inj hbinding
  refine ⟨login, issued, csrf, token, hmem, hadmitted, htoken, hhash.symm.trans hissued, ?_,
    hboundary.symm.trans hbound, ?_⟩
  · rw [horigin, ← hhost, hhost']
    rfl
  · rw [(Prod.mk.inj heq).1, hsubject, htenant, hboundary]
    rfl

theorem clerk_was_admitted : ∃ login issued csrf, .create login issued csrf ∈ clerkSteps ∧
    WasAdmitted examplePlatform clerkSteps login ∧
    clerkIdentity = ⟨login.subjectId, login.destination.tenantId, .tenant⟩ := by
  obtain ⟨login, issued, csrf, -, hmem, hadmitted, -, -, -, -, hidentity⟩ :=
    accepted_identity run_clerkSteps post_accepted
  exact ⟨login, issued, csrf, hmem, hadmitted, hidentity⟩

/-- What is left for a subject of a tenant since its sessions were revoked in `s₀`. -/
structure Barred (tenantId : UUID) (subjectId : String) (s₀ s : SessionSystem)
    (since : List SessionStep) : Prop where
  member : (tenantId, subjectId) ∉ s.members
  admitted : ∀ login ∈ s.admitted, login.subjectId = subjectId →
    login.destination.tenantId = some tenantId → login.destination.boundary ≠ .platform →
    login ∈ s₀.admitted
  rows : ∀ row ∈ s.rows, row.subjectId = subjectId → row.tenantId = some tenantId →
    row.boundary ≠ .platform → row.isLive s.now = true →
    ∃ login ∈ s₀.admitted, login.subjectId = subjectId ∧
      login.destination.tenantId = some tenantId ∧ ∃ token csrf, .create login token csrf ∈ since

theorem hasAccess_member {login : Admitted} {tenantId : UUID} (h : s.hasAccess login = true)
    (hboundary : login.destination.boundary ≠ .platform)
    (htenant : login.destination.tenantId = some tenantId) :
    (tenantId, login.subjectId) ∈ s.members := by
  unfold SessionSystem.hasAccess at h
  split at h
  · exact absurd ‹_› hboundary
  · rw [htenant] at h
    exact List.contains_iff_mem.mp h

theorem Barred.step {tenantId : UUID} {subjectId : String} {s₀ : SessionSystem}
    (hb : Barred tenantId subjectId s₀ s past) (henable : i ≠ .enable tenantId subjectId)
    (h : sessionStep platform s i = some s') : Barred tenantId subjectId s₀ s' (past ++ [i]) := by
  refine ⟨fun hmember => ?_, fun login hlogin hsubject htenant hboundary => ?_, ?_⟩
  · exact (member_of_step h hmember).elim hb.member henable
  · rcases admitted_of_step h hlogin with hbefore | ⟨-, haccess⟩
    · exact hb.admitted login hbefore hsubject htenant hboundary
    · exact absurd (hsubject ▸ hasAccess_member haccess hboundary htenant) hb.member
  · intro row' hrow' hsubject htenant hboundary hlive
    rcases row_of_step h hrow' with ⟨row, hrow, hc⟩ | ⟨login, token, csrf, rfl, hlogin, -, rfl⟩
    · obtain ⟨-, ht, hbound, -, hs, -⟩ := SessionBinding.mk.inj hc.binding
      obtain ⟨login, hlogin, hs', ht', token, csrf, hmem⟩ := hb.rows row hrow
        (hs.symm.trans hsubject) (ht.symm.trans htenant) (hbound ▸ hboundary)
        (hc.isLive (now_le_of_step h) hlive)
      exact ⟨login, hlogin, hs', ht', token, csrf, List.mem_append_left _ hmem⟩
    · exact ⟨login, hb.admitted login hlogin hsubject htenant hboundary, hsubject, htenant, token,
        csrf, List.mem_append_right _ List.mem_cons_self⟩

theorem Barred.after {tenantId : UUID} {subjectId : String} {s₀ : SessionSystem}
    (hb : Barred tenantId subjectId s₀ s past) : Barred tenantId subjectId s₀ s (past ++ [i]) := by
  refine ⟨hb.member, hb.admitted, fun row hrow hsubject htenant hboundary hlive => ?_⟩
  obtain ⟨login, hlogin, hs, ht, token, csrf, hmem⟩ :=
    hb.rows row hrow hsubject htenant hboundary hlive
  exact ⟨login, hlogin, hs, ht, token, csrf, List.mem_append_left _ hmem⟩

theorem open_after_calls {row : HostBoundSession} (hrow : row ∈ s.rows)
    (hrevoke : ∀ tenantId ∈ row.tenantId, .revoke tenantId row.subjectId ∉ steps) :
    ∃ row' ∈ (calls (sessionStep platform) s steps).rows, row'.binding = row.binding ∧
      row'.revokedAt = row.revokedAt := by
  refine calls_history (fun made (s : SessionSystem) =>
    (∀ tenantId ∈ row.tenantId, .revoke tenantId row.subjectId ∉ made) →
      ∃ row' ∈ s.rows, row'.binding = row.binding ∧ row'.revokedAt = row.revokedAt)
    (fun _ => ⟨row, hrow, rfl, rfl⟩) (fun made s i ih hmade => ?_) steps hrevoke
  obtain ⟨row₁, hrow₁, hbinding, hrevoked⟩ := ih fun tenantId htenant hmem =>
    hmade tenantId htenant (List.mem_append_left _ hmem)
  rcases call_cases (sessionStep platform) s i with h | h
  · obtain ⟨row', hrow', hc⟩ := exists_continues h hrow₁
    refine ⟨row', hrow', hc.binding.trans hbinding, ?_⟩
    rcases hc.revokedAt with heq | ⟨-, tenantId, htenant, hi⟩
    · exact heq.trans hrevoked
    · obtain ⟨-, ht, -, -, hs, -⟩ := SessionBinding.mk.inj hbinding
      rw [ht] at htenant
      rw [hs] at hi
      exact absurd (List.mem_append_right _ (List.mem_singleton.mpr hi.symm))
        (hmade tenantId htenant)
  · rw [h]
    exact ⟨row₁, hrow₁, hbinding, hrevoked⟩

/--
An open session stays open until it expires or its account is disabled, whoever logs out: a request
with its token is accepted from its host.
-/
theorem session_stays_open {row : HostBoundSession} {request : BrowserRequest} {token : Text}
    (hrow : row ∈ s.rows) (steps : List SessionStep)
    (hsteps : calls (sessionStep platform) s steps = s') (hopen : row.revokedAt = none)
    (hrevoke : ∀ tenantId ∈ row.tenantId, .revoke tenantId row.subjectId ∉ steps)
    (htime : s'.now < row.expiresAt)
    (htoken : request.sessionToken = some token) (hne : token ≠ [])
    (hhash : platform.sha256Hex token = row.tokenHash)
    (horigin : (request.origin.filter (· ≠ [])).bind (originHostname platform) = some row.hostname)
    (hreads : request.isMutating = false) :
    ∃ answer, browserSession platform s'.now row.boundary request
      s'.rows = .ok (some answer) := by
  obtain ⟨row', hrow', hbinding, hrevoked⟩ := hsteps ▸ open_after_calls hrow hrevoke
  obtain ⟨hhash', -, hboundary, hhost, -, hexpires⟩ := SessionBinding.mk.inj hbinding
  obtain ⟨origin, horigin, hhostname⟩ := Option.bind_eq_some_iff.mp horigin
  have hmatched : isMatched platform s'.now row.boundary token row.hostname
      request row' = true := by
    refine isMatched_iff.mpr ⟨isFound_iff.mpr ⟨hhash'.trans hhash.symm, hhost, ?_⟩, hboundary,
      fun hmutating => ?_⟩
    · exact isLive_iff.mpr ⟨hrevoked.trans hopen, hexpires ▸ htime⟩
    · rw [hreads] at hmutating
      cases hmutating
  have htoken' : request.sessionToken.filter (· ≠ []) = some token :=
    Option.filter_eq_some_iff.mpr ⟨htoken, decide_eq_true hne⟩
  unfold browserSession
  simp only [htoken', horigin, hhostname]
  cases hfind : s'.rows.find?
      (isMatched platform s'.now row.boundary token row.hostname request) with
  | none => exact absurd hmatched (List.find?_eq_none.mp hfind row' hrow')
  | some found => exact ⟨_, rfl⟩

/-- The clerk logs out. -/
theorem open_after_logout : ∃ answer, browserSession examplePlatform 0 .tenant
    (clerkRequest "GET" sessionToken) [clerkRow sessionToken] = .ok (some answer) := by
  have hsteps : calls (sessionStep examplePlatform) (clerkState [clerkRow sessionToken])
      [.logout sessionToken signingHost csrfToken] = clerkState [clerkRow sessionToken] := by
    decide +kernel
  have htoken : (clerkRequest "GET" sessionToken).sessionToken = some sessionToken := rfl
  exact session_stays_open (List.mem_singleton_self (clerkRow sessionToken)) _ hsteps rfl
    (by decide +kernel) (by decide +kernel) htoken (by decide +kernel) (by decide +kernel)
    (by decide +kernel) (by decide +kernel)

end

end Kommunsign.BrowserSessions
