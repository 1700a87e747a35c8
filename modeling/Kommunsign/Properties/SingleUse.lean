import Kommunsign.Federation.Logins
import Kommunsign.Infra.Lists

/-!
# Single use of logins and of assertions

A login is consumed by one conditional update, and so it is answered once whatever happens around
it. An assertion id is consumed by one conditional insert, after the validity window was checked at
a date taken before: when the ledger is pruned between the two, the entry that the insert should
have met may be gone.

* `Federation.Sound` — every acceptance satisfies the limits of its tenant
* `Timely` — nothing comes between a check and its insert, and no id comes back with a later window
* `logins_single_use` — the three of them, in every run of timely steps
-/

namespace Kommunsign

open Infra

/-! ## What a step does -/

def ConfiguredBy (provided : List ProviderRow) (login : LoginRow) (config : FederationConfig) : Prop :=
  ∃ row ∈ provided, row.key = login.provider ∧
    ∃ mappings, row.configuration mappings = some config

section

variable (dateParse : String → Option Int)

inductive LoginPhase.Next (s : Federation) (i : Nat) :
    FederationAction → LoginPhase → LoginPhase → Prop
  | provided {login kind row} (hrow : row ∈ s.providers) (hkey : row.key = login.provider) :
    Next s i (.readProvider i) (.consumed login kind) (.provided login kind row)
  | configured {login kind row config} (mappings : List (String × String))
      (hconfig : row.configuration mappings = some config) :
    Next s i (.readMappings i) (.provided login kind row) (.configured login kind config)
  | validated {login kind config assertion} (trusted : Bool) (report : FederationReport) :
    Next s i (.validate i trusted report) (.configured login kind config)
      (.validated login config assertion)
  | checked {login config assertion}
      (hadmissible : Admissible dateParse assertion config login.binding (s.clock / 1000)) :
    Next s i (.check i) (.validated login config assertion)
      (.checked login config assertion (s.clock / 1000))

inductive FederationMove (s : Federation) : FederationAction → Federation → Prop
  | unchanged (action : FederationAction) : FederationMove s action s
  | passed (micros : Nat) :
    FederationMove s (.tick micros) { s with clock := s.clock + micros }
  | configured (row : ProviderRow) :
    FederationMove s (.configure row) { s with
      providers := row :: s.providers.filter (·.key != row.key), provided := s.provided ++ [row] }
  | unconfigured (key : ProviderKey) :
    FederationMove s (.unconfigure key) { s with
      providers := s.providers.filter (·.key != key)
      logins := s.logins.filter (·.provider != key) }
  | started (action : FederationAction) (row : LoginRow) (hserial : row.serial = s.nextSerial) :
    FederationMove s action { s with
      logins := s.logins ++ [row], nextSerial := s.nextSerial + 1 }
  | consumed (action : FederationAction) (login : LoginRow) (reference : String) (now : Int)
      (hfound : s.logins.find? (·.answerable reference now) = some login)
      (opened : List (Option LoginPhase))
      (hopened : opened = [] ∨ ∃ kind, opened = [some (.consumed login kind)]) :
    FederationMove s action { s with
      logins := (consumeLogin reference now s.logins).2
      answered := s.answered ++ [login.serial]
      requests := s.requests ++ opened }
  | advanced (action : FederationAction) (i : Nat) (phase next : LoginPhase)
      (hphase : s.requests[i]?.join = some phase)
      (hnext : LoginPhase.Next dateParse s i action phase next) :
    FederationMove s action (s.enter i next)
  | closed (action : FederationAction) (i : Nat) : FederationMove s action (s.close i)
  | recorded (i : Nat) (login : LoginRow) (config : FederationConfig)
      (assertion : WorkforceAssertion) (now window : Int) (accepted : List Acceptance)
      (hphase : s.requests[i]?.join = some (.checked login config assertion now))
      (hfresh : ∀ row ∈ s.ledger, row.key ≠ (login.provider.tenantId, assertion.assertionId))
      (haccepted : accepted = [] ∨
        ∃ identity, accepted = [⟨login, config, assertion, now, identity⟩]) :
    FederationMove s (.conclude i) { s.close i with
      ledger := s.ledger ++ [⟨(login.provider.tenantId, assertion.assertionId), window⟩]
      consumed := s.consumed ++ [(login.provider.tenantId, assertion.assertionId)]
      accepted := s.accepted ++ accepted }
  | prunedLogins (now : Int) :
    FederationMove s (.pruneLoginRequests now) { s with
      logins := pruneLoginRequests now s.logins }
  | prunedLedger (now : Int) (hnow : microseconds now ≤ s.clock) :
    FederationMove s (.pruneLedger now) { s with
      ledger := pruneLedger now s.ledger
      pruned := s.pruned ++ s.ledger.filter (·.prunable now) }

end

section

variable {dateParse timestamptz : String → Option Int} {s s' : Federation}

theorem loginFor_eq_ok {provider : String} {consumed : Option LoginRow} {login : LoginRow}
    (h : loginFor provider consumed = .ok login) : consumed = some login := by
  unfold loginFor at h
  split at h
  · exact nomatch h
  · split at h
    · cases h
      rfl
    · exact nomatch h

theorem present_move {provider : String} {presented : PresentedAssertion} {now : Int}
    (action : FederationAction) :
    FederationMove dateParse s action (s.present provider presented now) := by
  unfold Federation.present
  split
  · exact .unchanged action
  · rename_i reference _
    cases hfound : s.logins.find? (·.answerable reference now) with
    | none =>
      -- no row is updated
      have hsame : assign (·.answerable reference now)
          (fun row => { row with consumedAt := some (microseconds now) }) s.logins = s.logins :=
        assign_eq_self fun row hrow => by
          simpa using List.find?_eq_none.mp hfound row hrow
      have hlogin : loginFor provider none = .error ⟨"FEDERATION_LOGIN_REQUEST_INVALID",
        "The assertion does not answer a login we started", 401⟩ := rfl
      simp only [consumeLogin, hfound, hsame, hlogin, Option.map_none, Option.toList_none,
        List.append_nil]
      exact .unchanged action
    | some login =>
      simp only [consumeLogin, hfound, Option.map_some, Option.toList_some]
      split
      · have hmove : FederationMove dateParse s action _ :=
          .consumed action login reference now hfound [] (.inl rfl)
        rw [List.append_nil] at hmove
        exact hmove
      · rename_i login' hlogin
        obtain rfl := Option.some.inj (loginFor_eq_ok hlogin)
        exact .consumed action login reference now hfound _ (.inr ⟨_, rfl⟩)

theorem ledgerConsume_cases {tenantId : UUID} {assertionId notOnOrAfter : String}
    {ledger ledger' : List LedgerRow} {inserted : Bool}
    (h : ledgerConsume timestamptz tenantId assertionId notOnOrAfter ledger =
      some (inserted, ledger')) :
    (inserted = false ∧ ledger' = ledger) ∨
    ∃ window, inserted = true ∧ (∀ row ∈ ledger, row.key ≠ (tenantId, assertionId)) ∧
      ledger' = ledger ++ [⟨(tenantId, assertionId), window⟩] := by
  unfold ledgerConsume at h
  obtain ⟨window, -, h⟩ := Option.bind_eq_some_iff.mp h
  split at h
  · exact nomatch h
  · split at h
    · cases h
      exact .inl ⟨rfl, rfl⟩
    · rename_i hany
      cases h
      refine .inr ⟨window, rfl, fun row hrow hkey => hany ?_, rfl⟩
      exact List.any_eq_true.mpr ⟨row, hrow, beq_iff_eq.mpr hkey⟩

theorem conclude_move {i : Nat} {login : LoginRow} {config : FederationConfig}
    {assertion : WorkforceAssertion} {now : Int}
    (hphase : s.requests[i]?.join = some (.checked login config assertion now)) :
    FederationMove dateParse s (.conclude i) (s.conclude timestamptz i login config assertion now) := by
  unfold Federation.conclude
  split
  · exact .closed _ i
  · rename_i inserted ledger hconsume
    rcases ledgerConsume_cases hconsume with ⟨rfl, rfl⟩ | ⟨window, rfl, hfresh, rfl⟩
    · -- the id was used before
      exact .closed _ i
    · dsimp only
      split
      · have hmove : FederationMove dateParse s _ _ :=
          .recorded i login config assertion now window [] hphase hfresh (.inl rfl)
        rw [List.append_nil] at hmove
        exact hmove
      · exact .recorded i login config assertion now window _ hphase hfresh (.inr ⟨_, rfl⟩)

theorem federationStep_move {action : FederationAction}
    (h : federationStep dateParse timestamptz s action = some s') :
    FederationMove dateParse s action s' := by
  cases action with
  | tick micros =>
    cases h
    exact .passed micros
  | configure row =>
    cases h
    exact .configured row
  | unconfigure key =>
    cases h
    exact .unconfigured key
  | startLogin provider requestId redirectUri returnPath =>
    simp only [federationStep, Federation.startLogin] at h
    split at h
    · cases h
      exact .started _ _ rfl
    · exact nomatch h
  | present provider presented now =>
    simp only [federationStep] at h
    split at h
    · exact nomatch h
    · cases h
      exact present_move _
  | readProvider i =>
    simp only [federationStep] at h
    split at h
    · rename_i login kind hphase
      cases h
      unfold Federation.readProvider
      split
      · exact .closed _ i
      · rename_i row hrow
        refine .advanced _ i _ _ hphase (.provided (List.mem_of_find?_eq_some hrow) ?_)
        simpa using List.find?_some hrow
    · exact nomatch h
  | readMappings i =>
    simp only [federationStep] at h
    split at h
    · rename_i login kind row hphase
      cases h
      unfold Federation.readMappings
      dsimp only
      split
      · exact .closed _ i
      · rename_i config hconfig
        exact .advanced _ i _ _ hphase (.configured _ hconfig)
    · exact nomatch h
  | validate i trusted report =>
    simp only [federationStep] at h
    split at h
    · rename_i login kind config hphase
      cases h
      unfold Federation.validate
      split
      · exact .closed _ i
      · split
        · exact .closed _ i
        · exact .advanced _ i _ _ hphase (.validated trusted report)
    · exact nomatch h
  | check i =>
    simp only [federationStep] at h
    split at h
    · rename_i login config assertion hphase
      cases h
      unfold Federation.check
      dsimp only
      split
      · exact .closed _ i
      · rename_i hcheck
        exact .advanced _ i _ _ hphase (.checked (checkAssertion_eq_ok.mp hcheck))
    · exact nomatch h
  | conclude i =>
    simp only [federationStep] at h
    split at h
    · rename_i login config assertion now hphase
      cases h
      exact conclude_move hphase
    · exact nomatch h
  | abandon i =>
    cases h
    exact .closed _ i
  | pruneLoginRequests now =>
    simp only [federationStep] at h
    split at h
    · exact nomatch h
    · cases h
      exact .prunedLogins now
  | pruneLedger now =>
    simp only [federationStep] at h
    split at h
    · exact nomatch h
    · rename_i hnow
      cases h
      exact .prunedLedger now (not_lt.mp hnow)

/-! ## Logins -/

structure Federation.Answered (s : Federation) : Prop where
  serials : (s.logins.map (·.serial)).Nodup
  serial_lt : ∀ row ∈ s.logins, row.serial < s.nextSerial
  answered_lt : ∀ serial ∈ s.answered, serial < s.nextSerial
  answered_nodup : s.answered.Nodup
  unconsumed : ∀ row ∈ s.logins, row.consumedAt = none → row.serial ∉ s.answered
  under_way : ∀ (i : Nat) (phase : LoginPhase), s.requests[i]?.join = some phase →
    phase.login.serial ∈ s.answered ∧ phase.login.serial ∉ s.accepted.map (·.login.serial)
  distinct : ∀ (i j : Nat) (p q : LoginPhase), s.requests[i]?.join = some p → s.requests[j]?.join = some q →
    p.login.serial = q.login.serial → i = j
  accepted_answered : ∀ a ∈ s.accepted, a.login.serial ∈ s.answered
  accepted_nodup : (s.accepted.map (·.login.serial)).Nodup

theorem enter_request {i j : Nat} {next phase : LoginPhase}
    (h : (s.enter i next).requests[j]?.join = some phase) :
    (j = i ∧ phase = next) ∨ (j ≠ i ∧ s.requests[j]?.join = some phase) :=
  (slot_set h).imp_left fun ⟨hji, heq⟩ => ⟨hji, (Option.some.inj heq).symm⟩

theorem close_request {i j : Nat} {phase : LoginPhase}
    (h : (s.close i).requests[j]?.join = some phase) :
    j ≠ i ∧ s.requests[j]?.join = some phase :=
  (slot_set h).resolve_left fun ⟨_, heq⟩ => nomatch heq

theorem LoginPhase.Next.login {i : Nat} {action : FederationAction} {phase next : LoginPhase}
    (h : LoginPhase.Next dateParse s i action phase next) : next.login = phase.login := by
  cases h <;> rfl

theorem consumed_row {reference : String} {now : Int} {logins : List LoginRow} {row : LoginRow}
    (h : row ∈ (consumeLogin reference now logins).2) :
    ∃ old ∈ logins, row.serial = old.serial ∧
      (row.consumedAt = none → old.consumedAt = none ∧ old.answerable reference now = false) := by
  obtain ⟨old, hold, rfl⟩ := mem_assign.mp h
  refine ⟨old, hold, ?_⟩
  split
  · exact ⟨rfl, nofun⟩
  · rename_i hnot
    exact ⟨rfl, fun hnone => ⟨hnone, by simpa using hnot⟩⟩

theorem Federation.Answered.close (h : s.Answered) (i : Nat) : (s.close i).Answered where
  serials := h.serials
  serial_lt := h.serial_lt
  answered_lt := h.answered_lt
  answered_nodup := h.answered_nodup
  unconsumed := h.unconsumed
  under_way j phase hj := h.under_way j phase (close_request hj).2
  distinct j k p q hj hk := h.distinct j k p q (close_request hj).2 (close_request hk).2
  accepted_answered := h.accepted_answered
  accepted_nodup := h.accepted_nodup

theorem Federation.Answered.step {action : FederationAction} (hs : s.Answered)
    (hmove : FederationMove dateParse s action s') : s'.Answered := by
  cases hmove with
  | unchanged => exact hs
  | passed micros => exact { hs with }
  | configured row => exact { hs with }
  | unconfigured key =>
    exact { hs with
      serials := hs.serials.sublist (List.filter_sublist.map _)
      serial_lt := fun row hrow => hs.serial_lt row (List.mem_of_mem_filter hrow)
      unconsumed := fun row hrow => hs.unconsumed row (List.mem_of_mem_filter hrow) }
  | started _ row hserial =>
    exact { hs with
      serials := by
        rw [List.map_append, List.nodup_append]
        refine ⟨hs.serials, List.nodup_singleton _, ?_⟩
        rintro n hn m hm rfl
        obtain ⟨old, hold, rfl⟩ := List.mem_map.mp hn
        have hlt := hs.serial_lt old hold
        rw [List.map_singleton, List.mem_singleton, hserial] at hm
        exact hlt.ne hm
      serial_lt := by
        intro old hold
        rcases List.mem_append.mp hold with hold | hold
        · exact Nat.lt_succ_of_lt (hs.serial_lt old hold)
        · rw [List.mem_singleton.mp hold, hserial]
          exact Nat.lt_succ_self _
      answered_lt := fun n hn => Nat.lt_succ_of_lt (hs.answered_lt n hn)
      unconsumed := by
        intro old hold hnone hmem
        rcases List.mem_append.mp hold with hold | hold
        · exact hs.unconsumed old hold hnone hmem
        · have hlt := hs.answered_lt _ hmem
          rw [List.mem_singleton.mp hold, hserial] at hlt
          exact lt_irrefl _ hlt }
  | consumed _ login reference now hfound opened hopened =>
    have hlogin := List.mem_of_find?_eq_some hfound
    have hanswerable : login.answerable reference now = true := List.find?_some hfound
    have hnone : login.consumedAt = none := by
      simp only [LoginRow.answerable, Bool.and_eq_true, Option.isNone_iff_eq_none] at hanswerable
      exact hanswerable.1.2
    have hnew := hs.unconsumed login hlogin hnone
    -- what was under way before has another login
    have hrequest : ∀ i phase, (s.requests ++ opened)[i]?.join = some phase →
        s.requests[i]?.join = some phase ∨ (i = s.requests.length ∧ phase.login = login) := by
      intro i phase h
      refine (slot_append h).imp_right ?_
      rintro ⟨hlength, h⟩
      rw [Option.join_eq_some_iff] at h
      rcases hopened with rfl | ⟨kind, rfl⟩
      · exact nomatch h
      · rw [List.getElem?_singleton] at h
        split at h
        · cases h
          exact ⟨by omega, rfl⟩
        · exact nomatch h
    exact {
      serials := by
        have hsame : (consumeLogin reference now s.logins).2.map (·.serial) =
            s.logins.map (·.serial) := map_assign fun _ _ _ => rfl
        exact hsame ▸ hs.serials
      serial_lt := by
        intro row hrow
        obtain ⟨old, hold, hserial, -⟩ := consumed_row hrow
        rw [hserial]
        exact hs.serial_lt old hold
      answered_lt := by
        intro n hn
        rcases List.mem_append.mp hn with hn | hn
        · exact hs.answered_lt n hn
        · rw [List.mem_singleton.mp hn]
          exact hs.serial_lt login hlogin
      answered_nodup := by
        refine List.nodup_append.mpr ⟨hs.answered_nodup, List.nodup_singleton _, ?_⟩
        rintro n hn m hm rfl
        rw [List.mem_singleton.mp hm] at hn
        exact hnew hn
      unconsumed := by
        intro row hrow hopen hmem
        obtain ⟨old, hold, hserial, hsame⟩ := consumed_row hrow
        rw [hserial] at hmem
        rcases List.mem_append.mp hmem with hmem | hmem
        · exact hs.unconsumed old hold (hsame hopen).1 hmem
        · -- the row of the login was consumed
          have heq : old = login :=
            eq_of_key_eq hs.serials hold hlogin (List.mem_singleton.mp hmem)
          rw [heq, hanswerable] at hsame
          exact nomatch (hsame hopen).2
      under_way := by
        intro i phase hi
        rcases hrequest i phase hi with hi | ⟨-, heq⟩
        · exact ⟨List.mem_append_left _ (hs.under_way i phase hi).1, (hs.under_way i phase hi).2⟩
        · rw [heq]
          refine ⟨List.mem_append_right _ (List.mem_singleton_self _), fun hmem => ?_⟩
          obtain ⟨a, ha, hserial⟩ := List.mem_map.mp hmem
          exact hnew (hserial ▸ hs.accepted_answered a ha)
      distinct := by
        intro i j p q hi hj hserial
        rcases hrequest i p hi with hi | ⟨hilen, hip⟩ <;> rcases hrequest j q hj with hj | ⟨hjlen, hjq⟩
        · exact hs.distinct i j p q hi hj hserial
        · rw [hjq] at hserial
          exact absurd (hserial ▸ (hs.under_way i p hi).1) hnew
        · rw [hip] at hserial
          exact absurd (hserial ▸ (hs.under_way j q hj).1) hnew
        · rw [hilen, hjlen]
      accepted_answered := fun a ha => List.mem_append_left _ (hs.accepted_answered a ha)
      accepted_nodup := hs.accepted_nodup }
  | advanced _ i phase next hphase hnext =>
    have hlogin := hnext.login
    exact { hs with
      under_way := by
        intro j p hj
        rcases enter_request hj with ⟨-, hp⟩ | ⟨-, hj⟩
        · rw [hp, hlogin]
          exact hs.under_way i phase hphase
        · exact hs.under_way j p hj
      distinct := by
        intro j k p q hj hk hserial
        rcases enter_request hj with ⟨hji, hp⟩ | ⟨-, hj⟩ <;>
          rcases enter_request hk with ⟨hki, hq⟩ | ⟨-, hk⟩
        · rw [hji, hki]
        · rw [hp, hlogin] at hserial
          rw [hji]
          exact hs.distinct i k phase q hphase hk hserial
        · rw [hq, hlogin] at hserial
          rw [hki]
          exact hs.distinct j i p phase hj hphase hserial
        · exact hs.distinct j k p q hj hk hserial }
  | closed _ i => exact hs.close i
  | recorded i login config assertion now window accepted hphase hfresh haccepted =>
    have hunder := hs.under_way i _ hphase
    have haccepted_login : ∀ a ∈ accepted, a.login = login := by
      intro a ha
      rcases haccepted with rfl | ⟨identity, rfl⟩
      · exact nomatch ha
      · rw [List.mem_singleton.mp ha]
    have hmem : ∀ a ∈ s.accepted ++ accepted, a ∈ s.accepted ∨ a.login = login := fun a ha =>
      (List.mem_append.mp ha).imp_right (haccepted_login a)
    exact { hs.close i with
      under_way := by
        intro j phase hj
        obtain ⟨hne, hj⟩ := close_request hj
        refine ⟨(hs.under_way j phase hj).1, fun hserial => ?_⟩
        obtain ⟨a, ha, heq⟩ := List.mem_map.mp hserial
        rcases hmem a ha with ha | ha
        · exact (hs.under_way j phase hj).2 (List.mem_map.mpr ⟨a, ha, heq⟩)
        · rw [ha] at heq
          exact hne (hs.distinct j i phase _ hj hphase heq.symm)
      accepted_answered := by
        intro a ha
        rcases hmem a ha with ha | ha
        · exact hs.accepted_answered a ha
        · rw [ha]
          exact hunder.1
      accepted_nodup := by
        rcases haccepted with rfl | ⟨identity, rfl⟩
        · rw [List.append_nil]
          exact hs.accepted_nodup
        · rw [List.map_append]
          refine List.nodup_append.mpr ⟨hs.accepted_nodup, List.nodup_singleton _, ?_⟩
          rintro n hn m hm rfl
          rw [List.map_singleton, List.mem_singleton] at hm
          exact hunder.2 (hm ▸ hn) }
  | prunedLogins now =>
    exact { hs with
      serials := hs.serials.sublist (List.filter_sublist.map _)
      serial_lt := fun row hrow => hs.serial_lt row (List.mem_of_mem_filter hrow)
      unconsumed := fun row hrow => hs.unconsumed row (List.mem_of_mem_filter hrow) }
  | prunedLedger now => exact { hs with }

/-! ## Acceptances -/

section

variable (dateParse : String → Option Int)

def LoginPhase.Sound (s : Federation) : LoginPhase → Prop
  | .consumed _ _ => True
  | .provided login _ row => row ∈ s.provided ∧ row.key = login.provider
  | .configured login _ config => ConfiguredBy s.provided login config
  | .validated login config _ => ConfiguredBy s.provided login config
  | .checked login config assertion now => ConfiguredBy s.provided login config ∧
      Admissible dateParse assertion config login.binding now ∧ microseconds now ≤ s.clock

/-- The acceptance keeps to the limits of the tenant that started the login. -/
structure Acceptance.Sound (s : Federation) (a : Acceptance) : Prop where
  configured : ConfiguredBy s.provided a.login a.config
  admissible : Admissible dateParse a.assertion a.config a.login.binding a.now
  past : microseconds a.now ≤ s.clock

structure Federation.Sound (s : Federation) : Prop where
  providers : ∀ row ∈ s.providers, row ∈ s.provided
  requests : ∀ (i : Nat) (phase : LoginPhase), s.requests[i]?.join = some phase →
    phase.Sound dateParse s
  accepted : ∀ a ∈ s.accepted, a.Sound dateParse s

end

/-- The configurations that there have been, and the times that are past, only become more. -/
def Federation.Later (s s' : Federation) : Prop :=
  s.provided ⊆ s'.provided ∧ s.clock ≤ s'.clock

theorem ConfiguredBy.later {login : LoginRow} {config : FederationConfig} (h : s.Later s')
    (hs : ConfiguredBy s.provided login config) : ConfiguredBy s'.provided login config := by
  obtain ⟨row, hrow, hconfigured⟩ := hs
  exact ⟨row, h.1 hrow, hconfigured⟩

theorem LoginPhase.Sound.later {phase : LoginPhase} (h : s.Later s') (hs : phase.Sound dateParse s) :
    phase.Sound dateParse s' := by
  cases phase with
  | consumed => trivial
  | provided => exact ⟨h.1 hs.1, hs.2⟩
  | configured => exact ConfiguredBy.later h hs
  | validated => exact ConfiguredBy.later h hs
  | checked => exact ⟨hs.1.later h, hs.2.1, hs.2.2.trans h.2⟩

theorem Acceptance.Sound.later {a : Acceptance} (h : s.Later s') (hs : a.Sound dateParse s) :
    a.Sound dateParse s' :=
  ⟨hs.configured.later h, hs.admissible, hs.past.trans h.2⟩

theorem FederationMove.later {action : FederationAction}
    (h : FederationMove dateParse s action s') : s.Later s' := by
  cases h with
  | passed micros => exact ⟨List.Subset.refl _, Int.le_add_of_nonneg_right (Int.natCast_nonneg _)⟩
  | configured row => exact ⟨List.subset_append_left _ _, le_refl _⟩
  | _ => exact ⟨List.Subset.refl _, le_refl _⟩

theorem LoginPhase.Next.sound {i : Nat} {action : FederationAction} {phase next : LoginPhase}
    (hs : s.Sound dateParse) (hphase : s.requests[i]?.join = some phase)
    (h : LoginPhase.Next dateParse s i action phase next) : next.Sound dateParse s := by
  have hsound := hs.requests i phase hphase
  cases h with
  | provided hrow hkey => exact ⟨hs.providers _ hrow, hkey⟩
  | configured mappings hconfig => exact ⟨_, hsound.1, hsound.2, mappings, hconfig⟩
  | validated => exact hsound
  | checked hadmissible =>
    refine ⟨hsound, hadmissible, ?_⟩
    unfold microseconds
    omega

theorem Federation.Sound.step {action : FederationAction} (hs : s.Sound dateParse)
    (hmove : FederationMove dateParse s action s') : s'.Sound dateParse := by
  have hlater := hmove.later
  have haccepted : ∀ a ∈ s.accepted, a.Sound dateParse s' := fun a ha =>
    (hs.accepted a ha).later hlater
  have hrequests : ∀ (i : Nat) (phase : LoginPhase), s.requests[i]?.join = some phase →
      phase.Sound dateParse s' := fun i phase hi => (hs.requests i phase hi).later hlater
  cases hmove with
  | unchanged => exact hs
  | passed micros => exact ⟨hs.providers, hrequests, haccepted⟩
  | configured row =>
    refine ⟨fun old hold => ?_, hrequests, haccepted⟩
    rcases List.mem_cons.mp hold with rfl | hold
    · exact List.mem_append_right _ (List.mem_singleton_self _)
    · exact List.mem_append_left _ (hs.providers old (List.mem_of_mem_filter hold))
  | unconfigured key =>
    exact ⟨fun old hold => hs.providers old (List.mem_of_mem_filter hold), hrequests, haccepted⟩
  | started => exact ⟨hs.providers, hrequests, haccepted⟩
  | consumed _ login reference now hfound opened hopened =>
    refine ⟨hs.providers, fun i phase hi => ?_, haccepted⟩
    rcases slot_append hi with hi | ⟨-, hi⟩
    · exact hrequests i phase hi
    · rcases hopened with rfl | ⟨kind, rfl⟩
      · exact nomatch hi
      · obtain rfl := Option.some.inj (List.mem_singleton.mp (mem_of_slot hi))
        trivial
  | advanced _ i phase next hphase hnext =>
    refine ⟨hs.providers, fun j p hj => ?_, haccepted⟩
    rcases enter_request hj with ⟨-, rfl⟩ | ⟨-, hj⟩
    · exact hnext.sound hs hphase |>.later hlater
    · exact hrequests j p hj
  | closed _ i => exact ⟨hs.providers, fun j p hj => hrequests j p (close_request hj).2, haccepted⟩
  | recorded i login config assertion now window accepted hphase hfresh haccept =>
    refine ⟨hs.providers, fun j p hj => hrequests j p (close_request hj).2, fun a ha => ?_⟩
    rcases List.mem_append.mp ha with ha | ha
    · exact haccepted a ha
    · rcases haccept with rfl | ⟨identity, rfl⟩
      · exact nomatch ha
      · obtain ⟨hconfigured, hadmissible, hpast⟩ := hrequests i _ hphase
        rw [List.mem_singleton.mp ha]
        exact ⟨hconfigured, hadmissible, hpast⟩
  | prunedLogins now => exact ⟨hs.providers, hrequests, haccepted⟩
  | prunedLedger now => exact ⟨hs.providers, hrequests, haccepted⟩

/-! ## Assertion ids -/

/-- The id that the request has still to record, once its assertion was checked. -/
def LoginPhase.recording : LoginPhase → Option AssertionKey
  | .checked login _ assertion _ => some (login.provider.tenantId, assertion.assertionId)
  | _ => none

variable (dateParse) in
/--
The ledger is not pruned of an id that a checked request has still to record, and no id comes back
after that with a window that ends later.
-/
def Timely (s : Federation) : FederationAction → Prop
  | .pruneLedger now => ∀ row ∈ s.ledger, row.prunable now = true →
      ∀ request ∈ s.requests, request.bind LoginPhase.recording ≠ some row.key
  | .check i => ∀ login config assertion,
      s.requests[i]?.join = some (.validated login config assertion) →
      ∀ row ∈ s.pruned, row.key = (login.provider.tenantId, assertion.assertionId) →
        ∀ millis, dateParse assertion.notOnOrAfter = some millis →
          microseconds millis ≤ row.notOnOrAfter
  | _ => True

instance decidableTimely (s : Federation) : ∀ action, Decidable (Timely dateParse s action)
  | .pruneLedger now => inferInstanceAs (Decidable (∀ row ∈ s.ledger, row.prunable now = true →
      ∀ request ∈ s.requests, request.bind LoginPhase.recording ≠ some row.key))
  | .check i =>
    match h : s.requests[i]?.join with
    | some (.validated login config assertion) =>
      decidable_of_iff (∀ row ∈ s.pruned, row.key = (login.provider.tenantId, assertion.assertionId) →
          ∀ millis ∈ dateParse assertion.notOnOrAfter, microseconds millis ≤ row.notOnOrAfter)
        ⟨fun hall _ _ _ heq => by cases h.symm.trans heq; exact hall, fun hall => hall _ _ _ h⟩
    | none => isTrue fun _ _ _ heq => nomatch h.symm.trans heq
    | some (.consumed _ _) => isTrue fun _ _ _ heq => nomatch h.symm.trans heq
    | some (.provided _ _ _) => isTrue fun _ _ _ heq => nomatch h.symm.trans heq
    | some (.configured _ _ _) => isTrue fun _ _ _ heq => nomatch h.symm.trans heq
    | some (.checked _ _ _ _) => isTrue fun _ _ _ heq => nomatch h.symm.trans heq
  | .tick _ => isTrue trivial
  | .configure _ => isTrue trivial
  | .unconfigure _ => isTrue trivial
  | .startLogin _ _ _ _ => isTrue trivial
  | .present _ _ _ => isTrue trivial
  | .readProvider _ => isTrue trivial
  | .readMappings _ => isTrue trivial
  | .validate _ _ _ => isTrue trivial
  | .conclude _ => isTrue trivial
  | .abandon _ => isTrue trivial
  | .pruneLoginRequests _ => isTrue trivial

structure Federation.Recorded (s : Federation) : Prop where
  kept : ∀ key ∈ s.consumed,
    (∃ row ∈ s.ledger, row.key = key) ∨ ∃ row ∈ s.pruned, row.key = key
  past : ∀ row ∈ s.pruned, row.notOnOrAfter < s.clock
  sublist : (s.accepted.map (·.key)).Sublist s.consumed
  once : s.consumed.Nodup
  recording : ∀ (i : Nat) (phase : LoginPhase), s.requests[i]?.join = some phase →
    ∀ row ∈ s.pruned, phase.recording ≠ some row.key

theorem expired_of_pruned {config : FederationConfig} {assertion : WorkforceAssertion}
    {binding : FederationRequestBinding} {row : LedgerRow} (hpast : row.notOnOrAfter < s.clock)
    (hwindow : ∀ millis, dateParse assertion.notOnOrAfter = some millis →
      microseconds millis ≤ row.notOnOrAfter) :
    ¬Admissible dateParse assertion config binding (s.clock / 1000) := by
  intro h
  obtain ⟨millis, hparse, hlt⟩ := h.notOnOrAfter
  have hle := hwindow millis hparse
  unfold microseconds at hle
  omega

theorem Federation.Recorded.step {action : FederationAction} (hs : s.Recorded)
    (htimely : Timely dateParse s action) (hmove : FederationMove dateParse s action s') :
    s'.Recorded := by
  cases hmove with
  | unchanged => exact hs
  | passed micros => exact { hs with past := fun row hrow => by have := hs.past row hrow; simp only; omega }
  | configured row => exact { hs with }
  | unconfigured key => exact { hs with }
  | started => exact { hs with }
  | consumed _ login reference now hfound opened hopened =>
    exact { hs with
      recording := by
        intro i phase hi
        rcases slot_append hi with hi | ⟨-, hi⟩
        · exact hs.recording i phase hi
        · rcases hopened with rfl | ⟨kind, rfl⟩
          · exact nomatch hi
          · obtain rfl := Option.some.inj (List.mem_singleton.mp (mem_of_slot hi))
            exact fun _ _ h => nomatch h }
  | advanced _ i phase next hphase hnext =>
    exact { hs with
      recording := by
        intro j p hj row hrow
        rcases enter_request hj with ⟨-, hp⟩ | ⟨-, hj⟩
        · rw [hp]
          intro hkey
          cases hnext with
          | checked hadmissible =>
            -- its window is over, like that of the removed entry
            refine expired_of_pruned (hs.past row hrow) ?_ hadmissible
            exact htimely _ _ _ hphase row hrow (Option.some.inj hkey).symm
          | _ => exact nomatch hkey
        · exact hs.recording j p hj row hrow }
  | closed _ i =>
    exact { hs with recording := fun j p hj => hs.recording j p (close_request hj).2 }
  | recorded i login config assertion now window accepted hphase hfresh haccepted =>
    have hnew : (login.provider.tenantId, assertion.assertionId) ∉ s.consumed := by
      intro hmem
      rcases hs.kept _ hmem with ⟨row, hrow, hkey⟩ | ⟨row, hrow, hkey⟩
      · exact hfresh row hrow hkey
      · exact hs.recording i _ hphase row hrow (congrArg some hkey.symm)
    exact { hs with
      kept := by
        intro key hkey
        rcases List.mem_append.mp hkey with hkey | hkey
        · refine (hs.kept key hkey).imp_left ?_
          rintro ⟨row, hrow, heq⟩
          exact ⟨row, List.mem_append_left _ hrow, heq⟩
        · refine .inl ⟨_, List.mem_append_right _ (List.mem_singleton_self _), ?_⟩
          exact (List.mem_singleton.mp hkey).symm
      sublist := by
        rw [List.map_append]
        refine hs.sublist.append ?_
        rcases haccepted with rfl | ⟨identity, rfl⟩
        · exact List.nil_sublist _
        · exact List.Sublist.refl _
      once := by
        refine List.nodup_append.mpr ⟨hs.once, List.nodup_singleton _, ?_⟩
        rintro key hkey other hother rfl
        rw [List.mem_singleton.mp hother] at hkey
        exact hnew hkey
      recording := fun j p hj => hs.recording j p (close_request hj).2 }
  | prunedLogins now => exact { hs with }
  | prunedLedger now hnow =>
    exact { hs with
      kept := by
        intro key hkey
        rcases hs.kept key hkey with ⟨row, hrow, heq⟩ | ⟨row, hrow, heq⟩
        · -- the entry stays, or it is among the removed ones
          cases hprunable : row.prunable now with
          | false => exact .inl ⟨row, List.mem_filter.mpr ⟨hrow, by rw [hprunable]; rfl⟩, heq⟩
          | true =>
            refine .inr ⟨row, List.mem_append_right _ ?_, heq⟩
            exact List.mem_filter.mpr ⟨hrow, hprunable⟩
        · exact .inr ⟨row, List.mem_append_left _ hrow, heq⟩
      past := by
        intro row hrow
        rcases List.mem_append.mp hrow with hrow | hrow
        · exact hs.past row hrow
        · have hlt : row.notOnOrAfter < microseconds now :=
            of_decide_eq_true (List.mem_filter.mp hrow).2
          exact hlt.trans_le hnow
      recording := by
        intro i phase hi row hrow
        rcases List.mem_append.mp hrow with hrow | hrow
        · exact hs.recording i phase hi row hrow
        · obtain ⟨hmem, hprunable⟩ := List.mem_filter.mp hrow
          exact htimely row hmem hprunable (some phase) (mem_of_slot hi) }

/-! ## Every run -/

theorem answered_start (clock : Int) : (federationStart clock).Answered where
  serials := List.nodup_nil
  serial_lt := fun _ h => nomatch h
  answered_lt := fun _ h => nomatch h
  answered_nodup := List.nodup_nil
  unconsumed := fun _ h => nomatch h
  under_way := fun i _ h => by simp [federationStart] at h
  distinct := fun i _ _ _ h => by simp [federationStart] at h
  accepted_answered := fun _ h => nomatch h
  accepted_nodup := List.nodup_nil

theorem sound_start (clock : Int) : (federationStart clock).Sound dateParse where
  providers := fun _ h => nomatch h
  requests := fun i _ h => by simp [federationStart] at h
  accepted := fun _ h => nomatch h

theorem recorded_start (clock : Int) : (federationStart clock).Recorded where
  kept := fun _ h => nomatch h
  past := fun _ h => nomatch h
  sublist := List.Sublist.refl _
  once := List.nodup_nil
  recording := fun i _ h => by simp [federationStart] at h

/--
Every login is answered once and every acceptance keeps to the limits of its tenant, in every run;
every assertion id of a tenant is accepted once when the steps of the run are timely.
-/
theorem logins_single_use {clock : Int} {actions : List FederationAction}
    (hr : run (federationStep dateParse timestamptz) (federationStart clock) actions = some s)
    (htimely : Meets (federationStep dateParse timestamptz) (Timely dateParse)
      (federationStart clock) actions) :
    s.answered.Nodup ∧ (s.accepted.map (·.login.serial)).Nodup ∧
      (s.accepted.map (·.key)).Nodup ∧ ∀ a ∈ s.accepted, a.Sound dateParse s := by
  have hanswered : s.Answered :=
    run_invariant (fun _ _ _ hs h => hs.step (federationStep_move h)) (answered_start clock) hr
  have hsound : s.Sound dateParse :=
    run_invariant (fun _ _ _ hs h => hs.step (federationStep_move h)) (sound_start clock) hr
  have hrecorded : s.Recorded :=
    run_invariant_of_meets (fun _ _ _ hs ht h => hs.step ht (federationStep_move h))
      (recorded_start clock) htimely hr
  exact ⟨hanswered.answered_nodup, hanswered.accepted_nodup,
    hrecorded.once.sublist hrecorded.sublist, hsound.accepted⟩

end

/-! ## Two logins with one assertion -/

def noon : Int := 1782907200000

def exampleDates : List (String × Int) :=
  [("2026-07-01T12:00:30Z", noon + 30000), ("2026-07-01T12:05:00Z", noon + 300000)]

def exampleDateParse (text : String) : Option Int := exampleDates.lookup text

def exampleTimestamptz (text : String) : Option Int := (exampleDateParse text).map microseconds

def exampleProvider : ProviderKey where
  tenantId := "99999999-1111-4999-8999-999999999999"
  providerKey := "GENERIC_SAML"
  environment := "production"

def exampleProviderRow : ProviderRow where
  key := exampleProvider
  enabled := true
  publicConfiguration := .object [("issuer", .lit "https://idp.example"),
    ("audience", .lit "https://sign.example"), ("destination", .lit "https://sign.example/acs"),
    ("assignableRoles", .arr [.lit "readonly"])]
  roleMappings := [("CN=Lasare", "readonly")]

def exampleReport (requestId : String) : FederationReport where
  result := "PASS"
  signatureVerified := true
  assertionId := some "_a1b2c3d4e5f6"
  issuer := some "https://idp.example"
  audience := some "https://sign.example"
  destination := some "https://sign.example/acs"
  inResponseTo := some requestId
  notBefore := none
  notOnOrAfter := some "2026-07-01T12:05:00Z"
  authenticatedAt := some "2026-07-01T12:00:30Z"
  authnContext := none
  subject := some "anna"
  attributes := [("groups", ["CN=Lasare"])]

def firstLogin : String := "_firstfirstfirst1"

def secondLogin : String := "_secondsecond0002"

def exampleRequests : List FederationAction :=
  [.configure exampleProviderRow,
    .startLogin exampleProvider firstLogin "https://sign.example/acs" "/",
    .startLogin exampleProvider secondLogin "https://sign.example/acs" "/",
    .tick 240000000,
    .present "GENERIC_SAML" ⟨.SAML2, some firstLogin, some "PHNhbWxwOlJlc3BvbnNl"⟩ (noon + 240000),
    .present "GENERIC_SAML" ⟨.SAML2, some secondLogin, some "PHNhbWxwOlJlc3BvbnNl"⟩ (noon + 240000),
    .readProvider 0, .readMappings 0, .validate 0 true (exampleReport firstLogin),
    .readProvider 1, .readMappings 1, .validate 1 true (exampleReport secondLogin)]

/-- The ledger is pruned after the window, between the check of the second request and its insert. -/
theorem accepted_twice_after_prune :
    ∃ s, run (federationStep exampleDateParse exampleTimestamptz) (federationStart (microseconds noon))
        (exampleRequests ++ [.check 0, .check 1, .conclude 0, .tick 61000000,
          .pruneLedger (noon + 301000), .conclude 1]) = some s ∧
      ¬(s.accepted.map (·.key)).Nodup := by
  have hrun : (run (federationStep exampleDateParse exampleTimestamptz)
      (federationStart (microseconds noon))
      (exampleRequests ++ [.check 0, .check 1, .conclude 0, .tick 61000000,
        .pruneLedger (noon + 301000), .conclude 1])).map (fun s => s.accepted.map (·.key)) =
      some [(exampleProvider.tenantId, "_a1b2c3d4e5f6"),
        (exampleProvider.tenantId, "_a1b2c3d4e5f6")] := by
    decide +kernel
  obtain ⟨s, hs, haccepted⟩ := Option.map_eq_some_iff.mp hrun
  refine ⟨s, hs, ?_⟩
  rw [haccepted]
  decide

/-- When the second request is checked after that, it is too late. -/
theorem accepted_once_before_prune :
    ∃ s, run (federationStep exampleDateParse exampleTimestamptz) (federationStart (microseconds noon))
        (exampleRequests ++ [.check 0, .conclude 0, .tick 61000000,
          .pruneLedger (noon + 301000), .check 1]) = some s ∧
      s.accepted.length = 1 ∧ (s.accepted.map (·.key)).Nodup := by
  have hrun : (run (federationStep exampleDateParse exampleTimestamptz)
      (federationStart (microseconds noon))
      (exampleRequests ++ [.check 0, .conclude 0, .tick 61000000,
        .pruneLedger (noon + 301000), .check 1])).map (·.accepted.length) = some 1 := by
    decide +kernel
  obtain ⟨s, hs, hlength⟩ := Option.map_eq_some_iff.mp hrun
  have htimely : Meets (federationStep exampleDateParse exampleTimestamptz)
      (Timely exampleDateParse) (federationStart (microseconds noon))
      (exampleRequests ++ [.check 0, .conclude 0, .tick 61000000,
        .pruneLedger (noon + 301000), .check 1]) := by
    decide +kernel
  exact ⟨s, hs, hlength, (logins_single_use hs htimely).2.2.1⟩

end Kommunsign
