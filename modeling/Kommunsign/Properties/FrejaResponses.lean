import Kommunsign.Infra.Run
import Kommunsign.Signing.Freja

/-!
# Accepted and rejected responses

* `frejaResponses_iff` — no nonce is accepted twice; acceptance is bound and rejection leaves the
  ledger as it was exactly where a response that matches its request is acceptable too
-/

namespace Kommunsign.Freja

open Infra

section

variable {toUpperCase : String → String} {parseDate : String → Option Int} {config : FrejaConfig}
  {claims : FrejaSignatureClaims} {expectation : FrejaExpectation} {now : Int}

structure AnswersRequest (toUpperCase : String → String) (config : FrejaConfig)
    (claims : FrejaSignatureClaims) (expectation : FrejaExpectation) : Prop where
  signature : claims.signatureVerified = true
  algorithm : claims.algorithm ∈ config.allowedAlgorithms
  issuer : claims.issuer = config.issuer
  audience : claims.audience = config.audience
  status : toUpperCase claims.status = "APPROVED"
  transaction : claims.transactionReference = expectation.transactionReference
  intent : claims.signRef = expectation.signRef
  signedData : claims.signedDataSha256 = expectation.signedDataSha256
  nonce : claims.nonce = expectation.nonce

/-- It is inside its validity and the maximum age, and its level and subject suffice. -/
structure IsCurrent (parseDate : String → Option Int) (config : FrejaConfig)
    (claims : FrejaSignatureClaims) (expectation : FrejaExpectation) (now : Int) : Prop where
  valid : ∃ issuedAt expiresAt, parseDate claims.issuedAt = some issuedAt ∧
    parseDate claims.expiresAt = some expiresAt ∧ issuedAt ≤ now ∧ now < expiresAt ∧
      now - issuedAt ≤ config.maximumResponseAgeSeconds * 1000
  level : FREJA_REGISTRATION_LEVELS.idxOf config.minimumRegistrationLevel ≤
    FREJA_REGISTRATION_LEVELS.idxOf claims.registrationLevel
  subjectType : claims.subjectType = .INFERRED →
    expectation.documentClassification ≠ .CONFIDENTIAL ∧
      expectation.documentClassification ≠ .HIGHLY_CONFIDENTIAL

/-- Under OrgID the organisation is that of the tenant, which is configured. -/
def FromOwnOrganisation (config : FrejaConfig) (claims : FrejaSignatureClaims) : Prop :=
  config.method = .FREJA_ORGID → ∃ organisationId, organisationId ≠ "" ∧
    config.expectedOrganisationId = some organisationId ∧
      claims.organisationId = some organisationId

/-- Every acceptance is of a response that is all of this, and every rejection leaves the ledger. -/
def DecidesProperly (toUpperCase : String → String) (parseDate : String → Option Int)
    (config : FrejaConfig) (desk : FrejaDesk) (call : FrejaCall) : Prop :=
  match verifyEvidence toUpperCase parseDate config call desk.nonces with
  | (.ok _, _) => ∃ claims expectation, call.verified = .ok claims ∧
      call.expectationFor call.evidence.providerReference = .ok expectation ∧
      AnswersRequest toUpperCase config claims expectation ∧
      IsCurrent parseDate config claims expectation call.now ∧ FromOwnOrganisation config claims
  | (.error _, nonces) => nonces = desk.nonces

/-- A response that answers its request with a nonce that is not used is acceptable. -/
def AcceptableIfUnused (toUpperCase : String → String) (parseDate : String → Option Int)
    (config : FrejaConfig) (desk : FrejaDesk) (call : FrejaCall) : Prop :=
  ∀ claims expectation, call.verified = .ok claims →
    call.expectationFor call.evidence.providerReference = .ok expectation →
    AnswersRequest toUpperCase config claims expectation → claims.nonce ∉ desk.nonces →
      IsCurrent parseDate config claims expectation call.now ∧ FromOwnOrganisation config claims

/-! ## The checks -/

theorem checkBindings_eq_ok : checkBindings toUpperCase config claims expectation = .ok () ↔
    AnswersRequest toUpperCase config claims expectation := by
  unfold checkBindings
  simp only [except_guard_eq_ok, except_guard_end_eq_ok, Bool.not_eq_false, not_not, ne_eq,
    and_true]
  constructor
  · rintro ⟨h₁, h₂, h₃, h₄, h₅, h₆, h₇, h₈, h₉⟩
    exact ⟨h₁, h₂, h₃, h₄, h₅, h₆, h₇, h₈, h₉⟩
  · rintro ⟨h₁, h₂, h₃, h₄, h₅, h₆, h₇, h₈, h₉⟩
    exact ⟨h₁, h₂, h₃, h₄, h₅, h₆, h₇, h₈, h₉⟩

theorem checkOrganisation_of_own (h : FromOwnOrganisation config claims) :
    checkOrganisation config claims = .ok () := by
  unfold checkOrganisation
  by_cases hmethod : config.method = .FREJA_ORGID
  · obtain ⟨organisationId, hne, hexpected, hclaimed⟩ := h hmethod
    have htruthy : truthy (some organisationId) = some organisationId := by
      rw [truthy, Option.filter_some, decide_eq_true hne]
      rfl
    rw [if_pos hmethod, hclaimed, hexpected, htruthy]
    simp
    rfl
  · rw [if_neg hmethod]
    rfl

theorem parseInstant_eq_ok {value : String} {code : FrejaRejectionCode} {time : Int} :
    parseInstant parseDate value code = .ok time ↔ parseDate value = some time := by
  unfold parseInstant
  cases parseDate value with
  | none => exact ⟨nofun, nofun⟩
  | some _ =>
    exact ⟨fun h => congrArg some (Except.ok.inj h), fun h => congrArg _ (Option.some.inj h)⟩

theorem assertFrejaSubjectType_eq_ok : assertFrejaSubjectType claims expectation = .ok () ↔
    (claims.subjectType = .INFERRED → expectation.documentClassification ≠ .CONFIDENTIAL ∧
      expectation.documentClassification ≠ .HIGHLY_CONFIDENTIAL) := by
  unfold assertFrejaSubjectType
  rw [except_guard_end_eq_ok, and_iff_left rfl, not_and, not_or]

theorem registrationLevelAtLeast_eq_true {actual required : FrejaRegistrationLevel} :
    registrationLevelAtLeast actual required = true ↔
      FREJA_REGISTRATION_LEVELS.idxOf required ≤ FREJA_REGISTRATION_LEVELS.idxOf actual :=
  decide_eq_true_iff

theorem checkUse_eq_ok : checkUse parseDate config claims expectation now = .ok () ↔
    IsCurrent parseDate config claims expectation now ∧ checkOrganisation config claims = .ok () := by
  unfold checkUse
  simp only [except_bind_eq_ok, parseInstant_eq_ok, except_guard_eq_ok,
    registrationLevelAtLeast_eq_true, Bool.not_eq_false]
  constructor
  · rintro ⟨issuedAt, hissued, expiresAt, hexpires, hpast, hfuture, hage, hlevel, _, hsubject,
      horganisation⟩
    exact ⟨⟨⟨issuedAt, expiresAt, hissued, hexpires, by omega, by omega, by omega⟩, hlevel,
      assertFrejaSubjectType_eq_ok.mp hsubject⟩, horganisation⟩
  · rintro ⟨⟨⟨issuedAt, expiresAt, hissued, hexpires, hpast, hfuture, hage⟩, hlevel, hsubject⟩,
      horganisation⟩
    exact ⟨issuedAt, hissued, expiresAt, hexpires, by omega, by omega, by omega, hlevel, (),
      assertFrejaSubjectType_eq_ok.mpr hsubject, horganisation⟩

/-! ## One call -/

variable {desk desk' : FrejaDesk} {call : FrejaCall} {failure : FrejaFailure}

theorem verifyFrejaSignatureClaims_of_not (parseDate : String → Option Int) (now : Int)
    {nonces : List String}
    (h : ¬(AnswersRequest toUpperCase config claims expectation ∧ claims.nonce ∉ nonces)) :
    ∃ failure, verifyFrejaSignatureClaims toUpperCase parseDate config claims expectation now nonces =
      (.error failure, nonces) := by
  unfold verifyFrejaSignatureClaims
  cases hbindings : checkBindings toUpperCase config claims expectation with
  | error failure => exact ⟨failure, rfl⟩
  | ok _ =>
    have hused : claims.nonce ∈ nonces := by
      by_contra hnew
      exact h ⟨checkBindings_eq_ok.mp hbindings, hnew⟩
    rw [consume, if_pos hused]
    exact ⟨_, rfl⟩

theorem verifyFrejaSignatureClaims_of_answers {nonces : List String}
    (h : AnswersRequest toUpperCase config claims expectation) (hnew : claims.nonce ∉ nonces) :
    verifyFrejaSignatureClaims toUpperCase parseDate config claims expectation now nonces =
      (checkUse parseDate config claims expectation now, claims.nonce :: nonces) := by
  unfold verifyFrejaSignatureClaims
  rw [checkBindings_eq_ok.mpr h, consume, if_neg hnew]

theorem decidesProperly_iff : DecidesProperly toUpperCase parseDate config desk call ↔
    AcceptableIfUnused toUpperCase parseDate config desk call := by
  unfold DecidesProperly AcceptableIfUnused verifyEvidence
  cases hverified : call.verified with
  | error failure => exact ⟨fun _ _ _ h => (nomatch h), fun _ => rfl⟩
  | ok claims =>
    cases hbound : call.expectationFor call.evidence.providerReference with
    | error failure => exact ⟨fun _ _ _ _ h => (nomatch h), fun _ => rfl⟩
    | ok expectation =>
      dsimp only
      by_cases h : AnswersRequest toUpperCase config claims expectation ∧ claims.nonce ∉ desk.nonces
      · rw [verifyFrejaSignatureClaims_of_answers h.1 h.2]
        cases huse : checkUse parseDate config claims expectation call.now with
        | error failure =>
          -- the nonce is gone
          refine iff_of_false (fun heq => List.cons_ne_self _ _ heq) fun hall => ?_
          obtain ⟨hcurrent, hown⟩ := hall claims expectation rfl rfl h.1 h.2
          rw [checkUse_eq_ok.mpr ⟨hcurrent, checkOrganisation_of_own hown⟩] at huse
          cases huse
        | ok _ =>
          constructor
          · rintro ⟨_, _, hclaims, hexpectation, _, hcurrent, hown⟩ _ _ hclaims' hexpectation' _ _
            cases hclaims
            cases hexpectation
            cases hclaims'
            cases hexpectation'
            exact ⟨hcurrent, hown⟩
          · intro hall
            exact ⟨claims, expectation, rfl, rfl, h.1, hall claims expectation rfl rfl h.1 h.2⟩
      · obtain ⟨failure, hrejected⟩ := verifyFrejaSignatureClaims_of_not parseDate
          call.now h
        rw [hrejected]
        refine iff_of_true rfl fun claims' expectation' hclaims hexpectation hanswers hnew => ?_
        cases hclaims
        cases hexpectation
        exact absurd ⟨hanswers, hnew⟩ h

structure FrejaDesk.Kept (desk : FrejaDesk) : Prop where
  nodup : desk.accepted.Nodup
  consumed : desk.accepted ⊆ desk.nonces

theorem kept_of_step (hkept : desk.Kept)
    (h : FrejaDesk.step toUpperCase parseDate config desk call = some desk') : desk'.Kept := by
  unfold FrejaDesk.step verifyEvidence at h
  cases hverified : call.verified with
  | error failure =>
    rw [hverified] at h
    cases h
    exact hkept
  | ok claims =>
    rw [hverified] at h
    cases hbound : call.expectationFor call.evidence.providerReference with
    | error failure =>
      rw [hbound] at h
      cases h
      exact hkept
    | ok expectation =>
      rw [hbound] at h
      dsimp only at h
      by_cases hnew :
          AnswersRequest toUpperCase config claims expectation ∧ claims.nonce ∉ desk.nonces
      · rw [verifyFrejaSignatureClaims_of_answers hnew.1 hnew.2] at h
        have hmore : desk.accepted ⊆ claims.nonce :: desk.nonces :=
          fun nonce hnonce => List.mem_cons_of_mem _ (hkept.consumed hnonce)
        cases huse : checkUse parseDate config claims expectation call.now with
        | error failure =>
          rw [huse] at h
          cases h
          exact ⟨hkept.nodup, hmore⟩
        | ok _ =>
          rw [huse] at h
          cases h
          constructor
          · refine List.nodup_append.mpr ⟨hkept.nodup, List.nodup_singleton _, ?_⟩
            intro nonce hnonce other hother
            obtain rfl : other = claims.nonce := List.mem_singleton.mp hother
            rintro rfl
            exact hnew.2 (hkept.consumed hnonce)
          · exact List.append_subset.mpr ⟨hmore, List.cons_subset.mpr
              ⟨List.mem_cons_self, List.nil_subset _⟩⟩
      · obtain ⟨failure, hrejected⟩ := verifyFrejaSignatureClaims_of_not parseDate
          call.now hnew
        rw [hrejected] at h
        cases h
        exact hkept

end

/-! ## Runs -/

/--
Whatever is called, with any clock: no nonce is accepted twice, and all calls decide properly if
and only if each meets the condition.
-/
theorem frejaResponses_iff {toUpperCase : String → String} {parseDate : String → Option Int}
    {config : FrejaConfig} {calls : List FrejaCall} {desk : FrejaDesk}
    (h : run (FrejaDesk.step toUpperCase parseDate config) ⟨[], []⟩ calls = some desk) :
    desk.accepted.Nodup ∧
      (Meets (FrejaDesk.step toUpperCase parseDate config)
          (DecidesProperly toUpperCase parseDate config) ⟨[], []⟩ calls ↔
        Meets (FrejaDesk.step toUpperCase parseDate config)
          (AcceptableIfUnused toUpperCase parseDate config) ⟨[], []⟩ calls) := by
  have hbegin : FrejaDesk.Kept ⟨[], []⟩ := ⟨List.nodup_nil, List.nil_subset _⟩
  refine ⟨(run_invariant (fun _ _ _ => kept_of_step) hbegin h).nodup, ?_⟩
  exact meets_iff_meets (fun _ _ _ (_ : True) _ _ => trivial)
    (fun _ _ _ _ _ => decidesProperly_iff) trivial h

namespace FrejaResponses

def config : FrejaConfig :=
  ⟨.FREJA_PLUS, "freja", "kommunsign", .EXTENDED, ["RS256"], 300, none⟩

/-- A genuine response of a minute ago, for one request; the times are in digits. -/
def claims : FrejaSignatureClaims where
  signatureVerified := true
  algorithm := "RS256"
  issuer := "freja"
  audience := "kommunsign"
  transactionReference := "t"
  signRef := "s"
  nonce := "n"
  issuedAt := "60000"
  expiresAt := "600000"
  status := "APPROVED"
  subjectType := .SSN
  subject := "u"
  personalNumber := none
  displayName := none
  registrationLevel := .PLUS
  signedDataSha256 := "d"
  organisationId := none

def call (now : Int) : FrejaCall where
  evidence := ⟨"FREJA_DIRECT", some "jws", "p"⟩
  verifyJws _ := .ok claims
  expectationFor _ := .ok ⟨"t", "s", "n", "d", .CONFIDENTIAL⟩
  now
  verifiedAt := now

/-- `Date.parse` of the times here. -/
def parseDate : String → Option Int
  | "60000" => some 60000
  | "600000" => some 600000
  | _ => none

def step : FrejaDesk → FrejaCall → Option FrejaDesk := FrejaDesk.step id parseDate config

end FrejaResponses

open FrejaResponses in
/-- In time, and then once more. -/
theorem frejaResponses_replayed : [("n" : String)].Nodup ∧
    (Meets step (DecidesProperly id parseDate config) ⟨[], []⟩ [call 120000, call 120001] ↔
      Meets step (AcceptableIfUnused id parseDate config) ⟨[], []⟩ [call 120000, call 120001]) :=
  have h : run step ⟨[], []⟩ [call 120000, call 120001] = some ⟨["n"], ["n"]⟩ := by decide
  frejaResponses_iff h

open FrejaResponses in
/-- A clock that is a minute behind: the response is from the future, and its nonce is gone. -/
theorem not_decidesProperly_early :
    run step ⟨[], []⟩ [call 59999, call 60000] = some ⟨["n"], []⟩ ∧
      ¬Meets step (DecidesProperly id parseDate config) ⟨[], []⟩ [call 59999, call 60000] := by
  refine ⟨by decide, fun h => ?_⟩
  have hrejected : verifyEvidence id parseDate config (call 59999) [] = (.error
      (.verification .FREJA_ISSUED_IN_FUTURE "Freja response is issued in the future"), ["n"]) := by
    decide
  have hfirst := h.1
  unfold DecidesProperly at hfirst
  rw [hrejected] at hfirst
  exact List.cons_ne_nil _ _ hfirst

end Kommunsign.Freja
