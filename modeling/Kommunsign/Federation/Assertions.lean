import Kommunsign.Data.Texts
import Kommunsign.Infra.Transaction

/-!
# Admission of a workforce assertion

What a SAML response or an OIDC token says is one record by the time it is decided on. It is compared
with the configuration of the tenant and with the login request it answers, then its id is consumed,
and then the rest of it is looked at.

* `toWorkforceAssertion` — the record, of a validator's report
* `checkAssertion`, `checkContext` — what is checked before the id is consumed and after
-/

namespace Kommunsign

open Infra

inductive FederationProtocol where
  | SAML2
  | OIDC
  deriving DecidableEq

inductive FederationRejectionCode where
  | PROVIDER_DISABLED
  | SIGNATURE_NOT_VERIFIED
  | TENANT_MISMATCH
  | ISSUER_MISMATCH
  | AUDIENCE_MISMATCH
  | DESTINATION_MISMATCH
  | REQUEST_MISMATCH
  | ASSERTION_NOT_YET_VALID
  | ASSERTION_EXPIRED
  | SESSION_TOO_OLD
  | ASSERTION_REPLAYED
  | AUTHN_CONTEXT_TOO_LOW
  | SUBJECT_MISSING
  | ROLE_NOT_ASSIGNABLE
  | NO_ROLE_MAPPED
  deriving DecidableEq

structure FederationError where
  code : FederationRejectionCode
  message : String
  deriving DecidableEq

structure FederationConfig where
  tenantId : UUID
  protocol : FederationProtocol
  enabled : Bool
  issuer : String
  audience : String
  destination : String
  requiredAuthnContexts : List String
  maximumAuthenticationAgeSeconds : Int
  subjectAttribute : String
  groupsAttribute : String
  groupToRole : List (String × String)
  assignableRoles : List String
  deriving DecidableEq

structure WorkforceAssertion where
  protocol : FederationProtocol
  signatureVerified : Bool
  issuer : String
  audience : String
  destination : String
  assertionId : String
  inResponseTo : Option String
  notBefore : Option String
  notOnOrAfter : String
  authenticatedAt : String
  authnContext : Option String
  subject : String
  attributes : List (String × List String)
  deriving DecidableEq

structure FederationRequestBinding where
  requestId : String
  tenantId : UUID
  redirectUri : String
  deriving DecidableEq

/-- What a validator reports; a member it leaves out or sets to `null` is `none`. -/
structure FederationReport where
  result : String
  signatureVerified : Bool
  assertionId : Option String
  issuer : Option String
  audience : Option String
  destination : Option String
  inResponseTo : Option String
  notBefore : Option String
  notOnOrAfter : Option String
  authenticatedAt : Option String
  authnContext : Option String
  subject : Option String
  attributes : List (String × List String)
  deriving DecidableEq

abbrev FederationResult := Except FederationError

/-- A text that is neither missing nor empty. -/
def present (value : Option String) (error : FederationError) : FederationResult String :=
  match value with
  | some text => if text = "" then throw error else return text
  | none => throw error

def toWorkforceAssertion (report : FederationReport) (config : FederationConfig)
    (receivedAt : String) : FederationResult WorkforceAssertion := do
  if report.result ≠ "PASS" ∨ report.signatureVerified = false then
    throw ⟨.SIGNATURE_NOT_VERIFIED, "Assertion signature was not verified"⟩
  let notOnOrAfter ← present report.notOnOrAfter
    ⟨.ASSERTION_EXPIRED, "Assertion carries no validity window"⟩
  let authenticatedAt ← present report.authenticatedAt
    ⟨.SESSION_TOO_OLD, "Assertion does not say when the user authenticated"⟩
  let assertionId ← present report.assertionId
    ⟨.ASSERTION_REPLAYED, "Assertion carries no identifier to consume"⟩
  return {
    protocol := config.protocol
    signatureVerified := report.signatureVerified
    issuer := report.issuer.getD ""
    audience := report.audience.getD ""
    destination := report.destination.getD receivedAt
    assertionId := assertionId
    inResponseTo := report.inResponseTo
    notBefore := report.notBefore
    notOnOrAfter := notOnOrAfter
    authenticatedAt := authenticatedAt
    authnContext := report.authnContext
    subject := report.subject.getD ""
    attributes := report.attributes }

section

variable (dateParse : String → Option Int)

/-- `dateParse` is `Date.parse`, in milliseconds, and `none` is `NaN`. -/
def instant (value : String) (code : FederationRejectionCode) : FederationResult Int :=
  match dateParse value with
  | some millis => return millis
  | none => throw ⟨code, "Invalid timestamp " ++ value⟩

def checkNotBefore (assertion : WorkforceAssertion) (now : Int) : FederationResult Unit :=
  match assertion.notBefore with
  | none => return ()
  | some value => do
    let notBefore ← instant dateParse value .ASSERTION_NOT_YET_VALID
    if now < notBefore then throw ⟨.ASSERTION_NOT_YET_VALID, "Assertion is not yet valid"⟩

/-- `verifyWorkforceAssertion`, up to the ledger. -/
def checkAssertion (assertion : WorkforceAssertion) (config : FederationConfig)
    (binding : FederationRequestBinding) (now : Int) : FederationResult Unit := do
  if config.enabled = false then
    throw ⟨.PROVIDER_DISABLED, "Federation is not enabled for this tenant"⟩
  if assertion.signatureVerified = false then
    throw ⟨.SIGNATURE_NOT_VERIFIED, "Assertion signature was not verified"⟩
  if config.tenantId ≠ binding.tenantId then
    throw ⟨.TENANT_MISMATCH, "Federation configuration belongs to another tenant"⟩
  if assertion.issuer ≠ config.issuer then
    throw ⟨.ISSUER_MISMATCH, "Assertion issuer is not the configured IdP"⟩
  if assertion.audience ≠ config.audience then
    throw ⟨.AUDIENCE_MISMATCH, "Assertion was not issued for this service provider"⟩
  if assertion.destination ≠ config.destination ∨ assertion.destination ≠ binding.redirectUri then
    throw ⟨.DESTINATION_MISMATCH, "Assertion was not issued for this endpoint"⟩
  if assertion.inResponseTo ≠ some binding.requestId then
    throw ⟨.REQUEST_MISMATCH, "Assertion does not answer a login request we started"⟩
  checkNotBefore dateParse assertion now
  let notOnOrAfter ← instant dateParse assertion.notOnOrAfter .ASSERTION_EXPIRED
  if now ≥ notOnOrAfter then throw ⟨.ASSERTION_EXPIRED, "Assertion has expired"⟩
  let authenticatedAt ← instant dateParse assertion.authenticatedAt .SESSION_TOO_OLD
  if now - authenticatedAt > config.maximumAuthenticationAgeSeconds * 1000 then
    throw ⟨.SESSION_TOO_OLD, "The IdP session is older than this tenant accepts"⟩

/-- `verifyWorkforceAssertion`, after the ledger. -/
def checkContext (assertion : WorkforceAssertion) (config : FederationConfig) :
    FederationResult Unit := do
  if config.requiredAuthnContexts ≠ [] ∧
      ∀ context, assertion.authnContext = some context → context ∉ config.requiredAuthnContexts then
    throw ⟨.AUTHN_CONTEXT_TOO_LOW, "Authentication context " ++ assertion.authnContext.getD "none" ++
      " is not accepted by this tenant"⟩
  if isBlank assertion.subject then
    throw ⟨.SUBJECT_MISSING, "Assertion carries no subject identifier"⟩

/-- `consumed` is the answer of the ledger. -/
def verifyWorkforceAssertion (assertion : WorkforceAssertion) (config : FederationConfig)
    (binding : FederationRequestBinding) (consumed : Bool) (now : Int) : FederationResult Unit := do
  checkAssertion dateParse assertion config binding now
  if consumed = false then throw ⟨.ASSERTION_REPLAYED, "Assertion has already been used"⟩
  checkContext assertion config

end

/-! ## Identity mapping -/

structure MappedWorkforceIdentity where
  tenantId : UUID
  subject : String
  roles : List String
  authenticatedAt : String
  protocol : FederationProtocol

def attributeValues (assertion : WorkforceAssertion) (name : String) : Option (List String) :=
  (assertion.attributes.find? (·.1 == name)).map (·.2)

def roleOutOfScope (group role : String) : FederationError :=
  ⟨.ROLE_NOT_ASSIGNABLE, "Group " ++ group ++ " maps to role " ++ role ++
    ", which this tenant does not permit federation to assign"⟩

/-- A member of every object is not the name of a role. -/
def roleOfGroup (config : FederationConfig) (group : String) : FederationResult (Option String) :=
  match config.groupToRole.find? (·.1 == group) with
  | some (_, role) =>
    if config.assignableRoles.contains role then return some role
    else throw (roleOutOfScope group role)
  | none =>
    if objectPrototype.contains group then throw (roleOutOfScope group "of no name") else return none

def rolesOfGroups (config : FederationConfig) (roles : List String) :
    List String → FederationResult (List String)
  | [] => return roles
  | group :: groups => do
    match ← roleOfGroup config group with
    | none => rolesOfGroups config roles groups
    | some role => rolesOfGroups config (if roles.contains role then roles else roles ++ [role]) groups

def mapWorkforceIdentity (assertion : WorkforceAssertion) (config : FederationConfig)
    (binding : FederationRequestBinding) : FederationResult MappedWorkforceIdentity := do
  let subject :=
    ((attributeValues assertion config.subjectAttribute).bind (·.head?)).getD assertion.subject
  if isBlank subject then throw ⟨.SUBJECT_MISSING, "Assertion carries no subject identifier"⟩
  let groups := (attributeValues assertion config.groupsAttribute).getD []
  let roles ← rolesOfGroups config [] groups
  if roles = [] then
    throw ⟨.NO_ROLE_MAPPED, "No group in the assertion maps to a role for this tenant"⟩
  return {
    tenantId := binding.tenantId
    subject := subject
    roles := sortStrings roles
    authenticatedAt := assertion.authenticatedAt
    protocol := assertion.protocol }

/-! ## What is accepted -/

/-- The limits of the configuration, and the binding to the login request. -/
structure Admissible (dateParse : String → Option Int) (assertion : WorkforceAssertion)
    (config : FederationConfig) (binding : FederationRequestBinding) (now : Int) : Prop where
  enabled : config.enabled = true
  signatureVerified : assertion.signatureVerified = true
  tenant : config.tenantId = binding.tenantId
  issuer : assertion.issuer = config.issuer
  audience : assertion.audience = config.audience
  destination : assertion.destination = config.destination
  redirectUri : assertion.destination = binding.redirectUri
  request : assertion.inResponseTo = some binding.requestId
  notBefore : ∀ value, assertion.notBefore = some value →
    ∃ notBefore, dateParse value = some notBefore ∧ notBefore ≤ now
  notOnOrAfter : ∃ notOnOrAfter, dateParse assertion.notOnOrAfter = some notOnOrAfter ∧
    now < notOnOrAfter
  sessionAge : ∃ authenticatedAt, dateParse assertion.authenticatedAt = some authenticatedAt ∧
    now - authenticatedAt ≤ config.maximumAuthenticationAgeSeconds * 1000

section

variable {dateParse : String → Option Int} {assertion : WorkforceAssertion}
  {config : FederationConfig} {binding : FederationRequestBinding} {now : Int}

theorem instant_eq_ok {value : String} {code : FederationRejectionCode} {millis : Int} :
    instant dateParse value code = .ok millis ↔ dateParse value = some millis := by
  unfold instant
  cases dateParse value with
  | none => exact ⟨fun h => (nomatch h), fun h => (nomatch h)⟩
  | some m => exact ⟨fun h => congrArg some (Except.ok.inj h), fun h => congrArg _ (Option.some.inj h)⟩

theorem checkNotBefore_eq_ok : checkNotBefore dateParse assertion now = .ok () ↔
    ∀ value, assertion.notBefore = some value →
      ∃ notBefore, dateParse value = some notBefore ∧ notBefore ≤ now := by
  unfold checkNotBefore
  cases assertion.notBefore with
  | none => exact ⟨fun _ _ h => (nomatch h), fun _ => rfl⟩
  | some value =>
    simp only [Option.some.injEq, forall_eq']
    constructor
    · intro h
      obtain ⟨notBefore, hparse, h⟩ := except_bind_eq_ok.mp h
      split at h
      · exact nomatch h
      · rename_i hle
        exact ⟨notBefore, instant_eq_ok.mp hparse, not_lt.mp hle⟩
    · rintro ⟨notBefore, hparse, hle⟩
      refine except_bind_eq_ok.mpr ⟨notBefore, instant_eq_ok.mpr hparse, ?_⟩
      rw [if_neg (not_lt.mpr hle)]
      rfl

theorem checkAssertion_eq_ok : checkAssertion dateParse assertion config binding now = .ok () ↔
    Admissible dateParse assertion config binding now := by
  rw [checkAssertion, except_guard_eq_ok]
  constructor
  · rintro ⟨henabled, h⟩
    obtain ⟨hsignature, h⟩ := except_guard_eq_ok.mp h
    obtain ⟨htenant, h⟩ := except_guard_eq_ok.mp h
    obtain ⟨hissuer, h⟩ := except_guard_eq_ok.mp h
    obtain ⟨haudience, h⟩ := except_guard_eq_ok.mp h
    obtain ⟨hdestination, h⟩ := except_guard_eq_ok.mp h
    obtain ⟨hrequest, h⟩ := except_guard_eq_ok.mp h
    obtain ⟨⟨⟩, hbefore, h⟩ := except_bind_eq_ok.mp h
    obtain ⟨until', huntil, h⟩ := except_bind_eq_ok.mp h
    obtain ⟨hexpired, h⟩ := except_guard_eq_ok.mp h
    obtain ⟨at', hat, h⟩ := except_bind_eq_ok.mp h
    split at h
    · exact nomatch h
    · rename_i hage
      rw [not_or, not_not, not_not] at hdestination
      exact {
        enabled := by simpa using henabled
        signatureVerified := by simpa using hsignature
        tenant := not_not.mp htenant
        issuer := not_not.mp hissuer
        audience := not_not.mp haudience
        destination := hdestination.1
        redirectUri := hdestination.2
        request := not_not.mp hrequest
        notBefore := checkNotBefore_eq_ok.mp hbefore
        notOnOrAfter := ⟨until', instant_eq_ok.mp huntil, not_le.mp hexpired⟩
        sessionAge := ⟨at', instant_eq_ok.mp hat, not_lt.mp hage⟩ }
  · intro h
    obtain ⟨until', huntil, hexpired⟩ := h.notOnOrAfter
    obtain ⟨at', hat, hage⟩ := h.sessionAge
    refine ⟨by simp [h.enabled], ?_⟩
    refine except_guard_eq_ok.mpr ⟨by simp [h.signatureVerified], ?_⟩
    refine except_guard_eq_ok.mpr ⟨not_not.mpr h.tenant, ?_⟩
    refine except_guard_eq_ok.mpr ⟨not_not.mpr h.issuer, ?_⟩
    refine except_guard_eq_ok.mpr ⟨not_not.mpr h.audience, ?_⟩
    refine except_guard_eq_ok.mpr ⟨not_or.mpr ⟨not_not.mpr h.destination, not_not.mpr h.redirectUri⟩, ?_⟩
    refine except_guard_eq_ok.mpr ⟨not_not.mpr h.request, ?_⟩
    refine except_bind_eq_ok.mpr ⟨(), checkNotBefore_eq_ok.mpr h.notBefore, ?_⟩
    refine except_bind_eq_ok.mpr ⟨until', instant_eq_ok.mpr huntil, ?_⟩
    refine except_guard_eq_ok.mpr ⟨not_le.mpr hexpired, ?_⟩
    refine except_bind_eq_ok.mpr ⟨at', instant_eq_ok.mpr hat, ?_⟩
    rw [if_neg (not_lt.mpr hage)]
    rfl

end

end Kommunsign
