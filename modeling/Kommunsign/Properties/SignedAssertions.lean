import Kommunsign.Federation.Validators
import Kommunsign.Properties.SingleUse

/-!
# What a SAML login takes from outside the signature

The validator completes the confirmation data of a signed assertion with the attributes of the
Response around it, and the consumer completes a missing destination with its own. An assertion that
was signed without them is accepted for whatever login the Response names.

* `saml_login_named_iff` — an accepted login is named by the signature when the fields are carried
* `saml_login_unnamed` — an assertion that names no login at all
-/

namespace Kommunsign

open Infra

/-! ## Fields of the signed element -/

/-- The attributes of the Response count when the Response is what was signed. -/
def FieldSigned (root signed : Xml) (confirmationKey responseKey value : String) : Prop :=
  ∃ assertion, assertionOf signed = some assertion ∧
    (confirmationAttribute assertion confirmationKey = some value ∨
      (signed = root ∧ responseAttribute root responseKey = some value))

def FieldCarried (root signed : Xml) (confirmationKey responseKey : String) : Prop :=
  ∃ assertion, assertionOf signed = some assertion ∧
    ((confirmationAttribute assertion confirmationKey).isSome ∨
      (signed = root ∧ (responseAttribute root responseKey).isSome))

def NamedBySignature (root signed : Xml) (destination requestId : String) : Prop :=
  FieldSigned root signed "Recipient" "Destination" destination ∧
    FieldSigned root signed "InResponseTo" "InResponseTo" requestId

/-- The signed element says where the assertion is for, and which request it answers. -/
def CarriedBySignature (root signed : Xml) : Prop :=
  FieldCarried root signed "Recipient" "Destination" ∧
    FieldCarried root signed "InResponseTo" "InResponseTo"

section

variable {root other signed assertion : Xml} {confirmationKey responseKey value : String}

theorem FieldSigned.carried (h : FieldSigned root signed confirmationKey responseKey value) :
    FieldCarried root signed confirmationKey responseKey := by
  obtain ⟨assertion, hassertion, h⟩ := h
  refine ⟨assertion, hassertion, h.imp (fun h => ?_) (fun h => ⟨h.1, ?_⟩)⟩
  · rw [h]
    rfl
  · rw [h.2]
    rfl

theorem FieldCarried.field_signed (h : FieldCarried root signed confirmationKey responseKey)
    (hassertion : assertionOf signed = some assertion) :
    ∃ value, messageField root assertion confirmationKey responseKey = some value ∧
      FieldSigned root signed confirmationKey responseKey value := by
  obtain ⟨assertion', hassertion', h⟩ := h
  obtain rfl := Option.some.inj (hassertion.symm.trans hassertion')
  unfold messageField
  cases hconfirmation : confirmationAttribute assertion confirmationKey with
  | some value => exact ⟨value, rfl, assertion, hassertion, .inl hconfirmation⟩
  | none =>
    rcases h with h | ⟨hroot, h⟩
    · rw [hconfirmation] at h
      exact nomatch h
    · obtain ⟨value, hvalue⟩ := Option.isSome_iff_exists.mp h
      rw [hvalue]
      exact ⟨value, rfl, assertion, hassertion, .inr ⟨hroot, hvalue⟩⟩

theorem FieldCarried.same (h : FieldCarried root signed confirmationKey responseKey)
    (h' : FieldCarried other signed confirmationKey responseKey)
    (hassertion : assertionOf signed = some assertion) :
    messageField other assertion confirmationKey responseKey =
      messageField root assertion confirmationKey responseKey := by
  obtain ⟨first, hfirst, h⟩ := h
  obtain ⟨second, hsecond, h'⟩ := h'
  obtain rfl := Option.some.inj (hassertion.symm.trans hfirst)
  obtain rfl := Option.some.inj (hassertion.symm.trans hsecond)
  unfold messageField
  cases hconfirmation : confirmationAttribute assertion confirmationKey with
  | some value => rfl
  | none =>
    rw [hconfirmation] at h h'
    rcases h with h | ⟨rfl, -⟩
    · exact nomatch h
    · rcases h' with h' | ⟨rfl, -⟩
      · exact nomatch h'
      · rfl

theorem samlReport_eq_some {report : FederationReport} (h : samlReport root signed = some report) :
    ∃ assertion, assertionOf signed = some assertion ∧
      report.destination = messageField root assertion "Recipient" "Destination" ∧
      report.inResponseTo = messageField root assertion "InResponseTo" "InResponseTo" := by
  unfold samlReport at h
  obtain ⟨assertion, hassertion, h⟩ := Option.bind_eq_some_iff.mp h
  split at h
  · exact nomatch h
  · cases h
    exact ⟨assertion, hassertion, rfl, rfl⟩

theorem samlReport_unique {report report' : FederationReport}
    (h : samlReport root signed = some report) (h' : samlReport other signed = some report')
    (hcarried : CarriedBySignature root signed) (hcarried' : CarriedBySignature other signed) :
    report' = report := by
  unfold samlReport at h h'
  obtain ⟨assertion, hassertion, h⟩ := Option.bind_eq_some_iff.mp h
  obtain ⟨assertion', hassertion', h'⟩ := Option.bind_eq_some_iff.mp h'
  obtain rfl := Option.some.inj (hassertion.symm.trans hassertion')
  rw [hcarried.1.same hcarried'.1 hassertion, hcarried.2.same hcarried'.2 hassertion] at h'
  split at h
  · exact nomatch h
  · split at h'
    · exact nomatch h'
    · exact Option.some.inj (h'.symm.trans h)

end

/-! ## Accepted logins -/

section

variable {report : FederationReport} {assertion : WorkforceAssertion} {config : FederationConfig}
  {receivedAt : String}

theorem toWorkforceAssertion_eq_ok
    (h : toWorkforceAssertion report config receivedAt = .ok assertion) :
    report.result = "PASS" ∧ assertion.destination = report.destination.getD receivedAt ∧
      assertion.inResponseTo = report.inResponseTo := by
  rw [toWorkforceAssertion, except_guard_eq_ok] at h
  obtain ⟨hpass, h⟩ := h
  obtain ⟨notOnOrAfter, -, h⟩ := except_bind_eq_ok.mp h
  obtain ⟨authenticatedAt, -, h⟩ := except_bind_eq_ok.mp h
  obtain ⟨assertionId, -, h⟩ := except_bind_eq_ok.mp h
  cases h
  exact ⟨not_not.mp (not_or.mp hpass).1, rfl, rfl⟩

end

section

variable {signatures : XmlSignatures} {trusted : String} {document : Xml}

theorem validateSaml_pass (h : (validateSaml signatures trusted document).result = "PASS") :
    ∃ signed, verifiedElement signatures trusted document = some signed ∧
      samlReport document signed = some (validateSaml signatures trusted document) := by
  unfold validateSaml at h ⊢
  cases hverified : verifiedElement signatures trusted document with
  | none =>
    rw [hverified] at h
    exact absurd h (show ¬"FAIL" = "PASS" by decide)
  | some signed =>
    rw [hverified] at h
    cases hreport : samlReport document signed with
    | none =>
      rw [Option.bind_some, hreport] at h
      exact absurd h (show ¬"FAIL" = "PASS" by decide)
    | some report =>
      refine ⟨signed, rfl, ?_⟩
      rw [Option.bind_some, hreport]
      rfl

/--
An accepted login is named by the signed element exactly when the element carries both fields. Then
every other document around the same element, if it carries them too, gets the same report.
-/
theorem saml_login_named_iff {dateParse : String → Option Int} {config : FederationConfig}
    {login : LoginRow} {consumed : Bool} {now : Int} {identity : MappedWorkforceIdentity}
    (h : samlLogin signatures dateParse trusted document config login consumed now = .ok identity) :
    ∃ signed, verifiedElement signatures trusted document = some signed ∧
      (NamedBySignature document signed config.destination login.requestId ↔
        CarriedBySignature document signed) ∧
      (CarriedBySignature document signed → ∀ other,
        verifiedElement signatures trusted other = some signed → CarriedBySignature other signed →
        (validateSaml signatures trusted other).result = "PASS" →
        validateSaml signatures trusted other = validateSaml signatures trusted document) := by
  obtain ⟨assertion, hassertion, h⟩ := except_bind_eq_ok.mp h
  obtain ⟨hpass, hdestination, hrequest⟩ := toWorkforceAssertion_eq_ok hassertion
  obtain ⟨⟨⟩, hverify, -⟩ := except_bind_eq_ok.mp h
  obtain ⟨⟨⟩, hcheck, -⟩ := except_bind_eq_ok.mp hverify
  have hadmissible := checkAssertion_eq_ok.mp hcheck
  obtain ⟨signed, hsigned, hreport⟩ := validateSaml_pass hpass
  refine ⟨signed, hsigned, ⟨fun hnamed => ⟨hnamed.1.carried, hnamed.2.carried⟩, fun hcarried => ?_⟩, ?_⟩
  · obtain ⟨element, helement, hto, hanswers⟩ := samlReport_eq_some hreport
    obtain ⟨destination, hread, hdest⟩ := hcarried.1.field_signed helement
    obtain ⟨requestId, hreadId, hreq⟩ := hcarried.2.field_signed helement
    -- what was read is what the checks were made with
    have hdestinationEq : destination = config.destination := by
      rw [← hadmissible.destination, hdestination, hto, hread, Option.getD_some]
    have hrequestEq : requestId = login.requestId := by
      have hanswer := hadmissible.request
      rw [hrequest, hanswers, hreadId] at hanswer
      exact Option.some.inj hanswer
    rw [hdestinationEq] at hdest
    rw [hrequestEq] at hreq
    exact ⟨hdest, hreq⟩
  · intro hcarried other hother hcarried' hpass'
    obtain ⟨signed', hsigned', hreport'⟩ := validateSaml_pass hpass'
    obtain rfl := Option.some.inj (hother.symm.trans hsigned')
    exact samlReport_unique hreport hreport' hcarried hcarried'

end

/-! ## An assertion without confirmation data -/

def samlElement (name : String) (children : List Xml) : Xml := .element SAML_NS name [] children

def exampleAssertion (confirmation : List Xml) : Xml :=
  .element SAML_NS "Assertion" [("ID", "_a1b2c3d4e5f6")] [
    .element XMLSIG_NS "Signature" [] [],
    samlElement "Issuer" [.text "https://idp.example"],
    samlElement "Subject" (samlElement "NameID" [.text "anna"] :: confirmation),
    .element SAML_NS "Conditions" [("NotOnOrAfter", "2026-07-01T12:05:00Z")]
      [samlElement "AudienceRestriction" [samlElement "Audience" [.text "https://sign.example"]]],
    .element SAML_NS "AuthnStatement" [("AuthnInstant", "2026-07-01T12:00:30Z")] [],
    samlElement "AttributeStatement" [.element SAML_NS "Attribute" [("Name", "groups")]
      [samlElement "AttributeValue" [.text "CN=Lasare"]]]]

def exampleResponse (requestId : String) (assertion : Xml) : Xml :=
  .element PROTOCOL_NS "Response"
    [("Destination", "https://sign.example/acs"), ("InResponseTo", requestId)] [
    .element PROTOCOL_NS "Status" [] [.element PROTOCOL_NS "StatusCode" [("Value", SUCCESS)] []],
    assertion]

def exampleConfirmation : Xml :=
  samlElement "SubjectConfirmation" [.element SAML_NS "SubjectConfirmationData"
    [("Recipient", "https://sign.example/acs"), ("InResponseTo", firstLogin)] []]

def exampleSignatures : XmlSignatures := fun _ _ =>
  some ⟨[some "#_a1b2c3d4e5f6"], some "CN=idp.example", true⟩

def exampleConfig : FederationConfig where
  tenantId := exampleProvider.tenantId
  protocol := .SAML2
  enabled := true
  issuer := "https://idp.example"
  audience := "https://sign.example"
  destination := "https://sign.example/acs"
  requiredAuthnContexts := []
  maximumAuthenticationAgeSeconds := 3600
  subjectAttribute := "sub"
  groupsAttribute := "groups"
  groupToRole := [("CN=Lasare", "readonly")]
  assignableRoles := ["readonly"]

def exampleLogin (requestId : String) : LoginRow where
  serial := 0
  provider := exampleProvider
  requestId := requestId
  redirectUri := "https://sign.example/acs"
  returnPath := "/"
  expiresAt := microseconds (noon + 600000)
  consumedAt := some (microseconds (noon + 240000))

def exampleSamlLogin (requestId : String) (assertion : Xml) :
    FederationResult MappedWorkforceIdentity :=
  samlLogin exampleSignatures exampleDateParse "CN=idp.example" (exampleResponse requestId assertion)
    exampleConfig (exampleLogin requestId) true (noon + 240000)

/-- One signed assertion that names no login answers any of them. -/
theorem saml_login_unnamed :
    (exampleSamlLogin firstLogin (exampleAssertion [])).toOption.isSome = true ∧
      (exampleSamlLogin secondLogin (exampleAssertion [])).toOption.isSome = true ∧
      verifiedElement exampleSignatures "CN=idp.example"
        (exampleResponse firstLogin (exampleAssertion [])) = some (exampleAssertion []) ∧
      verifiedElement exampleSignatures "CN=idp.example"
        (exampleResponse secondLogin (exampleAssertion [])) = some (exampleAssertion []) ∧
      validateSaml exampleSignatures "CN=idp.example"
        (exampleResponse firstLogin (exampleAssertion [])) ≠
        validateSaml exampleSignatures "CN=idp.example"
          (exampleResponse secondLogin (exampleAssertion [])) ∧
      ¬NamedBySignature (exampleResponse firstLogin (exampleAssertion [])) (exampleAssertion [])
        exampleConfig.destination firstLogin := by
  refine ⟨by decide +kernel, by decide +kernel, by rfl, by rfl, by decide +kernel, ?_⟩
  rintro ⟨⟨assertion, hassertion, h | ⟨h, -⟩⟩, -⟩
  · obtain rfl := Option.some.inj hassertion
    exact absurd h (by decide +kernel)
  · -- the assertion is not the whole document
    injection h with h
    exact absurd h (by decide)

/-- With confirmation data the login is named by the signed assertion. -/
theorem saml_login_named :
    ∃ signed, verifiedElement exampleSignatures "CN=idp.example"
        (exampleResponse firstLogin (exampleAssertion [exampleConfirmation])) = some signed ∧
      NamedBySignature (exampleResponse firstLogin (exampleAssertion [exampleConfirmation])) signed
        exampleConfig.destination firstLogin := by
  have hlogin : (exampleSamlLogin firstLogin
      (exampleAssertion [exampleConfirmation])).toOption.isSome = true := by decide +kernel
  obtain ⟨identity, hidentity⟩ := Option.isSome_iff_exists.mp hlogin
  obtain ⟨signed, hsigned, hnamed, -⟩ := saml_login_named_iff (toOption_eq_some.mp hidentity)
  refine ⟨signed, hsigned, hnamed.mpr ?_⟩
  obtain rfl : exampleAssertion [exampleConfirmation] = signed :=
    Option.some.inj hsigned
  exact ⟨⟨_, rfl, .inl rfl⟩, ⟨_, rfl, .inl rfl⟩⟩

end Kommunsign
