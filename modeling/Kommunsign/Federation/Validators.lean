import Mathlib.Data.List.Infix
import Kommunsign.Data.Texts
import Kommunsign.Federation.Logins
import Kommunsign.Infra.Xml

/-!
# Validation of the messages of both protocols

The validator finds the one signature, checks it, and reports what the message says. The assertion
is read from the signed element. The destination and the request are read from the confirmation data
of the assertion, and where they are not there, from the attributes of the document's Response.

* `XmlSignature` — what the XML signature library makes of a signature element
* `signedElement` — the element that the signature covers
* `samlReport` — the report, of the root of the document and the signed element
-/

namespace Kommunsign

open Infra

/-! ## Signatures -/

/-- `valid` is the answer of the library, `certificate` the one that the message carries. -/
structure XmlSignature where
  references : List (Option String)
  certificate : Option String
  valid : Bool
  deriving DecidableEq

/-- What the library reads in a signature element of a document. -/
abbrev XmlSignatures := Xml → Xml → Option XmlSignature

def XMLSIG_NS : String := "http://www.w3.org/2000/09/xmldsig#"

def idAttributes : List String := ["ID", "Id", "id"]

/-- The only `Signature` of a document. -/
def oneSignature (document : Xml) : Option Xml :=
  match document.nodes.filter (·.named XMLSIG_NS "Signature") with
  | [signature] => some signature
  | _ => none

/-- The identifier in a reference of the form `#id`. -/
def referenceId (reference : Option String) : Option String :=
  match reference.map (·.toList) with
  | some ('#' :: c :: id) => some (String.ofList (c :: id))
  | _ => none

/-- `validateReferences`: at most `limit`, each to an element of the document. -/
def referencesAllowed (limit : Nat) (document : Xml) (signature : XmlSignature) : Bool :=
  decide (signature.references ≠ []) && decide (signature.references.length ≤ limit) &&
  signature.references.all fun reference =>
    match referenceId reference with
    | none => false
    | some id => (document.byId idAttributes id).isSome

/-- The target of the first reference that has one. -/
def signedElement (document : Xml) (signature : XmlSignature) : Option Xml :=
  signature.references.findSome? fun reference =>
    (referenceId reference).bind (document.byId idAttributes)

/-! ## The report -/

def SAML_NS : String := "urn:oasis:names:tc:SAML:2.0:assertion"

def PROTOCOL_NS : String := "urn:oasis:names:tc:SAML:2.0:protocol"

def SUCCESS : String := "urn:oasis:names:tc:SAML:2.0:status:Success"

def emptyToNull (value : String) : Option String :=
  if javaIsBlank value then none else some value

def trimmedText (node : Xml) : String := javaTrim node.textContent

/-- The signed element is the assertion, or the parent of it. -/
def assertionOf (signed : Xml) : Option Xml :=
  if signed.named SAML_NS "Assertion" then some signed else signed.childElement SAML_NS "Assertion"

def isResponse (root : Xml) : Bool := root.named PROTOCOL_NS "Response"

def statusSuccess (response : Xml) : Bool :=
  match (response.childElement PROTOCOL_NS "Status").bind (·.childElement PROTOCOL_NS "StatusCode") with
  | some code => code.getAttribute "Value" == SUCCESS
  | none => false

/-- An attribute of the document's Response. -/
def responseAttribute (root : Xml) (key : String) : Option String :=
  if isResponse root then emptyToNull (root.getAttribute key) else none

def confirmationData (assertion : Xml) : Option Xml :=
  (assertion.childElement SAML_NS "Subject").bind fun subject =>
    (subject.descendantsNamed SAML_NS "SubjectConfirmationData").head?

/-- An attribute of the confirmation data. -/
def confirmationAttribute (assertion : Xml) (key : String) : Option String :=
  (confirmationData assertion).bind fun data => emptyToNull (data.getAttribute key)

def conditionsAttribute (assertion : Xml) (key : String) : Option String :=
  (assertion.childElement SAML_NS "Conditions").bind fun conditions =>
    emptyToNull (conditions.getAttribute key)

def audienceOf (assertion : Xml) : Option String := do
  let conditions ← assertion.childElement SAML_NS "Conditions"
  let restriction ← conditions.childElement SAML_NS "AudienceRestriction"
  let audience ← restriction.childElement SAML_NS "Audience"
  return trimmedText audience

def subjectOf (assertion : Xml) : String :=
  match (assertion.childElement SAML_NS "Subject").bind (·.childElement SAML_NS "NameID") with
  | some nameId => trimmedText nameId
  | none => ""

def authnContextOf (assertion : Xml) : Option String := do
  let statement ← assertion.childElement SAML_NS "AuthnStatement"
  let context ← statement.childElement SAML_NS "AuthnContext"
  let classRef ← context.childElement SAML_NS "AuthnContextClassRef"
  return trimmedText classRef

/-- A name that stands twice keeps its place and has the last values. -/
def putAttribute (attributes : List (String × List String)) (name : String) (values : List String) :
    List (String × List String) :=
  if attributes.any (·.1 == name) then
    attributes.map fun entry => if entry.1 == name then (name, values) else entry
  else attributes ++ [(name, values)]

def attributesOf (assertion : Xml) : List (String × List String) :=
  match assertion.childElement SAML_NS "AttributeStatement" with
  | none => []
  | some statement =>
    (statement.descendantsNamed SAML_NS "Attribute").foldl (fun attributes node =>
      if javaIsBlank (node.getAttribute "Name") then attributes
      else putAttribute attributes (node.getAttribute "Name")
        ((node.descendantsNamed SAML_NS "AttributeValue").map trimmedText)) []

/-- What is read where it may stand in two places. -/
def messageField (root assertion : Xml) (confirmationKey responseKey : String) : Option String :=
  (confirmationAttribute assertion confirmationKey).or (responseAttribute root responseKey)

def samlReport (root signed : Xml) : Option FederationReport := do
  let assertion ← assertionOf signed
  if isResponse root && !statusSuccess root then none
  return {
    result := "PASS"
    signatureVerified := true
    assertionId := some (assertion.getAttribute "ID")
    issuer := (assertion.childElement SAML_NS "Issuer").map trimmedText
    audience := audienceOf assertion
    destination := messageField root assertion "Recipient" "Destination"
    inResponseTo := messageField root assertion "InResponseTo" "InResponseTo"
    notBefore := conditionsAttribute assertion "NotBefore"
    notOnOrAfter := (conditionsAttribute assertion "NotOnOrAfter").or
      (confirmationAttribute assertion "NotOnOrAfter")
    authenticatedAt := (assertion.childElement SAML_NS "AuthnStatement").bind fun statement =>
      emptyToNull (statement.getAttribute "AuthnInstant")
    authnContext := authnContextOf assertion
    subject := some (subjectOf assertion)
    attributes := attributesOf assertion }

/-! ## Validation -/

def failedReport : FederationReport where
  result := "FAIL"
  signatureVerified := false
  assertionId := none
  issuer := none
  audience := none
  destination := none
  inResponseTo := none
  notBefore := none
  notOnOrAfter := none
  authenticatedAt := none
  authnContext := none
  subject := none
  attributes := []

/-- The signed element of a document that passes the signature checks. -/
def verifiedElement (signatures : XmlSignatures) (trusted : String) (document : Xml) : Option Xml := do
  let element ← oneSignature document
  let signature ← signatures document element
  if referencesAllowed 4 document signature && signature.valid &&
      signature.certificate == some trusted then
    signedElement document signature
  else none

def validateSaml (signatures : XmlSignatures) (trusted : String) (document : Xml) : FederationReport :=
  ((verifiedElement signatures trusted document).bind (samlReport document)).getD failedReport

/-- `consumeAssertion` once the configuration is there, for a SAML response. -/
def samlLogin (signatures : XmlSignatures) (dateParse : String → Option Int) (trusted : String)
    (document : Xml) (config : FederationConfig) (login : LoginRow) (consumed : Bool) (now : Int) :
    FederationResult MappedWorkforceIdentity := do
  let assertion ←
    toWorkforceAssertion (validateSaml signatures trusted document) config login.redirectUri
  verifyWorkforceAssertion dateParse assertion config login.binding consumed now
  mapWorkforceIdentity assertion config login.binding

/-!
# Validation of an OIDC token

The claims of a verified token are reported in the shape that a SAML response is reported in. A
numeric date is read in whole seconds, and anything else in its place is read as if it were missing.
-/

/-! ## Claims -/

/-- What a JSON number is in Java. -/
inductive JavaNumber where
  | long (value : Int)
  | double (value : Rat)
  /-- A text that is beyond the doubles. -/
  | infinite (negative : Bool)
  deriving DecidableEq

/-- The number itself. -/
def JavaNumber.value : JavaNumber → Option Rat
  | .long value => some value
  | .double value => some value
  | .infinite _ => none

/-- `Number.longValue` -/
def JavaNumber.longValue : JavaNumber → Int
  | .long value => value
  | .double value =>
    max (-2 ^ 63) (min (2 ^ 63 - 1) (if 0 ≤ value then value.floor else value.ceil))
  | .infinite negative => if negative then -2 ^ 63 else 2 ^ 63 - 1

inductive ClaimValue where
  | null
  | text (s : String)
  | number (n : JavaNumber)
  | list (items : List ClaimValue)
  /-- A boolean or an object. -/
  | other

/-- The members of the payload, each name once. -/
abbrev Claims := List (String × ClaimValue)

def ClaimValue.text? : ClaimValue → Option String
  | .text s => some s
  | .null | .number _ | .list _ | .other => none

/-- `string` -/
def claimString (claims : Claims) (name : String) : Option String :=
  match claims.lookup name with
  | some (.text text) => if javaIsBlank text then none else some text
  | _ => none

/-- `audience`: of several there is none. -/
def claimAudience (claims : Claims) : Option String :=
  match claims.lookup "aud" with
  | some (.text text) => if javaIsBlank text then none else some text
  | some (.list [.text text]) => some text
  | _ => none

/-- The seconds that an `Instant` can be of. -/
def isInstantSecond (second : Int) : Bool :=
  decide (-31557014167219200 ≤ second ∧ second ≤ 31556889864403199)

/-- `instant`; the outer `none` is an exception. -/
def claimInstant (instantText : Int → String) (claims : Claims) (name : String) :
    Option (Option String) :=
  match claims.lookup name with
  | some (.number number) =>
    if isInstantSecond number.longValue then some (some (instantText number.longValue)) else none
  | _ => some none

def claimAttributes (claims : Claims) : List (String × List String) :=
  claims.filterMap fun (name, value) =>
    match value with
    | .text text => some (name, [text])
    | .list items =>
      let values := items.filterMap (·.text?)
      if values = [] then none else some (name, values)
    | .null | .number _ | .other => none

/-- When the user was authenticated, or else when the token was issued. -/
def authenticatedAtOf (instantText : Int → String) (claims : Claims) : Option (Option String) := do
  match ← claimInstant instantText claims "auth_time" with
  | some authTime => some (some authTime)
  | none => claimInstant instantText claims "iat"

/-- `none`: a number is no `Instant`. -/
def oidcReport (instantText : Int → String) (claims : Claims) : Option FederationReport := do
  let notBefore ← claimInstant instantText claims "nbf"
  let notOnOrAfter ← claimInstant instantText claims "exp"
  let authenticatedAt ← authenticatedAtOf instantText claims
  return {
    result := "PASS"
    signatureVerified := true
    assertionId := claimString claims "jti"
    issuer := claimString claims "iss"
    audience := claimAudience claims
    destination := none
    inResponseTo := claimString claims "nonce"
    notBefore := notBefore
    notOnOrAfter := notOnOrAfter
    authenticatedAt := authenticatedAt
    authnContext := claimString claims "acr"
    subject := claimString claims "sub"
    attributes := claimAttributes claims }

/-! ## Tokens -/

/-- A compact token of three parts; `none` is a part that cannot be decoded. -/
structure OidcToken where
  length : Nat
  header : Option String
  claims : Option Claims

def MAX_TOKEN_CHARS : Nat := 16000

/-- The header says where the key is to be taken from. -/
def selectsKey (header : String) : Bool :=
  ["\"jku\"", "\"x5u\"", "\"jwk\""].any fun forbidden =>
    decide (forbidden.toList <:+: header.toList)

/-- Whether the signature of a token holds, with the key of a certificate. -/
abbrev JwsSignatures := String → OidcToken → Bool

/-- The claims of a token that passes the checks of its form and its signature. -/
def verifiedClaims (jws : JwsSignatures) (trusted : String) (token : OidcToken) : Option Claims := do
  let header ← token.header
  if token.length ≤ MAX_TOKEN_CHARS && !selectsKey header && jws trusted token then token.claims
  else none

def validateOidc (jws : JwsSignatures) (instantText : Int → String) (trusted : String)
    (token : OidcToken) : FederationReport :=
  ((verifiedClaims jws trusted token).bind (oidcReport instantText)).getD failedReport

/-! ## Logins -/

inductive FederatedMessage where
  | saml (document : Xml)
  | oidc (token : OidcToken)

def FederatedMessage.kind : FederatedMessage → FederationProtocol
  | .saml _ => .SAML2
  | .oidc _ => .OIDC

/-- What the validators and the consumer rest on. -/
structure FederationLibraries where
  signatures : XmlSignatures
  jws : JwsSignatures
  /-- `Instant.ofEpochSecond(…).toString()` -/
  instantText : Int → String
  /-- `Date.parse` -/
  dateParse : String → Option Int

section

variable (libraries : FederationLibraries) (trusted : String)

def FederatedMessage.report : FederatedMessage → FederationReport
  | .saml document => validateSaml libraries.signatures trusted document
  | .oidc token => validateOidc libraries.jws libraries.instantText trusted token

/-- `consumeAssertion` once the configuration and the certificate are there; `none`: it is refused. -/
def federatedLogin (message : FederatedMessage) (config : FederationConfig) (login : LoginRow)
    (consumed : Bool) (now : Int) : Option MappedWorkforceIdentity := do
  let _ ← (checkEndpoint true config message.kind).toOption
  let assertion ←
    (toWorkforceAssertion (message.report libraries trusted) config login.redirectUri).toOption
  let _ ← (verifyWorkforceAssertion libraries.dateParse assertion config login.binding consumed
    now).toOption
  (mapWorkforceIdentity assertion config login.binding).toOption

end

end Kommunsign
