import Kommunsign.Federation.Assertions
import Kommunsign.Infra.Json
import Kommunsign.Infra.Run
import Kommunsign.Infra.Table

/-!
# Federated logins over the control database

A request to the assertion consumer consumes the login it answers, reads the configuration of the
tenant that started it, has the assertion validated, checks it, consumes its id in the ledger and
checks the rest of it. Every statement is a transaction of its own, and a date that is passed to one
was taken before it. The database clock is in microseconds and a `Date` in milliseconds.

* `consumeLogin`, `ledgerConsume`, `pruneLoginRequests`, `pruneLedger` — the statements
* `ProviderRow.configuration` — `configFor`, of a row and its role mappings
-/

namespace Kommunsign

open Infra

/-! ## Provider configuration -/

structure ProviderKey where
  tenantId : UUID
  providerKey : String
  environment : String
  deriving DecidableEq

structure ProviderRow where
  key : ProviderKey
  enabled : Bool
  publicConfiguration : Json
  roleMappings : List (String × String)

def protocolFor (providerKey : String) : FederationProtocol :=
  if "_SAML".toList.isSuffixOf providerKey.toList then .SAML2 else .OIDC

def configurationString (configuration : Json) (key : String) : Option String :=
  match configuration.field key with
  | some (.str s) => if isBlank (String.ofList s) then none else some (String.ofList s)
  | _ => none

/-- A finite number above zero. -/
def configurationNumber (configuration : Json) (key : String) (fallback : Int) : Int :=
  match configuration.field key with
  | some (.num n) => if 0 < n then n else fallback
  | _ => fallback

def configurationStrings (configuration : Json) (key : String) : List String :=
  match configuration.field key with
  | some (.arr items) => items.filterMap fun
    | .str s => some (String.ofList s)
    | _ => none
  | _ => []

/-- The mappings are read after the row; `none` is an error of the configuration. -/
def ProviderRow.configuration (row : ProviderRow) (mappings : List (String × String)) :
    Option FederationConfig := do
  let issuer ← configurationString row.publicConfiguration "issuer"
  let audience ← configurationString row.publicConfiguration "audience"
  let destination ← configurationString row.publicConfiguration "destination"
  return {
    tenantId := row.key.tenantId
    protocol := protocolFor row.key.providerKey
    enabled := row.enabled
    issuer := issuer
    audience := audience
    destination := destination
    requiredAuthnContexts := configurationStrings row.publicConfiguration "requiredAuthnContexts"
    maximumAuthenticationAgeSeconds :=
      configurationNumber row.publicConfiguration "maximumAuthenticationAgeSeconds" 3600
    subjectAttribute :=
      (configurationString row.publicConfiguration "subjectAttribute").getD "sub"
    groupsAttribute :=
      (configurationString row.publicConfiguration "groupsAttribute").getD "groups"
    groupToRole := mappings
    assignableRoles := configurationStrings row.publicConfiguration "assignableRoles" }

/-! ## Login requests -/

/-- `serial` tells a login from an earlier one whose row was removed. Times are in microseconds. -/
structure LoginRow where
  serial : Nat
  provider : ProviderKey
  requestId : String
  redirectUri : String
  returnPath : String
  expiresAt : Int
  consumedAt : Option Int
  deriving DecidableEq

def microseconds (millis : Int) : Int := millis * 1000

/-- `LOGIN_REQUEST_LIFETIME_SECONDS`, in microseconds. -/
def loginLifetime : Int := 600 * 1000000

def environments : List String := ["development", "test", "staging", "production"]

/-- The checks of the columns. -/
def LoginRow.wellFormed (row : LoginRow) : Bool :=
  environments.contains row.provider.environment &&
  decide (16 ≤ row.requestId.toList.length ∧ row.requestId.toList.length ≤ 256) &&
  "https://".toList.isPrefixOf row.redirectUri.toList &&
  "/".toList.isPrefixOf row.returnPath.toList && !"//".toList.isPrefixOf row.returnPath.toList

def LoginRow.answerable (requestId : String) (now : Int) (row : LoginRow) : Bool :=
  row.requestId == requestId && row.consumedAt.isNone && decide (microseconds now < row.expiresAt)

/-- `update … where request_id = $1 and consumed_at is null and expires_at > $2 returning …` -/
def consumeLogin (requestId : String) (now : Int) (logins : List LoginRow) :
    Option LoginRow × List LoginRow :=
  (logins.find? (·.answerable requestId now),
    assign (·.answerable requestId now) (fun row => { row with consumedAt := some (microseconds now) })
      logins)

def pruneLoginRequests (now : Int) (logins : List LoginRow) : List LoginRow :=
  logins.filter fun row => decide (microseconds now ≤ row.expiresAt)

def LoginRow.binding (login : LoginRow) : FederationRequestBinding where
  requestId := login.requestId
  tenantId := login.provider.tenantId
  redirectUri := login.redirectUri

/-! ## The ledger -/

abbrev AssertionKey := UUID × String

structure LedgerRow where
  key : AssertionKey
  notOnOrAfter : Int
  deriving DecidableEq

/--
`insert … on conflict (tenant_id,assertion_id) do nothing`. `timestamptz` reads the text of a time,
in microseconds; a text it cannot read and an id the column refuses are errors of the statement.
-/
def ledgerConsume (timestamptz : String → Option Int) (tenantId : UUID)
    (assertionId notOnOrAfter : String) (ledger : List LedgerRow) :
    Option (Bool × List LedgerRow) := do
  let window ← timestamptz notOnOrAfter
  if assertionId.toList.length < 1 ∨ 512 < assertionId.toList.length then none
  else if ledger.any (·.key == (tenantId, assertionId)) then some (false, ledger)
  else some (true, ledger ++ [⟨(tenantId, assertionId), window⟩])

/-- Strictly past the window. -/
def LedgerRow.prunable (now : Int) (row : LedgerRow) : Bool :=
  decide (row.notOnOrAfter < microseconds now)

def pruneLedger (now : Int) (ledger : List LedgerRow) : List LedgerRow :=
  ledger.filter fun row => !row.prunable now

/-! ## The assertion consumer -/

structure PresentedAssertion where
  kind : FederationProtocol
  loginReference : Option String
  payload : Option String
  deriving DecidableEq

def isReferenceChar (c : Char) : Bool :=
  c.isAlphanum || c == '_' || c == '-'

/-- `/^_[A-Za-z0-9_-]{16,255}$/` -/
def isLoginReference (reference : String) : Bool :=
  match reference.toList with
  | '_' :: rest => rest.all isReferenceChar && decide (16 ≤ rest.length ∧ rest.length ≤ 255)
  | _ => false

structure FederationRouteError where
  code : String
  message : String
  status : Nat
  deriving DecidableEq

def MAX_ASSERTION_BYTES : Nat := 512 * 1024

/-- What is refused before the login is looked for. -/
def loginReferenceOf (presented : PresentedAssertion) : Except FederationRouteError String :=
  match presented.payload with
  | none => throw ⟨"FEDERATION_ASSERTION_MISSING", "No assertion was presented", 400⟩
  | some payload => do
    if payload = "" then
      throw ⟨"FEDERATION_ASSERTION_MISSING", "No assertion was presented", 400⟩
    if MAX_ASSERTION_BYTES < (Json.utf16 payload.toList).length then
      throw ⟨"FEDERATION_ASSERTION_TOO_LARGE", "The assertion is too large", 413⟩
    match presented.loginReference with
    | none => throw ⟨"FEDERATION_RELAY_STATE_INVALID",
        "The assertion does not identify a login we started", 400⟩
    | some reference =>
      if isLoginReference reference then return reference
      else throw ⟨"FEDERATION_RELAY_STATE_INVALID",
        "The assertion does not identify a login we started", 400⟩

/-- The login that the request answers. -/
def loginFor (provider : String) (consumed : Option LoginRow) : Except FederationRouteError LoginRow :=
  match consumed with
  | none => throw ⟨"FEDERATION_LOGIN_REQUEST_INVALID",
      "The assertion does not answer a login we started", 401⟩
  | some login =>
    if login.provider.providerKey = provider then return login
    else throw ⟨"FEDERATION_LOGIN_REQUEST_INVALID",
      "The assertion does not answer a login we started", 401⟩

/-- `trusted`: a signing certificate is configured for the tenant. -/
def checkEndpoint (trusted : Bool) (config : FederationConfig) (kind : FederationProtocol) :
    Except FederationRouteError Unit := do
  if trusted = false then
    throw ⟨"FEDERATION_TRUST_NOT_CONFIGURED",
      "No IdP signing certificate is configured for this tenant", 503⟩
  if config.protocol ≠ kind then
    throw ⟨"FEDERATION_PROTOCOL_MISMATCH",
      "That endpoint is not the one this tenant is configured for", 400⟩

/-- The rest of `verifyWorkforceAssertion` once the ledger has answered, and the mapping. -/
def concludeLogin (assertion : WorkforceAssertion) (config : FederationConfig)
    (binding : FederationRequestBinding) (consumed : Bool) :
    FederationResult MappedWorkforceIdentity := do
  if consumed = false then throw ⟨.ASSERTION_REPLAYED, "Assertion has already been used"⟩
  checkContext assertion config
  mapWorkforceIdentity assertion config binding

/-! ## The system -/

/-- How far a request has come. -/
inductive LoginPhase where
  | consumed (login : LoginRow) (kind : FederationProtocol)
  | provided (login : LoginRow) (kind : FederationProtocol) (row : ProviderRow)
  | configured (login : LoginRow) (kind : FederationProtocol) (config : FederationConfig)
  | validated (login : LoginRow) (config : FederationConfig) (assertion : WorkforceAssertion)
  | checked (login : LoginRow) (config : FederationConfig) (assertion : WorkforceAssertion) (now : Int)

def LoginPhase.login : LoginPhase → LoginRow
  | .consumed login _ => login
  | .provided login _ _ => login
  | .configured login _ _ => login
  | .validated login _ _ => login
  | .checked login _ _ _ => login

/-- A login that was answered; `now` is the date it was checked at. -/
structure Acceptance where
  login : LoginRow
  config : FederationConfig
  assertion : WorkforceAssertion
  now : Int
  identity : MappedWorkforceIdentity

def Acceptance.key (acceptance : Acceptance) : AssertionKey :=
  (acceptance.login.provider.tenantId, acceptance.assertion.assertionId)

/-- The tables and the requests in the order they came, and what has happened to them. -/
structure Federation where
  clock : Int
  providers : List ProviderRow
  logins : List LoginRow
  ledger : List LedgerRow
  requests : List (Option LoginPhase)
  nextSerial : Nat
  /-- Every row that the configuration has had. -/
  provided : List ProviderRow
  /-- The logins that were consumed, by their serial numbers. -/
  answered : List Nat
  /-- The assertion ids that were consumed. -/
  consumed : List AssertionKey
  /-- The entries that were removed. -/
  pruned : List LedgerRow
  accepted : List Acceptance

def federationStart (clock : Int) : Federation where
  clock := clock
  providers := []
  logins := []
  ledger := []
  requests := []
  nextSerial := 0
  provided := []
  answered := []
  consumed := []
  pruned := []
  accepted := []

inductive FederationAction where
  | tick (micros : Nat)
  | configure (row : ProviderRow)
  | unconfigure (key : ProviderKey)
  | startLogin (provider : ProviderKey) (requestId redirectUri returnPath : String)
  | present (provider : String) (presented : PresentedAssertion) (now : Int)
  | readProvider (i : Nat)
  | readMappings (i : Nat)
  | validate (i : Nat) (trusted : Bool) (report : FederationReport)
  | check (i : Nat)
  | conclude (i : Nat)
  | abandon (i : Nat)
  | pruneLoginRequests (now : Int)
  | pruneLedger (now : Int)

namespace Federation

/-- The request has been answered, or has failed. -/
def close (s : Federation) (i : Nat) : Federation :=
  { s with requests := s.requests.set i none }

def enter (s : Federation) (i : Nat) (phase : LoginPhase) : Federation :=
  { s with requests := s.requests.set i (some phase) }

def startLogin (s : Federation) (provider : ProviderKey) (requestId redirectUri returnPath : String) :
    Option Federation :=
  let row : LoginRow :=
    ⟨s.nextSerial, provider, requestId, redirectUri, returnPath, s.clock + loginLifetime, none⟩
  if row.wellFormed && s.providers.any (·.key == provider) &&
      !s.logins.any (·.requestId == requestId) then
    some { s with logins := s.logins ++ [row], nextSerial := s.nextSerial + 1 }
  else none

def present (s : Federation) (provider : String) (presented : PresentedAssertion) (now : Int) :
    Federation :=
  match loginReferenceOf presented with
  | .error _ => s
  | .ok reference =>
    let (found, logins) := consumeLogin reference now s.logins
    let s : Federation :=
      { s with logins := logins, answered := s.answered ++ (found.map (·.serial)).toList }
    match loginFor provider found with
    | .error _ => s
    | .ok login => { s with requests := s.requests ++ [some (.consumed login presented.kind)] }

def readProvider (s : Federation) (i : Nat) (login : LoginRow) (kind : FederationProtocol) :
    Federation :=
  match s.providers.find? (·.key == login.provider) with
  | none => s.close i
  | some row => s.enter i (.provided login kind row)

def readMappings (s : Federation) (i : Nat) (login : LoginRow) (kind : FederationProtocol)
    (row : ProviderRow) : Federation :=
  let mappings := ((s.providers.find? (·.key == login.provider)).map (·.roleMappings)).getD []
  match row.configuration mappings with
  | none => s.close i
  | some config => s.enter i (.configured login kind config)

def validate (s : Federation) (i : Nat) (login : LoginRow) (kind : FederationProtocol)
    (config : FederationConfig) (trusted : Bool) (report : FederationReport) : Federation :=
  match checkEndpoint trusted config kind with
  | .error _ => s.close i
  | .ok () =>
    match toWorkforceAssertion report config login.redirectUri with
    | .error _ => s.close i
    | .ok assertion => s.enter i (.validated login config assertion)

section

variable (dateParse timestamptz : String → Option Int)

def check (s : Federation) (i : Nat) (login : LoginRow) (config : FederationConfig)
    (assertion : WorkforceAssertion) : Federation :=
  let now := s.clock / 1000
  match checkAssertion dateParse assertion config login.binding now with
  | .error _ => s.close i
  | .ok () => s.enter i (.checked login config assertion now)

def conclude (s : Federation) (i : Nat) (login : LoginRow) (config : FederationConfig)
    (assertion : WorkforceAssertion) (now : Int) : Federation :=
  match ledgerConsume timestamptz login.provider.tenantId assertion.assertionId
      assertion.notOnOrAfter s.ledger with
  | none => s.close i
  | some (inserted, ledger) =>
    let key := (login.provider.tenantId, assertion.assertionId)
    let s : Federation := { s.close i with
      ledger := ledger, consumed := if inserted then s.consumed ++ [key] else s.consumed }
    match concludeLogin assertion config login.binding inserted with
    | .error _ => s
    | .ok identity => { s with accepted := s.accepted ++ [⟨login, config, assertion, now, identity⟩] }

end

end Federation

/-- `none`: there is nothing to do for the label in this state. -/
def federationStep (dateParse timestamptz : String → Option Int) (s : Federation) :
    FederationAction → Option Federation
  | .tick micros => some { s with clock := s.clock + micros }
  | .configure row => some { s with
      providers := row :: s.providers.filter (·.key != row.key), provided := s.provided ++ [row] }
  | .unconfigure key => some { s with
      providers := s.providers.filter (·.key != key)
      logins := s.logins.filter (·.provider != key) }
  | .startLogin provider requestId redirectUri returnPath =>
    s.startLogin provider requestId redirectUri returnPath
  | .present provider presented now =>
    if s.clock < microseconds now then none else some (s.present provider presented now)
  | .readProvider i =>
    match s.requests[i]?.join with
    | some (.consumed login kind) => some (s.readProvider i login kind)
    | _ => none
  | .readMappings i =>
    match s.requests[i]?.join with
    | some (.provided login kind row) => some (s.readMappings i login kind row)
    | _ => none
  | .validate i trusted report =>
    match s.requests[i]?.join with
    | some (.configured login kind config) => some (s.validate i login kind config trusted report)
    | _ => none
  | .check i =>
    match s.requests[i]?.join with
    | some (.validated login config assertion) => some (s.check dateParse i login config assertion)
    | _ => none
  | .conclude i =>
    match s.requests[i]?.join with
    | some (.checked login config assertion now) =>
      some (s.conclude timestamptz i login config assertion now)
    | _ => none
  | .abandon i => some (s.close i)
  | .pruneLoginRequests now =>
    if s.clock < microseconds now then none
    else some { s with logins := pruneLoginRequests now s.logins }
  | .pruneLedger now =>
    if s.clock < microseconds now then none
    else some { s with
      ledger := pruneLedger now s.ledger
      pruned := s.pruned ++ s.ledger.filter (·.prunable now) }

end Kommunsign
