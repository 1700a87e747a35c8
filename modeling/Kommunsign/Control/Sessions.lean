import Mathlib.Data.Nat.Notation
import Kommunsign.Control.TenantHosts

/-!
# The sessions of the browsers

A session is a row of `control.host_bound_sessions` that is found by the hash of its token, and
every operation on it is one statement. A login reads first whether its subject has access, and
inserts the session in a transaction of its own. To disable an account takes two transactions as
well: one of the data plane, and one that revokes the sessions.

* `createSession`, `session`, `logout`, `revokeSessions` — the authentication repository
* `browserSession` — the check of a request
* `sessionStep` — the steps of the system
-/

namespace Kommunsign.BrowserSessions

open Infra

inductive SessionBoundary where
  | tenant | platform | applicant | signer
  deriving DecidableEq

/-- What the check of an origin reads of a `URL`. -/
structure OriginUrl where
  protocol : Text
  username : Text
  password : Text
  port : Text
  hostname : Text
  deriving DecidableEq

/-- `parseUrl` is `new URL(origin)`, where it does not throw. -/
structure Platform where
  hosts : HostSettings
  sha256Hex : Text → Text
  parseUrl : Text → Option OriginUrl
  sessionLifetimeSeconds : ℕ

/-- A row of `control.host_bound_sessions`. -/
structure HostBoundSession where
  tokenHash : Text
  tenantId : Option UUID
  boundary : SessionBoundary
  hostname : Text
  subjectId : String
  authenticationMethod : String
  csrfTokenHash : Option Text
  sessionVersion : ℕ
  expiresAt : ℕ
  lastSeenAt : Option ℕ
  revokedAt : Option ℕ
  deriving DecidableEq

structure ResolvedDestination where
  boundary : SessionBoundary
  hostname : Text
  tenantId : Option UUID
  deriving DecidableEq

/-- `revoked_at is null and expires_at > now()` -/
def HostBoundSession.isLive (now : ℕ) (row : HostBoundSession) : Bool :=
  row.revokedAt.isNone && decide (now < row.expiresAt)

/-! ## The statements -/

/-- `none`: the token hash is taken, or a check of the table fails. -/
def insertSession (now : ℕ) (row : HostBoundSession) (rows : List HostBoundSession) :
    Option (List HostBoundSession) :=
  if rows.any (·.tokenHash == row.tokenHash) then none
  else if row.expiresAt ≤ now ∨ (row.boundary = .tenant ∧ row.tenantId = none) then none
  else some (rows ++ [row])

/-- The row that `createSession` inserts. -/
def newSession (platform : Platform) (now : ℕ) (subjectId : String)
    (destination : ResolvedDestination) (sessionToken csrfToken : Text) : HostBoundSession where
  tokenHash := platform.sha256Hex sessionToken
  tenantId := destination.tenantId
  boundary := destination.boundary
  hostname := destination.hostname
  subjectId := subjectId
  authenticationMethod := "session"
  csrfTokenHash := some (platform.sha256Hex csrfToken)
  sessionVersion := 1
  expiresAt := now + platform.sessionLifetimeSeconds * 1000
  lastSeenAt := none
  revokedAt := none

def createSession (platform : Platform) (now : ℕ) (subjectId : String)
    (destination : ResolvedDestination) (sessionToken csrfToken : Text)
    (rows : List HostBoundSession) : Option (List HostBoundSession) :=
  insertSession now (newSession platform now subjectId destination sessionToken csrfToken) rows

/-- `[A-Za-z0-9._~-]` -/
def isTokenCharacter (c : Char) : Bool :=
  c.isAlphanum || c == '.' || c == '_' || c == '~' || c == '-'

def validateToken (minimum maximum : ℕ) (value : Text) : Option Text :=
  let token := trim value
  if minimum ≤ token.length ∧ token.length ≤ maximum ∧ token.all isTokenCharacter then some token
  else none

/-- `none` is `AUTH_SESSION_INVALID`. -/
def validateSessionToken : Text → Option Text := validateToken 64 4096

/-- `none` is `CSRF_TOKEN_INVALID`. -/
def validateCsrfToken : Text → Option Text := validateToken 32 512

/-- The `where` that the statements on one session share. -/
def HostBoundSession.isFound (now : ℕ) (tokenHash hostname : Text) (row : HostBoundSession) :
    Bool :=
  row.tokenHash == tokenHash && row.hostname == hostname && row.isLive now

/-- The columns of `control.host_bound_sessions`. -/
def hostBoundSessionColumns : List String :=
  ["token_hash", "tenant_id", "boundary", "hostname", "subject_id", "authentication_method",
    "created_at", "expires_at", "last_seen_at", "revoked_at", "csrf_token_hash", "session_version"]

/-- An update of one session; `none`: the statement fails, or it returns no row. -/
def updateReturning (columns : List String) (p : HostBoundSession → Bool)
    (f : HostBoundSession → HostBoundSession) (rows : List HostBoundSession) :
    Option (List HostBoundSession) :=
  if (columns.all fun column => hostBoundSessionColumns.contains column) && rows.any p then
    some (assign p f rows)
  else none

/--
The session gets a new CSRF token. The access of its subject is asked for afterwards: without it
the token is not returned, and is stored all the same.
-/
def session (platform : Platform) (now : ℕ) (sessionToken originHostname csrfToken : Text)
    (rows : List HostBoundSession) : Option (List HostBoundSession) := do
  let token ← validateSessionToken sessionToken
  let hostname ← canonicalHostname platform.hosts originHostname true
  updateReturning ["tenant_id", "boundary", "hostname", "subject_id", "expires_at"]
    (·.isFound now (platform.sha256Hex token) hostname)
    (fun row => { row with
      lastSeenAt := some now
      csrfTokenHash := some (platform.sha256Hex csrfToken)
      sessionVersion := row.sessionVersion + 1 }) rows

/-- It returns the column `id`, which the table does not have. -/
def logout (platform : Platform) (now : ℕ) (sessionToken originHostname csrfToken : Text)
    (rows : List HostBoundSession) : Option (List HostBoundSession) := do
  let token ← validateSessionToken sessionToken
  let hostname ← canonicalHostname platform.hosts originHostname true
  let csrf ← validateCsrfToken csrfToken
  updateReturning ["id"]
    (fun row => row.isFound now (platform.sha256Hex token) hostname &&
      row.csrfTokenHash == some (platform.sha256Hex csrf))
    (fun row => { row with revokedAt := some now }) rows

/-- The update of `setOrganizationUserStatus`, when it disables. -/
def revokeSessions (now : ℕ) (tenantId : UUID) (subjectId : String)
    (rows : List HostBoundSession) : List HostBoundSession :=
  assign
    (fun row => row.tenantId == some tenantId && row.subjectId == subjectId && row.revokedAt.isNone)
    (fun row => { row with revokedAt := some now }) rows

/-! ## The check of a request -/

/-- `sessionToken` is what `sessionTokenFromRequest` finds in the cookies. -/
structure BrowserRequest where
  method : String
  sessionToken : Option Text
  origin : Option Text
  csrfHeader : Option Text
  deriving DecidableEq

structure BrowserSessionIdentity where
  subjectId : String
  tenantId : Option UUID
  boundary : SessionBoundary
  deriving DecidableEq

/-- `none` is `AUTH_ORIGIN_INVALID`. -/
def originHostname (platform : Platform) (origin : Text) : Option Text := do
  let parsed ← platform.parseUrl origin
  if parsed.protocol ≠ "https:".toList ∨ parsed.username ≠ [] ∨ parsed.password ≠ [] ∨
      parsed.port ≠ [] then none
  else canonicalHostname platform.hosts parsed.hostname true

def BrowserRequest.isMutating (request : BrowserRequest) : Bool :=
  ["POST", "PATCH", "PUT", "DELETE"].contains request.method.toUpper

/-- A header of blanks is no token. -/
def BrowserRequest.csrf (request : BrowserRequest) : Option Text :=
  (request.csrfHeader.map trim).filter (· ≠ [])

/-- The `where` of the query. -/
def isMatched (platform : Platform) (now : ℕ) (boundary : SessionBoundary) (token hostname : Text)
    (request : BrowserRequest) (row : HostBoundSession) : Bool :=
  row.isFound now (platform.sha256Hex token) hostname && row.boundary == boundary &&
    (!request.isMutating ||
      (request.csrf.isSome && row.csrfTokenHash == request.csrf.map platform.sha256Hex))

/-- `last_seen_at`, at most once a minute. -/
def HostBoundSession.touch (now : ℕ) (row : HostBoundSession) : HostBoundSession :=
  if row.lastSeenAt.all fun seen => decide (seen + 60000 < now) then
    { row with lastSeenAt := some now }
  else row

/-- Without a token there is no session, and the gateway is asked. -/
def browserSession (platform : Platform) (now : ℕ) (boundary : SessionBoundary)
    (request : BrowserRequest) (rows : List HostBoundSession) :
    Except String (Option (BrowserSessionIdentity × List HostBoundSession)) := do
  let some token := request.sessionToken.filter (· ≠ []) | return none
  let some origin := request.origin.filter (· ≠ []) | throw "AUTH_ORIGIN_REQUIRED"
  let some hostname := originHostname platform origin | throw "AUTH_ORIGIN_INVALID"
  let matched := isMatched platform now boundary token hostname request
  let some row := rows.find? matched
    | throw (if request.isMutating ∧ request.csrf = none then "CSRF_TOKEN_REQUIRED"
        else "AUTH_SESSION_INVALID")
  return some (⟨row.subjectId, row.tenantId, row.boundary⟩,
    assign matched (·.touch now) rows)

/-! ## The system -/

/-- A login that has passed `assertSubjectAccess`. -/
structure Admitted where
  subjectId : String
  destination : ResolvedDestination
  deriving DecidableEq

structure SessionSystem where
  now : ℕ
  rows : List HostBoundSession
  /-- The active subjects of the platform that have a role. -/
  platformSubjects : List String
  /-- The enabled users with an active membership, by tenant. -/
  members : List (UUID × String)
  admitted : List Admitted
  deriving DecidableEq

/-- `assertSubjectAccess`: whether it returns. -/
def SessionSystem.hasAccess (s : SessionSystem) (login : Admitted) : Bool :=
  match login.destination.boundary with
  | .platform => s.platformSubjects.contains login.subjectId
  | _ =>
    match login.destination.tenantId with
    | none => false
    | some tenantId => s.members.contains (tenantId, login.subjectId)

inductive SessionStep where
  | wait (milliseconds : ℕ)
  /-- The roles of the platform are assigned anew. -/
  | assignRoles (subjects : List String)
  /-- A user is provisioned or enabled. -/
  | enable (tenantId : UUID) (subjectId : String)
  /-- `setTenantUserEnabled`, when it disables. -/
  | disable (tenantId : UUID) (subjectId : String)
  | revoke (tenantId : UUID) (subjectId : String)
  | assertAccess (login : Admitted)
  | create (login : Admitted) (sessionToken csrfToken : Text)
  | refresh (sessionToken originHostname csrfToken : Text)
  | logout (sessionToken originHostname csrfToken : Text)
  | request (boundary : SessionBoundary) (request : BrowserRequest)
  deriving DecidableEq

/-- The sessions after a step; `none`: its statement finds no row or fails, or its login may not. -/
def rowsAfter (platform : Platform) (s : SessionSystem) :
    SessionStep → Option (List HostBoundSession)
  | .revoke tenantId subjectId => some (revokeSessions s.now tenantId subjectId s.rows)
  | .assertAccess login => if s.hasAccess login then some s.rows else none
  | .create login sessionToken csrfToken =>
    if login ∈ s.admitted then
      createSession platform s.now login.subjectId login.destination sessionToken csrfToken s.rows
    else none
  | .refresh sessionToken originHostname csrfToken =>
    session platform s.now sessionToken originHostname csrfToken s.rows
  | .logout sessionToken originHostname csrfToken =>
    logout platform s.now sessionToken originHostname csrfToken s.rows
  | .request boundary request =>
    match browserSession platform s.now boundary request s.rows with
    | .ok (some (_, rows)) => some rows
    | _ => none
  | _ => some s.rows

def sessionStep (platform : Platform) (s : SessionSystem) (step : SessionStep) :
    Option SessionSystem :=
  (rowsAfter platform s step).map fun rows =>
    match step with
    | .wait milliseconds => { s with now := s.now + milliseconds }
    | .assignRoles subjects => { s with platformSubjects := subjects }
    | .enable tenantId subjectId => { s with members := (tenantId, subjectId) :: s.members }
    | .disable tenantId subjectId =>
      { s with members := s.members.filter (· ≠ (tenantId, subjectId)) }
    | .assertAccess login => { s with admitted := login :: s.admitted }
    | .create login _ _ => { s with rows := rows, admitted := s.admitted.erase login }
    | _ => { s with rows := rows }

/-- Before the first login. -/
def sessionStart : SessionSystem := ⟨0, [], [], [], []⟩

end Kommunsign.BrowserSessions
