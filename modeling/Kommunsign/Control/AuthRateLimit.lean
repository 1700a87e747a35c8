import Mathlib.Logic.Function.Basic
import Mathlib.Tactic.Common
import Kommunsign.Data.Texts
import Kommunsign.Infra.JsString
import Kommunsign.Infra.Run

/-!
# The rate limit of authentication

Every attempt is counted in a bucket by one upsert, whose result decides it. The statement of one
attempt waits for those of others on the same row, so the attempts of a bucket are counted one
after another; a transaction keeps the time it began at as its `now()`, and the attempt is decided
by the clock after its transaction.

* `normalizeIp`, `cleanText`, `bucketKey` — the bucket of an attempt
* `upsertBucket` — what the upsert makes of the row

An attempt that loses its connection takes no further step. A time is a number of milliseconds.
-/

namespace Kommunsign.AuthRateLimit

open Infra

inductive AuthAction where
  | login
  | passwordRecovery
  | passwordComplete
  deriving DecidableEq

/-- The column `action`. -/
def AuthAction.text : AuthAction → String
  | .login => "login"
  | .passwordRecovery => "password_recovery"
  | .passwordComplete => "password_complete"

/-- The user agent is cut by its code units. -/
structure AuthRequestMetadata where
  ipAddress : Text
  userAgent : Units
  deriving DecidableEq

/-- One call of `enforceAuthRateLimit`. -/
structure LimitedRequest where
  action : AuthAction
  metadata : AuthRequestMetadata
  email : Option Text
  maximumAttempts : ℤ
  deriving DecidableEq

/-- The primary key of `control.auth_rate_limit_buckets`. -/
structure BucketKey where
  action : AuthAction
  bucketHash : Text
  deriving DecidableEq

/-- A row of `control.auth_rate_limit_buckets`. -/
structure AuthRateLimitBucket where
  windowStartedAt : ℕ
  attempts : ℕ
  blockedUntil : Option ℕ
  updatedAt : ℕ
  deriving DecidableEq

/-- `interval '15 minutes'` -/
def fifteenMinutes : ℕ := 900000

/-! ## The bucket of an attempt -/

/-- `replace(/^::ffff:/, '')` -/
def dropMapped (value : Text) : Text :=
  if "::ffff:".toList.isPrefixOf value then value.drop 7 else value

/-- `[0-9a-f:.]` -/
def isAddressCharacter (c : Char) : Bool :=
  c.isDigit || decide ('a' ≤ c) && decide (c ≤ 'f') || c == ':' || c == '.'

def normalizeIp (unicode : Text → Text) (value : Text) : Except String Text := do
  let normalized := dropMapped (toLowerCase unicode (trim value))
  unless 3 ≤ normalized.length ∧ normalized.length ≤ 64 ∧ normalized.all isAddressCharacter do
    throw "AUTH_CLIENT_IP_INVALID"
  return normalized

def isTrimmedUnit (u : CodeUnit) : Bool := isTrimmed (Char.ofNat u.val)

def cleanText (value : Units) (minimum maximum : ℕ) : Except String Units := do
  let result := ((value.dropWhile isTrimmedUnit).reverse.dropWhile isTrimmedUnit).reverse
  if result.length < minimum ∨ maximum < result.length then
    throw "VALIDATION_ERROR"
  return result

/-- `userAgent.slice(0, 120)`, of `cleanText(metadata.userAgent || 'unknown', 1, 500)`. -/
def userAgentPart (metadata : AuthRequestMetadata) : Except String Units := do
  let userAgent ←
    cleanText (if metadata.userAgent = [] then unitsOf "unknown" else metadata.userAgent) 1 500
  return userAgent.take 120

/-- The text that names the bucket. -/
def bucketText (action : AuthAction) (ipAddress : Text) (email : Option Text) (userAgent : Units) :
    Units :=
  unitsOf action.text ++ unitsOf "\n" ++ ipAddress.flatMap charUnits ++ unitsOf "\n" ++
    (email.getD []).flatMap charUnits ++ unitsOf "\n" ++ userAgent

/-- `unicode` is `toLowerCase` of a text that is not ASCII. -/
structure Platform where
  sha256Hex : Units → Text
  unicode : Text → Text

def bucketKey (platform : Platform) (request : LimitedRequest) : Except String BucketKey := do
  let ipAddress ← normalizeIp platform.unicode request.metadata.ipAddress
  let userAgent ← userAgentPart request.metadata
  return ⟨request.action,
    platform.sha256Hex (bucketText request.action ipAddress request.email userAgent)⟩

/-! ## The upsert -/

/-- The row that the statement returns; `now` is the beginning of its transaction. -/
def upsertBucket (now : ℕ) (maximumAttempts : ℤ) :
    Option AuthRateLimitBucket → AuthRateLimitBucket
  | none => ⟨now, 1, none, now⟩
  | some old =>
    { attempts := if old.windowStartedAt < now - fifteenMinutes then 1 else old.attempts + 1
      windowStartedAt :=
        if old.windowStartedAt < now - fifteenMinutes then now else old.windowStartedAt
      blockedUntil :=
        if old.blockedUntil.any fun blockedUntil => decide (now < blockedUntil) then
          old.blockedUntil
        else if now - fifteenMinutes ≤ old.windowStartedAt ∧ maximumAttempts < old.attempts + 1 then
          some (now + fifteenMinutes)
        else none
      updatedAt := now }

/-- The end of `enforceAuthRateLimit`; `clock` is `Date.now()`. -/
def decideAttempt (clock : ℕ) (maximumAttempts : ℤ) (key : BucketKey)
    (row : AuthRateLimitBucket) : Except String Text := do
  if (row.blockedUntil.any fun blockedUntil => decide (clock < blockedUntil)) ∨
      maximumAttempts < row.attempts then
    throw "AUTH_RATE_LIMITED"
  return key.bucketHash

/-! ## Attempts at the same time -/

/-- An attempt whose transaction has begun. -/
structure BegunAttempt where
  request : LimitedRequest
  key : BucketKey
  startedAt : ℕ
  deriving DecidableEq

/-- One that has been counted; `position` is the number of those counted before it. -/
structure CountedAttempt extends BegunAttempt where
  position : ℕ
  row : AuthRateLimitBucket
  deriving DecidableEq

structure DecidedAttempt where
  counted : CountedAttempt
  decidedAt : ℕ
  result : Except String Text
  deriving DecidableEq

/-- `counted` has the latest first; `undecided` are those of them that are not decided yet. -/
structure AuthLimiter where
  clock : ℕ
  buckets : BucketKey → Option AuthRateLimitBucket
  begun : List BegunAttempt
  undecided : List CountedAttempt
  counted : List CountedAttempt
  decided : List DecidedAttempt

def emptyLimiter : AuthLimiter := ⟨0, fun _ => none, [], [], [], []⟩

/-- `count` and `decide` choose one of the attempts under way. -/
inductive LimiterStep where
  | elapse (time : ℕ)
  | begin (request : LimitedRequest)
  | count (n : ℕ)
  | decide (n : ℕ)
  | clear (key : BucketKey)
  deriving DecidableEq

/-- The statement of an attempt, with its commit. -/
def AuthLimiter.countAttempt (s : AuthLimiter) (n : ℕ) (attempt : BegunAttempt) : AuthLimiter :=
  let row := upsertBucket attempt.startedAt attempt.request.maximumAttempts (s.buckets attempt.key)
  let counted := { attempt with position := s.counted.length, row }
  { s with
    buckets := Function.update s.buckets attempt.key (some row)
    begun := s.begun.eraseIdx n
    undecided := counted :: s.undecided
    counted := counted :: s.counted }

def AuthLimiter.decideAttempt (s : AuthLimiter) (n : ℕ) (counted : CountedAttempt) : AuthLimiter :=
  let result := AuthRateLimit.decideAttempt s.clock counted.request.maximumAttempts counted.key
    counted.row
  { s with
    undecided := s.undecided.eraseIdx n
    decided := ⟨counted, s.clock, result⟩ :: s.decided }

/-- `clear` is `clearAuthRateLimit`. -/
def limiterStep (platform : Platform) (s : AuthLimiter) : LimiterStep → Option AuthLimiter
  | .elapse time => some { s with clock := s.clock + time }
  | .begin request =>
    match bucketKey platform request with
    | .error _ => some s
    | .ok key => some { s with begun := ⟨request, key, s.clock⟩ :: s.begun }
  | .count n => s.begun[n]?.map (s.countAttempt n)
  | .decide n => s.undecided[n]?.map (s.decideAttempt n)
  | .clear key => some { s with buckets := Function.update s.buckets key none }

end Kommunsign.AuthRateLimit
