import Kommunsign.Data.Texts
import Kommunsign.Infra.Transaction

/-!
# Where a webhook may be sent

* `assertSafeWebhookUrl` — the check of an address as it is registered
* `assertResolvedWebhookAddresses` — the check of what a name resolves to
-/

namespace Kommunsign

open Infra

/-- What a check reads of a `URL`. -/
structure WebhookUrl where
  protocol : Text
  username : Text
  password : Text
  port : Text
  hostname : Text
  hash : Text
  href : Text

/-- The platform's `URL`, and `toLowerCase` of a text that is not ASCII. -/
structure UrlPlatform where
  /-- `new URL(value)`, where it does not throw. -/
  parse : Text → Option WebhookUrl
  setHostname : WebhookUrl → Text → WebhookUrl
  setHash : WebhookUrl → Text → WebhookUrl
  unicode : Text → Text

/-- The parts of `parseIpv4`, where it is not `null`. -/
def parseIpv4 (value : Text) : Option (List ℕ) :=
  let parts := value.splitOn '.'
  if parts.length ≠ 4 ∨ parts.any (fun part => !isShortNumber part) = true then none
  else
    let numbers := parts.map fun part => Nat.ofDigitChars 10 part 0
    if numbers.any (fun part => decide (part > 255)) = true then none else some numbers

/-- The ranges of `isForbiddenIpLiteral` for version 4. -/
def isForbiddenIpv4 (numbers : List ℕ) : Bool :=
  let a := numbers.getD 0 0
  let b := numbers.getD 1 0
  a == 0 || a == 10 || a == 127 || decide (a ≥ 224) ||
    (a == 100 && decide (b ≥ 64) && decide (b ≤ 127)) ||
    (a == 169 && b == 254) ||
    (a == 172 && decide (b ≥ 16) && decide (b ≤ 31)) ||
    (a == 192 && b == 168) ||
    (a == 198 && (b == 18 || b == 19))

/-- `replace(/^\[|\]$/g, '')` -/
def stripBrackets (value : Text) : Text :=
  let opened := if value.head? = some '[' then value.tail else value
  if opened.getLast? = some ']' then opened.dropLast else opened

/-- The prefixes of `isForbiddenIpLiteral` for version 6. -/
def isForbiddenIpv6 (normalized : Text) : Bool :=
  normalized == "::".toList || normalized == "::1".toList ||
    ["fc", "fd", "fe8", "fe9", "fea", "feb", "ff"].any fun start =>
      start.toList.isPrefixOf normalized

def isForbiddenIpLiteral (value : Text) : Bool :=
  match parseIpv4 value with
  | some numbers => isForbiddenIpv4 numbers
  | none => if ':' ∈ value then isForbiddenIpv6 (stripBrackets value) else false

/-- `replace(/\.$/, '')` -/
def dropFinalDot (value : Text) : Text :=
  if value.getLast? = some '.' then value.dropLast else value

def endsWith (value suffix : Text) : Bool := suffix.isSuffixOf value

/-- The texts are the messages of the errors. -/
def assertSafeWebhookUrl (platform : UrlPlatform) (value : Text) : Except String WebhookUrl := do
  let some parsed := platform.parse value | throw "Invalid URL"
  if parsed.protocol ≠ "https:".toList then throw "WEBHOOK_URL_MUST_USE_HTTPS"
  if parsed.username ≠ [] ∨ parsed.password ≠ [] then throw "WEBHOOK_URL_CREDENTIALS_FORBIDDEN"
  if parsed.port ≠ [] ∧ parsed.port ≠ "443".toList then throw "WEBHOOK_URL_PORT_FORBIDDEN"
  let hostname := dropFinalDot (toLowerCase platform.unicode parsed.hostname)
  if hostname = "localhost".toList ∨ endsWith hostname ".localhost".toList = true ∨
      endsWith hostname ".local".toList = true then
    throw "WEBHOOK_URL_PRIVATE_HOST_FORBIDDEN"
  if isForbiddenIpLiteral hostname = true then throw "WEBHOOK_URL_PRIVATE_IP_FORBIDDEN"
  let parsed := platform.setHash (platform.setHostname parsed hostname) []
  -- an address is written in ASCII, so its characters are its code units
  if parsed.href.length > 2048 then throw "WEBHOOK_URL_TOO_LONG"
  return parsed

def assertResolvedWebhookAddresses (unicode : Text → Text) (addresses : List Text) :
    Except String Unit := do
  if addresses.length = 0 then throw "WEBHOOK_DNS_RESOLUTION_EMPTY"
  if addresses.any (fun address => isForbiddenIpLiteral (toLowerCase unicode address)) = true then
    throw "WEBHOOK_DNS_RESOLVED_PRIVATE_IP"

/-- What `deliver` does before it sends anything. -/
def webhookDestination (platform : UrlPlatform)
    (resolveAddresses : Text → Except String (List Text)) (value : Text) :
    Except String WebhookUrl := do
  let url ← assertSafeWebhookUrl platform value
  let addresses ← resolveAddresses url.hostname
  assertResolvedWebhookAddresses platform.unicode addresses
  return url

end Kommunsign
