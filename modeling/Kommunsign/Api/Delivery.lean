import Mathlib.Logic.Function.Basic
import Kommunsign.Data.Contracts
import Kommunsign.Data.Guards
import Kommunsign.Data.Texts
import Kommunsign.Infra.Run

/-!
# Download links for finished documents

A grant opens one artifact of one case. The token of its link is kept as a hash only, and redeeming
it is one conditional update, in a transaction that no tenant has been set for.

* `downloadGrants` — the table of the grants with its guards
* `Delivery.redeem`, `Delivery.revoke` — the update statements of the repository
-/

namespace Kommunsign

open Infra

inductive DeliveryArtifactKind where
  | SIGNED_DOCUMENT | VALIDATION_REPORT | EVIDENCE_PACKAGE
  deriving DecidableEq

structure DownloadGrant where
  tenantId : UUID
  id : UUID
  signatureCaseId : UUID
  artifact : DeliveryArtifactKind
  tokenHash : String
  createdAt : Int
  expiresAt : Int
  revokedAt : Option Int
  revokedBy : Option UUID
  maximumUses : Nat
  useCount : Nat
  deriving DecidableEq

def DownloadGrant.key (grant : DownloadGrant) : UUID × UUID := (grant.tenantId, grant.id)

/-- Each use, recorded. -/
structure DownloadEvent where
  tenantId : UUID
  grantId : UUID
  clientNetwork : Option String
  userAgentFamily : Option String
  deriving DecidableEq

def DownloadEvent.key (event : DownloadEvent) : UUID × UUID := (event.tenantId, event.grantId)

/-- A case, as far as issuing a grant looks at it. -/
structure DeliverableCase where
  tenantId : UUID
  id : UUID
  status : String
  hasFinishedPackage : Bool
  deriving DecidableEq

structure DownloadClient where
  network : Option String
  userAgentFamily : Option String
  deriving DecidableEq

/-- Where the transaction of a client is. A grant is the row that it has updated. -/
inductive DeliveryCall where
  | redeeming (session : Option UUID) (tokenHash : String) (now : Int) (client : DownloadClient)
  | redeemed (tokenHash : String) (grant : DownloadGrant) (client : DownloadClient)
  | recorded (tokenHash : String) (grant : DownloadGrant) (client : DownloadClient)
  | revoking (tenantId grantId subjectId : UUID) (startedAt : Int)
  | revoked (grant : DownloadGrant) (subjectId : UUID) (startedAt : Int)
  deriving DecidableEq

/-- A redemption that has been committed. -/
structure DownloadRedemption where
  /-- The hash of the token that was presented. -/
  tokenHash : String
  grant : DownloadGrant
  committedAt : Int
  /-- The grant was revoked when the redemption was committed. -/
  afterRevocation : Bool
  deriving DecidableEq

/-- A redemption that was answered with null. -/
structure DownloadDenial where
  tokenHash : String
  /-- A grant of the token was live. -/
  live : Bool
  deriving DecidableEq

structure Delivery where
  clock : Int
  cases : List DeliverableCase
  grants : List DownloadGrant
  events : List DownloadEvent
  calls : Nat → Option DeliveryCall
  /-- The client that has a row locked. -/
  holder : UUID × UUID → Option Nat
  /-- The grants as they were issued. -/
  issued : List DownloadGrant
  redemptions : List DownloadRedemption
  denials : List DownloadDenial

/-! ## What is kept of a client -/

/-- Truncates a client address before it is stored. -/
def truncateClientAddress (address : Option Text) : Option Text :=
  match address with
  | none => none
  | some address =>
    if address = [] then none
    else
      let value := trim address
      let octets := value.splitOn '.'
      -- `/^\d{1,3}(\.\d{1,3}){3}$/`
      if octets.length = 4 ∧ octets.all isShortNumber = true then
        some (['.'].intercalate (octets.take 3) ++ ".0/24".toList)
      else if ':' ∈ value then
        let groups := (value.splitOn ':').filter (· ≠ [])
        if groups.length < 3 then none
        else some ([':'].intercalate (groups.take 3) ++ "::/48".toList)
      else none

/-! ## The guards -/

/-- `app.assert_download_grant_case_completed`. -/
def assertDownloadGrantCaseCompleted (s : Delivery) (new : DownloadGrant) : Checks :=
  match s.cases.find? fun c => c.tenantId == new.tenantId && c.id == new.signatureCaseId with
  | none => raises true "DOWNLOAD_GRANT_CASE_NOT_FOUND"
  | some c => raises (!c.hasFinishedPackage)
      ("DOWNLOAD_GRANT_CASE_NOT_COMPLETED: case " ++ c.status ++ " has no finished evidence package")

/-- `app.assert_download_grant_use_monotonic`. -/
def assertDownloadGrantUseMonotonic (old new : DownloadGrant) : Checks :=
  raises (new.useCount < old.useCount) "DOWNLOAD_GRANT_USE_COUNT_REWOUND" ++
  raises (new.maximumUses != old.maximumUses) "DOWNLOAD_GRANT_LIMIT_IMMUTABLE" ++
  raises (new.expiresAt != old.expiresAt) "DOWNLOAD_GRANT_EXPIRY_IMMUTABLE" ++
  raises (old.revokedAt.isSome && new.revokedAt.isNone) "DOWNLOAD_GRANT_REVOCATION_IS_FINAL"

def downloadGrantChecks (new : DownloadGrant) : Checks :=
  violates (new.maximumUses < 1 || 50 < new.maximumUses)
    "document_download_grants_maximum_uses_check" ++
  violates (new.maximumUses < new.useCount) "document_download_grants_uses_within_limit" ++
  violates (new.expiresAt ≤ new.createdAt) "document_download_grants_expiry_is_bounded"

def downloadGrants : Table Delivery Failure DownloadGrant where
  rows := Delivery.grants
  put rows s := { s with grants := rows }
  onInsert s new := refuse (
    assertDownloadGrantCaseCompleted s new ++
    downloadGrantChecks new ++
    violates (s.grants.any fun grant => grant.key == new.key) "document_download_grants_pkey" ++
    violates (s.grants.any fun grant =>
      grant.tenantId == new.tenantId && grant.tokenHash == new.tokenHash)
      "document_download_grants_tenant_id_token_hash_key")
  onUpdate _ old new := refuse (assertDownloadGrantUseMonotonic old new ++ downloadGrantChecks new)
  onDelete s old := refuse (
    violates (s.events.any fun event => event.key == old.key)
      "document_download_events_tenant_id_grant_id_fkey")

/-- The policy `tenant_isolation`: a row is there for the sessions of its tenant. -/
def isVisible (session : Option UUID) (tenantId : UUID) : Bool := session == some tenantId

/-! ## The repository -/

def MAXIMUM_GRANT_LIFETIME_SECONDS : Int := 30 * 24 * 60 * 60

structure IssueInput where
  signatureCaseId : UUID
  artifact : DeliveryArtifactKind
  lifetimeSeconds : Int
  maximumUses : Nat
  deriving DecidableEq

structure DeliveryError where
  code : String
  message : String
  deriving DecidableEq

/-- The grant that `issue` inserts. -/
def issuedGrant (tenantId id : UUID) (tokenHash : String) (input : IssueInput) (now : Int) :
    DownloadGrant where
  tenantId := tenantId
  id := id
  signatureCaseId := input.signatureCaseId
  artifact := input.artifact
  tokenHash := tokenHash
  createdAt := now
  expiresAt := now + 1000 * input.lifetimeSeconds
  revokedAt := none
  revokedBy := none
  maximumUses := input.maximumUses
  useCount := 0

/-- What `issue` asks of its input. -/
def checkLifetime (input : IssueInput) : Except DeliveryError Unit :=
  if input.lifetimeSeconds < 60 ∨ input.lifetimeSeconds > MAXIMUM_GRANT_LIFETIME_SECONDS then
    .error ⟨"DOWNLOAD_GRANT_LIFETIME_INVALID", "The requested lifetime is outside the permitted range"⟩
  else .ok ()

/-- The condition of the update that redeems a token. -/
def DownloadGrant.isLive (grant : DownloadGrant) (now : Int) : Bool :=
  grant.revokedAt.isNone && decide (grant.expiresAt > now) && decide (grant.useCount < grant.maximumUses)

/-- The row after the update. -/
def DownloadGrant.used (grant : DownloadGrant) : DownloadGrant :=
  { grant with useCount := grant.useCount + 1 }

def DownloadGrant.withdrawn (grant : DownloadGrant) (subjectId : UUID) (revokedAt : Int) :
    DownloadGrant :=
  { grant with revokedAt := some revokedAt, revokedBy := some subjectId }

section Repository

variable (s : Delivery)

/-- The transaction is over. -/
def Delivery.finish (i : Nat) : Delivery :=
  { s with
    calls := Function.update s.calls i none
    holder := fun key => if s.holder key = some i then none else s.holder key }

/-- The row is locked, and the transaction goes on. -/
def Delivery.take (i : Nat) (grant : DownloadGrant) (call : DeliveryCall) : Delivery :=
  { s with
    calls := Function.update s.calls i (some call)
    holder := Function.update s.holder grant.key (some i) }

/-- The first statement of `redeem`; it waits for a row that is locked. -/
def Delivery.redeem (i : Nat) (session : Option UUID) (tokenHash : String) (now : Int)
    (client : DownloadClient) : Option Delivery :=
  match s.grants.find? fun grant =>
      isVisible session grant.tenantId && grant.tokenHash == tokenHash && grant.isLive now with
  | none => some { s.finish i with denials := s.denials ++
      [⟨tokenHash, s.grants.any fun grant => grant.tokenHash == tokenHash && grant.isLive now⟩] }
  | some grant =>
    if s.holder grant.key = none then
      match downloadGrants.onUpdate s grant grant.used with
      | .error _ => some (s.finish i)
      | .ok () => some (s.take i grant (.redeemed tokenHash grant client))
    else none

/-- The first statement of `revoke`. -/
def Delivery.revoke (i : Nat) (tenantId grantId subjectId : UUID) (startedAt : Int) :
    Option Delivery :=
  match s.grants.find? fun grant =>
      grant.tenantId == tenantId && grant.id == grantId && grant.revokedAt.isNone with
  | none => some (s.finish i)
  | some grant =>
    if s.holder grant.key = none then
      match downloadGrants.onUpdate s grant (grant.withdrawn subjectId startedAt) with
      | .error _ => some (s.finish i)
      | .ok () => some (s.take i grant (.revoked grant subjectId startedAt))
    else none

/-- The row and the event of a redemption become visible together. -/
def Delivery.commitRedemption (i : Nat) (tokenHash : String) (grant : DownloadGrant)
    (client : DownloadClient) : Delivery :=
  { s.finish i with
    grants := assign (·.key == grant.key) (fun _ => grant.used) s.grants
    events := s.events ++
      [⟨grant.tenantId, grant.id, client.network, client.userAgentFamily⟩]
    redemptions := s.redemptions ++ [⟨tokenHash, grant, s.clock,
      s.grants.any fun row => row.key == grant.key && row.revokedAt.isSome⟩] }

def Delivery.commitRevocation (i : Nat) (grant : DownloadGrant) (subjectId : UUID)
    (startedAt : Int) : Delivery :=
  { s.finish i with
    grants := assign (·.key == grant.key) (fun _ => grant.withdrawn subjectId startedAt) s.grants }

/-- `issue`; `none`: it throws. -/
def Delivery.issue (tenantId id : UUID) (tokenHash : String) (input : IssueInput) :
    Option Delivery := do
  let _ ← (checkLifetime input).toOption
  let grant := issuedGrant tenantId id tokenHash input s.clock
  let next ← (downloadGrants.insert grant).outcome s
  return { next with issued := s.issued ++ [grant] }

end Repository

inductive DeliveryStep where
  | time (now : Int)
  /-- The cases of the tenants, and their packages. -/
  | cases (cases : List DeliverableCase)
  | issue (tenantId id : UUID) (tokenHash : String) (input : IssueInput)
  /-- A call of `redeem`, in a session with a tenant or without one. -/
  | redeem (i : Nat) (session : Option UUID) (tokenHash : String) (client : DownloadClient)
  | revoke (i : Nat) (tenantId grantId subjectId : UUID)
  /-- The next statement of a client. -/
  | next (i : Nat)
  /-- A client loses its connection, or fails. -/
  | abort (i : Nat)

def Delivery.next (s : Delivery) (i : Nat) : DeliveryCall → Option Delivery
  | .redeeming session tokenHash now client => s.redeem i session tokenHash now client
  | .redeemed tokenHash grant client =>
    some { s with calls := Function.update s.calls i (some (.recorded tokenHash grant client)) }
  | .recorded tokenHash grant client => some (s.commitRedemption i tokenHash grant client)
  | .revoking tenantId grantId subjectId startedAt => s.revoke i tenantId grantId subjectId startedAt
  | .revoked grant subjectId startedAt => some (s.commitRevocation i grant subjectId startedAt)

def deliveryStep (s : Delivery) : DeliveryStep → Option Delivery
  | .time now => some { s with clock := now }
  | .cases cases => some { s with cases := cases }
  | .issue tenantId id tokenHash input => s.issue tenantId id tokenHash input
  | .redeem i session tokenHash client =>
    if s.calls i = none then
      some { s with calls :=
        Function.update s.calls i (some (.redeeming session tokenHash s.clock client)) }
    else none
  | .revoke i tenantId grantId subjectId =>
    if s.calls i = none then
      some { s with calls :=
        Function.update s.calls i (some (.revoking tenantId grantId subjectId s.clock)) }
    else none
  | .next i => (s.calls i).bind (s.next i)
  | .abort i => some (s.finish i)

/-- No grant has been issued yet. -/
def Delivery.new (clock : Int) (cases : List DeliverableCase) : Delivery where
  clock := clock
  cases := cases
  grants := []
  events := []
  calls := fun _ => none
  holder := fun _ => none
  issued := []
  redemptions := []
  denials := []

end Kommunsign
