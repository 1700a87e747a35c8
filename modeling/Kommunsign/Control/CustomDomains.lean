import Kommunsign.Data.Rows
import Kommunsign.Infra.Lists
import Kommunsign.Infra.Run

/-!
# One custom domain of a tenant

Every operation of `createDomainManagementRepository` on a domain reads the row in a transaction of
its own, asks the providers of DNS and hosting, and writes what they answered in another
transaction. No statement that writes the status looks at the status it replaces, and
`assertDomainTransition` has no caller: what the database itself refuses is in `accepts`.

* `DomainState.transitions` — the map of the package `custom-domains`
* `CustomDomain` — the columns of the row that decide about its status
-/

namespace Kommunsign

open Infra

/-- `DOMAIN_STATES` -/
inductive DomainState where
  | requested
  | dnsChallengeCreated
  | dnsVerificationPending
  | dnsVerified
  | routingPending
  | certificatePending
  | active
  | renewalRequired
  | suspended
  | removed
  | failed
  deriving DecidableEq

/-- `transitions` -/
def DomainState.transitions : DomainState → List DomainState
  | .requested => [.dnsChallengeCreated, .removed, .failed]
  | .dnsChallengeCreated =>
    [.dnsVerificationPending, .dnsVerified, .suspended, .removed, .failed]
  | .dnsVerificationPending =>
    [.dnsVerified, .dnsChallengeCreated, .suspended, .removed, .failed]
  | .dnsVerified => [.routingPending, .certificatePending, .suspended, .removed, .failed]
  | .routingPending => [.certificatePending, .suspended, .removed, .failed]
  | .certificatePending => [.active, .suspended, .removed, .failed]
  | .active => [.renewalRequired, .suspended, .removed, .failed]
  | .renewalRequired => [.certificatePending, .suspended, .removed, .failed]
  | .suspended =>
    [.dnsChallengeCreated, .dnsVerificationPending, .routingPending, .certificatePending, .removed,
      .failed]
  | .failed =>
    [.dnsChallengeCreated, .dnsVerificationPending, .routingPending, .certificatePending,
      .suspended, .removed]
  | .removed => []

/-- Whether `assertDomainTransition` lets the change pass. -/
def assertDomainTransition (source target : DomainState) : Bool :=
  source.transitions.contains target

/-- The status of `CertificateStatus`. -/
inductive CertificateState where
  | pending
  | issued
  | renewalRequired
  | failed
  | revoked
  deriving DecidableEq

/-- The status of `DomainHealthResult`. -/
inductive HealthState where
  | healthy
  | degraded
  | failed
  deriving DecidableEq

/-- A row of `control.tenant_domains`. -/
structure CustomDomain where
  status : DomainState
  isPrimary : Bool
  dnsVerifiedAt : Option Time
  certificateIssuedAt : Option Time
  lastHealthStatus : Option HealthState
  activatedAt : Option Time
  deriving DecidableEq

/-- A row of `control.domain_verification_challenges`. -/
structure VerificationChallenge where
  expiresAt : Time
  verifiedAt : Option Time
  revokedAt : Option Time
  deriving DecidableEq

/-- `revoked_at is null and verified_at is null` -/
def VerificationChallenge.isOpen (challenge : VerificationChallenge) : Bool :=
  challenge.revokedAt.isNone && challenge.verifiedAt.isNone

inductive DomainOperation where
  | createChallenge
  | verifyAndAttach
  | checkCertificateAndHealth
  | remove
  /-- `control.set_primary_tenant_domain`, once the approvals and the advisory lock are there -/
  | makePrimary
  deriving DecidableEq

/-- What an operation was answered, before its last transaction. -/
inductive DomainAnswer where
  | challenge (expiresAt : Time)
  | dns (verified : Bool)
  | check (certificate : CertificateState) (issuedAt : Option Time) (health : HealthState)
  | removed
  /-- Nobody is asked for the primary domain. -/
  | unasked
  deriving DecidableEq

structure DomainSystem where
  row : CustomDomain
  challenges : List VerificationChallenge
  underWay : List (Option DomainOperation)
  deriving DecidableEq

/--
What the database accepts of an update: `tenant_domains_primary_guard` and
`tenant_domains_activation_evidence_check`.
-/
def CustomDomain.accepts (old new : CustomDomain) : Bool :=
  !(new.isPrimary && new.status != .active) && !(old.isPrimary && !new.isPrimary) &&
    (new.status != .active ||
      new.dnsVerifiedAt.isSome && new.certificateIssuedAt.isSome &&
        new.lastHealthStatus == some .healthy && new.activatedAt.isSome)

/-- The last transaction of an operation: a refused update leaves nothing of it. -/
def DomainSystem.write (s : DomainSystem) (row : CustomDomain)
    (challenges : List VerificationChallenge) : DomainSystem :=
  if s.row.accepts row then { s with row := row, challenges := challenges } else s

/-- `currentChallenge` -/
def DomainSystem.currentChallenge (s : DomainSystem) (now : Time) : Bool :=
  s.challenges.any fun challenge => challenge.isOpen && decide (now < challenge.expiresAt)

/-- The operation reads the row: `false` says that it throws before it asks a provider. -/
def DomainSystem.mayStart (s : DomainSystem) (now : Time) : DomainOperation → Bool
  | .createChallenge | .checkCertificateAndHealth => true
  | .verifyAndAttach => s.currentChallenge now
  | .remove => !s.row.isPrimary
  | .makePrimary => s.row.status == .active

/-- The last transaction of an operation; `none`: that is no answer to it. -/
def DomainSystem.finishOperation (s : DomainSystem) (now : Time) :
    DomainOperation → DomainAnswer → Option DomainSystem
  | .createChallenge, .challenge expiresAt =>
    some (s.write { s.row with status := .dnsChallengeCreated }
      (s.challenges.map (fun c => if c.isOpen then { c with revokedAt := some now } else c) ++
        [⟨expiresAt, none, none⟩]))
  -- the status is written and `CUSTOM_DOMAIN_DNS_NOT_VERIFIED` is thrown
  | .verifyAndAttach, .dns false =>
    some (s.write { s.row with status := .dnsVerificationPending } s.challenges)
  | .verifyAndAttach, .dns true =>
    some (s.write { s.row with status := .certificatePending, dnsVerifiedAt := some now }
      (s.challenges.map fun c => if c.isOpen then { c with verifiedAt := some now } else c))
  | .checkCertificateAndHealth, .check certificate issuedAt health =>
    if certificate ≠ .issued then some s
    else
      let status : DomainState := if health = .healthy then .active else .failed
      some (s.write { s.row with
        status := status
        certificateIssuedAt := some (issuedAt.getD now)
        lastHealthStatus := some health
        activatedAt := if status = .active then some (s.row.activatedAt.getD now)
          else s.row.activatedAt } s.challenges)
  | .remove, .removed => some (s.write { s.row with status := .removed } s.challenges)
  -- the guard lets the function pass, whatever has become of the status
  | .makePrimary, .unasked => some { s with row := { s.row with isPrimary := true } }
  | _, _ => none

inductive DomainAction where
  | start (operation : DomainOperation) (now : Time)
  | finish (i : Nat) (answer : DomainAnswer) (now : Time)
  /-- The provider fails, or the process is gone. -/
  | abandon (i : Nat)
  /-- Another domain of the environment is made the primary one. -/
  | otherMadePrimary
  deriving DecidableEq

/-- `none`: the operation throws before it asks anybody, or there is no such operation. -/
def domainStep (s : DomainSystem) : DomainAction → Option DomainSystem
  | .start operation now =>
    if s.mayStart now operation then
      some { s with underWay := s.underWay ++ [some operation] }
    else none
  | .finish i answer now =>
    match s.underWay[i]?.join with
    | some operation =>
      match s.finishOperation now operation answer with
      | some s' => some { s' with underWay := s'.underWay.set i none }
      | none => none
    | none => none
  | .abandon i =>
    match s.underWay[i]?.join with
    | some _ => some { s with underWay := s.underWay.set i none }
    | none => none
  | .otherMadePrimary => some { s with row := { s.row with isPrimary := false } }

/-- What `requestCustomDomain` inserts. -/
def DomainSystem.requested : DomainSystem :=
  ⟨⟨.requested, false, none, none, none, none⟩, [], []⟩

end Kommunsign
