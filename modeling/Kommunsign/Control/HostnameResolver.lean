import Mathlib.Logic.Function.Basic
import Kommunsign.Data.Contracts
import Kommunsign.Infra.Run

/-!
# The resolver of tenant hostnames

A lookup asks the cache, reads the repository when it has no answer, and then writes what it has
read to the cache. Between these three steps other lookups, changes of the domains and
invalidations go their own way.

* `TenantHostnameResolver` — the cache, the repository behind it, and the calls under way
* `resolverStep` — one step of one call, or a change of a domain
-/

namespace Kommunsign

open Infra

structure ResolvedTenantDomain where
  domainId : UUID
  tenantId : UUID
  environmentId : UUID
  hostname : String
  status : String
  deriving DecidableEq

/-- The clamped option `cacheTtlMs`. -/
def cacheTtl (cacheTtlMs : Option Int) : Int := min (max (cacheTtlMs.getD 30000) 1000) 300000

/-- An entry, with the number of changes of the hostname that its read has seen. -/
structure CacheEntry where
  expiresAt : Int
  value : ResolvedTenantDomain
  read : Nat
  deriving DecidableEq

/-- Where a lookup waits. -/
inductive LookupPhase where
  /-- For the repository. -/
  | reading
  /--
  To go on with what the repository has answered. Since then its hostname may have changed, and may
  have been invalidated after that.
  -/
  | loaded (resolved : Option ResolvedTenantDomain) (read : Nat) (changed overtaken : Bool)
  /-- For the routing event, with an answer. -/
  | recording (resolved : ResolvedTenantDomain) (read : Nat)
  deriving DecidableEq

/-- A lookup, with the number of changes whose invalidation had returned when it started. -/
structure Lookup where
  hostname : String
  settled : Nat
  phase : LookupPhase
  deriving DecidableEq

/-- What a lookup has answered. -/
structure Resolution where
  hostname : String
  value : ResolvedTenantDomain
  read : Nat
  settled : Nat
  deriving DecidableEq

structure TenantHostnameResolver where
  cacheTtlMs : Int
  now : Int
  cache : String → Option CacheEntry
  /-- What `findActiveByHostname` answers. -/
  repository : String → Option ResolvedTenantDomain
  lookups : Nat → Option Lookup
  /-- The calls of `invalidate` that have not returned, with the changes before them. -/
  invalidations : Nat → Option (String × Nat)
  /-- The changes of each hostname so far. -/
  changes : String → Nat
  /-- The changes before the last call of `invalidate`. -/
  invalidated : String → Nat
  /-- The changes before some call of `invalidate` that has returned. -/
  returned : String → Nat
  resolutions : List Resolution

inductive ResolverStep where
  | time (now : Int)
  /-- A domain is bound to the hostname, in another way, or no longer. -/
  | change (hostname : String) (domain : Option ResolvedTenantDomain)
  | resolve (lookup : Nat) (hostname : String)
  | read (lookup : Nat)
  | store (lookup : Nat)
  | answer (lookup : Nat)
  /-- What the lookup waits for throws. -/
  | reject (lookup : Nat)
  | invalidate (call : Nat) (hostname : String)
  | invalidated (call : Nat)
  | clear

section Step

variable (s : TenantHostnameResolver)

def TenantHostnameResolver.withPhase (id : Nat) (lookup : Lookup) (phase : LookupPhase) :
    TenantHostnameResolver :=
  { s with lookups := Function.update s.lookups id (some { lookup with phase := phase }) }

/-- The lookups that have read before a change of the hostname. -/
def LookupPhase.afterChange : LookupPhase → LookupPhase
  | .loaded resolved read _ overtaken => .loaded resolved read true overtaken
  | phase => phase

/-- The lookups that have read before a change that is now invalidated. -/
def LookupPhase.afterInvalidate : LookupPhase → LookupPhase
  | .loaded resolved read changed overtaken => .loaded resolved read changed (overtaken || changed)
  | phase => phase

/-- Marks the lookups of a hostname. -/
def markLookups (hostname : String) (mark : LookupPhase → LookupPhase)
    (lookups : Nat → Option Lookup) : Nat → Option Lookup := fun id =>
  (lookups id).map fun lookup =>
    if lookup.hostname = hostname then { lookup with phase := mark lookup.phase } else lookup

/-- The cache lookup at the beginning of `resolve`. -/
def TenantHostnameResolver.resolve (id : Nat) (hostname : String) : TenantHostnameResolver :=
  let lookup : Lookup := ⟨hostname, s.returned hostname, .reading⟩
  match s.cache hostname with
  | some cached =>
    if cached.expiresAt > s.now then
      { s with resolutions := s.resolutions ++
        [⟨hostname, cached.value, cached.read, s.returned hostname⟩] }
    else
      { s with
        cache := Function.update s.cache hostname none
        lookups := Function.update s.lookups id (some lookup) }
  | none => { s with lookups := Function.update s.lookups id (some lookup) }

/-- What `resolve` does after the repository has answered. -/
def TenantHostnameResolver.store (id : Nat) (lookup : Lookup)
    (resolved : Option ResolvedTenantDomain) (read : Nat) : TenantHostnameResolver :=
  match resolved with
  | none => { s with lookups := Function.update s.lookups id none }
  | some domain =>
    if domain.hostname ≠ lookup.hostname ∨ domain.status ≠ "active" then
      { s with lookups := Function.update s.lookups id none }
    else
      { s with
        cache := Function.update s.cache lookup.hostname
          (some ⟨s.now + s.cacheTtlMs, domain, read⟩)
        lookups := Function.update s.lookups id
          (some { lookup with phase := .recording domain read }) }

/-- The part of `invalidate` before its routing event. -/
def TenantHostnameResolver.invalidate (call : Nat) (hostname : String) : TenantHostnameResolver :=
  { s with
    cache := Function.update s.cache hostname none
    lookups := markLookups hostname LookupPhase.afterInvalidate s.lookups
    invalidations := Function.update s.invalidations call (some (hostname, s.changes hostname))
    invalidated := Function.update s.invalidated hostname (s.changes hostname) }

def resolverStep : ResolverStep → Option TenantHostnameResolver
  | .time now => some { s with now := now }
  | .change hostname domain => some { s with
      repository := Function.update s.repository hostname domain
      lookups := markLookups hostname LookupPhase.afterChange s.lookups
      changes := Function.update s.changes hostname (s.changes hostname + 1) }
  | .resolve id hostname => if s.lookups id = none then some (s.resolve id hostname) else none
  | .read id =>
    match s.lookups id with
    | some lookup =>
      if lookup.phase = .reading then
        some (s.withPhase id lookup
          (.loaded (s.repository lookup.hostname) (s.changes lookup.hostname) false false))
      else none
    | none => none
  | .store id =>
    match s.lookups id with
    | some lookup =>
      match lookup.phase with
      | .loaded resolved read _ _ => some (s.store id lookup resolved read)
      | .reading | .recording .. => none
    | none => none
  | .answer id =>
    match s.lookups id with
    | some lookup =>
      match lookup.phase with
      | .recording resolved read => some { s with
          lookups := Function.update s.lookups id none
          resolutions := s.resolutions ++ [⟨lookup.hostname, resolved, read, lookup.settled⟩] }
      | .reading | .loaded .. => none
    | none => none
  | .reject id => some { s with lookups := Function.update s.lookups id none }
  | .invalidate call hostname =>
    if s.invalidations call = none then some (s.invalidate call hostname) else none
  | .invalidated call =>
    match s.invalidations call with
    | some (hostname, changes) => some { s with
        invalidations := Function.update s.invalidations call none
        returned := Function.update s.returned hostname (max (s.returned hostname) changes) }
    | none => none
  | .clear => some { s with cache := fun _ => none }

end Step

/-- A resolver that has not been called yet. -/
def TenantHostnameResolver.new (cacheTtlMs : Option Int) (now : Int)
    (repository : String → Option ResolvedTenantDomain) : TenantHostnameResolver where
  cacheTtlMs := cacheTtl cacheTtlMs
  now := now
  cache := fun _ => none
  repository := repository
  lookups := fun _ => none
  invalidations := fun _ => none
  changes := fun _ => 0
  invalidated := fun _ => 0
  returned := fun _ => 0
  resolutions := []

end Kommunsign
