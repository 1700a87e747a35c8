import Mathlib.Order.Lattice
import Kommunsign.Control.HostnameResolver

/-!
# What the hostname cache still answers after an invalidation

An invalidation deletes the entry of its hostname, and not the lookups that have read the old
binding and are about to write it.

* `cacheCurrent_throughout_iff` — the answers stay current if and only if no lookup does
* `not_cacheCurrent_in_flight` — a lookup that caches the old tenant again
-/

namespace Kommunsign

open Infra

/-- The cache holds, and the resolutions are, nothing from before an invalidated change. -/
structure CacheCurrent (s : TenantHostnameResolver) : Prop where
  cached : ∀ hostname entry, s.cache hostname = some entry →
    s.invalidated hostname ≤ entry.read
  resolved : ∀ resolution ∈ s.resolutions, resolution.settled ≤ resolution.read

/--
The lookup is about to cache a binding, while its hostname has changed since the read and been
invalidated after that.
-/
def Lookup.isOvertaken (lookup : Lookup) : Bool :=
  match lookup.phase with
  | .loaded (some domain) _ _ overtaken =>
    overtaken && domain.hostname == lookup.hostname && domain.status == "active"
  | .loaded none _ _ _ | .reading | .recording .. => false

def NotOvertaken (s : TenantHostnameResolver) : ResolverStep → Prop
  | .store id => ∀ lookup ∈ s.lookups id, lookup.isOvertaken = false
  | .time _ | .change .. | .resolve .. | .read _ | .answer _ | .reject _ | .invalidate .. |
    .invalidated _ | .clear => True

/-! ## The marks of the lookups -/

/-- What the phase of a lookup says, by the changes and invalidations of its hostname. -/
def PhaseOk (settled changes invalidated : Nat) : LookupPhase → Prop
  | .reading => True
  | .loaded _ read changed overtaken => settled ≤ read ∧ read ≤ changes ∧
      (changed = true ↔ read < changes) ∧ (overtaken = true ↔ read < invalidated)
  | .recording _ read => settled ≤ read

structure ResolverOk (s : TenantHostnameResolver) : Prop where
  returned_le : ∀ hostname, s.returned hostname ≤ s.invalidated hostname
  invalidated_le : ∀ hostname, s.invalidated hostname ≤ s.changes hostname
  calls : ∀ call hostname changes, s.invalidations call = some (hostname, changes) →
    changes ≤ s.invalidated hostname
  settled : ∀ id lookup, s.lookups id = some lookup →
    lookup.settled ≤ s.returned lookup.hostname
  phases : ∀ id lookup, s.lookups id = some lookup →
    PhaseOk lookup.settled (s.changes lookup.hostname) (s.invalidated lookup.hostname) lookup.phase

section Phases

variable {settled changes invalidated : Nat} {phase : LookupPhase}

theorem phaseOk_afterChange (h : PhaseOk settled changes invalidated phase) :
    PhaseOk settled (changes + 1) invalidated phase.afterChange := by
  cases phase with
  | reading => trivial
  | loaded resolved read changed overtaken =>
    obtain ⟨hsettled, hread, -, hovertaken⟩ := h
    exact ⟨hsettled, by omega, iff_of_true rfl (by omega), hovertaken⟩
  | recording resolved read => exact h

theorem phaseOk_afterInvalidate (hle : invalidated ≤ changes)
    (h : PhaseOk settled changes invalidated phase) :
    PhaseOk settled changes changes phase.afterInvalidate := by
  cases phase with
  | reading => trivial
  | loaded resolved read changed overtaken =>
    obtain ⟨hsettled, hread, hchanged, hovertaken⟩ := h
    refine ⟨hsettled, hread, hchanged, ?_⟩
    rw [Bool.or_eq_true, hchanged, hovertaken]
    omega
  | recording resolved read => exact h

end Phases

section Steps

variable {s s' : TenantHostnameResolver} {hostname : String}

theorem mem_update {α : Type} {f : Nat → Option α} {id id' : Nat} {a : Option α} {b : α}
    (h : Function.update f id a id' = some b) : a = some b ∨ f id' = some b := by
  by_cases hid : id' = id
  · subst hid
    rw [Function.update_self] at h
    exact Or.inl h
  · rw [Function.update_of_ne hid] at h
    exact Or.inr h

theorem ResolverOk.congr (hok : ResolverOk s) (hlookups : s'.lookups = s.lookups)
    (hinvalidations : s'.invalidations = s.invalidations) (hchanges : s'.changes = s.changes)
    (hinvalidated : s'.invalidated = s.invalidated) (hreturned : s'.returned = s.returned) :
    ResolverOk s' := by
  obtain ⟨h₁, h₂, h₃, h₄, h₅⟩ := hok
  rw [← hlookups, ← hchanges, ← hinvalidated] at h₅
  rw [← hlookups, ← hreturned] at h₄
  rw [← hinvalidations, ← hinvalidated] at h₃
  rw [← hinvalidated, ← hchanges] at h₂
  rw [← hreturned, ← hinvalidated] at h₁
  exact ⟨h₁, h₂, h₃, h₄, h₅⟩

theorem of_markLookups {mark : LookupPhase → LookupPhase} {lookups : Nat → Option Lookup}
    {id : Nat} {lookup : Lookup} (h : markLookups hostname mark lookups id = some lookup) :
    ∃ before, lookups id = some before ∧ lookup.hostname = before.hostname ∧
      lookup.settled = before.settled ∧
      (before.hostname = hostname → lookup.phase = mark before.phase) ∧
      (before.hostname ≠ hostname → lookup.phase = before.phase) := by
  obtain ⟨before, hbefore, rfl⟩ := Option.map_eq_some_iff.mp h
  by_cases hsame : before.hostname = hostname
  · rw [if_pos hsame]
    exact ⟨before, hbefore, rfl, rfl, fun _ => rfl, fun hne => absurd hsame hne⟩
  · rw [if_neg hsame]
    exact ⟨before, hbefore, rfl, rfl, fun h => absurd h hsame, fun _ => rfl⟩

theorem resolverOk_change (hok : ResolverOk s) (domain : Option ResolvedTenantDomain) :
    ResolverOk { s with
      repository := Function.update s.repository hostname domain
      lookups := markLookups hostname LookupPhase.afterChange s.lookups
      changes := Function.update s.changes hostname (s.changes hostname + 1) } := by
  refine ⟨hok.returned_le, fun other => ?_, hok.calls, fun id lookup hlookup => ?_,
    fun id lookup hlookup => ?_⟩
  · show s.invalidated other ≤ Function.update s.changes hostname _ other
    have hle := hok.invalidated_le other
    by_cases hother : other = hostname
    · rw [hother, Function.update_self]
      rw [hother] at hle
      omega
    · rw [Function.update_of_ne hother]
      exact hle
  · obtain ⟨before, hbefore, hhost, hsettled, -, -⟩ := of_markLookups hlookup
    rw [hhost, hsettled]
    exact hok.settled id before hbefore
  · obtain ⟨before, hbefore, hhost, hsettled, hsame, hother⟩ := of_markLookups hlookup
    have hphase := hok.phases id before hbefore
    show PhaseOk _ (Function.update s.changes hostname _ lookup.hostname) _ _
    rw [hhost, hsettled]
    by_cases hname : before.hostname = hostname
    · rw [hsame hname, hname, Function.update_self]
      rw [hname] at hphase
      exact phaseOk_afterChange hphase
    · rw [hother hname, Function.update_of_ne hname]
      exact hphase

theorem resolverOk_invalidate (hok : ResolverOk s) (call : Nat) :
    ResolverOk (s.invalidate call hostname) := by
  have hmono : ∀ other, s.invalidated other ≤
      Function.update s.invalidated hostname (s.changes hostname) other := by
    intro other
    by_cases hother : other = hostname
    · rw [hother, Function.update_self]
      exact hok.invalidated_le hostname
    · rw [Function.update_of_ne hother]
  refine ⟨fun other => (hok.returned_le other).trans (hmono other), fun other => ?_,
    fun call' other changes hcall => ?_, fun id lookup hlookup => ?_, fun id lookup hlookup => ?_⟩
  · show Function.update s.invalidated hostname _ other ≤ s.changes other
    by_cases hother : other = hostname
    · rw [hother, Function.update_self]
    · rw [Function.update_of_ne hother]
      exact hok.invalidated_le other
  · rcases mem_update hcall with hnew | hold
    · obtain ⟨rfl, rfl⟩ := Prod.mk.inj (Option.some.inj hnew)
      show s.changes hostname ≤ Function.update s.invalidated hostname _ hostname
      rw [Function.update_self]
    · exact (hok.calls call' other changes hold).trans (hmono other)
  · obtain ⟨before, hbefore, hhost, hsettled, -, -⟩ := of_markLookups hlookup
    rw [hhost, hsettled]
    exact hok.settled id before hbefore
  · obtain ⟨before, hbefore, hhost, hsettled, hsame, hother⟩ := of_markLookups hlookup
    have hphase := hok.phases id before hbefore
    show PhaseOk _ _ (Function.update s.invalidated hostname _ lookup.hostname) _
    rw [hhost, hsettled]
    by_cases hname : before.hostname = hostname
    · rw [hsame hname, hname, Function.update_self]
      rw [hname] at hphase
      exact phaseOk_afterInvalidate (hok.invalidated_le hostname) hphase
    · rw [hother hname, Function.update_of_ne hname]
      exact hphase

theorem resolverOk_invalidated (hok : ResolverOk s) {call changes : Nat}
    (hcall : s.invalidations call = some (hostname, changes)) : ResolverOk { s with
      invalidations := Function.update s.invalidations call none
      returned := Function.update s.returned hostname (max (s.returned hostname) changes) } := by
  refine ⟨fun other => ?_, hok.invalidated_le, fun call' other changes' hcall' => ?_,
    fun id lookup hlookup => ?_, hok.phases⟩
  · show Function.update s.returned hostname _ other ≤ s.invalidated other
    by_cases hother : other = hostname
    · rw [hother, Function.update_self]
      exact max_le (hok.returned_le hostname) (hok.calls call hostname changes hcall)
    · rw [Function.update_of_ne hother]
      exact hok.returned_le other
  · rcases mem_update hcall' with hnew | hold
    · cases hnew
    · exact hok.calls call' other changes' hold
  · refine (hok.settled id lookup hlookup).trans ?_
    show s.returned lookup.hostname ≤ Function.update s.returned hostname _ lookup.hostname
    by_cases hname : lookup.hostname = hostname
    · rw [hname, Function.update_self]
      exact le_max_left _ _
    · rw [Function.update_of_ne hname]

theorem resolverOk_update (hok : ResolverOk s) (id : Nat) {after : Option Lookup}
    (hafter : ∀ lookup ∈ after, lookup.settled ≤ s.returned lookup.hostname ∧
      PhaseOk lookup.settled (s.changes lookup.hostname) (s.invalidated lookup.hostname)
        lookup.phase) :
    ResolverOk { s with lookups := Function.update s.lookups id after } := by
  refine ⟨hok.returned_le, hok.invalidated_le, hok.calls, fun id' lookup hlookup => ?_,
    fun id' lookup hlookup => ?_⟩
  · rcases mem_update hlookup with hnew | hold
    · exact (hafter lookup hnew).1
    · exact hok.settled id' lookup hold
  · rcases mem_update hlookup with hnew | hold
    · exact (hafter lookup hnew).2
    · exact hok.phases id' lookup hold

theorem resolverOk_gone (hok : ResolverOk s) (id : Nat) :
    ResolverOk { s with lookups := Function.update s.lookups id none } :=
  resolverOk_update hok id fun _ hlookup => nomatch hlookup

theorem resolverOk_resolve (hok : ResolverOk s) (id : Nat) :
    ResolverOk (s.resolve id hostname) := by
  have hnew : ResolverOk { s with
      lookups := Function.update s.lookups id
        (some ⟨hostname, s.returned hostname, .reading⟩) } := by
    refine resolverOk_update hok id fun lookup hlookup => ?_
    obtain rfl := Option.some.inj hlookup
    exact ⟨le_rfl, trivial⟩
  unfold TenantHostnameResolver.resolve
  cases s.cache hostname with
  | none => exact hnew
  | some cached =>
    dsimp only
    split
    · exact hok.congr rfl rfl rfl rfl rfl
    · exact hnew.congr rfl rfl rfl rfl rfl

theorem resolverOk_store (hok : ResolverOk s) (id : Nat) {lookup : Lookup}
    (hlookup : s.lookups id = some lookup) {resolved : Option ResolvedTenantDomain} {read : Nat}
    {changed overtaken : Bool} (hphase : lookup.phase = .loaded resolved read changed overtaken) :
    ResolverOk (s.store id lookup resolved read) := by
  have hgone := resolverOk_gone hok id
  unfold TenantHostnameResolver.store
  cases resolved with
  | none => exact hgone
  | some domain =>
    dsimp only
    split
    · exact hgone
    · have hnext : ResolverOk (s.withPhase id lookup (.recording domain read)) := by
        refine resolverOk_update hok id fun after hafter => ?_
        obtain rfl := Option.some.inj hafter
        have hread := hok.phases id lookup hlookup
        rw [hphase] at hread
        exact ⟨hok.settled id lookup hlookup, hread.1⟩
      exact hnext.congr rfl rfl rfl rfl rfl

theorem resolverOk_step {step : ResolverStep} (hok : ResolverOk s)
    (h : resolverStep s step = some s') : ResolverOk s' := by
  cases step with
  | time now =>
    cases h
    exact hok.congr rfl rfl rfl rfl rfl
  | change hostname domain =>
    cases h
    exact resolverOk_change hok domain
  | resolve id hostname =>
    rw [resolverStep] at h
    split at h
    · cases h
      exact resolverOk_resolve hok id
    · cases h
  | read id =>
    rw [resolverStep] at h
    split at h
    · next lookup hlookup =>
      split at h
      · cases h
        refine resolverOk_update hok id fun after hafter => ?_
        obtain rfl := Option.some.inj hafter
        have hsettled := hok.settled id lookup hlookup
        have hreturned := hok.returned_le lookup.hostname
        have hinvalidated := hok.invalidated_le lookup.hostname
        refine ⟨hsettled, hsettled.trans (hreturned.trans hinvalidated), le_rfl,
          iff_of_false nofun (lt_irrefl _), ?_⟩
        exact iff_of_false nofun (not_lt.mpr hinvalidated)
      · cases h
    · cases h
  | store id =>
    rw [resolverStep] at h
    split at h
    · next lookup hlookup =>
      split at h
      · next hphase =>
        cases h
        exact resolverOk_store hok id hlookup hphase
      · cases h
      · cases h
    · cases h
  | answer id =>
    rw [resolverStep] at h
    split at h
    · split at h
      · cases h
        exact (resolverOk_gone hok id).congr rfl rfl rfl rfl rfl
      · cases h
      · cases h
    · cases h
  | reject id =>
    cases h
    exact resolverOk_gone hok id
  | invalidate call hostname =>
    rw [resolverStep] at h
    split at h
    · cases h
      exact resolverOk_invalidate hok call
    · cases h
  | invalidated call =>
    rw [resolverStep] at h
    split at h
    · next hostname changes hcall =>
      cases h
      exact resolverOk_invalidated hok hcall
    · cases h
  | clear =>
    cases h
    exact hok.congr rfl rfl rfl rfl rfl

/-! ## What a step leaves in the cache -/

theorem cacheCurrent_of_sub (hP : CacheCurrent s)
    (hcache : ∀ hostname entry, s'.cache hostname = some entry → s.cache hostname = some entry)
    (hinvalidated : s'.invalidated = s.invalidated) (hresolutions : s'.resolutions = s.resolutions) :
    CacheCurrent s' := by
  refine ⟨fun hostname entry hentry => ?_, ?_⟩
  · rw [hinvalidated]
    exact hP.cached hostname entry (hcache hostname entry hentry)
  · rw [hresolutions]
    exact hP.resolved

theorem cache_of_delete {other : String} {entry : CacheEntry}
    (h : Function.update s.cache hostname none other = some entry) :
    s.cache other = some entry ∧ other ≠ hostname := by
  by_cases hother : other = hostname
  · rw [hother, Function.update_self] at h
    cases h
  · rw [Function.update_of_ne hother] at h
    exact ⟨h, hother⟩

theorem cacheCurrent_invalidate (hP : CacheCurrent s) (call : Nat) :
    CacheCurrent (s.invalidate call hostname) := by
  refine ⟨fun other entry hentry => ?_, hP.resolved⟩
  obtain ⟨hentry, hother⟩ := cache_of_delete hentry
  show Function.update s.invalidated hostname _ other ≤ entry.read
  rw [Function.update_of_ne hother]
  exact hP.cached other entry hentry

theorem cacheCurrent_resolve (hok : ResolverOk s) (hP : CacheCurrent s) (id : Nat) :
    CacheCurrent (s.resolve id hostname) := by
  unfold TenantHostnameResolver.resolve
  cases hcache : s.cache hostname with
  | none => exact cacheCurrent_of_sub hP (fun _ _ h => h) rfl rfl
  | some cached =>
    dsimp only
    split
    · refine ⟨hP.cached, fun resolution hresolution => ?_⟩
      rcases List.mem_append.mp hresolution with hold | hnew
      · exact hP.resolved resolution hold
      · rw [List.mem_singleton.mp hnew]
        exact (hok.returned_le hostname).trans (hP.cached hostname cached hcache)
    · exact cacheCurrent_of_sub hP (fun _ _ h => (cache_of_delete h).1) rfl rfl

theorem cacheCurrent_store (hok : ResolverOk s) (hP : CacheCurrent s) {id : Nat} {lookup : Lookup}
    (hlookup : s.lookups id = some lookup) {resolved : Option ResolvedTenantDomain} {read : Nat}
    {changed overtaken : Bool} (hphase : lookup.phase = .loaded resolved read changed overtaken) :
    CacheCurrent (s.store id lookup resolved read) ↔ lookup.isOvertaken = false := by
  have hgone : CacheCurrent { s with lookups := Function.update s.lookups id none } :=
    cacheCurrent_of_sub hP (fun _ _ h => h) rfl rfl
  have hmarks := hok.phases id lookup hlookup
  rw [hphase] at hmarks
  obtain ⟨-, -, -, hovertaken⟩ := hmarks
  rw [Lookup.isOvertaken, hphase]
  unfold TenantHostnameResolver.store
  cases resolved with
  | none => exact iff_of_true hgone rfl
  | some domain =>
    dsimp only
    by_cases hmisdirected : domain.hostname ≠ lookup.hostname ∨ domain.status ≠ "active"
    · rw [if_pos hmisdirected]
      refine iff_of_true hgone (Bool.eq_false_iff.mpr fun hall => ?_)
      rw [Bool.and_eq_true, Bool.and_eq_true, beq_iff_eq, beq_iff_eq] at hall
      exact hmisdirected.elim (fun h => h hall.1.2) fun h => h hall.2
    · rw [if_neg hmisdirected]
      obtain ⟨hhost, hactive⟩ := not_or.mp hmisdirected
      rw [beq_iff_eq.mpr (not_not.mp hhost), beq_iff_eq.mpr (not_not.mp hactive), Bool.and_true,
        Bool.and_true, Bool.eq_false_iff, ne_eq, hovertaken, not_lt]
      constructor
      · intro h
        exact h.cached lookup.hostname ⟨s.now + s.cacheTtlMs, domain, read⟩
          (Function.update_self ..)
      · intro hread
        refine ⟨fun other entry hentry => ?_, hP.resolved⟩
        have hentry : Function.update s.cache lookup.hostname
            (some ⟨s.now + s.cacheTtlMs, domain, read⟩) other = some entry := hentry
        by_cases hother : other = lookup.hostname
        · rw [hother, Function.update_self] at hentry
          rw [hother, ← Option.some.inj hentry]
          exact hread
        · rw [Function.update_of_ne hother] at hentry
          exact hP.cached other entry hentry

theorem cacheCurrent_step {step : ResolverStep} (hok : ResolverOk s) (hP : CacheCurrent s)
    (h : resolverStep s step = some s') : CacheCurrent s' ↔ NotOvertaken s step := by
  cases step with
  | time now =>
    cases h
    exact iff_of_true (cacheCurrent_of_sub hP (fun _ _ h => h) rfl rfl) trivial
  | change hostname domain =>
    cases h
    exact iff_of_true (cacheCurrent_of_sub hP (fun _ _ h => h) rfl rfl) trivial
  | resolve id hostname =>
    rw [resolverStep] at h
    split at h
    · cases h
      exact iff_of_true (cacheCurrent_resolve hok hP id) trivial
    · cases h
  | read id =>
    rw [resolverStep] at h
    split at h
    · split at h
      · cases h
        exact iff_of_true (cacheCurrent_of_sub hP (fun _ _ h => h) rfl rfl) trivial
      · cases h
    · cases h
  | store id =>
    rw [resolverStep] at h
    split at h
    · next lookup hlookup =>
      split at h
      · next hphase =>
        cases h
        refine (cacheCurrent_store hok hP hlookup hphase).trans ⟨fun hmark other hother => ?_,
          fun hmark => hmark lookup hlookup⟩
        rw [← Option.some.inj (hlookup.symm.trans hother)]
        exact hmark
      · cases h
      · cases h
    · cases h
  | answer id =>
    rw [resolverStep] at h
    split at h
    · next lookup hlookup =>
      split at h
      · next resolved read hphase =>
        cases h
        refine iff_of_true ⟨hP.cached, fun resolution hresolution => ?_⟩ trivial
        rcases List.mem_append.mp hresolution with hold | hnew
        · exact hP.resolved resolution hold
        · have hread := hok.phases id lookup hlookup
          rw [hphase] at hread
          rw [List.mem_singleton.mp hnew]
          exact hread
      · cases h
      · cases h
    · cases h
  | reject id =>
    cases h
    exact iff_of_true (cacheCurrent_of_sub hP (fun _ _ h => h) rfl rfl) trivial
  | invalidate call hostname =>
    rw [resolverStep] at h
    split at h
    · cases h
      exact iff_of_true (cacheCurrent_invalidate hP call) trivial
    · cases h
  | invalidated call =>
    rw [resolverStep] at h
    split at h
    · cases h
      exact iff_of_true (cacheCurrent_of_sub hP (fun _ _ h => h) rfl rfl) trivial
    · cases h
  | clear =>
    cases h
    exact iff_of_true (cacheCurrent_of_sub hP (fun _ _ h => nomatch h) rfl rfl) trivial

end Steps

/-! ## Runs of the resolver -/

/--
Whatever calls and changes interleave: no binding from before an invalidated change is cached again
or answered by a resolution that starts after the invalidation has returned, if and only if no
lookup writes a binding that has changed since it was read and been invalidated after that.
-/
theorem cacheCurrent_throughout_iff {cacheTtlMs : Option Int} {now : Int}
    {repository : String → Option ResolvedTenantDomain} {steps : List ResolverStep}
    {s : TenantHostnameResolver} (h : run resolverStep (.new cacheTtlMs now repository) steps = some s) :
    Throughout resolverStep CacheCurrent (.new cacheTtlMs now repository) steps ↔
      Meets resolverStep NotOvertaken (.new cacheTtlMs now repository) steps := by
  refine throughout_iff_meets (fun s step s' hok h => resolverOk_step hok h)
    (fun s step s' hok hP h => cacheCurrent_step hok hP h) ?_ ⟨nofun, nofun⟩ h
  exact ⟨fun _ => le_rfl, fun _ => le_rfl, nofun, nofun, nofun⟩

/-- The hostname `a` belongs to a tenant. -/
def domainOf (tenantId : UUID) : ResolvedTenantDomain :=
  ⟨"domain", tenantId, "environment", "a", "active"⟩

def boundToFirst : String → Option ResolvedTenantDomain
  | "a" => some (domainOf "tenant-1")
  | _ => none

def movedToSecond : List ResolverStep :=
  [.change "a" (some (domainOf "tenant-2")), .invalidate 0 "a", .invalidated 0]

instance (s : TenantHostnameResolver) : (step : ResolverStep) → Decidable (NotOvertaken s step)
  | .store id => inferInstanceAs (Decidable (∀ lookup ∈ s.lookups id, lookup.isOvertaken = false))
  | .time _ | .change .. | .resolve .. | .read _ | .answer _ | .reject _ | .invalidate .. |
    .invalidated _ | .clear => isTrue trivial

theorem cacheCurrent_throughout_settled : Throughout resolverStep CacheCurrent
    (.new none 0 boundToFirst)
    ([.resolve 0 "a", .read 0, .store 0, .answer 0] ++ movedToSecond ++
      [.resolve 1 "a", .read 1, .store 1, .answer 1]) := by
  obtain ⟨s, hs⟩ := Option.isSome_iff_exists.mp (show (run resolverStep (.new none 0 boundToFirst)
    ([.resolve 0 "a", .read 0, .store 0, .answer 0] ++ movedToSecond ++
      [.resolve 1 "a", .read 1, .store 1, .answer 1])).isSome = true by decide +kernel)
  exact (cacheCurrent_throughout_iff hs).mpr (by decide +kernel)

/-- The first lookup has read before the change, and writes after the invalidation. -/
theorem not_cacheCurrent_in_flight : ¬∀ (cacheTtlMs : Option Int) (now : Int)
    (repository : String → Option ResolvedTenantDomain) (steps : List ResolverStep)
    (s : TenantHostnameResolver),
    run resolverStep (.new cacheTtlMs now repository) steps = some s →
      Throughout resolverStep CacheCurrent (.new cacheTtlMs now repository) steps := by
  intro hall
  have hrun : (run resolverStep (.new none 0 boundToFirst)
      ([.resolve 0 "a", .read 0] ++ movedToSecond ++ [.store 0, .resolve 1 "a"])).map
        (·.resolutions) = some [⟨"a", domainOf "tenant-1", 0, 1⟩] := by
    decide +kernel
  obtain ⟨s, hs, hresolutions⟩ := Option.map_eq_some_iff.mp hrun
  have hlast : CacheCurrent s := (hall _ _ _ _ s hs).last hs
  have hresolved := hlast.resolved
  rw [hresolutions] at hresolved
  exact absurd (hresolved _ List.mem_cons_self) (by decide)

end Kommunsign
