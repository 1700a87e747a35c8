import Mathlib.Data.Bool.AllAny
import Mathlib.Data.List.Chain
import Kommunsign.Control.TenantHosts

/-!
# Distinct tenants, distinct default hostnames

Slugs are unique, and a slug whose hyphens all stand alone is its own hostname's first label. A
numbered candidate is cut to make room for its number: when the cut falls behind a hyphen, the slug
has two hyphens in a row, and the hostname, which has only one of them, is that of another tenant.
The row of that tenant is then taken over on conflict.

* `AllocatedWhole` — the condition on allocations and on custom domains
* `distinct_hostnames_of_whole` — the runs that meet it
* `hostname_taken_over` — a name of 63 characters, cut behind its hyphen
-/

namespace Kommunsign

open Infra

/-! ## Slugs that normalizing leaves as they are -/

def Apart (s : Text) : Prop := s.IsChain fun a b => a = '-' → b ≠ '-'

/-- Words of `[a-z0-9]` with single hyphens between them. -/
structure Hyphenated (s : Text) : Prop where
  chars : ∀ c ∈ s, isSlugCharOrHyphen c = true
  apart : Apart s
  first : s.head? ≠ some '-'
  last : s.getLast? ≠ some '-'

theorem isSlugCharOrHyphen_iff {c : Char} :
    isSlugCharOrHyphen c = true ↔ isSlugChar c = true ∨ c = '-' := by
  rw [isSlugCharOrHyphen, Bool.or_eq_true, beq_iff_eq]

theorem ne_hyphen_of_slugChar {c : Char} (h : isSlugChar c = true) : c ≠ '-' := by
  rintro rfl
  exact absurd h (by decide)

theorem slugChar_facts {c : Char} (h : isSlugCharOrHyphen c = true) :
    isTrimmed c = false ∧ c.toNat < 128 ∧ c.toLower = c := by
  have hlt : c.toNat < 128 := by
    simp only [isSlugCharOrHyphen, isSlugChar, Bool.or_eq_true, Bool.and_eq_true,
      decide_eq_true_eq, beq_iff_eq] at h
    rcases h with (⟨-, h⟩ | ⟨-, h⟩) | rfl
    · exact lt_of_le_of_lt h (by decide)
    · exact lt_of_le_of_lt h (by decide)
    · decide
  have hall : ∀ n < 128, isSlugCharOrHyphen (Char.ofNat n) = true →
      isTrimmed (Char.ofNat n) = false ∧ (Char.ofNat n).toLower = Char.ofNat n := by
    decide +kernel
  have hc := hall c.toNat hlt
  rw [Char.ofNat_toNat] at hc
  exact ⟨(hc h).1, hlt, (hc h).2⟩

theorem dropWhile_of_head {p : Char → Bool} {s : Text} (h : ∀ c, s.head? = some c → p c = false) :
    s.dropWhile p = s := by
  cases s with
  | nil => rfl
  | cons c s => rw [List.dropWhile_cons, if_neg (by simp [h c rfl])]

theorem strip_of_ends {p : Char → Bool} {s : Text} (hfirst : ∀ c, s.head? = some c → p c = false)
    (hlast : ∀ c, s.getLast? = some c → p c = false) :
    ((s.dropWhile p).reverse.dropWhile p).reverse = s := by
  rw [dropWhile_of_head hfirst, dropWhile_of_head, List.reverse_reverse]
  rw [List.head?_reverse]
  exact hlast

theorem hyphenRuns_of_apart {keep : Char → Bool} (hhyphen : keep '-' = false) {s : Text}
    (hchars : ∀ c ∈ s, keep c = true ∨ c = '-') (hapart : Apart s) : hyphenRuns keep s = s := by
  induction s with
  | nil => rfl
  | cons c s ih =>
    have hrest := ih (fun d hd => hchars d (List.mem_cons_of_mem _ hd)) (List.IsChain.tail hapart)
    unfold hyphenRuns at hrest ⊢
    rw [List.foldr_cons, hrest]
    rcases hchars c List.mem_cons_self with hkeep | rfl
    · rw [if_pos hkeep]
    · rw [if_neg (by simp [hhyphen]), if_neg]
      intro hhead
      cases s with
      | nil => exact nomatch hhead
      | cons d s =>
        exact (List.isChain_cons_cons.mp hapart).1 rfl (Option.some.inj hhead)

theorem apart_hyphenRuns {keep : Char → Bool} (hhyphen : keep '-' = false) (s : Text) :
    Apart (hyphenRuns keep s) := by
  induction s with
  | nil => exact List.isChain_nil
  | cons c s ih =>
    unfold hyphenRuns Apart at ih ⊢
    rw [List.foldr_cons]
    generalize List.foldr _ [] s = rest at ih
    split
    · rename_i hkeep
      cases rest with
      | nil => exact List.isChain_singleton c
      | cons d rest =>
        refine List.isChain_cons_cons.mpr ⟨?_, ih⟩
        rintro rfl
        exact nomatch hhyphen.symm.trans hkeep
    · split
      · exact ih
      · rename_i hhead
        cases rest with
        | nil => exact List.isChain_singleton _
        | cons d rest =>
          refine List.isChain_cons_cons.mpr ⟨fun _ => ?_, ih⟩
          rintro rfl
          exact hhead rfl

section

variable {settings : HostSettings}

theorem fold_of_hyphenated {s : Text} (hs : Hyphenated s) :
    withoutMarks settings (toLowerCase settings.unicode (trim s)) = s := by
  have htrim : trim s = s := by
    unfold trim
    refine strip_of_ends ?_ ?_
    · exact fun c hc => (slugChar_facts (hs.chars c (List.mem_of_head? hc))).1
    · exact fun c hc => (slugChar_facts (hs.chars c (List.mem_of_getLast? hc))).1
  have hascii : (s.all fun c => decide (c.toNat < 128)) = true := by
    refine List.all_eq_true.mpr fun c hc => decide_eq_true ?_
    exact (slugChar_facts (hs.chars c hc)).2.1
  have hlower : toLowerCase settings.unicode s = s := by
    unfold toLowerCase
    rw [if_pos hascii]
    have hmap : s.map Char.toLower = s.map id :=
      List.map_congr_left fun c hc => (slugChar_facts (hs.chars c hc)).2.2
    rw [hmap, List.map_id]
  rw [htrim, hlower]
  unfold withoutMarks
  rw [if_pos hascii, List.filter_eq_self]
  intro c hc
  have hlt := (slugChar_facts (hs.chars c hc)).2.1
  have hmark : decide (0x300 ≤ c.toNat) = false := decide_eq_false (by omega)
  rw [hmark]
  rfl

theorem normalizeTenantSlug_of_hyphenated {s normalized : Text} (hs : Hyphenated s)
    (h : normalizeTenantSlug settings s = some normalized) : normalized = s := by
  have hruns : hyphenRuns isSlugChar s = s :=
    hyphenRuns_of_apart (by decide) (fun c hc => isSlugCharOrHyphen_iff.mp (hs.chars c hc)) hs.apart
  have htrim : trimHyphens s = s := by
    unfold trimHyphens
    refine strip_of_ends ?_ ?_
    · exact fun c hc => beq_eq_false_iff_ne.mpr fun heq => hs.first (heq ▸ hc)
    · exact fun c hc => beq_eq_false_iff_ne.mpr fun heq => hs.last (heq ▸ hc)
  have hcollapse : hyphenRuns (· != '-') s = s := by
    refine hyphenRuns_of_apart (by decide) (fun c _ => ?_) hs.apart
    rw [bne_iff_ne]
    exact (em (c = '-')).symm
  unfold normalizeTenantSlug at h
  simp only [fold_of_hyphenated hs, hruns, htrim, hcollapse] at h
  split at h
  · exact nomatch h
  · split at h
    · exact nomatch h
    · split at h
      · exact nomatch h
      · exact (Option.some.inj h).symm

theorem isSlug_ends {s : Text} (h : isSlug s = true) :
    (∀ c ∈ s, isSlugCharOrHyphen c = true) ∧ s.head? ≠ some '-' ∧ s.getLast? ≠ some '-' := by
  simp only [isSlug, Bool.and_eq_true, List.all_eq_true] at h
  refine ⟨h.1.1.2, fun hhead => ?_, fun hlast => ?_⟩
  · have hc := h.1.2
    rw [hhead] at hc
    exact ne_hyphen_of_slugChar hc rfl
  · have hc := h.2
    rw [hlast] at hc
    exact ne_hyphen_of_slugChar hc rfl

theorem normalizeTenantSlug_hyphenated {value s : Text}
    (h : normalizeTenantSlug settings value = some s) :
    Hyphenated s ∧ 2 ≤ s.length ∧ s.length ≤ 63 := by
  unfold normalizeTenantSlug at h
  simp only at h
  split at h
  · exact nomatch h
  · rename_i hlength
    split at h
    · exact nomatch h
    · rename_i hslug
      split at h
      · exact nomatch h
      · obtain rfl := Option.some.inj h
        obtain ⟨hchars, hfirst, hlast⟩ := isSlug_ends (by simpa using hslug)
        exact ⟨⟨hchars, apart_hyphenRuns (by decide) _, hfirst, hlast⟩, by omega, by omega⟩

end

/-! ## The numbered candidates -/

theorem apart_of_ne {s : Text} (h : ∀ c ∈ s, c ≠ '-') : Apart s := by
  rw [Apart, List.isChain_iff_forall_rel_of_append_cons_cons]
  rintro a b l₁ l₂ rfl rfl
  exact absurd rfl (h '-' (by simp))

theorem Apart.append {s t : Text} (hs : Apart s) (ht : Apart t) (hlast : s.getLast? ≠ some '-') :
    Apart (s ++ t) := by
  refine List.isChain_append.mpr ⟨hs, ht, ?_⟩
  rintro a ha b - rfl
  exact absurd ha hlast

theorem apart_hyphen_cons {s : Text} (h : ∀ c ∈ s, c ≠ '-') : Apart ('-' :: s) := by
  cases s with
  | nil => exact List.isChain_singleton _
  | cons c s =>
    refine List.isChain_cons_cons.mpr ⟨fun _ => h c List.mem_cons_self, ?_⟩
    exact apart_of_ne h

theorem number_ne_hyphen (n : Nat) : ∀ c ∈ (toString n).toList, c ≠ '-' := by
  have hdigits : (toString n).toList = Nat.toDigits 10 n := by
    simp [toString, Nat.repr]
  rw [hdigits]
  rintro c hc rfl
  have hdigit : Char.isDigit '-' = true :=
    Nat.isDigit_of_mem_toDigits (by decide) (by decide) hc
  exact absurd hdigit (by decide)

theorem slugCandidate_apart {base : Text} {index : Nat} (hbase : Apart base)
    (hcut : (slugCut base index).getLast? ≠ some '-') : Apart (slugCandidate base index) := by
  have hhead : Apart (slugCut base index) := List.IsChain.take hbase _
  refine hhead.append ?_ hcut
  unfold slugSuffix
  split
  · exact List.isChain_nil
  · exact apart_hyphen_cons (number_ne_hyphen (index + 1))

theorem tenantSlugBase_apart (settings : HostSettings) (legalName : Text) (applicationId : RowId) :
    Apart (tenantSlugBase settings legalName applicationId) := by
  unfold tenantSlugBase
  simp only
  cases hnormalized : normalizeTenantSlug settings legalName with
  | some normalized =>
    have hbase := (normalizeTenantSlug_hyphenated hnormalized).1
    simp only [Option.getD_some]
    split
    · exact hbase.apart.append
        (apart_hyphen_cons (List.all_iff_forall_prop.mp (by decide))) hbase.last
    · exact hbase.apart
  | none =>
    -- eight digits of the application behind a prefix, which is long enough
    simp only [Option.getD_none]
    rw [if_neg]
    · have hdigits : ∀ c ∈ (applicationId.value.toList.filter (· != '-')).take 8, c ≠ '-' := by
        intro c hc
        exact bne_iff_ne.mp (List.mem_filter.mp (List.mem_of_mem_take hc)).2
      have hprefix : Apart "tenant".toList :=
        apart_of_ne (List.all_iff_forall_prop.mp (by decide))
      exact hprefix.append (apart_hyphen_cons hdigits) (by decide)
    · rw [List.length_append]
      have hlength : "tenant-".toList.length = 7 := by decide
      omega

/-! ## Hostnames -/

/--
A label of `[a-z0-9-]` in front of a host keeps it and stays as it is, if that is a host at all: the
hosts of URLs are in lower case, and an IPv4 address has no fifth part.
-/
def KeepsLabels (settings : HostSettings) : Prop :=
  ∀ (candidate root label host : Text), settings.urlHostname candidate = some root →
    isHostname root = true → label ≠ [] → (∀ c ∈ label, isSlugCharOrHyphen c = true) →
      settings.urlHostname (label ++ '.' :: root) = some host → host = label ++ '.' :: root

theorem hostLabels_ne_nil (s : Text) : hostLabels s ≠ [] := by
  cases s with
  | nil => exact List.cons_ne_nil _ _
  | cons c s =>
    unfold hostLabels
    split
    · exact List.cons_ne_nil _ _
    · split
      · exact List.cons_ne_nil _ _
      · exact List.cons_ne_nil _ _

theorem hostLabels_eq_singleton {s label : Text} (h : hostLabels s = [label]) : s = label := by
  induction s generalizing label with
  | nil => exact List.singleton_inj.mp h
  | cons c s ih =>
    rw [hostLabels] at h
    split at h
    · rename_i hnil
      exact absurd hnil (hostLabels_ne_nil s)
    · rename_i first labels hlabels
      split at h
      · exact nomatch h
      · obtain ⟨hlabel, rfl⟩ := List.cons.inj h
        rw [ih hlabels]
        exact hlabel

theorem suffix_of_getLast?_hostLabels {s label : Text}
    (h : (hostLabels s).getLast? = some label) : label <:+ s := by
  induction s generalizing label with
  | nil =>
    obtain rfl : [] = label := by simpa [hostLabels] using h
    exact List.nil_suffix
  | cons c s ih =>
    cases hs : hostLabels (c :: s) with
    | nil => exact absurd hs (hostLabels_ne_nil _)
    | cons first labels =>
      cases labels with
      | nil =>
        obtain rfl : first = label := by simpa [hs] using h
        rw [hostLabels_eq_singleton hs]
      | cons second labels =>
        rw [hs, List.getLast?_cons_cons] at h
        -- the labels behind the first one are those of `s`, or the tail of them
        refine (ih ?_).trans (List.suffix_cons c s)
        rw [← h]
        rw [hostLabels] at hs
        split at hs
        · rename_i hnil
          exact absurd hnil (hostLabels_ne_nil s)
        · rename_i hlabels
          split at hs
          · rw [hlabels, (List.cons.inj hs).2]
          · rw [hlabels, (List.cons.inj hs).2, List.getLast?_cons_cons]

theorem isHostname_last {host : Text} (h : isHostname host = true) :
    ∃ c, host.getLast? = some c ∧ isSlugChar c = true := by
  simp only [isHostname, Bool.and_eq_true, List.all_eq_true] at h
  obtain ⟨⟨-, hall⟩, hlast⟩ := h
  cases hlabel : (hostLabels host).getLast? with
  | none =>
    rw [hlabel] at hlast
    exact nomatch hlast
  | some label =>
    have hlabel' := hall label (List.mem_of_getLast? hlabel)
    simp only [isHostLabel, Bool.and_eq_true] at hlabel'
    cases hc : label.getLast? with
    | none =>
      rw [hc] at hlabel'
      exact nomatch hlabel'.2
    | some c =>
      rw [hc] at hlabel'
      obtain ⟨before, rfl⟩ := suffix_of_getLast?_hostLabels hlabel
      refine ⟨c, ?_, hlabel'.2⟩
      rw [List.getLast?_append, hc]
      rfl

theorem canonicalHostname_eq_some {settings : HostSettings} {value host : Text} {allow : Bool}
    (h : canonicalHostname settings value allow = some host) :
    isHostname host = true ∧ settings.urlHostname (withoutDot (trim value)) = some host ∧
      (allow = false → host ≠ platformDomain ∧ ¬ ('.' :: platformDomain) <:+ host) := by
  unfold canonicalHostname at h
  simp only at h
  split at h
  · exact nomatch h
  · split at h
    · exact nomatch h
    · rename_i hostname hurl
      split at h
      · exact nomatch h
      · rename_i hhostname
        split at h
        · exact nomatch h
        · rename_i hnamespace
          obtain rfl := Option.some.inj h
          refine ⟨by simpa using hhostname, hurl, ?_⟩
          rintro rfl
          simpa using hnamespace

theorem platformDefaultHostname_of_hyphenated {settings : HostSettings}
    (hurl : KeepsLabels settings) {slug host : Text} (hslug : Hyphenated slug)
    (h : platformDefaultHostname settings slug = some host) :
    ∃ root, canonicalHostname settings settings.rootDomain true = some root ∧
      host = slug ++ '.' :: root := by
  unfold platformDefaultHostname at h
  split at h
  · exact nomatch h
  · rename_i normalized hnormalized
    obtain rfl := normalizeTenantSlug_of_hyphenated hslug hnormalized
    have hne : normalized ≠ [] := by
      intro hnil
      have hlength := (normalizeTenantSlug_hyphenated hnormalized).2.1
      rw [hnil] at hlength
      exact absurd hlength (by decide)
    split at h
    · exact nomatch h
    · rename_i root hroot
      refine ⟨root, hroot, ?_⟩
      obtain ⟨hhost, hcandidate, -⟩ := canonicalHostname_eq_some hroot
      obtain ⟨-, hvalue, -⟩ := canonicalHostname_eq_some h
      -- neither blanks nor a dot are taken off what is made of a slug and a hostname
      obtain ⟨last, hlast, hlast'⟩ := isHostname_last hhost
      have hend : (normalized ++ '.' :: root).getLast? = some last := by
        rw [List.getLast?_append_cons, List.getLast?_cons, hlast]
        rfl
      have htrim : trim (normalized ++ '.' :: root) = normalized ++ '.' :: root := by
        unfold trim
        refine strip_of_ends ?_ ?_
        · intro c hc
          rw [List.head?_append_of_ne_nil _ hne] at hc
          exact (slugChar_facts (hslug.chars c (List.mem_of_head? hc))).1
        · intro c hc
          obtain rfl : last = c := Option.some.inj (hend.symm.trans hc)
          exact (slugChar_facts (isSlugCharOrHyphen_iff.mpr (.inl hlast'))).1
      have hdot : withoutDot (normalized ++ '.' :: root) = normalized ++ '.' :: root := by
        unfold withoutDot
        rw [hend, if_neg]
        intro heq
        rw [Option.some.inj heq] at hlast'
        exact absurd hlast' (by decide)
      rw [htrim, hdot] at hvalue
      exact hurl _ root normalized host hcandidate hhost hne hslug.chars hvalue

/-! ## The platform -/

def DistinctHostnames (settings : HostSettings) (s : HostPlatform) : Prop :=
  ∀ t₁ ∈ s.tenants, ∀ t₂ ∈ s.tenants, ∀ host,
    platformDefaultHostname settings t₁.slug = some host →
      platformDefaultHostname settings t₂.slug = some host → t₁.id = t₂.id

def KeepsOwners (settings : HostSettings) (s : HostPlatform) (action : HostAction) : Prop :=
  ∀ s', hostStep settings s action = some s' →
    ∀ row ∈ s.domains, ∃ row' ∈ s'.domains, row'.hostname = row.hostname ∧
      row'.tenantId = row.tenantId

/--
No candidate is cut behind a hyphen, and no domain of a customer is below the root of the platform,
which `canonicalHostname` refuses when the root is `kommunsign.se`.
-/
def AllocatedWhole (settings : HostSettings) (s : HostPlatform) : HostAction → Prop
  | .reserveSlug _ legalName applicationId =>
    let base := tenantSlugBase settings legalName applicationId
    ∀ index ∈ s.freeIndex base, (slugCut base index).getLast? ≠ some '-'
  | .requestCustomDomain _ value =>
    ∀ root ∈ canonicalHostname settings settings.rootDomain true,
      ∀ host ∈ canonicalHostname settings value false, ¬ ('.' :: root) <:+ host
  | _ => True

instance (settings : HostSettings) (s : HostPlatform) (action : HostAction) :
    Decidable (AllocatedWhole settings s action) := by
  unfold AllocatedWhole
  split <;> infer_instance

structure HostPlatform.Whole (settings : HostSettings) (s : HostPlatform) : Prop where
  slugs : ∀ t ∈ s.tenants, Hyphenated t.slug
  unique : (s.tenants.map (·.slug)).Nodup
  /-- A hostname below the root is the default hostname of the tenant that has it. -/
  owned : ∀ row ∈ s.domains, ∀ root ∈ canonicalHostname settings settings.rootDomain true,
    ('.' :: root) <:+ row.hostname →
      ∃ t ∈ s.tenants, row.tenantId = t.id ∧ row.hostname = t.slug ++ '.' :: root

section

variable {settings : HostSettings} {s s' : HostPlatform}

theorem whole_initial (reserved : List Text) : (HostPlatform.initial reserved).Whole settings where
  slugs := fun _ h => nomatch h
  unique := List.nodup_nil
  owned := fun _ h => nomatch h

theorem reserveSlug_eq_some {tenantId : Id} {legalName : Text} {applicationId : RowId}
    (h : s.reserveSlug settings tenantId legalName applicationId = some s') :
    ∃ index ∈ s.freeIndex (tenantSlugBase settings legalName applicationId),
      let slug := slugCandidate (tenantSlugBase settings legalName applicationId) index
      (∀ t ∈ s.tenants, t.slug ≠ slug) ∧ isSlug slug = true ∧
        s' = { s with tenants := s.tenants ++ [⟨tenantId, slug⟩] } := by
  unfold HostPlatform.reserveSlug at h
  split at h
  · exact nomatch h
  · rename_i slug hslug
    obtain ⟨index, hindex, rfl⟩ := Option.map_eq_some_iff.mp hslug
    split at h
    · exact nomatch h
    · rename_i hguard
      obtain rfl := Option.some.inj h
      simp only [Bool.or_eq_true, not_or, Bool.not_eq_true', Bool.not_eq_false] at hguard
      refine ⟨index, hindex, ?_, hguard.1.2, rfl⟩
      have hfree := List.find?_some hindex
      simp only [HostPlatform.occupied, Bool.not_eq_true', Bool.or_eq_false_iff] at hfree
      intro t ht heq
      have hnone := List.any_eq_false.mp hfree.1 t ht
      exact hnone (beq_iff_eq.mpr heq)

theorem reserveSlug_whole (hs : s.Whole settings) {tenantId : Id} {legalName : Text}
    {applicationId : RowId}
    (hcut : AllocatedWhole settings s (.reserveSlug tenantId legalName applicationId))
    (h : s.reserveSlug settings tenantId legalName applicationId = some s') :
    s'.Whole settings := by
  obtain ⟨index, hindex, hfresh, hslug, rfl⟩ := reserveSlug_eq_some h
  obtain ⟨hchars, hfirst, hlast⟩ := isSlug_ends hslug
  have hapart := slugCandidate_apart (tenantSlugBase_apart settings legalName applicationId)
    (hcut index hindex)
  refine ⟨?_, ?_, ?_⟩
  · intro t ht
    rcases List.mem_append.mp ht with ht | ht
    · exact hs.slugs t ht
    · obtain rfl := List.mem_singleton.mp ht
      exact ⟨hchars, hapart, hfirst, hlast⟩
  · rw [List.map_append, List.nodup_append]
    refine ⟨hs.unique, List.nodup_singleton _, ?_⟩
    rintro _ hold _ hnew rfl
    obtain ⟨t, ht, hslug⟩ := List.mem_map.mp hold
    exact hfresh t ht (hslug.trans (List.mem_singleton.mp hnew))
  · intro row hrow root hroot hbelow
    obtain ⟨t, ht, howner⟩ := hs.owned row hrow root hroot hbelow
    exact ⟨t, List.mem_append_left _ ht, howner⟩

theorem owner_of_default (hs : s.Whole settings) {tenant : SlugTenant} (htenant : tenant ∈ s.tenants)
    {root : Text} (hroot : canonicalHostname settings settings.rootDomain true = some root)
    {row : HostRow} (hrow : row ∈ s.domains)
    (hhostname : row.hostname = tenant.slug ++ '.' :: root) : row.tenantId = tenant.id := by
  have hbelow : ('.' :: root) <:+ row.hostname := ⟨tenant.slug, hhostname.symm⟩
  obtain ⟨t, ht, hid, hslug⟩ := hs.owned row hrow root hroot hbelow
  have hsame : t.slug = tenant.slug :=
    List.append_cancel_right (hslug.symm.trans hhostname)
  obtain rfl := eq_of_key_eq hs.unique ht htenant hsame
  exact hid

theorem createDefaultDomain_whole (hurl : KeepsLabels settings) (hs : s.Whole settings)
    {tenantId : Id} {active : Bool}
    (h : s.createDefaultDomain settings tenantId active = some s') :
    s'.Whole settings ∧ ∀ row ∈ s.domains, ∃ row' ∈ s'.domains,
      row'.hostname = row.hostname ∧ row'.tenantId = row.tenantId := by
  unfold HostPlatform.createDefaultDomain at h
  split at h
  · exact nomatch h
  · rename_i tenant htenant
    obtain ⟨hmem, rfl⟩ := exists_of_find?_key htenant
    split at h
    · exact nomatch h
    · rename_i hostname hhostname
      obtain ⟨root, hroot, rfl⟩ :=
        platformDefaultHostname_of_hyphenated hurl (hs.slugs tenant hmem) hhostname
      split at h
      · exact nomatch h
      · split at h
        · obtain rfl := Option.some.inj h
          refine ⟨⟨hs.slugs, hs.unique, ?_⟩, fun row hrow => ?_⟩
          · intro row hrow root' hroot' hbelow
            obtain ⟨old, hold, rfl⟩ := mem_assign.mp hrow
            obtain rfl : root = root' := Option.some.inj (hroot.symm.trans hroot')
            split at hbelow
            · rename_i hkey
              rw [if_pos hkey]
              exact ⟨tenant, hmem, rfl, beq_iff_eq.mp hkey⟩
            · rename_i hkey
              rw [if_neg hkey]
              exact hs.owned old hold root hroot hbelow
          · refine ⟨_, mem_assign.mpr ⟨row, hrow, rfl⟩, ?_⟩
            split
            · rename_i hkey
              exact ⟨rfl, (owner_of_default hs hmem hroot hrow (beq_iff_eq.mp hkey)).symm⟩
            · exact ⟨rfl, rfl⟩
        · obtain rfl := Option.some.inj h
          refine ⟨⟨hs.slugs, hs.unique, ?_⟩, fun row hrow =>
            ⟨row, List.mem_append_left _ hrow, rfl, rfl⟩⟩
          intro row hrow root' hroot' hbelow
          rcases List.mem_append.mp hrow with hrow | hrow
          · exact hs.owned row hrow root' hroot' hbelow
          · obtain rfl := List.mem_singleton.mp hrow
            obtain rfl : root = root' := Option.some.inj (hroot.symm.trans hroot')
            exact ⟨tenant, hmem, rfl, rfl⟩

theorem requestCustomDomain_whole (hs : s.Whole settings) {tenantId : Id} {value : Text}
    (hvalue : AllocatedWhole settings s (.requestCustomDomain tenantId value))
    (h : s.requestCustomDomain settings tenantId value = some s') :
    s'.Whole settings ∧ ∀ row ∈ s.domains, row ∈ s'.domains := by
  unfold HostPlatform.requestCustomDomain at h
  split at h
  · exact nomatch h
  · rename_i hostname hhostname
    split at h
    · exact nomatch h
    · obtain rfl := Option.some.inj h
      refine ⟨⟨hs.slugs, hs.unique, ?_⟩, fun row hrow => List.mem_append_left _ hrow⟩
      intro row hrow root hroot hbelow
      rcases List.mem_append.mp hrow with hrow | hrow
      · exact hs.owned row hrow root hroot hbelow
      · obtain rfl := List.mem_singleton.mp hrow
        exact absurd hbelow (hvalue root hroot hostname hhostname)

/-! ## Runs -/

theorem hostStep_whole (hurl : KeepsLabels settings) {action : HostAction} (hs : s.Whole settings)
    (hwhole : AllocatedWhole settings s action) (h : hostStep settings s action = some s') :
    s'.Whole settings ∧ ∀ row ∈ s.domains, ∃ row' ∈ s'.domains,
      row'.hostname = row.hostname ∧ row'.tenantId = row.tenantId := by
  cases action with
  | reserveSlug tenantId legalName applicationId =>
    refine ⟨reserveSlug_whole hs hwhole h, ?_⟩
    obtain ⟨_, -, -, -, rfl⟩ := reserveSlug_eq_some h
    exact fun row hrow => ⟨row, hrow, rfl, rfl⟩
  | createDefaultDomain tenantId active => exact createDefaultDomain_whole hurl hs h
  | requestCustomDomain tenantId value =>
    obtain ⟨hs', hrows⟩ := requestCustomDomain_whole hs hwhole h
    exact ⟨hs', fun row hrow => ⟨row, hrows row hrow, rfl, rfl⟩⟩
  | setVerified hostname verified =>
    obtain rfl := Option.some.inj h
    refine ⟨⟨hs.slugs, hs.unique, ?_⟩, fun row hrow => ?_⟩
    · intro row hrow root hroot hbelow
      obtain ⟨old, hold, rfl⟩ := mem_assign.mp hrow
      split at hbelow
      · rename_i hkey
        rw [if_pos hkey]
        exact hs.owned old hold root hroot hbelow
      · rename_i hkey
        rw [if_neg hkey]
        exact hs.owned old hold root hroot hbelow
    · refine ⟨_, mem_assign.mpr ⟨row, hrow, rfl⟩, ?_⟩
      split
      · exact ⟨rfl, rfl⟩
      · exact ⟨rfl, rfl⟩

theorem distinctHostnames_of_whole (hurl : KeepsLabels settings) (hs : s.Whole settings) :
    DistinctHostnames settings s := by
  intro t₁ h₁ t₂ h₂ host hhost₁ hhost₂
  obtain ⟨root, hroot, rfl⟩ := platformDefaultHostname_of_hyphenated hurl (hs.slugs t₁ h₁) hhost₁
  obtain ⟨root', hroot', hsame⟩ :=
    platformDefaultHostname_of_hyphenated hurl (hs.slugs t₂ h₂) hhost₂
  obtain rfl : root = root' := Option.some.inj (hroot.symm.trans hroot')
  rw [eq_of_key_eq hs.unique h₁ h₂ (List.append_cancel_right hsame)]

/--
While no candidate is cut behind a hyphen and no domain of a customer is below the root, tenants
have distinct default hostnames, and every row stays with its tenant.
-/
theorem distinct_hostnames_of_whole (hurl : KeepsLabels settings) {reserved : List Text}
    {actions : List HostAction}
    (hwhole : Meets (hostStep settings) (AllocatedWhole settings) (.initial reserved) actions)
    (hrun : run (hostStep settings) (.initial reserved) actions = some s) :
    DistinctHostnames settings s ∧
      Meets (hostStep settings) (KeepsOwners settings) (.initial reserved) actions := by
  have hinv : ∀ (s : HostPlatform) (action : HostAction) (s' : HostPlatform), s.Whole settings →
      AllocatedWhole settings s action → hostStep settings s action = some s' →
        s'.Whole settings := fun _ _ _ hs hc h => (hostStep_whole hurl hs hc h).1
  refine ⟨?_, ?_⟩
  · exact distinctHostnames_of_whole hurl
      (run_invariant_of_meets hinv (whole_initial reserved) hwhole hrun)
  · exact meets_of_meets hinv (fun _ _ hs hc _ h => (hostStep_whole hurl hs hc h).2)
      (whole_initial reserved) hwhole

end

/-- Names in ASCII, below `kommunsign.se`. -/
def asciiSettings : HostSettings := ⟨id, id, some, platformDomain⟩

theorem asciiSettings_keepsLabels : KeepsLabels asciiSettings :=
  fun _ _ _ _ _ _ _ _ h => (Option.some.inj h).symm

def sampleApplication : RowId := ⟨"00000000-0000-4000-8000-000000000007", by decide⟩

def namesakes : List HostAction :=
  [.reserveSlug 1 "Ale kommun".toList sampleApplication,
    .reserveSlug 2 "Ale  Kommun".toList sampleApplication,
    .createDefaultDomain 1 false, .createDefaultDomain 2 false]

theorem namesakes_distinct : ∃ s, run (hostStep asciiSettings) (.initial []) namesakes = some s ∧
    DistinctHostnames asciiSettings s ∧
      Meets (hostStep asciiSettings) (KeepsOwners asciiSettings) (.initial []) namesakes := by
  have hrun := (Option.some_get (by decide +kernel :
    (run (hostStep asciiSettings) (.initial []) namesakes).isSome)).symm
  exact ⟨_, hrun, distinct_hostnames_of_whole asciiSettings_keepsLabels (by decide +kernel) hrun⟩

/-- A name of sixty characters, and one with a hyphen behind it and two more. -/
def longName : Text := List.replicate 60 'a'

/-- Both names twice: the second slug of the longer one is cut behind its hyphen. -/
def longNames : List HostAction :=
  [.reserveSlug 1 longName sampleApplication, .reserveSlug 2 longName sampleApplication,
    .reserveSlug 3 (longName ++ "-xy".toList) sampleApplication,
    .reserveSlug 4 (longName ++ "-xy".toList) sampleApplication,
    .createDefaultDomain 2 false]

/-- Provisioning tenant 4 takes over the hostname of tenant 2. -/
theorem hostname_taken_over :
    ¬ ∀ (settings : HostSettings) (reserved : List Text) (actions : List HostAction)
      (s : HostPlatform), KeepsLabels settings →
        run (hostStep settings) (.initial reserved) actions = some s →
          DistinctHostnames settings s ∧
            Meets (hostStep settings) (KeepsOwners settings) (.initial reserved) actions := by
  intro hall
  let takeover : HostAction := .createDefaultDomain 4 false
  have hbefore : (run (hostStep asciiSettings) (.initial []) longNames).map
      (·.domains.map (·.tenantId)) = some [2] := by decide +kernel
  have hafter : (run (hostStep asciiSettings) (.initial []) (longNames ++ [takeover])).map
      (·.domains.map (·.tenantId)) = some [4] := by decide +kernel
  obtain ⟨s₁, h₁, hbefore⟩ := Option.map_eq_some_iff.mp hbefore
  obtain ⟨s₂, hrun, hafter⟩ := Option.map_eq_some_iff.mp hafter
  obtain ⟨s', h₁', h₂⟩ := run_append.mp hrun
  obtain rfl : s₁ = s' := Option.some.inj (h₁.symm.trans h₁')
  obtain ⟨s₃, hstep, hlast⟩ := run_cons_eq_some.mp h₂
  obtain rfl : s₃ = s₂ := Option.some.inj hlast
  have howners := (hall asciiSettings [] _ s₃ asciiSettings_keepsLabels hrun).2
  have hkeeps := (meets_append howners h₁).2.1 s₃ hstep
  -- the row of tenant 2 would still be there
  have htwo : 2 ∈ s₁.domains.map (·.tenantId) := by
    rw [hbefore]
    exact List.mem_singleton_self 2
  obtain ⟨row, hrow, hid⟩ := List.mem_map.mp htwo
  obtain ⟨row', hrow', -, hid'⟩ := hkeeps row hrow
  have hmem := List.mem_map_of_mem (f := (·.tenantId)) hrow'
  rw [hafter, hid', hid] at hmem
  exact absurd hmem (by decide)

end Kommunsign
