import Mathlib.Data.List.Infix
import Kommunsign.Data.Contracts
import Kommunsign.Data.Rows
import Kommunsign.Data.Texts
import Kommunsign.Infra.Run
import Kommunsign.Infra.Table

/-!
# The slugs of the tenants and their default hostnames

A slug is allocated from the name of the organization under an advisory lock. The default hostname
is made of the slug by a function that normalizes it once more, and its row is inserted on conflict
with the hostname.

* `normalizeTenantSlug`, `canonicalHostname`, `platformDefaultHostname` — the package
  `custom-domains`
* `allocateTenantSlug` — the numbered candidates
-/

namespace Kommunsign

open Infra

/-- What the functions rest on that is not of this repository, and the deployment. -/
structure HostSettings where
  /-- `toLowerCase` of a text that is not ASCII -/
  unicode : Text → Text
  /-- `normalize('NFKD')` of a text that is not ASCII -/
  nfkd : Text → Text
  /--
  The host of `https://` with the text behind it, in lower case and without a dot at its end;
  `none` when that is no URL, or has more than a host.
  -/
  urlHostname : Text → Option Text
  rootDomain : Text

/-! ## Slugs -/

/-- `[a-z0-9]` -/
def isSlugChar (c : Char) : Bool := ('a' ≤ c && c ≤ 'z') || ('0' ≤ c && c ≤ '9')

/-- `[a-z0-9-]` -/
def isSlugCharOrHyphen (c : Char) : Bool := isSlugChar c || c == '-'

/-- `RESERVED_TENANT_SLUGS` -/
def reservedTenantSlugs : List String :=
  ["www", "admin", "apply", "app", "api", "auth", "sign", "verify", "docs", "status", "hooks",
    "mail", "support", "billing", "test", "staging", "dev", "internal", "system", "root",
    "security", "platform", "public", "static", "assets", "cdn"]

/-- Every run of characters that are not kept becomes one hyphen. -/
def hyphenRuns (keep : Char → Bool) (s : Text) : Text :=
  s.foldr (fun c rest =>
    if keep c then c :: rest else if rest.head? = some '-' then rest else '-' :: rest) []

/-- `replace(/^-+|-+$/g, '')` -/
def trimHyphens (s : Text) : Text :=
  ((s.dropWhile (· == '-')).reverse.dropWhile (· == '-')).reverse

/-- `.normalize('NFKD').replace(/[\u0300-\u036f]/g, '')` -/
def withoutMarks (settings : HostSettings) (s : Text) : Text :=
  (if s.all fun c => decide (c.toNat < 128) then s else settings.nfkd s).filter fun c =>
    !(decide (0x300 ≤ c.toNat) && decide (c.toNat ≤ 0x36f))

/-- `/^[a-z0-9](?:[a-z0-9-]{0,61}[a-z0-9])$/` -/
def isSlug (s : Text) : Bool :=
  decide (2 ≤ s.length) && decide (s.length ≤ 63) && s.all isSlugCharOrHyphen &&
    s.head?.any isSlugChar && s.getLast?.any isSlugChar

/-- `none`: an error is thrown. -/
def normalizeTenantSlug (settings : HostSettings) (value : Text) : Option Text :=
  let normalized := hyphenRuns (· != '-') (trimHyphens (hyphenRuns isSlugChar
    (withoutMarks settings (toLowerCase settings.unicode (trim value)))))
  if normalized.length < 2 ∨ 63 < normalized.length then none
  else if !isSlug normalized then none
  else if (reservedTenantSlugs.map String.toList).contains normalized then none
  else some normalized

/-! ## Hostnames -/

/-- `split('.')` -/
def hostLabels : Text → List Text
  | [] => [[]]
  | c :: s =>
    match hostLabels s with
    | [] => [[c]]
    | label :: labels => if c = '.' then [] :: label :: labels else (c :: label) :: labels

/-- `[a-z0-9](?:[a-z0-9-]{0,61}[a-z0-9])?` -/
def isHostLabel (label : Text) : Bool :=
  decide (label.length ≤ 63) && label.all isSlugCharOrHyphen && label.head?.any isSlugChar &&
    label.getLast?.any isSlugChar

/-- The pattern of a hostname: two labels at least, the last one of two characters at least. -/
def isHostname (hostname : Text) : Bool :=
  decide (1 ≤ hostname.length) && decide (hostname.length ≤ 253) &&
    decide (2 ≤ (hostLabels hostname).length) && (hostLabels hostname).all isHostLabel &&
    (hostLabels hostname).getLast?.any fun label => decide (2 ≤ label.length)

/-- `replace(/\.$/, '')` -/
def withoutDot (s : Text) : Text := if s.getLast? = some '.' then s.dropLast else s

def platformDomain : Text := "kommunsign.se".toList

/-- `none`: an error is thrown. -/
def canonicalHostname (settings : HostSettings) (value : Text) (allowPlatformNamespace : Bool) :
    Option Text :=
  let candidate := withoutDot (trim value)
  if candidate = [] then none
  else
    match settings.urlHostname candidate with
    | none => none
    | some hostname =>
      if !isHostname hostname then none
      else if !allowPlatformNamespace &&
          (hostname == platformDomain || ('.' :: platformDomain).isSuffixOf hostname) then none
      else some hostname

def platformDefaultHostname (settings : HostSettings) (slug : Text) : Option Text :=
  match normalizeTenantSlug settings slug with
  | none => none
  | some normalizedSlug =>
    match canonicalHostname settings settings.rootDomain true with
    | none => none
    | some normalizedRoot => canonicalHostname settings (normalizedSlug ++ '.' :: normalizedRoot) true

/-! ## The rows -/

/-- A row of `control.platform_tenants`. -/
structure SlugTenant where
  id : Id
  slug : Text
  deriving DecidableEq

/-- A row of `control.tenant_domains`. -/
structure HostRow where
  tenantId : Id
  hostname : Text
  /-- `platform_default`, or a domain of the customer -/
  isDefault : Bool
  verified : Bool
  deriving DecidableEq

structure HostPlatform where
  /-- `control.reserved_tenant_slugs` -/
  reserved : List Text
  tenants : List SlugTenant
  domains : List HostRow
  deriving DecidableEq

/-- What the candidates are made of. -/
def tenantSlugBase (settings : HostSettings) (legalName : Text) (applicationId : RowId) : Text :=
  let base := (normalizeTenantSlug settings legalName).getD
    ("tenant-".toList ++ (applicationId.value.toList.filter (· != '-')).take 8)
  if base.length < 3 then base ++ "-tenant".toList else base

def slugSuffix (index : Nat) : Text :=
  if index = 0 then [] else '-' :: (toString (index + 1)).toList

/-- `base.slice(0, 63 - suffix.length)` -/
def slugCut (base : Text) (index : Nat) : Text := base.take (63 - (slugSuffix index).length)

def slugCandidate (base : Text) (index : Nat) : Text := slugCut base index ++ slugSuffix index

namespace HostPlatform

def occupied (s : HostPlatform) (candidate : Text) : Bool :=
  s.tenants.any (·.slug == candidate) || s.reserved.contains candidate

/-- The number of the first free candidate; `none` is `TENANT_SLUG_ALLOCATION_EXHAUSTED`. -/
def freeIndex (s : HostPlatform) (base : Text) : Option Nat :=
  (List.range 100).find? fun index => !s.occupied (slugCandidate base index)

def allocateTenantSlug (s : HostPlatform) (settings : HostSettings) (legalName : Text)
    (applicationId : RowId) : Option Text :=
  let base := tenantSlugBase settings legalName applicationId
  (s.freeIndex base).map (slugCandidate base)

/-- `reserve_tenant_slug`, with the check of the column `slug`. -/
def reserveSlug (s : HostPlatform) (settings : HostSettings) (tenantId : Id) (legalName : Text)
    (applicationId : RowId) : Option HostPlatform :=
  match s.allocateTenantSlug settings legalName applicationId with
  | none => none
  | some slug =>
    if s.tenants.any (·.id == tenantId) || !isSlug slug || decide (slug.length < 3) then none
    else some { s with tenants := s.tenants ++ [⟨tenantId, slug⟩] }

/-- `create_default_domain`; `active` says whether the wildcard of the platform is verified. -/
def createDefaultDomain (s : HostPlatform) (settings : HostSettings) (tenantId : Id)
    (active : Bool) : Option HostPlatform :=
  match s.tenants.find? (·.id == tenantId) with
  | none => none
  | some tenant =>
    match platformDefaultHostname settings tenant.slug with
    | none => none
    | some hostname =>
      -- the binding of a verified domain is immutable
      if s.domains.any fun row => row.hostname == hostname && row.verified &&
          row.tenantId != tenantId then none
      else if s.domains.any (·.hostname == hostname) then
        some { s with
          domains := assign (·.hostname == hostname)
            (fun row => { row with tenantId := tenantId, verified := active }) s.domains }
      else some { s with domains := s.domains ++ [⟨tenantId, hostname, true, active⟩] }

def requestCustomDomain (s : HostPlatform) (settings : HostSettings) (tenantId : Id)
    (value : Text) : Option HostPlatform :=
  match canonicalHostname settings value false with
  | none => none
  | some hostname =>
    if s.domains.any (·.hostname == hostname) then none
    else some { s with domains := s.domains ++ [⟨tenantId, hostname, false, false⟩] }

end HostPlatform

inductive HostAction where
  | reserveSlug (tenantId : Id) (legalName : Text) (applicationId : RowId)
  | createDefaultDomain (tenantId : Id) (active : Bool)
  | requestCustomDomain (tenantId : Id) (value : Text)
  /-- The status of the verification of a domain changes. -/
  | setVerified (hostname : Text) (verified : Bool)
  deriving DecidableEq

/-- `none`: an error is thrown, or the database refuses the row. -/
def hostStep (settings : HostSettings) (s : HostPlatform) : HostAction → Option HostPlatform
  | .reserveSlug tenantId legalName applicationId =>
    s.reserveSlug settings tenantId legalName applicationId
  | .createDefaultDomain tenantId active => s.createDefaultDomain settings tenantId active
  | .requestCustomDomain tenantId value => s.requestCustomDomain settings tenantId value
  | .setVerified hostname verified =>
    some { s with
      domains := assign (·.hostname == hostname) (fun row => { row with verified := verified })
        s.domains }

/-- A platform without tenants, whatever slugs are reserved. -/
def HostPlatform.initial (reserved : List Text) : HostPlatform := ⟨reserved, [], []⟩

end Kommunsign
