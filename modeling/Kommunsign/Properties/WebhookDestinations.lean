import Kommunsign.Infra.IpAddress
import Kommunsign.Webhooks.Destinations

/-!
# Which addresses a webhook can reach

The checks compare texts, and an address has many. For version 4 they agree with the ranges of the
numbers. For version 6 they see the ranges that are told by the first digits, and miss the
addresses of version 4 that stand inside those of version 6.

* `AddressText` — an address as a host or an answer has it
* `webhookDestinations_iff` — the addresses that are judged rightly
-/

namespace Kommunsign

open Infra

/-! ## Where traffic goes -/

/-- Loopback, private, link-local, shared, multicast and unspecified addresses. -/
def internalIpv4 : List (Ipv4 × ℕ) :=
  [(ipv4 127 0 0 0, 8), (ipv4 10 0 0 0, 8), (ipv4 172 16 0 0, 12), (ipv4 192 168 0 0, 16),
    (ipv4 169 254 0 0, 16), (ipv4 100 64 0 0, 10), (ipv4 224 0 0 0, 4), (ipv4 0 0 0 0, 32)]

/-- The blocks that no global address is assigned from. What is set aside for documentation counts
as global here. -/
def reservedIpv4 : List (Ipv4 × ℕ) :=
  [(ipv4 0 0 0 0, 8), (ipv4 10 0 0 0, 8), (ipv4 100 64 0 0, 10), (ipv4 127 0 0 0, 8),
    (ipv4 169 254 0 0, 16), (ipv4 172 16 0 0, 12), (ipv4 192 168 0 0, 16), (ipv4 198 18 0 0, 15),
    (ipv4 224 0 0 0, 3)]

def IsInternalIpv4 (a : Ipv4) : Prop := ∃ block ∈ internalIpv4, a.InBlock block.1 block.2

def IsGlobalIpv4 (a : Ipv4) : Prop := ∀ block ∈ reservedIpv4, ¬a.InBlock block.1 block.2

instance : DecidablePred IsInternalIpv4 := fun a =>
  inferInstanceAs (Decidable (∃ block ∈ internalIpv4, a.InBlock block.1 block.2))

instance : DecidablePred IsGlobalIpv4 := fun a =>
  inferInstanceAs (Decidable (∀ block ∈ reservedIpv4, ¬a.InBlock block.1 block.2))

def unspecifiedIpv6 : Ipv6 := ipv6 0 0 0 0 0 0 0 0

def loopbackIpv6 : Ipv6 := ipv6 0 0 0 0 0 0 0 1

def ipv4OfGroups (high low : ℕ) : Ipv4 :=
  ipv4 (Fin.ofNat 256 (high / 256)) (Fin.ofNat 256 high) (Fin.ofNat 256 (low / 256))
    (Fin.ofNat 256 low)

/-- The address of version 4 that the traffic goes on to: of a mapped or a compatible one, and
through NAT64 or 6to4. -/
def embeddedIpv4 (a : Ipv6) : Option Ipv4 :=
  if a.InBlock (ipv6 0 0 0 0 0 0xffff 0 0) 96 ∨ a.InBlock (ipv6 0x64 0xff9b 0 0 0 0 0 0) 96 ∨
      (a.InBlock (ipv6 0 0 0 0 0 0 0 0) 96 ∧ a ≠ unspecifiedIpv6 ∧ a ≠ loopbackIpv6) then
    some (ipv4OfGroups (a.parts.getD 6 0) (a.parts.getD 7 0))
  else if a.InBlock (ipv6 0x2002 0 0 0 0 0 0 0) 16 then
    some (ipv4OfGroups (a.parts.getD 1 0) (a.parts.getD 2 0))
  else none

def internalIpv6 : List (Ipv6 × ℕ) :=
  [(ipv6 0xfc00 0 0 0 0 0 0 0, 7), (ipv6 0xfe80 0 0 0 0 0 0 0, 10), (ipv6 0xff00 0 0 0 0 0 0 0, 8)]

def IsInternalIpv6 (a : Ipv6) : Prop :=
  a = unspecifiedIpv6 ∨ a = loopbackIpv6 ∨ (∃ block ∈ internalIpv6, a.InBlock block.1 block.2) ∨
    ∃ inner, embeddedIpv4 a = some inner ∧ IsInternalIpv4 inner

/-- One of the block that global addresses are assigned from, or one that leads to a global one. -/
def IsGlobalIpv6 (a : Ipv6) : Prop :=
  match embeddedIpv4 a with
  | some inner => IsGlobalIpv4 inner
  | none => a.InBlock (ipv6 0x2000 0 0 0 0 0 0 0) 3

/-- An address as a host or an answer has it; that of version 6 in brackets too. -/
inductive AddressText where
  | v4 (a : Ipv4)
  | v6 (σ : Ipv6Spelling)
  | bracketed (σ : Ipv6Spelling)

namespace AddressText

def text : AddressText → Text
  | v4 a => a.text
  | v6 σ => σ.text
  | bracketed σ => '[' :: (σ.text ++ [']'])

def IsInternal : AddressText → Prop
  | v4 a => IsInternalIpv4 a
  | v6 σ => IsInternalIpv6 σ.address
  | bracketed σ => IsInternalIpv6 σ.address

def IsGlobal : AddressText → Prop
  | v4 a => IsGlobalIpv4 a
  | v6 σ => IsGlobalIpv6 σ.address
  | bracketed σ => IsGlobalIpv6 σ.address

end AddressText

/-! ## Version 4 -/

theorem isForbiddenIpv4_iff {p q r s : ℕ} : isForbiddenIpv4 [p, q, r, s] = true ↔
    p = 0 ∨ p = 10 ∨ p = 127 ∨ 224 ≤ p ∨ (p = 100 ∧ 64 ≤ q ∧ q ≤ 127) ∨ (p = 169 ∧ q = 254) ∨
      (p = 172 ∧ 16 ≤ q ∧ q ≤ 31) ∨ (p = 192 ∧ q = 168) ∨ (p = 198 ∧ (q = 18 ∨ q = 19)) := by
  simp [isForbiddenIpv4, or_assoc, and_assoc]

theorem inBlock_ipv4_iff {a : Ipv4} {p q r s : ℕ} (hparts : a.parts = [p, q, r, s])
    (b c d e : Fin 256) (bits : ℕ) : a.InBlock (ipv4 b c d e) bits ↔
      maskParts 8 bits [p, q, r, s] = [b.val, c.val, d.val, e.val] := by
  rw [Address.inBlock_iff, hparts]
  rfl

theorem isForbiddenIpv4_of_isInternal {a : Ipv4} (h : IsInternalIpv4 a) :
    isForbiddenIpv4 a.parts = true := by
  obtain ⟨p, q, r, s, hparts, hp, hq, hr, hs⟩ := a.exists_parts
  rw [hparts, isForbiddenIpv4_iff]
  obtain ⟨block, hblock, h⟩ := h
  simp only [internalIpv4, List.mem_cons, List.not_mem_nil, or_false] at hblock
  rcases hblock with rfl | rfl | rfl | rfl | rfl | rfl | rfl | rfl
  all_goals
    simp only [inBlock_ipv4_iff hparts, maskParts, List.cons.injEq] at h
    obtain ⟨hp, hq, -⟩ := h
    simp at hp hq
    omega

theorem not_isForbiddenIpv4_of_isGlobal {a : Ipv4} (h : IsGlobalIpv4 a) :
    isForbiddenIpv4 a.parts = false := by
  obtain ⟨p, q, r, s, hparts, hp, hq, hr, hs⟩ := a.exists_parts
  rw [← Bool.not_eq_true, hparts, isForbiddenIpv4_iff]
  simp only [IsGlobalIpv4, reservedIpv4, List.forall_mem_cons, inBlock_ipv4_iff hparts, maskParts,
    List.cons.injEq] at h
  simp [hq, hr, Nat.not_le.mpr hs] at h
  obtain ⟨h0, h10, h100, h127, h169, h172, h192, h198, h224⟩ := h
  rintro (hp | hp | hp | hp | ⟨hp, hq⟩ | ⟨hp, hq⟩ | ⟨hp, hq⟩ | ⟨hp, hq⟩ | ⟨hp, hq⟩)
  · exact h0 hp
  · exact h10 hp
  · exact h127 hp
  · omega
  · exact h100 hp (by omega)
  · exact h169 hp hq
  · exact h172 hp (by omega)
  · exact h192 hp hq
  · exact h198 hp (by omega)

/-! ## The text of version 4 -/

theorem toLower_of_isDigit {c : Char} (h : c.isDigit = true) : c.toLower = c := by
  have hall : ∀ m < 128, (Char.ofNat m).isDigit = true → (Char.ofNat m).toLower = Char.ofNat m := by
    decide
  have hc := hall c.toNat (hexValue_ascii (isHex_of_isDigit h))
  rw [Char.ofNat_toNat] at hc
  exact hc h

theorem map_toLower_ipv4 (a : Ipv4) : a.text.map Char.toLower = a.text := by
  have hchars : ∀ c ∈ a.text, c.toLower = id c := by
    intro c hc
    rcases Ipv4.mem_text hc with rfl | hdigit
    · decide
    · exact toLower_of_isDigit hdigit
  rw [List.map_congr_left hchars, List.map_id]

theorem parseIpv4_text (a : Ipv4) : parseIpv4 a.text = some a.parts := by
  have hlt : ∀ p ∈ a.parts, p < 256 := a.lt
  unfold parseIpv4
  simp only [a.splitOn_text, ofDigitChars_map_toDigits, List.length_map, a.length_parts]
  rw [if_neg, if_neg]
  · rw [List.any_eq_true]
    rintro ⟨p, hp, hbig⟩
    have := hlt p hp
    have := of_decide_eq_true hbig
    omega
  · rintro (h | h)
    · exact h rfl
    · rw [List.any_eq_true] at h
      obtain ⟨part, hpart, h⟩ := h
      obtain ⟨p, hp, rfl⟩ := List.mem_map.mp hpart
      rw [isShortNumber_toDigits (hlt p hp)] at h
      exact nomatch h

theorem parseIpv4_of_colon {value : Text} (h : ':' ∈ value) : parseIpv4 value = none := by
  unfold parseIpv4
  rw [if_pos]
  refine .inr ?_
  have hjoin : ['.'].intercalate (value.splitOn '.') = value := List.intercalate_splitOn '.'
  rw [← hjoin] at h
  rcases mem_intercalate h with h | ⟨part, hpart, hcolon⟩
  · exact absurd h (by decide)
  · rw [List.any_eq_true]
    refine ⟨part, hpart, ?_⟩
    rw [not_isShortNumber hcolon (by decide)]
    rfl

/-! ## The text of version 6 -/

theorem eq_of_toLower_eq {c d : Char} (h : c.toLower = d) (hd : d ∈ "::1".toList) : c = d := by
  by_cases hupper : 'A' ≤ c ∧ c ≤ 'Z'
  · -- a letter stays a letter
    have hall : ∀ m < 128, 65 ≤ m → m ≤ 90 → (Char.ofNat m).toLower ∉ "::1".toList := by decide
    have hge : 65 ≤ c.toNat := hupper.1
    have hle : c.toNat ≤ 90 := hupper.2
    have hnot := hall c.toNat (by omega) hge hle
    rw [Char.ofNat_toNat, h] at hnot
    exact absurd hd hnot
  · have hsame : c.toLower = c := dif_neg hupper
    rw [← hsame, h]

theorem eq_of_map_toLower_eq {s t : Text} (h : s.map Char.toLower = t)
    (ht : ∀ d ∈ t, d ∈ "::1".toList) : s = t := by
  induction s generalizing t with
  | nil => exact h
  | cons c s ih =>
    obtain ⟨d, t', hcons, hd, hs⟩ : ∃ d t', t = d :: t' ∧ c.toLower = d ∧
        s.map Char.toLower = t' := ⟨_, _, h.symm, rfl, rfl⟩
    subst hcons
    rw [List.forall_mem_cons] at ht
    rw [eq_of_toLower_eq hd ht.1, ih hs ht.2]

def forbiddenStarts : List String := ["fc", "fd", "fe8", "fe9", "fea", "feb", "ff"]

theorem isForbiddenIpv6_iff {t : Text} : isForbiddenIpv6 t = true ↔
    t = "::".toList ∨ t = "::1".toList ∨ ∃ start ∈ forbiddenStarts, ∃ rest,
      t = start.toList ++ rest := by
  unfold isForbiddenIpv6
  rw [Bool.or_eq_true, Bool.or_eq_true, List.any_eq_true, beq_iff_eq, beq_iff_eq, or_assoc]
  refine or_congr_right (or_congr_right (exists_congr fun start => and_congr_right fun _ => ?_))
  rw [List.isPrefixOf_iff_prefix]
  exact exists_congr fun rest => eq_comm

theorem lead_of_isForbiddenIpv6 {σ : Ipv6Spelling}
    (h : isForbiddenIpv6 (σ.text.map Char.toLower) = true) :
    σ.text = "::".toList ∨ σ.text = "::1".toList ∨
      ∃ p rest, σ.parts = p :: rest ∧ (p = 15 ∨ (240 ≤ p ∧ p < 256) ∨ (3840 ≤ p ∧ p < 4096) ∨
        61440 ≤ p) := by
  rcases isForbiddenIpv6_iff.mp h with h | h | ⟨start, hstart, rest, h⟩
  · exact .inl (eq_of_map_toLower_eq h (by simp))
  · exact .inr (.inl (eq_of_map_toLower_eq h (by simp)))
  refine .inr (.inr ?_)
  have hhead : (σ.text.map Char.toLower).head? = some 'f' := by
    have hstarts : ∀ start ∈ forbiddenStarts, start.toList.head? = some 'f' := by decide
    rw [h, List.head?_append, hstarts start hstart]
    rfl
  cases hbefore : σ.before with
  | nil =>
    obtain ⟨rest, hrest⟩ := (Ipv6Spelling.head_of_before_nil hbefore).2
    rw [hrest] at hhead
    exact absurd hhead (by simp)
  | cons g groups =>
    obtain ⟨⟨rest, hparts⟩, rest', htext⟩ := Ipv6Spelling.head_of_before_cons hbefore
    obtain ⟨c, digits, n, hdigits, hlength, hvalue, hlow, hhigh⟩ := g.exists_digits
    refine ⟨g.value, rest, hparts, ?_⟩
    rw [htext, hdigits, List.cons_append, List.map_cons, List.head?_cons, Option.some.injEq,
      toLower_of_hexValue hvalue] at hhead
    have hfifteen : ∀ n < 16, Json.hexDigit n = 'f' → n = 15 := by decide
    obtain rfl := hfifteen n (hexValue_lt hvalue) hhead
    -- one to four digits
    generalize digits.length = k at hlength hlow hhigh
    have hk : k = 0 ∨ k = 1 ∨ k = 2 ∨ k = 3 := by omega
    rcases hk with rfl | rfl | rfl | rfl <;> omega

theorem head_of_internalIpv6 {a : Ipv6} {p : ℕ} {rest : List ℕ} (hparts : a.parts = p :: rest)
    {block : Ipv6 × ℕ} (hblock : block ∈ internalIpv6) (h : a.InBlock block.1 block.2) :
    (64512 ≤ p ∧ p < 65024) ∨ (65152 ≤ p ∧ p < 65216) ∨ 65280 ≤ p := by
  rw [Address.inBlock_iff, hparts] at h
  simp only [internalIpv6, List.mem_cons, List.not_mem_nil, or_false] at hblock
  rcases hblock with rfl | rfl | rfl
  all_goals
    have hhead := (List.cons.inj h).1
    simp at hhead
    omega

theorem isForbiddenIpv6_of_prefix {σ : Ipv6Spelling} {block : Ipv6 × ℕ}
    (hblock : block ∈ internalIpv6) (h : σ.address.InBlock block.1 block.2) :
    isForbiddenIpv6 (σ.text.map Char.toLower) = true := by
  cases hbefore : σ.before with
  | nil =>
    obtain ⟨rest, hparts⟩ := (Ipv6Spelling.head_of_before_nil hbefore).1
    have hrange := head_of_internalIpv6 (show σ.address.parts = _ from hparts) hblock h
    omega
  | cons g groups =>
    obtain ⟨⟨rest, hparts⟩, rest', htext⟩ := Ipv6Spelling.head_of_before_cons hbefore
    have hrange := head_of_internalIpv6 (show σ.address.parts = _ from hparts) hblock h
    obtain ⟨a, b, c, d, m, n, o, p, hdigits, hm, hn, ho, hp, hvalue⟩ :=
      HexGroup.four_digits (g := g) (by omega)
    have hn16 := hexValue_lt hn
    have ho16 := hexValue_lt ho
    have hp16 := hexValue_lt hp
    have hm15 : m = 15 := by
      have := hexValue_lt hm
      omega
    rw [htext, hdigits, List.map_append]
    simp only [List.map_cons, toLower_of_hexValue hm, toLower_of_hexValue hn,
      toLower_of_hexValue ho]
    subst hm15
    refine isForbiddenIpv6_iff.mpr (.inr (.inr ?_))
    rcases hrange with hrange | hrange | hrange
    · -- `fc00::/7`
      have hcases : n = 12 ∨ n = 13 := by omega
      rcases hcases with rfl | rfl
      · exact ⟨"fc", by decide, _, rfl⟩
      · exact ⟨"fd", by decide, _, rfl⟩
    · -- `fe80::/10`
      have hn14 : n = 14 := by omega
      subst hn14
      have hcases : o = 8 ∨ o = 9 ∨ o = 10 ∨ o = 11 := by omega
      rcases hcases with rfl | rfl | rfl | rfl
      · exact ⟨"fe8", by decide, _, rfl⟩
      · exact ⟨"fe9", by decide, _, rfl⟩
      · exact ⟨"fea", by decide, _, rfl⟩
      · exact ⟨"feb", by decide, _, rfl⟩
    · -- `ff00::/8`
      have hn15 : n = 15 := by omega
      subst hn15
      exact ⟨"ff", by decide, _, rfl⟩

/-! ## The texts that are checked -/

namespace AddressText

def refused : AddressText → Bool
  | v4 a => isForbiddenIpv4 a.parts
  | v6 σ => isForbiddenIpv6 (σ.text.map Char.toLower)
  | bracketed σ => isForbiddenIpv6 (σ.text.map Char.toLower)

theorem mem_text_cases {τ : AddressText} {c : Char} (h : c ∈ τ.text) :
    (Json.hexValue c).isSome = true ∨ c ∈ ":.[]".toList := by
  have hspelling : ∀ {σ : Ipv6Spelling}, c ∈ σ.text →
      (Json.hexValue c).isSome = true ∨ c ∈ ":.[]".toList := by
    intro σ hc
    rcases Ipv6Spelling.mem_text_cases hc with rfl | hhex | ⟨rfl, -⟩
    · exact .inr (by decide)
    · exact .inl hhex
    · exact .inr (by decide)
  cases τ with
  | v4 a =>
    rcases Ipv4.mem_text h with rfl | hdigit
    · exact .inr (by decide)
    · exact .inl (isHex_of_isDigit hdigit)
  | v6 σ => exact hspelling h
  | bracketed σ =>
    rcases List.mem_cons.mp h with rfl | h
    · exact .inr (by decide)
    rcases List.mem_append.mp h with h | h
    · exact hspelling h
    · rw [List.mem_singleton.mp h]
      exact .inr (by decide)

theorem ascii_of_mem_text {τ : AddressText} {c : Char} (h : c ∈ τ.text) : c.toNat < 128 := by
  rcases mem_text_cases h with hhex | hmark
  · exact hexValue_ascii hhex
  · have hall : ":.[]".toList.all (fun d => decide (d.toNat < 128)) = true := by decide
    exact of_decide_eq_true (List.all_eq_true.mp hall c hmark)

theorem toLowerCase_text (unicode : Text → Text) (τ : AddressText) :
    toLowerCase unicode τ.text = τ.text.map Char.toLower := by
  unfold toLowerCase
  rw [if_pos]
  exact List.all_eq_true.mpr fun c hc => decide_eq_true (ascii_of_mem_text hc)

theorem mem_lower_cases {τ : AddressText} {c : Char} (h : c ∈ τ.text.map Char.toLower) :
    c ∈ "0123456789abcdef:.[]".toList := by
  obtain ⟨d, hd, rfl⟩ := List.mem_map.mp h
  rcases mem_text_cases hd with hhex | hmark
  · obtain ⟨n, hn⟩ := Option.isSome_iff_exists.mp hhex
    have hall : ∀ n < 16, Json.hexDigit n ∈ "0123456789abcdef:.[]".toList := by decide
    rw [toLower_of_hexValue hn]
    exact hall n (hexValue_lt hn)
  · have hall : ":.[]".toList.all (fun d =>
        decide (d.toLower ∈ "0123456789abcdef:.[]".toList)) = true := by decide
    exact of_decide_eq_true (List.all_eq_true.mp hall d hmark)

end AddressText

theorem stripBrackets_of_notMem {t : Text} (hopen : '[' ∉ t) (hclose : ']' ∉ t) :
    stripBrackets t = t := by
  have hhead : t.head? ≠ some '[' := fun h => hopen (List.mem_of_head? h)
  have hlast : t.getLast? ≠ some ']' := fun h => hclose (List.mem_of_getLast? h)
  unfold stripBrackets
  simp only [if_neg hhead, if_neg hlast]

theorem stripBrackets_bracketed {t : Text} : stripBrackets ('[' :: (t ++ [']'])) = t := by
  simp [stripBrackets]

theorem bracket_notMem_spelling {σ : Ipv6Spelling} {c : Char} (hc : c ∈ "[]".toList) :
    c ∉ σ.text.map Char.toLower := by
  intro h
  obtain ⟨d, hd, rfl⟩ := List.mem_map.mp h
  rcases Ipv6Spelling.mem_text_cases hd with rfl | hhex | ⟨rfl, -⟩
  · exact absurd hc (by decide)
  · obtain ⟨n, hn⟩ := Option.isSome_iff_exists.mp hhex
    have hall : ∀ n < 16, Json.hexDigit n ∉ "[]".toList := by decide
    rw [toLower_of_hexValue hn] at hc
    exact hall n (hexValue_lt hn) hc
  · exact absurd hc (by decide)

theorem colon_mem_lower (σ : Ipv6Spelling) : ':' ∈ σ.text.map Char.toLower :=
  List.mem_map.mpr ⟨':', σ.colon_mem_text, by decide⟩

theorem isForbiddenIpLiteral_text (unicode : Text → Text) (τ : AddressText) :
    isForbiddenIpLiteral (toLowerCase unicode τ.text) = τ.refused := by
  rw [τ.toLowerCase_text]
  unfold isForbiddenIpLiteral
  cases τ with
  | v4 a =>
    have htext : (AddressText.v4 a).text.map Char.toLower = a.text.map Char.toLower := rfl
    rw [htext, map_toLower_ipv4, parseIpv4_text]
    rfl
  | v6 σ =>
    have hcolon := colon_mem_lower σ
    have htext : (AddressText.v6 σ).text.map Char.toLower = σ.text.map Char.toLower := rfl
    rw [htext, parseIpv4_of_colon hcolon]
    show (if ':' ∈ σ.text.map Char.toLower then _ else _) = _
    rw [if_pos hcolon]
    show isForbiddenIpv6 (stripBrackets (σ.text.map Char.toLower)) = _
    rw [stripBrackets_of_notMem (bracket_notMem_spelling (by decide))
      (bracket_notMem_spelling (by decide))]
    rfl
  | bracketed σ =>
    have htext : (AddressText.bracketed σ).text.map Char.toLower =
        '[' :: (σ.text.map Char.toLower ++ [']']) := by
      show ('[' :: (σ.text ++ [']'])).map Char.toLower = _
      rw [List.map_cons, List.map_append]
      rfl
    have hcolon : ':' ∈ '[' :: (σ.text.map Char.toLower ++ [']']) :=
      List.mem_cons_of_mem _ (List.mem_append_left _ (colon_mem_lower σ))
    rw [htext, parseIpv4_of_colon hcolon]
    show (if ':' ∈ '[' :: (σ.text.map Char.toLower ++ [']']) then _ else _) = _
    rw [if_pos hcolon, stripBrackets_bracketed]
    rfl

/-! ## Where texts and numbers agree -/

/-- The condition on an address of version 6 and its text: no internal address of version 4 stands
inside it, and the two shortest texts are not written out. -/
def IsSeenIpv6 (σ : Ipv6Spelling) : Prop :=
  (∀ inner, embeddedIpv4 σ.address = some inner → ¬IsInternalIpv4 inner) ∧
    (σ.address = unspecifiedIpv6 ∨ σ.address = loopbackIpv6 →
      σ.text = "::".toList ∨ σ.text = "::1".toList)

def AddressText.IsSeen : AddressText → Prop
  | v4 _ => True
  | v6 σ => IsSeenIpv6 σ
  | bracketed σ => IsSeenIpv6 σ

section

variable {σ : Ipv6Spelling} {inner : Ipv4}

theorem head_of_inBlock {a : Ipv6} {p : ℕ} {rest : List ℕ} (hparts : a.parts = p :: rest)
    {b c d e f g h i : Fin 65536} {bits : ℕ} (hbits : 16 ≤ bits)
    (hblock : a.InBlock (ipv6 b c d e f g h i) bits) : p = b.val := by
  rw [Address.inBlock_iff, hparts] at hblock
  have hhead := (List.cons.inj hblock).1
  rw [Nat.sub_eq_zero_of_le hbits, Nat.pow_zero, Nat.div_one, Nat.mul_one] at hhead
  exact hhead

theorem head_of_embedded {a : Ipv6} {p : ℕ} {rest : List ℕ} (hparts : a.parts = p :: rest)
    (h : embeddedIpv4 a = some inner) : p = 0 ∨ p = 0x64 ∨ p = 0x2002 := by
  unfold embeddedIpv4 at h
  split at h
  · next hlow =>
    rcases hlow with hmapped | hnat64 | ⟨hcompatible, -, -⟩
    · exact .inl (head_of_inBlock hparts (by decide) hmapped)
    · exact .inr (.inl (head_of_inBlock hparts (by decide) hnat64))
    · exact .inl (head_of_inBlock hparts (by decide) hcompatible)
  split at h
  · next h6to4 => exact .inr (.inr (head_of_inBlock hparts (by decide) h6to4))
  · exact nomatch h

theorem embedded_unspecified : embeddedIpv4 unspecifiedIpv6 = none := by decide

theorem embedded_loopback : embeddedIpv4 loopbackIpv6 = none := by decide

theorem address_of_text (h : σ.text = "::".toList ∨ σ.text = "::1".toList) :
    σ.address = unspecifiedIpv6 ∨ σ.address = loopbackIpv6 := by
  rcases h with h | h
  · exact .inl (Address.ext (Ipv6Spelling.parts_of_text_unspecified h))
  · exact .inr (Address.ext (Ipv6Spelling.parts_of_text_loopback h))

theorem not_refused_of_head {p : ℕ} {rest : List ℕ} (hparts : σ.parts = p :: rest)
    (hp : p = 0 ∨ p = 0x64 ∨ (0x2000 ≤ p ∧ p < 0x4000))
    (htext : ¬(σ.text = "::".toList ∨ σ.text = "::1".toList)) :
    isForbiddenIpv6 (σ.text.map Char.toLower) = false := by
  rw [← Bool.not_eq_true]
  intro hrefused
  rcases lead_of_isForbiddenIpv6 hrefused with h | h | ⟨p', rest', hparts', hp'⟩
  · exact htext (.inl h)
  · exact htext (.inr h)
  · have heq : p = p' := (List.cons.inj (hparts.symm.trans hparts')).1
    omega

theorem exists_head (σ : Ipv6Spelling) : ∃ p rest, σ.parts = p :: rest := by
  obtain ⟨p, rest, hparts, -⟩ := σ.address.exists_parts
  exact ⟨p, rest, hparts⟩

theorem not_refused_of_embedded (h : embeddedIpv4 σ.address = some inner) :
    isForbiddenIpv6 (σ.text.map Char.toLower) = false := by
  obtain ⟨p, rest, hparts⟩ := exists_head σ
  have hp := head_of_embedded (show σ.address.parts = _ from hparts) h
  refine not_refused_of_head hparts (by omega) fun htext => ?_
  rcases address_of_text htext with haddress | haddress
  · rw [haddress, embedded_unspecified] at h
    exact nomatch h
  · rw [haddress, embedded_loopback] at h
    exact nomatch h

theorem not_refused_of_isGlobal (h : IsGlobalIpv6 σ.address) :
    isForbiddenIpv6 (σ.text.map Char.toLower) = false := by
  unfold IsGlobalIpv6 at h
  cases hembedded : embeddedIpv4 σ.address with
  | some inner => exact not_refused_of_embedded hembedded
  | none =>
    rw [hembedded] at h
    obtain ⟨p, rest, hparts⟩ := exists_head σ
    have hblock : σ.address.InBlock (ipv6 0x2000 0 0 0 0 0 0 0) 3 := h
    have hrange : 0x2000 ≤ p ∧ p < 0x4000 := by
      rw [Address.inBlock_iff, show σ.address.parts = _ from hparts] at hblock
      have hhead := (List.cons.inj hblock).1
      simp at hhead
      omega
    refine not_refused_of_head hparts (by omega) fun htext => ?_
    have hzero : p = 0 := by
      rcases address_of_text htext with haddress | haddress
      all_goals
        have heq := congrArg Address.parts haddress
        exact (List.cons.inj (hparts.symm.trans heq)).1
    omega

theorem refused_iff_isSeenIpv6 (h : IsInternalIpv6 σ.address) :
    isForbiddenIpv6 (σ.text.map Char.toLower) = true ↔ IsSeenIpv6 σ := by
  constructor
  · intro hrefused
    refine ⟨fun inner hinner _ => ?_, fun haddress => ?_⟩
    · rw [not_refused_of_embedded hinner] at hrefused
      exact nomatch hrefused
    · by_contra htext
      obtain ⟨p, rest, hparts⟩ := exists_head σ
      have hzero : p = 0 := by
        rcases haddress with haddress | haddress
        all_goals
          have heq := congrArg Address.parts haddress
          exact (List.cons.inj (hparts.symm.trans heq)).1
      rw [not_refused_of_head hparts (.inl hzero) htext] at hrefused
      exact nomatch hrefused
  · rintro ⟨hinner, hshort⟩
    have hshortest : σ.address = unspecifiedIpv6 ∨ σ.address = loopbackIpv6 →
        isForbiddenIpv6 (σ.text.map Char.toLower) = true := by
      intro haddress
      rcases hshort haddress with htext | htext
      · rw [htext]
        decide
      · rw [htext]
        decide
    rcases h with h | h | ⟨block, hblock, h⟩ | ⟨inner, hembedded, h⟩
    · exact hshortest (.inl h)
    · exact hshortest (.inr h)
    · exact isForbiddenIpv6_of_prefix hblock h
    · exact absurd h (hinner inner hembedded)

end

namespace AddressText

theorem refused_iff {τ : AddressText} (h : τ.IsInternal) : τ.refused = true ↔ τ.IsSeen := by
  cases τ with
  | v4 a => exact iff_of_true (isForbiddenIpv4_of_isInternal h) trivial
  | v6 σ => exact refused_iff_isSeenIpv6 h
  | bracketed σ => exact refused_iff_isSeenIpv6 h

theorem not_refused {τ : AddressText} (h : τ.IsGlobal) : τ.refused = false := by
  cases τ with
  | v4 a => exact not_isForbiddenIpv4_of_isGlobal h
  | v6 σ => exact not_refused_of_isGlobal h
  | bracketed σ => exact not_refused_of_isGlobal h

theorem isInternal_of_not_isSeen {τ : AddressText} (h : ¬τ.IsSeen) : τ.IsInternal := by
  have hspelling : ∀ {σ : Ipv6Spelling}, ¬IsSeenIpv6 σ → IsInternalIpv6 σ.address := by
    intro σ hσ
    unfold IsSeenIpv6 at hσ
    rw [not_and_or] at hσ
    rcases hσ with hinner | hshort
    · push Not at hinner
      exact .inr (.inr (.inr hinner))
    · rw [Classical.not_imp] at hshort
      rcases hshort.1 with haddress | haddress
      · exact .inl haddress
      · exact .inr (.inl haddress)
  cases τ with
  | v4 a => exact absurd trivial h
  | v6 σ => exact hspelling h
  | bracketed σ => exact hspelling h

end AddressText

/-! ## The checks -/

section

variable {platform : UrlPlatform} {unicode : Text → Text} {τ : AddressText}

theorem assertResolvedWebhookAddresses_eq_ok {addresses : List Text} :
    assertResolvedWebhookAddresses unicode addresses = .ok () ↔
      addresses ≠ [] ∧ ∀ t ∈ addresses, isForbiddenIpLiteral (toLowerCase unicode t) = false := by
  unfold assertResolvedWebhookAddresses
  rw [except_guard_eq_ok, except_guard_end_eq_ok, List.length_eq_zero_iff, List.any_eq_true]
  simp

theorem exists_error_of_not_ok {ε α : Type} {x : Except ε α} (h : ∀ a, x ≠ .ok a) :
    ∃ e, x = .error e := by
  cases x with
  | ok a => exact absurd rfl (h a)
  | error e => exact ⟨e, rfl⟩

theorem notMem_lower {c : Char} (h : c ∉ "0123456789abcdef:.[]".toList) :
    c ∉ toLowerCase unicode τ.text := by
  rw [τ.toLowerCase_text]
  exact fun hc => h (AddressText.mem_lower_cases hc)

theorem getLast?_text (τ : AddressText) : τ.text.getLast? ≠ some '.' := by
  have hquad : ∀ a : Ipv4, a.text.getLast? ≠ some '.' := by
    intro a
    obtain ⟨p, q, r, s, hparts, -⟩ := a.exists_parts
    have htext : a.text = (Nat.toDigits 10 p ++ ['.'] ++ (Nat.toDigits 10 q ++ ['.'] ++
        (Nat.toDigits 10 r ++ ['.']))) ++ Nat.toDigits 10 s := by
      unfold Ipv4.text
      rw [hparts]
      simp [List.intercalate_cons_cons]
    intro h
    rw [htext, List.getLast?_append_of_ne_nil _ Nat.toDigits_ne_nil] at h
    have hdigit := Nat.isDigit_of_mem_toDigits (b := 10) (by decide) (by decide)
      (List.mem_of_getLast? h)
    exact absurd hdigit (by decide)
  have hspelling : ∀ σ : Ipv6Spelling, σ.text.getLast? ≠ some '.' := by
    intro σ h
    cases hσ : σ.quad with
    | none =>
      -- there is no dot at all
      rcases Ipv6Spelling.mem_text_cases (List.mem_of_getLast? h) with hc | hhex | ⟨-, hsome⟩
      · exact absurd hc (by decide)
      · exact absurd hhex (by decide)
      · rw [hσ] at hsome
        exact nomatch hsome
    | some a =>
      obtain ⟨start, hstart⟩ := Ipv6Spelling.exists_text_append hσ
      rw [hstart, List.getLast?_append_of_ne_nil _ a.text_ne_nil] at h
      exact hquad a h
  cases τ with
  | v4 a => exact hquad a
  | v6 σ => exact hspelling σ
  | bracketed σ =>
    have htext : (AddressText.bracketed σ).text = ('[' :: σ.text) ++ [']'] := rfl
    rw [htext, List.getLast?_append_of_ne_nil _ (List.cons_ne_nil _ _)]
    decide

theorem dropFinalDot_text (unicode : Text → Text) (τ : AddressText) :
    dropFinalDot (toLowerCase unicode τ.text) = toLowerCase unicode τ.text := by
  unfold dropFinalDot
  rw [if_neg]
  intro h
  rw [τ.toLowerCase_text, List.getLast?_map, Option.map_eq_some_iff] at h
  obtain ⟨c, hc, hlower⟩ := h
  rcases AddressText.mem_text_cases (List.mem_of_getLast? hc) with hhex | hmark
  · obtain ⟨n, hn⟩ := Option.isSome_iff_exists.mp hhex
    have hall : ∀ n < 16, Json.hexDigit n ≠ '.' := by decide
    rw [toLower_of_hexValue hn] at hlower
    exact hall n (hexValue_lt hn) hlower
  · have hall : ":.[]".toList.all (fun d => decide (d.toLower = '.' → d = '.')) = true := by
      decide
    rw [of_decide_eq_true (List.all_eq_true.mp hall c hmark) hlower] at hc
    exact getLast?_text τ hc

theorem not_local (unicode : Text → Text) (τ : AddressText) :
    ¬(toLowerCase unicode τ.text = "localhost".toList ∨
      endsWith (toLowerCase unicode τ.text) ".localhost".toList = true ∨
      endsWith (toLowerCase unicode τ.text) ".local".toList = true) := by
  have hl : 'l' ∉ toLowerCase unicode τ.text := notMem_lower (by decide)
  rintro (h | h | h)
  · rw [h] at hl
    exact hl (by decide)
  · exact hl ((List.isSuffixOf_iff_suffix.mp h).subset (by decide))
  · exact hl ((List.isSuffixOf_iff_suffix.mp h).subset (by decide))

end

structure IsPlainHttps (platform : UrlPlatform) (url : WebhookUrl) : Prop where
  protocol : url.protocol = "https:".toList
  username : url.username = []
  password : url.password = []
  port : url.port = [] ∨ url.port = "443".toList
  length : (platform.setHash (platform.setHostname url
    (toLowerCase platform.unicode url.hostname)) []).href.length ≤ 2048

section

variable {platform : UrlPlatform} {τ : AddressText}

theorem assertSafeWebhookUrl_eq_ok {value : Text} {url result : WebhookUrl}
    (hparse : platform.parse value = some url) (hhost : url.hostname = τ.text) :
    assertSafeWebhookUrl platform value = .ok result ↔
      IsPlainHttps platform url ∧ τ.refused = false ∧
        platform.setHash (platform.setHostname url (toLowerCase platform.unicode url.hostname))
          [] = result := by
  unfold assertSafeWebhookUrl
  rw [hparse]
  dsimp only
  rw [except_guard_eq_ok, except_guard_eq_ok, except_guard_eq_ok, hhost, dropFinalDot_text,
    except_guard_eq_ok, except_guard_eq_ok, except_guard_eq_ok, isForbiddenIpLiteral_text]
  constructor
  · rintro ⟨hprotocol, hcredentials, hport, -, hrefused, hlength, hresult⟩
    refine ⟨⟨not_not.mp hprotocol, ?_, ?_, ?_, ?_⟩, Bool.eq_false_of_not_eq_true hrefused,
      Except.ok.inj hresult⟩
    · exact not_not.mp fun h => hcredentials (.inl h)
    · exact not_not.mp fun h => hcredentials (.inr h)
    · by_contra h
      exact hport (not_or.mp h)
    · rw [hhost]
      exact not_lt.mp hlength
  · rintro ⟨hurl, hrefused, hresult⟩
    refine ⟨not_not.mpr hurl.protocol, ?_, ?_, not_local _ τ, ?_, ?_, congrArg Except.ok hresult⟩
    · exact fun h => h.elim (fun h => h hurl.username) fun h => h hurl.password
    · exact fun h => hurl.port.elim h.1 h.2
    · rw [hrefused]
      decide
    · rw [← hhost]
      exact not_lt.mpr hurl.length

end

/-! ## Main result -/

/-- Both checks refuse an internal address, wherever it stands, and accept a global one. -/
structure IsJudgedRightly (platform : UrlPlatform) (τ : AddressText) : Prop where
  host_refused : τ.IsInternal → ∀ value url, platform.parse value = some url →
    url.hostname = τ.text → ∃ e, assertSafeWebhookUrl platform value = .error e
  answer_refused : τ.IsInternal → ∀ addresses, τ.text ∈ addresses →
    ∃ e, assertResolvedWebhookAddresses platform.unicode addresses = .error e
  /-- Before a delivery. -/
  destination_refused : τ.IsInternal → ∀ resolveAddresses value url addresses,
    assertSafeWebhookUrl platform value = .ok url → resolveAddresses url.hostname = .ok addresses →
    τ.text ∈ addresses → ∃ e, webhookDestination platform resolveAddresses value = .error e
  host_accepted : τ.IsGlobal → ∀ value url, platform.parse value = some url →
    url.hostname = τ.text → IsPlainHttps platform url →
    ∃ result, assertSafeWebhookUrl platform value = .ok result
  /-- It is up to the other answers. -/
  answer_accepted : τ.IsGlobal → ∀ before after,
    assertResolvedWebhookAddresses platform.unicode (before ++ τ.text :: after) = .ok () ↔
      ∀ t ∈ before ++ after, assertResolvedWebhookAddresses platform.unicode [t] = .ok ()

/-- **An address is judged rightly, on every platform, exactly when it is one of version 4, or one
of version 6 that has no internal address of version 4 inside and, if it is the loopback or the
unspecified one, is written in its shortest text.** -/
theorem webhookDestinations_iff (platform : UrlPlatform) (τ : AddressText) :
    IsJudgedRightly platform τ ↔ τ.IsSeen := by
  have hliteral := isForbiddenIpLiteral_text platform.unicode τ
  constructor
  · intro h
    by_contra hunseen
    have hinternal := AddressText.isInternal_of_not_isSeen hunseen
    -- alone among the answers, it passes
    obtain ⟨e, he⟩ := h.answer_refused hinternal [τ.text] (List.mem_singleton.mpr rfl)
    have hpassed : τ.refused = false := by
      rw [← Bool.not_eq_true, AddressText.refused_iff hinternal]
      exact hunseen
    have hok := assertResolvedWebhookAddresses_eq_ok.mpr ⟨List.cons_ne_nil τ.text [], fun t ht => by
      rw [List.mem_singleton.mp ht, hliteral, hpassed]⟩
    rw [hok] at he
    exact nomatch he
  · intro hseen
    have hrefused : τ.IsInternal → τ.refused = true := fun h =>
      (AddressText.refused_iff h).mpr hseen
    have hanswer : τ.IsInternal → ∀ addresses, τ.text ∈ addresses →
        ∃ e, assertResolvedWebhookAddresses platform.unicode addresses = .error e := by
      intro hinternal addresses hmem
      refine exists_error_of_not_ok fun _ hok => ?_
      have hnot := (assertResolvedWebhookAddresses_eq_ok.mp hok).2 _ hmem
      rw [hliteral, hrefused hinternal] at hnot
      exact nomatch hnot
    refine ⟨?_, hanswer, ?_, ?_, ?_⟩
    · intro hinternal value url hparse hhost
      refine exists_error_of_not_ok fun result hok => ?_
      have hnot := ((assertSafeWebhookUrl_eq_ok hparse hhost).mp hok).2.1
      rw [hrefused hinternal] at hnot
      exact nomatch hnot
    · intro hinternal resolveAddresses value url addresses hurl hresolve hmem
      obtain ⟨e, he⟩ := hanswer hinternal addresses hmem
      refine ⟨e, ?_⟩
      unfold webhookDestination
      rw [hurl]
      show (resolveAddresses url.hostname >>= fun addresses => _) = _
      rw [hresolve]
      show (assertResolvedWebhookAddresses platform.unicode addresses >>= fun _ => _) = _
      rw [he]
      rfl
    · intro hglobal value url hparse hhost hurl
      exact ⟨_, (assertSafeWebhookUrl_eq_ok hparse hhost).mpr
        ⟨hurl, AddressText.not_refused hglobal, rfl⟩⟩
    · intro hglobal before after
      have hpassed : isForbiddenIpLiteral (toLowerCase platform.unicode τ.text) = false := by
        rw [hliteral, AddressText.not_refused hglobal]
      have hone : ∀ t, assertResolvedWebhookAddresses platform.unicode [t] = .ok () ↔
          isForbiddenIpLiteral (toLowerCase platform.unicode t) = false := by
        intro t
        rw [assertResolvedWebhookAddresses_eq_ok, List.forall_mem_singleton]
        exact and_iff_right (List.cons_ne_nil t [])
      rw [assertResolvedWebhookAddresses_eq_ok]
      simp only [hone, List.forall_mem_append, List.forall_mem_cons]
      constructor
      · rintro ⟨-, hbefore, -, hafter⟩
        exact ⟨hbefore, hafter⟩
      · rintro ⟨hbefore, hafter⟩
        exact ⟨by simp, hbefore, hpassed, hafter⟩

/-- `::ffff:127.0.0.1` -/
def mappedLoopback : Ipv6Spelling where
  before := []
  after := some [⟨"ffff".toList, by decide, by decide, List.all_eq_true.mp (by decide)⟩]
  quad := some (ipv4 127 0 0 1)
  size := by decide

example : mappedLoopback.text = "::ffff:127.0.0.1".toList := by decide

theorem not_isJudgedRightly_mappedLoopback :
    ¬∀ (platform : UrlPlatform) (τ : AddressText), IsJudgedRightly platform τ := by
  intro h
  let platform : UrlPlatform := ⟨fun _ => none, fun url _ => url, fun url _ => url, id⟩
  have hinternal : (AddressText.v6 mappedLoopback).IsInternal := by
    refine .inr (.inr (.inr ⟨ipv4 127 0 0 1, by decide, by decide⟩))
  obtain ⟨e, he⟩ := (h platform (.v6 mappedLoopback)).answer_refused hinternal
    ["::ffff:127.0.0.1".toList] (by decide)
  have hok : assertResolvedWebhookAddresses id ["::ffff:127.0.0.1".toList] = .ok () := by
    decide
  rw [show platform.unicode = id from rfl, hok] at he
  exact nomatch he

end Kommunsign
