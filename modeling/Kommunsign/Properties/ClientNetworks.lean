import Kommunsign.Api.Delivery
import Kommunsign.Infra.IpAddress

/-!
# The networks of clients

What is stored of a client's address are the first three things that its separators leave. Of an
address of version 4 they are its network. Of one of version 6 they are what is written first, and
`::` stands for groups that are not written.

* `namesNetwork_iff` — when it is the network of the address
* `truncateClientAddress_iff` — when it tells networks apart, and nothing else
-/

namespace Kommunsign

open Infra

inductive ClientAddress where
  | v4 (a : Ipv4)
  | v6 (σ : Ipv6Spelling)

namespace ClientAddress

def text : ClientAddress → Text
  | v4 a => a.text
  | v6 σ => σ.text

def SameNetwork : ClientAddress → ClientAddress → Prop
  | v4 a, v4 b => a.network 24 = b.network 24
  | v6 σ, v6 σ' => σ.address.network 48 = σ'.address.network 48
  | _, _ => False

def NamesNetwork (τ : ClientAddress) (stored : Option Text) : Prop :=
  match τ with
  | v4 a => stored = some (Ipv4.text (a.network 24) ++ "/24".toList)
  | v6 σ => ∃ σ' : Ipv6Spelling, σ'.address = σ.address.network 48 ∧
      stored = some (σ'.text ++ "/48".toList)

/-- The first three groups that are written are the first three groups of the address. -/
def HeadIsWritten : ClientAddress → Prop
  | v4 _ => True
  | v6 σ => (σ.written.take 3).map HexGroup.value = σ.parts.take 3

def SpelledAlike : ClientAddress → ClientAddress → Prop
  | v6 σ, v6 σ' => σ.address.network 48 = σ'.address.network 48 →
      (σ.written.take 3).map (·.digits) = (σ'.written.take 3).map (·.digits)
  | _, _ => True

end ClientAddress

open ClientAddress

/-! ## What is stored -/

theorem trim_nil : trim [] = [] := rfl

theorem ne_nil_of_trim {s t : Text} (h : trim s = t) (ht : t ≠ []) : s ≠ [] := by
  rintro rfl
  exact ht (h.symm.trans trim_nil)

theorem truncateClientAddress_v4 {s : Text} {a : Ipv4} (h : trim s = a.text) :
    truncateClientAddress (some s) = some (Ipv4.text (a.network 24) ++ "/24".toList) := by
  obtain ⟨p, q, r, t, hparts, hp, hq, hr, ht⟩ := a.exists_parts
  have hsplit : (trim s).splitOn '.' =
      [Nat.toDigits 10 p, Nat.toDigits 10 q, Nat.toDigits 10 r, Nat.toDigits 10 t] := by
    rw [h, a.splitOn_text, hparts]
    rfl
  have hnetwork : (a.network 24).parts = [p, q, r, 0] := by
    have htake := a.parts_network 3
    rw [hparts] at htake
    exact htake
  unfold truncateClientAddress
  dsimp only
  rw [if_neg (ne_nil_of_trim h a.text_ne_nil), hsplit, if_pos]
  · unfold Ipv4.text
    rw [hnetwork]
    simp [List.intercalate_cons_cons]
  · refine ⟨rfl, ?_⟩
    simp [isShortNumber_toDigits hp, isShortNumber_toDigits hq,
      isShortNumber_toDigits hr, isShortNumber_toDigits ht]

theorem truncateClientAddress_v6 {s : Text} {σ : Ipv6Spelling} (h : trim s = σ.text) :
    truncateClientAddress (some s) =
      if σ.pieces.length < 3 then none
      else some ([':'].intercalate (σ.pieces.take 3) ++ "::/48".toList) := by
  have hcolon := σ.colon_mem_text
  have hpieces : (σ.text.splitOn ':').filter (· ≠ []) = σ.pieces := σ.pieces_text
  unfold truncateClientAddress
  dsimp only
  rw [if_neg (ne_nil_of_trim h (List.ne_nil_of_mem hcolon)), h, if_neg, if_pos hcolon, hpieces]
  -- one of the parts between dots has the colon
  rintro ⟨-, hall⟩
  have hjoin : ['.'].intercalate (σ.text.splitOn '.') = σ.text := List.intercalate_splitOn '.'
  rw [← hjoin] at hcolon
  rcases mem_intercalate hcolon with hcolon | ⟨part, hpart, hcolon⟩
  · exact absurd hcolon (by decide)
  · have hshort := List.all_eq_true.mp hall part hpart
    rw [not_isShortNumber hcolon (by decide)] at hshort
    exact nomatch hshort

/-! ## The network of a single address -/

section

variable {σ σ' : Ipv6Spelling}

def headSpelling (a b c : HexGroup) : Ipv6Spelling where
  before := [a, b, c]
  after := some []
  quad := none
  size := by simp

theorem parts_network_48 (σ : Ipv6Spelling) :
    (σ.address.network 48).parts = σ.parts.take 3 ++ List.replicate 5 0 :=
  σ.address.parts_network 3

theorem length_take_parts (σ : Ipv6Spelling) : (σ.parts.take 3).length = 3 := by
  rw [List.length_take, σ.length_parts]
  rfl

theorem take_pieces (h : 3 ≤ σ.written.length) :
    σ.pieces.take 3 = (σ.written.take 3).map (·.digits) := by
  unfold Ipv6Spelling.pieces
  rw [List.take_append_of_le_length (by rwa [List.length_map]), List.map_take]

theorem length_written_of_headIsWritten (h : HeadIsWritten (.v6 σ)) : 3 ≤ σ.written.length := by
  have hlength := congrArg List.length h
  rw [List.length_map, length_take_parts, List.length_take] at hlength
  omega

theorem truncateClientAddress_of_headIsWritten {s : Text} (hs : trim s = σ.text)
    (h : HeadIsWritten (.v6 σ)) : truncateClientAddress (some s) =
      some ([':'].intercalate ((σ.written.take 3).map (·.digits)) ++ "::/48".toList) := by
  have hlength := length_written_of_headIsWritten h
  rw [truncateClientAddress_v6 hs, if_neg, take_pieces hlength]
  unfold Ipv6Spelling.pieces
  rw [List.length_append, List.length_map]
  omega

theorem namesNetwork_of_headIsWritten {s : Text} (hs : trim s = σ.text)
    (h : HeadIsWritten (.v6 σ)) : NamesNetwork (.v6 σ) (truncateClientAddress (some s)) := by
  have hlength := length_written_of_headIsWritten h
  obtain ⟨a, b, c, rest, hwritten⟩ : ∃ a b c rest, σ.written = a :: b :: c :: rest := by
    match hw : σ.written, hlength with
    | a :: b :: c :: rest, _ => exact ⟨a, b, c, rest, rfl⟩
  have hvalues : [a.value, b.value, c.value] = σ.parts.take 3 := by
    have hhead : (σ.written.take 3).map HexGroup.value = σ.parts.take 3 := h
    rw [hwritten] at hhead
    exact hhead
  refine ⟨headSpelling a b c, Address.ext ?_, ?_⟩
  · rw [parts_network_48, ← hvalues]
    rfl
  · rw [truncateClientAddress_of_headIsWritten hs h, hwritten]
    show some _ = some ((_ ++ ':' :: ':' :: []) ++ "/48".toList)
    rw [List.append_assoc]
    rfl

theorem pieces_of_stored {pieces : List Text} (hpieces : ∀ p ∈ pieces, p ≠ [] ∧ ':' ∉ p)
    (h : σ'.text = [':'].intercalate pieces ++ "::".toList) :
    σ'.before.map (·.digits) = pieces ∧ σ'.parts = σ'.before.map HexGroup.value ++
      List.replicate (8 - σ'.before.length) 0 := by
  have hlast : σ'.text.getLast? = some ':' := by
    rw [h, List.getLast?_append_of_ne_nil _ (by decide)]
    rfl
  obtain ⟨hafter, hquad⟩ := Ipv6Spelling.after_of_getLast? hlast
  have hsplit := σ'.pieces_text
  rw [h, show "::".toList = ':' :: ([] ++ ':' :: []) from rfl, splitPieces_append,
    splitPieces_append, splitPieces_nil, splitPieces_intercalate hpieces] at hsplit
  unfold Ipv6Spelling.pieces Ipv6Spelling.written at hsplit
  constructor
  · rw [hafter, hquad] at hsplit
    simpa using hsplit.symm
  · unfold Ipv6Spelling.parts Ipv6Spelling.zeros Ipv6Spelling.written
    rw [hafter, hquad]
    simp

theorem headIsWritten_of_namesNetwork {s : Text} (hs : trim s = σ.text)
    (h : NamesNetwork (.v6 σ) (truncateClientAddress (some s))) : HeadIsWritten (.v6 σ) := by
  obtain ⟨σ', haddress, hstored⟩ := h
  rw [truncateClientAddress_v6 hs] at hstored
  split at hstored
  · exact nomatch hstored
  next hlength =>
  have htext : σ'.text = [':'].intercalate (σ.pieces.take 3) ++ "::".toList := by
    have heq := Option.some.inj hstored
    rw [show "::/48".toList = "::".toList ++ "/48".toList from rfl, ← List.append_assoc] at heq
    exact (List.append_cancel_right heq).symm
  obtain ⟨hdigits, hparts⟩ := pieces_of_stored
    (fun p hp => Ipv6Spelling.mem_pieces (List.mem_of_mem_take hp)) htext
  have hbefore : σ'.before.length = 3 := by
    have hlengths := congrArg List.length hdigits
    rw [List.length_map, List.length_take] at hlengths
    omega
  -- a quad has a dot, so it is none of the three
  have hwritten : 3 ≤ σ.written.length := by
    by_contra hshort
    cases hquad : σ.quad with
    | none =>
      unfold Ipv6Spelling.pieces at hlength
      simp [hquad] at hlength
      omega
    | some a =>
      have hmem : a.text ∈ σ.pieces.take 3 := by
        unfold Ipv6Spelling.pieces
        rw [List.take_of_length_le]
        · simp [hquad]
        · simp [hquad]
          omega
      rw [← hdigits] at hmem
      obtain ⟨g, -, hg⟩ := List.mem_map.mp hmem
      have hdot : '.' ∈ g.digits := by
        rw [hg]
        exact a.dot_mem_text
      exact absurd (g.isHex '.' hdot) (by decide)
  rw [take_pieces hwritten] at hdigits
  have hvalues : σ'.before.map HexGroup.value = (σ.written.take 3).map HexGroup.value := by
    have hmap := congrArg (List.map hexNumber) hdigits
    rw [List.map_map, List.map_map] at hmap
    exact hmap
  have hnetwork := congrArg Address.parts haddress
  rw [parts_network_48, show σ'.address.parts = σ'.parts from rfl, hparts, hbefore] at hnetwork
  show (σ.written.take 3).map HexGroup.value = σ.parts.take 3
  rw [← hvalues]
  exact List.append_cancel_right hnetwork

theorem namesNetwork_iff {s : Text} {τ : ClientAddress} (h : trim s = τ.text) :
    NamesNetwork τ (truncateClientAddress (some s)) ↔ HeadIsWritten τ := by
  cases τ with
  | v4 a => exact iff_of_true (truncateClientAddress_v4 h) trivial
  | v6 σ => exact ⟨headIsWritten_of_namesNetwork h, namesNetwork_of_headIsWritten h⟩

/-! ## Pairs of addresses -/

theorem sameNetwork_v6_iff : SameNetwork (.v6 σ) (.v6 σ') ↔ σ.parts.take 3 = σ'.parts.take 3 :=
  Address.network_eq_iff (a := σ.address) (b := σ'.address) 3

theorem digits_eq_of_stored_eq (h : [':'].intercalate ((σ.written.take 3).map (·.digits)) =
    [':'].intercalate ((σ'.written.take 3).map (·.digits))) :
    (σ.written.take 3).map (·.digits) = (σ'.written.take 3).map (·.digits) := by
  have hdigits : ∀ {σ : Ipv6Spelling}, ∀ p ∈ (σ.written.take 3).map (·.digits),
      p ≠ [] ∧ ':' ∉ p := by
    intro σ p hp
    obtain ⟨g, -, rfl⟩ := List.mem_map.mp hp
    exact ⟨g.ne_nil, Ipv6Spelling.colon_notMem_digits g⟩
  have hsplit := congrArg (splitPieces ':') h
  rwa [splitPieces_intercalate hdigits, splitPieces_intercalate hdigits] at hsplit

theorem stored_eq_v6_iff {s s' : Text} (hs : trim s = σ.text) (hs' : trim s' = σ'.text)
    (h : HeadIsWritten (.v6 σ)) (h' : HeadIsWritten (.v6 σ')) :
    truncateClientAddress (some s) = truncateClientAddress (some s') ↔
      (σ.written.take 3).map (·.digits) = (σ'.written.take 3).map (·.digits) := by
  rw [truncateClientAddress_of_headIsWritten hs h, truncateClientAddress_of_headIsWritten hs' h',
    Option.some.injEq, List.append_left_inj]
  exact ⟨digits_eq_of_stored_eq, fun heq => by rw [heq]⟩

theorem apart_v6_iff {s s' : Text} (hs : trim s = σ.text) (hs' : trim s' = σ'.text)
    (h : HeadIsWritten (.v6 σ)) (h' : HeadIsWritten (.v6 σ')) :
    (truncateClientAddress (some s) = truncateClientAddress (some s') ↔
      SameNetwork (.v6 σ) (.v6 σ')) ↔ SpelledAlike (.v6 σ) (.v6 σ') := by
  have hsame : (σ.written.take 3).map (·.digits) = (σ'.written.take 3).map (·.digits) →
      SameNetwork (.v6 σ) (.v6 σ') := by
    intro hdigits
    have hvalues := congrArg (List.map hexNumber) hdigits
    rw [List.map_map, List.map_map] at hvalues
    rw [sameNetwork_v6_iff]
    exact (show (σ.written.take 3).map HexGroup.value = _ from h).symm.trans (hvalues.trans h')
  rw [stored_eq_v6_iff hs hs' h h']
  exact ⟨fun hiff => hiff.mpr, fun halike => ⟨hsame, halike⟩⟩

theorem apart_v4 {s s' : Text} {a b : Ipv4} (hs : trim s = a.text) (hs' : trim s' = b.text) :
    truncateClientAddress (some s) = truncateClientAddress (some s') ↔
      SameNetwork (.v4 a) (.v4 b) := by
  rw [truncateClientAddress_v4 hs, truncateClientAddress_v4 hs', Option.some.injEq,
    List.append_left_inj]
  exact Ipv4.text_injective.eq_iff

theorem stored_v4_ne_v6 {s s' : Text} {a : Ipv4} (hs : trim s = a.text) (hs' : trim s' = σ.text) :
    truncateClientAddress (some s) ≠ truncateClientAddress (some s') := by
  rw [truncateClientAddress_v4 hs, truncateClientAddress_v6 hs']
  split
  · exact nofun
  · intro heq
    have hcolon : ':' ∈ Ipv4.text (a.network 24) ++ "/24".toList := by
      rw [Option.some.inj heq]
      exact List.mem_append_right _ (by decide)
    rcases List.mem_append.mp hcolon with hcolon | hcolon
    · exact Ipv4.colon_notMem_text _ hcolon
    · exact absurd hcolon (by decide)

end

/-- **Two addresses are stored as their networks, and alike exactly when they share one, exactly
when each is of version 4 or begins with the groups that are written first, and two of one network
have the same digits for it.** -/
theorem truncateClientAddress_iff {s s' : Text} {τ τ' : ClientAddress} (hs : trim s = τ.text)
    (hs' : trim s' = τ'.text) :
    (NamesNetwork τ (truncateClientAddress (some s)) ∧
      NamesNetwork τ' (truncateClientAddress (some s')) ∧
      (truncateClientAddress (some s) = truncateClientAddress (some s') ↔ SameNetwork τ τ')) ↔
    HeadIsWritten τ ∧ HeadIsWritten τ' ∧ SpelledAlike τ τ' := by
  rw [namesNetwork_iff hs, namesNetwork_iff hs']
  refine and_congr_right fun h => and_congr_right fun h' => ?_
  cases τ with
  | v4 a =>
    cases τ' with
    | v4 b => exact iff_of_true (apart_v4 hs hs') trivial
    | v6 σ' => exact iff_of_true (iff_of_false (stored_v4_ne_v6 hs hs') id) trivial
  | v6 σ =>
    cases τ' with
    | v4 b => exact iff_of_true (iff_of_false (stored_v4_ne_v6 hs' hs).symm id) trivial
    | v6 σ' => exact apart_v6_iff hs hs' h h'

/-- `2001:db8:1234::1` -/
def officeAddress : Ipv6Spelling where
  before := [⟨"2001".toList, by decide, by decide, List.all_eq_true.mp (by decide)⟩,
    ⟨"db8".toList, by decide, by decide, List.all_eq_true.mp (by decide)⟩,
    ⟨"1234".toList, by decide, by decide, List.all_eq_true.mp (by decide)⟩]
  after := some [⟨"1".toList, by decide, by decide, List.all_eq_true.mp (by decide)⟩]
  quad := none
  size := by decide

theorem truncateClientAddress_iff_office :
    truncateClientAddress (some " 192.0.2.147".toList) ≠
      truncateClientAddress (some "2001:db8:1234::1".toList) := by
  have hs : trim " 192.0.2.147".toList = (ClientAddress.v4 (ipv4 192 0 2 147)).text := by decide
  have hs' : trim "2001:db8:1234::1".toList = (ClientAddress.v6 officeAddress).text := by decide
  have hhead : HeadIsWritten (.v6 officeAddress) :=
    show (officeAddress.written.take 3).map HexGroup.value = officeAddress.parts.take 3 by decide
  have h := (truncateClientAddress_iff hs hs').mpr ⟨trivial, hhead, trivial⟩
  exact fun heq => h.2.2.mp heq

/-- `2001:db8::1` -/
def compressedAddress : Ipv6Spelling where
  before := [⟨"2001".toList, by decide, by decide, List.all_eq_true.mp (by decide)⟩,
    ⟨"db8".toList, by decide, by decide, List.all_eq_true.mp (by decide)⟩]
  after := some [⟨"1".toList, by decide, by decide, List.all_eq_true.mp (by decide)⟩]
  quad := none
  size := by decide

/-- Part of the interface identifier is stored as if it were the network. -/
theorem not_namesNetwork_compressedAddress :
    truncateClientAddress (some "2001:db8::1".toList) = some "2001:db8:1::/48".toList ∧
      ¬∀ (s : Text) (τ : ClientAddress), trim s = τ.text →
        NamesNetwork τ (truncateClientAddress (some s)) := by
  refine ⟨by decide, fun h => ?_⟩
  have hs : trim "2001:db8::1".toList = (ClientAddress.v6 compressedAddress).text := by decide
  have hhead : (compressedAddress.written.take 3).map HexGroup.value =
      compressedAddress.parts.take 3 := (namesNetwork_iff hs).mp (h _ _ hs)
  exact absurd hhead (by decide)

end Kommunsign
