import Mathlib.Data.List.Induction
import Kommunsign.Privacy.SubjectIndexes
import Kommunsign.Properties.PrivacyErasure

/-!
# A privacy request never finds its subject

The request is indexed for the purpose `privacy.subject_identifier`, and no row of a signer or a
user ever is.

* `StoredIndex`, `IndexedApart` — what the indexes of the stored rows are made of
* `subject_never_found` — no search of a recorded request finds a signer, a user or a hold
* `same_address_not_found` — a signer and a request for one and the same address
-/

namespace Kommunsign

open Infra

def storePurposes : List String :=
  ["signer.email", "signer.expected_personal_number", "signer.verified_personal_number",
    "tenant.user_email", "user.email"]

section

variable {indexing : BlindIndexing} {lower : Text → Text}

theorem blindIndex_ne (hinjective : Function.Injective indexing.hmac) {purpose : String}
    (hpurpose : purpose ∈ storePurposes) (value subjectIdentifier : Text) :
    indexing.blindIndex value purpose ≠
      indexing.blindIndex subjectIdentifier "privacy.subject_identifier" := by
  intro h
  have hhead : (purpose.toList ++ '\x00' :: indexing.fold (trim value)).head? = some 'p' := by
    rw [hinjective h]
    rfl
  have hother : ∀ purpose ∈ storePurposes, purpose.toList.head?.any (· != 'p') = true := by decide
  have hpurpose := hother purpose hpurpose
  rw [List.head?_append] at hhead
  cases hfirst : purpose.toList.head? with
  | none =>
    rw [hfirst] at hpurpose
    cases hpurpose
  | some c =>
    rw [hfirst] at hpurpose hhead
    cases hhead
    revert hpurpose
    decide

def StoredIndex (indexing : BlindIndexing) (index : Option BlindIndex) : Prop :=
  ∀ i, index = some i → ∃ purpose ∈ storePurposes, ∃ value, i = indexing.blindIndex value purpose

theorem storedIndex_none : StoredIndex indexing none := fun _ h => nomatch h

theorem storedIndex_some {purpose : String} (hpurpose : purpose ∈ storePurposes) (value : Text) :
    StoredIndex indexing (some (indexing.blindIndex value purpose)) := by
  rintro i ⟨⟩
  exact ⟨purpose, hpurpose, value, rfl⟩

theorem storedIndex_map {purpose : String} (hpurpose : purpose ∈ storePurposes)
    (value : Option Text) :
    StoredIndex indexing (value.map (indexing.blindIndex · purpose)) := by
  cases value with
  | none => exact storedIndex_none
  | some value => exact storedIndex_some hpurpose value

structure IndexedSigner (indexing : BlindIndexing) (signer : SubjectSigner) : Prop where
  email : StoredIndex indexing signer.emailBlindIndex
  expected : StoredIndex indexing signer.expectedIdentifierBlindIndex
  verified : StoredIndex indexing signer.verifiedIdentifierBlindIndex

structure IndexedApart (indexing : BlindIndexing) (stores : PersonalData) : Prop where
  signers : ∀ signer ∈ stores.signers, IndexedSigner indexing signer
  users : ∀ index ∈ stores.users, StoredIndex indexing index
  requests : ∀ request ∈ stores.requests, ∃ subjectIdentifier,
    request.subjectIdentifierBlindIndex =
      indexing.blindIndex subjectIdentifier "privacy.subject_identifier"

theorem indexedApart_empty : IndexedApart indexing .empty where
  signers := fun _ h => nomatch h
  users := fun _ h => nomatch h
  requests := fun _ h => nomatch h

/-! ## What the writers store -/

theorem indexedSigner_new (id signatureCaseId : UUID) :
    IndexedSigner indexing (newSigner id signatureCaseId) :=
  ⟨storedIndex_none, storedIndex_none, storedIndex_none⟩

theorem indexedSigner_enter {signer : SubjectSigner} (h : IndexedSigner indexing signer)
    (entry : SignerEntry) : IndexedSigner indexing (enterSigner indexing lower entry signer) where
  email := storedIndex_some (by decide) _
  expected := storedIndex_map (by decide) _
  verified := h.verified

theorem indexedSigner_verify {signer : SubjectSigner} (h : IndexedSigner indexing signer)
    (personalNumber : Text) : IndexedSigner indexing (verifySigner indexing personalNumber signer) where
  email := h.email
  expected := h.expected
  verified := storedIndex_some (by decide) _

theorem indexedSigner_erased (signer : SubjectSigner) : IndexedSigner indexing signer.erased :=
  ⟨storedIndex_none, storedIndex_none, storedIndex_none⟩

theorem IndexedApart.updateSigners {stores : PersonalData} (h : IndexedApart indexing stores)
    {p : SubjectSigner → Bool} {f : SubjectSigner → SubjectSigner}
    (hf : ∀ signer, IndexedSigner indexing signer → IndexedSigner indexing (f signer)) :
    IndexedApart indexing (stores.updateSigners p f) where
  signers signer hsigner := by
    obtain ⟨old, hold, rfl⟩ := mem_assign.mp hsigner
    split
    · exact hf old (h.signers old hold)
    · exact h.signers old hold
  users := h.users
  requests := h.requests

theorem IndexedApart.users_append {stores : PersonalData} (h : IndexedApart indexing stores)
    {index : Option BlindIndex} (hindex : StoredIndex indexing index) :
    IndexedApart indexing { stores with users := stores.users ++ [index] } where
  signers := h.signers
  users i hi := by
    rcases List.mem_append.mp hi with hi | hi
    · exact h.users i hi
    · rw [List.mem_singleton.mp hi]
      exact hindex
  requests := h.requests

theorem IndexedApart.users_set {stores : PersonalData} (h : IndexedApart indexing stores)
    (place : Nat) {index : Option BlindIndex} (hindex : StoredIndex indexing index) :
    IndexedApart indexing { stores with users := stores.users.set place index } where
  signers := h.signers
  users i hi := by
    rcases List.mem_or_eq_of_mem_set hi with hi | rfl
    · exact h.users i hi
    · exact hindex
  requests := h.requests

theorem storedIndex_scim (email : Option Text) :
    StoredIndex indexing (scimUserIndex indexing email) := storedIndex_map (by decide) email

theorem storedIndex_provisioned (email : Text) :
    StoredIndex indexing (provisionedUserIndex indexing email) := storedIndex_some (by decide) email

theorem indexedApart_step (stores : PersonalData) (action : SubjectAction) (stores' : PersonalData)
    (h : IndexedApart indexing stores) (hstep : subjectStep indexing lower stores action = some stores') :
    IndexedApart indexing stores' := by
  cases action with
  | addSigner id signatureCaseId entry =>
    simp only [subjectStep] at hstep
    split at hstep
    · exact nomatch hstep
    · cases hstep
      refine ⟨fun signer hsigner => ?_, h.users, h.requests⟩
      rcases List.mem_append.mp hsigner with hsigner | hsigner
      · exact h.signers signer hsigner
      · rw [List.mem_singleton.mp hsigner]
        exact indexedSigner_enter (indexedSigner_new id signatureCaseId) entry
  | updateSigner id entry =>
    cases hstep
    exact h.updateSigners fun signer hsigner => indexedSigner_enter hsigner entry
  | moveSigner id status =>
    cases hstep
    exact h.updateSigners fun signer hsigner => ⟨hsigner.email, hsigner.expected, hsigner.verified⟩
  | verifySigner id personalNumber =>
    cases hstep
    exact h.updateSigners fun signer hsigner => indexedSigner_verify hsigner personalNumber
  | provisionUser place email =>
    cases place with
    | none =>
      cases hstep
      exact h.users_append (storedIndex_provisioned email)
    | some i =>
      cases hstep
      exact h.users_set i (storedIndex_provisioned email)
  | createScimUser email =>
    cases hstep
    exact h.users_append (storedIndex_scim email)
  | saveScimUser place email =>
    cases hstep
    exact h.users_set place (storedIndex_scim email)
  | recordRequest input id now =>
    cases hstep
    unfold recordPrivacyRequest
    dsimp only
    split
    · exact h
    · refine ⟨h.signers, h.users, fun request hrequest => ?_⟩
      rcases List.mem_append.mp hrequest with hrequest | hrequest
      · exact h.requests request hrequest
      · rw [List.mem_singleton.mp hrequest]
        exact ⟨input.subjectIdentifier, rfl⟩
  | setHolds holds =>
    cases hstep
    exact ⟨h.signers, h.users, h.requests⟩
  | erase subject =>
    simp only [subjectStep] at hstep
    split at hstep
    · exact nomatch hstep
    · rename_i n stores₁ hupdate
      cases hstep
      obtain ⟨-, rfl, -⟩ := Table.update_eq_ok.mp hupdate
      exact h.updateSigners fun signer _ => indexedSigner_erased signer

/-! ## What the searches find -/

section

variable {stores : PersonalData} {request : PrivacyRequestRow}

theorem storedIndex_ne (hinjective : Function.Injective indexing.hmac)
    {index : Option BlindIndex} (hindex : StoredIndex indexing index) (subjectIdentifier : Text) :
    index ≠ some (indexing.blindIndex subjectIdentifier "privacy.subject_identifier") := by
  intro h
  obtain ⟨purpose, hpurpose, value, heq⟩ := hindex _ h
  exact blindIndex_ne hinjective hpurpose value subjectIdentifier heq.symm

theorem IndexedApart.matches_eq_false (h : IndexedApart indexing stores)
    (hinjective : Function.Injective indexing.hmac) (hrequest : request ∈ stores.requests) :
    ∀ signer ∈ stores.signers, signer.matches request.subjectIdentifierBlindIndex = false := by
  intro signer hsigner
  obtain ⟨subjectIdentifier, hindex⟩ := h.requests request hrequest
  have hs := h.signers signer hsigner
  rw [hindex, SubjectSigner.matches, Bool.or_eq_false_iff, Bool.or_eq_false_iff,
    beq_eq_false_iff_ne, beq_eq_false_iff_ne, beq_eq_false_iff_ne]
  exact ⟨⟨storedIndex_ne hinjective hs.email _, storedIndex_ne hinjective hs.expected _⟩,
    storedIndex_ne hinjective hs.verified _⟩

theorem IndexedApart.users_count (h : IndexedApart indexing stores)
    (hinjective : Function.Injective indexing.hmac) (hrequest : request ∈ stores.requests) :
    stores.users.count (some request.subjectIdentifierBlindIndex) = 0 := by
  obtain ⟨subjectIdentifier, hindex⟩ := h.requests request hrequest
  refine List.count_eq_zero.mpr fun hmem => ?_
  refine storedIndex_ne hinjective (h.users _ hmem) subjectIdentifier ?_
  rw [hindex]

end

end

/--
Whatever was stored of a person and however, a request recorded for the person finds no signer and
no user, and no hold on a case of theirs.
-/
theorem subject_never_found {indexing : BlindIndexing}
    (hinjective : Function.Injective indexing.hmac) (lower : Text → Text)
    {actions : List SubjectAction} {stores : PersonalData}
    (hr : run (subjectStep indexing lower) .empty actions = some stores)
    {request : PrivacyRequestRow} (hrequest : request ∈ stores.requests) :
    (∀ signer ∈ stores.signers, signer.matches request.subjectIdentifierBlindIndex = false) ∧
      stores.users.count (some request.subjectIdentifierBlindIndex) = 0 ∧
      stores.legalHoldActive request.subjectIdentifierBlindIndex = false ∧
      ∀ env right coverage, (searchData env request.subjectIdentifierBlindIndex right stores).1 =
        .ok coverage → coverage.recordCount = 0 := by
  have hapart := run_invariant indexedApart_step indexedApart_empty hr
  have hsigners := hapart.matches_eq_false hinjective hrequest
  have husers := hapart.users_count hinjective hrequest
  refine ⟨hsigners, husers, ?_, fun env right coverage hcoverage => ?_⟩
  · refine List.any_eq_false.mpr fun hold _ => ?_
    rw [Bool.and_eq_true, List.any_eq_true]
    rintro ⟨-, signer, hsigner, hmatches⟩
    rw [Bool.and_eq_true, hsigners signer hsigner] at hmatches
    exact nomatch hmatches.2
  · have hcount : stores.signers.countP (·.matches request.subjectIdentifierBlindIndex) = 0 := by
      refine List.countP_eq_zero.mpr fun signer hsigner => ?_
      rw [hsigners signer hsigner]
      exact Bool.false_ne_true
    have hnothing : (stores.dataCoverage request.subjectIdentifierBlindIndex).recordCount = 0 := by
      unfold PersonalData.dataCoverage
      rw [hcount, husers]
      rfl
    rcases searchData_cases env stores request.subjectIdentifierBlindIndex right with
      ⟨-, h⟩ | ⟨-, -, h⟩ | ⟨-, e, h⟩
    · rw [h] at hcoverage
      cases hcoverage
      exact hnothing
    · rw [h] at hcoverage
      cases hcoverage
      exact hnothing
    · rw [h] at hcoverage
      cases hcoverage

def textNumber (s : Text) : Nat := s.foldl (fun n c => n * 1114112 + (c.toNat + 1)) 0

theorem textNumber_append (s : Text) (c : Char) :
    textNumber (s ++ [c]) = textNumber s * 1114112 + (c.toNat + 1) := by
  simp [textNumber, List.foldl_append]

theorem textNumber_nil_ne (s : Text) (c : Char) : textNumber [] ≠ textNumber (s ++ [c]) := by
  rw [textNumber_append]
  exact (Nat.succ_ne_zero _).symm

theorem textNumber_injective : Function.Injective textNumber := by
  have hchar (c : Char) : c.toNat < 1114112 := by
    have := c.valid
    simp only [UInt32.isValidChar, Nat.isValidChar, Char.toNat] at *
    omega
  intro s
  -- on the last character of the one text
  induction s using List.reverseRecOn with
  | nil =>
    intro t h
    cases t using List.reverseRecOn with
    | nil => rfl
    | append_singleton t d => exact absurd h (textNumber_nil_ne t d)
  | append_singleton s c ih =>
    intro t h
    cases t using List.reverseRecOn with
    | nil => exact absurd h.symm (textNumber_nil_ne s c)
    | append_singleton t d =>
      rw [textNumber_append, textNumber_append] at h
      have hc := hchar c
      have hd := hchar d
      have hlast : c.toNat = d.toNat := by omega
      have hrest : textNumber s = textNumber t := by omega
      rw [ih hrest, Char.toNat_inj.mp hlast]

/-- Texts that `fold` leaves as they are, and a hash without collisions. -/
def plainIndexing : BlindIndexing := ⟨id, textNumber⟩

def annaEntry : SignerEntry :=
  ⟨"anna@example.se".toList, .STRICT_PREBOUND "199001019802".toList, "clerk", 0⟩

def annaRequest : RecordPrivacyRequestInput :=
  ⟨.ACCESS, "anna@example.se".toList, "BANKID", .HIGH⟩

def annaActions : List SubjectAction :=
  [.addSigner "signer" "case" annaEntry, .recordRequest annaRequest "request" 1]

def annaSigner : SubjectSigner := enterSigner plainIndexing id annaEntry (newSigner "signer" "case")

theorem subject_never_found_anna : ∃ stores request,
    run (subjectStep plainIndexing id) .empty annaActions = some stores ∧
    request ∈ stores.requests ∧ annaSigner ∈ stores.signers ∧
    annaSigner.matches request.subjectIdentifierBlindIndex = false := by
  let stores := recordPrivacyRequest plainIndexing annaRequest "request" 1
    { PersonalData.empty with signers := [annaSigner] }
  have hr : run (subjectStep plainIndexing id) .empty annaActions = some stores := rfl
  have hsigner : annaSigner ∈ stores.signers := List.mem_singleton.mpr rfl
  obtain ⟨request, hrequest⟩ : ∃ request, request ∈ stores.requests :=
    ⟨_, List.mem_singleton.mpr rfl⟩
  have hnever := subject_never_found textNumber_injective id hr hrequest
  exact ⟨stores, request, hr, hrequest, hsigner, hnever.1 annaSigner hsigner⟩

/-- A signer is entered under an address, and a request is recorded for the very same address. -/
theorem same_address_not_found :
    ¬∀ (indexing : BlindIndexing) (entry : SignerEntry) (input : RecordPrivacyRequestInput)
      (stores : PersonalData), Function.Injective indexing.hmac →
      entry.email = input.subjectIdentifier →
      run (subjectStep indexing id) .empty
        [.addSigner "signer" "case" entry, .recordRequest input "request" 1] = some stores →
      ∀ signer ∈ stores.signers, ∀ request ∈ stores.requests,
        signer.matches request.subjectIdentifierBlindIndex = true := by
  intro h
  have hfound := h plainIndexing annaEntry annaRequest _ textNumber_injective rfl rfl _
    (List.mem_singleton.mpr rfl) _ (List.mem_singleton.mpr rfl)
  revert hfound
  decide +kernel

end Kommunsign
