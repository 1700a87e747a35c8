import Kommunsign.Validation.TicValidator

/-!
# What a PASS says of the signer

The evidence of a signer may be written by anyone: the certificate in it is believed as it is, and
the text of the document need not be what was signed. Nothing but an OCSP response without the shape
of a DER sequence keeps the validator from passing evidence that someone has made up.

* `trustworthyFor_iff` — the PASS is trustworthy for the requests that no evidence passes
* `not_trustworthyFor_wrapped` — a signature of something else, wrapped in what is expected
-/

namespace Kommunsign

open Infra

/-! ## What a PASS is taken to mean -/

def coveredElements (document : Xml) (signature : XmlSignature) : List Xml :=
  signature.references.filterMap (referenceTarget document)

/-- The text of the node is the data and nothing else, as it is or in Base64. -/
def isExactly (node : Xml) (data : String) : Bool :=
  node.textContent == data || withoutSpaces node.textContent.toList == encoded data

def ApprovedBy (document : Xml) (signature : XmlSignature) (data : String) : Prop :=
  ∃ element ∈ coveredElements document signature, ∃ node ∈ element.nodes, isExactly node data = true

instance (document : Xml) (signature : XmlSignature) (data : String) :
    Decidable (ApprovedBy document signature data) :=
  inferInstanceAs (Decidable (∃ element ∈ _, ∃ node ∈ _, _))

section

variable (security : XmlSecurity) (vouched : String → Prop) (request : TicBankIdValidationRequest)

/-- The library reads this signature of the document, with this certificate in it. -/
def Signed (document : Xml) (signature : XmlSignature) (certificate : String) : Prop :=
  signature.certificate = some certificate ∧ ∃ element, oneSignature document = some element ∧
    security.signatures document element = some signature

structure Identifies (document : Xml) (signature : XmlSignature) (certificate : String) : Prop where
  visible : ApprovedBy document signature request.expectedVisibleData
  nonVisible : ApprovedBy document signature request.expectedNonVisibleData
  identity : (validateTic security request (some document)).personalNumber =
    personalNumberIn (security.subject certificate)
  vouched : vouched certificate

/-- Two documents with one signature element, which is read alike and covers the same elements. -/
def SameSignature (document document' : Xml) : Prop :=
  ∃ element signature, oneSignature document = some element ∧ oneSignature document' = some element ∧
    security.signatures document element = some signature ∧
    security.signatures document' element = some signature ∧
    coveredElements document' signature = coveredElements document signature

/-- A certificate is `vouched` for by something other than the message that carries it. -/
structure TrustworthyFor : Prop where
  identifies : ∀ document signature certificate, Signed security document signature certificate →
    (validateTic security request (some document)).pass = true →
      Identifies security vouched request document signature certificate
  outside : ∀ document document', SameSignature security document document' →
    (validateTic security request (some document')).pass = true →
      validateTic security request (some document) = validateTic security request (some document')
  selfMade : ∀ document signature certificate, Signed security document signature certificate →
    ¬vouched certificate → (validateTic security request (some document)).pass = false

end

def signedContent (text : String) : Xml := .element "" "content" [("Id", "content")] [.text text]

def selfMadeEvidence (text : String) (signature : Xml) : Xml :=
  .element "" "evidence" [] [signedContent text, signature]

/--
Anyone can make a certificate in a name of digits, and with its key sign an element with a text in
the characters of Base64.
-/
structure SelfSigning (security : XmlSecurity) (vouched : String → Prop) : Prop where
  sign : ∀ number : String, number.toList.all Char.isDigit = true → ∃ certificate,
    security.subject certificate = "CN=" ++ number ∧ security.timeValid certificate = true ∧
    ¬vouched certificate ∧ ∀ text : String, (∀ c ∈ text.toList, c ∈ base64Alphabet ∨ c = '=') →
      ∃ signature : Xml, signature.named XMLSIG_NS "Signature" = true ∧
        signature.descendantsNamed XMLSIG_NS "Signature" = [] ∧
        signature.identifiers evidenceIdAttributes = [] ∧
        security.signatures (selfMadeEvidence text signature) signature =
          some ⟨[some "#content"], some certificate, true⟩

/-! ## Texts -/

theorem firstTwelve_digits : ∀ {run digits : List Char}, digits.all Char.isDigit = true →
    firstTwelve run digits = if (run ++ digits).length = 12 then some (run ++ digits) else none
  | run, [], _ => by simp [firstTwelve]
  | run, c :: digits, h => by
    rw [List.all_cons, Bool.and_eq_true] at h
    rw [firstTwelve, if_pos h.1, firstTwelve_digits h.2]
    simp

theorem personalNumberIn_name {number : String} (hlength : number.length = 12)
    (hdigits : number.toList.all Char.isDigit = true) :
    personalNumberIn ("CN=" ++ number) = some number := by
  have htext : ("CN=" ++ number).toList = 'C' :: 'N' :: '=' :: number.toList := by
    simp
  have hrun : firstTwelve [] number.toList = some number.toList := by
    rw [firstTwelve_digits hdigits, List.nil_append, String.length_toList, if_pos hlength]
  have hname : firstTwelve [] ('C' :: 'N' :: '=' :: number.toList) =
      firstTwelve [] number.toList := rfl
  rw [personalNumberIn, htext, hname, hrun, Option.map_some, String.ofList_toList]

theorem base64Char_mem (n : Nat) : base64Char n ∈ base64Alphabet ∨ base64Char n = '=' := by
  unfold base64Char
  cases h : base64Alphabet[n]? with
  | none => exact Or.inr rfl
  | some c => exact Or.inl (List.mem_of_getElem? h)

theorem base64Encode_mem : ∀ {bytes : List UInt8}, ∀ c ∈ base64Encode bytes,
    c ∈ base64Alphabet ∨ c = '='
  | [], c, h => nomatch h
  | [a], c, h => by
    simp only [base64Encode, List.mem_cons, List.not_mem_nil, or_false] at h
    rcases h with rfl | rfl | rfl | rfl
    · exact base64Char_mem _
    · exact base64Char_mem _
    · exact Or.inr rfl
    · exact Or.inr rfl
  | [a, b], c, h => by
    simp only [base64Encode, List.mem_cons, List.not_mem_nil, or_false] at h
    rcases h with rfl | rfl | rfl | rfl
    · exact base64Char_mem _
    · exact base64Char_mem _
    · exact base64Char_mem _
    · exact Or.inr rfl
  | a :: b :: d :: rest, c, h => by
    simp only [base64Encode, List.mem_cons] at h
    rcases h with rfl | rfl | rfl | rfl | h
    · exact base64Char_mem _
    · exact base64Char_mem _
    · exact base64Char_mem _
    · exact base64Char_mem _
    · exact base64Encode_mem c h

theorem withoutSpaces_of_base64 {text : List Char} (h : ∀ c ∈ text, c ∈ base64Alphabet ∨ c = '=') :
    withoutSpaces text = text := by
  have hall : ('=' :: base64Alphabet).all (fun c => !isSpace c) = true := by decide
  refine List.filter_eq_self.mpr fun c hc => ?_
  exact List.all_eq_true.mp hall c (List.mem_cons.mpr (h c hc).symm)

/-! ## What a PASS says -/

structure Passes (security : XmlSecurity) (request : TicBankIdValidationRequest) (document : Xml)
    (certificate number : String) : Prop where
  verified : verifiedCertificate security document = some certificate
  visible : containsExactOrBase64 document.textContent request.expectedVisibleData = true
  nonVisible : containsExactOrBase64 document.textContent request.expectedNonVisibleData = true
  extracted : extractPersonalNumber (security.subject certificate) document = some number
  expected : ∀ expected ∈ request.expectedPersonalNumber, expected = number
  ocsp : isDerSequence request.ocspResponse = true

section Passes

variable {security : XmlSecurity} {vouched : String → Prop} {request : TicBankIdValidationRequest}
  {document : Xml} {certificate number : String}

theorem Passes.report (h : Passes security request document certificate number) :
    validateTic security request (some document) =
      ⟨true, some number, some (security.subject certificate)⟩ := by
  have hmatches : request.expectedPersonalNumber.any (· != number) = false := by
    cases hexpected : request.expectedPersonalNumber with
    | none => rfl
    | some expected => simp [h.expected expected hexpected]
  rw [validateTic, Option.bind_some, h.verified, Option.map_some]
  simp only [evidenceReport, h.visible, h.nonVisible, Bool.and_self, if_true, h.extracted, hmatches,
    Bool.false_eq_true, if_false, h.ocsp]

theorem passes_of_pass {evidence : Option Xml}
    (h : (validateTic security request evidence).pass = true) :
    ∃ document certificate number, evidence = some document ∧
      Passes security request document certificate number := by
  unfold validateTic at h
  cases hverified : evidence.bind fun document =>
      (verifiedCertificate security document).map (document, ·) with
  | none =>
    rw [hverified] at h
    exact nomatch h
  | some verified =>
    obtain ⟨document, certificate⟩ := verified
    rw [hverified] at h
    dsimp only at h
    obtain ⟨document', rfl, hmap⟩ := Option.bind_eq_some_iff.mp hverified
    obtain ⟨certificate', hcertificate, heq⟩ := Option.map_eq_some_iff.mp hmap
    cases heq
    unfold evidenceReport at h
    split at h
    · next hdata =>
      rw [Bool.and_eq_true] at hdata
      split at h
      · exact nomatch h
      · next number hnumber =>
        split at h
        · exact nomatch h
        · next hmatches =>
          refine ⟨document, certificate, number, rfl, hcertificate, hdata.1, hdata.2, hnumber,
            fun expected hexpected => ?_, h⟩
          rw [Option.mem_def.mp hexpected] at hmatches
          simpa using hmatches
    · exact nomatch h

end Passes

/-! ## Evidence that anyone can make -/

section SelfMade

variable {security : XmlSecurity} {vouched : String → Prop} {request : TicBankIdValidationRequest}
  {text : String} {signature : Xml}

theorem nodes_selfMade : (selfMadeEvidence text signature).nodes =
    [selfMadeEvidence text signature, signedContent text, .text text] ++ signature.nodes := by
  simp [selfMadeEvidence, signedContent, Xml.nodes, Xml.descendants, Xml.descendantsOf]

theorem oneSignature_selfMade (hnamed : signature.named XMLSIG_NS "Signature" = true)
    (hinner : signature.descendantsNamed XMLSIG_NS "Signature" = []) :
    oneSignature (selfMadeEvidence text signature) = some signature := by
  have hothers : [selfMadeEvidence text signature, signedContent text, .text text].filter
      (·.named XMLSIG_NS "Signature") = [] := rfl
  have hfilter : (selfMadeEvidence text signature).nodes.filter (·.named XMLSIG_NS "Signature") =
      [signature] := by
    rw [nodes_selfMade, List.filter_append, hothers, Xml.nodes, List.filter_cons_of_pos hnamed]
    exact congrArg (signature :: ·) hinner
  rw [oneSignature, hfilter]

theorem identifiers_selfMade (hids : signature.identifiers evidenceIdAttributes = []) :
    (selfMadeEvidence text signature).identifiers evidenceIdAttributes =
      [("content", signedContent text)] := by
  rw [Xml.identifiers] at hids
  rw [Xml.identifiers, nodes_selfMade, List.flatMap_append, hids]
  rfl

theorem referenceTarget_selfMade (hids : signature.identifiers evidenceIdAttributes = []) :
    referenceTarget (selfMadeEvidence text signature) (some "#content") =
      some (signedContent text) := by
  have hid : referenceId (some "#content") = some "content" := rfl
  rw [referenceTarget, hid, Option.bind_some, Xml.byId, identifiers_selfMade hids]
  rfl

theorem verifiedCertificate_selfMade {certificate : String}
    (hnamed : signature.named XMLSIG_NS "Signature" = true)
    (hinner : signature.descendantsNamed XMLSIG_NS "Signature" = [])
    (hids : signature.identifiers evidenceIdAttributes = [])
    (hread : security.signatures (selfMadeEvidence text signature) signature =
      some ⟨[some "#content"], some certificate, true⟩)
    (htime : security.timeValid certificate = true) :
    verifiedCertificate security (selfMadeEvidence text signature) = some certificate := by
  have hblank : javaIsBlank "content" = false := by decide
  have hunique : uniqueIds (selfMadeEvidence text signature) = true := by
    simp [uniqueIds, identifiers_selfMade hids, hblank]
  have hallowed : evidenceReferencesAllowed (selfMadeEvidence text signature)
      ⟨[some "#content"], some certificate, true⟩ = true := by
    simp [evidenceReferencesAllowed, referenceTarget_selfMade hids]
  rw [verifiedCertificate, oneSignature_selfMade hnamed hinner]
  simp only [Option.bind_eq_bind, Option.bind_some, hread, hunique, hallowed, htime, Bool.and_self,
    if_true]

theorem containsExactOrBase64_of_encoded {data rest : String}
    (htext : ∀ c ∈ text.toList, c ∈ base64Alphabet ∨ c = '=') (h : encoded data <:+: text.toList) :
    containsExactOrBase64 (text ++ rest) data = true := by
  have hspaces : withoutSpaces (text ++ rest).toList =
      text.toList ++ withoutSpaces rest.toList := by
    rw [String.toList_append, withoutSpaces, List.filter_append]
    exact congrArg (· ++ _) (withoutSpaces_of_base64 htext)
  rw [containsExactOrBase64, Bool.or_eq_true, decide_eq_true_eq, decide_eq_true_eq, hspaces]
  exact Or.inr (h.trans (List.infix_append' [] _ _))

theorem passes_selfMade {certificate number : String}
    (hcertificate : verifiedCertificate security (selfMadeEvidence text signature) =
      some certificate)
    (htext : text.toList =
      encoded request.expectedVisibleData ++ encoded request.expectedNonVisibleData)
    (hnumber : personalNumberIn (security.subject certificate) = some number)
    (hexpected : ∀ expected ∈ request.expectedPersonalNumber, expected = number)
    (hocsp : isDerSequence request.ocspResponse = true) :
    Passes security request (selfMadeEvidence text signature) certificate number := by
  have hbase64 : ∀ c ∈ text.toList, c ∈ base64Alphabet ∨ c = '=' := by
    intro c hc
    rw [htext] at hc
    exact (List.mem_append.mp hc).elim (base64Encode_mem c) (base64Encode_mem c)
  have hcontent : (selfMadeEvidence text signature).textContent =
      text ++ signature.textContent := by
    simp [selfMadeEvidence, signedContent, Xml.textContent, Xml.textContents]
  have hcontains : ∀ {data}, encoded data <:+: text.toList →
      containsExactOrBase64 (selfMadeEvidence text signature).textContent data = true := by
    intro data hdata
    rw [hcontent]
    exact containsExactOrBase64_of_encoded hbase64 hdata
  refine ⟨hcertificate, hcontains ?_, hcontains ?_, ?_, hexpected, hocsp⟩
  · rw [htext]
    exact (List.prefix_append _ _).isInfix
  · rw [htext]
    exact (List.suffix_append _ _).isInfix
  · rw [extractPersonalNumber, hnumber, Option.some_or]

/--
Where anyone can sign, a PASS is trustworthy for a request exactly when no evidence passes it at
all: when the OCSP response is not even a DER sequence.
-/
theorem trustworthyFor_iff (h : SelfSigning security vouched)
    (request : TicBankIdValidationRequest) : TrustworthyFor security vouched request ↔
      isDerSequence request.ocspResponse = false := by
  constructor
  · intro htrustworthy
    by_contra hder
    rw [Bool.not_eq_false] at hder
    obtain ⟨number, hlength, hdigits, hexpected⟩ : ∃ number : String, number.length = 12 ∧
        number.toList.all Char.isDigit = true ∧
        ∀ expected ∈ request.expectedPersonalNumber, expected = number := by
      cases hnumber : request.expectedPersonalNumber with
      | none => exact ⟨"191212121212", by decide, by decide, nofun⟩
      | some number =>
        obtain ⟨hlength, hdigits⟩ := request.personalNumber_digits number hnumber
        exact ⟨number, hlength, hdigits, fun expected h => (Option.some.inj h).symm⟩
    obtain ⟨certificate, hsubject, htime, hself, hsign⟩ := h.sign number hdigits
    have htext : (String.ofList (encoded request.expectedVisibleData ++
        encoded request.expectedNonVisibleData)).toList =
          encoded request.expectedVisibleData ++ encoded request.expectedNonVisibleData :=
      String.toList_ofList
    obtain ⟨signature, hnamed, hinner, hids, hread⟩ := hsign _ fun c hc => by
      rw [htext] at hc
      exact (List.mem_append.mp hc).elim (base64Encode_mem c) (base64Encode_mem c)
    have hpasses := passes_selfMade (verifiedCertificate_selfMade hnamed hinner hids hread htime)
      htext (hsubject ▸ personalNumberIn_name hlength hdigits) hexpected hder
    have hfail := htrustworthy.selfMade _ _ certificate
      ⟨rfl, signature, oneSignature_selfMade hnamed hinner, hread⟩ hself
    rw [hpasses.report] at hfail
    exact nomatch hfail
  · intro hder
    have hnever : ∀ {evidence}, (validateTic security request evidence).pass ≠ true := by
      intro evidence hpass
      obtain ⟨_, _, _, -, hpasses⟩ := passes_of_pass hpass
      exact nomatch hder.symm.trans hpasses.ocsp
    exact ⟨fun _ _ _ _ hpass => absurd hpass hnever, fun _ _ _ hpass => absurd hpass hnever,
      fun _ _ _ _ _ => Bool.eq_false_iff.mpr hnever⟩

end SelfMade

/-! ## A signature of something else -/

namespace WrappedEvidence

def issued : String := "BankID"

def contract : String := "Jag godkänner avtal 17"

def signatureWith (certificate : String) : Xml :=
  .element XMLSIG_NS "Signature" [] [
    .element XMLSIG_NS "Reference" [("URI", "#content")] [],
    .element XMLSIG_NS "X509Certificate" [] [.text certificate]]

def referencesIn (element : Xml) : List (Option String) :=
  (element.descendantsNamed XMLSIG_NS "Reference").map (·.findAttribute "URI")

def certificateIn (element : Xml) : Option String :=
  ((element.descendantsNamed XMLSIG_NS "X509Certificate").map (·.textContent)).head?

/-- The key of the person signs the contract only, and with a key of their own anyone signs. -/
def security : XmlSecurity where
  signatures document element := some {
    references := referencesIn element
    certificate := certificateIn element
    valid := certificateIn element != some issued ||
      ((referencesIn element).filterMap (referenceTarget document)).map (·.textContent) ==
        [contract] }
  subject certificate :=
    if certificate = issued then "CN=Anna Andersson" else "CN=" ++ certificate
  timeValid _ := true

theorem selfSigning : SelfSigning security (· = issued) where
  sign number hdigits := by
    have hother : number ≠ issued := by
      rintro rfl
      exact absurd hdigits (by decide)
    have hreferences : referencesIn (signatureWith number) = [some "#content"] := rfl
    have hcertificate : certificateIn (signatureWith number) = some number := by
      show some (number ++ "") = some number
      rw [String.append_empty]
    refine ⟨number, if_neg hother, rfl, hother, fun text _ =>
      ⟨signatureWith number, rfl, rfl, rfl, ?_⟩⟩
    simp [security, hreferences, hcertificate, hother]

def contractWith (note : List Xml) : Xml :=
  .element "" "evidence" [] ([signedContent contract, signatureWith issued] ++ note)

def note : List Xml := [.text "Jag godkänner avtal 18 avtal-18.pdf 191212121212"]

def request : TicBankIdValidationRequest where
  ocspResponse := [0x30, 0x00]
  ocspResponse_size := by decide
  expectedVisibleData := "Jag godkänner avtal 18"
  expectedNonVisibleData := "avtal-18.pdf"
  expectedPersonalNumber := some "191212121212"
  personalNumber_digits := by
    intro number hnumber
    obtain rfl : "191212121212" = number := Option.some.inj hnumber
    decide

def signature : XmlSignature := ⟨[some "#content"], some issued, true⟩

end WrappedEvidence

open WrappedEvidence in
theorem trustworthyFor_iff_wrapped :
    TrustworthyFor WrappedEvidence.security (· = issued) WrappedEvidence.request ↔
      isDerSequence WrappedEvidence.request.ocspResponse = false :=
  trustworthyFor_iff selfSigning WrappedEvidence.request

open WrappedEvidence in
/--
The signature of one contract passes for another one, with the personal number of somebody else,
once both stand behind it.
-/
theorem not_trustworthyFor_wrapped :
    Signed WrappedEvidence.security (contractWith note) WrappedEvidence.signature issued ∧
      validateTic WrappedEvidence.security WrappedEvidence.request (some (contractWith note)) =
        ⟨true, some "191212121212", some "CN=Anna Andersson"⟩ ∧
      ¬ApprovedBy (contractWith note) WrappedEvidence.signature
        WrappedEvidence.request.expectedVisibleData ∧
      SameSignature WrappedEvidence.security (contractWith []) (contractWith note) ∧
      (validateTic WrappedEvidence.security WrappedEvidence.request (some (contractWith []))).pass =
        false ∧
      ¬TrustworthyFor WrappedEvidence.security (· = issued) WrappedEvidence.request := by
  have hsigned : Signed WrappedEvidence.security (contractWith note) WrappedEvidence.signature
      issued := ⟨rfl, signatureWith issued, rfl, by decide +kernel⟩
  have hpass : validateTic WrappedEvidence.security WrappedEvidence.request
      (some (contractWith note)) = ⟨true, some "191212121212", some "CN=Anna Andersson"⟩ := by
    decide +kernel
  have hunsigned : ¬ApprovedBy (contractWith note) WrappedEvidence.signature
      WrappedEvidence.request.expectedVisibleData := by
    decide +kernel
  have hsame : SameSignature WrappedEvidence.security (contractWith []) (contractWith note) :=
    ⟨signatureWith issued, WrappedEvidence.signature, rfl, rfl, by decide +kernel,
      by decide +kernel, rfl⟩
  refine ⟨hsigned, hpass, hunsigned, hsame, by decide +kernel, fun htrustworthy => ?_⟩
  exact hunsigned (htrustworthy.identifies _ _ _ hsigned (hpass ▸ rfl)).visible

end Kommunsign
