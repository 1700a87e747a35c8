import Kommunsign.Evidence.Package
import Kommunsign.Infra.Pdf

/-!
# The signing receipt

* `createReceiptPdf_file` — the file as it is written, with the offsets of its objects
* `createReceiptPdf_wellFormed` — it is a file of PDF, and the inputs stand in literal strings only
-/

namespace Kommunsign

open Infra

/-! ## The table -/

/-- The bytes of an object that is written. -/
def objectBytes (object : Text × ℕ) : List UInt8 := Pdf.object (object.2 + 1) (utf8 object.1)

theorem utf8_pdfObject (content : Text) (index : ℕ) :
    utf8 (pdfObject (index + 1) content) = objectBytes (content, index) := by
  simp only [pdfObject, objectBytes, Pdf.object, Pdf.decimal, Pdf.ascii, Pdf.utf8_append]

/-- An object stands at its offset. -/
def StandsAt (bytes : List UInt8) (offset : ℕ) (object : Text × ℕ) : Prop :=
  offset ≤ bytes.length ∧ objectBytes object <+: bytes.drop offset

theorem StandsAt.append {bytes : List UInt8} {offset : ℕ} {object : Text × ℕ}
    (h : StandsAt bytes offset object) (more : List UInt8) :
    StandsAt (bytes ++ more) offset object := by
  obtain ⟨hle, hprefix⟩ := h
  refine ⟨by rw [List.length_append]; omega, ?_⟩
  rw [List.drop_append_of_le_length hle]
  exact hprefix.trans (List.prefix_append _ _)

/-- The objects as they are written so far. -/
structure Written (objects : List (Text × ℕ)) (written : List ℕ × Text) : Prop where
  header : Pdf.ascii "%PDF-1.4\n" <+: utf8 written.2
  offsets : List.Forall₂ (StandsAt (utf8 written.2)) written.1 objects

theorem written_append {objects : List (Text × ℕ)} {written : List ℕ × Text}
    (h : Written objects written) (object : Text × ℕ) :
    Written (objects ++ [object]) (written.1 ++ [(utf8 written.2).length],
      written.2 ++ pdfObject (object.2 + 1) object.1) := by
  have hbytes : utf8 (written.2 ++ pdfObject (object.2 + 1) object.1) =
      utf8 written.2 ++ objectBytes object := by
    rw [Pdf.utf8_append, utf8_pdfObject]
  constructor
  · rw [hbytes]
    exact h.header.trans (List.prefix_append _ _)
  · rw [hbytes]
    refine List.rel_append (h.offsets.imp fun _ _ hs => hs.append _) ?_
    refine List.Forall₂.cons ⟨(List.prefix_append _ _).length_le, ?_⟩ List.Forall₂.nil
    rw [List.drop_left]

theorem written_pdfObjects (objects : List Text) :
    Written objects.zipIdx (pdfObjects objects) := by
  -- by induction on the objects to come, for whatever is written before them
  have hfoldl : ∀ (more before : List (Text × ℕ)) (written : List ℕ × Text),
      Written before written → Written (before ++ more)
        (more.foldl (fun written object => (written.1 ++ [(utf8 written.2).length],
          written.2 ++ pdfObject (object.2 + 1) object.1)) written) := by
    intro more
    induction more with
    | nil =>
      intro before written h
      rw [List.append_nil]
      exact h
    | cons object more ih =>
      intro before written h
      rw [List.foldl_cons, List.append_cons]
      exact ih _ _ (written_append h object)
  exact hfoldl objects.zipIdx [] _ ⟨List.prefix_rfl, List.Forall₂.nil⟩

def receiptLines (title reference organization : Text) (signerCount : ℕ) (signedAt : Text) :
    List Text :=
  ["Kommunsign signeringskvitto".toList, "Organisation: ".toList ++ organization,
    "Ärende: ".toList ++ reference, "Titel: ".toList ++ title,
    "Antal verifierade signerare: ".toList ++ Nat.toDigits 10 signerCount,
    "Senast verifierad: ".toList ++ signedAt,
    "Detta kvitto är inte den signerade originalhandlingen.".toList]

def receiptObjects (content : Text) : List Text :=
  ["<< /Type /Catalog /Pages 2 0 R >>".toList,
    "<< /Type /Pages /Kids [3 0 R] /Count 1 >>".toList,
    "<< /Type /Page /Parent 2 0 R /MediaBox [0 0 595 842] /Resources << /Font << /F1 5 0 R >> >> ".toList
      ++ "/Contents 4 0 R >>".toList,
    "<< /Length ".toList ++ Nat.toDigits 10 (utf8 content).length ++ " >>\nstream\n".toList ++
      content ++ "\nendstream".toList,
    "<< /Type /Font /Subtype /Type1 /BaseFont /Helvetica >>".toList]

theorem isFile_pdfObjects (objects : List Text) :
    Pdf.IsFile (utf8 ((pdfObjects objects).2 ++ "xref\n0 ".toList ++
      Nat.toDigits 10 (objects.length + 1) ++ "\n0000000000 65535 f \n".toList ++
      ((pdfObjects objects).1.flatMap fun offset => padStart 10 offset ++ " 00000 n \n".toList) ++
      "trailer\n<< /Size ".toList ++ Nat.toDigits 10 (objects.length + 1) ++
      " /Root 1 0 R >>\nstartxref\n".toList ++
      Nat.toDigits 10 (utf8 (pdfObjects objects).2).length ++ "\n%%EOF\n".toList))
      (objects.map utf8) := by
  obtain ⟨hheader, hoffsets⟩ := written_pdfObjects objects
  generalize pdfObjects objects = written at *
  obtain ⟨offsets, pdf⟩ := written
  have hlength : offsets.length = objects.length := by
    rw [hoffsets.length_eq, List.length_zipIdx]
  have hentries : utf8 (offsets.flatMap fun offset => padStart 10 offset ++ " 00000 n \n".toList) =
      offsets.flatMap Pdf.entry := by
    rw [Pdf.utf8_flatMap]
    simp only [Pdf.utf8_append]
    rfl
  refine ⟨offsets, utf8 pdf, hheader, ?_, ?_⟩
  · simp only [Pdf.utf8_append, hentries, Pdf.table, Pdf.trailer, Pdf.decimal, Pdf.ascii, hlength,
      List.append_assoc]
  · rw [List.zipIdx_map, List.forall₂_map_right_iff]
    refine hoffsets.imp fun offset object hs => ⟨?_, fun hshort => Pdf.length_entry ?_⟩
    · simp only [Pdf.utf8_append, List.append_assoc]
      exact (hs.append _).2
    · have hoffset : offset ≤ (utf8 pdf).length := hs.1
      simp only [Pdf.utf8_append, List.length_append] at hshort
      omega

theorem createReceiptPdf_file (title reference organization : Text) (signerCount : ℕ)
    (signedAt : Text) :
    Pdf.IsFile (createReceiptPdf title reference organization signerCount signedAt)
      ((receiptObjects (receiptContent ((receiptLines title reference organization signerCount
        signedAt).map escapePdf))).map utf8) :=
  isFile_pdfObjects (receiptObjects _)

/-! ## The content -/

/-- What a line appends to the content, after the first with a move to the next line. -/
def lineContent (line : Text × ℕ) : Text :=
  (if line.2 = 0 then [] else "0 -22 Td ".toList) ++ '(' :: escapePdf line.1 ++ ") Tj ".toList

/-- The tokens of a line. -/
def lineTokens (line : Text × ℕ) : List Pdf.Token :=
  (if line.2 = 0 then []
    else [.word (Pdf.ascii "0"), .word (Pdf.ascii "-22"), .word (Pdf.ascii "Td")]) ++
    [.literal (utf8 line.1), .word (Pdf.ascii "Tj")]

/-- The drawing operators, the same for all texts, with the texts in literal strings. -/
def receiptTokens (lines : List Text) : List Pdf.Token :=
  ["BT", "/F1", "12", "Tf", "50", "790", "Td"].map (fun word => .word (Pdf.ascii word)) ++
    lines.zipIdx.flatMap lineTokens ++ [.word (Pdf.ascii "ET")]

theorem lex_lineContent (line : Text × ℕ) :
    Pdf.lex .blank (utf8 (lineContent line)) = some (lineTokens line, .blank) := by
  have hmove : Pdf.lex .blank (utf8 (if line.2 = 0 then [] else "0 -22 Td ".toList)) =
      some (if line.2 = 0 then []
        else [.word (Pdf.ascii "0"), .word (Pdf.ascii "-22"), .word (Pdf.ascii "Td")],
        .blank) := by
    by_cases hindex : line.2 = 0
    · rw [if_pos hindex, if_pos hindex]
      rfl
    · rw [if_neg hindex, if_neg hindex]
      decide
  have hopen : Pdf.lex .blank (utf8 ['(']) = some ([], .literal []) := by decide
  have hclose : Pdf.lex (.literal (utf8 line.1)) (utf8 ") Tj ".toList) =
      some ([.literal (utf8 line.1), .word (Pdf.ascii "Tj")], .blank) := by rfl
  have hliteral := Pdf.lex_append (Pdf.lex_append (Pdf.lex_append hmove hopen)
    (Pdf.lex_escapeLiteral line.1 [])) hclose
  have hbytes : utf8 (lineContent line) =
      utf8 (if line.2 = 0 then [] else "0 -22 Td ".toList) ++ utf8 ['('] ++
        utf8 (Pdf.escapeLiteral line.1) ++ utf8 ") Tj ".toList := by
    rw [lineContent, ← List.singleton_append]
    simp only [Pdf.utf8_append, List.append_assoc]
    rfl
  rw [hbytes, hliteral, lineTokens]
  simp only [List.append_nil]

theorem lex_lines (lines : List (Text × ℕ)) :
    Pdf.lex .blank (utf8 (lines.flatMap lineContent)) =
      some (lines.flatMap lineTokens, .blank) := by
  induction lines with
  | nil => rfl
  | cons line lines ih =>
    rw [List.flatMap_cons, Pdf.utf8_append, Pdf.lex_append (lex_lineContent line) ih]
    rfl

theorem tokens_receiptContent (lines : List Text) :
    Pdf.tokens (utf8 (receiptContent (lines.map escapePdf))) = some (receiptTokens lines) := by
  have hstart : Pdf.lex .blank (utf8 "BT /F1 12 Tf 50 790 Td ".toList) =
      some (["BT", "/F1", "12", "Tf", "50", "790", "Td"].map (fun word => .word (Pdf.ascii word)),
        .blank) := by decide +kernel
  have hend : Pdf.lex .blank (utf8 "ET".toList) = some ([], .word (Pdf.ascii "ET")) := by decide
  have hcontent : receiptContent (lines.map escapePdf) =
      "BT /F1 12 Tf 50 790 Td ".toList ++ lines.zipIdx.flatMap lineContent ++ "ET".toList := by
    refine congrArg (fun middle => "BT /F1 12 Tf 50 790 Td ".toList ++ middle ++ "ET".toList) ?_
    rw [List.zipIdx_map, List.flatMap_map]
    rfl
  rw [hcontent, Pdf.utf8_append, Pdf.utf8_append, Pdf.tokens,
    Pdf.lex_append (Pdf.lex_append hstart (lex_lines lines.zipIdx)) hend, List.append_nil]
  rfl

/--
Whatever the texts are, every object is where the table of the receipt says, its content is as long
as it says, and the content is the same drawing operators, with the texts in literal strings.
-/
theorem createReceiptPdf_wellFormed (title reference organization : Text) (signerCount : ℕ)
    (signedAt : Text) : ∃ content : List UInt8,
      Pdf.IsFile (createReceiptPdf title reference organization signerCount signedAt)
        [Pdf.ascii "<< /Type /Catalog /Pages 2 0 R >>",
          Pdf.ascii "<< /Type /Pages /Kids [3 0 R] /Count 1 >>",
          Pdf.ascii ("<< /Type /Page /Parent 2 0 R /MediaBox [0 0 595 842] " ++
            "/Resources << /Font << /F1 5 0 R >> >> /Contents 4 0 R >>"),
          Pdf.stream content,
          Pdf.ascii "<< /Type /Font /Subtype /Type1 /BaseFont /Helvetica >>"] ∧
        Pdf.tokens content =
          some (receiptTokens
            (receiptLines title reference organization signerCount signedAt)) := by
  have hfile := createReceiptPdf_file title reference organization signerCount signedAt
  generalize receiptLines title reference organization signerCount signedAt = lines at *
  refine ⟨utf8 (receiptContent (lines.map escapePdf)), ?_, tokens_receiptContent lines⟩
  generalize receiptContent (lines.map escapePdf) = content at *
  have hstream : utf8 ("<< /Length ".toList ++ Nat.toDigits 10 (utf8 content).length ++
      " >>\nstream\n".toList ++ content ++ "\nendstream".toList) = Pdf.stream (utf8 content) := by
    simp only [Pdf.utf8_append, Pdf.stream, Pdf.ascii, Pdf.decimal]
  have hpage : "<< /Type /Page /Parent 2 0 R /MediaBox [0 0 595 842] /Resources << /Font << /F1 5 0 R >> >> ".toList
      ++ "/Contents 4 0 R >>".toList = ("<< /Type /Page /Parent 2 0 R /MediaBox [0 0 595 842] " ++
        "/Resources << /Font << /F1 5 0 R >> >> /Contents 4 0 R >>").toList := by
    rw [← String.toList_append]
    exact congrArg String.toList (by decide)
  rw [receiptObjects, hpage, List.map_cons, List.map_cons, List.map_cons, List.map_cons, hstream] at hfile
  exact hfile

end Kommunsign
