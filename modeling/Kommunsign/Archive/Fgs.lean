import Kommunsign.Archive.Package

/-!
# The descriptor of an FGS package

`sip.xml` repeats the entries of the manifest for a receiving archive. It reads nothing but the
package and the names of the agents.

* `escapeXml`, `attributeText` — texts in elements and attributes
* `buildFgsPackage` — the descriptor of a package
-/

namespace Kommunsign

open Infra

structure FgsAgents where
  archivist : Text
  creator : Text
  submitter : Text
  producingSoftware : Text
  producingSoftwareVersion : Text
  deriving DecidableEq

def metsNamespace : Text := "http://www.loc.gov/METS/".toList
def extensionNamespace : Text := "ExtensionMETS".toList
def xlinkNamespace : Text := "http://www.w3.org/1999/xlink".toList
def xsiNamespace : Text := "http://www.w3.org/2001/XMLSchema-instance".toList
def schemaLocation : Text :=
  ("http://www.loc.gov/METS/ http://xml.ra.se/e-arkiv/METS/CSPackageMETS.xsd " ++
    "ExtensionMETS http://xml.ra.se/e-arkiv/METS/CSPackageExtensionMETS.xsd").toList
def fgsProfileUri : Text :=
  "http://xml.ra.se/e-arkiv/METS/CommonSpecificationSwedenPackageProfile.xml".toList
def fgsPackageDescriptor : Text := "sip.xml".toList

/-! ## Texts -/

/-- Control characters other than tab, newline and carriage return. -/
def isXmlControl (c : Char) : Bool :=
  c.toNat ≤ 0x08 || c.toNat = 0x0B || c.toNat = 0x0C || (0x0E ≤ c.toNat && c.toNat ≤ 0x1F) ||
    c.toNat = 0x7F

def escapeXml (value : Text) : Text :=
  value.flatMap fun c =>
    if c = '&' then "&amp;".toList
    else if c = '<' then "&lt;".toList
    else if c = '>' then "&gt;".toList
    else if isXmlControl c then []
    else [c]

/-- `attribute` -/
def attributeText (value : Text) : Text :=
  (escapeXml value).flatMap fun c => if c = '"' then "&quot;".toList else [c]

/-- `text` -/
def elementText (value : Text) : Text := escapeXml value

def agent (role type name : Text) : Text :=
  "    <mets:agent ROLE=\"".toList ++ attributeText role ++ "\" TYPE=\"".toList ++
    attributeText type ++ "\"><mets:name>".toList ++ elementText name ++
    "</mets:name></mets:agent>".toList

def agentOther (role otherRole type name : Text) : Text :=
  "    <mets:agent ROLE=\"".toList ++ attributeText role ++ "\" OTHERROLE=\"".toList ++
    attributeText otherRole ++ "\" TYPE=\"".toList ++ attributeText type ++
    "\"><mets:name>".toList ++ elementText name ++ "</mets:name></mets:agent>".toList

/-- A value in the shape of a UUID, from the path and the digest of a file. -/
def deterministicIdentifier (sha256Hex : Bytes → Text) (path sha256 : Text) : Text :=
  let digest := sha256Hex (utf8 (path ++ ' ' :: sha256))
  let hex := ((digest.take 32).set 12 '5').set 16 '8'
  hex.take 8 ++ '-' :: (hex.drop 8).take 4 ++ '-' :: (hex.drop 12).take 4 ++
    '-' :: (hex.drop 16).take 4 ++ '-' :: (hex.drop 20).take 12

def usage : ArchiveCategory → Text
  | .content => "Datafile".toList
  | .metadata => "Metadata".toList
  | .evidence => "Evidence".toList

/-! ## The descriptor -/

def requireAgent (value : Text) (field : String) : Except ArchiveError Unit :=
  if trim value = [] then
    .error ⟨.ARCHIVE_PROFILE_NOT_VERIFIED,
      "FGS package requires an agent name for ".toList ++ field.toList⟩
  else .ok ()

def entryId (sha256Hex : Bytes → Text) (entry : ArchiveManifestEntry) : Text :=
  "ID".toList ++ deterministicIdentifier sha256Hex entry.path entry.sha256

def headerLines (manifest : ArchiveManifest) (agents : FgsAgents) : List Text := [
  "<?xml version=\"1.0\" encoding=\"UTF-8\"?>".toList,
  "<mets:mets xmlns:mets=\"".toList ++ metsNamespace ++ "\" xmlns:ext=\"".toList ++
    extensionNamespace ++ "\" xmlns:xlink=\"".toList ++ xlinkNamespace ++ "\" xmlns:xsi=\"".toList ++
    xsiNamespace ++ "\" xsi:schemaLocation=\"".toList ++ schemaLocation ++
    "\" OBJID=\"UUID:".toList ++ attributeText manifest.signatureCaseId ++ "\" LABEL=\"".toList ++
    attributeText manifest.title ++ "\" TYPE=\"Archival information\" PROFILE=\"".toList ++
    fgsProfileUri ++ "\">".toList,
  "  <mets:metsHdr CREATEDATE=\"".toList ++ attributeText manifest.closedAt ++
    "\" RECORDSTATUS=\"NEW\" ext:OAISSTATUS=\"SIP\">".toList,
  agent "ARCHIVIST".toList "ORGANIZATION".toList agents.archivist,
  agent "CREATOR".toList "ORGANIZATION".toList agents.creator,
  agentOther "OTHER".toList "SUBMITTER".toList "ORGANIZATION".toList agents.submitter,
  "    <mets:agent ROLE=\"CREATOR\" TYPE=\"OTHER\" OTHERTYPE=\"SOFTWARE\"><mets:name>".toList ++
    elementText agents.producingSoftware ++ "</mets:name><mets:note>".toList ++
    elementText agents.producingSoftwareVersion ++ "</mets:note></mets:agent>".toList,
  "    <mets:altRecordID TYPE=\"REFERENCECODE\">".toList ++ elementText manifest.reference ++
    "</mets:altRecordID>".toList,
  "    <mets:metsDocumentID>".toList ++ fgsPackageDescriptor ++ "</mets:metsDocumentID>".toList,
  "  </mets:metsHdr>".toList]

def provenanceLines (archive : ArchivePackage) : List Text := [
  "  <mets:amdSec ID=\"IDamdSec\">".toList,
  "    <mets:digiprovMD ID=\"IDprovenance\">".toList,
  "      <mets:mdWrap MDTYPE=\"OTHER\" OTHERMDTYPE=\"COMMENT\">".toList,
  "        <mets:xmlData>".toList,
  "          <ext:provenance xmlns:ext=\"".toList ++ extensionNamespace ++
    "\" manifestSchema=\"".toList ++ attributeText archive.manifest.schema ++
    "\" manifestSha256=\"".toList ++ attributeText archive.manifestSha256 ++
    "\" regulation=\"".toList ++ attributeText archive.manifest.regulation ++
    "\" auditTrailSha256=\"".toList ++ attributeText archive.manifest.auditTrailSha256 ++
    "\" decisionMode=\"".toList ++ attributeText archive.manifest.decisionMode ++
    "\" reference=\"".toList ++ attributeText archive.manifest.reference ++ "\"/>".toList,
  "        </mets:xmlData>".toList,
  "      </mets:mdWrap>".toList,
  "    </mets:digiprovMD>".toList,
  "  </mets:amdSec>".toList]

def fileLines (sha256Hex : Bytes → Text) (closedAt : Text) (entry : ArchiveManifestEntry) :
    List Text := [
  "      <mets:file ID=\"".toList ++ attributeText (entryId sha256Hex entry) ++
    "\" MIMETYPE=\"".toList ++ attributeText entry.mediaType ++ "\" SIZE=\"".toList ++
    (toString entry.bytes).toList ++ "\" CREATED=\"".toList ++ attributeText closedAt ++
    "\" USE=\"".toList ++ attributeText (usage entry.category) ++ "\" CHECKSUM=\"".toList ++
    attributeText entry.sha256 ++ "\" CHECKSUMTYPE=\"SHA-256\">".toList,
  "        <mets:FLocat LOCTYPE=\"URL\" xlink:href=\"".toList ++
    attributeText ("file:///".toList ++ entry.path) ++ "\" xlink:type=\"simple\"/>".toList,
  "      </mets:file>".toList]

def pointerLine (sha256Hex : Bytes → Text) (entry : ArchiveManifestEntry) : Text :=
  "      <mets:fptr FILEID=\"".toList ++ attributeText (entryId sha256Hex entry) ++ "\"/>".toList

def descriptorText (sha256Hex : Bytes → Text) (archive : ArchivePackage) (agents : FgsAgents) :
    Text :=
  ['\n'].intercalate (headerLines archive.manifest agents ++ provenanceLines archive ++
    ["  <mets:fileSec>".toList, "    <mets:fileGrp>".toList] ++
    archive.manifest.entries.flatMap (fileLines sha256Hex archive.manifest.closedAt) ++
    ["    </mets:fileGrp>".toList, "  </mets:fileSec>".toList,
      "  <mets:structMap LABEL=\"Profilestructmap\">".toList, "    <mets:div>".toList] ++
    archive.manifest.entries.map (pointerLine sha256Hex) ++
    ["    </mets:div>".toList, "  </mets:structMap>".toList, "</mets:mets>".toList, []])

/-- The descriptor at the root of the package. -/
def descriptorFile (sha256Hex : Bytes → Text) (archive : ArchivePackage) (agents : FgsAgents) :
    EvidenceFile :=
  ⟨fgsPackageDescriptor, utf8 (descriptorText sha256Hex archive agents), "text/xml".toList⟩

def buildFgsPackage (sha256Hex : Bytes → Text) (archive : ArchivePackage) (agents : FgsAgents) :
    Except ArchiveError EvidenceFile := do
  if archive.manifest.entries = [] then
    throw ⟨.ARCHIVE_DOCUMENT_MISSING, "An FGS package must reference at least one file".toList⟩
  requireAgent agents.archivist "archivist"
  requireAgent agents.creator "creator"
  requireAgent agents.submitter "submitter"
  requireAgent agents.producingSoftware "producingSoftware"
  return descriptorFile sha256Hex archive agents

/-- The agents that have to be named. -/
def FgsAgents.Named (agents : FgsAgents) : Prop :=
  trim agents.archivist ≠ [] ∧ trim agents.creator ≠ [] ∧ trim agents.submitter ≠ [] ∧
    trim agents.producingSoftware ≠ []

theorem buildFgsPackage_eq_ok {sha256Hex : Bytes → Text} {archive : ArchivePackage}
    {agents : FgsAgents} {descriptor : EvidenceFile} :
    buildFgsPackage sha256Hex archive agents = .ok descriptor ↔
      archive.manifest.entries ≠ [] ∧ agents.Named ∧
        descriptorFile sha256Hex archive agents = descriptor := by
  have hagent : ∀ value field, requireAgent value field = .ok () ↔ trim value ≠ [] := by
    intro value field
    exact except_if_error_eq_ok
  unfold buildFgsPackage
  rw [except_guard_eq_ok, except_check_eq_ok, except_check_eq_ok, except_check_eq_ok,
    except_check_eq_ok, hagent, hagent, hagent, hagent]
  constructor
  · rintro ⟨hentries, harchivist, hcreator, hsubmitter, hsoftware, heq⟩
    exact ⟨hentries, ⟨harchivist, hcreator, hsubmitter, hsoftware⟩, Except.ok.inj heq⟩
  · rintro ⟨hentries, ⟨harchivist, hcreator, hsubmitter, hsoftware⟩, rfl⟩
    exact ⟨hentries, harchivist, hcreator, hsubmitter, hsoftware, rfl⟩

end Kommunsign
