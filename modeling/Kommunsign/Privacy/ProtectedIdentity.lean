import Kommunsign.Data.Rows
import Kommunsign.Data.Texts

/-!
# Skyddade personuppgifter

What of a person may leave the system, by the level of their protection and the channel. An unknown
level is the strictest one, and a disclosure that nobody allowed is redacted.

* `rulesFor` — the fields that a level allows on a channel, and those that need an assessment
* `decideDisclosure` — the decision for one request
-/

namespace Kommunsign

open Infra

inductive ProtectionLevel where
  | NONE
  | SEKRETESSMARKERING
  | SKYDDAD_FOLKBOKFORING
  | FINGERADE_PERSONUPPGIFTER
  deriving DecidableEq, Repr

inductive OutputChannel where
  | SCREEN_AUTHORISED
  | SCREEN_COLLEAGUE
  | SEARCH_RESULT
  | NOTIFICATION_EMAIL_BODY
  | NOTIFICATION_EMAIL_SUBJECT
  | DOCUMENT_VISIBLE_TEXT
  | EVIDENCE_PACKAGE
  | ARCHIVE_EXPORT
  | APPLICATION_LOG
  | AUDIT_LOG
  | SUPPORT_TOOLING
  | ANALYTICS
  | URL
  deriving DecidableEq, Repr

inductive ProtectedField where
  | personalNumber
  | fullName
  | address
  | emailAddress
  | phoneNumber
  | organisationalUnit
  deriving DecidableEq, Repr

def ProtectedField.all : List ProtectedField :=
  [.personalNumber, .fullName, .address, .emailAddress, .phoneNumber, .organisationalUnit]

/-- A level that nobody knows is the strictest. -/
def normaliseProtectionLevel (value : Option Text) : ProtectionLevel :=
  match value with
  | none => .NONE
  | some s =>
    if s = "NONE".toList then .NONE
    else if s = "SEKRETESSMARKERING".toList then .SEKRETESSMARKERING
    else if s = "SKYDDAD_FOLKBOKFORING".toList then .SKYDDAD_FOLKBOKFORING
    else .FINGERADE_PERSONUPPGIFTER

structure ChannelRule where
  allowed : List ProtectedField
  requiresAssessment : List ProtectedField

/-- Channels that carry no identifying field at any level. -/
def neverIdentifying : List OutputChannel := [.APPLICATION_LOG, .ANALYTICS, .URL]

def identifyingOnly : List ProtectedField := [.fullName, .personalNumber]

def rulesFor (level : ProtectionLevel) (channel : OutputChannel) : ChannelRule :=
  if channel ∈ neverIdentifying then ⟨[], []⟩
  else
    match level with
    | .NONE => ⟨ProtectedField.all, []⟩
    | .SEKRETESSMARKERING =>
      match channel with
      | .SCREEN_AUTHORISED | .SUPPORT_TOOLING => ⟨[], ProtectedField.all⟩
      | .EVIDENCE_PACKAGE | .AUDIT_LOG => ⟨identifyingOnly, []⟩
      | .SCREEN_COLLEAGUE | .SEARCH_RESULT | .NOTIFICATION_EMAIL_BODY | .DOCUMENT_VISIBLE_TEXT
      | .ARCHIVE_EXPORT => ⟨[], identifyingOnly⟩
      | _ => ⟨[], []⟩
    | .SKYDDAD_FOLKBOKFORING =>
      match channel with
      | .EVIDENCE_PACKAGE | .AUDIT_LOG => ⟨identifyingOnly, []⟩
      | .SCREEN_AUTHORISED => ⟨[], identifyingOnly⟩
      | _ => ⟨[], []⟩
    | .FINGERADE_PERSONUPPGIFTER => ⟨[], []⟩

structure ConfidentialityAssessment where
  tenantId : Text
  subjectId : Text
  expiresAt : Time
  ground : Text
  deriving DecidableEq

structure DisclosureRequest where
  tenantId : Text
  subjectId : Text
  level : ProtectionLevel
  channel : OutputChannel
  fields : List ProtectedField
  assessment : Option ConfidentialityAssessment
  now : Time

/-- An assessment counts for the person it is about, with a ground, until it expires. -/
def DisclosureRequest.assessmentValid (request : DisclosureRequest) : Bool :=
  request.assessment.any fun assessment =>
    assessment.tenantId == request.tenantId && assessment.subjectId == request.subjectId &&
      trim assessment.ground != [] && request.now < assessment.expiresAt

structure DisclosureDecision where
  disclosed : List ProtectedField
  redacted : List ProtectedField

def decideDisclosure (request : DisclosureRequest) : DisclosureDecision :=
  let rule := rulesFor request.level request.channel
  let discloses (field : ProtectedField) : Bool :=
    rule.allowed.contains field ||
      (request.assessmentValid && rule.requiresAssessment.contains field)
  { disclosed := request.fields.filter discloses
    redacted := request.fields.filter fun field => !discloses field }

/-- `1985••••-0001` for twelve digits. -/
def maskSwedishPersonalNumber (normalized : Text) : Option Text :=
  if normalized.length = 12 ∧ normalized.all Char.isDigit then
    some (normalized.take 4 ++ "••••-".toList ++ normalized.drop 8)
  else none

def redactedPlaceholder : ProtectedField → Text
  | .personalNumber => "Skyddad uppgift".toList
  | .fullName => "Skyddad identitet".toList
  | .address => "Skyddad adress".toList
  | .emailAddress => "Skyddad e-postadress".toList
  | .phoneNumber => "Skyddat telefonnummer".toList
  | .organisationalUnit => "Skyddad organisationstillhörighet".toList

/-- How strictly a level protects a person. -/
def ProtectionLevel.rank : ProtectionLevel → Nat
  | .NONE => 0
  | .SEKRETESSMARKERING => 1
  | .SKYDDAD_FOLKBOKFORING => 2
  | .FINGERADE_PERSONUPPGIFTER => 3

end Kommunsign
