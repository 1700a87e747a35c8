import Mathlib.Data.Prod.Lex
import Kommunsign.Data.Contracts
import Kommunsign.Data.Status
import Kommunsign.Infra.Json
import Kommunsign.Infra.Keyset
import Kommunsign.Privacy.Requests

/-!
# The listings that are paged by a cursor

Cases, events, templates and privacy requests are listed page by page. A cursor names the row that
a page ended in; the query behind it asks for the rows after that one. The database keeps a time in
microseconds, and a cursor that passes through a JavaScript date keeps whole milliseconds of it.

* `iso`, `timestamptz` — a time on its way into a cursor and back into a query
* `listCases`, `listEvents`, `listTemplates`, `listRequests` — the four listings
-/

namespace Kommunsign

open Infra

/-! ## Times -/

/-- A JavaScript date keeps whole milliseconds of a time in microseconds. -/
def iso (timestamp : Int) : Int := timestamp / 1000

/-- The text of a date, cast back to a time of the database. -/
def timestamptz (instant : Int) : Int := instant * 1000

theorem timestamptz_iso_le (timestamp : Int) : timestamptz (iso timestamp) ≤ timestamp := by
  unfold timestamptz iso
  omega

/-! ## Pages -/

structure PageInput (γ : Type) where
  limit : Int
  cursor : Option γ

/-- `MAX_LIMIT` -/
def maxLimit : Nat := 200

def pageLimit {γ : Type} (page : PageInput γ) : Except String Nat :=
  if page.limit < 1 then throw "PAGE_LIMIT_INVALID" else return min page.limit.toNat maxLimit

/-- What the base64url text of a cursor spells. -/
inductive Cursor (τ : Type) where
  | case (createdAt : Int) (id : UUID)
  | event (occurredAt : Int) (id : UUID)
  | template (templateKey locale : τ) (version : Int) (id : UUID)
  deriving DecidableEq

/-- A date and an id, as the queries of `listCases` and `listEvents` take them. -/
structure DateCursor where
  instant : Int
  id : RowId
  deriving DecidableEq

structure TemplateCursor (τ : Type) where
  templateKey : τ
  locale : τ
  version : Int
  id : RowId
  deriving DecidableEq

/-- The id of a cursor is checked before it reaches a query. -/
def decodeId (id : UUID) : Except String RowId :=
  if h : isUuid id = true then return ⟨id, h⟩ else throw "PAGE_CURSOR_INVALID"

@[simp] theorem decodeId_value (id : RowId) : decodeId id.value = .ok id := by
  simp [decodeId, id.valid, pure, Except.pure]

section Cursors

variable {τ : Type}

def decodeCaseCursor : Cursor τ → Except String DateCursor
  | .case createdAt id => do return ⟨createdAt, ← decodeId id⟩
  | _ => throw "PAGE_CURSOR_INVALID"

def decodeEventCursor : Cursor τ → Except String DateCursor
  | .event occurredAt id => do return ⟨occurredAt, ← decodeId id⟩
  | _ => throw "PAGE_CURSOR_INVALID"

def decodeTemplateCursor : Cursor τ → Except String (TemplateCursor τ)
  | .template templateKey locale version id => do
    return ⟨templateKey, locale, version, ← decodeId id⟩
  | _ => throw "PAGE_CURSOR_INVALID"

def DateCursor.encodeCase (cursor : DateCursor) : Cursor τ := .case cursor.instant cursor.id.value

def DateCursor.encodeEvent (cursor : DateCursor) : Cursor τ := .event cursor.instant cursor.id.value

def TemplateCursor.encode (cursor : TemplateCursor τ) : Cursor τ :=
  .template cursor.templateKey cursor.locale cursor.version cursor.id.value

@[simp] theorem decodeCaseCursor_encode (cursor : DateCursor) :
    decodeCaseCursor (cursor.encodeCase : Cursor τ) = .ok cursor := by
  simp [decodeCaseCursor, DateCursor.encodeCase, bind, Except.bind, pure, Except.pure]

@[simp] theorem decodeEventCursor_encode (cursor : DateCursor) :
    decodeEventCursor (cursor.encodeEvent : Cursor τ) = .ok cursor := by
  simp [decodeEventCursor, DateCursor.encodeEvent, bind, Except.bind, pure, Except.pure]

@[simp] theorem decodeTemplateCursor_encode (cursor : TemplateCursor τ) :
    decodeTemplateCursor cursor.encode = .ok cursor := by
  simp [decodeTemplateCursor, TemplateCursor.encode, bind, Except.bind, pure, Except.pure]

end Cursors

/-! ## Newest first -/

/-- The key of `order by time desc, id desc`. -/
abbrev Newest := (Int ×ₗ RowId)ᵒᵈ

def newest (time : Int) (id : RowId) : Newest := OrderDual.toDual (toLex (time, id))

theorem newest_lt {time time' : Int} {id id' : RowId} :
    newest time id < newest time' id' ↔ time' < time ∨ time' = time ∧ id' < id := by
  rw [newest, newest, OrderDual.toDual_lt_toDual, Prod.Lex.toLex_lt_toLex]

theorem newest_le {time time' : Int} {id id' : RowId} :
    newest time id ≤ newest time' id' ↔ time' < time ∨ time' = time ∧ id' ≤ id := by
  rw [newest, newest, OrderDual.toDual_le_toDual, Prod.Lex.toLex_le_toLex]

/-- `(time,id) < ($2::timestamptz,$3::uuid)`, newest rows first. -/
def newestFirst {ρ : Type} (time : ρ → Int) (id : ρ → RowId) : Keyset ρ Newest DateCursor where
  key row := newest (time row) (id row)
  passes cursor row :=
    time row < timestamptz cursor.instant ||
      (time row == timestamptz cursor.instant && decide (id row < cursor.id))
  cursorAt row := ⟨iso (time row), id row⟩
  passes_of_le cursor row row' hpasses hle := by
    simp only [Bool.or_eq_true, Bool.and_eq_true, decide_eq_true_eq, beq_iff_eq] at hpasses ⊢
    rw [newest_le] at hle
    rcases hle with hlt | ⟨heq, hid⟩
    · rcases hpasses with h | ⟨h, _⟩
      · exact .inl (hlt.trans h)
      · exact .inl (h ▸ hlt)
    · rw [heq]
      exact hpasses.imp_right fun h => ⟨h.1, lt_of_le_of_lt hid h.2⟩
  lt_of_passes row row' hpasses := by
    simp only [Bool.or_eq_true, Bool.and_eq_true, decide_eq_true_eq, beq_iff_eq] at hpasses
    rw [newest_lt]
    have hle := timestamptz_iso_le (time row)
    rcases hpasses with h | ⟨h, hid⟩
    · exact .inl (lt_of_lt_of_le h hle)
    · exact (lt_or_eq_of_le (h ▸ hle)).imp_right fun heq => ⟨heq, hid⟩

/-! ## Cases -/

structure CaseRow where
  id : RowId
  tenantId : UUID
  status : CaseStatus
  statusVersion : Int
  decisionMode : DecisionMode
  title : String
  externalReference : Option String
  createdAt : Int
  deriving DecidableEq

structure SignatureCaseView where
  id : UUID
  tenantId : UUID
  status : CaseStatus
  statusVersion : Int
  decisionMode : DecisionMode
  title : String
  createdAt : Int
  externalReference : Option String
  deriving DecidableEq

/-- An empty reference is left out. -/
def caseView (row : CaseRow) : SignatureCaseView where
  id := row.id.value
  tenantId := row.tenantId
  status := row.status
  statusVersion := row.statusVersion
  decisionMode := row.decisionMode
  title := row.title
  createdAt := iso row.createdAt
  externalReference := row.externalReference.filter fun reference => !reference.isEmpty

def cases : Keyset CaseRow Newest DateCursor := newestFirst (·.createdAt) (·.id)

section Lists

variable {τ : Type}

/-- `page.cursor ? decode(page.cursor) : undefined` -/
def decodeOptional {δ : Type} (decode : Cursor τ → Except String δ) (cursor : Option (Cursor τ)) :
    Except String (Option δ) :=
  match cursor with
  | none => return none
  | some cursor => return some (← decode cursor)

def listCases (rows : List CaseRow) (page : PageInput (Cursor τ)) :
    Except String (Page SignatureCaseView (Cursor τ)) := do
  let limit ← pageLimit page
  let cursor ← decodeOptional decodeCaseCursor page.cursor
  return (cases.page limit rows cursor).map caseView DateCursor.encodeCase

/-! ## Events -/

structure EventRow where
  id : RowId
  eventType : String
  payload : Json
  occurredAt : Int

structure DomainEvent where
  id : UUID
  tenantId : UUID
  type : String
  occurredAt : Int
  apiVersion : String
  data : Json

def eventView (tenantId : UUID) (row : EventRow) : DomainEvent where
  id := row.id.value
  tenantId := tenantId
  type := row.eventType
  occurredAt := iso row.occurredAt
  apiVersion := "2026-08-01"
  data := row.payload

def events : Keyset EventRow Newest DateCursor := newestFirst (·.occurredAt) (·.id)

def listEvents (tenantId : UUID) (rows : List EventRow) (page : PageInput (Cursor τ)) :
    Except String (Page DomainEvent (Cursor τ)) := do
  let limit ← pageLimit page
  let cursor ← decodeOptional decodeEventCursor page.cursor
  return (events.page limit rows cursor).map (eventView tenantId) DateCursor.encodeEvent

end Lists

/-! ## Templates

`τ` is `text` as the database compares it. -/

section Templates

variable {τ : Type} [LinearOrder τ]

structure TemplateRow (τ : Type) where
  id : RowId
  templateKey : τ
  version : Int
  locale : τ
  subjectTemplate : String
  bodyTemplate : String
  active : Bool
  deriving DecidableEq

structure TemplateView (τ : Type) where
  id : UUID
  templateKey : τ
  version : Int
  locale : τ
  subjectTemplate : String
  bodyTemplate : String
  active : Bool
  deriving DecidableEq

def templateView (row : TemplateRow τ) : TemplateView τ where
  id := row.id.value
  templateKey := row.templateKey
  version := row.version
  locale := row.locale
  subjectTemplate := row.subjectTemplate
  bodyTemplate := row.bodyTemplate
  active := row.active

/-- The key of `order by template_key,locale,version desc,id desc`. -/
abbrev TemplateKey (τ : Type) := τ ×ₗ τ ×ₗ Newest

def TemplateRow.key (row : TemplateRow τ) : TemplateKey τ :=
  toLex (row.templateKey, toLex (row.locale, newest row.version row.id))

/-- The condition of the query behind a cursor. -/
def TemplateRow.passes (cursor : TemplateCursor τ) (row : TemplateRow τ) : Bool :=
  decide (row.templateKey > cursor.templateKey) ||
    (row.templateKey == cursor.templateKey && decide (row.locale > cursor.locale)) ||
    (row.templateKey == cursor.templateKey && row.locale == cursor.locale &&
      decide (row.version < cursor.version)) ||
    (row.templateKey == cursor.templateKey && row.locale == cursor.locale &&
      row.version == cursor.version && decide (row.id < cursor.id))

theorem TemplateRow.passes_iff {cursor : TemplateCursor τ} {row : TemplateRow τ} :
    row.passes cursor = true ↔
      toLex (cursor.templateKey, toLex (cursor.locale, newest cursor.version cursor.id)) <
        row.key := by
  rw [TemplateRow.key, Prod.Lex.toLex_lt_toLex, Prod.Lex.toLex_lt_toLex, newest_lt]
  simp only [TemplateRow.passes, Bool.or_eq_true, Bool.and_eq_true, decide_eq_true_eq, beq_iff_eq]
  grind

def templates : Keyset (TemplateRow τ) (TemplateKey τ) (TemplateCursor τ) where
  key := TemplateRow.key
  passes cursor row := row.passes cursor
  cursorAt row := ⟨row.templateKey, row.locale, row.version, row.id⟩
  passes_of_le _ _ _ hpasses hle :=
    TemplateRow.passes_iff.mpr (lt_of_lt_of_le (TemplateRow.passes_iff.mp hpasses) hle)
  lt_of_passes _ _ hpasses := TemplateRow.passes_iff.mp hpasses

def listTemplates (rows : List (TemplateRow τ)) (page : PageInput (Cursor τ)) :
    Except String (Page (TemplateView τ) (Cursor τ)) := do
  let limit ← pageLimit page
  let cursor ← decodeOptional decodeTemplateCursor page.cursor
  return (templates.page limit rows cursor).map templateView TemplateCursor.encode

end Templates

/-! ## Privacy requests -/

structure RequestRow where
  id : RowId
  state : PrivacyRequestState
  rightRequested : DataSubjectRight
  receivedAt : Int
  dueAt : Int
  identityAssurance : Option AssuranceLevel
  deliveredAt : Option Int
  refusalGround : Option String
  deriving DecidableEq

structure PrivacyRequestView where
  privacyRequestId : UUID
  state : PrivacyRequestState
  right : DataSubjectRight
  receivedAt : Int
  dueAt : Int
  overdue : Bool
  identityAssurance : Option AssuranceLevel
  deliveredAt : Option Int
  refusalGround : Option String
  deriving DecidableEq

/-- `now` is the time of the request in milliseconds. -/
def buildView (now : Int) (row : RequestRow) : PrivacyRequestView where
  privacyRequestId := row.id.value
  state := row.state
  right := row.rightRequested
  receivedAt := iso row.receivedAt
  dueAt := iso row.dueAt
  overdue := row.state != .DELIVERED && row.state != .REFUSED && decide (iso row.dueAt ≤ now)
  identityAssurance := row.identityAssurance
  deliveredAt := row.deliveredAt.map iso
  refusalGround := row.refusalGround

/-- `received_at < $2` behind a cursor that is the date alone, and `order by received_at desc, id desc`. -/
def requests : Keyset RequestRow Newest Int where
  key row := newest row.receivedAt row.id
  passes cursor row := row.receivedAt < timestamptz cursor
  cursorAt row := iso row.receivedAt
  passes_of_le cursor row row' hpasses hle := by
    simp only [decide_eq_true_eq] at hpasses ⊢
    rw [newest_le] at hle
    rcases hle with hlt | ⟨heq, _⟩
    · exact hlt.trans hpasses
    · exact heq ▸ hpasses
  lt_of_passes row row' hpasses := by
    rw [newest_lt]
    exact .inl (lt_of_lt_of_le (of_decide_eq_true hpasses) (timestamptz_iso_le row.receivedAt))

def listRequests (now : Int) (rows : List RequestRow) (page : PageInput Int) :
    Except String (Page PrivacyRequestView Int) := do
  let limit := min (max page.limit 1).toNat 100
  return (requests.page limit rows page.cursor).map (buildView now) id

end Kommunsign
