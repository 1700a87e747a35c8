import Kommunsign.Api.Listings

/-!
# Following the cursors of a listing

A client asks for the first page of a listing and then follows the cursors until none is returned.
The table may change between two requests. What it is owed are the rows that stay: each of them
once, in the order of the listing.

* `Listing.Yields`, `Listing.HidesNone` — what is owed, and what it takes
* `listings_yield` — when the client gets it

A cursor of the cases or the events, cut to whole milliseconds, lies before the row it was made of:
what shares the millisecond of that row is passed over. A cursor of the privacy requests passes over
the rows of the very same time as well. A template cursor keeps its row exactly.
-/

namespace Kommunsign

open Infra

/-- `view` and `encode` are how rows and cursors leave the listing. -/
structure Listing (ρ β κ γ γ' : Type) [LinearOrder κ] where
  keyset : Keyset ρ κ γ
  idOf : κ → UUID
  view : ρ → β
  viewId : β → UUID
  encode : γ → γ'
  pageRows : Int → Except String Nat
  list : List ρ → PageInput γ' → Except String (Page β γ')
  viewId_view : ∀ r, viewId (view r) = idOf (keyset.key r)
  encode_injective : Function.Injective encode
  pageRows_pos : ∀ limit n, pageRows limit = .ok n → 0 < n
  list_eq : ∀ limit rows cursor, list rows ⟨limit, cursor.map encode⟩ =
    (pageRows limit).map fun n => (keyset.page n rows cursor).map view encode

namespace Listing

variable {ρ β κ γ γ' : Type} [LinearOrder κ] (l : Listing ρ β κ γ γ')

abbrev Rows := {rows : List ρ // (rows.map fun r => l.idOf (l.keyset.key r)).Nodup}

def request (limit : Int) (table : l.Rows) (cursor : Option γ') : Option (Page β γ') :=
  (l.list table ⟨limit, cursor⟩).toOption

def standing (tables : List l.Rows) : List κ := l.keyset.standingKeys (tables.map Subtype.val)

def Yields (tables : List l.Rows) (s : Follower β γ') : Prop :=
  Keyset.YieldsEach l.idOf (l.standing tables) (s.yielded.map l.viewId)

/-- No page of the run ends in a row whose cursor passes over a row that stays. -/
def HidesNone (limit : Int) (tables : List l.Rows) : Prop :=
  Meets (follow (l.request limit)) (fun s table => ∀ cursor : Option γ,
      s.next = some (cursor.map l.encode) → ∀ n, l.pageRows limit = .ok n →
        l.keyset.HidesNone (l.standing tables) n cursor table.val)
    .start tables

variable {l}

theorem request_map {limit : Int} {n : Nat} (hn : l.pageRows limit = .ok n) (table : l.Rows)
    (cursor : Option γ) : l.request limit table (cursor.map l.encode) =
      (l.keyset.fetch n table.val cursor).map (Page.map l.view l.encode) := by
  rw [request, l.list_eq, hn]
  rfl

theorem run_request {limit : Int} {n : Nat} (hn : l.pageRows limit = .ok n)
    (tables : List l.Rows) :
    run (follow (l.request limit)) .start tables =
      (run (follow (l.keyset.fetch n)) .start (tables.map Subtype.val)).map
        (Follower.map l.view l.encode) := by
  rw [run_map]
  exact run_follow_map (request_map hn) .start tables

theorem hidesNone_iff {limit : Int} {n : Nat} (hn : l.pageRows limit = .ok n)
    (tables : List l.Rows) :
    l.HidesNone limit tables ↔
      Meets (follow (l.keyset.fetch n)) (l.keyset.RequestHidesNone (l.standing tables) n) .start
        (tables.map Subtype.val) := by
  rw [meets_map]
  refine Iff.trans ?_ (meets_follow_map (request_map hn) l.encode_injective
    (fun cursor table => l.keyset.HidesNone (l.standing tables) n cursor table.val)
    .start tables)
  simp only [HidesNone, hn, Except.ok.injEq, forall_eq']
  rfl

theorem exists_pageRows {limit : Int} {tables : List l.Rows} {s : Follower β γ'}
    (hr : run (follow (l.request limit)) .start tables = some s) (hend : s.next = none) :
    ∃ n, l.pageRows limit = .ok n := by
  cases tables with
  | nil =>
    cases hr
    exact nomatch hend
  | cons table tables =>
    obtain ⟨s₁, hs₁, _⟩ := run_cons_eq_some.mp hr
    obtain ⟨cursor, page, hnext, hpage, _⟩ := follow_eq_some hs₁
    obtain rfl := Option.some.inj hnext
    cases hn : l.pageRows limit with
    | ok n => exact ⟨n, rfl⟩
    | error e =>
      have hlist := l.list_eq limit table.val none
      rw [hn] at hlist
      rw [request, show (none : Option γ') = Option.map l.encode none from rfl, hlist] at hpage
      exact nomatch hpage

theorem yields_iff {limit : Int} {tables : List l.Rows} {s : Follower β γ'}
    (hr : run (follow (l.request limit)) .start tables = some s) (hend : s.next = none) :
    l.Yields tables s ↔ l.HidesNone limit tables := by
  obtain ⟨n, hn⟩ := exists_pageRows hr hend
  rw [run_request hn] at hr
  obtain ⟨s₀, hr₀, rfl⟩ := Option.map_eq_some_iff.mp hr
  have hend₀ : s₀.next = none := Option.map_eq_none_iff.mp hend
  have hids : ∀ table ∈ tables.map Subtype.val,
      (table.map fun r => l.idOf (l.keyset.key r)).Nodup := by
    intro table htable
    obtain ⟨t, _, rfl⟩ := List.mem_map.mp htable
    exact t.property
  have hview : (s₀.map l.view l.encode).yielded.map l.viewId =
      s₀.yielded.map fun r => l.idOf (l.keyset.key r) := by
    simp [Follower.map, l.viewId_view, Function.comp_def]
  rw [Yields, hview, hidesNone_iff hn]
  exact Keyset.yieldsStanding_iff (l.pageRows_pos limit n hn) hids hr₀ hend₀

theorem finishes {limit : Int} {n : Nat} (hn : l.pageRows limit = .ok n) (table : l.Rows) :
    ∃ m s, run (follow (l.request limit)) .start (List.replicate m table) = some s ∧
      s.next = none := by
  obtain ⟨m, s, hr, hend⟩ := Keyset.follow_finishes l.keyset n table.val _ .start le_rfl
  refine ⟨m, s.map l.view l.encode, ?_, ?_⟩
  · rw [run_request hn, List.map_replicate, hr]
    rfl
  · rw [Follower.map, hend]
    rfl

end Listing

/-! ## The four listings -/

def pageRows (limit : Int) : Except String Nat := pageLimit (⟨limit, none⟩ : PageInput Unit)

theorem pageRows_pos {limit : Int} {n : Nat} (h : pageRows limit = .ok n) : 0 < n := by
  unfold pageRows pageLimit at h
  split at h
  · exact nomatch h
  · cases h
    unfold maxLimit
    omega

theorem pageLimit_eq {γ : Type} (limit : Int) (cursor : Option γ) :
    pageLimit ⟨limit, cursor⟩ = pageRows limit := rfl

theorem list_eq_page {τ ρ β κ γ : Type} [LinearOrder κ] (k : Keyset ρ κ γ) (view : ρ → β)
    {encode : γ → Cursor τ} {decode : Cursor τ → Except String γ}
    (hdecode : ∀ c, decode (encode c) = .ok c) (limit : Int) (rows : List ρ) (cursor : Option γ) :
    (do let n ← pageLimit ⟨limit, cursor.map encode⟩
        let cursor ← decodeOptional decode (cursor.map encode)
        return (k.page n rows cursor).map view encode : Except String (Page β (Cursor τ))) =
      (pageRows limit).map fun n => (k.page n rows cursor).map view encode := by
  rw [pageLimit_eq]
  cases pageRows limit with
  | error e => rfl
  | ok n =>
    cases cursor with
    | none => rfl
    | some c => simp [decodeOptional, hdecode, bind, Except.bind, pure, Except.pure, Except.map]

theorem injective_of_decode {τ γ : Type} {encode : γ → Cursor τ}
    {decode : Cursor τ → Except String γ} (hdecode : ∀ c, decode (encode c) = .ok c) :
    Function.Injective encode := by
  intro a b h
  have hok : (.ok a : Except String γ) = .ok b := by rw [← hdecode a, h, hdecode b]
  exact Except.ok.inj hok

def newestId (key : Newest) : UUID := (ofLex (OrderDual.ofDual key)).2.value

section Four

variable (τ : Type)

def caseListing : Listing CaseRow SignatureCaseView Newest DateCursor (Cursor τ) where
  keyset := cases
  idOf := newestId
  view := caseView
  viewId := (·.id)
  encode := DateCursor.encodeCase
  pageRows := pageRows
  list := listCases
  viewId_view _ := rfl
  encode_injective := injective_of_decode decodeCaseCursor_encode
  pageRows_pos _ _ := pageRows_pos
  list_eq := list_eq_page cases caseView decodeCaseCursor_encode

def eventListing (tenantId : UUID) :
    Listing EventRow DomainEvent Newest DateCursor (Cursor τ) where
  keyset := events
  idOf := newestId
  view := eventView tenantId
  viewId := (·.id)
  encode := DateCursor.encodeEvent
  pageRows := pageRows
  list := listEvents tenantId
  viewId_view _ := rfl
  encode_injective := injective_of_decode decodeEventCursor_encode
  pageRows_pos _ _ := pageRows_pos
  list_eq := list_eq_page events (eventView tenantId) decodeEventCursor_encode

def requestListing (now : Int) : Listing RequestRow PrivacyRequestView Newest Int Int where
  keyset := requests
  idOf := newestId
  view := buildView now
  viewId := (·.privacyRequestId)
  encode := id
  pageRows limit := .ok (min (max limit 1).toNat 100)
  list := listRequests now
  viewId_view _ := rfl
  encode_injective := Function.injective_id
  pageRows_pos limit n h := by
    cases h
    omega
  list_eq limit rows cursor := by
    rw [Option.map_id]
    rfl

variable [LinearOrder τ]

def templateListing :
    Listing (TemplateRow τ) (TemplateView τ) (TemplateKey τ) (TemplateCursor τ) (Cursor τ) where
  keyset := templates
  idOf key := newestId (ofLex (ofLex key).2).2
  view := templateView
  viewId := (·.id)
  encode := TemplateCursor.encode
  pageRows := pageRows
  list := listTemplates
  viewId_view _ := rfl
  encode_injective := injective_of_decode decodeTemplateCursor_encode
  pageRows_pos _ _ := pageRows_pos
  list_eq := list_eq_page templates templateView decodeTemplateCursor_encode

end Four

theorem templates_hideNone {τ : Type} [LinearOrder τ] (standing : List (TemplateKey τ))
    (limit : Nat) (cursor : Option (TemplateCursor τ)) (rows : List (TemplateRow τ)) :
    templates.HidesNone standing limit cursor rows :=
  fun _ _ _ _ _ hlt => TemplateRow.passes_iff.mpr hlt

/--
A client that follows the cursors to the end is given every row that stays, once and in order:
always in the templates; in the other three listings exactly when no page that has a successor ends
in a row whose cursor passes over a row that stays. With a valid limit, and on a table that does
not change, it does come to the end.
-/
theorem listings_yield (τ : Type) [LinearOrder τ] (tenantId : UUID) (now : Int) :
    (∀ limit tables s, run (follow ((caseListing τ).request limit)) .start tables = some s →
      s.next = none →
      ((caseListing τ).Yields tables s ↔ (caseListing τ).HidesNone limit tables)) ∧
    (∀ limit tables s,
      run (follow ((eventListing τ tenantId).request limit)) .start tables = some s →
      s.next = none →
      ((eventListing τ tenantId).Yields tables s ↔
        (eventListing τ tenantId).HidesNone limit tables)) ∧
    (∀ limit tables s, run (follow ((requestListing now).request limit)) .start tables = some s →
      s.next = none →
      ((requestListing now).Yields tables s ↔ (requestListing now).HidesNone limit tables)) ∧
    (∀ limit tables s, run (follow ((templateListing τ).request limit)) .start tables = some s →
      s.next = none → (templateListing τ).Yields tables s) ∧
    (∀ limit : Int, 1 ≤ limit →
      (∀ table, ∃ m s, run (follow ((caseListing τ).request limit)) .start
        (List.replicate m table) = some s ∧ s.next = none) ∧
      (∀ table, ∃ m s, run (follow ((eventListing τ tenantId).request limit)) .start
        (List.replicate m table) = some s ∧ s.next = none) ∧
      (∀ table, ∃ m s, run (follow ((requestListing now).request limit)) .start
        (List.replicate m table) = some s ∧ s.next = none) ∧
      (∀ table, ∃ m s, run (follow ((templateListing τ).request limit)) .start
        (List.replicate m table) = some s ∧ s.next = none)) := by
  refine ⟨fun _ _ _ => Listing.yields_iff, fun _ _ _ => Listing.yields_iff,
    fun _ _ _ => Listing.yields_iff, fun limit tables s hr hend => ?_, fun limit hlimit => ?_⟩
  · rw [Listing.yields_iff hr hend, Listing.HidesNone]
    apply meets_of_forall
    intro _ table cursor _ n _
    exact templates_hideNone _ n cursor table.val
  · have hpos : ¬limit < 1 := by omega
    have hrows : pageRows limit = .ok (min limit.toNat maxLimit) := by
      simp [pageRows, pageLimit, hpos, pure, Except.pure]
    exact ⟨fun table => Listing.finishes hrows table, fun table => Listing.finishes hrows table,
      fun table => Listing.finishes rfl table, fun table => Listing.finishes hrows table⟩

/-! ## Two rows of one millisecond -/

def uuidA : RowId := ⟨"00000000-0000-4000-8000-00000000001a", by decide⟩

def uuidB : RowId := ⟨"00000000-0000-4000-8000-00000000001b", by decide⟩

def twoCases : (caseListing Nat).Rows :=
  ⟨[⟨uuidB, "t", .draft, 1, .ELECTRONIC_SIGNATURE, "Second", none, 1500⟩,
    ⟨uuidA, "t", .draft, 1, .ELECTRONIC_SIGNATURE, "First", none, 1200⟩], by decide⟩

def twoRequests : (requestListing 0).Rows :=
  ⟨[⟨uuidB, .RECEIVED, .ACCESS, 1000, 9000, none, none, none⟩,
    ⟨uuidA, .RECEIVED, .ERASURE, 1000, 9000, none, none, none⟩], by decide⟩

/-- Page by page, the second of the two cases is never seen, nor the second of the two requests. -/
theorem listings_hide :
    (∃ s, run (follow ((caseListing Nat).request 1)) .start [twoCases, twoCases] = some s ∧
      s.next = none ∧ s.yielded.map (·.id) = [uuidB.value] ∧
      ¬(caseListing Nat).Yields [twoCases, twoCases] s) ∧
    ∃ s, run (follow ((requestListing 0).request 1)) .start [twoRequests, twoRequests] = some s ∧
      s.next = none ∧ s.yielded.map (·.privacyRequestId) = [uuidB.value] ∧
      ¬(requestListing 0).Yields [twoRequests, twoRequests] s := by
  refine ⟨⟨⟨[caseView ⟨uuidB, "t", .draft, 1, .ELECTRONIC_SIGNATURE, "Second", none, 1500⟩], none⟩,
    by decide +kernel, rfl, rfl, fun h => ?_⟩,
    ⟨⟨[buildView 0 ⟨uuidB, .RECEIVED, .ACCESS, 1000, 9000, none, none, none⟩], none⟩,
    by decide +kernel, rfl, rfl, fun h => ?_⟩⟩
  · exact absurd (h.once (newest 1200 uuidA) (by decide +kernel)) (by decide +kernel)
  · exact absurd (h.once (newest 1000 uuidA) (by decide +kernel)) (by decide +kernel)

/-- A page of two shows both, and hides neither. -/
theorem listings_yield_two :
    (caseListing Nat).HidesNone 2 [twoCases] ∧ (templateListing Nat).Yields [⟨[], by decide⟩]
      ⟨[], none⟩ := by
  have hboth := listings_yield Nat "t" 0
  refine ⟨(hboth.1 2 [twoCases]
    ⟨[caseView ⟨uuidB, "t", .draft, 1, .ELECTRONIC_SIGNATURE, "Second", none, 1500⟩,
      caseView ⟨uuidA, "t", .draft, 1, .ELECTRONIC_SIGNATURE, "First", none, 1200⟩], none⟩
    (by decide +kernel) rfl).mp ⟨by decide +kernel, by decide +kernel⟩,
    hboth.2.2.2.1 2 [⟨[], by decide⟩] ⟨[], none⟩ (by decide +kernel) rfl⟩

end Kommunsign
