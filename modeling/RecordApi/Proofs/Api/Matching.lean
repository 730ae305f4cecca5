import RecordApi.Proofs.Api.Creation
import RecordApi.Proofs.Conversion.Sharing
import RecordApi.Proofs.Params.Decoding
import RecordApi.Proofs.Storage.Matching

/-!
# Finding what was created

A list request may ask for the rows with the value that a body gave for a column.  For the values
that a body and a filter share, the filter is understood and the new row is one of those that it
selects.
-/

namespace RecordApi

open Steps Storage

/-! ## Values that come back -/

/-- A filter finds a value again that a body gave: both convert it alike, or it is a null in whose
place nothing is put. -/
def Model.Returns (model : Model) (column : Column) (v : Value) : Prop :=
  Shared column.type v ∨ v = .null ∧ column.default = none ∧ model.countsUp column = false

theorem Model.Returns.coerce_eq
    {model : Model} {column : Column} {v w : Value}
    (h : model.Returns column v) (hbody : Conversion.ofKind column.type.kind v = .ok w) :
    Clause.coerce column v = .ok w ∧ (column.type.Holds w ∨
      w = .null ∧ column.default = none ∧ model.countsUp column = false) := by
  unfold Clause.coerce
  rw [mapError_eq_ok]
  rcases h with hshared | ⟨rfl, hdefault, hcounts⟩
  · rcases hshared.coerce_eq column.key hbody with ⟨hcoerce, hholds⟩
    exact ⟨hcoerce, .inl hholds⟩
  · cases hbody
    exact ⟨rfl, .inr ⟨rfl, hdefault, hcounts⟩⟩

/-! ## Payloads -/

namespace Payload

variable {entries payload : Assoc Value}

/-- What becomes of the values that are given for columns. -/
def conversions (entries : Assoc Value) (columns : List Column) :
    Assoc (Except Problem Value) :=
  columns.filterMap fun column =>
    (Assoc.get? entries column.key).map fun v => (column.key, Conversion.ofKind column.type.kind v)

theorem ofGiven_eq_ok
    {model : Model}
    (h : ofGiven model (.value (.map entries)) = .ok payload) :
    Assoc.mapValues Except.ok payload = conversions entries model.columns := by
  unfold ofGiven Reading.conclude at h
  dsimp only at h
  change (if List.isEmpty ((conversions entries model.columns).filterMap _) then _ else _) = _ at h
  split at h
  · rename_i hissues
    rw [List.isEmpty_iff, List.filterMap_eq_nil_iff] at hissues
    have hpayload := Except.ok.inj h
    change (conversions entries model.columns).filterMap _ = payload at hpayload
    rw [← hpayload]
    clear h hpayload
    generalize conversions entries model.columns = converted at hissues ⊢
    induction converted with
    | nil => rfl
    | cons entry rest ih =>
        rw [List.forall_mem_cons] at hissues
        rcases entry with ⟨key, result⟩
        cases result with
        | error problem => cases hissues.1
        | ok w => exact congrArg _ (ih hissues.2)
  · cases h

theorem get?_conversions
    {columns : List Column} {column : Column} {v : Value}
    (hcolumn : columns.find? (fun other => other.key == column.key) = some column)
    (hgiven : Assoc.get? entries column.key = some v) :
    Assoc.get? (conversions entries columns) column.key =
      some (Conversion.ofKind column.type.kind v) := by
  induction columns with
  | nil => cases hcolumn
  | cons other rest ih =>
      unfold conversions at ih ⊢
      by_cases hkey : other.key = column.key
      · rw [List.find?_cons_of_pos (by simpa using hkey)] at hcolumn
        rw [Option.some.inj hcolumn, List.filterMap_cons, hgiven]
        dsimp only [Option.map_some]
        rw [Assoc.get?_cons, if_pos rfl]
      · rw [List.find?_cons_of_neg (by simpa using hkey)] at hcolumn
        rw [List.filterMap_cons]
        cases Assoc.get? entries other.key with
        | none => exact ih hcolumn
        | some given =>
            dsimp only [Option.map_some]
            rw [Assoc.get?_cons, if_neg hkey]
            exact ih hcolumn

/-- A value that is given for a column stands in the payload as the column converts it. -/
theorem get?_of_ofGiven
    {model : Model} {column : Column} {v : Value}
    (h : ofGiven model (.value (.map entries)) = .ok payload)
    (hcolumn : model.column? column.key = some column)
    (hgiven : Assoc.get? entries column.key = some v) :
    ∃ w, Conversion.ofKind column.type.kind v = .ok w ∧
      Assoc.get? payload column.key = some w := by
  have hconverted := get?_conversions hcolumn hgiven
  rw [← ofGiven_eq_ok h] at hconverted
  rw [Assoc.get?_mapValues, Option.map_eq_some_iff] at hconverted
  rcases hconverted with ⟨w, hpayload, hw⟩
  exact ⟨w, hw.symm, hpayload⟩

end Payload

/-! ## Lists with an equality -/

namespace Resource

variable {r : Resource} {db : Database} {column : Column} {field : String} {v operand : Value}
  {cell : Cell}

/-- The page that a list shows when a request names none. -/
def firstPage (r : Resource) : Page :=
  Page.compute .null .null r.builder.defaultPage r.builder.defaultPageSize

/-- The query of a list request that asks for nothing but an equality. -/
def equality (r : Resource) (field : String) (v : Value) : Query where
  filter := some (.condition (Predicate.equals field v))
  attributes := QueryBuilder.attributes none (r.defaults .gets).fields
  limit := some r.firstPage.limit
  offset := some r.firstPage.offset

theorem isEquality_equality (r : Resource) (field : String) (v : Value) :
    Store.IsEquality (r.equality field v) field v :=
  ⟨rfl, rfl, rfl⟩

theorem compile_equality
    (merge : Filter.MergePolicy) (v : Value)
    (hfield : Combinator.ofName? field = none) :
    Filter.compile merge (.map [(field, .map [("eq", v)])]) =
      .ok (some (.condition (Predicate.equals field v))) := by
  have hoperator : OperatorName.ofName "eq" = .known .eq := by decide
  have hfieldOnly : Filter.compileField merge field (.map [("eq", v)]) =
      .ok [Predicate.equals field v] := by
    change Except.ok (merge.keep [(⟨field, OperatorName.ofName "eq", v⟩ : Condition)]) = _
    rw [hoperator]
    cases merge <;> rfl
  have hkeys : Filter.compileKeys merge 0 [(field, .map [("eq", v)])] =
      .ok [.condition (Predicate.equals field v)] := by
    unfold Filter.compileKeys Filter.compileKeys
    rw [hfield]
    dsimp only
    rw [hfieldOnly]
    rfl
  unfold Filter.compile Filter.compileEntry
  rw [hkeys]
  rfl

theorem forList_equality
    (r : Resource) (v : Value)
    (hfield : Combinator.ofName? field = none) :
    r.builder.forList { filters := .map [(field, .map [("eq", v)])] } (r.defaults .gets) =
      .ok (r.equality field v, r.firstPage) := by
  unfold QueryBuilder.forList
  dsimp only
  rw [compile_equality _ _ hfield]
  rfl

/-- What a list answers with: some rows on a page, and how many rows its query selects. -/
def presented (r : Resource) (db : Database) (query : Query) (page : Page)
    (rows : List (Assoc Value)) (pages : Int) : Value :=
  pagePayload ⟨rows, (r.store.selected db query).length⟩ page pages

/-- The page of a query can be shown: its fields are columns, its bounds are words, its rows can be
told, its pages can be counted, and JSON can hold its numbers. -/
structure Presents (r : Resource) (db : Database) (query : Query) (page : Page)
    (rows : List (Assoc Value)) (pages : Int) : Prop where
  fields : checkFields r.store.model r.store.name query.attributes = .ok ()
  limit : checkBound query.limit = .ok ()
  offset : checkBound query.offset = .ok ()
  shown : r.store.showRows db .list query
    (slice query.limit query.offset (r.store.selected db query)) = .ok rows
  counted : Page.count (r.store.selected db query).length page.size = .ok pages
  finite : Json.isFiniteTree (r.presented db query page rows pages) = true

variable {items : List (String × String)} {query : Query} {page : Page}

theorem list_of_listing
    {listing : Listing} {pages : Int}
    (h : r.listing db items = .ok (listing, page))
    (hcounted : Page.count listing.count page.size = .ok pages) :
    r.list db items = .done (pagePayload listing page pages) := by
  unfold list
  rw [h]
  dsimp only
  rw [hcounted]

theorem listing_of_list
    {data : Value}
    (h : r.list db items = .done data) :
    ∃ listing page pages, r.listing db items = .ok (listing, page) ∧
      Page.count listing.count page.size = .ok pages ∧ data = pagePayload listing page pages := by
  unfold list at h
  split at h
  · cases h
  · rename_i listing page hlisting
    split at h
    · rename_i pages hpages
      cases h
      exact ⟨listing, page, pages, hlisting, hpages, rfl⟩
    · cases h

/-- The listing of an equality is the first page of what the store lists for it. -/
theorem listing_equality_iff
    (r : Resource) (db : Database) {text : String} {listing : Listing} {page : Page}
    (hfield : Combinator.ofName? column.key = none)
    (hread : Json.read text.toList = .ok (.map [(column.key, .map [("eq", v)])])) :
    r.listing db [("filters", text)] = .ok (listing, page) ↔
      r.store.list db (r.equality column.key v) = .ok listing ∧ r.firstPage = page := by
  have hdecode : decode [("filters", text)] =
      .ok { filters := .map [(column.key, .map [("eq", v)])] } := by
    unfold decode
    rw [Params.decode_filters hread]
    rfl
  unfold Resource.listing
  rw [hdecode]
  change ((r.builder.forList _ _).mapError Failure.filter >>= _) = _ ↔ _
  rw [forList_equality r v hfield]
  change ((r.store.list db (r.equality column.key v)).mapError Failure.store >>= fun listing =>
    pure (listing, r.firstPage)) = _ ↔ _
  cases r.store.list db (r.equality column.key v) with
  | error error =>
      constructor
      · intro h
        cases h
      · rintro ⟨h, _⟩
        cases h
  | ok found =>
      constructor
      · intro h
        cases h
        exact ⟨rfl, rfl⟩
      · rintro ⟨h, rfl⟩
        cases h
        rfl

/-- Where some cell equals its operand, a list with an equality is answered exactly when its page
can be shown. -/
theorem list_equality_iff
    (r : Resource) (db : Database) {text : String}
    (hcolumn : r.store.model.column? column.key = some column)
    (hfield : Combinator.ofName? column.key = none)
    (hread : Json.read text.toList = .ok (.map [(column.key, .map [("eq", v)])]))
    (hcoerce : Clause.coerce column v = .ok operand)
    (hequals : equalsOperand column operand cell = true) (data : Value) :
    (r.list db [("filters", text)] = .done data ∧ Json.isFiniteTree data = true) ↔
      ∃ rows pages, r.Presents db (r.equality column.key v) r.firstPage rows pages ∧
        data = r.presented db (r.equality column.key v) r.firstPage rows pages := by
  have hquery := isEquality_equality r column.key v
  constructor
  · rintro ⟨hdone, hfinite⟩
    rcases listing_of_list hdone with ⟨⟨rows, count⟩, page, pages, hfound, hcounted, rfl⟩
    rcases (r.listing_equality_iff db hfield hread).mp hfound with ⟨hlist, rfl⟩
    rcases Store.list_eq_ok_iff.mp hlist with ⟨⟨_, _, hruns⟩, hlimit, hoffset, hshown, hcount⟩
    dsimp only at hshown hcount hcounted
    subst hcount
    exact ⟨rows, pages, ⟨hruns.projected, hlimit, hoffset, hshown, hcounted, hfinite⟩, rfl⟩
  · rintro ⟨rows, pages, hpresents, rfl⟩
    have hlist : r.store.list db (r.equality column.key v) =
        .ok ⟨rows, (r.store.selected db (r.equality column.key v)).length⟩ := by
      rcases Store.runs_equality hquery hcolumn hcoerce hequals hpresents.fields db with
        ⟨selection, hruns⟩
      exact Store.list_eq_ok_iff.mpr
        ⟨⟨selection, [], hruns⟩, hpresents.limit, hpresents.offset, hpresents.shown, rfl⟩
    have hlisting := (r.listing_equality_iff db hfield hread).mpr ⟨hlist, rfl⟩
    exact ⟨list_of_listing hlisting hpresents.counted, hpresents.finite⟩

end Resource

/-! ## A creation and a list -/

namespace Application

open Http

variable {app : Application} {route list : Route} {id listId text : String} {post get : Request}
  {db : Database} {entries arguments : Assoc Value} {column : Column} {v : Value}

theorem payload_of_admits
    {payload : Assoc Value}
    (h : route.Admits post payload)
    (hmethod : route.method = .post)
    (hbody : Given.ofRequest post = .ok (.value (.map entries))) :
    Payload.ofGiven route.resource.store.model (.value (.map entries)) = .ok payload := by
  rcases h with ⟨given, _, hread, _, hpayload⟩
  have hhas : route.method.hasBody = true := by
    rw [hmethod]
    rfl
  unfold body at hread
  unfold Application.payload at hpayload
  rw [hhas, if_pos rfl] at hread hpayload
  rw [hbody] at hread
  cases hread
  exact hpayload

/-- After a creation whose body gives a value that comes back, a list of the rows with this value
selects the new row.  It is answered with 200 exactly when its page can be shown. -/
theorem serve_list_selects_created
    (hroute : app.route? post = some (route, id))
    (hmethod : route.method = .post)
    (htruthful : IsTruthful route post)
    (hstatus : (app.serve post db).1.response.status = 201)
    (hbody : Given.ofRequest post = .ok (.value (.map entries)))
    (hgiven : Assoc.get? entries column.key = some v)
    (hcolumn : route.resource.store.model.column? column.key = some column)
    (hreturns : route.resource.store.model.Returns column v)
    (hlist : app.route? get = some (list, listId))
    (hgets : list.method = .gets)
    (hstore : list.resource.store = route.resource.store)
    (hadmits : list.Admits get arguments)
    (hitems : get.items = [("filters", text)])
    (hfield : Combinator.ofName? column.key = none)
    (hread : Json.read text.toList = .ok (.map [(column.key, .map [("eq", v)])])) :
    ∃ payload, ∃ creation : route.resource.Creation db ⟨id, post.items, payload⟩,
      (app.serve post db).2 = creation.after ∧
      creation.row ∈
        route.resource.store.selected creation.after (list.resource.equality column.key v) ∧
      ((app.serve get creation.after).1.response.status = 200 ↔
        ∃ rows pages, list.resource.Presents creation.after (list.resource.equality column.key v)
          list.resource.firstPage rows pages) ∧
      ∀ rows pages, list.resource.Presents creation.after (list.resource.equality column.key v)
          list.resource.firstPage rows pages →
        (app.serve get creation.after).1.response.body = .json (list.resource.presented
          creation.after (list.resource.equality column.key v) list.resource.firstPage
            rows pages) := by
  have hsuccess : route.successStatus = 201 := by
    unfold Route.successStatus
    rw [hmethod]
  rw [← hsuccess] at hstatus
  rcases shown_of_success hroute htruthful hstatus with
    ⟨payload, data, after, hpost, hrun, _, hafter⟩
  rw [hmethod] at hrun
  rcases Resource.create_eq_done ⟨id, post.items, payload⟩ hrun with
    ⟨creation, _, _, _, hdatabase, _, _⟩
  -- the value in the payload is the operand of the filter
  rcases Payload.get?_of_ofGiven (payload_of_admits hpost hmethod hbody) hcolumn hgiven with
    ⟨operand, hconverted, hpayload⟩
  rcases hreturns.coerce_eq hconverted with ⟨hcoerce, hkept⟩
  have hequals := Store.equalsOperand_of_insert creation.inserted hcolumn hpayload hkept
  have hselects := (Store.selects_equality_iff (list.resource.isEquality_equality column.key v)
    hcolumn hcoerce creation.after creation.row).mpr hequals
  have hmem : creation.row ∈ creation.after.rows route.resource.store.model :=
    (Store.perm_rows_added route.resource.store db creation.row).mem_iff.mpr List.mem_cons_self
  have hanswers := Resource.list_equality_iff list.resource creation.after
    (hstore.symm ▸ hcolumn) hfield hread hcoerce hequals
  have hserve := serve_of_admits creation.after hlist hadmits
  rw [hgets, hitems] at hserve
  rcases hserve with ⟨hanswer, hshown, _⟩
  have hpresented (rows : List (Assoc Value)) (pages : Int)
      (hpresents : list.resource.Presents creation.after (list.resource.equality column.key v)
        list.resource.firstPage rows pages) :
      app.response list get (list.resource.list creation.after [("filters", text)]) =
        Response.ofValue 200 (list.resource.presented creation.after
          (list.resource.equality column.key v) list.resource.firstPage rows pages) := by
    have hdone := (hanswers _).mpr ⟨rows, pages, hpresents, rfl⟩
    have hok : list.successStatus = 200 := by
      unfold Route.successStatus
      rw [hgets]
    rw [hdone.1, response_of_isShown hdone.2, hok]
  refine ⟨payload, creation, hafter.trans hdatabase, Store.mem_selected.mpr ⟨hmem, hselects⟩,
    ?_, ?_⟩
  · constructor
    · intro hok
      have hisShown : (list.resource.list creation.after [("filters", text)]).IsShown := by
        rw [← isSuccess_response_iff app list get]
        unfold Response.IsSuccess
        rw [← hanswer, hok]
        decide
      rcases hisShown with ⟨data, hdone⟩
      rcases (hanswers data).mp hdone with ⟨rows, pages, hpresents, _⟩
      exact ⟨rows, pages, hpresents⟩
    · rintro ⟨rows, pages, hpresents⟩
      rw [hanswer]
      exact congrArg Response.status (hpresented rows pages hpresents)
  · intro rows pages hpresents
    rw [hshown]
    exact congrArg Response.body (hpresented rows pages hpresents)

end Application

namespace Sample

open Http

/-- A new item with its quantity written as a text. -/
def quantityRequest : Request where
  verb := "POST"
  path := "/items/".toList
  body := "\x7b\"qty\":\" 1_0.0 \"\x7d"

def quantityList : Request where
  verb := "GET"
  path := "/items/".toList
  items := [("filters", "\x7b\"qty\":\x7b\"eq\":\" 1_0.0 \"\x7d\x7d")]

theorem read_quantity :
    Given.ofRequest quantityRequest = .ok (.value (.map [("qty", .text " 1_0.0 ")])) ∧
      Json.read "\x7b\"qty\":\x7b\"eq\":\" 1_0.0 \"\x7d\x7d".toList =
        .ok (.map [("qty", .map [("eq", .text " 1_0.0 ")])]) := by
  constructor <;>
    simp [Given.ofRequest, quantityRequest, Headers.get?, Json.read, Json.value, Json.members,
      Json.skipBlanks, Json.isBlank, Json.stringRest?, Json.character?, Json.unitCharacter?, Json.unit?,
      Json.letter?, Assoc.ofPairs, Assoc.put, bind, Except.bind, Except.map, pure, Except.pure]

/-- Ten is written with an underscore, a place and blanks, and found by the same text. -/
theorem serve_list_selects_created_quantity :
    ((service schema.models).serve quantityRequest database).1.response.status = 201 ∧
      (∃ payload, ∃ creation : (resource items).Creation database ⟨"", [], payload⟩,
        ((service schema.models).serve quantityRequest database).2 = creation.after ∧
        creation.row ∈ (resource items).store.selected creation.after
          ((resource items).equality "qty" (.text " 1_0.0 "))) ∧
      ((service schema.models).serve quantityList
        ((service schema.models).serve quantityRequest database).2).1.response.status = 200 := by
  have hstatus :
      ((service schema.models).serve quantityRequest database).1.response.status = 201 := by
    decide +kernel
  have htruthful : Application.IsTruthful (route items .post) quantityRequest := by
    intro rejection calls hrejects
    cases hrejects
  have hroute : (service schema.models).route? quantityRequest = some (route items .post, "") := by
    rfl
  have hlist : (service schema.models).route? quantityList = some (route items .gets, "") := by
    rfl
  have hreturns : items.Returns (optional "qty" .integer) (.text " 1_0.0 ") :=
    .inl (.intText (by decide))
  have hadmits : (route items .gets).Admits quantityList [] := ⟨.absent, [], rfl, rfl, rfl⟩
  rcases Application.serve_list_selects_created hroute rfl htruthful hstatus read_quantity.1 rfl
    rfl hreturns hlist rfl rfl hadmits rfl rfl read_quantity.2 with
    ⟨payload, creation, hafter, hselected, _, _⟩
  refine ⟨hstatus, ⟨payload, creation, hafter, hselected⟩, ?_⟩
  decide +kernel

/-- The requests to create an item and to list items. -/
def itemCreation (body : String) : Request where
  verb := "POST"
  path := "/items/".toList
  body := body

def itemList (filters : String) : Request where
  verb := "GET"
  path := "/items/".toList
  items := [("filters", filters)]

/-- The status of a creation, and of the list that follows it. -/
def statuses (db : Database) (body filters : String) : Nat × Nat :=
  let app := service schema.models
  let creation := app.serve (itemCreation body) db
  (creation.1.response.status, (app.serve (itemList filters) creation.2).1.response.status)

/-- A creation is answered with 201, and the list that follows it fails. -/
def failsAfter (texts : String × String) : Bool :=
  let creation := (service schema.models).serve (itemCreation texts.1) .empty
  creation.1.response.status == 201 &&
    match (resource items).list creation.2 [("filters", texts.2)] with
    | .failed _ => true
    | _ => false

/-- Values that a body may give and no filter may. -/
def bodyOnly : List (String × String) := [
  ("\x7b\"weight\":\"nan\"\x7d", "\x7b\"weight\":\x7b\"eq\":\"nan\"\x7d\x7d"),
  ("\x7b\"active\":\"t\"\x7d", "\x7b\"active\":\x7b\"eq\":\"t\"\x7d\x7d"),
  ("\x7b\"made_on\":86400\x7d", "\x7b\"made_on\":\x7b\"eq\":86400\x7d\x7d"),
  ("\x7b\"seen_at\":\"2024-01-01T00:00z\"\x7d",
    "\x7b\"seen_at\":\x7b\"eq\":\"2024-01-01T00:00z\"\x7d\x7d")]

/-- An item that cannot be read. -/
def bogusDatabase : Database :=
  ((service schema.models).serve
    (itemCreation "\x7b\"qty\":5,\"kind\":\"bogus\"\x7d") .empty).2

/-- A post whose state of publication is left to the default by a null. -/
def nullPost : Request where
  verb := "POST"
  path := "/posts/".toList
  body := "\x7b\"title\":\"new\",\"author_id\":1,\"published\":null\x7d"

/-- A created row is not listed by a value that no filter may ask for, nor on a page with a row that
cannot be read.  And a null in whose place the default is put is no value of the row. -/
theorem created_not_listed :
    (statuses .empty "\x7b\"qty\":true\x7d" "\x7b\"qty\":\x7b\"eq\":true\x7d\x7d" =
        (201, 500) ∧
      ∀ texts ∈ bodyOnly, failsAfter texts = true) ∧
      statuses bogusDatabase "\x7b\"qty\":5\x7d" "\x7b\"qty\":\x7b\"eq\":5\x7d\x7d" =
        (201, 500) ∧
      (let creation := (service schema.models).serve nullPost .empty
       creation.1.response.status = 201 ∧
        (resource posts).store.selected creation.2
          ((resource posts).equality "published" .null) = []) := by
  refine ⟨⟨?answered, ?refused⟩, ?unreadable, ?created, ?unlisted⟩
  case answered => decide +kernel
  case refused => decide +kernel
  case unreadable => decide +kernel
  case created => decide +kernel
  case unlisted => decide +kernel

end Sample
end RecordApi
