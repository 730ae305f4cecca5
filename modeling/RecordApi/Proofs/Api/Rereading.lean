import RecordApi.Proofs.Api.Creation
import RecordApi.Proofs.Conversion.Sharing

/-!
# Reading what was written

A creation and a change end with a query for the row that they wrote, by the value that its key
shows.  Where the key counts up this value is an integer, and a path that holds its text asks the
same of the rows.  What is read next under the path is therefore what the write showed.
-/

namespace RecordApi

open Steps Storage

/-! ## Queries for one key -/

namespace Clause

/-- The text of a word is compared with integers as the word itself. -/
theorem coerce_toString
    {column : Column} {n : Int}
    (htype : column.type = .integer) (hfits : fitsWord n = true) :
    coerce column (.text (toString n)) = .ok (.int n) := by
  have hread : Operand.decimalOf? (.text (toString n)) = some (Decimal.ofInt n) := by
    change Decimal.ofChars? (Value.trimmedChars (.text (toString n))) = _
    rw [Conversion.trimmedChars_text, Numeral.trimChars_toString, Decimal.ofChars?_toString hfits]
  have hnumber : Operand.number column.key (.text (toString n)) = .ok (Decimal.ofInt n) :=
    Operand.number_eq_ok hread rfl
  have hcoerce := Operand.coerce_integer hnumber Value.noConfusion (toInt?_ofInt n)
  have hkind : column.type.kind = .int := by
    rw [htype]
    rfl
  unfold coerce
  rw [hkind, hcoerce]
  rfl

/-- A condition asks the same with two operands that are converted alike. -/
theorem ofPredicate_equals_congr
    {model : Model} {name field : String} {column : Column} {v w : Value}
    (hcolumn : model.column? field = some column)
    (h : coerce column v = coerce column w) :
    ofPredicate model name (.condition (Predicate.equals field v)) =
      ofPredicate model name (.condition (Predicate.equals field w)) := by
  have hfound : Clause.column model name field = .ok column := column_eq_ok.mpr hcolumn
  change (do
    let column ← Clause.column model name field
    return Clause.test column (← testOf model name column .eq v)) = (do
    let column ← Clause.column model name field
    return Clause.test column (← testOf model name column .eq w))
  rw [hfound]
  change (do return Clause.test column (← testOf model name column .eq v)) =
    (do return Clause.test column (← testOf model name column .eq w))
  unfold testOf
  dsimp only
  rw [h]

end Clause

namespace Store

variable {store : Store}

/-- What a query finds depends on its filter only by what this asks of the rows. -/
theorem find_congr
    (db : Database) {query : Query} {filter : Option Predicate}
    (h : Clause.ofPredicate? store.model store.name filter =
      Clause.ofPredicate? store.model store.name query.filter) :
    store.find db { query with filter } = store.find db query := by
  have hselection : Selection.ofQuery store { query with filter } =
      Selection.ofQuery store query := by
    unfold Selection.ofQuery
    dsimp only
    rw [h]
  unfold find
  rw [hselection]
  rfl

end Store

namespace Resource

variable {r : Resource} {db after : Database} {method : Method} {arguments : Arguments}
  {row : Row} {column : Column} {n : Int}

/-! ## The row that a method stores -/

/-- A method that ends well stores a row and leaves the table with it. -/
inductive Stores (r : Resource) (db : Database) (arguments : Arguments) :
    Method → Row → Database → Prop
  | insert {row : Row} (hrow : r.store.insert db arguments.payload = .ok row) :
      Stores r db arguments .post row (r.store.added db row)
  | replace {row next : Row}
      (hnext : r.store.replacement db (.text arguments.id) arguments.payload =
        .ok (some (row, next))) :
      Stores r db arguments .put next (r.store.replaced db row next)

theorem mem_of_stores (h : r.Stores db arguments method row after) :
    row ∈ after.rows r.store.model := by
  cases h with
  | insert hrow => exact (Store.perm_rows_added r.store db row).mem_iff.mpr List.mem_cons_self
  | replace hnext => exact Store.mem_replaced (Store.replacement_eq_some hnext).1

theorem isComplete_of_stores (h : r.Stores db arguments method row after) :
    isComplete r.store.model row = true := by
  cases h with
  | insert hrow => exact (Store.insert_eq_ok hrow).2.1
  | replace hnext => exact (Store.replacement_eq_some hnext).2.1

theorem stores_of_create
    {data : Value}
    (h : r.create db arguments.items arguments.payload = (.done data, after)) :
    ∃ query row, decode arguments.items = .ok query ∧ r.Stores db arguments .post row after ∧
      r.confirmation .post after query row arguments.payload = .done data := by
  cases hquery : decode arguments.items with
  | error failure =>
      unfold create at h
      rw [hquery] at h
      cases h
  | ok query =>
      cases hrow : r.store.insert db arguments.payload with
      | error error =>
          unfold create Store.create at h
          rw [hquery, hrow] at h
          cases h
      | ok row =>
          rw [create_of_insert hquery hrow] at h
          rcases Prod.mk.inj h with ⟨hdone, rfl⟩
          exact ⟨query, row, rfl, .insert hrow, hdone⟩

theorem stores_of_update
    {data : Value}
    (h : r.update db arguments.id arguments.items arguments.payload = (.done data, after)) :
    ∃ query row, decode arguments.items = .ok query ∧ r.Stores db arguments .put row after ∧
      r.confirmation .put after query row arguments.payload = .done data := by
  cases hfound : r.existing db arguments.id arguments.items with
  | error failure =>
      unfold update at h
      rw [hfound] at h
      cases h
  | ok answer =>
      rcases answer with ⟨query, _ | found⟩
      · unfold update at h
        rw [hfound] at h
        cases h
      · rcases bind_eq_ok.mp hfound with ⟨_, hquery, hexisting⟩
        rcases bind_eq_ok.mp hexisting with ⟨_, _, hexisting⟩
        cases pure_eq_ok.mp hexisting
        cases hnext : r.store.replacement db (.text arguments.id) arguments.payload with
        | error error =>
            unfold update Store.update at h
            rw [hfound, hnext] at h
            cases h
        | ok rows =>
            rcases rows with _ | ⟨row, next⟩
            · unfold update Store.update at h
              rw [hfound, hnext] at h
              cases h
            · rw [update_of_replacement hfound hnext] at h
              rcases Prod.mk.inj h with ⟨hdone, rfl⟩
              exact ⟨query, next, hquery, .replace hnext, hdone⟩

/-- A creation or a change that gives a record stored a row and gives what confirms it. -/
theorem stores_of_done
    {data : Value}
    (hmethod : method = .post ∨ method = .put)
    (h : r.run method db arguments = (.done data, after)) :
    ∃ query row, decode arguments.items = .ok query ∧ r.Stores db arguments method row after ∧
      r.confirmation method after query row arguments.payload = .done data := by
  rcases hmethod with rfl | rfl
  · exact stores_of_create h
  · exact stores_of_update h

/-! ## Its key -/

/-- A row whose key is an integer is known by this integer. -/
theorem written_of_int
    {record payload : Assoc Value}
    (hcolumn : r.store.model.column? r.store.model.keyField = some column)
    (htype : column.type = .integer)
    (hcell : row.cell r.store.model.keyField = .int n)
    (hrecord : showWhole r.store.model row = .ok record) :
    r.written record payload = r.identified (.int n) := by
  have hfield : r.store.model.keyField ∈ shownFields r.store.model none := by
    rw [← Model.key_of_column? hcolumn]
    exact List.mem_map_of_mem (Model.mem_of_column? hcolumn)
  rcases shows_of_showRow r.store.name rfl hrecord _ hfield List.not_mem_nil with
    ⟨column', v, hcolumn', hread, hget⟩
  rw [hcolumn] at hcolumn'
  cases hcolumn'
  rw [hcell, htype] at hread
  cases hread
  unfold written
  rw [hget]
  rfl

/-- A row that is found by an integer is found by a word. -/
theorem fitsWord_of_find
    {request : RequestQuery} {query : Query} {shown : Assoc Value}
    (hcolumn : r.store.model.column? r.store.model.keyField = some column)
    (htype : column.type = .integer)
    (hquery : r.entityQuery method request (r.identified (.int n)) = .ok query)
    (h : r.find db query = .ok (some shown)) :
    fitsWord n = true := by
  rcases find_entityQuery hquery h with ⟨_, found, _, _, _, hselects, _⟩
  rcases Store.selects_equals (entityQuery_eq_ok hquery).1 Value.noConfusion hselects with
    ⟨column', operand, hcolumn', hoperand, hsame⟩
  rw [hcolumn] at hcolumn'
  cases hcolumn'
  rw [coerce_int n htype] at hoperand
  cases hoperand
  exact fitsWord_of_sameKey htype hsame

theorem entityQuery_with
    {method' : Method} {request : RequestQuery} {filter filter' : Predicate} {query : Query}
    (hdefaults : r.options.defaultFields method = r.options.defaultFields method')
    (h : r.entityQuery method request filter = .ok query) :
    r.entityQuery method' request filter' = .ok { query with filter := some filter' } := by
  have hsame : r.defaults method' = r.defaults method := by
    unfold defaults
    rw [hdefaults]
  unfold entityQuery QueryBuilder.forEntity at h ⊢
  rw [hsame]
  rw [mapError_eq_ok] at h ⊢
  rcases bind_eq_ok.mp h with ⟨inclusions, hinclusions, h⟩
  rw [hinclusions, ← pure_eq_ok.mp h]
  rfl

/-- What confirms a stored row is read again under the text of its key. -/
theorem get_of_confirmation
    {items : List (String × String)} {query : RequestQuery} {payload : Assoc Value} {data : Value}
    (hdefaults : r.options.defaultFields method = r.options.defaultFields .get)
    (hcolumn : r.store.model.column? r.store.model.keyField = some column)
    (htype : column.type = .integer)
    (hcell : row.cell r.store.model.keyField = .int n)
    (hquery : decode items = .ok query)
    (h : r.confirmation method db query row payload = .done data) :
    r.get db (toString n) items = .done data := by
  rcases confirmation_eq_done h with ⟨record, entity, shown, hrecord, hentity, hfind, rfl⟩
  unfold refetch at hentity
  rw [written_of_int hcolumn htype hcell hrecord] at hentity
  have hfits := fitsWord_of_find hcolumn htype hentity hfind
  have hcoerce : Clause.coerce column (.text (toString n)) = Clause.coerce column (.int n) := by
    rw [Clause.coerce_toString htype hfits, coerce_int n htype]
  -- the path asks for the text of the key where the write asked for the key
  have hagain : r.find db { entity with filter := some (r.identified (.text (toString n))) } =
      .ok (some shown) := by
    unfold find at hfind ⊢
    rw [Store.find_congr db, hfind]
    rw [(entityQuery_eq_ok hentity).1]
    unfold Clause.ofPredicate? identified
    dsimp only
    rw [Clause.ofPredicate_equals_congr hcolumn hcoerce]
  unfold get named
  rw [hquery]
  change Outcome.ofRecord (r.entityQuery .get query _ >>= r.find db) = _
  rw [entityQuery_with hdefaults hentity]
  change Outcome.ofRecord (r.find db _) = _
  rw [hagain]
  rfl

end Resource

/-! ## Requests that read what was written -/

namespace Application

open Http

variable {app : Application} {route : Route} {id : String} {request : Request} {db : Database}

/-- Where a route reads records, a request that its guards let pass reaches it. -/
theorem admits_get
    (hmethod : route.method = .get)
    (hguards : ∃ calls, Guard.run request route.guards = (.passes, calls)) :
    route.Admits request [] := by
  rcases hguards with ⟨calls, hguards⟩
  refine ⟨.absent, calls, ?_, hguards, ?_⟩
  · unfold body
    rw [hmethod]
    rfl
  · unfold payload
    rw [hmethod]
    rfl

theorem isFiniteTree_of_success
    {payload : Assoc Value} {data : Value} {after : Database}
    (hroute : app.route? request = some (route, id))
    (hadmits : route.Admits request payload)
    (hrun : route.resource.run route.method db ⟨id, request.items, payload⟩ = (.done data, after))
    (hstatus : (app.serve request db).1.response.status = route.successStatus) :
    Json.isFiniteTree data = true := by
  have hserve := serve_of_admits db hroute hadmits
  rw [hrun] at hserve
  have hsuccess : (app.response route request (.done data)).IsSuccess := by
    have hroutes := successStatus_eq route
    unfold Response.IsSuccess
    rw [← hserve.1, hstatus]
    omega
  rcases (isSuccess_response_iff app route request _).mp hsuccess with ⟨_, hdone, hfinite⟩
  cases hdone
  exact hfinite

/-- A creation or a change that is answered with success stored a row, and reading the key of
this row next, with the same query and past the guards, gives the same answer and leaves the
database as it is. -/
theorem serve_get_of_stored
    {column : Column}
    (hroute : app.route? request = some (route, id))
    (hmethod : route.method = .post ∨ route.method = .put)
    (hdefaults : route.resource.options.defaultFields route.method =
      route.resource.options.defaultFields .get)
    (hcolumn : route.resource.store.model.column? route.resource.store.model.keyField =
      some column)
    (hcounts : route.resource.store.model.countsUp column = true)
    (htruthful : IsTruthful route request)
    (hstatus : (app.serve request db).1.response.status = route.successStatus) :
    ∃ payload row n, route.Admits request payload ∧
      route.resource.Stores db ⟨id, request.items, payload⟩ route.method row
        (app.serve request db).2 ∧
      row ∈ (app.serve request db).2.rows route.resource.store.model ∧
      row.cell route.resource.store.model.keyField = .int n ∧
      ∀ (next : Request) (reader : Route), app.route? next = some (reader, toString n) →
        reader.method = .get → reader.resource = route.resource → next.items = request.items →
        (∃ calls, Guard.run next reader.guards = (.passes, calls)) →
          (app.serve next (app.serve request db).2).1.response.status = 200 ∧
          (app.serve next (app.serve request db).2).1.response.body =
            (app.serve request db).1.response.body ∧
          (app.serve next (app.serve request db).2).2 = (app.serve request db).2 := by
  rcases shown_of_success hroute htruthful hstatus with
    ⟨payload, data, after, hadmits, hrun, hbody, hafter⟩
  have hfinite := isFiniteTree_of_success hroute hadmits hrun hstatus
  rcases Resource.stores_of_done hmethod hrun with ⟨query, row, hquery, hstores, hconfirms⟩
  rcases Store.cell_of_isComplete hcolumn hcounts (Resource.isComplete_of_stores hstores) with
    ⟨n, hcell⟩
  have htype : column.type = .integer := by
    unfold Model.countsUp at hcounts
    rw [Bool.and_eq_true] at hcounts
    exact beq_iff_eq.mp hcounts.2
  have hget := Resource.get_of_confirmation hdefaults hcolumn htype hcell hquery hconfirms
  rw [hafter, hbody]
  refine ⟨payload, row, n, hadmits, hstores, Resource.mem_of_stores hstores, hcell, ?_⟩
  intro next reader hnext hreads hresource hitems hguards
  have hread : reader.resource.run reader.method after ⟨toString n, next.items, []⟩ =
      (.done data, after) := by
    rw [hreads, hresource, hitems]
    exact Prod.ext hget rfl
  have hserve := serve_of_admits after hnext (admits_get hreads hguards)
  rw [hread] at hserve
  rcases hserve with ⟨hanswer, hshown, hkept⟩
  rw [response_of_isShown hfinite] at hanswer hshown
  refine ⟨?_, hshown, hkept⟩
  rw [hanswer]
  change reader.successStatus = 200
  unfold Route.successStatus
  rw [hreads]

end Application

namespace Sample

open Http

/-- One node without a parent. -/
def lonelyRoot : Database where
  tables := [table nodes [[.int 1, .text "root", .null]]]
  links := []

/-- The node gets another key and becomes its own parent. -/
def renumbering : Request where
  verb := "PUT"
  path := "/nodes/1".toList
  items := [("relations", "children")]
  body := "\x7b\"id\":7,\"parent_id\":7\x7d"

def seventhNode : Request where
  verb := "GET"
  path := "/nodes/7".toList
  items := [("relations", "children")]

/-- The node is read under its new key as the change showed it. -/
theorem serve_get_of_stored_node :
    ((service [nodes]).serve renumbering lonelyRoot).1.response.status = 200 ∧
      ((service [nodes]).serve seventhNode
        ((service [nodes]).serve renumbering lonelyRoot).2).1.response.status = 200 ∧
      ((service [nodes]).serve seventhNode
        ((service [nodes]).serve renumbering lonelyRoot).2).1.response.body =
          ((service [nodes]).serve renumbering lonelyRoot).1.response.body := by
  have hroute : (service [nodes]).route? renumbering = some (route nodes .put, "1") := by rfl
  have hnext : (service [nodes]).route? seventhNode =
      some (route nodes .get, toString (7 : Int)) := by
    rfl
  have hserve : ((service [nodes]).serve renumbering lonelyRoot).1.response.status = 200 ∧
      ((service [nodes]).serve renumbering lonelyRoot).2.rows nodes =
        [rowOf nodes [.int 7, .text "root", .int 7]] := by
    decide +kernel
  have htruthful : Application.IsTruthful (route nodes .put) renumbering := by
    intro rejection calls hrejects
    cases hrejects
  have hcolumn : nodes.column? nodes.keyField = some identity := by rfl
  rcases Application.serve_get_of_stored hroute (Or.inr rfl) rfl hcolumn rfl htruthful hserve.1
    with ⟨payload, row, n, _, _, hrow, hcell, hreads⟩
  have hkey : n = 7 := by
    change row ∈ ((service [nodes]).serve renumbering lonelyRoot).2.rows nodes at hrow
    rw [hserve.2, List.mem_singleton] at hrow
    rw [hrow] at hcell
    exact (Cell.int.inj hcell).symm
  rw [hkey] at hreads
  rcases hreads seventhNode (route nodes .get) hnext rfl rfl rfl ⟨[], rfl⟩ with
    ⟨hstatus, hbody, _⟩
  exact ⟨hserve.1, hstatus, hbody⟩

end Sample
end RecordApi
