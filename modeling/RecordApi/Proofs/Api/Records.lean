import RecordApi.Api.Resource
import RecordApi.Proofs.Query.Building
import RecordApi.Proofs.Storage.Finding

/-!
# The record of an answer

The query for one entity keeps the predicate that it is built from, asks for no order, and
includes the relations of the request under their own names.  What it finds is therefore the
first row of the table that it selects, with the columns that the request asks for.
-/

namespace RecordApi

open Steps Storage

/-! ## The query for an entity -/

/-- A row has the same cell as another one in the first field of the key. -/
def Store.sharesLead (store : Store) (row other : Row) : Bool :=
  (other.cell store.model.keyField).sameKey (row.cell store.model.keyField)

namespace Resource

variable {r : Resource} {db : Database} {method : Method}

/-- An answer shows a row as a method shows it to a request: the requested columns hold what
the row holds, except where a requested relation has the name of a column. -/
def Displays (r : Resource) (method : Method) (query : RequestQuery) (row : Row)
    (shown : Assoc Value) : Prop :=
  Shows r.store.model
    (shownFields r.store.model (QueryBuilder.attributes query.fields (r.defaults method).fields))
    (query.relations.getD []) row shown

theorem entityQuery_eq_ok
    {request : RequestQuery} {filter : Predicate} {query : Query}
    (h : r.entityQuery method request filter = .ok query) :
    query.filter = some filter ∧ query.order = none ∧
      query.attributes = QueryBuilder.attributes request.fields (r.defaults method).fields ∧
      (query.inclusions.getD []).map (·.relation) = request.relations.getD [] := by
  unfold entityQuery QueryBuilder.forEntity at h
  rw [mapError_eq_ok] at h
  rcases bind_eq_ok.mp h with ⟨inclusions, hinclusions, h⟩
  rw [← pure_eq_ok.mp h]
  exact ⟨rfl, rfl, rfl, Inclusion.relations_of_resolve hinclusions⟩

theorem find_entityQuery
    {request : RequestQuery} {filter : Predicate} {query : Query} {shown : Assoc Value}
    (hquery : r.entityQuery method request filter = .ok query)
    (h : r.find db query = .ok (some shown)) :
    ∃ ahead row behind, db.rows r.store.model = ahead ++ row :: behind ∧
      (∀ other ∈ ahead, ¬ r.store.Selects db query other) ∧ r.store.Selects db query row ∧
      r.Displays method request row shown := by
  rcases entityQuery_eq_ok hquery with ⟨_, horder, hattributes, hrelations⟩
  unfold find at h
  rw [mapError_eq_ok] at h
  have hfound := Store.find_eq_some horder h
  rw [hattributes, hrelations] at hfound
  exact hfound

/-- The record that a path names is a row whose key is that of the id. -/
theorem named_eq_some
    {id : String} {items : List (String × String)} {record : Assoc Value}
    (h : r.named method db id items = .ok (some record)) :
    ∃ query row column v, decode items = .ok query ∧ row ∈ db.rows r.store.model ∧
      r.store.model.column? r.store.model.keyField = some column ∧
      Clause.coerce column (.text id) = .ok v ∧
      (row.cell r.store.model.keyField).sameKey (comparedCell column v) = true ∧
      r.Displays method query row record := by
  unfold named at h
  rcases bind_eq_ok.mp h with ⟨query, hdecode, h⟩
  rcases bind_eq_ok.mp h with ⟨entity, hentity, h⟩
  rcases find_entityQuery hentity h with ⟨ahead, row, behind, hrows, _, hselects, hdisplays⟩
  rcases Store.selects_equals (entityQuery_eq_ok hentity).1 Value.noConfusion hselects with
    ⟨column, v, hcolumn, hv, hkey⟩
  refine ⟨query, row, column, v, hdecode, ?_, hcolumn, hv, hkey, hdisplays⟩
  rw [hrows]
  exact List.mem_append_right ahead List.mem_cons_self

/-- The rows that are destroyed under the id of a record are those that share the first key
field with the row that the record shows. -/
theorem spared_of_named
    {id : String} {items : List (String × String)} {record : Assoc Value} {rows : List Row}
    (hrecord : r.named method db id items = .ok (some record))
    (hrows : r.store.spared db (some (r.identified (.text id))) = .ok rows) :
    ∃ query row, decode items = .ok query ∧ row ∈ db.rows r.store.model ∧
      r.Displays method query row record ∧ r.store.sharesLead row row = true ∧
      rows = (db.rows r.store.model).filter fun other => !r.store.sharesLead row other := by
  rcases named_eq_some hrecord with
    ⟨query, row, column, v, hdecode, hrow, hcolumn, hv, hkey, hdisplays⟩
  rcases Store.spared_equals Value.noConfusion hrows with ⟨column', v', hcolumn', hv', hkept⟩
  -- the record and the rows are found by the same predicate, so by one compared cell
  rw [hcolumn] at hcolumn'
  cases hcolumn'
  rw [hv] at hv'
  cases hv'
  have hlead : r.store.sharesLead row = fun other =>
      (other.cell r.store.model.keyField).sameKey (comparedCell column v) := by
    funext other
    exact Cell.sameKey_congr hkey _
  refine ⟨query, row, hdecode, hrow, hdisplays, ?_, ?_⟩
  · exact Cell.sameKey_trans hkey (Cell.sameKey_symm hkey)
  · rw [hkept, hlead]

end Resource
end RecordApi
