import RecordApi.Proofs.Api.Atomicity
import RecordApi.Proofs.Storage.Keeping

/-!
# What a creation answers

The answer to a creation is not the row that was put into the table: it is the first row that
a second query finds, and this query knows the new row by the first field of its key alone.
-/

namespace RecordApi

open Steps Storage

namespace Storage

/-- The first element of a list with a property is one element. -/
theorem first_unique
    {α : Type} {p : α → Prop} {a b : α} {as bs as' bs' : List α}
    (h : as ++ a :: bs = as' ++ b :: bs')
    (has : ∀ x ∈ as, ¬ p x) (ha : p a)
    (has' : ∀ x ∈ as', ¬ p x) (hb : p b) :
    a = b := by
  induction as generalizing as' with
  | nil =>
      cases as' with
      | nil => exact (List.cons.inj h).1
      | cons x rest =>
          have hx := has' x List.mem_cons_self
          rw [← (List.cons.inj h).1] at hx
          exact absurd ha hx
  | cons x rest ih =>
      cases as' with
      | nil =>
          have hx := has x List.mem_cons_self
          rw [(List.cons.inj h).1] at hx
          exact absurd hb hx
      | cons y rest' =>
          apply ih (List.cons.inj h).2
          · intro z hz
            exact has z (List.mem_cons_of_mem x hz)
          · intro z hz
            exact has' z (List.mem_cons_of_mem y hz)

end Storage

namespace Resource

variable {r : Resource} {db : Database} {arguments : Arguments}

/-- A creation that came as far as its second query: the row that it inserted, what that row
shows as a whole, and the query that is built from this. -/
structure Creation (r : Resource) (db : Database) (arguments : Arguments) where
  query : RequestQuery
  row : Row
  record : Assoc Value
  entity : Query
  decoded : decode arguments.items = .ok query
  inserted : r.store.insert db arguments.payload = .ok row
  whole : showWhole r.store.model row = .ok record
  built : r.refetch .post query record arguments.payload = .ok entity

namespace Creation

variable (creation : r.Creation db arguments)

/-- The database behind the creation. -/
def after : Database := r.store.added db creation.row

/-- The second query selects a row and none of the rows ahead of it in the table. -/
def Finds (found : Row) : Prop :=
  ∃ ahead behind, creation.after.rows r.store.model = ahead ++ found :: behind ∧
    r.store.Selects creation.after creation.entity found ∧
    ∀ other ∈ ahead, ¬ r.store.Selects creation.after creation.entity other

theorem finds_unique
    {found found' : Row}
    (h : creation.Finds found) (h' : creation.Finds found') :
    found = found' := by
  rcases h with ⟨ahead, behind, hrows, hselects, hahead⟩
  rcases h' with ⟨ahead', behind', hrows', hselects', hahead'⟩
  rw [hrows] at hrows'
  exact first_unique hrows' hahead hselects hahead' hselects'

theorem mem_of_finds
    {found : Row}
    (h : creation.Finds found) :
    found = creation.row ∨ found ∈ db.rows r.store.model := by
  rcases h with ⟨ahead, behind, hrows, _, _⟩
  have hmem : found ∈ creation.after.rows r.store.model := by
    rw [hrows]
    exact List.mem_append_right ahead List.mem_cons_self
  exact List.mem_cons.mp ((Store.perm_rows_added r.store db creation.row).mem_iff.mp hmem)

/-! ## Keys of a single field -/

theorem column?_of_cell
    (hcell : creation.row.cell r.store.model.keyField ≠ .null) :
    ∃ column, r.store.model.column? r.store.model.keyField = some column := by
  cases hcolumn : r.store.model.column? r.store.model.keyField with
  | some column => exact ⟨column, rfl⟩
  | none =>
      have hget : Assoc.get? creation.row r.store.model.keyField = none := by
        rw [(Store.insert_eq_ok creation.inserted).1]
        unfold Assoc.get? newRow
        rw [List.find?_map]
        unfold Model.column? at hcolumn
        change Option.map _ (Option.map _ (r.store.model.columns.find? fun column =>
          column.key == r.store.model.keyField)) = none
        rw [hcolumn]
        rfl
      unfold Row.cell at hcell
      rw [hget] at hcell
      exact absurd rfl hcell

/-- Where the key is not null, the second query asks for what the key shows. -/
theorem filter_entity
    (hcell : creation.row.cell r.store.model.keyField ≠ .null) :
    ∃ column v, r.store.model.column? r.store.model.keyField = some column ∧
      Binding.read? column.type (creation.row.cell r.store.model.keyField) = some v ∧
      v ≠ .null ∧
      creation.entity.filter =
        some (.condition (Predicate.equals r.store.model.keyField v)) := by
  rcases creation.column?_of_cell hcell with ⟨column, hcolumn⟩
  have hfield : r.store.model.keyField ∈ shownFields r.store.model none := by
    rw [← Model.key_of_column? hcolumn]
    exact List.mem_map_of_mem (Model.mem_of_column? hcolumn)
  rcases shows_of_showRow r.store.name rfl creation.whole _ hfield List.not_mem_nil with
    ⟨column', v, hcolumn', hread, hget⟩
  have hv := read?_ne_null hcell hread
  refine ⟨column', v, hcolumn', hread, hv, ?_⟩
  have hwritten : r.written creation.record arguments.payload = r.identified v := by
    unfold written
    rw [hget]
    cases v with
    | null => exact absurd rfl hv
    | _ => rfl
  have hfilter := (entityQuery_eq_ok creation.built).1
  rw [hwritten] at hfilter
  exact hfilter

/-- The row that is found has the key that the new row shows. -/
theorem key_of_finds
    {found : Row}
    (hcell : creation.row.cell r.store.model.keyField ≠ .null)
    (hfound : creation.Finds found) :
    ∃ column v operand, r.store.model.column? r.store.model.keyField = some column ∧
      Binding.read? column.type (creation.row.cell r.store.model.keyField) = some v ∧
      Clause.coerce column v = .ok operand ∧
      (found.cell r.store.model.keyField).sameKey (comparedCell column operand) = true := by
  rcases creation.filter_entity hcell with ⟨column, v, hcolumn, hread, hv, hfilter⟩
  rcases hfound with ⟨_, _, _, hselects, _⟩
  rcases Store.selects_equals hfilter hv hselects with
    ⟨column', operand, hcolumn', hoperand, hsame⟩
  rw [hcolumn] at hcolumn'
  cases hcolumn'
  exact ⟨column, v, operand, hcolumn, hread, hoperand, hsame⟩

/-- Where the key is a single field, the new row is found exactly if its key reads back: no
earlier row has this key. -/
theorem found_iff_readsBack
    {found : Row}
    (hkey : r.store.model.primaryKey = [r.store.model.keyField])
    (hcell : creation.row.cell r.store.model.keyField ≠ .null)
    (hfound : creation.Finds found) :
    found = creation.row ↔ ReadsBack r.store.model creation.row := by
  rcases creation.key_of_finds hcell hfound with
    ⟨column, v, operand, hcolumn, hread, hoperand, hsame⟩
  constructor
  · intro heq
    rw [heq] at hsame
    exact ⟨column, v, operand, hcolumn, hread, hoperand, hsame⟩
  · rintro ⟨column', v', operand', hcolumn', hread', hoperand', hsame'⟩
    rw [hcolumn] at hcolumn'
    cases hcolumn'
    rw [hread] at hread'
    cases hread'
    rw [hoperand] at hoperand'
    cases hoperand'
    rcases creation.mem_of_finds hfound with heq | hmem
    · exact heq
    · have hkeys : Row.sameKey r.store.model creation.row found = true :=
        Row.sameKey_of_single hkey (Cell.sameKey_trans hsame' (Cell.sameKey_symm hsame))
      have hfresh := (Store.insert_eq_ok creation.inserted).2.2
      rw [(Store.isFresh_iff _ _ _).mp hfresh found hmem] at hkeys
      cases hkeys

/-- The key of a new row that counts up is an integer. -/
theorem cell_of_countsUp
    {column : Column}
    (hcolumn : r.store.model.column? r.store.model.keyField = some column)
    (hcounts : r.store.model.countsUp column = true) :
    ∃ n, creation.row.cell r.store.model.keyField = .int n :=
  Store.cell_of_isComplete hcolumn hcounts (Store.insert_eq_ok creation.inserted).2.1

/-- A key that counts up reads back whenever some row is found by it. -/
theorem readsBack_of_countsUp
    {found : Row} {column : Column}
    (hcolumn : r.store.model.column? r.store.model.keyField = some column)
    (hcounts : r.store.model.countsUp column = true)
    (hfound : creation.Finds found) :
    ReadsBack r.store.model creation.row := by
  rcases creation.cell_of_countsUp hcolumn hcounts with ⟨n, hint⟩
  have htype := (Model.of_countsUp hcounts).2
  have hcell : creation.row.cell r.store.model.keyField ≠ .null := by
    rw [hint]
    exact Cell.noConfusion
  rcases creation.key_of_finds hcell hfound with
    ⟨column', v, operand, hcolumn', hread, hoperand, hsame⟩
  rw [hcolumn] at hcolumn'
  cases hcolumn'
  rw [hint, htype] at hread
  cases hread
  rw [coerce_int n htype] at hoperand
  cases hoperand
  have hkept : column.type.Keeps (creation.row.cell r.store.model.keyField) (.int n) := by
    rw [hint, htype]
    exact .int (fitsWord_of_sameKey htype hsame)
  exact hkept.readsBack hcolumn

end Creation

/-- A creation that gives a record inserted a row and gives the row found by its second
query. -/
theorem create_eq_done
    (arguments : Arguments) {data : Value} {after : Database}
    (h : r.create db arguments.items arguments.payload = (.done data, after)) :
    ∃ (creation : r.Creation db arguments) (found : Row) (record : Assoc Value),
      data = .map record ∧ after = creation.after ∧ creation.Finds found ∧
      r.Displays .post creation.query found record := by
  cases hquery : decode arguments.items with
  | error failure =>
      unfold create at h
      rw [hquery] at h
      cases h
  | ok query =>
      cases hrow : r.store.insert db arguments.payload with
      | error error =>
          unfold create Store.create at h
          rw [hquery, hrow] at h
          cases h
      | ok row =>
          rw [create_of_insert hquery hrow] at h
          rcases Prod.mk.inj h with ⟨hdone, hafter⟩
          rcases confirmation_eq_done hdone with
            ⟨record, entity, shown, hrecord, hentity, hfind, hdata⟩
          rcases find_entityQuery hentity hfind with
            ⟨ahead, found, behind, hrows, hahead, hselects, hdisplays⟩
          refine ⟨⟨query, row, record, entity, hquery, hrow, hrecord, hentity⟩, found, shown,
            hdata, hafter.symm, ⟨ahead, behind, hrows, hselects, hahead⟩, hdisplays⟩

end Resource

/-! ## Requests that create -/

namespace Application

open Http

variable {app : Application} {route : Route} {id : String} {request : Request} {db : Database}

/-- A creation answered with success inserted one row and shows the row that its second query
finds.  This is the inserted row exactly when the query selects it before every other row;
where the key is a single field, exactly when the key reads back, and so for every key that
counts up. -/
theorem serve_create_shows_iff
    (hroute : app.route? request = some (route, id))
    (hmethod : route.method = .post)
    (htruthful : IsTruthful route request)
    (hstatus : (app.serve request db).1.response.status = 201) :
    ∃ payload found record,
      ∃ creation : route.resource.Creation db ⟨id, request.items, payload⟩,
      route.Admits request payload ∧
      (app.serve request db).2 = creation.after ∧
      (app.serve request db).1.response.body = .json (.map record) ∧
      route.resource.Displays .post creation.query found record ∧
      creation.Finds found ∧
      (found = creation.row ↔ creation.Finds creation.row) ∧
      (route.resource.store.model.primaryKey.length = 1 →
        creation.row.cell route.resource.store.model.keyField ≠ .null →
        (found = creation.row ↔ ReadsBack route.resource.store.model creation.row)) ∧
      (∀ column, route.resource.store.model.column? route.resource.store.model.keyField =
          some column →
        route.resource.store.model.countsUp column = true → found = creation.row) := by
  have hsuccess : route.successStatus = 201 := by
    unfold Route.successStatus
    rw [hmethod]
  rw [← hsuccess] at hstatus
  rcases shown_of_success hroute htruthful hstatus with
    ⟨payload, data, after, hadmits, hrun, hbody, hafter⟩
  rw [hmethod] at hrun
  rcases Resource.create_eq_done ⟨id, request.items, payload⟩ hrun with
    ⟨creation, found, record, hdata, hdatabase, hfinds, hdisplays⟩
  have hreads : route.resource.store.model.primaryKey.length = 1 →
      creation.row.cell route.resource.store.model.keyField ≠ .null →
      (found = creation.row ↔ ReadsBack route.resource.store.model creation.row) := by
    intro hlength hcell
    exact creation.found_iff_readsBack (Model.primaryKey_of_single hlength) hcell hfinds
  refine ⟨payload, found, record, creation, hadmits, ?_, ?_, hdisplays, hfinds, ?_, hreads, ?_⟩
  · rw [hafter, hdatabase]
  · rw [hbody, hdata]
  · constructor
    · intro heq
      rw [heq] at hfinds
      exact hfinds
    · intro hrow
      exact creation.finds_unique hfinds hrow
  · intro column hcolumn hcounts
    rcases creation.cell_of_countsUp hcolumn hcounts with ⟨n, hint⟩
    have hlength : route.resource.store.model.primaryKey.length = 1 := by
      unfold Model.countsUp at hcounts
      rw [Bool.and_eq_true] at hcounts
      rw [beq_iff_eq.mp hcounts.1]
      rfl
    apply (hreads hlength ?_).mpr (creation.readsBack_of_countsUp hcolumn hcounts hfinds)
    rw [hint]
    exact Cell.noConfusion

end Application
namespace Sample

open Http

def authorRequest : Request where
  verb := "POST"
  path := "/authors/".toList
  body := "\x7b\"name\":\"n\",\"age\":1\x7d"

/-- A membership of a user who has others in smaller groups. -/
def membershipRequest : Request where
  verb := "POST"
  path := "/memberships/".toList
  body := "\x7b\"user_id\":1,\"group_id\":9,\"role\":\"x\"\x7d"

/-- A new author is shown by a key that counts up. -/
theorem serve_create_shows_iff_author :
    (service schema.models).route? authorRequest = some (route authors .post, "") ∧
      ((service schema.models).serve authorRequest database).1.response.status = 201 ∧
      ∃ payload, ∃ creation : (resource authors).Creation database ⟨"", [], payload⟩,
        creation.Finds creation.row := by
  have hroute : (service schema.models).route? authorRequest = some (route authors .post, "") := by
    rfl
  have hstatus :
      ((service schema.models).serve authorRequest database).1.response.status = 201 := by
    decide +kernel
  have htruthful : Application.IsTruthful (route authors .post) authorRequest := by
    intro rejection calls hrejects
    cases hrejects
  rcases Application.serve_create_shows_iff hroute rfl htruthful hstatus with
    ⟨payload, found, _, creation, _, _, _, _, _, hiff, _, hcounts⟩
  have hfound : found = creation.row := hcounts identity rfl rfl
  exact ⟨hroute, hstatus, payload, creation, hiff.mp hfound⟩

/-- The membership is stored, and the answer shows another one of the same user. -/
theorem shared_lead_shows_other :
    ((service schema.models).serve membershipRequest database).1.response.status = 201 ∧
      answerText ((service schema.models).serve membershipRequest database).1 =
        "\x7b\"user_id\":1,\"group_id\":1,\"role\":\"owner\"\x7d" ∧
      ((service schema.models).serve membershipRequest database).2.rows memberships =
        [[.int 1, .int 1, .text "owner"], [.int 1, .int 2, .text "guest"],
          [.int 1, .int 9, .text "x"], [.int 2, .int 1, .text "guest"]].map
            (rowOf memberships) := by
  refine ⟨?_, ?_, ?_⟩
  · decide +kernel
  · decide +kernel
  · decide +kernel

end Sample
end RecordApi
