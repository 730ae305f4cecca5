import RecordApi.Proofs.Api.Records
import RecordApi.Proofs.Api.Serving
import RecordApi.Sample.Service

/-!
# Requests that write

`Resource.Write` lists the ways in which a request changes the database: a new row, a row in
the place of a different one, and rows taken away.  In the first two the answer is decided
after the row was written, so that a request can fail and leave its row behind.
-/

namespace RecordApi

open Steps Storage

namespace Resource

variable {r : Resource} {db : Database} {method : Method} {arguments : Arguments}

/-- What comes of a written row: it is read as a whole, and then again by the query of the
request. -/
def confirmation (r : Resource) (method : Method) (db : Database) (query : RequestQuery)
    (row : Row) (payload : Assoc Value) : Outcome :=
  match showWhole r.store.model row with
  | .error error => .failed (.store error)
  | .ok record => r.reread method db query record payload

/-- A method changes the database to another one, and what then comes of the request. -/
inductive Write (r : Resource) (db : Database) (arguments : Arguments) :
    Method → Database → Outcome → Prop
  | insert {query : RequestQuery} {row : Row}
      (hquery : decode arguments.items = .ok query)
      (hrow : r.store.insert db arguments.payload = .ok row) :
      Write r db arguments .post (r.store.added db row)
        (r.confirmation .post (r.store.added db row) query row arguments.payload)
  | replace {query : RequestQuery} {found : Assoc Value} {row next : Row}
      (hfound : r.existing db arguments.id arguments.items = .ok (query, some found))
      (hnext : r.store.replacement db (.text arguments.id) arguments.payload =
        .ok (some (row, next)))
      (hne : next ≠ row) :
      Write r db arguments .put (r.store.replaced db row next)
        (r.confirmation .put (r.store.replaced db row next) query next arguments.payload)
  | remove {record : Assoc Value} {rows : List Row}
      (hrecord : r.named .delete db arguments.id arguments.items = .ok (some record))
      (hrows : r.store.spared db (some (r.identified (.text arguments.id))) = .ok rows) :
      Write r db arguments .delete (db.withRows r.store.model rows) (.done (.map record))

theorem confirmation_eq_done
    {query : RequestQuery} {row : Row} {payload : Assoc Value} {data : Value}
    (h : r.confirmation method db query row payload = .done data) :
    ∃ record entity shown, showWhole r.store.model row = .ok record ∧
      r.refetch method query record payload = .ok entity ∧
      r.find db entity = .ok (some shown) ∧ data = .map shown := by
  unfold confirmation at h
  cases hrecord : showWhole r.store.model row with
  | error error =>
      rw [hrecord] at h
      cases h
  | ok record =>
      rw [hrecord] at h
      change Outcome.ofRecord (r.refetch method query record payload >>= r.find db) = _ at h
      cases hfound : r.refetch method query record payload >>= r.find db with
      | error failure =>
          rw [hfound] at h
          cases h
      | ok found =>
          rw [hfound] at h
          rcases bind_eq_ok.mp hfound with ⟨entity, hentity, hfind⟩
          cases found with
          | none => cases h
          | some shown =>
              cases h
              exact ⟨record, entity, shown, rfl, hentity, hfind, rfl⟩

/-- A written row is shown when every step behind its commit succeeds: the row is read, the
query for it is built and run, it finds a row, and JSON can hold what is shown. -/
theorem isShown_confirmation_iff
    (r : Resource) (method : Method) (db : Database) (query : RequestQuery) (row : Row)
    (payload : Assoc Value) :
    (r.confirmation method db query row payload).IsShown ↔
      ∃ record entity shown, showWhole r.store.model row = .ok record ∧
        r.refetch method query record payload = .ok entity ∧
        r.find db entity = .ok (some shown) ∧ Json.isFiniteTree (.map shown) = true := by
  constructor
  · rintro ⟨data, hdone, hfinite⟩
    rcases confirmation_eq_done hdone with
      ⟨record, entity, shown, hrecord, hentity, hfind, hdata⟩
    rw [hdata] at hfinite
    exact ⟨record, entity, shown, hrecord, hentity, hfind, hfinite⟩
  · rintro ⟨record, entity, shown, hrecord, hentity, hfind, hfinite⟩
    refine ⟨.map shown, ?_, hfinite⟩
    unfold confirmation
    rw [hrecord]
    change Outcome.ofRecord (r.refetch method query record payload >>= r.find db) = _
    rw [bind_eq_ok.mpr ⟨entity, hentity, hfind⟩]
    rfl

/-! ## The methods that write -/

theorem create_of_insert
    {query : RequestQuery} {row : Row}
    (hquery : decode arguments.items = .ok query)
    (hrow : r.store.insert db arguments.payload = .ok row) :
    r.create db arguments.items arguments.payload =
      (r.confirmation .post (r.store.added db row) query row arguments.payload,
        r.store.added db row) := by
  unfold create Store.create confirmation
  rw [hquery, hrow]
  dsimp only
  cases showWhole r.store.model row with
  | error error => rfl
  | ok record => rfl

theorem update_of_replacement
    {query : RequestQuery} {found : Assoc Value} {row next : Row}
    (hfound : r.existing db arguments.id arguments.items = .ok (query, some found))
    (hnext : r.store.replacement db (.text arguments.id) arguments.payload =
      .ok (some (row, next))) :
    r.update db arguments.id arguments.items arguments.payload =
      (r.confirmation .put (r.store.replaced db row next) query next arguments.payload,
        r.store.replaced db row next) := by
  unfold update Store.update confirmation
  rw [hfound, hnext]
  dsimp only
  cases showWhole r.store.model next with
  | error error => rfl
  | ok record => rfl

theorem delete_of_spared
    {id : String} {items : List (String × String)} {record : Assoc Value} {rows : List Row}
    (hrecord : r.named .delete db id items = .ok (some record))
    (hrows : r.store.spared db (some (r.identified (.text id))) = .ok rows) :
    r.delete db id items = (.done (.map record), db.withRows r.store.model rows) := by
  unfold delete Store.destroy
  rw [hrecord, hrows]

theorem run_of_write
    {after : Database} {outcome : Outcome}
    (h : r.Write db arguments method after outcome) :
    r.run method db arguments = (outcome, after) := by
  cases h with
  | insert hquery hrow => exact create_of_insert hquery hrow
  | replace hfound hnext _ => exact update_of_replacement hfound hnext
  | remove hrecord hrows => exact delete_of_spared hrecord hrows

/-- A row that is shown before it is destroyed is not among those that are left. -/
theorem not_sameContents_of_named
    {id : String} {items : List (String × String)} {record : Assoc Value} {rows : List Row}
    (hrecord : r.named method db id items = .ok (some record))
    (hrows : r.store.spared db (some (r.identified (.text id))) = .ok rows) :
    ¬ db.SameContents (db.withRows r.store.model rows) := by
  rcases spared_of_named hrecord hrows with ⟨_, row, _, hrow, _, hlead, hkept⟩
  intro hsame
  rw [Database.sameContents_withRows_iff] at hsame
  have hmem : row ∈ rows := hsame.mem_iff.mpr hrow
  rw [hkept, List.mem_filter, hlead] at hmem
  cases hmem.2

theorem not_sameContents_of_write
    {after : Database} {outcome : Outcome}
    (h : r.Write db arguments method after outcome) :
    ¬ db.SameContents after := by
  cases h with
  | insert _ _ => exact Store.not_sameContents_added r.store db _
  | replace _ hnext hne =>
      rw [Store.sameContents_replaced_iff hnext]
      exact hne
  | remove hrecord hrows => exact not_sameContents_of_named hrecord hrows

/-! ## Every change is a write -/

/-- A request that leaves the database as it is has changed nothing. -/
theorem absurd_of_unchanged
    {p : Prop} {after : Database} {outcome outcome' : Outcome}
    (hchange : ¬ db.SameContents after)
    (h : (outcome', db) = (outcome, after)) :
    p := by
  cases h
  exact absurd (Database.SameContents.refl db) hchange

theorem write_of_create
    {after : Database} {outcome : Outcome}
    (hrun : r.create db arguments.items arguments.payload = (outcome, after))
    (hchange : ¬ db.SameContents after) :
    r.Write db arguments .post after outcome := by
  cases hquery : decode arguments.items with
  | error failure =>
      unfold create at hrun
      rw [hquery] at hrun
      exact absurd_of_unchanged hchange hrun
  | ok query =>
      cases hrow : r.store.insert db arguments.payload with
      | error error =>
          unfold create Store.create at hrun
          rw [hquery, hrow] at hrun
          exact absurd_of_unchanged hchange hrun
      | ok row =>
          rw [create_of_insert hquery hrow] at hrun
          cases hrun
          exact Write.insert hquery hrow

theorem write_of_update
    {after : Database} {outcome : Outcome}
    (hrun : r.update db arguments.id arguments.items arguments.payload = (outcome, after))
    (hchange : ¬ db.SameContents after) :
    r.Write db arguments .put after outcome := by
  cases hfound : r.existing db arguments.id arguments.items with
  | error failure =>
      unfold update at hrun
      rw [hfound] at hrun
      exact absurd_of_unchanged hchange hrun
  | ok answer =>
      rcases answer with ⟨query, _ | found⟩
      · unfold update at hrun
        rw [hfound] at hrun
        exact absurd_of_unchanged hchange hrun
      · cases hnext : r.store.replacement db (.text arguments.id) arguments.payload with
        | error error =>
            unfold update Store.update at hrun
            rw [hfound, hnext] at hrun
            exact absurd_of_unchanged hchange hrun
        | ok rows =>
            rcases rows with _ | ⟨row, next⟩
            · unfold update Store.update at hrun
              rw [hfound, hnext] at hrun
              exact absurd_of_unchanged hchange hrun
            · rw [update_of_replacement hfound hnext] at hrun
              cases hrun
              rw [Store.sameContents_replaced_iff hnext] at hchange
              exact Write.replace hfound hnext hchange

theorem write_of_delete
    {after : Database} {outcome : Outcome}
    (hrun : r.delete db arguments.id arguments.items = (outcome, after))
    (hchange : ¬ db.SameContents after) :
    r.Write db arguments .delete after outcome := by
  cases hrecord : r.named .delete db arguments.id arguments.items with
  | error failure =>
      unfold delete at hrun
      rw [hrecord] at hrun
      exact absurd_of_unchanged hchange hrun
  | ok found =>
      cases found with
      | none =>
          unfold delete at hrun
          rw [hrecord] at hrun
          exact absurd_of_unchanged hchange hrun
      | some record =>
          cases hrows : r.store.spared db (some (r.identified (.text arguments.id))) with
          | error error =>
              unfold delete Store.destroy at hrun
              rw [hrecord, hrows] at hrun
              exact absurd_of_unchanged hchange hrun
          | ok rows =>
              rw [delete_of_spared hrecord hrows] at hrun
              cases hrun
              exact Write.remove hrecord hrows

/-- A method changes the contents of the database exactly by one of the writes. -/
theorem write_iff
    {after : Database} {outcome : Outcome} :
    r.Write db arguments method after outcome ↔
      r.run method db arguments = (outcome, after) ∧ ¬ db.SameContents after := by
  constructor
  · intro hwrite
    exact ⟨run_of_write hwrite, not_sameContents_of_write hwrite⟩
  · rintro ⟨hrun, hchange⟩
    cases method with
    | gets => exact absurd_of_unchanged hchange hrun
    | get => exact absurd_of_unchanged hchange hrun
    | post => exact write_of_create hrun hchange
    | put => exact write_of_update hrun hchange
    | delete => exact write_of_delete hrun hchange

/-! ## What every method keeps -/

theorem sameOutside_of_write
    {after : Database} {outcome : Outcome}
    (h : r.Write db arguments method after outcome) :
    db.SameOutside r.store.model after := by
  cases h with
  | insert _ _ => exact Database.sameOutside_withRows db r.store.model _
  | replace _ _ _ => exact Store.sameOutside_replaced r.store db _ _
  | remove _ _ => exact Database.sameOutside_withRows db r.store.model _

theorem keysDistinct_of_write
    {after : Database} {outcome : Outcome}
    (hdistinct : r.store.KeysDistinct db)
    (h : r.Write db arguments method after outcome) :
    r.store.KeysDistinct after := by
  cases h with
  | insert _ hrow => exact Store.keysDistinct_added hdistinct hrow
  | replace _ hnext _ => exact Store.keysDistinct_replaced hdistinct hnext
  | remove _ hrows => exact Store.keysDistinct_spared hdistinct hrows

/-- No method puts two rows of a table under one key, in its own table or in another one. -/
theorem keysDistinct_run
    {store : Store}
    (hagree : r.store.model.table = store.model.table → r.store.model = store.model)
    (hown : r.store.KeysDistinct db)
    (hdistinct : store.KeysDistinct db) :
    store.KeysDistinct (r.run method db arguments).2 := by
  by_cases hsame : db.SameContents (r.run method db arguments).2
  · exact Store.keysDistinct_of_sameContents hdistinct hsame
  · have hwrite : r.Write db arguments method (r.run method db arguments).2
        (r.run method db arguments).1 := write_iff.mpr ⟨rfl, hsame⟩
    by_cases htable : r.store.model.table = store.model.table
    · have hafter := keysDistinct_of_write hown hwrite
      unfold Store.KeysDistinct at hafter ⊢
      rw [← hagree htable]
      exact hafter
    · unfold Store.KeysDistinct at hdistinct ⊢
      rw [(sameOutside_of_write hwrite).rows store.model htable]
      exact hdistinct

end Resource

/-! ## Requests without an answer of success -/

namespace Application

open Http

variable {app : Application} {route : Route} {id : String} {request : Request} {db : Database}

/-- A request that is not answered with success has changed nothing exactly when each write
that it makes is shown.  The fields, relations and relation filters of a request are only
looked at behind the write, and so are the numbers that JSON cannot hold. -/
theorem serve_unchanged_iff
    (hroute : app.route? request = some (route, id)) :
    (¬ (app.serve request db).1.response.IsSuccess → db.SameContents (app.serve request db).2) ↔
      ∀ payload after outcome, route.Admits request payload →
        route.resource.Write db ⟨id, request.items, payload⟩ route.method after outcome →
        outcome.IsShown := by
  have hadmitted : ∀ {payload after outcome}, route.Admits request payload →
      route.resource.run route.method db ⟨id, request.items, payload⟩ = (outcome, after) →
      ((app.serve request db).1.response.IsSuccess ↔ outcome.IsShown) ∧
        (app.serve request db).2 = after := by
    intro payload after outcome hadmits hrun
    have hserve := serve_of_admits db hroute hadmits
    rw [hrun] at hserve
    rcases hserve with ⟨hstatus, _, hafter⟩
    refine ⟨?_, hafter⟩
    unfold Response.IsSuccess
    rw [hstatus]
    exact isSuccess_response_iff app route request outcome
  constructor
  · intro hatomic payload after outcome hadmits hwrite
    rcases Resource.write_iff.mp hwrite with ⟨hrun, hchange⟩
    rcases hadmitted hadmits hrun with ⟨hsuccess, hafter⟩
    by_cases hshown : outcome.IsShown
    · exact hshown
    · rw [hsuccess, hafter] at hatomic
      exact absurd (hatomic hshown) hchange
  · intro hshown hfailure
    by_cases hadmits : ∃ payload, route.Admits request payload
    · rcases hadmits with ⟨payload, hadmits⟩
      cases hrun : route.resource.run route.method db ⟨id, request.items, payload⟩ with
      | mk outcome after =>
          rcases hadmitted hadmits hrun with ⟨hsuccess, hafter⟩
          rw [hsuccess] at hfailure
          rw [hafter]
          by_cases hsame : db.SameContents after
          · exact hsame
          · exact absurd (hshown payload after outcome hadmits
              (Resource.write_iff.mpr ⟨hrun, hsame⟩)) hfailure
    · have hearly := serve_of_not_admits db hroute fun payload h => hadmits ⟨payload, h⟩
      rw [hearly.1]
      exact Database.SameContents.refl db

/-! ## Runs of requests -/

/-- The routes of an application take each table for one model. -/
def TablesAgree (app : Application) : Prop :=
  ∀ route ∈ app.routes, ∀ other ∈ app.routes,
    route.resource.store.model.table = other.resource.store.model.table →
    route.resource.store.model = other.resource.store.model

/-- No table behind a route has two rows under one key. -/
def KeysDistinct (app : Application) (db : Database) : Prop :=
  ∀ route ∈ app.routes, route.resource.store.KeysDistinct db

/-- The database behind a run of requests. -/
def serveAll (app : Application) : List Request → Database → Database
  | [], db => db
  | request :: rest, db => serveAll app rest (app.serve request db).2

theorem keysDistinct_serve
    (request : Request)
    (hagree : app.TablesAgree)
    (hdistinct : app.KeysDistinct db) :
    app.KeysDistinct (app.serve request db).2 := by
  intro other hother
  cases hroute : app.route? request with
  | none =>
      rw [serve_of_no_route db hroute]
      exact hdistinct other hother
  | some found =>
      rcases found with ⟨route, id⟩
      have hmem := mem_of_route? hroute
      by_cases hadmits : ∃ payload, route.Admits request payload
      · rcases hadmits with ⟨payload, hadmits⟩
        have hserve := serve_of_admits db hroute hadmits
        rw [hserve.2.2]
        exact Resource.keysDistinct_run (hagree route hmem other hother) (hdistinct route hmem)
          (hdistinct other hother)
      · have hearly := serve_of_not_admits db hroute fun payload h => hadmits ⟨payload, h⟩
        rw [hearly.1]
        exact hdistinct other hother

/-- Keys stay distinct along every run of requests. -/
theorem keysDistinct_serveAll
    (requests : List Request)
    (hagree : app.TablesAgree)
    (hdistinct : app.KeysDistinct db) :
    app.KeysDistinct (app.serveAll requests db) := by
  induction requests generalizing db with
  | nil => exact hdistinct
  | cons request rest ih => exact ih (keysDistinct_serve request hagree hdistinct)

end Application

namespace Sample

open Http

/-- A new author, to be shown by a field that authors do not have. -/
def unknownFieldRequest : Request where
  verb := "POST"
  path := "/authors/".toList
  items := [("fields", "nope")]
  body := "\x7b\"name\":\"n\",\"age\":1\x7d"

theorem serve_unchanged_iff_authors :
    (service schema.models).route? unknownFieldRequest = some (route authors .post, "") ∧
      ((¬ ((service schema.models).serve unknownFieldRequest database).1.response.IsSuccess →
          database.SameContents ((service schema.models).serve unknownFieldRequest database).2) ↔
        ∀ payload after outcome, (route authors .post).Admits unknownFieldRequest payload →
          (resource authors).Write database ⟨"", unknownFieldRequest.items, payload⟩ .post after
            outcome →
          outcome.IsShown) := by
  have hroute : (service schema.models).route? unknownFieldRequest =
      some (route authors .post, "") := by
    rfl
  exact ⟨hroute, Application.serve_unchanged_iff hroute⟩

/-- The request is answered with an error, and the author is there afterwards. -/
theorem unknown_field_leaves_row :
    ¬ ((service schema.models).serve unknownFieldRequest database).1.response.IsSuccess ∧
      ¬ database.SameContents
        ((service schema.models).serve unknownFieldRequest database).2 := by
  constructor
  · have hstatus :
        ((service schema.models).serve unknownFieldRequest database).1.response.status = 500 := by
      decide +kernel
    unfold Response.IsSuccess
    omega
  · intro hsame
    have hlength := (hsame.rows authors).length_eq
    revert hlength
    decide +kernel

end Sample
end RecordApi
