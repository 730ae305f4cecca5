import RecordApi.Api.Failure
import RecordApi.Api.Options
import RecordApi.Config.Service
import RecordApi.Storage.Writing

/-!
# Resources

A resource is a stored entity with its options.  Each method of a resource is a function
from the id in the path, the items of the query and the payload to an outcome; the methods
that write also give the database behind them.  A record that was written is read again with
the projection and the relations of the query, and that is what the answer carries.
-/

namespace RecordApi

structure Resource where
  store : Store
  options : Options := {}
  config : ServiceConfig := {}

/-- How an operation ends. -/
inductive Outcome where
  | done (payload : Value)
  | missing
  | failed (failure : Failure)
  /-- There are records, but their pages cannot be counted. -/
  | uncounted (error : Page.CountError)

namespace Outcome

def ofRecord : Except Failure (Option (Assoc Value)) → Outcome
  | .ok (some record) => .done (.map record)
  | .ok none => .missing
  | .error failure => .failed failure

end Outcome

namespace Resource

def name (r : Resource) : String := r.store.name

def builder (r : Resource) : QueryBuilder where
  registry := r.store.registry
  merge := r.config.merge
  defaultPage := r.config.defaultPage
  defaultPageSize := r.config.defaultPageSize
  requireFiltered := r.config.requireFiltered

/-- What a method shows when a request leaves it open. -/
def defaults (r : Resource) (method : Method) : Defaults where
  fields := r.options.defaultFields method
  relationFields := r.options.defaultRelationFields

def identified (r : Resource) (key : Value) : Predicate :=
  .condition (Predicate.equals r.store.model.keyField key)

def decode (items : List (String × String)) : Except Failure RequestQuery :=
  (Params.decode items).mapError .params

/-- The query for the record with a given key, as a method shows it. -/
def entityQuery (r : Resource) (method : Method) (query : RequestQuery) (filter : Predicate) :
    Except Failure Query :=
  (r.builder.forEntity query (some filter) (r.defaults method)).mapError .filter

def find (r : Resource) (db : Database) (query : Query) :
    Except Failure (Option (Assoc Value)) :=
  (r.store.find db query).mapError .store

/-- What identifies a record that was written: its key or, where the record has none, the
values of the payload without the private keys. -/
def written (r : Resource) (record payload : Assoc Value) : Predicate :=
  match (Assoc.get? record r.store.model.keyField).getD .null with
  | .null => Predicate.ofValues (payload.filter fun entry =>
      !r.options.privateKeys.contains entry.1)
  | key => r.identified key

/-- The query that reads a record again after it was written. -/
def refetch (r : Resource) (method : Method) (query : RequestQuery)
    (record payload : Assoc Value) : Except Failure Query :=
  r.entityQuery method query (r.written record payload)

def reread (r : Resource) (method : Method) (db : Database) (query : RequestQuery)
    (record payload : Assoc Value) : Outcome :=
  .ofRecord do r.find db (← r.refetch method query record payload)

/-! ## The methods -/

def pagePayload (listing : Listing) (page : Page) (pages : Int) : Value :=
  .map [("data", .list (listing.rows.map .map)),
    ("meta", .map [("page", .int page.number), ("pageSize", .int page.size),
      ("pageCount", .int pages), ("total", .int listing.count)])]

/-- The records of a list request, and the page that they fill. -/
def listing (r : Resource) (db : Database) (items : List (String × String)) :
    Except Failure (Listing × Page) := do
  let (query, page) ← (r.builder.forList (← decode items) (r.defaults .gets)).mapError .filter
  return (← (r.store.list db query).mapError .store, page)

def list (r : Resource) (db : Database) (items : List (String × String)) : Outcome :=
  match r.listing db items with
  | .error failure => .failed failure
  | .ok (listing, page) =>
      match Page.count listing.count page.size with
      | .ok pages => .done (pagePayload listing page pages)
      | .error error => .uncounted error

/-- The record that a path names, as a method shows it. -/
def named (r : Resource) (method : Method) (db : Database) (id : String)
    (items : List (String × String)) : Except Failure (Option (Assoc Value)) := do
  r.find db (← r.entityQuery method (← decode items) (r.identified (.text id)))

def get (r : Resource) (db : Database) (id : String) (items : List (String × String)) :
    Outcome :=
  .ofRecord (r.named .get db id items)

def create (r : Resource) (db : Database) (items : List (String × String))
    (payload : Assoc Value) : Outcome × Database :=
  match decode items with
  | .error failure => (.failed failure, db)
  | .ok query =>
      match r.store.create db payload with
      | (.error error, after) => (.failed (.store error), after)
      | (.ok record, after) => (r.reread .post after query record payload, after)

/-- What a path names, before it is changed: the query of the request and the record. -/
def existing (r : Resource) (db : Database) (id : String) (items : List (String × String)) :
    Except Failure (RequestQuery × Option (Assoc Value)) := do
  let query ← decode items
  return (query, ← r.find db { filter := some (r.identified (.text id)) })

def update (r : Resource) (db : Database) (id : String) (items : List (String × String))
    (payload : Assoc Value) : Outcome × Database :=
  match r.existing db id items with
  | .error failure => (.failed failure, db)
  | .ok (_, none) => (.missing, db)
  | .ok (query, some _) =>
      match r.store.update db (.text id) payload with
      | (.error error, after) => (.failed (.store error), after)
      | (.ok none, after) => (.missing, after)
      | (.ok (some record), after) => (r.reread .put after query record payload, after)

def delete (r : Resource) (db : Database) (id : String) (items : List (String × String)) :
    Outcome × Database :=
  match r.named .delete db id items with
  | .ok (some record) =>
      match r.store.destroy db (some (r.identified (.text id))) with
      | (.error error, after) => (.failed (.store error), after)
      | (.ok _, after) => (.done (.map record), after)
  | outcome => (.ofRecord outcome, db)

structure Arguments where
  /-- The id in the path. -/
  id : String := ""
  items : List (String × String) := []
  payload : Assoc Value := []

def run (r : Resource) (method : Method) (db : Database) (arguments : Arguments) :
    Outcome × Database :=
  match method with
  | .gets => (r.list db arguments.items, db)
  | .get => (r.get db arguments.id arguments.items, db)
  | .post => r.create db arguments.items arguments.payload
  | .put => r.update db arguments.id arguments.items arguments.payload
  | .delete => r.delete db arguments.id arguments.items

end Resource
end RecordApi
