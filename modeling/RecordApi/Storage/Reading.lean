import RecordApi.Storage.Relating
import RecordApi.Storage.Session

/-!
# Reading from a store

`Store.list` gives the rows of one page together with the number of all selected rows,
`Store.find` the first selected row.  Rows come in the order of the query, and in the
order of their keys where that leaves them open.  Included relations are nested under
their names: one statement joins them for all rows, by the keys that the rows show, and what it
gives is put under each row by its key again.  A query is checked as a whole before any row is
looked at.
-/

namespace RecordApi

/-- A page of rows, and how many there are on all pages. -/
structure Listing where
  rows : List (Assoc Value)
  count : Nat

namespace StoreError

/-- An error inside an action; a refused comparison then is a fault of the action. -/
def during (action : Action) (model : String) : StoreError → StoreError
  | .comparison => .failed action model .comparison
  | error => error

def ofBind (action : Action) (model : String) : BindError → StoreError
  | .refused => .failed action model .refused
  | .unsupported => .failed action model .binding
  | .outOfRange => .outOfRange

end StoreError

namespace Storage

/-- A statement is put together: it has no operator that the database lacks, and all its
operands are bound. -/
def prepare (action : Action) (model : String) (quantified : Bool)
    (bindings : List (Except BindError Cell)) : Except StoreError Unit :=
  if quantified then .error (.failed action model .dialect)
  else
    match Binding.firstError? bindings with
    | some error => .error (StoreError.ofBind action model error)
    | none => .ok ()

/-- The answer of an evaluation, or the fault that there is none. -/
def evaluated {β : Type} (action : Action) (model : String) : Option β → Except StoreError β
  | some b => .ok b
  | none => .error (.failed action model .operation)

/-- The rows on which a test says yes; there is no answer if there is none for some row. -/
def filterRows? (test : Row → Option Bool) : List Row → Option (List Row)
  | [] => some []
  | row :: rest => do
      let selected ← test row
      let others ← filterRows? test rest
      return if selected then row :: others else others

/-- The first row on which a test says yes; the rows behind it are not tested. -/
def findRow? (test : Row → Option Bool) : List Row → Option (Option Row)
  | [] => some none
  | row :: rest =>
      match test row with
      | some true => some (some row)
      | some false => findRow? test rest
      | none => none

/-- The order of two rows by the first sort key on which they differ. -/
def rowOrder (keys : List SortKey) (a b : Row) : Ordering :=
  match keys with
  | [] => .eq
  | key :: rest =>
      let order := Cell.order (a.cell key.column.key) (b.cell key.column.key)
      (if key.direction = some true then order.swap else order).then (rowOrder rest a b)

/-- Sorts rows; those with equal sort keys keep their order. -/
def sortRows (keys : List SortKey) (rows : List Row) : List Row :=
  match keys with
  | [] => rows
  | keys => rows.mergeSort fun a b => rowOrder keys a b != .gt

theorem sortRows_nil (rows : List Row) : sortRows [] rows = rows := rfl

/-- A limit and an offset are integers of the database. -/
def checkBound (n : Option Int) : Except StoreError Unit :=
  if n.all fitsWord then .ok () else .error .outOfRange

/-- The rows behind an offset, up to a limit; a negative limit is none. -/
def slice (limit offset : Option Int) (rows : List Row) : List Row :=
  let behind := rows.drop (offset.getD 0).toNat
  match limit with
  | some n => if n < 0 then behind else behind.take n.toNat
  | none => behind

/-- The fields of a projection are columns. -/
def checkFields (model : Model) (name : String) (attributes : Option (List String)) :
    Except StoreError Unit :=
  (attributes.getD []).forM fun field => (Clause.column model name field).map fun _ => ()

end Storage

namespace Store

open Storage

/-- The test whether the key of a row is among those that entities show, all of them bound by the
type of the first. -/
def keyTest? (store : Store) (ids : List Value) : Option (Column × Test Value) :=
  (store.model.column? store.model.keyField).map fun column => (column, .among false ids)

def keyBindings (store : Store) (ids : List Value) : List (Except BindError Cell) :=
  match store.keyTest? ids with
  | some (column, test) => test.bindings column
  | none => []

/-- The rows of the store that are found by the keys that entities show. -/
def owners (store : Store) (db : Database) (ids : List Value) : List Row :=
  match store.keyTest? ids with
  | some (column, test) =>
      (db.rows store.model).filter fun row => (test.bound column).truth? column row == some .yes
  | none => []

/-- The pairs that one inclusion joins: each related row on which its filter holds, in its order,
with the row of the store to which it is related.  The rows of the store are found by the keys that
its entities show. -/
def relatedRows (store : Store) (db : Database) (action : Action) (inclusion : Inclusion)
    (relation : Relation) (target : Model) (ids : List Value) :
    Except StoreError (List (Row × Row)) := do
  let clause ← Clause.ofPredicate? target inclusion.relation inclusion.filter
  let clause := (clause.map Clause.simplified).getD .always
  checkFields target inclusion.relation inclusion.attributes
  let keys ← SortKey.ofOrder target inclusion.relation inclusion.order
  if ids.isEmpty then return []
  else
    prepare action store.name clause.hasQuantifier (store.keyBindings ids ++ clause.bindings)
    let owners := store.owners db ids
    let rows := db.rows target
    let pool :=
      if relation.join.filtersFirst then rows
      else rows.filter fun child =>
        owners.any fun owner =>
          relation.join.multiplicity db store.model target owner child != 0
    let kept ← evaluated action store.name (filterRows? (clause.bound.holds? ·) pool)
    return (sortRows keys kept).flatMap fun child =>
      owners.flatMap fun owner =>
        List.replicate (relation.join.multiplicity db store.model target owner child)
          (owner, child)

/-- A joined pair as it is loaded: what the key of the owner reads as, and the related entity. -/
def loadPair (store : Store) (target : Model) (attributes : Option (List String))
    (pair : Row × Row) : Except StoreError (Value × Entity) :=
  match readId? store.model pair.1 with
  | none => .error .unreadable
  | some id => (loadRow target attributes pair.2).map fun entity => (id, entity)

/-- What entities show so far: those that the session holds, and what each row shows, behind the
key by which its related rows are found. -/
structure Shown where
  session : Session
  rows : List (Value × Assoc Value)

/-- What is nested in an entity: the related entities whose owner's key reads as its own. -/
def nested (relation : Relation) (related : List (Value × Assoc Value)) (id : Value) : Value :=
  let mine := (related.filter fun pair => pair.1.sameAs id).map fun pair => Value.map pair.2
  if relation.many then .list mine else mine.headD .null

/-- Nests one relation in the rows that are shown.  Related entities of the store's own model are
those that the session holds; all others are let go afterwards. -/
def nest (store : Store) (db : Database) (action : Action) (inclusion : Inclusion)
    (shown : Shown) : Except StoreError Shown := do
  let (relation, target) ← store.relation inclusion
  let pairs ← store.relatedRows db action inclusion relation target (shown.rows.map (·.1))
  let loaded ← pairs.mapM (store.loadPair target inclusion.attributes)
  let isOwn := relation.target == store.model.name
  let session := (if isOwn then shown.session else []).holdAll (loaded.map (·.2))
  let related := loaded.map fun (id, entity) =>
    (id, (session.entity entity).project (shownFields target inclusion.attributes))
  return {
    session := if isOwn then session.take shown.session.length else shown.session
    rows := shown.rows.map fun (id, row) =>
      (id, Assoc.put inclusion.relation (nested relation related id) row) }

def nestAll (store : Store) (db : Database) (action : Action) :
    List Inclusion → Shown → Except StoreError Shown
  | [], shown => .ok shown
  | inclusion :: rest, shown => do
      nestAll store db action rest (← store.nest db action inclusion shown)

/-- What loaded entities show of their own. -/
def shownOwn (store : Store) (attributes : Option (List String)) (loaded : List Entity) : Shown :=
  let session := Session.holdAll [] loaded
  { session
    rows := loaded.map fun entity =>
      let entity := session.entity entity
      (entity.value store.model.keyField,
        entity.project (shownFields store.model attributes)) }

/-- What selected rows show of a query. -/
def showRows (store : Store) (db : Database) (action : Action) (query : Query) (rows : List Row) :
    Except StoreError (List (Assoc Value)) := do
  let loaded ← rows.mapM (loadRow store.model query.attributes)
  let shown ← store.nestAll db action (query.inclusions.getD [])
    (store.shownOwn query.attributes loaded)
  return shown.rows.map (·.2)

/-- The page of a query and the number of all rows that it selects. -/
def list (store : Store) (db : Database) (query : Query) : Except StoreError Listing := do
  let selection ← Selection.ofQuery store query
  let selection := selection.simplified
  checkFields store.model store.name query.attributes
  let keys ← SortKey.ofOrder store.model store.name query.order
  let body : Except StoreError Listing := do
    prepare .list store.name selection.hasQuantifier selection.bindings
    let rows ← evaluated .list store.name
      (filterRows? (selection.bound.selects? db store.model) (db.rows store.model))
    checkBound query.limit
    checkBound query.offset
    let page := slice query.limit query.offset (sortRows keys rows)
    return ⟨← store.showRows db .list query page, rows.length⟩
  body.mapError (StoreError.during .list store.name)

/-- The rows are sorted by their key, so that the first row can be told without looking
at the others. -/
def sortsByKey (store : Store) (keys : List SortKey) : Bool :=
  store.model.primaryKey.length == 1 &&
    (keys.head?.map fun key => store.model.inKey key.column.key).getD true

/-- The first row in an order on which a test says yes. -/
def firstRow? (store : Store) (keys : List SortKey) (test : Row → Option Bool)
    (rows : List Row) : Option (Option Row) :=
  if keys.isEmpty || store.sortsByKey keys then findRow? test (sortRows keys rows)
  else (filterRows? test rows).map fun rows => (sortRows keys rows).head?

/-- The first row that a query selects, if there is one. -/
def find (store : Store) (db : Database) (query : Query) :
    Except StoreError (Option (Assoc Value)) := do
  checkFields store.model store.name query.attributes
  let selection ← Selection.ofQuery store query
  let selection := selection.simplified
  let keys ← SortKey.ofOrder store.model store.name query.order
  let body : Except StoreError (Option (Assoc Value)) := do
    prepare .find store.name selection.hasQuantifier selection.bindings
    let row ← evaluated .find store.name
      (store.firstRow? keys (selection.bound.selects? db store.model) (db.rows store.model))
    match row with
    | none => return none
    | some row => return (← store.showRows db .find query [row]).head?
  body.mapError (StoreError.during .find store.name)

end Store
end RecordApi
