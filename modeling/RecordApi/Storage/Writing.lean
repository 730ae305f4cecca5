import RecordApi.Storage.Reading

/-!
# Writing to a store

`Store.create`, `Store.update` and `Store.destroy` give their answer together with the
database behind the write.  A write takes place as a whole or not at all.  Afterwards the
written row is read, which fails when it now holds a name outside an enumeration.
-/

namespace RecordApi
namespace Storage

/-- The answer of a write, and the database behind it. -/
abbrev Written (α : Type) := Except StoreError α × Database

/-- The value of a column in a new row.  A column with a default takes it when it is given
nothing or null. -/
def newValue (payload : Assoc Value) (column : Column) : Value :=
  match Assoc.get? payload column.key with
  | none | some .null => column.default.getD .null
  | some v => v

/-- The key that follows the greatest one. -/
def nextKey (field : String) (rows : List Row) : Int :=
  match rows.getLast?.map fun (row : Row) => row.cell field with
  | some (.int n) => n + 1
  | _ => 1

def isInteger : Cell → Bool
  | .int _ => true
  | _ => false

/-- A row may stand in its table: every column that must be given is, and a key that
counts up is an integer. -/
def isComplete (model : Model) (row : Row) : Bool :=
  model.columns.all fun column =>
    let cell := row.cell column.key
    (column.nullable || !cell.isNull) && (!model.countsUp column || isInteger cell)

/-- No row has the key of the given one. -/
def isFresh (model : Model) (row : Row) (rows : List Row) : Bool :=
  rows.all fun other => !Row.sameKey model row other

/-- The bound cell of a value as its column stores it. -/
def storedCell (column : Column) (v : Value) : Cell :=
  (Test.boundCell column.type v).stored column.type.affinity

def newRow (model : Model) (payload : Assoc Value) (rows : List Row) : Row :=
  model.columns.map fun column =>
    let cell := storedCell column (newValue payload column)
    (column.key,
      if model.countsUp column && cell.isNull then .int (nextKey column.key rows) else cell)

/-- The parts of a key by which an entity is looked up: a list, a map by field, or one
value. -/
def keyParts? (model : Model) (key : Value) : Option (List Value) :=
  let count := model.primaryKey.length
  match key with
  | .list items => if items.length = count then some items else none
  | .map entries =>
      if entries.length = count then
        model.primaryKey.mapM fun field => Assoc.get? entries field
      else none
  | v => if count = 1 then some [v] else none

/-- A row has the given key. -/
def hasKey (columns : List Column) (key : List Cell) (row : Row) : Bool :=
  (columns.zip key).all fun (column, cell) =>
    (row.cell column.key).compare? (cell.against column.type.affinity) == some .eq

/-- The columns to which a payload gives something other than what the entity holds. -/
def changes (model : Model) (payload : Assoc Value) (entity : Entity) : List (Column × Value) :=
  model.columns.filterMap fun column =>
    (Assoc.get? payload column.key).bind fun v =>
      if v.sameAs (entity.value column.key) then none else some (column, v)

def changedRow (row : Row) (changes : List (Column × Value)) : Row :=
  changes.foldl (fun row change =>
    Assoc.put change.1.key (storedCell change.1 change.2) row) row

end Storage

namespace Store

open Storage

/-- Puts a new row into the table, if it may stand there. -/
def insert (store : Store) (db : Database) (payload : Assoc Value) : Except StoreError Row := do
  let rows := db.rows store.model
  prepare .create store.name false
    (store.model.columns.map fun column => Binding.bind column.type (newValue payload column))
  let row := newRow store.model payload rows
  if isComplete store.model row && isFresh store.model row rows then return row
  else .error (.failed .create store.name .integrity)

def added (store : Store) (db : Database) (row : Row) : Database :=
  db.withRows store.model (Row.insertInOrder store.model row (db.rows store.model))

/-- Creates an entity.  Keys of the payload that are no columns are ignored. -/
def create (store : Store) (db : Database) (payload : Assoc Value) : Written (Assoc Value) :=
  match store.insert db payload with
  | .error error => (.error error, db)
  | .ok row => (showWhole store.model row, store.added db row)

/-- The values of a key as they are bound to its columns. -/
def bindKey (model : Model) (key : List Value) : List (Except BindError Cell) :=
  ((keyColumns model).zip key).map fun (column, v) => Binding.bind column.type v

/-- The first row that is found by a key. -/
def rowOfKey? (store : Store) (db : Database) (key : List Value) : Option Row :=
  let columns := keyColumns store.model
  let cells := (columns.zip key).map fun (column, v) => Test.boundCell column.type v
  (db.rows store.model).find? (hasKey columns cells)

/-- The row with a given key, if there is one. -/
def locate (store : Store) (db : Database) (key : Value) : Except StoreError (Option Row) := do
  match keyParts? store.model key with
  | none => .error (.failed .update store.name .identity)
  | some parts =>
      prepare .update store.name false (bindKey store.model parts)
      return store.rowOfKey? db parts

/-- The rows of a table but for those with the key of a given one. -/
def others (store : Store) (db : Database) (row : Row) : List Row :=
  (db.rows store.model).filter fun other => !Row.sameKey store.model row other

/-- The row that is written and the row that takes its place, for an entity with some changes.
The row is found again by the key that the entity shows, which need not be the row that was
loaded; if there is none, nothing is written. -/
def changed (store : Store) (db : Database) (key : List Value) (changes : List (Column × Value)) :
    Except StoreError (Row × Row) := do
  prepare .update store.name false
    ((changes.map fun change => Binding.bind change.1.type change.2) ++ bindKey store.model key)
  match store.rowOfKey? db key with
  | none => .error (.failed .update store.name (if changes.isEmpty then .identity else .stale))
  | some row =>
      let next := changedRow row changes
      if isComplete store.model next && isFresh store.model next (store.others db row) then
        return (row, next)
      else .error (.failed .update store.name .integrity)

/-- The row that is written for a given key and the row that takes its place; none if there is no
row of this key.  A value that the entity already shows is not written. -/
def replacement (store : Store) (db : Database) (key : Value) (payload : Assoc Value) :
    Except StoreError (Option (Row × Row)) := do
  let column ← Clause.column store.model store.name store.model.keyField
  let key ← Clause.coerce column key
  match ← store.locate db key with
  | none => return none
  | some row =>
      let entity ← loadRow store.model none row
      let changes := changes store.model payload entity
      return some (← store.changed db entity.key changes)

/-- The database with a row in the place of another one.  A row that stays the same is left where
it is. -/
def replaced (store : Store) (db : Database) (row next : Row) : Database :=
  if next = row then db
  else db.withRows store.model (Row.insertInOrder store.model next (store.others db row))

/-- Changes the entity with a given key; none if there is no such entity. -/
def update (store : Store) (db : Database) (key : Value) (payload : Assoc Value) :
    Written (Option (Assoc Value)) :=
  match store.replacement db key payload with
  | .error error => (.error error, db)
  | .ok none => (.ok none, db)
  | .ok (some (row, next)) =>
      ((showWhole store.model next).map some, store.replaced db row next)

/-- The rows on which a predicate does not hold, which a destruction leaves. -/
def spared (store : Store) (db : Database) (filter : Option Predicate) :
    Except StoreError (List Row) := do
  match ← Clause.ofPredicate? store.model store.name filter with
  | none => .error (.unguarded store.name)
  | some clause =>
      let clause := clause.simplified
      prepare .destroy store.name clause.hasQuantifier clause.bindings
      evaluated .destroy store.name
        (filterRows? (fun row => (clause.bound.selects? store.model row).map (!·))
          (db.rows store.model))

/-- Destroys the entities on which a predicate holds and tells how many they were. -/
def destroy (store : Store) (db : Database) (filter : Option Predicate) : Written Nat :=
  match store.spared db filter with
  | .error error => (.error error, db)
  | .ok rows => (.ok ((db.rows store.model).length - rows.length), db.withRows store.model rows)

end Store
end RecordApi
