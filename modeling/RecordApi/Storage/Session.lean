import RecordApi.Storage.Binding
import RecordApi.Storage.Database
import RecordApi.Storage.Error
import RecordApi.Value.Same

/-!
# Entities

A statement loads rows into a session as entities.  Rows of a model whose keys read as the same
values are one entity, and an entity that the session holds already keeps what it has loaded: a
later row of its key adds only what it lacks.  So where two keys differ in the table but read as
the same, both rows show what the first of them holds.
-/

namespace RecordApi

/-- What a session holds of a row: its key and the columns that were loaded. -/
structure Entity where
  key : List Value
  loaded : Assoc Value

namespace Entity

/-- Two entities have the same key, part by part. -/
def isSame (a b : Entity) : Bool :=
  Value.allSame a.key b.key

def value (entity : Entity) (field : String) : Value :=
  (Assoc.get? entity.loaded field).getD .null

/-- An entity with what it lacks taken from another one. -/
def fill (entity other : Entity) : Entity :=
  { entity with
    loaded := entity.loaded ++
      other.loaded.filter fun pair => (Assoc.get? entity.loaded pair.1).isNone }

def project (fields : List String) (entity : Entity) : Assoc Value :=
  Assoc.ofPairs (fields.map fun field => (field, entity.value field))

end Entity

/-- The entities of one model that are held, in the order in which they were loaded. -/
abbrev Session := List Entity

namespace Session

/-- Holds an entity; one with the same key is filled. -/
def hold : Session → Entity → Session
  | [], entity => [entity]
  | held :: rest, entity =>
      if held.isSame entity then held.fill entity :: rest else held :: hold rest entity

def holdAll (session : Session) (entities : List Entity) : Session :=
  entities.foldl hold session

/-- The entity as which a loaded one is held. -/
def entity (session : Session) (loaded : Entity) : Entity :=
  (session.find? (·.isSame loaded)).getD loaded

end Session

namespace Storage

/-- The fields that a projection shows: all of them when it names none. -/
def shownFields (model : Model) (attributes : Option (List String)) : List String :=
  match attributes with
  | some (field :: rest) => field :: rest
  | _ => model.fields

def keyColumns (model : Model) : List Column :=
  model.primaryKey.filterMap model.column?

/-- What the key of a row reads as. -/
def readKey? (model : Model) (row : Row) : Option (List Value) :=
  (keyColumns model).mapM fun column => Binding.read? column.type (row.cell column.key)

/-- What the field by which entities are looked up reads as in a row. -/
def readId? (model : Model) (row : Row) : Option Value :=
  (model.column? model.keyField).bind fun column =>
    Binding.read? column.type (row.cell column.key)

/-- The columns that a projection loads: its own and those of the key. -/
def loadedColumns (model : Model) (attributes : Option (List String)) : List Column :=
  model.columns.filter fun column =>
    model.inKey column.key || (shownFields model attributes).contains column.key

/-- The entity that a row is loaded as.  Each loaded column must hold a value of its type. -/
def loadRow (model : Model) (attributes : Option (List String)) (row : Row) :
    Except StoreError Entity :=
  let read := (loadedColumns model attributes).mapM fun column =>
    (Binding.read? column.type (row.cell column.key)).map fun v => (column.key, v)
  match read with
  | none => .error .unreadable
  | some loaded => .ok ⟨(readKey? model row).getD [], loaded⟩

/-- What a row shows by itself. -/
def showRow (model : Model) (attributes : Option (List String)) (row : Row) :
    Except StoreError (Assoc Value) :=
  (loadRow model attributes row).map (Entity.project (shownFields model attributes))

def showWhole (model : Model) (row : Row) : Except StoreError (Assoc Value) :=
  showRow model none row

end Storage
end RecordApi
