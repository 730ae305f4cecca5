import RecordApi.Schema.Operand

/-!
# Models

A `Model` describes the entities of one table: its columns, its primary key and its
relations to other models.  A `Schema` is a list of models; a registry, which names
the entities that an application exposes, refers to its models by name.
-/

namespace RecordApi

inductive ColumnType where
  | integer
  | varchar (length : Option Nat)
  | boolean
  | date
  | float
  | numeric (precision scale : Nat)
  | timestamp
  | uuid
  | enumeration (names : List String)
  | blob
  | untyped
deriving DecidableEq, Repr

namespace ColumnType

/-- The kind of values that a column of a type has. -/
def kind : ColumnType → Kind
  | .integer => .int
  | .varchar _ => .text
  | .boolean => .bool
  | .date => .date
  | .float => .float
  | .numeric _ _ => .decimal
  | .timestamp => .timestamp
  | .uuid => .uuid
  | .enumeration _ => .text
  | .blob => .bytes
  | .untyped => .untyped

/-- The type as a table definition writes it. -/
def text : ColumnType → String
  | .integer => "INTEGER"
  | .varchar none => "VARCHAR"
  | .varchar (some length) => s!"VARCHAR({length})"
  | .boolean => "BOOLEAN"
  | .date => "DATE"
  | .float => "FLOAT"
  | .numeric precision scale => s!"NUMERIC({precision}, {scale})"
  | .timestamp => "DATETIME"
  | .uuid => "CHAR(32)"
  | .enumeration names => s!"VARCHAR({(names.map String.length).foldl max 0})"
  | .blob => "BLOB"
  | .untyped => "NULL"

end ColumnType

/-- A column that refers to the key of a table. -/
structure ForeignKey where
  table : String
  column : String
deriving DecidableEq, Repr

structure Column where
  key : String
  /-- The name of the column in its table. -/
  name : String
  type : ColumnType
  nullable : Bool := true
  /-- The value of a new row that is given none. -/
  default : Option Value := none
  foreign : Option ForeignKey := none

/-- A column of a linking table, and the field of a model to which it refers. -/
structure LinkEnd where
  column : String
  type : ColumnType
  field : String
deriving DecidableEq, Repr

/-- How the rows of a relation are found. -/
inductive Join where
  /-- One of their fields refers to a field of the owner. -/
  | held (field own : String)
  /-- A field of the owner refers to one of their fields. -/
  | holds (field other : String)
  /-- The rows of a linking table refer to the owner and to them. -/
  | linked (table : String) (own other : LinkEnd)
deriving DecidableEq, Repr

structure Relation where
  key : String
  target : String
  /-- There may be any number of related rows, not only one. -/
  many : Bool
  join : Join
deriving DecidableEq, Repr

structure Model where
  name : String
  table : String
  columns : List Column
  /-- The fields of the primary key; lookups by key use the first. -/
  primaryKey : List String
  relations : List Relation

namespace Model

def column? (model : Model) (key : String) : Option Column :=
  model.columns.find? fun column => column.key == key

def relation? (model : Model) (key : String) : Option Relation :=
  model.relations.find? fun relation => relation.key == key

/-- The field by which single entities are looked up. -/
def keyField (model : Model) : String :=
  model.primaryKey.headD ""

def inKey (model : Model) (key : String) : Bool :=
  model.primaryKey.contains key

/-- The key is a single integer column, which counts up when it is not given. -/
def countsUp (model : Model) (column : Column) : Bool :=
  model.primaryKey == [column.key] && column.type == .integer

def fields (model : Model) : List String :=
  model.columns.map (·.key)

/-- The type of a field; that of a field without a column is unknown. -/
def typeOf (model : Model) (field : String) : ColumnType :=
  ((model.column? field).map (·.type)).getD .untyped

theorem key_of_column? {model : Model} {key : String} {column : Column}
    (h : model.column? key = some column) :
    column.key = key :=
  beq_iff_eq.mp (List.find?_some (p := fun column : Column => column.key == key) h)

theorem mem_of_column? {model : Model} {key : String} {column : Column}
    (h : model.column? key = some column) :
    column ∈ model.columns :=
  List.mem_of_find?_eq_some h

theorem of_countsUp {model : Model} {column : Column} (h : model.countsUp column = true) :
    model.primaryKey = [column.key] ∧ column.type = .integer := by
  unfold countsUp at h
  rw [Bool.and_eq_true, beq_iff_eq] at h
  exact ⟨h.1, beq_iff_eq.mp h.2⟩

theorem primaryKey_of_single {model : Model} (h : model.primaryKey.length = 1) :
    model.primaryKey = [model.keyField] := by
  rcases List.length_eq_one_iff.mp h with ⟨field, hkey⟩
  unfold keyField
  rw [hkey]
  rfl

end Model

structure Schema where
  models : List Model

namespace Schema

def model? (schema : Schema) (name : String) : Option Model :=
  schema.models.find? fun model => model.name == name

end Schema

/-- The entities that an application exposes, from their names to names of models. -/
abbrev Registry := Assoc String

end RecordApi
