import RecordApi.Console.Logger
import RecordApi.Schema.Model

/-!
# Models from tables

A schema can be made from the definitions of tables.  Every table with a primary key gives
a model of its name.  A foreign key gives two relations: the referring model has one named
like the table to which it refers, and the other model has a collection.  A table of two
foreign keys and nothing else links two models, which each get a collection of the other;
it is no model itself.
-/

namespace RecordApi

structure TableColumn where
  name : String
  type : ColumnType
  inKey : Bool := false
  nullable : Bool := !inKey
  foreign : Option ForeignKey := none

structure TableDefinition where
  name : String
  columns : List TableColumn

namespace TableDefinition

/-- The columns that refer to other tables, each with its reference. -/
def references (table : TableDefinition) : List (TableColumn × ForeignKey) :=
  table.columns.filterMap fun column => column.foreign.map fun f => (column, f)

/-- The two columns of a table that only links others. -/
def link? (table : TableDefinition) :
    Option ((TableColumn × ForeignKey) × (TableColumn × ForeignKey)) :=
  match table.references with
  | [own, other] => if table.columns.length = 2 then some (own, other) else none
  | _ => none

def isMapped (table : TableDefinition) : Bool :=
  table.link?.isNone && table.columns.any (·.inKey)

end TableDefinition

namespace Reflection

/-- Why tables give no schema. -/
inductive Error where
  /-- A relation would take a name that the model already has. -/
  | nameTaken (model key : String)
deriving DecidableEq, Repr

def lower (name : String) : String :=
  String.ofList (name.toList.map Char.toLower)

/-- The name of the one row of a table to which another table refers. -/
def singleName (table : String) : String := lower table

/-- The name of all rows of a table that refer to another table. -/
def collectionName (table : String) : String := lower table ++ "_collection"

structure Owned where
  owner : String
  relation : Relation

/-- The members of a list that are not the same as an earlier one. -/
def distinct {α : Type} (same : α → α → Bool) (all : List α) : List α :=
  (all.foldl (fun kept next => if kept.any (same next) then kept else next :: kept) []).reverse

/-- The relations that the foreign keys of models give.  Two foreign keys between the same
tables give one pair of relations. -/
def fromReferences (tables : List TableDefinition) : List Owned :=
  let mapped := tables.filter (·.isMapped)
  let all := mapped.flatMap fun table => table.references.flatMap fun (column, f) =>
    if mapped.any (·.name == f.table) then
      [⟨table.name, ⟨singleName f.table, f.table, false, .holds column.name f.column⟩⟩,
        ⟨f.table, ⟨collectionName table.name, table.name, true, .held column.name f.column⟩⟩]
    else []
  distinct (fun a b => a.owner == b.owner && a.relation.target == b.relation.target &&
    a.relation.many == b.relation.many) all

/-- The relations that linking tables give.  A second table that links the same models gives
none. -/
def fromLinks (tables : List TableDefinition) : List Owned :=
  let isMapped (name : String) : Bool := tables.any fun t => t.name == name && t.isMapped
  let links := tables.filterMap fun table => table.link?.map fun ends => (table.name, ends)
  let sameEnds (f g : ForeignKey × ForeignKey) : Bool :=
    (f.1.table == g.1.table && f.2.table == g.2.table) ||
      (f.1.table == g.2.table && f.2.table == g.1.table)
  let links := distinct (fun a b => sameEnds (a.2.1.2, a.2.2.2) (b.2.1.2, b.2.2.2)) links
  links.flatMap fun (table, (c, f), (d, g)) =>
    let own : LinkEnd := ⟨c.name, c.type, f.column⟩
    let other : LinkEnd := ⟨d.name, d.type, g.column⟩
    if isMapped f.table && isMapped g.table then
      [⟨f.table, ⟨collectionName g.table, g.table, true, .linked table own other⟩⟩,
        ⟨g.table, ⟨collectionName f.table, f.table, true, .linked table other own⟩⟩]
    else []

/-- The first name that stands twice in a list. -/
def repeated? : List String → Option String
  | [] => none
  | name :: rest => if rest.contains name then some name else repeated? rest

def model (relations : List Owned) (table : TableDefinition) : Except Error Model :=
  let own := (relations.filter (·.owner == table.name)).map (·.relation)
  match repeated? (table.columns.map (·.name) ++ own.map (·.key)) with
  | some key => .error (.nameTaken table.name key)
  | none => .ok {
      name := table.name
      table := table.name
      columns := table.columns.map fun column =>
        ⟨column.name, column.name, column.type, column.nullable, none, column.foreign⟩
      primaryKey := (table.columns.filter (·.inKey)).map (·.name)
      relations := own }

def schema (tables : List TableDefinition) : Except Error Schema := do
  let relations := fromReferences tables ++ fromLinks tables
  return ⟨← (tables.filter (·.isMapped)).mapM (model relations)⟩

/-! ## The order of tables -/

/-- The other tables to which a table refers. -/
def needs (table : TableDefinition) : List String :=
  (table.references.map fun reference => reference.2.table).filter (· ≠ table.name)

/-- The tables that can be reached from some of them by at most `n` references. -/
def reachable (tables : List TableDefinition) : Nat → List String → List String
  | 0, names => names
  | n + 1, names =>
      let next := (tables.filter fun t => names.contains t.name).flatMap needs
      reachable tables n (names ++ next.filter (!names.contains ·)).eraseDups

/-- A table refers to itself by way of others. -/
def isCyclic (tables : List TableDefinition) (table : TableDefinition) : Bool :=
  (reachable tables tables.length (needs table)).contains table.name

/-- What must stand before a table; references along a cycle do not count. -/
def required (tables : List TableDefinition) (table : TableDefinition) : List String :=
  if isCyclic tables table then [] else needs table

/-- A table requires none of some others. -/
def isReady (requires : TableDefinition → List String) (todo : List TableDefinition)
    (table : TableDefinition) : Bool :=
  !(requires table).any fun name => todo.any (·.name == name)

/-- Takes those tables first that require no other one, and so on with the rest, in at most
`n` rounds. -/
def layers (requires : TableDefinition → List String) :
    Nat → List TableDefinition → List TableDefinition
  | 0, todo => todo
  | n + 1, todo =>
      let (ready, rest) := todo.partition (isReady requires todo)
      ready ++ layers requires n rest

/-- The tables by name, and each behind those to which it refers. -/
def inOrder (tables : List TableDefinition) : List TableDefinition :=
  layers (required tables) tables.length (tables.mergeSort fun a b => a.name ≤ b.name)

/-- What there is to tell about the reflection of some tables. -/
def report (tables : List TableDefinition) : List Console.Step :=
  let skipped := (inOrder tables).filter (!·.isMapped)
  let warnings := skipped.map fun table =>
    let name := Palette.table.markup table.name
    Console.Step.message .warn
      s!"Skipping table {name}: could not automap (likely missing a primary key)."
  let count := (tables.filter (·.isMapped)).length
  let name := Palette.schema.markup "default"
  warnings ++ [.message .success s!"Reflected {count} models from {name} schema"]

end Reflection
end RecordApi
