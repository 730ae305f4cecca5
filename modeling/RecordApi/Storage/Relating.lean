import RecordApi.Query.Builder
import RecordApi.Storage.Evaluation

/-!
# Related rows

A store finds the relation that an inclusion asks for, by its name or, when only one
relation leads there, by the model registered under that name.  `Join.multiplicity` says
how often a row of the target is related to a row of the owner: the cells of the joined columns
are compared as they are stored, each by the affinity of its column.
-/

namespace RecordApi

/-- One registered entity, with the models around it. -/
structure Store where
  schema : Schema
  registry : Registry
  name : String
  model : Model

namespace Cell

/-- Two keys are equal; null equals nothing. -/
def sameKey (a b : Cell) : Bool :=
  a.compare? b == some .eq

/-- The cells of two columns are equal, each beside the affinity of the other. -/
def joins (type other : ColumnType) (a b : Cell) : Bool :=
  (a.beside type.affinity other.affinity).sameKey (b.beside other.affinity type.affinity)

end Cell

namespace Join

/-- A field of a row is joined with a field of another one. -/
def meets (model other : Model) (field theirs : String) (row row' : Row) : Bool :=
  Cell.joins (model.typeOf field) (other.typeOf theirs) (row.cell field) (row'.cell theirs)

/-- A row of a linking table refers to a row of a model. -/
def refers (model : Model) (side : LinkEnd) (link row : Row) : Bool :=
  Cell.joins side.type (model.typeOf side.field) (link.cell side.column) (row.cell side.field)

/-- How many times a row of the target is related to a row of the owner: once or not at
all, or once for every row of a linking table that refers to both. -/
def multiplicity (db : Database) (owner target : Model) (join : Join) (parent child : Row) : Nat :=
  let once (b : Bool) : Nat := if b then 1 else 0
  match join with
  | .held field own => once (meets target owner field own child parent)
  | .holds field other => once (meets owner target field other parent child)
  | .linked table own other =>
      ((db.linksOf table).filter fun link =>
        refers owner own link parent && refers target other link child).length

/-- The related rows are looked through before they are joined. -/
def filtersFirst : Join → Bool
  | .held _ _ => true
  | _ => false

end Join

namespace Store

/-- The relation that an inclusion asks for, and its model. -/
def relation (store : Store) (inclusion : Inclusion) : Except StoreError (Relation × Model) :=
  let unknown := StoreError.unknownRelation store.name inclusion.relation
  let found :=
    match store.model.relation? inclusion.relation with
    | some relation => some relation
    | none =>
        inclusion.model.bind fun model =>
          match store.model.relations.filter fun (r : Relation) => r.target == model with
          | [relation] => some relation
          | _ => none
  match found with
  | none => .error unknown
  | some relation =>
      match store.schema.model? relation.target with
      | some target => .ok (relation, target)
      | none => .error unknown

end Store

/-- A demand that a row has a related row on which a clause holds. -/
structure Existence (α : Type) where
  relation : Relation
  target : Model
  clause : Clause α

namespace Existence

/-- Whether a row has such a related row, if that can be told. -/
def holdsFrom? (db : Database) (owner : Model) (existence : Existence Cell) (parent : Row) :
    List Row → Option Bool
  | [] => some false
  | child :: rest =>
      if existence.relation.join.multiplicity db owner existence.target parent child = 0 then
        holdsFrom? db owner existence parent rest
      else
        match existence.clause.holds? child with
        | some false => holdsFrom? db owner existence parent rest
        | other => other

def holds? (db : Database) (owner : Model) (existence : Existence Cell) (parent : Row) :
    Option Bool :=
  holdsFrom? db owner existence parent (db.rows existence.target)

end Existence

/-- Which rows of a model a query selects. -/
structure Selection (α : Type) where
  clause : Option (Clause α)
  required : List (Existence α)

namespace Selection

/-- Checks the predicate of a query and of its required inclusions. -/
def ofQuery (store : Store) (query : Query) : Except StoreError (Selection Value) := do
  let clause ← Clause.ofPredicate? store.model store.name query.filter
  let required ← ((query.inclusions.getD []).filter (·.required)).mapM fun inclusion => do
    let (relation, target) ← store.relation inclusion
    let clause ← Clause.ofPredicate? target inclusion.relation inclusion.filter
    return ⟨relation, target, clause.getD .always⟩
  return ⟨clause, required⟩

/-- Simplifies the clauses.  One that holds nowhere stands for the whole selection, and
one that holds everywhere is left out beside another demand. -/
def simplified {α : Type} (selection : Selection α) : Selection α :=
  let required := selection.required.map fun e => { e with clause := e.clause.simplified }
  match selection.clause.map Clause.simplified with
  | none => ⟨none, required⟩
  | some clause =>
      if clause.isNever then ⟨some clause, []⟩
      else if clause.isAlways && !required.isEmpty then ⟨none, required⟩
      else ⟨some clause, required⟩

def bindings (selection : Selection Value) : List (Except BindError Cell) :=
  (selection.clause.map Clause.bindings).getD [] ++
    selection.required.flatMap fun e => e.clause.bindings

def bound (selection : Selection Value) : Selection Cell :=
  ⟨selection.clause.map Clause.bound,
    selection.required.map fun e => ⟨e.relation, e.target, e.clause.bound⟩⟩

def hasQuantifier {α : Type} (selection : Selection α) : Bool :=
  (selection.clause.map Clause.hasQuantifier).getD false ||
    selection.required.any fun e => e.clause.hasQuantifier

/-- Whether all demands are met, from left to right. -/
def allRequired? (db : Database) (owner : Model) (row : Row) :
    List (Existence Cell) → Option Bool
  | [] => some true
  | e :: rest =>
      match e.holds? db owner row with
      | some true => allRequired? db owner row rest
      | other => other

/-- Whether a row is selected, if that can be told. -/
def selects? (db : Database) (model : Model) (selection : Selection Cell) (row : Row) :
    Option Bool :=
  let chosen :=
    match selection.clause with
    | none => some true
    | some clause => clause.selects? model row
  match chosen with
  | some true => allRequired? db model row selection.required
  | other => other

end Selection
end RecordApi
