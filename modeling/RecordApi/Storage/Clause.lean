import RecordApi.Query.Order
import RecordApi.Query.Predicate
import RecordApi.Schema.Model
import RecordApi.Storage.Error

/-!
# Clauses

A clause is a predicate checked against a model: every field is a column, every operator
is known, and every operand has the kind that its operator takes and is converted to the
kind of the column.  `Clause.ofPredicate` finds the first fault, going through a
predicate from left to right and looking at the field, the operator and the operand of a
condition in this order.
-/

namespace RecordApi

inductive Comparison where
  | eq | ne | gt | gte | lt | lte
deriving DecidableEq, Repr

/-- Where a text is looked for in another. -/
inductive Placement where
  | atStart
  | atEnd
  | anywhere
deriving DecidableEq, Repr

/-- What is asked of the value in a column.  The operands are of type `α`. -/
inductive Test (α : Type) where
  /-- It is null. -/
  | isNull (negated : Bool)
  /-- It is a truth value; null is not. -/
  | isTruth (negated value : Bool)
  /-- It equals a truth value, which is unknown for null. -/
  | equalsTruth (negated value : Bool)
  | compare (comparison : Comparison) (operand : α)
  | compareColumn (other : Column)
  | between (negated : Bool) (low high : α)
  | among (negated : Bool) (operands : List α)
  /-- It equals all of some operands, or any of them. -/
  | quantified (all : Bool) (operands : List α)
  | wildcard (negated caseless : Bool) (pattern : String)
  | holdsText (placement : Placement) (text : String)
  | regexp (negated caseless : Bool) (pattern : String)
  | words (text : String)

inductive Clause (α : Type) where
  | test (column : Column) (test : Test α)
  | group (combinator : Combinator) (clauses : List (Clause α))

namespace Clause

/-- The items of an operand that stands for several values: a list, or a text of pieces
between commas. -/
def operandItems : Value → List Value
  | .list items => items
  | .text s => (Text.commaList s).map .text
  | v => [v]

/-- An operand that is null or a truth value, possibly written as a word. -/
def nullOrTruth (field : String) (operand : Value) : Except StoreError (Option Bool) :=
  match operand with
  | .null => .ok none
  | .bool b => .ok (some b)
  | v =>
      match Operand.word v with
      | "null" => .ok none
      | "true" => .ok (some true)
      | "false" => .ok (some false)
      | _ => .error (.operand (.invalid field .nullOrBoolean))

def column (model : Model) (name field : String) : Except StoreError Column :=
  match model.column? field with
  | some column => .ok column
  | none => .error (.unknownField name field)

def coerce (column : Column) (operand : Value) : Except StoreError Value :=
  (Operand.coerce column.key column.type.kind operand).mapError .operand

/-- A comparison with a converted operand.  Null and truth values are only equal or not. -/
def comparisonTest (comparison : Comparison) (operand : Value) : Except StoreError (Test Value) :=
  match comparison, operand with
  | .eq, .null => .ok (.isNull false)
  | .ne, .null => .ok (.isNull true)
  | .eq, .bool b => .ok (.equalsTruth false b)
  | .ne, .bool b => .ok (.equalsTruth true b)
  | _, .null => .error .comparison
  | _, .bool _ => .error .comparison
  | comparison, operand => .ok (.compare comparison operand)

def isTest (negated : Bool) : Option Bool → Test Value
  | none => .isNull negated
  | some b => .isTruth negated b

def pairTest (negated : Bool) (column : Column) (operand : Value) :
    Except StoreError (Test Value) :=
  match operandItems operand with
  | [low, high] => do return .between negated (← coerce column low) (← coerce column high)
  | _ => .error (.operand (.invalid column.key .pair))

/-- The test that an operator with an operand asks of a column. -/
def testOf (model : Model) (name : String) (column : Column) (op : Operator) (operand : Value) :
    Except StoreError (Test Value) :=
  let compare (comparison : Comparison) : Except StoreError (Test Value) := do
    comparisonTest comparison (← coerce column operand)
  let items : Except StoreError (List Value) := (operandItems operand).mapM (coerce column)
  let text := operand.plainText
  match op with
  | .eq => compare .eq
  | .ne => compare .ne
  | .gt => compare .gt
  | .gte => compare .gte
  | .lt => compare .lt
  | .lte => compare .lte
  | .is => (nullOrTruth column.key operand).map (isTest false)
  | .isNot => (nullOrTruth column.key operand).map (isTest true)
  | .col => (Clause.column model name text).map .compareColumn
  | .between => pairTest false column operand
  | .notBetween => pairTest true column operand
  | .isIn => items.map (.among false)
  | .notIn => items.map (.among true)
  | .all => items.map (.quantified true)
  | .any => items.map (.quantified false)
  | .like => .ok (.wildcard false false text)
  | .notLike => .ok (.wildcard true false text)
  | .iLike => .ok (.wildcard false true text)
  | .notILike => .ok (.wildcard true true text)
  | .startsWith => .ok (.holdsText .atStart text)
  | .endsWith => .ok (.holdsText .atEnd text)
  | .substring => .ok (.holdsText .anywhere text)
  | .regexp => .ok (.regexp false false text)
  | .notRegexp => .ok (.regexp true false text)
  | .iRegexp => .ok (.regexp false true text)
  | .notIRegexp => .ok (.regexp true true text)
  | .matches => .ok (.words text)

def ofCondition (model : Model) (name : String) (condition : Condition) :
    Except StoreError (Clause Value) := do
  let column ← Clause.column model name condition.field
  match condition.operator with
  | .unknown operator => .error (.unsupportedOperator operator)
  | .known op => return .test column (← testOf model name column op condition.operand)

mutual

/-- Checks a predicate on the rows of a model, which errors call by a name. -/
def ofPredicate (model : Model) (name : String) : Predicate → Except StoreError (Clause Value)
  | .condition c => ofCondition model name c
  | .group combinator branches =>
      (ofPredicates model name branches).map (.group combinator)

def ofPredicates (model : Model) (name : String) :
    List Predicate → Except StoreError (List (Clause Value))
  | [] => .ok []
  | p :: rest => do
      let clause ← ofPredicate model name p
      let others ← ofPredicates model name rest
      return clause :: others

end

def ofPredicate? (model : Model) (name : String) :
    Option Predicate → Except StoreError (Option (Clause Value))
  | none => .ok none
  | some p => (ofPredicate model name p).map some

end Clause

structure SortKey where
  column : Column
  /-- The direction, ascending when none is told. -/
  direction : Option Bool

namespace SortKey

/-- Checks one item of an order; the direction is whether it descends. -/
def ofItem (model : Model) (name : String) (item : OrderItem) : Except StoreError SortKey := do
  let column ← Clause.column model name item.field
  match item.direction with
  | none => return ⟨column, none⟩
  | some .ascending => return ⟨column, some false⟩
  | some .descending => return ⟨column, some true⟩
  | some (.unrecognised token) => .error (.unsupportedDirection item.field token)

def ofOrder (model : Model) (name : String) (order : Option (List OrderItem)) :
    Except StoreError (List SortKey) :=
  (order.getD []).mapM (ofItem model name)

end SortKey
end RecordApi
