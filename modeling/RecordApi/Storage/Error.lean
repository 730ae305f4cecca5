import RecordApi.Schema.Operand

/-!
# Errors of a store

A store refuses a query that names what does not exist or has an operand of the wrong
kind.  A statement that the database cannot run gives a fault, which is told together
with the action that failed.
-/

namespace RecordApi

inductive Action where
  | list
  | find
  | create
  | update
  | destroy
deriving DecidableEq, Repr

def Action.name : Action → String
  | .list => "find_and_count_all"
  | .find => "find_one"
  | .create => "create"
  | .update => "update"
  | .destroy => "destroy"

/-- Why the database did not run a statement. -/
inductive Fault where
  /-- A column that must be given is missing, or a key is taken. -/
  | integrity
  /-- An operator cannot be evaluated on a row. -/
  | operation
  /-- An operand has no form in the database. -/
  | binding
  /-- The type of a column does not take a value. -/
  | refused
  | dialect
  /-- An entity is looked up by a key of the wrong shape, or is gone when it is read again. -/
  | identity
  /-- An entity that is to be changed is not found by the key that it shows. -/
  | stale
  /-- An order comparison has null or a truth value on one side. -/
  | comparison
deriving DecidableEq, Repr

inductive StoreError where
  | unknownField (model field : String)
  | unknownRelation (model relation : String)
  | unsupportedOperator (operator : String)
  | unsupportedDirection (field direction : String)
  | operand (error : Operand.Error)
  /-- Every row of a model would be destroyed. -/
  | unguarded (model : String)
  /-- An order comparison is refused before there is a statement. -/
  | comparison
  /-- An integer takes more than 64 bits. -/
  | outOfRange
  /-- A stored name is outside its enumeration. -/
  | unreadable
  | failed (action : Action) (model : String) (fault : Fault)
deriving DecidableEq, Repr

namespace StoreError

def message : StoreError → String
  | .unknownField model field => s!"'{model}' has no column '{field}'"
  | .unknownRelation model relation => s!"'{model}' has no relation '{relation}'"
  | .unsupportedOperator operator => s!"Unsupported filter operator '{operator}'"
  | .unsupportedDirection field direction =>
      s!"Unsupported sort direction '{direction}' for field '{field}'"
  | .operand error => error.message
  | .unguarded model => s!"Refusing to destroy every '{model}' row without a where clause"
  | .comparison => "only equality compares with null and truth values"
  | .outOfRange => "an integer takes more than 64 bits"
  | .unreadable => "a stored name is outside its enumeration"
  | .failed action model _ => s!"{action.name} on '{model}' failed"

end StoreError
end RecordApi
