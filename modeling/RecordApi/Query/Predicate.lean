import RecordApi.Query.Operator
import RecordApi.Value.Basic

/-!
# Predicates

What a filter is compiled to: conditions on one field each, combined by conjunctions
and disjunctions.  `Predicate.truth` gives the three-valued truth of a predicate from
that of its conditions.
-/

namespace RecordApi

/-- The truth values of a logic with missing information. -/
inductive Truth where
  | yes
  | no
  | unknown
deriving DecidableEq, Repr

namespace Truth

def ofBool (b : Bool) : Truth :=
  if b then .yes else .no

def not : Truth → Truth
  | .yes => .no
  | .no => .yes
  | .unknown => .unknown

/-- False as soon as one side is false, and unknown if one side then is. -/
def and : Truth → Truth → Truth
  | .no, _ => .no
  | _, .no => .no
  | .yes, .yes => .yes
  | _, _ => .unknown

def or : Truth → Truth → Truth
  | .yes, _ => .yes
  | _, .yes => .yes
  | .no, .no => .no
  | _, _ => .unknown

def conjunction (truths : List Truth) : Truth :=
  truths.foldr and .yes

def disjunction (truths : List Truth) : Truth :=
  truths.foldr or .no

end Truth

inductive Combinator where
  | and
  | or
deriving DecidableEq, Repr

namespace Combinator

def name : Combinator → String
  | .and => "and"
  | .or => "or"

def ofName? : String → Option Combinator
  | "and" => some .and
  | "or" => some .or
  | _ => none

def truth : Combinator → List Truth → Truth
  | .and => Truth.conjunction
  | .or => Truth.disjunction

end Combinator

/-- An operator as a filter names it, known or not. -/
inductive OperatorName where
  | known (op : Operator)
  | unknown (name : String)
deriving DecidableEq, Repr

namespace OperatorName

def ofName (name : String) : OperatorName :=
  match Operator.ofName? name with
  | some op => .known op
  | none => .unknown name

def name : OperatorName → String
  | .known op => op.name
  | .unknown name => name

end OperatorName

/-- A constraint on one field. -/
structure Condition where
  field : String
  operator : OperatorName
  operand : Value

inductive Predicate where
  | condition (c : Condition)
  | group (combinator : Combinator) (branches : List Predicate)

namespace Predicate

mutual

/-- The truth of a predicate under an assignment of truth to conditions. -/
def truth (assign : Condition → Truth) : Predicate → Truth
  | .condition c => assign c
  | .group combinator branches => combinator.truth (truths assign branches)

def truths (assign : Condition → Truth) : List Predicate → List Truth
  | [] => []
  | p :: rest => truth assign p :: truths assign rest

end

mutual

def conditions : Predicate → List Condition
  | .condition c => [c]
  | .group _ branches => conditionsOfAll branches

def conditionsOfAll : List Predicate → List Condition
  | [] => []
  | p :: rest => conditions p ++ conditionsOfAll rest

end

/-- The conjunction of some predicates; a single one stands for itself. -/
def conjoin : List Predicate → Predicate
  | [p] => p
  | ps => .group .and ps

def equals (field : String) (value : Value) : Condition :=
  ⟨field, .known .eq, value⟩

def ofValues (values : List (String × Value)) : Predicate :=
  conjoin (values.map fun entry => .condition (equals entry.1 entry.2))

end Predicate
end RecordApi
