import RecordApi.Query.Predicate

/-!
# Filters

A filter is a tree of maps: a field is mapped to operators with their operands, and
the keys `and` and `or` hold lists of entries.  The root has one key; an entry inside
a list may have several, which are conjoined.  `Filter.compile` turns a filter into a
predicate, or tells the first place where it has the wrong shape.
-/

namespace RecordApi
namespace Filter

def maxDepth : Nat := 8

/-- What becomes of several operators on one field. -/
inductive MergePolicy where
  /-- Only the last operator counts. -/
  | lastWins
  /-- All operators must hold. -/
  | conjunction
deriving DecidableEq, Repr

inductive Error where
  | notObject
  | severalRoots
  | tooDeep
  | entryNotObject
  | groupNotList (combinator : Combinator)
  | fieldNotMap (field : String)
  /-- A text given for a filter is no JSON. -/
  | notJson (parameter : String)
deriving DecidableEq, Repr

namespace Error

def message : Error → String
  | .notObject => "filters must be an object"
  | .severalRoots => "filters must have a single root property"
  | .tooDeep => s!"filters may not nest deeper than {maxDepth} groups"
  | .entryNotObject => "each filter entry must be an object"
  | .groupNotList combinator => s!"'{combinator.name}' must hold a list of filters"
  | .fieldNotMap field => s!"filter for '{field}' must map operators to values"
  | .notJson parameter => s!"'{parameter}' is not valid JSON"

end Error

namespace MergePolicy

def name : MergePolicy → String
  | .lastWins => "last_wins"
  | .conjunction => "conjunction"

def ofName? : String → Option MergePolicy
  | "last_wins" => some .lastWins
  | "conjunction" => some .conjunction
  | _ => none

/-- The conditions that a policy keeps of those on one field. -/
def keep {α : Type} : MergePolicy → List α → List α
  | .conjunction, conditions => conditions
  | .lastWins, conditions => conditions.drop (conditions.length - 1)

end MergePolicy

def compileField (merge : MergePolicy) (field : String) : Value → Except Error (List Condition)
  | .map operators =>
      .ok (merge.keep (operators.map fun entry => ⟨field, OperatorName.ofName entry.1, entry.2⟩))
  | _ => .error (.fieldNotMap field)

mutual

/-- Compiles an entry: the conjunction of all its keys. -/
def compileEntry (merge : MergePolicy) (depth : Nat) : Value → Except Error Predicate
  | .map entries =>
      if maxDepth < depth then .error .tooDeep
      else (compileKeys merge depth entries).map Predicate.conjoin
  | _ => if maxDepth < depth then .error .tooDeep else .error .entryNotObject

def compileGroup (merge : MergePolicy) (combinator : Combinator) (depth : Nat) :
    Value → Except Error Predicate
  | .list items => (compileItems merge depth items).map (.group combinator)
  | _ => .error (.groupNotList combinator)

def compileKeys (merge : MergePolicy) (depth : Nat) :
    List (String × Value) → Except Error (List Predicate)
  | [] => .ok []
  | (key, value) :: rest => do
      let parts ←
        match Combinator.ofName? key with
        | some combinator => (compileGroup merge combinator (depth + 1) value).map fun p => [p]
        | none => (compileField merge key value).map fun cs => cs.map Predicate.condition
      let others ← compileKeys merge depth rest
      return parts ++ others

def compileItems (merge : MergePolicy) (depth : Nat) :
    List Value → Except Error (List Predicate)
  | [] => .ok []
  | item :: rest => do
      let p ← compileEntry merge depth item
      let others ← compileItems merge depth rest
      return p :: others

end

/-- Compiles a filter.  A falsy value is no filter and gives no predicate. -/
def compile (merge : MergePolicy) (filter : Value) : Except Error (Option Predicate) :=
  if filter.isFalsy then .ok none
  else
    match filter with
    | .map entries =>
        if 1 < entries.length then .error .severalRoots
        else (compileEntry merge 0 filter).map some
    | _ => .error .notObject

end Filter
end RecordApi
