/-!
# Filter operators

The operators that a filter may use on a field, by the kind of operand they take.
-/

namespace RecordApi

inductive Operator where
  | eq | ne | is | isNot | col
  | gt | gte | lt | lte | between | notBetween
  | all | isIn | notIn
  | like | notLike | startsWith | endsWith | substring | iLike | notILike
  | regexp | notRegexp | iRegexp | notIRegexp
  | any | matches
deriving DecidableEq, Repr

inductive OperatorClass where
  | equality | range | set | pattern | text
deriving DecidableEq, Repr

namespace Operator

/-- All operators, by class. -/
def list : List Operator :=
  [.eq, .ne, .is, .isNot, .col, .gt, .gte, .lt, .lte, .between, .notBetween, .all, .isIn, .notIn,
    .like, .notLike, .startsWith, .endsWith, .substring, .iLike, .notILike, .regexp, .notRegexp,
    .iRegexp, .notIRegexp, .any, .matches]

theorem mem_list (op : Operator) : op ∈ list := by
  cases op <;> decide

def name : Operator → String
  | .eq => "eq"
  | .ne => "ne"
  | .is => "is"
  | .isNot => "not"
  | .col => "col"
  | .gt => "gt"
  | .gte => "gte"
  | .lt => "lt"
  | .lte => "lte"
  | .between => "between"
  | .notBetween => "notBetween"
  | .all => "all"
  | .isIn => "in"
  | .notIn => "notIn"
  | .like => "like"
  | .notLike => "notLike"
  | .startsWith => "startsWith"
  | .endsWith => "endsWith"
  | .substring => "substring"
  | .iLike => "iLike"
  | .notILike => "notILike"
  | .regexp => "regexp"
  | .notRegexp => "notRegexp"
  | .iRegexp => "iRegexp"
  | .notIRegexp => "notIRegexp"
  | .any => "any"
  | .matches => "match"

def ofName? (name : String) : Option Operator :=
  list.find? fun op => op.name == name

theorem ofName?_name (op : Operator) : ofName? op.name = some op := by
  cases op <;> decide

def operatorClass : Operator → OperatorClass
  | .eq | .ne | .is | .isNot | .col => .equality
  | .gt | .gte | .lt | .lte | .between | .notBetween => .range
  | .all | .isIn | .notIn => .set
  | .like | .notLike | .startsWith | .endsWith | .substring | .iLike | .notILike
  | .regexp | .notRegexp | .iRegexp | .notIRegexp => .pattern
  | .any | .matches => .text

/-- The operand is a pair of bounds. -/
def takesPair : Operator → Bool
  | .between | .notBetween => true
  | _ => false

/-- The operand is a list, or a text of pieces between commas. -/
def takesList : Operator → Bool
  | .all | .isIn | .notIn | .any => true
  | _ => false

/-- The operand is matched as text and never converted to the column's type. -/
def takesText (op : Operator) : Bool :=
  op.operatorClass == .pattern || op == .matches

/-- The operand names another column. -/
def takesColumn : Operator → Bool
  | .col => true
  | _ => false

/-- The operand is null or a truth value. -/
def takesNull : Operator → Bool
  | .is | .isNot => true
  | _ => false

end Operator

namespace OperatorClass

def name : OperatorClass → String
  | .equality => "equality"
  | .range => "range"
  | .set => "set"
  | .pattern => "pattern"
  | .text => "match"

end OperatorClass
end RecordApi
