import RecordApi.Params.Key
import RecordApi.Query.Filter
import RecordApi.Value.Text
import RecordApi.Json.Reader

/-!
# Folding query parameters

The items of a query string are put one after the other into a tree of maps, along the
segments of their keys; an empty segment stands for the number of digit keys already
there, and values repeated under one key gather in a list.  At the end every map whose
keys are all digits becomes a list in the order of its numbers.
-/

namespace RecordApi
namespace Params

inductive Error where
  /-- A key goes below a plain value. -/
  | bracketsOverPlain (key root : String)
  /-- A plain value is given where a map stands. -/
  | plainOverBrackets (key root : String)
  /-- The text of a list index is made of digits but is no decimal number. -/
  | indexNotDecimal
  /-- All parameter names are digits, so that no parameter can be told by its name. -/
  | unnamedParameters
  | integerTooLong
  | notJson (parameter : String)
  | notList (parameter : String)
  | notMap (parameter : String)
  | filter (error : Filter.Error)
deriving DecidableEq, Repr

namespace Error

def message : Error → String
  | .bracketsOverPlain key root =>
      s!"'{key}' mixes bracket notation with a plain value for '{root}'"
  | .plainOverBrackets key root =>
      s!"'{key}' mixes a plain value with bracket notation for '{root}'"
  | .indexNotDecimal => "a list index is no decimal number"
  | .unnamedParameters => "all parameter names are digits"
  | .integerTooLong => "an integer has too many digits"
  | .notJson parameter => s!"'{parameter}' is not valid JSON"
  | .notList parameter => s!"'{parameter}' must be a list"
  | .notMap parameter => s!"'{parameter}' must be an object keyed by relation name"
  | .filter error => error.message

end Error

inductive Tree where
  | plain (text : String)
  | repeated (texts : List String)
  | branch (entries : List (String × Tree))

/-- The text of the next index: how many keys are digits. -/
def nextIndex (entries : Assoc Tree) : String :=
  toString (entries.filter fun entry => Text.isDigitText entry.1).length

/-- A segment as a key among some entries. -/
def resolveSegment (entries : Assoc Tree) (segment : String) : String :=
  if segment.isEmpty then nextIndex entries else segment

/-- Puts a value at the end of a path. -/
def assign (key root value : String) :
    List String → Assoc Tree → Except Error (Assoc Tree)
  | [], entries => .ok entries
  | [segment], entries =>
      let leaf := resolveSegment entries segment
      match entries.get? leaf with
      | none => .ok (entries.put leaf (.plain value))
      | some (.plain text) => .ok (entries.put leaf (.repeated [text, value]))
      | some (.repeated texts) => .ok (entries.put leaf (.repeated (texts ++ [value])))
      | some (.branch _) => .error (.plainOverBrackets key root)
  | segment :: rest, entries =>
      let name := resolveSegment entries segment
      match entries.get? name with
      | none =>
          (assign key root value rest []).map fun child => entries.put name (.branch child)
      | some (.branch child) =>
          (assign key root value rest child).map fun child => entries.put name (.branch child)
      | some _ => .error (.bracketsOverPlain key root)

def assignItem (entries : Assoc Tree) (item : String × String) : Except Error (Assoc Tree) :=
  let path := Key.split item.1
  assign item.1 (path.headD "") item.2 path entries

/-- The number that the text of a list index writes. -/
def indexNumber? (key : String) : Option Nat :=
  if key.length ≤ Json.integerDigits then Text.natOfDigits? key.toList else none

/-- The values of a map in the order of the numbers that its keys write. -/
def inIndexOrder (entries : List (String × Value)) : Except Error (List Value) := do
  let numbered ← entries.mapM fun entry =>
    match indexNumber? entry.1 with
    | some n => .ok (n, entry.2)
    | none => .error .indexNotDecimal
  return (numbered.mergeSort fun a b => a.1 ≤ b.1).map (·.2)

/-- A map, or the list that it stands for. -/
def foldMap (entries : List (String × Value)) : Except Error Value :=
  if !entries.isEmpty && entries.all fun entry => Text.isDigitText entry.1 then
    (inIndexOrder entries).map Value.list
  else .ok (.map entries)

mutual

def Tree.fold : Tree → Except Error Value
  | .plain text => .ok (.text text)
  | .repeated texts => .ok (Value.ofTexts texts)
  | .branch entries => do foldMap (← foldEntries entries)

def foldEntries : List (String × Tree) → Except Error (List (String × Value))
  | [] => .ok []
  | (key, tree) :: rest => do
      let value ← tree.fold
      let others ← foldEntries rest
      return (key, value) :: others

end

def fold (items : List (String × String)) : Except Error Value := do
  let entries ← items.foldlM assignItem []
  foldMap (← foldEntries entries)

end Params
end RecordApi
