import RecordApi.Value.Text

/-!
# Sort orders

A sort is written `field:direction`, in either order of the two words when only one of
them is a direction.  A direction that is neither ascending nor descending is kept for
the store to refuse.
-/

namespace RecordApi

inductive Direction where
  | ascending
  | descending
  | unrecognised (token : String)
deriving DecidableEq, Repr

structure OrderItem where
  field : String
  direction : Option Direction
deriving DecidableEq, Repr

namespace Direction

/-- The direction that a word names, in any letter case. -/
def ofWord? (word : String) : Option Direction :=
  match String.ofList (word.toList.map Char.toLower) with
  | "asc" => some .ascending
  | "desc" => some .descending
  | _ => none

def text : Direction → String
  | .ascending => "ASC"
  | .descending => "DESC"
  | .unrecognised token => token

end Direction

namespace SortOrder

/-- The parts of a text before and after its first colon. -/
def splitColon (s : String) : String × Option String :=
  let cs := s.toList
  match cs.dropWhile (· ≠ ':') with
  | [] => (s, none)
  | _ :: after => (String.ofList (cs.takeWhile (· ≠ ':')), some (String.ofList after))

/-- The item that two words around a colon stand for. -/
def itemOfWords (first second : String) : OrderItem :=
  match Direction.ofWord? first, Direction.ofWord? second with
  | some direction, none => ⟨second, some direction⟩
  | _, some direction => ⟨first, some direction⟩
  | none, none => ⟨first, some (.unrecognised second)⟩

def ofText (s : String) : OrderItem :=
  match splitColon s with
  | (field, none) => ⟨field, none⟩
  | (first, some second) => itemOfWords first second

/-- The order that a value asks for; a falsy value asks for none. -/
def compile (sort : Value) : Option (List OrderItem) :=
  if sort.isFalsy then none else some [ofText sort.plainText]

end SortOrder
end RecordApi
