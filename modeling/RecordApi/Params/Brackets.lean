import RecordApi.Params.Key
import RecordApi.Json.Reader

/-!
# Writing bracket notation

A map of texts, lists and maps is written as one item for each of its texts.  The keys and
the list indices that lead to a text are the segments of the key of its item.
-/

namespace RecordApi

/-- A text with the path of keys and indices that leads to it. -/
structure Leaf where
  path : List String
  text : String
deriving DecidableEq, Repr

namespace Leaf

/-- A leaf seen from one level further up. -/
def under (name : String) (leaf : Leaf) : Leaf :=
  ⟨name :: leaf.path, leaf.text⟩

def item (leaf : Leaf) : String × String :=
  (Key.join leaf.path, leaf.text)

end Leaf

namespace Key

/-- A text that may stand as a key of bracket notation: non-empty and without brackets. -/
def isName (name : String) : Bool :=
  !name.isEmpty && name.toList.all (!isBracket ·)

end Key

namespace Value

mutual

/-- The texts of a value in document order. -/
def leaves : Value → List Leaf
  | .text s => [⟨[], s⟩]
  | .list items => itemLeaves 0 items
  | .map entries => entryLeaves entries
  | _ => []

/-- The texts of list items, the first of which has the given index. -/
def itemLeaves : Nat → List Value → List Leaf
  | _, [] => []
  | index, item :: rest =>
      item.leaves.map (Leaf.under (toString index)) ++ itemLeaves (index + 1) rest

def entryLeaves : List (String × Value) → List Leaf
  | [] => []
  | (key, value) :: rest => value.leaves.map (Leaf.under key) ++ entryLeaves rest

end

/-- The values that bracket notation can tell: texts, non-empty lists whose indices have no
more digits than an integer may have, and non-empty maps.  The keys of a map are distinct names,
not all of which are made of digits. -/
inductive Bracketable : Value → Prop
  | text (s : String) : Bracketable (.text s)
  | list {items : List Value}
      (nonempty : items ≠ [])
      (countable : ∀ i < items.length, (toString i).length ≤ Json.integerDigits)
      (members : ∀ item ∈ items, Bracketable item) :
      Bracketable (.list items)
  | map {entries : List (String × Value)}
      (nonempty : entries ≠ [])
      (distinct : (Assoc.keys entries).Nodup)
      (names : ∀ key ∈ Assoc.keys entries, Key.isName key = true)
      (nondigit : ∃ key ∈ Assoc.keys entries, Text.isDigitText key = false)
      (members : ∀ entry ∈ entries, Bracketable entry.2) :
      Bracketable (.map entries)

/-- Two values differ at most in the order of the keys of their maps. -/
inductive SameUpToKeyOrder : Value → Value → Prop
  | text (s : String) : SameUpToKeyOrder (.text s) (.text s)
  | list {items others : List Value}
      (length : items.length = others.length)
      (members : ∀ (i : Nat) (v w : Value),
        items[i]? = some v → others[i]? = some w → SameUpToKeyOrder v w) :
      SameUpToKeyOrder (.list items) (.list others)
  | map {entries others : List (String × Value)}
      (keys : (Assoc.keys entries).Perm (Assoc.keys others))
      (members : ∀ (key : String) (v w : Value),
        (key, v) ∈ entries → (key, w) ∈ others → SameUpToKeyOrder v w) :
      SameUpToKeyOrder (.map entries) (.map others)

end Value

namespace Params

/-- The items of a query string that give the entries of a map, in document order. -/
def writeItems (entries : List (String × Value)) : List (String × String) :=
  (Value.entryLeaves entries).map Leaf.item

end Params
end RecordApi
