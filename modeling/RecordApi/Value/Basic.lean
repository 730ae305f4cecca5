import RecordApi.Assoc
import RecordApi.Number.Decimal
import RecordApi.Calendar.Timestamp
import RecordApi.Uuid

/-!
# Dynamic values

What a request carries and what a row holds: the values of JSON, with integers,
binary and exact decimal numbers kept apart, and the scalar values of typed columns.
Maps keep the order of their keys.
-/

namespace RecordApi

inductive Value where
  | null
  | bool (b : Bool)
  | int (n : Int)
  | float (x : Binary64)
  | decimal (d : Decimal)
  | text (s : String)
  | date (d : Date)
  | timestamp (t : Timestamp)
  | uuid (u : Uuid)
  | list (items : List Value)
  | map (entries : List (String × Value))

namespace Value

instance : Inhabited Value := ⟨.null⟩

/-- Nothing was given: null, false, zero, or an empty text, list or map. -/
def isFalsy : Value → Bool
  | .null => true
  | .bool b => !b
  | .int n => n == 0
  | .float x => x.isZero
  | .decimal (.finite _ c _) => c == 0
  | .text s => s.isEmpty
  | .list items => items.isEmpty
  | .map entries => entries.isEmpty
  | _ => false

def isNull : Value → Bool
  | .null => true
  | _ => false

def ofTexts (texts : List String) : Value :=
  .list (texts.map .text)

def ofOption (f : α → Value) : Option α → Value
  | none => .null
  | some a => f a

end Value
end RecordApi
