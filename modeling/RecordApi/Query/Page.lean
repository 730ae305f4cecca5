import RecordApi.Value.Text

/-!
# Pages

A page parameter is read as a binary number of any spelling and rounded down; what is
no number, not finite or below one gives the default.  The number of pages is the
ceiling of a rounded quotient.
-/

namespace RecordApi

structure Page where
  number : Int
  size : Int
  limit : Int
  offset : Int
deriving DecidableEq, Repr

namespace Page

/-- The number that a parameter names, if it is usable. -/
def parameter? : Value → Option Int
  | .null => none
  | .bool _ => none
  | v =>
      match (Binary64.ofChars? v.trimmedChars).bind Binary64.floor? with
      | some n => if 1 ≤ n then some n else none
      | none => none

def compute (number size : Value) (defaultNumber defaultSize : Int) : Page :=
  let n := (parameter? number).getD defaultNumber
  let s := (parameter? size).getD defaultSize
  ⟨n, s, s, (n - 1) * s⟩

inductive CountError where
  | divisionByZero
  | overflow
deriving DecidableEq, Repr

/-- The number of pages: the quotient is rounded to the nearest binary number before it
is rounded up. -/
def count (total size : Int) : Except CountError Int :=
  if size = 0 then .error .divisionByZero
  else
    let negative := decide ((total < 0) ≠ (size < 0))
    match Binary64.ofRatio negative total.natAbs size.natAbs with
    | .finite negative rank => .ok (-((-(Binary64.signedUnits negative rank)).fdiv Binary64.unitsPerOne))
    | _ => .error .overflow

end Page
end RecordApi
