import RecordApi.Number.Shortest

/-!
# Binary numbers to fifteen significant digits

The text that a database gives to a binary number: at most fifteen significant digits,
a half rounded away from zero, and always a point.
-/

namespace RecordApi
namespace Binary64

def significantDigits : Nat := 15

/-- The quotient of two numbers, a half rounded up. -/
def roundHalfUp (numerator denominator : Nat) : Nat :=
  (2 * numerator + denominator) / (2 * denominator)

/-- The digits of a positive magnitude, rounded; the coefficient has as many digits as
are significant. -/
def roundedDigits (rank : Nat) : Digits :=
  let leading := magnitude (units rank) unitsPerOne
  let exponent := leading - (significantDigits - 1 : Nat)
  let coefficient :=
    roundHalfUp (units rank * tenTo (-exponent).toNat) (unitsPerOne * tenTo exponent.toNat)
  if coefficient = tenTo significantDigits then ⟨tenTo (significantDigits - 1), exponent + 1⟩
  else ⟨coefficient, exponent⟩

/-- Digits with a point after the first one, and at least one digit behind it. -/
def scientificMantissa : List Char → List Char
  | [] => []
  | [d] => d :: '.' :: ['0']
  | d :: rest => d :: '.' :: rest

/-- Positional digits, with at least one digit behind the point. -/
def positional (ds : List Char) (point : Int) : List Char :=
  if point ≤ 0 then "0.".toList ++ List.replicate (-point).toNat '0' ++ ds
  else if ds.length ≤ point.toNat then
    ds ++ List.replicate (point.toNat - ds.length) '0' ++ ".0".toList
  else ds.take point.toNat ++ '.' :: ds.drop point.toNat

def significantChars (rank : Nat) : List Char :=
  if rank = 0 then "0.0".toList
  else
    let rounded := roundedDigits rank
    let power := rounded.exponent + (significantDigits - 1 : Nat)
    let short := stripZeros significantDigits rounded.coefficient rounded.exponent
    let ds := Nat.toDigits 10 short.coefficient
    if -4 ≤ power ∧ power < significantDigits then positional ds (power + 1)
    else
      let powerDigits := Nat.toDigits 10 power.natAbs
      let padded := if powerDigits.length < 2 then '0' :: powerDigits else powerDigits
      scientificMantissa ds ++ 'e' :: (if power < 0 then '-' else '+') :: padded

/-- The text of a number to fifteen significant digits. -/
def significantText : Binary64 → String
  | .nan => ""
  | .infinite negative => if negative then "-Inf" else "Inf"
  | .finite negative rank =>
      String.ofList (if negative && rank.val ≠ 0 then '-' :: significantChars rank.val
        else significantChars rank.val)

end Binary64
end RecordApi
