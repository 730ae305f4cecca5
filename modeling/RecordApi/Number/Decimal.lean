import RecordApi.Number.Shortest
import RecordApi.Text.Blank

/-!
# Exact decimal numbers

A decimal keeps its coefficient and exponent as written, so `1.50` and `1.5` are
different decimals of one value.  Reading allows underscores anywhere and the
digits of all scripts; a numeral whose exponent is out of all bounds is refused.
-/

namespace RecordApi

inductive Decimal where
  | finite (negative : Bool) (coefficient : Nat) (exponent : Int)
  | infinite (negative : Bool)
  | nan (negative signals : Bool) (payload : Nat)
deriving DecidableEq, Repr

namespace Decimal

/-- The greatest exponent of a leading digit. -/
def exponentBound : Int := 999999999999999999

/-- A numeral as a decimal, if its exponents are within bounds. -/
def ofNumeral? (numeral : Numeral) : Option Decimal :=
  let leading := numeral.exponent + Numeral.digitCount numeral.coefficient - 1
  let least := -2 * exponentBound + 1
  if numeral.exponent < least then none
  else if numeral.coefficient = 0 then
    if exponentBound < numeral.exponent then none
    else some (.finite numeral.negative 0 numeral.exponent)
  else if exponentBound < leading then none
  else some (.finite numeral.negative numeral.coefficient numeral.exponent)

/-- The payload digits after the word for a NaN. -/
def nanPayload? (digits : List Char) : Option Nat :=
  if digits.all Char.isDigit then some (Numeral.natOfAscii digits) else none

/-- Reads a trimmed text without underscores. -/
def ofPlainChars? (cs : List Char) : Option Decimal :=
  let (negative, rest) := Numeral.splitSign cs
  match rest.map Char.toLower with
  | ['i', 'n', 'f'] => some (.infinite negative)
  | ['i', 'n', 'f', 'i', 'n', 'i', 't', 'y'] => some (.infinite negative)
  | 'n' :: 'a' :: 'n' :: payload => (nanPayload? payload).map (.nan negative false)
  | 's' :: 'n' :: 'a' :: 'n' :: payload => (nanPayload? payload).map (.nan negative true)
  | _ => (Numeral.unsigned? negative rest).bind ofNumeral?

def ofChars? (cs : List Char) : Option Decimal :=
  ofPlainChars? (Numeral.asciiDigits ((Text.trimChars cs).filter (· ≠ '_')))

def ofInt (n : Int) : Decimal :=
  .finite (n < 0) n.natAbs 0

def isFinite : Decimal → Bool
  | .finite _ _ _ => true
  | _ => false

/-- The integer that a finite decimal equals, if it does. -/
def toInt? : Decimal → Option Int
  | .finite negative coefficient exponent =>
      let signed (n : Nat) : Int := if negative then -(n : Int) else n
      if 0 ≤ exponent then some (signed (coefficient * tenTo exponent.toNat))
      else
        let places := (-exponent).toNat
        if coefficient = 0 then some 0
        else if Numeral.digitCount coefficient ≤ places then none
        else if coefficient % tenTo places = 0 then some (signed (coefficient / tenTo places))
        else none
  | _ => none

def toBinary64 : Decimal → Binary64
  | .finite negative coefficient exponent => Binary64.ofNumeral ⟨negative, coefficient, exponent⟩
  | .infinite negative => .infinite negative
  | .nan _ _ _ => .nan

/-- The exact decimal that a text of a binary number writes. -/
def ofBinary64 : Binary64 → Decimal
  | .nan => .nan false false 0
  | .infinite negative => .infinite negative
  | .finite negative rank =>
      if rank.val = 0 then .finite negative 0 (-1)
      else
        let digits := Binary64.shortest rank
        let point : Int := (Nat.toDigits 10 digits.coefficient).length + digits.exponent
        if digits.exponent < 0 ∨ point > 16 then .finite negative digits.coefficient digits.exponent
        else .finite negative (digits.coefficient * tenTo (digits.exponent.toNat + 1)) (-1)

/-- The text of a decimal: positional while the exponent is not positive and the leading
digit is at most six places after the point, otherwise with a power of ten. -/
def text : Decimal → String
  | .infinite false => "Infinity"
  | .infinite true => "-Infinity"
  | .nan negative signals payload =>
      (if negative then "-" else "") ++ (if signals then "sNaN" else "NaN") ++
        (if payload = 0 then "" else toString payload)
  | .finite negative coefficient exponent =>
      let ds := Nat.toDigits 10 coefficient
      let point : Int := ds.length + exponent
      let body :=
        if exponent ≤ 0 ∧ -6 < point then
          if exponent = 0 then ds
          else if point ≤ 0 then "0.".toList ++ List.replicate (-point).toNat '0' ++ ds
          else ds.take point.toNat ++ '.' :: ds.drop point.toNat
        else
          let power := point - 1
          let mantissa :=
            match ds with
            | [] => []
            | [d] => [d]
            | d :: rest => d :: '.' :: rest
          if power = 0 then mantissa
          else mantissa ++ 'E' :: (if power < 0 then '-' else '+') :: Nat.toDigits 10 power.natAbs
      String.ofList (if negative then '-' :: body else body)

end Decimal
end RecordApi
