import RecordApi.Number.Power
import RecordApi.Text.Digit

/-!
# Decimal numerals

The common shape of written numbers: a sign, digits with an optional point, and an
optional power of ten.  The readers here take the shape apart; what a numeral means
(an exact decimal, a rounded binary number) is up to the caller.
-/

namespace RecordApi

/-- The number `± coefficient · 10 ^ exponent`, as it was written. -/
structure Numeral where
  negative : Bool
  coefficient : Nat
  exponent : Int
deriving DecidableEq, Repr

namespace Numeral

/-- The value of a text of ASCII digits, most significant first. -/
def natOfAscii (digits : List Char) : Nat :=
  digits.foldl (fun n c => 10 * n + (c.toNat - '0'.toNat)) 0

/-- A leading sign, and what follows it. -/
def splitSign : List Char → Bool × List Char
  | '-' :: rest => (true, rest)
  | '+' :: rest => (false, rest)
  | rest => (false, rest)

/-- The power of ten at the end of a numeral; an absent one is zero. -/
def exponentPart? : List Char → Option Int
  | [] => some 0
  | c :: rest =>
      if c = 'e' ∨ c = 'E' then
        let (negative, digits) := splitSign rest
        if digits.isEmpty || !digits.all Char.isDigit then none
        else
          let n : Int := natOfAscii digits
          some (if negative then -n else n)
      else none

/-- Reads an unsigned numeral: digits, with at most one point among them and at least
one digit beside it, then an optional power of ten. -/
def unsigned? (negative : Bool) (cs : List Char) : Option Numeral :=
  let whole := cs.takeWhile Char.isDigit
  let rest := cs.dropWhile Char.isDigit
  let (fraction, rest) :=
    match rest with
    | '.' :: tail => (tail.takeWhile Char.isDigit, tail.dropWhile Char.isDigit)
    | _ => ([], rest)
  if whole.isEmpty && fraction.isEmpty then none
  else
    (exponentPart? rest).map fun power =>
      ⟨negative, natOfAscii (whole ++ fraction), power - fraction.length⟩

def ofChars? (cs : List Char) : Option Numeral :=
  let (negative, rest) := splitSign cs
  unsigned? negative rest

/-- Replaces the decimal digits of any script by ASCII digits. -/
def asciiDigits (cs : List Char) : List Char :=
  cs.map fun c => ((Text.digitValue? c).map Nat.digitChar).getD c

/-- Removes underscores that stand between two digits; any other underscore is refused. -/
def ungroup? : List Char → Option (List Char)
  | [] => some []
  | '_' :: _ => none
  | c :: '_' :: d :: rest =>
      if c.isDigit && d.isDigit then (ungroup? (d :: rest)).map (c :: ·) else none
  | c :: rest => (ungroup? rest).map (c :: ·)

/-- The number of decimal digits of a number, none for zero. -/
def digitCount (n : Nat) : Nat :=
  if n = 0 then 0 else (Nat.toDigits 10 n).length

end Numeral
end RecordApi
