import RecordApi.Number.Binary64

/-!
# Shortest decimal digits of a binary number

A positive finite number is written with the fewest digits that read back as the
same number.  For one digit, two digits, and so on up to seventeen, the two
neighbours of the number on that decimal grid are tested against the interval of
reals that round to it; the first grid with a hit wins, and of two hits the nearer
one.  An exact tie goes to the even coefficient.
-/

namespace RecordApi
namespace Binary64

/-- The number `coefficient · 10 ^ exponent`. -/
structure Digits where
  coefficient : Nat
  exponent : Int
deriving DecidableEq, Repr

/-- Steps a guess up to the exponent of ten with `10 ^ p ≤ n / d < 10 ^ (p + 1)`. -/
def raiseMagnitude (n d : Nat) : Nat → Int → Int
  | 0, p => p
  | fuel + 1, p =>
      let next := p + 1
      if d * tenTo next.toNat ≤ n * tenTo (-next).toNat then raiseMagnitude n d fuel next else p

/-- The exponent of ten of the leading digit of `n / d`. -/
def magnitude (n d : Nat) : Int :=
  let binary : Int := n.log2 - d.log2
  raiseMagnitude n d 5 ((binary * 30103).fdiv 100000 - 2)

/-- The grid point of step `10 ^ exponent` that stands for the number of a rank, if one
of the number's two neighbours on the grid reads back as the number. -/
def gridPoint? (rank : Nat) (exponent : Int) : Option Nat :=
  let scale := tenTo exponent.toNat <<< 1075
  let factor := tenTo (-exponent).toNat
  let value := 2 * units rank * factor
  let low := (units rank + units (rank - 1)) * factor
  let high := (units rank + units (rank + 1)) * factor
  let inside (c : Nat) : Bool :=
    if rank % 2 = 0 then low ≤ c * scale && c * scale ≤ high
    else low < c * scale && c * scale < high
  let below := value / scale
  let above := below + 1
  match inside below, inside above with
  | false, false => none
  | true, false => some below
  | false, true => some above
  | true, true =>
      let left := value - below * scale
      let right := above * scale - value
      if left < right || (left == right && below % 2 == 0) then some below else some above

/-- Removes trailing zeros from a coefficient. -/
def stripZeros : Nat → Nat → Int → Digits
  | 0, c, e => ⟨c, e⟩
  | fuel + 1, c, e => if c % 10 = 0 ∧ c ≠ 0 then stripZeros fuel (c / 10) (e + 1) else ⟨c, e⟩

/-- Tries grids of more and more digits. -/
def searchDigits (rank : Nat) (leading : Int) : Nat → Nat → Digits
  | 0, _ => ⟨0, 0⟩
  | fuel + 1, count =>
      let exponent := leading - count + 1
      match gridPoint? rank exponent with
      | some c => stripZeros 20 c exponent
      | none => searchDigits rank leading fuel (count + 1)

def shortest (rank : Nat) : Digits :=
  if rank = 0 then ⟨0, 0⟩
  else searchDigits rank (magnitude (units rank) unitsPerOne) 17 1

/-- A decimal number is written positionally when its point falls at most sixteen digits
to the right of the first digit and fewer than four zeros before it; otherwise with a
power of ten of at least two digits.  The text always shows that it is no integer
numeral: by a point or by the power. -/
def Digits.text (digits : Digits) : String :=
  let ds := (Nat.toDigits 10 digits.coefficient)
  let point : Int := ds.length + digits.exponent
  if -4 < point ∧ point ≤ 16 then
    if point ≤ 0 then
      String.ofList ("0.".toList ++ List.replicate (-point).toNat '0' ++ ds)
    else if ds.length ≤ point.toNat then
      String.ofList (ds ++ List.replicate (point.toNat - ds.length) '0' ++ ".0".toList)
    else
      String.ofList (ds.take point.toNat ++ '.' :: ds.drop point.toNat)
  else
    let power := point - 1
    let powerDigits := Nat.toDigits 10 power.natAbs
    let padded := if powerDigits.length < 2 then '0' :: powerDigits else powerDigits
    let mantissa :=
      match ds with
      | [] => []
      | [d] => [d]
      | d :: rest => d :: '.' :: rest
    String.ofList (mantissa ++ 'e' :: (if power < 0 then '-' else '+') :: padded)

/-- The text of a number: the shortest digits that read back. -/
def text : Binary64 → String
  | .nan => "nan"
  | .infinite false => "inf"
  | .infinite true => "-inf"
  | .finite negative rank =>
      let magnitude := if rank.val = 0 then "0.0" else (shortest rank).text
      if negative then "-" ++ magnitude else magnitude

/-- The coefficient of a finite magnitude written with a fixed number of decimal places,
a half going to the even digit. -/
def fixedCoefficient (places rank : Nat) : Nat :=
  let scaled := units rank * tenTo places
  let whole := scaled >>> 1074
  let excess := 2 * (scaled - whole <<< 1074)
  let gap := unitsPerOne
  if gap < excess || (excess == gap && whole % 2 == 1) then whole + 1 else whole

end Binary64
end RecordApi
