import RecordApi.Number.Numeral

/-!
# Binary floating-point numbers of 64 bits

The finite magnitudes are numbered in increasing order: rank 0 is zero, rank 1 the
least positive magnitude `2 ^ -1074`, and so on through the subnormal and normal
numbers.  `units` turns a rank into the multiple of `2 ^ -1074` that it stands for,
and `roundUnits` finds the nearest rank of a ratio, a half going to the even rank.
All arithmetic is exact.
-/

namespace RecordApi

/-- The number of finite magnitudes. -/
def rankLimit : Nat := 0x7ff0000000000000

inductive Binary64 where
  | nan
  | infinite (negative : Bool)
  | finite (negative : Bool) (rank : Fin rankLimit)
deriving DecidableEq, Repr

namespace Binary64

/-- The number of ranks between a power of two and the next. -/
def binade : Nat := 0x10000000000000

/-- The number one as a multiple of `2 ^ -1074`. -/
def unitsPerOne : Nat := 1 <<< 1074

/-- The magnitude with a given rank, as a multiple of `2 ^ -1074`. -/
def units (rank : Nat) : Nat :=
  if rank < binade then rank
  else (binade + rank % binade) <<< (rank / binade - 1)

/-- The rank nearest to `numerator / denominator` units; of two nearest ones the even. -/
def roundUnits (numerator denominator : Nat) : Nat :=
  let whole := numerator / denominator
  let shift := whole.log2 - 52
  let below := (whole >>> shift) + shift * binade
  let excess := 2 * (numerator - units below * denominator)
  let gap := denominator <<< shift
  if gap < excess || (excess == gap && below % 2 == 1) then below + 1 else below

/-- The number with a given rank; ranks beyond the finite ones are infinite. -/
def ofRank (negative : Bool) (rank : Nat) : Binary64 :=
  if h : rank < rankLimit then .finite negative ⟨rank, h⟩ else .infinite negative

/-- The nearest number to `± numerator / denominator`. -/
def ofRatio (negative : Bool) (numerator denominator : Nat) : Binary64 :=
  ofRank negative (roundUnits (numerator <<< 1074) denominator)

def zero (negative : Bool) : Binary64 :=
  .finite negative ⟨0, by decide⟩

def ofInt (n : Int) : Binary64 :=
  ofRatio (n < 0) n.natAbs 1

/-- The nearest number to a decimal numeral.  Numerals far outside the range are
decided by their number of digits alone. -/
def ofNumeral (numeral : Numeral) : Binary64 :=
  let digits : Int := Numeral.digitCount numeral.coefficient
  if numeral.coefficient = 0 then zero numeral.negative
  else if 310 < digits + numeral.exponent then .infinite numeral.negative
  else if digits + numeral.exponent < -330 then zero numeral.negative
  else if 0 ≤ numeral.exponent then
    ofRatio numeral.negative (numeral.coefficient * tenTo numeral.exponent.toNat) 1
  else
    ofRatio numeral.negative numeral.coefficient (tenTo (-numeral.exponent).toNat)

/-- The value of a finite number as a multiple of `2 ^ -1074`. -/
def signedUnits (negative : Bool) (rank : Nat) : Int :=
  if negative then -(units rank : Int) else units rank

/-- The greatest integer that is not above a finite number. -/
def floor? : Binary64 → Option Int
  | .finite negative rank => some ((signedUnits negative rank).fdiv unitsPerOne)
  | _ => none

/-- The integer that a number equals, if it does. -/
def toInt? : Binary64 → Option Int
  | .finite negative rank =>
      let n := signedUnits negative rank
      if n % unitsPerOne = 0 then some (n / unitsPerOne) else none
  | _ => none

def isFinite : Binary64 → Bool
  | .finite _ _ => true
  | _ => false

def isZero : Binary64 → Bool
  | .finite _ rank => rank.val = 0
  | _ => false

/-- The order of two numbers; a NaN has none. -/
def compare? : Binary64 → Binary64 → Option Ordering
  | .nan, _ => none
  | _, .nan => none
  | .infinite a, .infinite b => some (Ord.compare (!a) (!b))
  | .infinite a, .finite _ _ => some (if a then .lt else .gt)
  | .finite _ _, .infinite b => some (if b then .gt else .lt)
  | .finite a r, .finite b s => some (Ord.compare (signedUnits a r) (signedUnits b s))

/-- The order of an integer and a number, without rounding the integer. -/
def compareInt? (n : Int) : Binary64 → Option Ordering
  | .nan => none
  | .infinite negative => some (if negative then .gt else .lt)
  | .finite negative rank => some (Ord.compare (n * unitsPerOne) (signedUnits negative rank))

/-- Reads the words and numerals of floating-point text: `nan`, `inf` and `infinity` in
any letter case, and numerals in the digits of any script, with underscores between
digits. -/
def ofChars? (cs : List Char) : Option Binary64 :=
  let (negative, rest) := Numeral.splitSign (Numeral.asciiDigits cs)
  match String.ofList (rest.map Char.toLower) with
  | "nan" => some .nan
  | "inf" => some (.infinite negative)
  | "infinity" => some (.infinite negative)
  | _ => ((Numeral.ungroup? rest).bind (Numeral.unsigned? negative)).map ofNumeral

end Binary64
end RecordApi
