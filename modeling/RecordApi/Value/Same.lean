import RecordApi.Value.Basic

/-!
# Equal values

Two values are the same when they stand for the same thing, however they are written:
numbers of all kinds, and truth values as zero and one, are compared exactly.
-/

namespace RecordApi

/-- The number `± coefficient · 10 ^ exponent` without trailing zeros; zero has no sign
and no exponent. -/
structure ExactNumber where
  negative : Bool
  coefficient : Nat
  exponent : Int
deriving DecidableEq, Repr

namespace ExactNumber

/-- Moves trailing zeros of a coefficient into the exponent.  The fuel bounds their
number. -/
def stripZeros : Nat → Nat → Int → Nat × Int
  | 0, c, e => (c, e)
  | fuel + 1, c, e => if c % 10 = 0 then stripZeros fuel (c / 10) (e + 1) else (c, e)

def make (negative : Bool) (coefficient : Nat) (exponent : Int) : ExactNumber :=
  if coefficient = 0 then ⟨false, 0, 0⟩
  else
    let (c, e) := stripZeros (Nat.toDigits 10 coefficient).length coefficient exponent
    ⟨negative, c, e⟩

def ofInt (n : Int) : ExactNumber :=
  make (n < 0) n.natAbs 0

/-- A finite binary number in decimal. -/
def ofRank (negative : Bool) (rank : Nat) : ExactNumber :=
  make negative (Binary64.units rank * Nat.pow 5 1074) (-1074)

end ExactNumber

namespace Value

def exactNumber? : Value → Option ExactNumber
  | .bool b => some (ExactNumber.ofInt (if b then 1 else 0))
  | .int n => some (ExactNumber.ofInt n)
  | .float (.finite negative rank) => some (ExactNumber.ofRank negative rank.val)
  | .decimal (.finite negative coefficient exponent) =>
      some (ExactNumber.make negative coefficient exponent)
  | _ => none

/-- Two scalars stand for the same thing. -/
def sameAs (a b : Value) : Bool :=
  match a, b with
  | .null, .null => true
  | .text s, .text t => s == t
  | .date d, .date e => d == e
  | .timestamp t, .timestamp u =>
      match t.offset, u.offset with
      | none, none => t == u
      | some _, some _ => t.instant == u.instant
      | _, _ => false
  | .uuid u, .uuid v => u == v
  | .float (.infinite m), .float (.infinite n) => m == n
  | .decimal (.infinite m), .decimal (.infinite n) => m == n
  | .float (.infinite m), .decimal (.infinite n) => m == n
  | .decimal (.infinite m), .float (.infinite n) => m == n
  | a, b =>
      match a.exactNumber?, b.exactNumber? with
      | some x, some y => x == y
      | _, _ => false

/-- Scalars stand for the same things, one by one. -/
def allSame (as bs : List Value) : Bool :=
  (as.zip bs).all fun (a, b) => a.sameAs b

end Value
end RecordApi
