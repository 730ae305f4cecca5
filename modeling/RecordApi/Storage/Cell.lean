import RecordApi.Number.Significant
import RecordApi.Storage.Clause

/-!
# Cells

What a table stores: nothing, an integer, a binary number or a text.  A column prefers
one kind of cell, its affinity, which changes what is put into it and what it is
compared with.  Comparison with nothing is unknown; otherwise numbers come before texts,
numbers are compared exactly and texts by their characters.
-/

namespace RecordApi

inductive Cell where
  | null
  | int (n : Int)
  | real (x : Binary64)
  | text (s : String)
deriving DecidableEq, Repr

/-- The kind of cell that a column prefers. -/
inductive Affinity where
  | numeric
  | real
  | text
  /-- No kind: every cell is kept, and compared, as it is. -/
  | free
deriving DecidableEq, Repr

/-- Dates and timestamps are texts that no number looks like, in columns of numbers. -/
def ColumnType.affinity : ColumnType → Affinity
  | .float => .real
  | .varchar _ | .uuid | .enumeration _ => .text
  | .blob | .untyped => .free
  | .integer | .boolean | .date | .numeric _ _ | .timestamp => .numeric

namespace Cell

def isNull : Cell → Bool
  | .null => true
  | _ => false

/-- A binary number as an integer cell, where that loses nothing. -/
def integral (x : Binary64) : Cell :=
  match x.toInt? with
  | some n => if -wordLimit < n ∧ n < wordLimit - 1 then .int n else .real x
  | none => .real x

def isAsciiBlank (c : Char) : Bool :=
  c == ' ' || ('\t' ≤ c && c ≤ '\r')

/-- The number that a text writes, if it is one as a whole. -/
def number? (s : String) : Option Cell :=
  let cs := ((s.toList.dropWhile isAsciiBlank).reverse.dropWhile isAsciiBlank).reverse
  let (negative, digits) := Numeral.splitSign cs
  (Numeral.unsigned? negative digits).map fun numeral =>
    let n : Int := if negative then -(numeral.coefficient : Int) else numeral.coefficient
    if digits.all Char.isDigit && fitsWord n then .int n else .real (Binary64.ofNumeral numeral)

/-- The text of a cell, as patterns see it. -/
def text? : Cell → Option String
  | .null => none
  | .int n => some (toString n)
  | .real x => some x.significantText
  | .text s => some s

/-- A cell as a column stores it. -/
def stored (affinity : Affinity) : Cell → Cell
  | .null => .null
  | .int n =>
      match affinity with
      | .numeric | .free => .int n
      | .real => .real (Binary64.ofInt n)
      | .text => .text (toString n)
  | .real x =>
      match affinity with
      | .numeric => integral x
      | .real | .free => .real x
      | .text => .text x.significantText
  | .text s =>
      match affinity with
      | .text | .free => .text s
      | .numeric =>
          match number? s with
          | some (.real x) => integral x
          | some cell => cell
          | none => .text s
      | .real =>
          match number? s with
          | some (.int n) => .real (Binary64.ofInt n)
          | some cell => cell
          | none => .text s

/-- The order of two cells, unknown when one of them is nothing. -/
def compare? : Cell → Cell → Option Ordering
  | .null, _ => none
  | _, .null => none
  | .int a, .int b => some (Ord.compare a b)
  | .int a, .real y => Binary64.compareInt? a y
  | .real x, .int b => (Binary64.compareInt? b x).map Ordering.swap
  | .real x, .real y => Binary64.compare? x y
  | .text s, .text t => some (Ord.compare s t)
  | .text _, _ => some .gt
  | _, .text _ => some .lt

/-- Nothing, and what is no number, have no place among other cells. -/
def isUnplaced : Cell → Bool
  | .null | .real .nan => true
  | _ => false

/-- The order by which rows are sorted: cells without a place come first. -/
def order (a b : Cell) : Ordering :=
  match a.isUnplaced, b.isUnplaced with
  | true, true => .eq
  | true, false => .lt
  | false, true => .gt
  | false, false => (compare? a b).getD .eq

/-- A cell from outside any column, as a column of an affinity is compared with it. -/
def against (affinity : Affinity) : Cell → Cell
  | .int n =>
      match affinity with
      | .text => .text (toString n)
      | _ => .int n
  | .real x =>
      match affinity with
      | .text => .text x.significantText
      | _ => .real x
  | .text s =>
      match affinity with
      | .text | .free => .text s
      | _ => (number? s).getD (.text s)
  | .null => .null

/-- Two cells of columns, as they are compared: a text is read as a number beside a
column of numbers. -/
def beside (a b : Affinity) (cell : Cell) : Cell :=
  if (a = .text ∨ a = .free) ∧ (b = .numeric ∨ b = .real) then cell.against b else cell

end Cell

namespace Comparison

def accepts : Comparison → Ordering → Bool
  | .eq, o => o == .eq
  | .ne, o => o != .eq
  | .gt, o => o == .gt
  | .gte, o => o != .lt
  | .lt, o => o == .lt
  | .lte, o => o != .gt

/-- The truth of a comparison of two cells. -/
def truth (comparison : Comparison) (a b : Cell) : Truth :=
  match a.compare? b with
  | none => .unknown
  | some o => Truth.ofBool (comparison.accepts o)

end Comparison
end RecordApi
