/-!
# Sets of characters given by ranges of code points

The tables of the Unicode properties in this folder are lists of inclusive
ranges; membership is a single scan.
-/

namespace RecordApi
namespace Text

/-- Inclusive ranges of code points. -/
abbrev Ranges := List (Nat × Nat)

/-- A character lies in one of the ranges. -/
def Ranges.has (ranges : Ranges) (c : Char) : Bool :=
  ranges.any fun range => range.1 ≤ c.toNat && c.toNat ≤ range.2

end Text
end RecordApi
