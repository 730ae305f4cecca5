/-!
# Keys of query parameters

A key is a root and, in bracket notation, further segments: `a[b][]` has the segments
`a`, `b` and the empty one.  A key that is not well formed is one segment as a whole.
A single line break after the last bracket is ignored.
-/

namespace RecordApi
namespace Key

def isBracket (c : Char) : Bool :=
  c == '[' || c == ']'

/-- The content of brackets at the start of a text, and what follows them. -/
def bracketed? : List Char → Option (List Char × List Char)
  | '[' :: rest =>
      match rest.dropWhile (!isBracket ·) with
      | ']' :: after => some (rest.takeWhile (!isBracket ·), after)
      | _ => none
  | _ => none

/-- Reads one or more bracketed segments up to the end.  The fuel bounds their number. -/
def segments? : Nat → List Char → Option (List (List Char))
  | 0, _ => none
  | fuel + 1, cs =>
      match bracketed? cs with
      | none => none
      | some (segment, []) => some [segment]
      | some (segment, ['\n']) => some [segment]
      | some (segment, after) => (segments? fuel after).map (segment :: ·)

/-- The segments of a key. -/
def splitChars (cs : List Char) : List (List Char) :=
  let root := cs.takeWhile (!isBracket ·)
  if root.isEmpty then [cs]
  else
    match segments? cs.length (cs.dropWhile (!isBracket ·)) with
    | some segments => root :: segments
    | none => [cs]

def split (key : String) : List String :=
  (splitChars key.toList).map String.ofList

/-- Writes segments as a key. -/
def joinChars : List (List Char) → List Char
  | [] => []
  | root :: segments => root ++ segments.flatMap fun segment => '[' :: segment ++ [']']

def join (segments : List String) : String :=
  String.ofList (joinChars (segments.map String.toList))

end Key
end RecordApi
