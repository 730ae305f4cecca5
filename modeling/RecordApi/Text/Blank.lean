import RecordApi.Text.Ranges

/-!
# Blank characters and trimming

A character is blank when Unicode counts it as white space, or when it is one of
the four information separators `U+001C` to `U+001F`.  Trimming removes blanks at
both ends of a text.
-/

namespace RecordApi
namespace Text

def blankRanges : Ranges :=
  [(0x9, 0xd), (0x1c, 0x20), (0x85, 0x85), (0xa0, 0xa0), (0x1680, 0x1680), (0x2000, 0x200a),
    (0x2028, 0x2029), (0x202f, 0x202f), (0x205f, 0x205f), (0x3000, 0x3000)]

def isBlank (c : Char) : Bool :=
  blankRanges.has c

/-- The characters of a text without the blanks at its two ends. -/
def trimChars (cs : List Char) : List Char :=
  ((cs.dropWhile isBlank).reverse.dropWhile isBlank).reverse

/-- The pieces of a text between occurrences of a separator; one more than there
are separators. -/
def piecesOf (separator : Char) : List Char → List (List Char)
  | [] => [[]]
  | c :: rest =>
      if c = separator then [] :: piecesOf separator rest
      else
        match piecesOf separator rest with
        | [] => [[c]]
        | piece :: pieces => (c :: piece) :: pieces

/-- The trimmed, non-empty pieces of a comma-separated text. -/
def commaList (s : String) : List String :=
  ((piecesOf ',' s.toList).map trimChars).filterMap fun piece =>
    if piece.isEmpty then none else some (String.ofList piece)

end Text
end RecordApi
