import RecordApi.Text.Blank

/-!
# Wildcard patterns

In a wildcard pattern `%` stands for any text and `_` for any character; letters of
ASCII match in either case.  In an escaped pattern a character behind the escape mark
stands for itself.  `Wildcard.escape` writes a text as a pattern that stands for it.
-/

namespace RecordApi

inductive Wildcard where
  | anyText
  | anyChar
  | letter (c : Char)
deriving DecidableEq, Repr

namespace Wildcard

/-- The character behind which wildcards stand for themselves. -/
def escapeMark : Char := '/'

def ofChar (c : Char) : Wildcard :=
  if c = '%' then .anyText else if c = '_' then .anyChar else .letter c

/-- The parts of a pattern without escapes. -/
def ofChars (cs : List Char) : List Wildcard :=
  cs.map ofChar

/-- The parts of a pattern with escapes, unless it ends behind an escape mark. -/
def ofEscaped? : List Char → Option (List Wildcard)
  | [] => some []
  | [c] => if c = escapeMark then none else some [ofChar c]
  | c :: d :: rest =>
      if c = escapeMark then (ofEscaped? rest).map (.letter d :: ·)
      else (ofEscaped? (d :: rest)).map (ofChar c :: ·)

/-- A pattern that stands for a text: its wildcards and escape marks are escaped. -/
def escape (text : List Char) : List Char :=
  text.flatMap fun c =>
    if c = escapeMark ∨ c = '%' ∨ c = '_' then [escapeMark, c] else [c]

/-- Two characters are the same up to the case of ASCII letters. -/
def sameLetter (a b : Char) : Bool :=
  a.toLower == b.toLower

def suffixes : List Char → List (List Char)
  | [] => [[]]
  | c :: rest => (c :: rest) :: suffixes rest

/-- A whole text matches a pattern. -/
def isMatch : List Wildcard → List Char → Bool
  | [], text => text.isEmpty
  | .anyText :: parts, text => (suffixes text).any (isMatch parts)
  | .anyChar :: parts, text =>
      match text with
      | [] => false
      | _ :: rest => isMatch parts rest
  | .letter c :: parts, text =>
      match text with
      | [] => false
      | d :: rest => sameLetter c d && isMatch parts rest

/-- A text up to its first NUL character, beyond which patterns do not look. -/
def visible (s : String) : List Char :=
  s.toList.takeWhile (· ≠ '\x00')

end Wildcard
end RecordApi
