import RecordApi.Text.Blank
import RecordApi.Text.Width

/-!
# Fitting text to the console

Lines break between words.  A word wider than a whole line is cut into pieces, or is left
to be shortened with an ellipsis.  All widths count columns of the console.
-/

namespace RecordApi
namespace Console

/-- What becomes of text that is wider than its line. -/
inductive Overflow where
  /-- It goes on in the next line. -/
  | fold
  /-- It is shortened. -/
  | ellipsis
deriving DecidableEq, Repr

def blanks (n : Nat) : List Char := List.replicate n ' '

/-- Replaces each tab by the blanks up to the next multiple of eight columns. -/
def expandTabs : Nat → List Char → List Char
  | _, [] => []
  | column, c :: rest =>
      if c = '\t' then
        let n := 8 - column % 8
        blanks n ++ expandTabs (column + n) rest
      else c :: expandTabs (column + Text.columns c) rest

/-- The longest start of a text that takes no more than `n` columns. -/
def takeColumns : Nat → List Char → List Char
  | _, [] => []
  | n, c :: rest => if Text.columns c ≤ n then c :: takeColumns (n - Text.columns c) rest else []

/-- A text cut or filled up to exactly `n` columns. -/
def fit (n : Nat) (cs : List Char) : List Char :=
  let kept := takeColumns n cs
  kept ++ blanks (n - Text.width kept)

/-- A text cut to at most `n` columns. -/
def shorten (overflow : Overflow) (n : Nat) (cs : List Char) : List Char :=
  if Text.width cs ≤ n then cs
  else
    match overflow with
    | .fold => fit n cs
    | .ellipsis => fit (n - 1) cs ++ ['…']

/-- The words of a line, each with the blanks behind it and the first also with those
before it; none if there are only blanks. -/
def words (cs : List Char) : List (List Char) :=
  match cs.splitBy fun a b => !(Text.isBlank a && !Text.isBlank b) with
  | first :: second :: rest =>
      if first.all Text.isBlank then (first ++ second) :: rest else first :: second :: rest
  | [word] => if word.all Text.isBlank then [] else [word]
  | [] => []

/-- Cuts a word into pieces of at most `n` columns, of which `room` are left for the
first one. -/
def chop (n : Nat) : Nat → List Char → List (List Char)
  | _, [] => [[]]
  | room, c :: rest =>
      let fits := decide (Text.columns c ≤ room)
      match chop n (if fits then room - Text.columns c else n - Text.columns c) rest with
      | piece :: pieces => if fits then (c :: piece) :: pieces else [] :: (c :: piece) :: pieces
      | [] => [[c]]

/-- The word without the blanks behind it. -/
def bare (word : List Char) : List Char :=
  (word.reverse.dropWhile Text.isBlank).reverse

/-- Puts words into lines; `line` is the line so far, which takes `used` columns. -/
def fillLines (overflow : Overflow) (n : Nat) :
    List Char → Nat → List (List Char) → List (List Char)
  | line, _, [] => [line]
  | line, used, word :: rest =>
      let needed := Text.width (bare word)
      let startsLine (piece : List Char) : List (List Char) :=
        (if line.isEmpty then [] else [line]) ++ fillLines overflow n piece (Text.width piece) rest
      if needed + used ≤ n then
        fillLines overflow n (line ++ word) (used + Text.width word) rest
      else if n < needed && overflow == .fold then
        let pieces := chop n n word
        let last := pieces.getLastD []
        (if line.isEmpty then [] else [line]) ++ pieces.dropLast ++
          fillLines overflow n last (Text.width last) rest
      else startsLine word

/-- Breaks a line between its words. -/
def breakLine (overflow : Overflow) (n : Nat) (cs : List Char) : List (List Char) :=
  match words cs with
  | [] => [cs]
  | words => fillLines overflow n [] 0 words

/-- Drops blanks at the end of a line as far as they exceed `n` characters. -/
def trimExcess (n : Nat) (cs : List Char) : List Char :=
  let trailing := (cs.reverse.takeWhile Text.isBlank).length
  cs.take (cs.length - min trailing (cs.length - n))

def wrap (overflow : Overflow) (n : Nat) (cs : List Char) : List (List Char) :=
  (Text.piecesOf '\n' cs).flatMap fun line =>
    (breakLine overflow n (expandTabs 0 line)).map fun line =>
      shorten overflow n (trimExcess n line)

/-- The lines of a text, each cut instead of broken. -/
def cutLines (overflow : Overflow) (n : Nat) (cs : List Char) : List (List Char) :=
  (Text.piecesOf '\n' cs).map fun line =>
    shorten overflow n (trimExcess n (expandTabs 0 line))

/-- Centers a text among copies of a character. -/
def centered (filler : Char) (n : Nat) (cs : List Char) : List Char :=
  let excess := n - Text.width cs
  List.replicate (excess / 2) filler ++ cs ++ List.replicate (excess - excess / 2) filler

/-- A line as it is printed, without blanks at its end. -/
def printed (line : List Char) : String :=
  String.ofList (bare line)

end Console
end RecordApi
