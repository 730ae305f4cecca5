import RecordApi.Pattern.Syntax

/-!
# Matching regular expressions

`Pattern.search` tells whether an expression matches somewhere in a text.  The matcher
tries the alternatives in order and goes back when the rest of the expression fails.
Its fuel bounds the length of one attempt; an attempt takes at most as many steps
between two characters as the expression has parts.
-/

namespace RecordApi
namespace Pattern

/-- A place in a text, and what the groups have captured so far. -/
structure Place where
  /-- The characters before, the nearest first. -/
  before : List Char
  after : List Char
  captured : List (Nat × List Char)

namespace Place

def position (place : Place) : Nat :=
  place.before.length

def step? (place : Place) : Option (Char × Place) :=
  match place.after with
  | [] => none
  | c :: rest => some (c, { place with before := c :: place.before, after := rest })

def advance : Nat → Place → Place
  | 0, place => place
  | n + 1, place =>
      match place.step? with
      | some (_, place) => advance n place
      | none => place

/-- Goes back over some characters, if there are as many. -/
def retreat? : Nat → Place → Option Place
  | 0, place => some place
  | n + 1, place =>
      match place.before with
      | [] => none
      | c :: rest => retreat? n { place with before := rest, after := c :: place.after }

def captured? (place : Place) (index : Nat) : Option (List Char) :=
  (place.captured.find? fun entry => entry.1 == index).map (·.2)

def capture (index : Nat) (start stop : Place) : Place :=
  let text := start.after.take (stop.position - start.position)
  { stop with captured := (index, text) :: stop.captured.filter fun entry => entry.1 != index }

def isWordEdge (ascii : Bool) (place : Place) : Bool :=
  let word (c : Option Char) : Bool := (c.map (Category.has .word ascii)).getD false
  word place.before.head? != word place.after.head?

end Place

def Anchor.holds (place : Place) : Anchor → Bool
  | .textStart => place.before.isEmpty
  | .lineStart => place.before.isEmpty || place.before.head? == some '\n'
  | .textEnd => place.after.isEmpty
  | .lastLineEnd => place.after.isEmpty || place.after == ['\n']
  | .lineEnd => place.after.isEmpty || place.after.head? == some '\n'
  | .wordEdge negated ascii =>
      !(place.before.isEmpty && place.after.isEmpty) && place.isWordEdge ascii != negated

/-- Two texts are the same; without case, up to the case of letters of ASCII. -/
def sameText (caseless : Bool) (a b : List Char) : Bool :=
  if caseless then a.map Char.toLower == b.map Char.toLower else a == b

/-- Matches an expression at a place and goes on with `next` behind it. -/
def run : Nat → Node → Place → (Place → Option Place) → Option Place
  | 0, _, _, _ => none
  | fuel + 1, node, place, next =>
      match node with
      | .empty => next place
      | .fail => none
      | .char set =>
          match place.step? with
          | some (c, after) => if set.has c then next after else none
          | none => none
      | .anchor anchor => if anchor.holds place then next place else none
      | .sequence first second => run fuel first place fun middle => run fuel second middle next
      | .choice first second => run fuel first place next <|> run fuel second place next
      | .capture index body =>
          run fuel body place fun stop => next (Place.capture index place stop)
      | .atomic body => (run fuel body place some).bind next
      | .reference index _ _ caseless =>
          match place.captured? index with
          | some text =>
              if sameText caseless text (place.after.take text.length) then
                next (place.advance text.length)
              else none
          | none => none
      | .lookahead negated body =>
          match run fuel body place some with
          | some inside => if negated then none else next { place with captured := inside.captured }
          | none => if negated then next place else none
      | .lookbehind negated width body =>
          match (place.retreat? width).bind fun start => run fuel body start some with
          | some inside => if negated then none else next { place with captured := inside.captured }
          | none => if negated then next place else none
      | .ifCaptured index yes no =>
          run fuel (if (place.captured? index).isSome then yes else no) place next
      | .loop (least + 1) most greed body =>
          match greed with
          | .possessive =>
              (run fuel (.loop (least + 1) most .greedy body) place some).bind next
          | _ =>
              run fuel body place fun middle =>
                run fuel (.loop least (most.map (· - 1)) greed body) middle next
      | .loop 0 (some 0) _ _ => next place
      | .loop 0 most greed body =>
          let onward (middle : Place) : Option Place :=
            if middle.position = place.position then next middle
            else run fuel (.loop 0 (most.map (· - 1)) greed body) middle next
          match greed with
          | .greedy => run fuel body place onward <|> next place
          | .lazy => next place <|> run fuel body place onward
          | .possessive => (run fuel (.loop 0 most .greedy body) place some).bind next

/-- An expression matches at the start of a text, or at the start of one of its
suffixes. -/
def searchFrom (fuel : Nat) (node : Node) (before : List Char) : List Char → Bool
  | [] => (run fuel node ⟨before, [], []⟩ some).isSome
  | c :: rest =>
      (run fuel node ⟨before, c :: rest, []⟩ some).isSome ||
        searchFrom fuel node (c :: before) rest

/-- An expression matches somewhere in a text. -/
def search (node : Node) (text : List Char) : Bool :=
  searchFrom ((text.length + 2) * (node.size + 2)) node [] text

end Pattern
end RecordApi
