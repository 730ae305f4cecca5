import RecordApi.Text.Alphanumeric
import RecordApi.Text.Blank
import RecordApi.Text.Digit

/-!
# Regular expressions

The syntax tree of a regular expression, and how many characters an expression takes.
-/

namespace RecordApi
namespace Pattern

inductive Category where
  | digit
  | blank
  | word
deriving DecidableEq, Repr

inductive SetItem where
  | range (low high : Nat)
  | category (category : Category) (negated : Bool)
deriving DecidableEq, Repr

structure CharSet where
  negated : Bool
  caseless : Bool
  /-- Categories count characters of ASCII only. -/
  ascii : Bool
  items : List SetItem
deriving DecidableEq, Repr

inductive Anchor where
  | textStart
  | lineStart
  | textEnd
  /-- The end, or before a line break at the end. -/
  | lastLineEnd
  | lineEnd
  | wordEdge (negated ascii : Bool)
deriving DecidableEq, Repr

inductive Greed where
  | greedy
  | lazy
  | possessive
deriving DecidableEq, Repr

inductive Node where
  | empty
  | fail
  | char (set : CharSet)
  | anchor (anchor : Anchor)
  | sequence (first second : Node)
  | choice (first second : Node)
  | loop (least : Nat) (most : Option Nat) (greed : Greed) (body : Node)
  | capture (index : Nat) (body : Node)
  | atomic (body : Node)
  /-- The text of a captured group, which takes from `least` to `most` characters. -/
  | reference (index least : Nat) (most : Option Nat) (caseless : Bool)
  | lookahead (negated : Bool) (body : Node)
  | lookbehind (negated : Bool) (width : Nat) (body : Node)
  | ifCaptured (index : Nat) (yes no : Node)
deriving Repr

namespace Category

def has (category : Category) (ascii : Bool) (c : Char) : Bool :=
  let inScope := !ascii || c.toNat < 0x80
  inScope &&
    match category with
    | .digit => (Text.digitValue? c).isSome
    | .blank => Text.isBlank c && !(ascii && 0x1c ≤ c.toNat && c.toNat ≤ 0x1f)
    | .word => Text.isWordChar c

end Category

namespace CharSet

def hasExactly (set : CharSet) (c : Char) : Bool :=
  set.items.any fun item =>
    match item with
    | .range low high => low ≤ c.toNat && c.toNat ≤ high
    | .category category negated => category.has set.ascii c != negated

/-- Without case, a letter of ASCII is in a set with its other form. -/
def has (set : CharSet) (c : Char) : Bool :=
  let found :=
    set.hasExactly c ||
      (set.caseless && (set.hasExactly c.toLower || set.hasExactly c.toUpper))
  found != set.negated

end CharSet

namespace Node

/-- The least and the greatest number of characters that an expression takes; no
greatest number means that there is no bound. -/
def width : Node → Nat × Option Nat
  | .empty | .fail | .anchor _ | .lookahead _ _ | .lookbehind _ _ _ => (0, some 0)
  | .char _ => (1, some 1)
  | .sequence a b =>
      let (la, ma) := width a
      let (lb, mb) := width b
      (la + lb, ma.bind fun x => mb.map (x + ·))
  | .choice a b | .ifCaptured _ a b =>
      let (la, ma) := width a
      let (lb, mb) := width b
      (min la lb, ma.bind fun x => mb.map (max x))
  | .loop least most _ body =>
      let (l, m) := width body
      let bound :=
        match m, most with
        | some 0, _ => some 0
        | some x, some n => some (x * n)
        | _, some 0 => some 0
        | _, _ => none
      (l * least, bound)
  | .capture _ body | .atomic body => width body
  | .reference _ least most _ => (least, most)

/-- A bound on the steps that an expression takes between two characters. -/
def size : Node → Nat
  | .empty | .fail | .char _ | .anchor _ | .reference _ _ _ _ => 1
  | .sequence a b | .choice a b | .ifCaptured _ a b => size a + size b + 1
  | .loop least _ _ body => (size body + 1) * (least + 2) + 1
  | .capture _ body | .atomic body | .lookahead _ body | .lookbehind _ _ body => size body + 1

end Node
end Pattern
end RecordApi
