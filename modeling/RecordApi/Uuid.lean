import RecordApi.Text.Blank
import RecordApi.Text.Quoted
import RecordApi.Number.Numeral

/-!
# Universally unique identifiers

An identifier is a number of 128 bits.  It is read from 32 hexadecimal digits, around
which the `urn:` and `uuid:` labels, braces and hyphens are ignored.
-/

namespace RecordApi

structure Uuid where
  number : Fin 0x100000000000000000000000000000000
deriving DecidableEq

namespace Uuid

/-- Removes every occurrence of a word, from left to right. -/
def removeWord (word cs : List Char) : List Char :=
  match cs with
  | [] => []
  | c :: rest =>
      if word.isPrefixOf (c :: rest) then removeWord word (rest.drop (word.length - 1))
      else c :: removeWord word rest
termination_by cs.length
decreasing_by all_goals (simp only [List.length_drop, List.length_cons]; omega)

def stripBraces (cs : List Char) : List Char :=
  let brace (c : Char) : Bool := c == '\x7b' || c == '\x7d'
  ((cs.dropWhile brace).reverse.dropWhile brace).reverse

def hexValue? (c : Char) : Option Nat :=
  if c.isDigit then some (c.toNat - '0'.toNat)
  else if 'a' ≤ c ∧ c ≤ 'f' then some (c.toNat - 'a'.toNat + 10)
  else if 'A' ≤ c ∧ c ≤ 'F' then some (c.toNat - 'A'.toNat + 10)
  else none

/-- Hexadecimal digits, with single underscores allowed between two of them. -/
def hexDigits? (total : Nat) : List Char → Option Nat
  | [] => none
  | [c] => (hexValue? c).map (16 * total + ·)
  | c :: '_' :: rest => (hexValue? c).bind fun d => hexDigits? (16 * total + d) rest
  | c :: rest => (hexValue? c).bind fun d => hexDigits? (16 * total + d) rest

/-- Blanks around a number: those of ASCII but for the information separators, and all
others. -/
def isNumberBlank (c : Char) : Bool :=
  Text.isBlank c && !(0x1c ≤ c.toNat && c.toNat ≤ 0x1f)

/-- A hexadecimal number with an optional sign and an optional `0x` mark. -/
def hexNumber? (cs : List Char) : Option Int :=
  let cs := ((cs.dropWhile isNumberBlank).reverse.dropWhile isNumberBlank).reverse
  let (negative, rest) := Numeral.splitSign (Numeral.asciiDigits cs)
  let digits :=
    match rest with
    | '0' :: x :: '_' :: tail => if x = 'x' ∨ x = 'X' then tail else rest
    | '0' :: x :: tail => if x = 'x' ∨ x = 'X' then tail else rest
    | _ => rest
  (hexDigits? 0 digits).map fun n => if negative then -(n : Int) else n

def ofChars? (cs : List Char) : Option Uuid :=
  let cs := removeWord "uuid:".toList (removeWord "urn:".toList cs)
  let cs := (stripBraces cs).filter (· ≠ '-')
  if cs.length = 32 then
    (hexNumber? cs).bind fun n =>
      if h : 0 ≤ n ∧ n < 0x100000000000000000000000000000000 then some ⟨⟨n.toNat, by omega⟩⟩ else none
  else none

def digits (u : Uuid) : List Char :=
  Text.hexDigits 32 u.number.val

def compactText (u : Uuid) : String :=
  String.ofList u.digits

/-- The digits in groups of 8, 4, 4, 4 and 12. -/
def text (u : Uuid) : String :=
  let ds := u.digits
  String.ofList (ds.take 8 ++ '-' :: (ds.drop 8).take 4 ++ '-' :: (ds.drop 12).take 4 ++
    '-' :: (ds.drop 16).take 4 ++ '-' :: ds.drop 20)

end Uuid
end RecordApi
