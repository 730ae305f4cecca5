import RecordApi.Console.Wrap

/-!
# Rules and panels

A rule is a line across the console with a title in its middle.  A panel is a box around
a centered text, with a title in its upper edge.
-/

namespace RecordApi
namespace Console

def titleLine (title : List Char) : List Char :=
  expandTabs 0 (title.map fun c => if c = '\n' then ' ' else c)

/-- A rule on a console of `n` columns.  Too narrow a console shows no title. -/
def rule (n : Nat) (title : List Char) : List Char :=
  let bar (k : Nat) : List Char := List.replicate k '─'
  if n ≤ 4 then bar n
  else
    let title := shorten .ellipsis (n - 4) (titleLine title)
    let side := (n - Text.width title) / 2
    let left := bar (side - 1)
    let right := bar (min (side + 1) (n - left.length - Text.width title))
    fit n (left ++ ' ' :: title ++ ' ' :: right)

def panel (n : Nat) (title body : List Char) : List (List Char) :=
  let inside := n - 2
  let bar (k : Nat) : List Char := List.replicate k '─'
  let title := ' ' :: titleLine title ++ [' ']
  let top :=
    if n ≤ 4 then bar inside
    else '─' :: centered '─' (n - 4) (shorten .fold (n - 4) title) ++ ['─']
  let lines := wrap .fold (inside - 4) body
  let width := (lines.map Text.width).foldl max 0
  let side (line : List Char) : List Char := '│' :: line ++ ['│']
  let empty := side (blanks inside)
  let content := lines.map fun line =>
    side (blanks 2 ++ centered ' ' (inside - 4) (fit width line) ++ blanks 2)
  ['╭' :: top ++ ['╮'], empty] ++ content ++ [empty, '╰' :: bar inside ++ ['╯']]

end Console
end RecordApi
