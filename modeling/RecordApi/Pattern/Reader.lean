import RecordApi.Pattern.Syntax

/-!
# Reading regular expressions

`Pattern.read?` reads the text of a regular expression, with groups, sets, counted and
lazy repetition, references, assertions and inline flags.  A text that is no regular
expression gives nothing.
-/

namespace RecordApi
namespace Pattern

structure Flags where
  caseless : Bool := false
  multiline : Bool := false
  dotAll : Bool := false
  verbose : Bool := false
  /-- Categories count characters of ASCII only. -/
  ascii : Bool := false
deriving DecidableEq, Repr

/-- What the reader knows about the groups so far. -/
structure Groups where
  count : Nat := 0
  names : List (String × Nat) := []
  /-- The widths of the closed groups. -/
  closed : List (Nat × Nat × Option Nat) := []
  /-- Groups that a condition refers to; they may come later. -/
  awaited : List Nat := []
  /-- Groups opened inside the current look-behind; they may not be referred to there. -/
  behind : Option Nat := none

structure ReadState where
  flags : Flags
  groups : Groups := {}

/-- Something read, the state behind it, and the remaining text. -/
abbrev Parsed (α : Type) := α × ReadState × List Char

def isOctal (c : Char) : Bool := '0' ≤ c && c ≤ '7'

def isHex (c : Char) : Bool :=
  c.isDigit || ('a' ≤ c && c ≤ 'f') || ('A' ≤ c && c ≤ 'F')

def digitOf (c : Char) : Nat :=
  if c.isDigit then c.toNat - '0'.toNat else (c.toLower.toNat - 'a'.toNat) + 10

def numberOf (base : Nat) (ds : List Char) : Nat :=
  ds.foldl (fun n c => base * n + digitOf c) 0

/-- The first characters of a text that pass a test, at most a given number. -/
def takeUpTo (count : Nat) (test : Char → Bool) (cs : List Char) : List Char :=
  (cs.take count).takeWhile test

def isAsciiLetter (c : Char) : Bool :=
  ('a' ≤ c && c ≤ 'z') || ('A' ≤ c && c ≤ 'Z')

def controlEscape? : Char → Option Nat
  | 'a' => some 0x07
  | 'f' => some 0x0c
  | 'n' => some 0x0a
  | 'r' => some 0x0d
  | 't' => some 0x09
  | 'v' => some 0x0b
  | _ => none

def categoryEscape? : Char → Option (Category × Bool)
  | 'd' => some (.digit, false)
  | 'D' => some (.digit, true)
  | 's' => some (.blank, false)
  | 'S' => some (.blank, true)
  | 'w' => some (.word, false)
  | 'W' => some (.word, true)
  | _ => none

/-- Exactly `count` hexadecimal digits of a character. -/
def hexEscape? (count : Nat) (cs : List Char) : Option (Nat × List Char) :=
  let ds := takeUpTo count isHex cs
  let n := numberOf 16 ds
  if ds.length = count && n < 0x110000 then some (n, cs.drop count) else none

/-- A character written behind a backslash by its number, or by itself. -/
def characterEscape? (c : Char) (rest : List Char) : Option (Nat × List Char) :=
  match controlEscape? c with
  | some n => some (n, rest)
  | none =>
      if c = 'x' then hexEscape? 2 rest
      else if c = 'u' then hexEscape? 4 rest
      else if c = 'U' then hexEscape? 8 rest
      else if isAsciiLetter c || c.isDigit then none
      else some (c.toNat, rest)

def setOf (flags : Flags) (items : List SetItem) : CharSet :=
  ⟨false, flags.caseless, flags.ascii, items⟩

def literal (flags : Flags) (n : Nat) : Node :=
  .char (setOf flags [.range n n])

/-- Any character; all but a line break unless the flags say otherwise. -/
def anyChar (flags : Flags) : Node :=
  if flags.dotAll then .char ⟨true, false, false, []⟩
  else .char ⟨true, false, false, [.range 0x0a 0x0a]⟩

def referenceTo (flags : Flags) (state : ReadState) (index : Nat) : Option Node :=
  match state.groups.closed.find? fun entry => entry.1 == index with
  | some (_, least, most) =>
      if state.groups.behind.any (· < index) then none
      else some (.reference index least most flags.caseless)
  | none => none

/-- Reads what follows a backslash outside a set. -/
def escape? (flags : Flags) (state : ReadState) : List Char → Option (Node × List Char)
  | [] => none
  | c :: rest =>
      match categoryEscape? c with
      | some (category, negated) => some (.char (setOf flags [.category category negated]), rest)
      | none =>
          if c = 'A' then some (.anchor .textStart, rest)
          else if c = 'Z' then some (.anchor .textEnd, rest)
          else if c = 'b' then some (.anchor (.wordEdge false flags.ascii), rest)
          else if c = 'B' then some (.anchor (.wordEdge true flags.ascii), rest)
          else if c = '0' then
            let ds := takeUpTo 2 isOctal rest
            some (literal flags (numberOf 8 ds), rest.drop ds.length)
          else if c.isDigit then
            match rest with
            | d :: e :: after =>
                if isOctal c && isOctal d && isOctal e then
                  let n := numberOf 8 [c, d, e]
                  if n ≤ 0o377 then some (literal flags n, after) else none
                else if d.isDigit then
                  (referenceTo flags state (numberOf 10 [c, d])).map fun node => (node, e :: after)
                else (referenceTo flags state (digitOf c)).map fun node => (node, rest)
            | [d] =>
                if d.isDigit then
                  (referenceTo flags state (numberOf 10 [c, d])).map fun node => (node, [])
                else (referenceTo flags state (digitOf c)).map fun node => (node, rest)
            | [] => (referenceTo flags state (digitOf c)).map fun node => (node, rest)
          else (characterEscape? c rest).map fun (n, rest) => (literal flags n, rest)

/-- Reads what follows a backslash inside a set. -/
def setEscape? : List Char → Option (SetItem × List Char)
  | [] => none
  | c :: rest =>
      match categoryEscape? c with
      | some (category, negated) => some (.category category negated, rest)
      | none =>
          if c = 'b' then some (.range 0x08 0x08, rest)
          else if isOctal c then
            let ds := c :: takeUpTo 2 isOctal rest
            let n := numberOf 8 ds
            if n ≤ 0o377 then some (.range n n, rest.drop (ds.length - 1)) else none
          else (characterEscape? c rest).map fun (n, rest) => (.range n n, rest)

def setMember? : List Char → Option (SetItem × List Char)
  | [] => none
  | '\\' :: rest => setEscape? rest
  | c :: rest => some (.range c.toNat c.toNat, rest)

/-- Reads the members of a set up to its closing bracket; a bracket in the first place
is a member. -/
def setMembers? : Nat → List SetItem → List Char → Option (List SetItem × List Char)
  | 0, _, _ => none
  | fuel + 1, items, cs =>
      match cs, items with
      | ']' :: rest, _ :: _ => some (items, rest)
      | cs, items => do
          let (first, rest) ← setMember? cs
          match rest with
          | '-' :: ']' :: rest => some (items ++ [first, .range 0x2d 0x2d], rest)
          | '-' :: rest =>
              let (last, rest) ← setMember? rest
              match first, last with
              | .range low _, .range _ high =>
                  if low ≤ high then setMembers? fuel (items ++ [.range low high]) rest else none
              | _, _ => none
          | rest => setMembers? fuel (items ++ [first]) rest

def set? (flags : Flags) (cs : List Char) : Option (Node × List Char) :=
  let (negated, cs) :=
    match cs with
    | '^' :: rest => (true, rest)
    | _ => (false, cs)
  (setMembers? (cs.length + 1) [] cs).map fun (items, rest) =>
    (.char { setOf flags items with negated }, rest)

inductive RepeatMark where
  | mark (least : Nat) (most : Option Nat) (rest : List Char)
  | malformed
  /-- A brace that starts no count stands for itself. -/
  | plain

def countLimit : Nat := 4294967295

/-- Reads a count in braces, behind the opening one. -/
def braces (cs : List Char) : RepeatMark :=
  let low := cs.takeWhile Char.isDigit
  let rest := cs.drop low.length
  let (high, rest) :=
    match rest with
    | ',' :: tail =>
        let ds := tail.takeWhile Char.isDigit
        (ds, tail.drop ds.length)
    | _ => (low, rest)
  match cs, rest with
  | '\x7d' :: _, _ => .plain
  | _, '\x7d' :: rest =>
      let least := numberOf 10 low
      let most := if high.isEmpty then none else some (numberOf 10 high)
      if countLimit ≤ least || countLimit ≤ most.getD 0 then .malformed
      else if most.any (· < least) then .malformed
      else .mark least most rest
  | _, _ => .plain

def repeatMark? : List Char → Option RepeatMark
  | '*' :: rest => some (.mark 0 none rest)
  | '+' :: rest => some (.mark 1 none rest)
  | '?' :: rest => some (.mark 0 (some 1) rest)
  | '\x7b' :: rest => some (braces rest)
  | _ => none

/-- What the last part of a sequence allows behind it. -/
inductive Last where
  | nothing
  | single
  | repeated
deriving DecidableEq

def greedOf : List Char → Greed × List Char
  | '?' :: rest => (.lazy, rest)
  | '+' :: rest => (.possessive, rest)
  | rest => (.greedy, rest)

def sequenceOf : List Node → Node
  | [] => .empty
  | [node] => node
  | node :: rest => .sequence node (sequenceOf rest)

def choiceOf : List Node → Node
  | [] => .empty
  | [node] => node
  | node :: rest => .choice node (choiceOf rest)

/-- The text before a closing mark, and what follows the mark. -/
def until? (mark : Char) (cs : List Char) : Option (String × List Char) :=
  match cs.dropWhile (· ≠ mark) with
  | _ :: rest => some (String.ofList (cs.takeWhile (· ≠ mark)), rest)
  | [] => none

def isGroupName (name : String) : Bool :=
  match name.toList with
  | [] => false
  | c :: rest => Text.isWordChar c && (Text.digitValue? c).isNone && rest.all Text.isWordChar

/-- The flag of a letter, set or cleared. -/
def Flags.put (value : Bool) (flags : Flags) : Char → Option Flags
  | 'i' => some { flags with caseless := value }
  | 'm' => some { flags with multiline := value }
  | 's' => some { flags with dotAll := value }
  | 'x' => some { flags with verbose := value }
  | 'a' => if value then some { flags with ascii := true } else none
  | 'u' => if value then some { flags with ascii := false } else none
  | _ => none

def Flags.putAll (value : Bool) (flags : Flags) (letters : List Char) : Option Flags :=
  if letters.contains 'a' && letters.contains 'u' then none
  else letters.foldlM (Flags.put value) flags

/-- Flags behind `(?`: for the rest of the expression, or for a group. -/
inductive FlagGroup where
  | whole (flags : Flags) (rest : List Char)
  | scoped (flags : Flags) (rest : List Char)

def flagGroup? (outer : Flags) (cs : List Char) : Option FlagGroup :=
  let isFlag (c : Char) : Bool := isAsciiLetter c
  let added := cs.takeWhile isFlag
  match cs.drop added.length with
  | ')' :: rest => if added.isEmpty then none else (outer.putAll true added).map (.whole · rest)
  | ':' :: rest => if added.isEmpty then none else (outer.putAll true added).map (.scoped · rest)
  | '-' :: rest =>
      let removed := rest.takeWhile isFlag
      match rest.drop removed.length with
      | ':' :: rest =>
          if removed.isEmpty || removed.any added.contains then none
          else do
            let flags ← outer.putAll true added
            let flags ← flags.putAll false removed
            return .scoped flags rest
      | _ => none
  | _ => none

def ReadState.opened (state : ReadState) (name : Option String) : Option (Nat × ReadState) :=
  let index := state.groups.count + 1
  let groups := { state.groups with count := index }
  match name with
  | none => some (index, { state with groups })
  | some name =>
      if groups.names.any fun entry => entry.1 == name then none
      else some (index, { state with groups := { groups with names := (name, index) :: groups.names } })

def ReadState.closing (state : ReadState) (index : Nat) (node : Node) : ReadState :=
  { state with groups := { state.groups with
      closed := (index, node.width.1, node.width.2) :: state.groups.closed } }

/-- The text behind a verbose comment or blank. -/
def skipVerbose : List Char → List Char
  | [] => []
  | c :: rest =>
      if c = ' ' ∨ ('\t' ≤ c ∧ c ≤ '\r') then skipVerbose rest
      else if c = '#' then skipLine rest
      else c :: rest
where
  skipLine : List Char → List Char
    | [] => []
    | c :: rest => if c = '\n' then skipVerbose rest else skipLine rest

mutual

/-- Reads alternatives up to a closing parenthesis or the end. -/
def alternatives? (top : Bool) : Nat → Flags → ReadState → List Char → Option (Parsed Node)
  | 0, _, _, _ => none
  | fuel + 1, flags, state, cs => do
      let (first, state, rest) ← sequence? top fuel flags state .nothing [] cs
      let flags := if top then state.flags else flags
      match rest with
      | '|' :: rest =>
          let (others, state, rest) ← branches? fuel flags state rest
          some (choiceOf (first :: others), state, rest)
      | rest => some (first, state, rest)

/-- Reads the alternatives behind the first one. -/
def branches? : Nat → Flags → ReadState → List Char → Option (Parsed (List Node))
  | 0, _, _, _ => none
  | fuel + 1, flags, state, cs => do
      let (node, state, rest) ← sequence? false fuel flags state .nothing [] cs
      match rest with
      | '|' :: rest =>
          let (others, state, rest) ← branches? fuel flags state rest
          some (node :: others, state, rest)
      | rest => some ([node], state, rest)

/-- Reads the parts of a sequence; `parts` are those read so far, the last one first. -/
def sequence? (top : Bool) : Nat → Flags → ReadState → Last → List Node → List Char → Option (Parsed Node)
  | 0, _, _, _, _, _ => none
  | fuel + 1, flags, state, last, parts, cs =>
      let cs := if flags.verbose then skipVerbose cs else cs
      let done := some (sequenceOf parts.reverse, state, cs)
      let add (node : Node) (rest : List Char) : Option (Parsed Node) :=
        sequence? top fuel flags state .single (node :: parts) rest
      match cs with
      | [] => done
      | c :: rest =>
          if c = '|' ∨ c = ')' then done
          else
            match repeatMark? (c :: rest) with
            | some .malformed => none
            | some (.mark least most rest) =>
                match last, parts with
                | .single, node :: parts =>
                    let (greed, rest) := greedOf rest
                    sequence? top fuel flags state .repeated
                      (.loop least most greed node :: parts) rest
                | _, _ => none
            | some .plain => add (literal flags c.toNat) rest
            | none =>
                if c = '\\' then
                  (escape? flags state rest).bind fun (node, rest) =>
                    match node with
                    | .anchor _ => sequence? top fuel flags state .nothing (node :: parts) rest
                    | _ => add node rest
                else if c = '[' then (set? flags rest).bind fun (node, rest) => add node rest
                else if c = '.' then add (anyChar flags) rest
                else if c = '^' then
                  sequence? top fuel flags state .nothing
                    (.anchor (if flags.multiline then .lineStart else .textStart) :: parts) rest
                else if c = '$' then
                  sequence? top fuel flags state .nothing
                    (.anchor (if flags.multiline then .lineEnd else .lastLineEnd) :: parts) rest
                else if c = '(' then
                  match rest with
                  | '?' :: rest =>
                      extension? top fuel flags state last parts rest
                  | rest => do
                      let (index, state) ← state.opened none
                      let (node, state, rest) ← group? fuel flags state rest
                      sequence? top fuel flags (state.closing index node) .single
                        (.capture index node :: parts) rest
                else add (literal flags c.toNat) rest

/-- Reads alternatives and a closing parenthesis. -/
def group? : Nat → Flags → ReadState → List Char → Option (Parsed Node)
  | 0, _, _, _ => none
  | fuel + 1, flags, state, cs => do
      let (node, state, rest) ← alternatives? false fuel flags state cs
      match rest with
      | ')' :: rest => some (node, state, rest)
      | _ => none

/-- Reads what follows `(?`. -/
def extension? (top : Bool) :
    Nat → Flags → ReadState → Last → List Node → List Char → Option (Parsed Node)
  | 0, _, _, _, _, _ => none
  | fuel + 1, flags, state, last, parts, cs =>
      match cs with
      | 'P' :: '<' :: rest => do
          let (name, rest) ← until? '>' rest
          if !isGroupName name then none
          else
            let (index, state) ← state.opened (some name)
            let (node, state, rest) ← group? fuel flags state rest
            sequence? top fuel flags (state.closing index node) .single
              (.capture index node :: parts) rest
      | 'P' :: '=' :: rest => do
          let (name, rest) ← until? ')' rest
          let (_, index) ← state.groups.names.find? fun entry => entry.1 == name
          let node ← referenceTo flags state index
          sequence? top fuel flags state .single (node :: parts) rest
      | ':' :: rest => do
          let (node, state, rest) ← group? fuel flags state rest
          sequence? top fuel flags state .single (node :: parts) rest
      | '#' :: rest => do
          let (_, rest) ← until? ')' rest
          sequence? top fuel flags state last parts rest
      | '=' :: rest => do
          let (node, state, rest) ← group? fuel flags state rest
          sequence? top fuel flags state .single (.lookahead false node :: parts) rest
      | '!' :: rest => do
          let (node, state, rest) ← group? fuel flags state rest
          sequence? top fuel flags state .single (.lookahead true node :: parts) rest
      | '<' :: c :: rest =>
          if c ≠ '=' ∧ c ≠ '!' then none
          else do
            let outer := state.groups.behind
            let inside := some (outer.getD state.groups.count)
            let (node, state, rest) ←
              group? fuel flags { state with groups := { state.groups with behind := inside } } rest
            let state := { state with groups := { state.groups with behind := outer } }
            if node.width.2 = some node.width.1 then
              sequence? top fuel flags state .single
                (.lookbehind (c == '!') node.width.1 node :: parts) rest
            else none
      | '>' :: rest => do
          let (node, state, rest) ← group? fuel flags state rest
          sequence? top fuel flags state .single (.atomic node :: parts) rest
      | '(' :: rest => do
          let (name, rest) ← until? ')' rest
          let index ←
            if !name.isEmpty && name.toList.all Char.isDigit then some (numberOf 10 name.toList)
            else (state.groups.names.find? fun entry => entry.1 == name).map (·.2)
          if index = 0 then none
          else
            let state := { state with groups := { state.groups with
              awaited := index :: state.groups.awaited } }
            let (yes, state, rest) ← sequence? false fuel flags state .nothing [] rest
            match rest with
            | '|' :: rest =>
                let (no, state, rest) ← sequence? false fuel flags state .nothing [] rest
                match rest with
                | ')' :: rest =>
                    sequence? top fuel flags state .single (.ifCaptured index yes no :: parts) rest
                | _ => none
            | ')' :: rest =>
                sequence? top fuel flags state .single (.ifCaptured index yes .empty :: parts) rest
            | _ => none
      | cs =>
          let outer := flags
          match flagGroup? outer cs with
          | some (.whole flags rest) =>
              if top && parts.isEmpty then
                sequence? top fuel flags { state with flags } last parts rest
              else none
          | some (.scoped flags rest) => do
              let (node, state, rest) ← group? fuel flags state rest
              sequence? top fuel outer state .single (node :: parts) rest
          | none => none

end

def read? (text : List Char) : Option Node := do
  let (node, state, rest) ← alternatives? true (4 * text.length + 8) {} ⟨{}, {}⟩ text
  if rest.isEmpty && state.groups.awaited.all (· ≤ state.groups.count) then some node else none

end Pattern
end RecordApi
