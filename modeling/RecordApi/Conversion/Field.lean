import RecordApi.Conversion.Moment
import RecordApi.Conversion.Problem
import RecordApi.Schema.Model

/-!
# Converting given values to fields

A body or a configuration gives values loosely: a number may be written as a text, a truth
value as a word or as 0 or 1.  `Conversion.ofKind` converts a value to the kind of a
column, or tells what is wrong with it.
-/

namespace RecordApi
namespace Conversion

/-- A text without the blanks at its ends; information separators are no blanks here. -/
def trimmed (cs : List Char) : List Char :=
  ((cs.dropWhile Uuid.isNumberBlank).reverse.dropWhile Uuid.isNumberBlank).reverse

/-- Drops underscores, each of which must stand between two other characters. -/
def withoutUnderscores? : List Char → Option (List Char)
  | [] => some []
  | '_' :: _ => none
  | [c] => some [c]
  | c :: '_' :: d :: rest =>
      if d = '_' then none else (withoutUnderscores? (d :: rest)).map (c :: ·)
  | c :: rest => (withoutUnderscores? rest).map (c :: ·)

/-- The greatest number of digits of a written integer. -/
def maxDigits : Nat := 4300

/-- Reads an integer that starts with no needless zero. -/
def plainInteger? (cs : List Char) : Option Int :=
  let (negative, ds) :=
    match cs with
    | '-' :: ds => (true, ds)
    | ds => (false, ds)
  if ds.isEmpty || !ds.all Char.isDigit || (ds.head? == some '0' && 1 < ds.length) then none
  else
    let n : Int := Numeral.natOfAscii ds
    some (if negative then -n else n)

/-- Drops the zeros at the start of a number without a minus sign, with underscores among
them, but not the zero before a point or at the end. -/
def withoutZeros? : List Char → Option (List Char)
  | [] => none
  | '0' :: rest =>
      let isLeading (c : Char) : Bool := c == '0' || c == '_'
      let last := (rest.takeWhile isLeading).getLastD '0'
      match rest.dropWhile isLeading with
      | [] => some [last]
      | c :: tail =>
          if c.isDigit then some (c :: tail)
          else if c = '.' then some (last :: c :: tail) else none
  | c :: rest => if c.isDigit || c = '-' then some (c :: rest) else none

/-- Drops a point that has only zeros behind it. -/
def withoutPlaces (cs : List Char) : List Char :=
  let whole := cs.takeWhile (· ≠ '.')
  if (cs.drop (whole.length + 1)).all (· == '0') then whole else cs

/-- The text of an integer without what may stand around it. -/
def cleaned? (cs : List Char) : Option (List Char) := do
  let cs ←
    match trimmed cs with
    | '+' :: '-' :: _ => none
    | '+' :: cs => some cs
    | cs => some cs
  withoutUnderscores? (withoutPlaces (← withoutZeros? cs))

/-- An integer in a text: a sign, digits, and possibly a point with zeros behind it. -/
def integerOfText (s : String) : Except Problem Int :=
  let cs := s.toList
  if (plainInteger? cs).isSome && maxDigits < (cs.filter Char.isDigit).length then
    .error .integerSize
  else
    match cleaned? cs with
    | some cs =>
        match plainInteger? cs with
        | some n => if maxDigits < cs.length then .error .integerText else .ok n
        | none => .error .integerText
    | none => .error .integerText

/-- A binary number that is whole and takes no more than 64 bits. -/
def integerOfFloat (x : Binary64) : Except Problem Int :=
  if !x.isFinite then .error .notFinite
  else
    match x.toInt? with
    | none => .error .fractional
    | some n => if fitsWord n then .ok n else .error .integerSize

def integer : Value → Except Problem Int
  | .bool b => .ok (if b then 1 else 0)
  | .int n => .ok n
  | .float x => integerOfFloat x
  | .decimal d =>
      if !d.isFinite then .error .notFinite
      else
        match d.toInt? with
        | some n => .ok n
        | none => .error .fractional
  | .text s => integerOfText s
  | _ => .error .notInteger

/-- An integer that is not below a least one. -/
def integerFrom (least : Int) (v : Value) : Except Problem Int := do
  let n ← integer v
  if n < least then .error .tooSmall else return n

def trueWords : List String := ["1", "on", "t", "true", "y", "yes"]
def falseWords : List String := ["0", "off", "f", "false", "n", "no"]

def truthOfInt (n : Int) : Except Problem Bool :=
  if n = 0 then .ok false else if n = 1 then .ok true else .error .truthText

def truth : Value → Except Problem Bool
  | .bool b => .ok b
  | .text s =>
      let word := String.ofList (s.toList.map Char.toLower)
      if trueWords.contains word then .ok true
      else if falseWords.contains word then .ok false
      else .error .truthText
  | .int n => if fitsWord n then truthOfInt n else .error .notTruth
  | .float x =>
      match integerOfFloat x with
      | .ok n => truthOfInt n
      | .error _ => .error .notTruth
  | _ => .error .notTruth

/-- A binary number in a text of ASCII characters. -/
def floatOfText? (s : String) : Option Binary64 :=
  let read (cs : List Char) : Option Binary64 :=
    if cs.all fun c => c.toNat < 0x80 && c != '_' then Binary64.ofChars? cs else none
  (read (trimmed s.toList)).or ((withoutUnderscores? s.toList).bind read)

def float : Value → Except Problem Binary64
  | .bool b => .ok (Binary64.ofInt (if b then 1 else 0))
  | .int n =>
      let x := Binary64.ofInt n
      if x.isFinite then .ok x else .error .notFloat
  | .float x => .ok x
  | .decimal d => .ok d.toBinary64
  | .text s =>
      match floatOfText? s with
      | some x => .ok x
      | none => .error .floatText
  | _ => .error .notFloat

def decimal (v : Value) : Except Problem Decimal :=
  let finite (d : Decimal) : Except Problem Decimal :=
    if d.isFinite then .ok d else .error .notFinite
  match v with
  | .int n => .ok (Decimal.ofInt n)
  | .float x =>
      match Decimal.ofChars? x.text.toList with
      | some d => finite d
      | none => .error .decimalText
  | .decimal d => finite d
  | .text s =>
      match Decimal.ofChars? (Text.trimChars s.toList) with
      | some d => finite d
      | none => .error .decimalText
  | _ => .error .notDecimal

/-- The date of a timestamp at midnight. -/
def dateOfMidnight (t : Timestamp) : Except Problem Date :=
  if t.clock.val = 0 then .ok t.date else .error .dateWithTime

def date (v : Value) : Except Problem Date :=
  let midnight (t : Option Timestamp) : Except Problem Date :=
    match t with
    | some t => dateOfMidnight t
    | none => .error .dateText
  match v with
  | .text s => midnight (Moment.timestamp? s.toList)
  | .int n => midnight (Moment.ofInt? n)
  | .float x => midnight (Moment.ofFloat? x)
  | .date d => .ok d
  | .timestamp t => dateOfMidnight t
  | _ => .error .notDate

def timestamp (v : Value) : Except Problem Timestamp :=
  let given (problem : Problem) (t : Option Timestamp) : Except Problem Timestamp :=
    match t with
    | some t => .ok t
    | none => .error problem
  match v with
  | .text s => given .timestampText (Moment.timestamp? s.toList)
  | .int n => given .timestampNumber (Moment.ofInt? n)
  | .float x => given .timestampNumber (Moment.ofFloat? x)
  | .date d => .ok (Timestamp.midnight d)
  | .timestamp t => .ok t
  | _ => .error .notTimestamp

/-- An identifier of 32 digits, or with hyphens at their places and possibly in braces or
behind its label. -/
def uuidOfText? (s : String) : Option Uuid :=
  let cs := s.toList
  let hyphenated? (cs : List Char) : Option Uuid :=
    if cs.length = 36 ∧ [8, 13, 18, 23].all (fun i => cs[i]? == some '-') then
      let ds := cs.filter (· ≠ '-')
      if ds.length = 32 then Uuid.ofChars? ds else none
    else none
  let hex (cs : List Char) : Bool := cs.all fun c => (Uuid.hexValue? c).isSome || c == '-'
  let label := "urn:uuid:".toList
  if cs.length = 32 then if hex cs && !cs.contains '-' then Uuid.ofChars? cs else none
  else if cs.length = 36 then if hex cs then hyphenated? cs else none
  else if cs.length = 38 then
    let inner := (cs.drop 1).take 36
    if cs.head? = some '\x7b' ∧ cs.getLast? = some '\x7d' ∧ hex inner then hyphenated? inner
    else none
  else if label.isPrefixOf cs then
    let inner := cs.drop label.length
    if hex inner then hyphenated? inner else none
  else none

def uuid : Value → Except Problem Uuid
  | .uuid u => .ok u
  | .text s =>
      match uuidOfText? s with
      | some u => .ok u
      | none => .error .uuidText
  | _ => .error .notUuid

def text : Value → Except Problem String
  | .text s => .ok s
  | _ => .error .notText

/-- Octets are given as the text that they write. -/
def octets : Value → Except Problem String
  | .text s => .ok s
  | _ => .error .notOctets

/-- Null for a field that may be left open, and otherwise a conversion. -/
def optional {α : Type} (convert : Value → Except Problem α) (v : Value) :
    Except Problem (Option α) :=
  if v.isNull then .ok none else (convert v).map some

/-- Converts a value to the kind of a column; null stays null. -/
def ofKind (kind : Kind) (v : Value) : Except Problem Value :=
  match v with
  | .null => .ok .null
  | v =>
      match kind with
      | .int => (integer v).map .int
      | .float => (float v).map .float
      | .decimal => (decimal v).map .decimal
      | .bool => (truth v).map .bool
      | .date => (date v).map .date
      | .timestamp => (timestamp v).map .timestamp
      | .uuid => (uuid v).map .uuid
      | .text => (text v).map .text
      | .bytes => (octets v).map .text
      | .untyped => .ok v

end Conversion
end RecordApi
