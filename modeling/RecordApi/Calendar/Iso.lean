import RecordApi.Calendar.Timestamp

/-!
# Reading ISO 8601 dates and timestamps

Dates are read in the extended and the basic form (`2024-02-01`, `20240201`) and as a
day of a numbered week (`2024-W05-4`, `2024W054`, the day possibly left out).  A
timestamp is a date, one separator of any kind, and a time of day with an optional
fraction and an optional offset.  Only ASCII digits count, and lengths are those of
the UTF-8 form.
-/

namespace RecordApi
namespace Iso

/-- The number of octets of a text in UTF-8. -/
def octets (cs : List Char) : Nat :=
  cs.foldr (fun c n => c.utf8Size + n) 0

/-- Exactly `count` digits, and what follows them. -/
def digits? (count : Nat) (cs : List Char) : Option (Nat × List Char) :=
  let ds := cs.take count
  if ds.length = count ∧ ds.all Char.isDigit then some (Numeral.natOfAscii ds, cs.drop count)
  else none

/-- The end of the text, where a NUL character also counts as the end. -/
def atEnd : List Char → Bool
  | [] => true
  | c :: _ => c = '\x00'

/-- Reads a week and a day of the week, Monday when the text of `length` octets ends
before the day; `consumed` octets come before. -/
def weekDate? (year : Nat) (dashed : Bool) (consumed length : Nat) (cs : List Char) :
    Option Date := do
  let (week, rest) ← digits? 2 cs
  if consumed + 2 < length then
    let rest ←
      if dashed then
        match rest with
        | '-' :: tail => some tail
        | _ => none
      else some rest
    let (day, _) ← digits? 1 rest
    Calendar.dateOfWeek? year week day
  else Calendar.dateOfWeek? year week 1

/-- Reads a date from the start of a text whose date part has `length` octets.  What
follows a complete date within that length is not looked at. -/
def datePart? (length : Nat) (cs : List Char) : Option Date := do
  let (year, rest) ← digits? 4 cs
  let (dashed, rest) :=
    match rest with
    | '-' :: tail => (true, tail)
    | _ => (false, rest)
  match rest with
  | 'W' :: tail => weekDate? year dashed (if dashed then 6 else 5) length tail
  | _ =>
      let (month, rest) ← digits? 2 rest
      let rest ←
        if dashed then
          match rest with
          | '-' :: tail => some tail
          | _ => none
        else some rest
      let (day, _) ← digits? 2 rest
      Date.ofCivil? year month day

/-- Reads a date; its text has seven, eight or ten octets. -/
def date? (cs : List Char) : Option Date :=
  let length := octets cs
  if length = 7 ∨ length = 8 ∨ length = 10 then datePart? length cs else none

/-- The length of the date at the start of a timestamp, told from the characters where
the forms differ.  After an extended week a hyphen followed by two digits starts the
time; after a basic week, an odd number of digits starts with the day. -/
def dateLength (cs : List Char) : Nat :=
  let length := octets cs
  let digitAt (i : Nat) : Bool := (cs[i]?.map Char.isDigit).getD false
  if length = 7 then 7
  else if cs[4]? = some '-' then
    if cs[5]? = some 'W' then
      if cs[8]? = some '-' then
        if length = 9 then 9
        else if digitAt 10 then 8
        else 10
      else 8
    else 10
  else if cs[4]? = some 'W' then
    let position := 7 + ((cs.drop 7).takeWhile Char.isDigit).length
    if position < 9 then position
    else if position % 2 = 0 then 7
    else 8
  else 8

/-- What a run of time components leaves: the text is used up, or something follows. -/
inductive Rest where
  | ended
  | more
deriving DecidableEq

structure Clock where
  hour : Nat
  minute : Nat
  second : Nat
  microsecond : Nat

/-- Reads the digits of a fraction: the first six count and further ones are skipped. -/
def fraction? (cs : List Char) : Option (Nat × Rest) := do
  let count := min 6 cs.length
  let (n, rest) ← digits? count cs
  let rest := rest.dropWhile Char.isDigit
  return (n * tenTo (6 - count), if atEnd rest then .ended else .more)

/-- Reads the components of a time of day, two digits each and separated by colons or
not at all, with a fraction after the last.  When an offset `follows`, one further
ASCII character may stand before it. -/
def components? (follows : Bool) : Nat → Bool → List Nat → List Char →
    Option (List Nat × Nat × Rest)
  | 0, _, done, cs => (fraction? cs).map fun (micros, rest) => (done, micros, rest)
  | left + 1, separated, done, cs => do
      let (n, rest) ← digits? 2 cs
      let done := done ++ [n]
      match rest with
      | [] => return (done, 0, if follows then .more else .ended)
      | c :: tail =>
          let separated := if done.length = 1 then c == ':' else separated
          if tail.isEmpty && c.utf8Size = 1 then
            return (done, 0, if c = '\x00' then .ended else .more)
          else if separated && c == ':' then
            components? follows left separated done tail
          else if c == '.' || c == ',' then
            (fraction? tail).map fun (micros, rest) => (done, micros, rest)
          else if separated then none
          else components? follows left separated done (c :: tail)

def clock? (follows : Bool) (cs : List Char) : Option (Clock × Rest) :=
  (components? follows 3 true [] cs).map fun (parts, micros, rest) =>
    (⟨parts[0]?.getD 0, parts[1]?.getD 0, parts[2]?.getD 0, micros⟩, rest)

/-- Microseconds of an offset; it is less than a day.  Below a second it counts as none. -/
def offsetMicros? (negative : Bool) (clock : Clock) : Option Int :=
  let seconds := (clock.hour * 60 + clock.minute) * 60 + clock.second
  let n := seconds * 1000000 + clock.microsecond
  if seconds = 0 then some 0
  else if n < dayMicros then some (if negative then -(n : Int) else n)
  else none

def time? (cs : List Char) : Option (Clock × Option Int) := do
  let starts (c : Char) : Bool := c == '+' || c == '-' || c == 'Z'
  let before := cs.takeWhile (!starts ·)
  match cs.dropWhile (!starts ·) with
  | [] =>
      let (clock, rest) ← clock? false before
      if rest = .ended then return (clock, none) else none
  | sign :: after =>
      let (clock, _) ← clock? true before
      if sign = 'Z' then
        if atEnd after then return (clock, some 0) else none
      else
        let (offset, rest) ← clock? false after
        if rest = .ended then
          let micros ← offsetMicros? (sign == '-') offset
          return (clock, some micros)
        else none

/-- Reads a timestamp.  A date alone is its midnight. -/
def timestamp? (cs : List Char) : Option Timestamp := do
  let split := dateLength cs
  let date ← datePart? split cs
  match cs.drop split with
  | [] => return Timestamp.midnight date
  | _ :: after =>
      let (clock, offset) ← time? after
      let micros ← Timestamp.clockOf? clock.hour clock.minute clock.second clock.microsecond
      return ⟨date, micros, offset⟩

end Iso
end RecordApi
