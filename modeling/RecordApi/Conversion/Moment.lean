import RecordApi.Calendar.Iso
import RecordApi.Number.Binary64

/-!
# Dates and timestamps in bodies

A date is written `YYYY-MM-DD`; a timestamp adds a separator, a time of day with minutes
and an optional offset.  Both may instead be a number: the seconds since the start of
1970, or the milliseconds when the number is large.
-/

namespace RecordApi
namespace Moment

/-- The text after an expected character. -/
def after? (c : Char) : List Char → Option (List Char)
  | d :: rest => if d = c then some rest else none
  | [] => none

/-- Reads `YYYY-MM-DD` at the start of a text. -/
def civil? (cs : List Char) : Option (Date × List Char) := do
  let (year, rest) ← Iso.digits? 4 cs
  let (month, rest) ← Iso.digits? 2 (← after? '-' rest)
  let (day, rest) ← Iso.digits? 2 (← after? '-' rest)
  return (← Date.ofCivil? year month day, rest)

/-- Reads a fraction of a second behind its point: the first six digits count. -/
def fraction? (cs : List Char) : Option (Nat × List Char) :=
  let ds := cs.takeWhile Char.isDigit
  if ds.isEmpty then none
  else
    let counted := ds.take 6
    some (Numeral.natOfAscii counted * tenTo (6 - counted.length), cs.drop ds.length)

/-- Reads `HH:MM`, and seconds and a fraction if they follow. -/
def clock? (cs : List Char) : Option (Fin dayMicros × List Char) := do
  let (hour, rest) ← Iso.digits? 2 cs
  let (minute, rest) ← Iso.digits? 2 (← after? ':' rest)
  match rest with
  | ':' :: rest =>
      let (second, rest) ← Iso.digits? 2 rest
      let (micros, rest) ←
        match rest with
        | '.' :: rest => fraction? rest
        | ',' :: rest => fraction? rest
        | rest => some (0, rest)
      return (← Timestamp.clockOf? hour minute second micros, rest)
  | rest => return (← Timestamp.clockOf? hour minute 0 0, rest)

/-- Reads an offset that ends the text: none, `Z`, or a sign with hours and minutes. -/
def offset? : List Char → Option (Option Int)
  | [] => some none
  | ['Z'] => some (some 0)
  | ['z'] => some (some 0)
  | sign :: rest => do
      let negative ← if sign = '+' then some false
        else if sign = '-' || sign = '\u2212' then some true else none
      let (hours, rest) ← Iso.digits? 2 rest
      let (minutes, rest) ← Iso.digits? 2 ((after? ':' rest).getD rest)
      if rest.isEmpty && hours < 24 && minutes < 60 then
        let micros : Int := (hours * 60 + minutes) * 60000000
        return some (if negative then -micros else micros)
      else none

def isSeparator (c : Char) : Bool :=
  c == 'T' || c == 't' || c == ' ' || c == '_'

/-- Reads a date with a time of day. -/
def written? (cs : List Char) : Option Timestamp := do
  let (date, rest) ← civil? cs
  match rest with
  | c :: rest =>
      if isSeparator c then
        let (clock, rest) ← clock? rest
        return ⟨date, clock, ← offset? rest⟩
      else none
  | [] => none

/-! ## Numbers -/

/-- The ordinal of the first day of 1970. -/
def epochOrdinal : Int := 719163

/-- Up to this number, seconds are counted, and beyond it milliseconds. -/
def watershed : Int := 20000000000

/-- The instants that a number may stand for, in seconds: the years 1600 to 9999. -/
def firstSecond : Int := -11676096000
def lastSecond : Int := 253402300799

/-- The timestamp of an instant in microseconds, on the clock of universal time. -/
def ofMicros? (micros : Int) : Option Timestamp :=
  let second := micros.fdiv 1000000
  if firstSecond ≤ second ∧ second ≤ lastSecond then
    Timestamp.ofLocalMicros? (epochOrdinal * dayMicros + micros) (some 0)
  else none

/-- The instant that a whole number stands for, in microseconds. -/
def microsOfInt (n : Int) : Int :=
  if n.natAbs ≤ watershed.natAbs then n * 1000000 else n * 1000

def ofInt? (n : Int) : Option Timestamp :=
  ofMicros? (microsOfInt n)

/-- Divides to the nearest whole number, and a half upwards. -/
def nearest (n d : Nat) : Nat :=
  (2 * n + d) / (2 * d)

/-- The timestamp that a binary number stands for.  The part behind the point counts
microseconds from the whole number below. -/
def ofFloat? (x : Binary64) : Option Timestamp :=
  match x with
  | .finite negative rank => do
      let whole ← x.floor?
      let unit := Binary64.unitsPerOne
      let fraction := (Binary64.signedUnits negative rank).natAbs % unit
      ofMicros? (microsOfInt whole + nearest (fraction * 1000000) unit)
  | _ => none

def ofNumberText? (cs : List Char) : Option Timestamp := do
  let (negative, ds) := Numeral.splitSign cs
  let whole := ds.takeWhile Char.isDigit
  if whole.isEmpty then none
  let signed (n : Nat) : Int := if negative then -(n : Int) else n
  match ds.drop whole.length with
  | [] => ofInt? (signed (Numeral.natOfAscii whole))
  | '.' :: places =>
      if places.all Char.isDigit then
        let n := Numeral.natOfAscii (whole ++ places)
        let scale := tenTo places.length
        let per := if n ≤ watershed.natAbs * scale then 1000000 else 1000
        ofMicros? (signed (nearest (n * per) scale))
      else none
  | _ => none

/-- Reads a timestamp: a date with a time, a number, or a date alone. -/
def timestamp? (cs : List Char) : Option Timestamp :=
  match written? cs with
  | some t => some t
  | none =>
      match ofNumberText? cs with
      | some t => some t
      | none =>
          match civil? cs with
          | some (date, []) => some (Timestamp.midnight date)
          | _ => none

end Moment
end RecordApi
