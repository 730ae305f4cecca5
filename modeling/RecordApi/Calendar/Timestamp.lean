import RecordApi.Calendar.Date

/-!
# Timestamps

A timestamp is a date with a time of day in microseconds and, possibly, the offset
of its clock from universal time.  `Timestamp.toUniversal?` moves a timestamp with an
offset to universal time; it fails only when the instant leaves the years 1 to 9999.
-/

namespace RecordApi

def dayMicros : Nat := 86400000000

structure Timestamp where
  date : Date
  clock : Fin dayMicros
  /-- Microseconds that the clock is ahead of universal time, if known. -/
  offset : Option Int
deriving DecidableEq

namespace Timestamp

def midnight (date : Date) : Timestamp :=
  ⟨date, ⟨0, by decide⟩, none⟩

/-- The microseconds since midnight of a time of day that exists. -/
def clockOf? (hour minute second microsecond : Nat) : Option (Fin dayMicros) :=
  if hour < 24 ∧ minute < 60 ∧ second < 60 ∧ microsecond < 1000000 then
    let n := ((hour * 60 + minute) * 60 + second) * 1000000 + microsecond
    if h : n < dayMicros then some ⟨n, h⟩ else none
  else none

def hour (t : Timestamp) : Nat := t.clock / 3600000000
def minute (t : Timestamp) : Nat := t.clock / 60000000 % 60
def second (t : Timestamp) : Nat := t.clock / 1000000 % 60
def microsecond (t : Timestamp) : Nat := t.clock % 1000000

/-- The microseconds from the start of the day before year 1 on the timestamp's own clock. -/
def localMicros (t : Timestamp) : Int :=
  t.date.ordinal * dayMicros + t.clock.val

/-- The instant of a timestamp with an offset, on the clock of universal time. -/
def instant (t : Timestamp) : Int :=
  t.localMicros - t.offset.getD 0

/-- The timestamp that a clock without known offset shows. -/
def ofLocalMicros? (n : Int) (offset : Option Int) : Option Timestamp :=
  (Date.ofOrdinal? (n / dayMicros)).map fun date =>
    ⟨date, ⟨(n % dayMicros).toNat, by
      have h : (0 : Int) < (dayMicros : Int) := by decide
      have := Int.emod_nonneg n (Int.ne_of_gt h)
      have := Int.emod_lt_of_pos n h
      omega⟩, offset⟩

/-- A timestamp with an offset, moved to universal time; one without stays. -/
def toUniversal? (t : Timestamp) : Option Timestamp :=
  match t.offset with
  | none => some t
  | some 0 => some t
  | some _ => ofLocalMicros? t.instant (some 0)

/-- `HH:MM:SS`, with six digits of a second unless they are all zero. -/
def clockChars (t : Timestamp) : List Char :=
  Date.padded 2 t.hour ++ ':' :: Date.padded 2 t.minute ++ ':' :: Date.padded 2 t.second ++
    (if t.microsecond = 0 then [] else '.' :: Date.padded 6 t.microsecond)

/-- A sign and `HH:MM`, with seconds and microseconds only when there are some. -/
def offsetChars (offset : Int) : List Char :=
  let micros := offset.natAbs
  let seconds := micros / 1000000
  let fraction := micros % 1000000
  (if offset < 0 then '-' else '+') :: Date.padded 2 (seconds / 3600) ++
    ':' :: Date.padded 2 (seconds / 60 % 60) ++
    (if seconds % 60 = 0 ∧ fraction = 0 then [] else ':' :: Date.padded 2 (seconds % 60)) ++
    (if fraction = 0 then [] else '.' :: Date.padded 6 fraction)

/-- The date, a separator, the time of day, and the offset if it is known. -/
def textWith (separator : Char) (t : Timestamp) : String :=
  String.ofList (t.date.chars ++ separator :: t.clockChars ++
    (match t.offset with
    | none => []
    | some offset => offsetChars offset))

def text (t : Timestamp) : String :=
  t.textWith 'T'

end Timestamp
end RecordApi
