import RecordApi.Value.Text
import RecordApi.Calendar.Iso

/-!
# Operands of typed columns

What a request compares a column with arrives as text or JSON and is converted to the
kind of the column: `Operand.coerce`.  A number is never narrowed to fit its column:
an integer column is compared with an exact integer where the operand is integral and
with the nearest binary number otherwise.
-/

namespace RecordApi

inductive Kind where
  | int
  | float
  | decimal
  | bool
  | date
  | timestamp
  | uuid
  | text
  | bytes
  /-- Values of any kind. -/
  | untyped
deriving DecidableEq, Repr

namespace Operand

/-- What an operand should have been. -/
inductive Expected where
  | boolean
  | number
  | date
  | timestamp
  | uuid
  | pair
  | nullOrBoolean
deriving DecidableEq, Repr

def Expected.name : Expected → String
  | .boolean => "boolean"
  | .number => "number"
  | .date => "date"
  | .timestamp => "datetime"
  | .uuid => "uuid"
  | .pair => "pair of values"
  | .nullOrBoolean => "null or boolean"

inductive Error where
  | invalid (field : String) (expected : Expected)
  /-- An instant lies outside the years 1 to 9999 of universal time. -/
  | beyondCalendar
deriving DecidableEq, Repr

def Error.message : Error → String
  | .invalid field expected => s!"Invalid value for field \"{field}\" ({expected.name})"
  | .beyondCalendar => "date value out of range"

def trueWords : List String := ["1", "true", "yes", "y", "on"]
def falseWords : List String := ["0", "false", "no", "n", "off"]

def word (v : Value) : String :=
  String.ofList (v.trimmedChars.map Char.toLower)

def bool (field : String) : Value → Except Error Bool
  | .bool b => .ok b
  | v =>
      if trueWords.contains (word v) then .ok true
      else if falseWords.contains (word v) then .ok false
      else .error (.invalid field .boolean)

/-- The exact decimal that a value writes. -/
def decimalOf? : Value → Option Decimal
  | .bool _ => none
  | .int n => some (Decimal.ofInt n)
  | .float x => some (Decimal.ofBinary64 x)
  | .decimal d => some d
  | v => Decimal.ofChars? v.trimmedChars

def number (field : String) (v : Value) : Except Error Decimal :=
  match (decimalOf? v).filter Decimal.isFinite with
  | some d => .ok d
  | none => .error (.invalid field .number)

/-- A number as an integer column is compared with it. -/
def integral (d : Decimal) : Value :=
  match d.toInt? with
  | some n => .int n
  | none => .float d.toBinary64

/-- Replaces the mark of universal time by its offset. -/
def expandZulu (cs : List Char) : List Char :=
  cs.flatMap fun c => if c = 'Z' then "+00:00".toList else [c]

/-- A text holds a time of day after its date. -/
def hasTime (cs : List Char) : Bool :=
  cs.contains 'T' || cs.contains ' '

def date (field : String) : Value → Except Error Date
  | .timestamp t => .ok t.date
  | .date d => .ok d
  | v =>
      let cs := v.trimmedChars
      let read :=
        if hasTime cs then (Iso.timestamp? (expandZulu cs)).map (·.date) else Iso.date? cs
      match read with
      | some d => .ok d
      | none => .error (.invalid field .date)

/-- A timestamp; one with an offset is moved to universal time. -/
def timestamp (field : String) : Value → Except Error Timestamp
  | .timestamp t => .ok t
  | v =>
      let cs := v.trimmedChars
      let read :=
        if !hasTime cs && cs.length == 10 then (Iso.date? cs).map Timestamp.midnight
        else Iso.timestamp? (expandZulu cs)
      match read with
      | none => .error (.invalid field .timestamp)
      | some t =>
          match t.toUniversal? with
          | some t => .ok t
          | none => .error .beyondCalendar

def uuid (field : String) : Value → Except Error Uuid
  | .uuid u => .ok u
  | v =>
      match Uuid.ofChars? v.trimmedChars with
      | some u => .ok u
      | none => .error (.invalid field .uuid)

/-- Converts a value for a column of a kind.  Null stays null, and so does every value for
a column whose kind needs no conversion. -/
def coerce (field : String) (kind : Kind) (v : Value) : Except Error Value :=
  match v with
  | .null => .ok .null
  | v =>
      match kind with
      | .bool => (bool field v).map .bool
      | .int => (number field v).map integral
      | .float => (number field v).map fun d => .float d.toBinary64
      | .decimal => (number field v).map .decimal
      | .timestamp => (timestamp field v).map .timestamp
      | .date => (date field v).map .date
      | .uuid => (uuid field v).map .uuid
      | .text | .bytes | .untyped => .ok v

end Operand
end RecordApi
