import RecordApi.Storage.Cell
import RecordApi.Calendar.Iso

/-!
# Binding values to columns

A value reaches the database in two steps.  First the type of its column puts it into
the form that the column stores, or refuses it; then it must have a form that a cell can
hold.  An operand that is of another family of types than the column is bound by its own
type.  Reading goes the other way and fails only on a name outside an enumeration.
-/

namespace RecordApi

/-- Why a value does not become a cell. -/
inductive BindError where
  /-- The type of the column does not take the value. -/
  | refused
  /-- No cell holds values of this kind. -/
  | unsupported
  /-- An integer takes more than 64 bits. -/
  | outOfRange
deriving DecidableEq, Repr

/-- Types among which an operand keeps the type of its column. -/
inductive TypeFamily where
  | integer | text | boolean | date | timestamp | number | uuid | bytes | untyped
deriving DecidableEq, Repr

namespace Timestamp

/-- The text of a stored timestamp: a blank before the time, six digits of a second, and
no offset. -/
def storedText (t : Timestamp) : String :=
  String.ofList (t.date.chars ++ ' ' :: Date.padded 2 t.hour ++ ':' :: Date.padded 2 t.minute ++
    ':' :: Date.padded 2 t.second ++ '.' :: Date.padded 6 t.microsecond)

end Timestamp

namespace ColumnType

def family : ColumnType → TypeFamily
  | .integer => .integer
  | .varchar _ | .enumeration _ => .text
  | .boolean => .boolean
  | .date => .date
  | .timestamp => .timestamp
  | .float | .numeric _ _ => .number
  | .uuid => .uuid
  | .blob => .bytes
  | .untyped => .untyped

/-- The type that a value has by itself. -/
def ofValue? : Value → Option ColumnType
  | .null | .list _ | .map _ => none
  | .bool _ => some .boolean
  | .int _ => some .integer
  | .float _ | .decimal _ => some .float
  | .text _ => some (.varchar none)
  | .date _ => some .date
  | .timestamp _ => some .timestamp
  | .uuid _ => some .uuid

/-- The type by which an operand is bound beside a column. -/
def operandType (column : ColumnType) (operand : Value) : ColumnType :=
  match ofValue? operand with
  | some type => if type.family = column.family then column else type
  | none => column

/-- Beside a column of identifiers or of octets any text is bound as one of them, and refused. -/
def takesTexts : ColumnType → Bool
  | .uuid | .blob => false
  | _ => true

end ColumnType

namespace Binding

/-- A number unless it is infinite. -/
def bounded? : Binary64 → Option Binary64
  | .infinite _ => none
  | x => some x

/-- The binary number that a column of numbers takes. -/
def number? : Value → Option Binary64
  | .bool b => some (Binary64.ofInt (if b then 1 else 0))
  | .int n => bounded? (Binary64.ofInt n)
  | .float x => some x
  | .decimal d => some d.toBinary64
  | .text s => Binary64.ofChars? (Text.trimChars s.toList)
  | _ => none

/-- The truth value that a value equals. -/
def truth? : Value → Option Bool
  | .bool b => some b
  | .int n => if n = 0 then some false else if n = 1 then some true else none
  | .float x =>
      match x.toInt? with
      | some 0 => some false
      | some 1 => some true
      | _ => none
  | .decimal d =>
      match d.toInt? with
      | some 0 => some false
      | some 1 => some true
      | _ => none
  | _ => none

/-- A value in the form that a column of a type stores. -/
def prepare (type : ColumnType) (value : Value) : Except BindError Value :=
  match value with
  | .null => .ok .null
  | value =>
      let given (v : Option Value) : Except BindError Value :=
        match v with
        | some v => .ok v
        | none => .error .refused
      match type with
      | .integer | .varchar _ | .untyped => .ok value
      | .blob =>
          match value with
          | .text s => .ok (.text s)
          | _ => .error .refused
      | .boolean => given ((truth? value).map fun b => .int (if b then 1 else 0))
      | .float | .numeric _ _ => given ((number? value).map .float)
      | .date =>
          match value with
          | .date d => .ok (.text d.text)
          | .timestamp t => .ok (.text t.date.text)
          | _ => .error .refused
      | .timestamp =>
          match value with
          | .timestamp t => .ok (.text t.storedText)
          | .date d => .ok (.text (Timestamp.midnight d).storedText)
          | _ => .error .refused
      | .uuid =>
          match value with
          | .uuid u => .ok (.text u.compactText)
          | .float _ => .error .unsupported
          | _ => .error .refused
      | .enumeration _ =>
          match value with
          | .text s => .ok (.text s)
          | _ => .error .refused

def toCell : Value → Except BindError Cell
  | .null => .ok .null
  | .bool b => .ok (.int (if b then 1 else 0))
  | .int n => if fitsWord n then .ok (.int n) else .error .outOfRange
  | .float .nan => .ok .null
  | .float x => .ok (.real x)
  | .text s => .ok (.text s)
  | .date d => .ok (.text d.text)
  | .timestamp t => .ok (.text (t.textWith ' '))
  | .decimal _ | .uuid _ | .list _ | .map _ => .error .unsupported

def bind (type : ColumnType) (value : Value) : Except BindError Cell := do
  toCell (← prepare type value)

/-- The error that is told when several values are bound together: that of the first
value refused, or else that of the first one without a cell. -/
def firstError? (bound : List (Except BindError Cell)) : Option BindError :=
  let errors := bound.filterMap fun b =>
    match b with
    | .error e => some e
    | .ok _ => none
  if errors.contains .refused then some .refused else errors.head?

/-- A finite number with a fixed count of decimal places. -/
def fixed (places : Nat) : Binary64 → Decimal
  | .nan => .nan false false 0
  | .infinite negative => .infinite negative
  | .finite negative rank =>
      .finite negative (Binary64.fixedCoefficient places rank.val) (-(places : Int))

/-- The value that a cell of a column shows; none for a name outside an enumeration. -/
def read? (type : ColumnType) (cell : Cell) : Option Value :=
  let plain : Value :=
    match cell with
    | .null => .null
    | .int n => .int n
    | .real x => .float x
    | .text s => .text s
  match cell, type with
  | .null, _ => some .null
  | .int n, .boolean => some (.bool (n != 0))
  | .int n, .numeric _ scale => some (.decimal (fixed scale (Binary64.ofInt n)))
  | .real x, .numeric _ scale => some (.decimal (fixed scale x))
  | .text s, .date => (Iso.date? s.toList).map .date
  | .text s, .timestamp => (Iso.timestamp? s.toList).map .timestamp
  | .text s, .uuid => (Uuid.ofChars? s.toList).map .uuid
  | .text s, .enumeration names => if names.contains s then some (.text s) else none
  | _, _ => some plain

end Binding
end RecordApi
