import RecordApi.Value.Basic
import RecordApi.Text.Quoted

/-!
# The text of a value

A scalar is written plainly at the top and as a literal inside a list or a map, where
texts are quoted and typed scalars name their constructor.
-/

namespace RecordApi
namespace Value

def boolText (b : Bool) : String :=
  if b then "True" else "False"

def joined (separator : String) : List String → String
  | [] => ""
  | [s] => s
  | s :: rest => s ++ separator ++ joined separator rest

/-- An offset from universal time as a literal: days, seconds and microseconds, of which
only the days may be negative. -/
def offsetLiteral (offset : Int) : String :=
  if offset = 0 then "datetime.timezone.utc"
  else
    let days := offset / dayMicros
    let rest := offset % dayMicros
    let seconds := rest / 1000000
    let micros := rest % 1000000
    let part (name : String) (n : Int) : List String :=
      if n = 0 then [] else [name ++ "=" ++ toString n]
    "datetime.timezone(datetime.timedelta(" ++
      joined ", " (part "days" days ++ part "seconds" seconds ++ part "microseconds" micros) ++ "))"

def timestampLiteral (t : Timestamp) : String :=
  let finest :=
    if t.microsecond ≠ 0 then [t.second, t.microsecond]
    else if t.second ≠ 0 then [t.second]
    else []
  let numbers := [t.date.year, t.date.month, t.date.day, t.hour, t.minute] ++ finest
  let zone :=
    match t.offset with
    | none => []
    | some offset => ["tzinfo=" ++ offsetLiteral offset]
  "datetime.datetime(" ++ joined ", " (numbers.map toString ++ zone) ++ ")"

mutual

/-- The form of a value inside a list or a map. -/
def literal : Value → String
  | .null => "None"
  | .bool b => boolText b
  | .int n => toString n
  | .float x => x.text
  | .decimal d => "Decimal('" ++ d.text ++ "')"
  | .text s => Text.quoted s
  | .date d =>
      "datetime.date(" ++ joined ", " ([d.year, d.month, d.day].map toString) ++ ")"
  | .timestamp t => timestampLiteral t
  | .uuid u => "UUID('" ++ u.text ++ "')"
  | .list items => "[" ++ joined ", " (literals items) ++ "]"
  | .map entries => "\x7b" ++ joined ", " (entryLiterals entries) ++ "\x7d"

def literals : List Value → List String
  | [] => []
  | v :: rest => literal v :: literals rest

def entryLiterals : List (String × Value) → List String
  | [] => []
  | (key, v) :: rest => (Text.quoted key ++ ": " ++ literal v) :: entryLiterals rest

end

def plainText : Value → String
  | .text s => s
  | .decimal d => d.text
  | .date d => d.text
  | .timestamp t => t.textWith ' '
  | .uuid u => u.text
  | v => literal v

/-- The plain text without blanks at its ends. -/
def trimmedChars (v : Value) : List Char :=
  Text.trimChars v.plainText.toList

end Value
end RecordApi
