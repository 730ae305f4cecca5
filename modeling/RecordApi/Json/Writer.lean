import RecordApi.Value.Text

/-!
# Writing JSON

Values are written in one line.  The separators are a parameter, and so is whether
characters outside ASCII are escaped.  Infinities and NaN have no JSON form; they are
written as words, and `Json.isFiniteTree` tells whether a value is free of them.
-/

namespace RecordApi
namespace Json

structure Style where
  itemSeparator : String
  keySeparator : String
  escapesNonAscii : Bool

/-- No blanks, and characters as they are. -/
def Style.compact : Style := ⟨",", ":", false⟩

/-- A blank after commas and colons, and escapes outside ASCII. -/
def Style.spaced : Style := ⟨", ", ": ", true⟩

def escapeUnit (n : Nat) : List Char :=
  '\\' :: 'u' :: Text.hexDigits 4 n

def escapeChar (nonAscii : Bool) (c : Char) : List Char :=
  match c with
  | '"' => ['\\', '"']
  | '\\' => ['\\', '\\']
  | '\n' => ['\\', 'n']
  | '\r' => ['\\', 'r']
  | '\t' => ['\\', 't']
  | '\x08' => ['\\', 'b']
  | '\x0c' => ['\\', 'f']
  | c =>
      let n := c.toNat
      if n < 0x20 then escapeUnit n
      else if !nonAscii || n < 0x7f then [c]
      else if n < 0x10000 then escapeUnit n
      else escapeUnit (0xd800 + (n - 0x10000) / 0x400) ++ escapeUnit (0xdc00 + (n - 0x10000) % 0x400)

def string (style : Style) (s : String) : String :=
  String.ofList ('"' :: s.toList.flatMap (escapeChar style.escapesNonAscii) ++ ['"'])

def numberText (x : Binary64) : String :=
  match x with
  | .nan => "NaN"
  | .infinite false => "Infinity"
  | .infinite true => "-Infinity"
  | x => x.text

mutual

def write (style : Style) : Value → String
  | .null => "null"
  | .bool b => if b then "true" else "false"
  | .int n => toString n
  | .float x => numberText x
  | .text s => string style s
  | .list items => "[" ++ Value.joined style.itemSeparator (writeItems style items) ++ "]"
  | .map entries => "\x7b" ++ Value.joined style.itemSeparator (writeEntries style entries) ++ "\x7d"
  | .decimal d => d.toBinary64.text
  | .date d => string style d.text
  | .timestamp t => string style t.text
  | .uuid u => string style u.text

def writeItems (style : Style) : List Value → List String
  | [] => []
  | v :: rest => write style v :: writeItems style rest

def writeEntries (style : Style) : List (String × Value) → List String
  | [] => []
  | (key, v) :: rest =>
      (string style key ++ style.keySeparator ++ write style v) :: writeEntries style rest

end

mutual

/-- A value holds no NaN and no infinity, as its numbers are written. -/
def isFiniteTree : Value → Bool
  | .float x => x.isFinite
  | .decimal d => d.toBinary64.isFinite
  | .list items => areFiniteTrees items
  | .map entries => areFiniteEntries entries
  | _ => true

def areFiniteTrees : List Value → Bool
  | [] => true
  | v :: rest => isFiniteTree v && areFiniteTrees rest

def areFiniteEntries : List (String × Value) → Bool
  | [] => true
  | (_, v) :: rest => isFiniteTree v && areFiniteEntries rest

end

end Json
end RecordApi
