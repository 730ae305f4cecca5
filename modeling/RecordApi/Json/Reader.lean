import RecordApi.Value.Basic

/-!
# Reading JSON

`Json.read` turns a text into a value.  Besides JSON proper it accepts the words `NaN`,
`Infinity` and `-Infinity`.  A repeated key keeps its first place and its last value.
Numerals without point and power are integers of any size up to `integerDigits`
digits; all others are binary numbers.
-/

namespace RecordApi
namespace Json

inductive ReadError where
  /-- The text is no JSON. -/
  | malformed
  /-- An integer has more digits than may be converted. -/
  | integerTooLong
deriving DecidableEq, Repr

/-- The greatest number of digits of an integer. -/
def integerDigits : Nat := 4300

def isBlank (c : Char) : Bool :=
  c == ' ' || c == '\t' || c == '\n' || c == '\r'

def skipBlanks (cs : List Char) : List Char :=
  cs.dropWhile isBlank

/-- Reads some hexadecimal digits, to be written behind a number. -/
def hexDigits? : Nat → Nat → List Char → Option (Nat × List Char)
  | 0, total, cs => some (total, cs)
  | _ + 1, _, [] => none
  | count + 1, total, c :: rest =>
      (Uuid.hexValue? c).bind fun digit => hexDigits? count (total * 16 + digit) rest

/-- A unit of UTF-16 that is given by its number in four hexadecimal digits. -/
def unit? : List Char → Option (Nat × List Char)
  | c :: mark :: rest => if c = '\\' ∧ mark = 'u' then hexDigits? 4 0 rest else none
  | _ => none

def isHighSurrogate (n : Nat) : Bool := 0xd800 ≤ n && n < 0xdc00

def isLowSurrogate (n : Nat) : Bool := 0xdc00 ≤ n && n < 0xe000

/-- The character of one UTF-16 unit; a lone surrogate becomes the replacement character. -/
def charOfUnit (n : Nat) : Char :=
  if isHighSurrogate n || isLowSurrogate n then '\ufffd' else Char.ofNat n

def charOfPair (high low : Nat) : Char :=
  Char.ofNat (0x10000 + (high - 0xd800) * 0x400 + (low - 0xdc00))

/-- What a letter behind a backslash stands for. -/
def escapes : List (Char × Char) :=
  [('"', '"'), ('\\', '\\'), ('/', '/'), ('b', '\x08'), ('f', '\x0c'), ('n', '\n'),
    ('r', '\r'), ('t', '\t')]

/-- The character that is given by one unit or by a pair of them. -/
def unitCharacter? (cs : List Char) : Option (Char × List Char) :=
  (unit? cs).map fun (n, rest) =>
    match (unit? rest).filter fun low => isHighSurrogate n && isLowSurrogate low.1 with
    | some (low, rest) => (charOfPair n low, rest)
    | none => (charOfUnit n, rest)

/-- A character that stands for itself, or one that is given by a letter. -/
def letter? : List Char → Option (Char × List Char)
  | [] => none
  | c :: rest =>
      if c = '\\' then
        match rest with
        | [] => none
        | letter :: rest => (escapes.lookup letter).map (·, rest)
      else if c.toNat < 0x20 then none
      else some (c, rest)

/-- The first character of a string, and what follows it. -/
def character? (cs : List Char) : Option (Char × List Char) :=
  (unitCharacter? cs).or (letter? cs)

/-- What was read leaves a rest of the text that is shorter than it. -/
def Leaves (rest cs : List Char) : Prop :=
  rest <:+ cs ∧ rest.length < cs.length

theorem leaves_of_suffix {rest after cs : List Char} (h : rest <:+ after) (hcs : Leaves after cs) :
    Leaves rest cs :=
  ⟨h.trans hcs.1, Nat.lt_of_le_of_lt h.length_le hcs.2⟩

theorem leaves_cons (c : Char) (rest : List Char) : Leaves rest (c :: rest) :=
  ⟨List.suffix_cons c rest, Nat.lt_succ_self _⟩

theorem suffix_of_hexDigits?
    {count total n : Nat} {cs rest : List Char}
    (h : hexDigits? count total cs = some (n, rest)) :
    rest <:+ cs := by
  induction count generalizing total cs with
  | zero =>
      cases h
      exact List.suffix_refl _
  | succ count ih =>
      cases cs with
      | nil => cases h
      | cons c cs =>
          rcases Option.bind_eq_some_iff.mp h with ⟨digit, _, hrest⟩
          exact (ih hrest).trans (List.suffix_cons c cs)

theorem leaves_of_unit? {n : Nat} {cs rest : List Char} (h : unit? cs = some (n, rest)) :
    Leaves rest cs := by
  unfold unit? at h
  split at h
  · split at h
    · exact leaves_of_suffix (suffix_of_hexDigits? h)
        (leaves_of_suffix (List.suffix_cons _ _) (leaves_cons _ _))
    · cases h
  · cases h

theorem leaves_of_unitCharacter?
    {c : Char} {cs rest : List Char} (h : unitCharacter? cs = some (c, rest)) :
    Leaves rest cs := by
  rcases Option.map_eq_some_iff.mp h with ⟨⟨n, after⟩, hunit, hread⟩
  have hafter := leaves_of_unit? hunit
  dsimp only at hread
  split at hread
  · next low last hlow =>
    rw [← (Prod.mk.inj hread).2]
    exact leaves_of_suffix (leaves_of_unit? (Option.filter_eq_some_iff.mp hlow).1).1 hafter
  · rw [← (Prod.mk.inj hread).2]
    exact hafter

theorem leaves_of_letter?
    {c : Char} {cs rest : List Char} (h : letter? cs = some (c, rest)) :
    Leaves rest cs := by
  unfold letter? at h
  split at h
  · cases h
  · split at h
    · split at h
      · cases h
      · rcases Option.map_eq_some_iff.mp h with ⟨_, _, hread⟩
        cases hread
        exact leaves_of_suffix (List.suffix_cons _ _) (leaves_cons _ _)
    · split at h
      · cases h
      · cases h
        exact leaves_cons _ _

theorem leaves_of_character?
    {c : Char} {cs rest : List Char} (h : character? cs = some (c, rest)) :
    Leaves rest cs := by
  rcases Option.or_eq_some_iff.mp h with hunit | ⟨_, hletter⟩
  · exact leaves_of_unitCharacter? hunit
  · exact leaves_of_letter? hletter

/-- The rest of a string after its opening quote: its characters and what follows the
closing quote. -/
def stringRest? (cs : List Char) : Option (List Char × List Char) :=
  match cs with
  | '"' :: rest => some ([], rest)
  | cs =>
      match _h : character? cs with
      | none => none
      | some (c, rest) => (stringRest? rest).map fun read => (c :: read.1, read.2)
termination_by cs.length
decreasing_by exact (leaves_of_character? _h).2

/-- The digits at the start of a text, none when it starts otherwise. -/
def leadingDigits (cs : List Char) : List Char :=
  cs.takeWhile Char.isDigit

/-- The digits of a number before its point: a zero stands alone. -/
def wholeOf : List Char → List Char
  | [] => []
  | c :: rest => if c = '0' then ['0'] else leadingDigits (c :: rest)

/-- A fraction: a point and at least one digit. -/
def fractionOf : List Char → List Char
  | [] => []
  | c :: rest => if c = '.' then leadingDigits rest else []

/-- The length of a fraction with its point, none when there is no fraction. -/
def fractionLength (cs : List Char) : Nat :=
  if (fractionOf cs).isEmpty then 0 else (fractionOf cs).length + 1

def signLength : List Char → Nat
  | [] => 0
  | c :: _ => if c = '+' ∨ c = '-' then 1 else 0

def powerLength : List Char → Nat
  | [] => 0
  | c :: rest =>
      if c = 'e' ∨ c = 'E' then
        let digits := (leadingDigits (rest.drop (signLength rest))).length
        if digits = 0 then 0 else signLength rest + digits + 1
      else 0

def behindWhole (cs : List Char) : List Char :=
  cs.drop (wholeOf cs).length

def behindFraction (cs : List Char) : List Char :=
  (behindWhole cs).drop (fractionLength (behindWhole cs))

def behindPower (cs : List Char) : List Char :=
  (behindFraction cs).drop (powerLength (behindFraction cs))

def unsigned (negative : Bool) (cs : List Char) : Except ReadError (Value × List Char) :=
  let whole := wholeOf cs
  let fraction := fractionOf (behindWhole cs)
  let power := powerLength (behindFraction cs)
  let rest := behindPower cs
  if whole.isEmpty then .error .malformed
  else if fraction.isEmpty && power = 0 then
    if integerDigits < whole.length then .error .integerTooLong
    else
      let n : Int := Numeral.natOfAscii whole
      .ok (.int (if negative then -n else n), rest)
  else
    let exponent := (Numeral.exponentPart? ((behindFraction cs).take power)).getD 0
    let numeral : Numeral :=
      ⟨negative, Numeral.natOfAscii (whole ++ fraction), exponent - fraction.length⟩
    .ok (.float (Binary64.ofNumeral numeral), rest)

def number : List Char → Except ReadError (Value × List Char)
  | [] => .error .malformed
  | c :: rest => if c = '-' then unsigned true rest else unsigned false (c :: rest)

def words : List (String × Value) :=
  [("null", .null), ("true", .bool true), ("false", .bool false), ("NaN", .float .nan),
    ("Infinity", .float (.infinite false)), ("-Infinity", .float (.infinite true))]

def word? (cs : List Char) : Option (Value × List Char) :=
  (words.find? fun word => word.1.toList.isPrefixOf cs).map fun word =>
    (word.2, cs.drop word.1.toList.length)

/-- Reads a value that is no text, list or map. -/
def scalar (cs : List Char) : Except ReadError (Value × List Char) :=
  match word? cs with
  | some result => .ok result
  | none => number cs

mutual

/-- Reads a value at the start of a text.  The fuel bounds the steps into and along
lists and maps. -/
def value : Nat → List Char → Except ReadError (Value × List Char)
  | 0, _ => .error .malformed
  | fuel + 1, cs =>
      match cs with
      | '"' :: rest =>
          match stringRest? rest with
          | some (s, rest) => .ok (.text (String.ofList s), rest)
          | none => .error .malformed
      | '[' :: rest =>
          match skipBlanks rest with
          | ']' :: rest => .ok (.list [], rest)
          | rest => (elements fuel rest).map fun (items, rest) => (.list items, rest)
      | '\x7b' :: rest =>
          match skipBlanks rest with
          | '\x7d' :: rest => .ok (.map [], rest)
          | rest =>
              (members fuel rest).map fun (pairs, rest) => (.map (Assoc.ofPairs pairs), rest)
      | cs => scalar cs

def elements : Nat → List Char → Except ReadError (List Value × List Char)
  | 0, _ => .error .malformed
  | fuel + 1, cs => do
      let (item, rest) ← value fuel cs
      match skipBlanks rest with
      | ']' :: rest => return ([item], rest)
      | ',' :: rest =>
          let (items, rest) ← elements fuel (skipBlanks rest)
          return (item :: items, rest)
      | _ => .error .malformed

def members : Nat → List Char → Except ReadError (List (String × Value) × List Char)
  | 0, _ => .error .malformed
  | fuel + 1, cs => do
      match cs with
      | '"' :: rest =>
          match stringRest? rest with
          | none => .error .malformed
          | some (key, rest) =>
              match skipBlanks rest with
              | ':' :: rest =>
                  let (item, rest) ← value fuel (skipBlanks rest)
                  match skipBlanks rest with
                  | '\x7d' :: rest => return ([(String.ofList key, item)], rest)
                  | ',' :: rest =>
                      let (pairs, rest) ← members fuel (skipBlanks rest)
                      return ((String.ofList key, item) :: pairs, rest)
                  | _ => .error .malformed
              | _ => .error .malformed
      | _ => .error .malformed

end

/-- Reads a text that holds one value and blanks around it. -/
def read (cs : List Char) : Except ReadError Value := do
  let (v, rest) ← value (cs.length + 1) (skipBlanks cs)
  if (skipBlanks rest).isEmpty then return v else .error .malformed

end Json
end RecordApi
