import RecordApi.Text.Blank
import RecordApi.Uuid

/-!
# Console markup

A text for the console may hold tags in square brackets, which style what stands between
an opening and a closing tag.  `Markup.plain?` gives the text without its tags, or none
when a closing tag has nothing to close.  A backslash before a bracket makes it literal.
-/

namespace RecordApi
namespace Markup

/-- A stretch of literal text, or the inside of a tag. -/
inductive Piece where
  | text (cs : List Char)
  | tag (body : List Char)
deriving DecidableEq, Repr

/-- A tag starts with a small letter or one of three marks. -/
def startsTag (c : Char) : Bool :=
  c.isLower || c == '#' || c == '/' || c == '@'

/-- The body of a tag behind its opening bracket, and what follows the closing one. -/
def tagBody? (cs : List Char) : Option (List Char × List Char) :=
  let body := cs.takeWhile fun c => c != ']' && c != '['
  match body.head?, cs.drop body.length with
  | some c, ']' :: rest => if startsTag c then some (body, rest) else none
  | _, _ => none

theorem tagBody?_length {cs body rest : List Char} (h : tagBody? cs = some (body, rest)) :
    rest.length < cs.length := by
  unfold tagBody? at h
  dsimp only at h
  split at h
  · rename_i c rest' _ hdrop
    split at h
    · simp only [Option.some.injEq, Prod.mk.injEq] at h
      have := congrArg List.length hdrop
      simp only [List.length_drop, List.length_cons] at this
      rw [← h.2]
      omega
    · simp at h
  · simp at h

/-- Cuts a text into pieces.  Of the backslashes before a tag every two stand for one, and
an odd one makes the tag literal. -/
def pieces (cs : List Char) : List Piece :=
  let slashes := (cs.takeWhile (· == '\\')).length
  match _h : cs.drop slashes with
  | [] => if slashes = 0 then [] else [.text cs]
  | c :: rest =>
      if c = '[' then
        match _h' : tagBody? rest with
        | some (body, rest') =>
            let literal := Piece.text (List.replicate (slashes / 2) '\\')
            let tag := if slashes % 2 = 0 then Piece.tag body else .text ('[' :: body ++ [']'])
            literal :: tag :: pieces rest'
        | none => .text (List.replicate (slashes - 1) '\\' ++ ['[']) :: pieces rest
      else .text (List.replicate slashes '\\' ++ [c]) :: pieces rest
termination_by cs.length
decreasing_by
  · have := congrArg List.length _h
    have := tagBody?_length _h'
    simp only [List.length_drop, List.length_cons] at *
    omega
  · have := congrArg List.length _h
    simp only [List.length_drop, List.length_cons] at this
    omega
  · have := congrArg List.length _h
    simp only [List.length_drop, List.length_cons] at this
    omega

/-! ## Names of styles -/

/-- The attributes of a style in the order in which it is written, each with its other
spellings. -/
def attributes : List (String × List String) :=
  [("bold", ["b"]), ("dim", ["d"]), ("italic", ["i"]), ("underline", ["u"]), ("blink", []),
    ("blink2", []), ("reverse", ["r"]), ("conceal", ["c"]), ("strike", ["s"]),
    ("underline2", ["uu"]), ("frame", []), ("encircle", []), ("overline", ["o"])]

def attribute? (word : String) : Option String :=
  (attributes.find? fun a => a.1 == word || a.2.contains word).map (·.1)

def colors : List String :=
  let basic := ["black", "red", "green", "yellow", "blue", "magenta", "cyan", "white"]
  "default" :: basic ++ basic.map ("bright_" ++ ·)

def isColor (word : String) : Bool :=
  colors.contains word ||
    match word.toList with
    | '#' :: digits => digits.length == 6 && digits.all fun d => (Uuid.hexValue? d).isSome
    | _ => false

structure Style where
  /-- The attributes switched on or off. -/
  switched : List (String × Bool) := []
  color : Option String := none
  background : Option String := none
  link : Option String := none

namespace Style

/-- Reads the words of a style; none if one of them has no meaning. -/
def ofWords? : List String → Style → Option Style
  | [], style => some style
  | "on" :: color :: rest, style =>
      if isColor color then ofWords? rest { style with background := some color } else none
  | "not" :: word :: rest, style => do
      let a ← attribute? word
      ofWords? rest { style with switched := (a, false) :: style.switched }
  | "link" :: target :: rest, style => ofWords? rest { style with link := some target }
  | word :: rest, style =>
      match attribute? word with
      | some a => ofWords? rest { style with switched := (a, true) :: style.switched }
      | none => if isColor word then ofWords? rest { style with color := some word } else none

def words (style : Style) : List String :=
  let switched := attributes.flatMap fun a =>
    match style.switched.find? (·.1 == a.1) with
    | some (name, true) => [name]
    | some (name, false) => ["not", name]
    | none => []
  let part (lead : List String) : Option String → List String
    | some word => lead ++ [word]
    | none => []
  switched ++ part [] style.color ++ part ["on"] style.background ++ part ["link"] style.link

end Style

def wordsOf (cs : List Char) : List (List Char) :=
  (cs.splitBy fun a b => Text.isBlank a == Text.isBlank b).filter fun word =>
    !word.all Text.isBlank

/-- Two names of one style have the same normal form. -/
def normalForm (name : List Char) : List String :=
  let lower := name.map Char.toLower
  let words := (wordsOf lower).map String.ofList
  match Style.ofWords? words {} with
  | some style => style.words
  | none => [String.ofList (Text.trimChars lower)]

/-! ## Tags -/

/-- The name in a tag, which ends before an equals sign. -/
def nameOf (body : List Char) : List Char :=
  body.takeWhile (· ≠ '=')

/-- Control characters that the console leaves out. -/
def isSilent (c : Char) : Bool :=
  c.toNat == 7 || c.toNat == 8 || (11 ≤ c.toNat && c.toNat ≤ 13)

/-- The text of some pieces inside the given open styles, the innermost first. -/
def textOf? : List (List String) → List Piece → Option (List Char)
  | _, [] => some []
  | opened, .text cs :: rest => (textOf? opened rest).map (cs.filter (!isSilent ·) ++ ·)
  | opened, .tag body :: rest =>
      match nameOf body with
      | '/' :: name =>
          match Text.trimChars name, opened with
          | [], [] => none
          | [], _ :: opened => textOf? opened rest
          | name, opened =>
              let style := normalForm name
              if opened.contains style then textOf? (opened.erase style) rest else none
      | name => textOf? (normalForm name :: opened) rest

/-- The text without its tags. -/
def plain? (s : String) : Option (List Char) :=
  textOf? [] (pieces s.toList)

def styled (style text : String) : String :=
  "[" ++ style ++ "]" ++ text ++ "[/" ++ style ++ "]"

end Markup

/-- The kinds of things that texts on the console tell apart. -/
inductive Palette where
  | schema
  | table
  | model
  | relation
  | method
  | path
deriving DecidableEq, Repr

namespace Palette

def name : Palette → String
  | .schema => "schema"
  | .table => "table"
  | .model => "model"
  | .relation => "relation"
  | .method => "method"
  | .path => "path"

def all : List Palette := [.schema, .table, .model, .relation, .method, .path]

def ofName? (name : String) : Option Palette :=
  all.find? fun kind => kind.name == name

def style : Palette → String
  | .schema => "bold cyan"
  | .table => "bold blue"
  | .model => "bold blue"
  | .relation => "magenta"
  | .method => "yellow"
  | .path => "bright_white"

def markup (kind : Palette) (text : String) : String :=
  Markup.styled kind.style text

end Palette
end RecordApi
