import RecordApi.Console.Logger
import RecordApi.Schema.Model

/-!
# Overviews on the console

The columns and relations of models, and the box that welcomes users of an application.
-/

namespace RecordApi
namespace Console

namespace Overview

/-- What there is to say about a column besides its type. -/
def details (model : Model) (column : Column) : String :=
  let key := if model.inKey column.key then [Markup.styled "yellow" "PK"] else []
  let foreign :=
    match column.foreign with
    | some f => [Markup.styled "blue" s!"FK -> {f.table}.{f.column}"]
    | none => []
  let names :=
    match column.type with
    | .enumeration names => [Markup.styled "magenta" "Enum" ++ ": " ++ ", ".intercalate names]
    | _ => []
  " ".intercalate (key ++ foreign ++ names)

/-- A column that must be given has a star. -/
def columnRow (model : Model) (column : Column) : List String :=
  [column.key ++ (if column.nullable then "" else "*"), column.type.text, details model column]

def relationRow (relation : Relation) : List String :=
  let kind := if relation.many then "many" else "one"
  [Palette.relation.markup relation.key, s!"-> {relation.target}",
    Markup.styled "dim" s!"relation ({kind})"]

def grid (model : Model) : Grid where
  columns := [⟨"", some 24, false⟩, ⟨"", some 32, true⟩, ⟨"", none, true⟩]
  rows := model.columns.map (columnRow model) ++ model.relations.map relationRow
  showsHeader := false

/-- The lines about a model under a name on a console of `n` columns. -/
def lines? (n : Nat) (name : String) (model : Model) : Option (List (List Char)) := do
  let title ← Markup.plain? (Markup.styled "bold blue" name)
  let body ← (grid model).lines? n
  return wrap .fold n title ++ body ++ [[]]

end Overview

/-- What the console tells when the library is set up. -/
def greeting (version : String) : Step :=
  .message .info s!"autocrud initialized (version {version})"

/-- The box that tells where an application is documented. -/
def welcome? (n : Nat) (project version host : String) (port : Int) :
    Option (List (List Char)) := do
  let url := s!"http://{host}:{port}/docs"
  let body ← Markup.plain?
    ("API Documentation available at [link=" ++ url ++ "]" ++ url ++ "[/link]")
  let title ← Markup.plain? (Markup.styled "bold green" s!"{project} v{version}")
  return panel n title body

end Console
end RecordApi
