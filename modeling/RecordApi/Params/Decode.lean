import RecordApi.Params.Tree
import RecordApi.Json.Reader
import RecordApi.Query.Builder

/-!
# Decoding query parameters

A parameter is given in bracket notation, as JSON, as a comma list or by repeated keys.
`Params.decode` folds the items of a query string and reads each parameter that a
request knows; all others are ignored.
-/

namespace RecordApi
namespace Params

/-- Reads a text that starts like a JSON list or map; other values stay. -/
def readJson (malformed : Error) : Value → Except Error Value
  | .text s =>
      match Text.trimChars s.toList with
      | c :: rest =>
          if c = '\x7b' ∨ c = '[' then
            match Json.read (c :: rest) with
            | .ok value => .ok value
            | .error .malformed => .error malformed
            | .error .integerTooLong => .error .integerTooLong
          else .ok (.text s)
      | [] => .ok (.text s)
  | value => .ok value

def lastOf : Value → Value
  | .list items => items.getLastD .null
  | value => value

/-- A list of names: a list, or a text of pieces between commas. -/
def nameList (parameter : String) (value : Value) : Except Error (Option (List String)) := do
  match ← readJson (.notJson parameter) value with
  | .null => return none
  | .list items => return some (items.map Value.plainText)
  | .map _ => .error (.notList parameter)
  | value => return some (Text.commaList value.plainText)

/-- A map by relation. -/
def byRelation (parameter : String) (value : Value) :
    Except Error (Option (Assoc Value)) := do
  match ← readJson (.notJson parameter) value with
  | .null => return none
  | .map entries => return some entries
  | _ => .error (.notMap parameter)

/-- Applies a reader to every value of a map, in order. -/
def readEntries {α : Type} (read : String → Value → Except Error α) :
    List (String × Value) → Except Error (Assoc α)
  | [] => .ok []
  | (name, value) :: rest => do
      let a ← read name value
      let others ← readEntries read rest
      return (name, a) :: others

def readEntries? {α : Type} (read : String → Value → Except Error α) :
    Option (Assoc Value) → Except Error (Option (Assoc α))
  | none => .ok none
  | some entries => (readEntries read entries).map some

/-- Reads the parameters of a request from a folded query string. -/
def ofEntries (entries : Assoc Value) : Except Error RequestQuery := do
  let given (name : String) : Value := (entries.get? name).getD .null
  let relationFields ← byRelation "relationFields" (given "relationFields")
  let relationFilters ← byRelation "relationFilters" (given "relationFilters")
  let relationSort ← byRelation "relationSort" (given "relationSort")
  let filters ← readJson (.filter (.notJson "filters")) (given "filters")
  let fields ← nameList "fields" (given "fields")
  let relations ← nameList "relations" (given "relations")
  let relationFields ← readEntries?
    (fun name value => (nameList s!"relationFields[{name}]" value).map (·.getD [])) relationFields
  let relationFilters ← readEntries?
    (fun name value => readJson (.filter (.notJson s!"relationFilters[{name}]")) value)
    relationFilters
  return {
    filters
    sort := lastOf (given "sort")
    page := lastOf (given "page")
    pageSize := lastOf (given "pageSize")
    fields
    relations
    relationFields
    relationFilters
    relationSort := relationSort.map (Assoc.mapValues lastOf)
  }

def decode (items : List (String × String)) : Except Error RequestQuery := do
  match ← fold items with
  | .map entries => ofEntries entries
  | _ => .error .unnamedParameters

end Params
end RecordApi
