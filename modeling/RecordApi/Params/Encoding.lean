import RecordApi.Params.Brackets
import RecordApi.Params.Decode

/-!
# Encodings of request parameters

A parameter may be given in bracket notation or as JSON, a list of names also by repeated
keys, between commas or by keys with empty brackets.  Each parameter of a request may be given
in another way, and the items of different parameters may stand in any order.
-/

namespace RecordApi
namespace Params

/-- The parameter that an item of a query string belongs to. -/
def rootOf (item : String × String) : String :=
  (Key.split item.1).headD ""

def itemsOf (parameter : String) (items : List (String × String)) : List (String × String) :=
  items.filter fun item => rootOf item == parameter

/-- A name that may stand by itself or between commas. -/
def isListable (name : String) : Bool :=
  !name.isEmpty && !name.toList.contains ',' &&
    Text.trimChars name.toList == name.toList &&
    name.toList.head? != some '\x7b' && name.toList.head? != some '['

inductive EncodesValue (parameter : String) (value : Value) : List (String × String) → Prop
  | brackets : EncodesValue parameter value (writeItems [(parameter, value)])
  | json {text : String} (read : Json.read text.toList = .ok value) :
      EncodesValue parameter value [(parameter, text)]

inductive EncodesNames (parameter : String) (names : List String) :
    List (String × String) → Prop
  | value {items : List (String × String)}
      (encodes : EncodesValue parameter (.ofTexts names) items) :
      EncodesNames parameter names items
  | repeated (listable : ∀ name ∈ names, isListable name = true) :
      EncodesNames parameter names (names.map fun name => (parameter, name))
  | commas (listable : ∀ name ∈ names, isListable name = true) :
      EncodesNames parameter names [(parameter, ",".intercalate names)]
  | appended : EncodesNames parameter names (names.map fun name => (parameter ++ "[]", name))

/-- A parameter is left out, or some items encode it. -/
def Gives {α : Type} (encodes : α → List (String × String) → Prop) :
    Option α → List (String × String) → Prop
  | none, items => items = []
  | some a, items => encodes a items

/-- What the parameters of a request say. -/
structure Contents where
  filters : Option (Assoc Value) := none
  sort : Option String := none
  page : Option String := none
  pageSize : Option String := none
  fields : Option (List String) := none
  relations : Option (List String) := none
  relationFields : Option (Assoc (List String)) := none
  relationFilters : Option (Assoc (Assoc Value)) := none
  relationSort : Option (Assoc String) := none

namespace Contents

def parameters : List String :=
  ["filters", "sort", "page", "pageSize", "fields", "relations", "relationFields",
    "relationFilters", "relationSort"]

def relationFieldsValue (entries : Assoc (List String)) : Value :=
  .map (Assoc.mapValues Value.ofTexts entries)

def relationFiltersValue (entries : Assoc (Assoc Value)) : Value :=
  .map (Assoc.mapValues Value.map entries)

def relationSortValue (entries : Assoc String) : Value :=
  .map (Assoc.mapValues Value.text entries)

/-- All that a request says can be told in bracket notation. -/
structure Tellable (contents : Contents) : Prop where
  filters : ∀ entries ∈ contents.filters, (Value.map entries).Bracketable
  fields : ∀ names ∈ contents.fields, (Value.ofTexts names).Bracketable
  relations : ∀ names ∈ contents.relations, (Value.ofTexts names).Bracketable
  relationFields : ∀ entries ∈ contents.relationFields, (relationFieldsValue entries).Bracketable
  relationFilters : ∀ entries ∈ contents.relationFilters,
    (relationFiltersValue entries).Bracketable
  relationSort : ∀ entries ∈ contents.relationSort, (relationSortValue entries).Bracketable

/-- The items of each parameter, in their order, encode what the request says by it. -/
structure EncodedBy (contents : Contents) (items : List (String × String)) : Prop where
  known : ∀ item ∈ items, rootOf item ∈ parameters
  filters : Gives (fun entries => EncodesValue "filters" (.map entries)) contents.filters
    (itemsOf "filters" items)
  sort : Gives (fun text items => items = [("sort", text)]) contents.sort (itemsOf "sort" items)
  page : Gives (fun text items => items = [("page", text)]) contents.page (itemsOf "page" items)
  pageSize : Gives (fun text items => items = [("pageSize", text)]) contents.pageSize
    (itemsOf "pageSize" items)
  fields : Gives (EncodesNames "fields") contents.fields (itemsOf "fields" items)
  relations : Gives (EncodesNames "relations") contents.relations (itemsOf "relations" items)
  relationFields : Gives (fun entries => EncodesValue "relationFields" (relationFieldsValue entries))
    contents.relationFields (itemsOf "relationFields" items)
  relationFilters :
    Gives (fun entries => EncodesValue "relationFilters" (relationFiltersValue entries))
      contents.relationFilters (itemsOf "relationFilters" items)
  relationSort : Gives (fun entries => EncodesValue "relationSort" (relationSortValue entries))
    contents.relationSort (itemsOf "relationSort" items)

def query (contents : Contents) : RequestQuery where
  filters := Value.ofOption Value.map contents.filters
  sort := Value.ofOption Value.text contents.sort
  page := Value.ofOption Value.text contents.page
  pageSize := Value.ofOption Value.text contents.pageSize
  fields := contents.fields
  relations := contents.relations
  relationFields := contents.relationFields
  relationFilters := contents.relationFilters.map (Assoc.mapValues Value.map)
  relationSort := contents.relationSort.map (Assoc.mapValues Value.text)

end Contents
end Params
end RecordApi
