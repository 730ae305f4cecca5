import RecordApi.Query.Filter
import RecordApi.Query.Order
import RecordApi.Query.Page

/-!
# Building queries

`RequestQuery` is what a request asks for, already decoded.  A `QueryBuilder` turns it
into a `Query`: the predicate, order, projection, inclusions and slice that a store
runs.
-/

namespace RecordApi

/-- A related entity to be loaded along with the rows of a query. -/
structure Inclusion where
  relation : String
  /-- The model registered under the relation's name, if there is one. -/
  model : Option String
  attributes : Option (List String)
  filter : Option Predicate
  order : Option (List OrderItem)
  /-- Rows without a related row on which the filter holds are left out. -/
  required : Bool

/-- Everything that a store needs to run one query. -/
structure Query where
  filter : Option Predicate := none
  order : Option (List OrderItem) := none
  attributes : Option (List String) := none
  inclusions : Option (List Inclusion) := none
  limit : Option Int := none
  offset : Option Int := none

structure RequestQuery where
  filters : Value := .null
  sort : Value := .null
  page : Value := .null
  pageSize : Value := .null
  fields : Option (List String) := none
  relations : Option (List String) := none
  relationFields : Option (Assoc (List String)) := none
  relationFilters : Option (Assoc Value) := none
  relationSort : Option (Assoc Value) := none

structure QueryBuilder where
  /-- The registered models, from the name of an entity to the name of its model. -/
  registry : Assoc String
  merge : Filter.MergePolicy := .lastWins
  defaultPage : Int := 1
  defaultPageSize : Int := 10
  requireFiltered : Bool := true

/-- What a method or a request leaves out. -/
structure Defaults where
  fields : Option (List String) := none
  relationFields : Option (Assoc (List String)) := none

namespace Inclusion

/-- The inclusion of one relation, with its own projection, predicate and order. -/
def build (builder : QueryBuilder) (query : RequestQuery)
    (relationFields : Option (Assoc (List String))) (relation : String) :
    Except Filter.Error Inclusion := do
  let filter ←
    match query.relationFilters.bind (·.get? relation) with
    | some filter => Filter.compile builder.merge filter
    | none => .ok none
  return {
    relation
    model := builder.registry.get? relation
    attributes := relationFields.bind (·.get? relation)
    filter
    order := (query.relationSort.bind (·.get? relation)).bind SortOrder.compile
    required := builder.requireFiltered && filter.isSome
  }

/-- One inclusion per requested relation, in the order of the request. -/
def resolve (builder : QueryBuilder) (query : RequestQuery)
    (relationFields : Option (Assoc (List String))) :
    Except Filter.Error (Option (List Inclusion)) :=
  match query.relations with
  | none => .ok none
  | some relations => (relations.mapM (build builder query relationFields)).map some

end Inclusion

namespace QueryBuilder

/-- The requested fields, or the default ones when none are requested. -/
def attributes (fields defaults : Option (List String)) : Option (List String) :=
  match fields with
  | some (field :: rest) => some (field :: rest)
  | _ =>
      match defaults with
      | some (field :: rest) => some (field :: rest)
      | _ => none

def inclusions (builder : QueryBuilder) (query : RequestQuery) (defaults : Defaults) :
    Except Filter.Error (Option (List Inclusion)) :=
  let relationFields :=
    match query.relationFields with
    | some (entry :: rest) => some (entry :: rest)
    | _ => defaults.relationFields
  Inclusion.resolve builder query relationFields

/-- The query of a list request, and the page that it shows. -/
def forList (builder : QueryBuilder) (query : RequestQuery) (defaults : Defaults) :
    Except Filter.Error (Query × Page) := do
  let page := Page.compute query.page query.pageSize builder.defaultPage builder.defaultPageSize
  let filter ← Filter.compile builder.merge query.filters
  let inclusions ← builder.inclusions query defaults
  return ({
    filter
    order := SortOrder.compile query.sort
    attributes := attributes query.fields defaults.fields
    inclusions
    limit := some page.limit
    offset := some page.offset
  }, page)

/-- The query for a single entity; filters, sort and page of the request do not count. -/
def forEntity (builder : QueryBuilder) (query : RequestQuery) (filter : Option Predicate)
    (defaults : Defaults) : Except Filter.Error Query := do
  let inclusions ← builder.inclusions query defaults
  return {
    filter
    attributes := attributes query.fields defaults.fields
    inclusions
  }

end QueryBuilder
end RecordApi
