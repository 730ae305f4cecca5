import RecordApi.Api.Resource

/-!
# Routes

A route serves one method of a resource below a mount point.
-/

namespace RecordApi

structure Route where
  resource : Resource
  method : Method
  /-- The path below which the resource is mounted. -/
  base : String
  guards : List Guard

namespace Route

/-- The path of a route, with a place for the id. -/
def path (route : Route) : String := route.base ++ route.method.path

/-- The id that a path names; it is empty where the route needs none.  A line end behind the
path of a collection does not count. -/
def match? (route : Route) (path : List Char) : Option String :=
  let lead := route.base.toList ++ ['/']
  if lead.isPrefixOf path then
    let rest := path.drop lead.length
    if route.method.isTargeted then
      if rest.isEmpty || rest.contains '/' then none else some (String.ofList rest)
    else if rest.isEmpty || rest == ['\n'] then some "" else none
  else none

def summary (route : Route) : String :=
  let name := route.resource.name
  match route.method with
  | .gets => s!"List {name} records"
  | .get => s!"Get one {name} record"
  | .post => s!"Create {name}"
  | .put => s!"Update {name}"
  | .delete => s!"Delete {name}"

/-- More than the summary tells, for the methods about a collection. -/
def description (route : Route) : String :=
  let name := route.resource.name
  match route.method with
  | .gets => s!"Filter, sort and paginate {name} records"
  | .post => s!"Create a new {name} record"
  | .get | .put | .delete => ""

def tag (route : Route) : String :=
  String.ofList (route.resource.name.toList.map Char.toUpper)

/-- The status of a successful answer. -/
def successStatus (route : Route) : Nat :=
  match route.method with
  | .post => 201
  | .gets | .get | .put | .delete => 200

def activity (route : Route) : String :=
  match route.method with
  | .gets => "api get entities"
  | .get => "api get entity"
  | .post => "api post entity"
  | .put => "api put entity"
  | .delete => "api delete entity"

end Route
end RecordApi
