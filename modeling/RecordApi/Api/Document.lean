import RecordApi.Api.Application

/-!
# Describing an application

The document of an application tells what it is, lists the operations of its routes, and
gives the shapes of the payloads that they read and answer.
-/

namespace RecordApi
namespace Document

/-! ## Shapes -/

inductive Shape where
  | scalar (type : String) (format : Option String)
  | array (item : String)
  /-- A schema by its name. -/
  | reference (name : String)
  | oneOf (alternatives : List (String × Option String))

namespace Shape

def scalarText (type : String) : Option String → String
  | some format => type ++ ":" ++ format
  | none => type

def text : Shape → String
  | .scalar type format => scalarText type format
  | .array item => "[" ++ item ++ "]"
  | .reference name => name
  | .oneOf alternatives => "|".intercalate (alternatives.map fun a => scalarText a.1 a.2)

end Shape

/-- The types that stand for the values of a kind; a decimal number is written as a text and
may be given as either. -/
def types (isWritten : Bool) : Kind → List (String × Option String)
  | .int => [("integer", none)]
  | .float => [("number", none)]
  | .decimal => if isWritten then [("number", none), ("string", none)] else [("string", none)]
  | .bool => [("boolean", none)]
  | .date => [("string", some "date")]
  | .timestamp => [("string", some "date-time")]
  | .uuid => [("string", some "uuid")]
  | .text => [("string", none)]
  | .bytes => [("string", some "binary")]
  | .untyped => []

structure Entry where
  name : String
  properties : List (String × Shape)
  /-- The properties that are always there. -/
  required : List String := []

/-- The name of a resource with its first letter as a capital. -/
def capitalized (name : String) : String :=
  match name.toList with
  | [] => ""
  | c :: rest => String.ofList (c.toUpper :: rest.map Char.toLower)

/-- The columns of a model, all of which may be left out. -/
def columns (isWritten : Bool) (model : Model) : List (String × Shape) :=
  model.columns.map fun column =>
    (column.key, .oneOf (types isWritten column.type.kind ++ [("null", none)]))

def writeName (name : String) : String := capitalized name ++ "Write"
def readName (name : String) : String := capitalized name ++ "Model"
def pageName (name : String) : String := capitalized name ++ "Page"

def pageMeta : Entry where
  name := "PageMeta"
  properties := ["page", "pageSize", "pageCount", "total"].map fun key =>
    (key, .scalar "integer" none)
  required := ["page", "pageSize", "pageCount", "total"]

def writeEntry (r : Resource) : Entry where
  name := writeName r.name
  properties := columns true r.store.model

def readEntry (r : Resource) : Entry where
  name := readName r.name
  properties := columns false r.store.model

def pageEntry (r : Resource) : Entry where
  name := pageName r.name
  properties := [("data", .array (readName r.name)), ("meta", .reference pageMeta.name)]
  required := ["data", "meta"]

def entries (route : Route) : List Entry :=
  let r := route.resource
  match route.method with
  | .gets => [readEntry r, pageEntry r, pageMeta]
  | .post | .put => [readEntry r, writeEntry r]
  | .get | .delete => [readEntry r]

def distinctEntries (all : List Entry) : List Entry :=
  all.foldl (fun kept next =>
    if kept.any (·.name == next.name) then kept else kept ++ [next]) []

/-! ## Operations -/

structure Operation where
  path : String
  verb : String
  summary : String
  description : Option String
  tags : List String
  statuses : List Nat

/-- An operation whose request has an id or a body may answer that it is invalid. -/
def operation (route : Route) : Operation where
  path := route.path
  verb := String.ofList (route.method.verb.toList.map Char.toLower)
  summary := route.summary
  description := if route.description.isEmpty then none else some route.description
  tags := [route.tag]
  statuses := route.successStatus ::
    if route.method.isTargeted || route.method.hasBody then [422] else []

def sameOperation (a b : Operation) : Bool :=
  a.path == b.path && a.verb == b.verb

/-- The operations by path and verb; of two for one path and verb the later counts. -/
def routeOperations (routes : List Route) : List Operation :=
  let all := (routes.map operation).foldl
    (fun kept next => kept.filter (!sameOperation next ·) ++ [next]) []
  all.mergeSort fun a b => a.path < b.path || (a.path == b.path && a.verb ≤ b.verb)

/-! ## The document -/

/-- An address without a path, with the slash that stands for its path. -/
def withPath (url : String) : String :=
  let cs := url.toList
  let rest := (["http://", "https://"].findSome? fun lead =>
    if lead.toList.isPrefixOf cs then some (cs.drop lead.length) else none).getD ['/']
  if rest.any fun c => c == '/' || c == '?' || c == '#' then url else url ++ "/"

/-- What an application tells about itself. -/
def serviceInfo (config : ServiceConfig) : Assoc Value :=
  let given (s : Option String) : Option String := s.filter (!·.isEmpty)
  let description := (given (some config.description)).map fun s => ("description", .text s)
  let contact := (given config.author).map fun name =>
    ("contact", Value.map (("name", .text name) ::
      (config.email.map fun email => ("email", Value.text email)).toList))
  let license := (config.license.filter (!·.isEmpty)).map fun entries =>
    ("license", Value.map (entries.map fun (key, s) =>
      (key, .text (if key == "url" then withPath s else s))))
  [("title", .text config.projectName), ("version", .text config.version)] ++
    description.toList ++ contact.toList ++ license.toList

/-- A license must have a name. -/
def issues (config : ServiceConfig) : List Issue :=
  match config.license with
  | some (entry :: rest) =>
      if Assoc.has (entry :: rest) "name" then [] else [⟨["info", "license", "name"], .missing⟩]
  | _ => []

end Document

structure Document where
  info : Assoc Value
  operations : List Document.Operation
  schemas : List Document.Entry

namespace Document

/-- The document of an application; there is none if what it tells about itself is not
complete. -/
def ofApplication (app : Application) : Except (List Issue) Document :=
  Reading.conclude (issues app.config) {
    info := serviceInfo app.config
    operations := routeOperations app.routes
    schemas := distinctEntries (app.routes.flatMap entries) }

end Document
end RecordApi
