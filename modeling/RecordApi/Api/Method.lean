/-!
# Methods

The five operations that an entity may have, each with its verb and its path below the
entity: the whole collection, or one record by its id.
-/

namespace RecordApi

inductive Method where
  /-- A page of records. -/
  | gets
  | get
  | post
  | put
  | delete
deriving DecidableEq, Repr

namespace Method

/-- All methods, in the order in which their routes are made. -/
def all : List Method := [.gets, .get, .post, .put, .delete]

def name : Method → String
  | .gets => "gets"
  | .get => "get"
  | .post => "post"
  | .put => "put"
  | .delete => "delete"

def ofName? (name : String) : Option Method :=
  all.find? fun method => method.name == name

def verb : Method → String
  | .gets | .get => "GET"
  | .post => "POST"
  | .put => "PUT"
  | .delete => "DELETE"

/-- The method is about one record, which a path names. -/
def isTargeted : Method → Bool
  | .gets | .post => false
  | .get | .put | .delete => true

def hasBody : Method → Bool
  | .post | .put => true
  | .gets | .get | .delete => false

/-- The path of one record, with a place for its id. -/
def targetPath : String := "/\x7bid\x7d"

def path (method : Method) (target : String := targetPath) : String :=
  if method.isTargeted then target else "/"

theorem ofName?_name (method : Method) : ofName? method.name = some method := by
  cases method <;> decide

end Method
end RecordApi
