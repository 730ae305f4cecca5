import RecordApi.Conversion.Problem
import RecordApi.Json.Writer

/-!
# Requests and responses

A request has a verb, a decoded path, the items of its query, headers and a body.  The body
of a response is a value, a text, or the issues that were found in the body of its request.
-/

namespace RecordApi
namespace Http

abbrev Headers := List (String × String)

/-- The value of the first header of a name, in any letter case. -/
def Headers.get? (headers : Headers) (name : String) : Option String :=
  let lower (s : String) : List Char := s.toList.map Char.toLower
  (headers.find? fun header => lower header.1 == lower name).map (·.2)

structure Request where
  verb : String
  path : List Char
  items : List (String × String) := []
  headers : Headers := []
  body : String := ""

inductive Body where
  | empty
  | text (s : String)
  | json (value : Value)
  /-- What is wrong with the body of the request. -/
  | issues (found : List Issue)

structure Response where
  status : Nat
  headers : Headers := []
  body : Body := .empty
  /-- Only the head is sent. -/
  withholdsBody : Bool := false

/-- An answer that ends a request early. -/
structure Rejection where
  status : Nat
  detail : Value
  headers : Headers := []

namespace Response

/-- The type of the body, if there is a body. -/
def contentType? (response : Response) : Option String :=
  match response.body with
  | .empty => none
  | .text _ => some "text/plain; charset=utf-8"
  | .json _ | .issues _ => some "application/json"

def allHeaders (response : Response) : Headers :=
  response.headers ++ (response.contentType?.map fun type => ("content-type", type)).toList

def ofValue (status : Nat) (value : Value) : Response :=
  { status, body := .json value }

def ofDetail (rejection : Rejection) : Response :=
  { status := rejection.status
    headers := rejection.headers
    body := .json (.map [("detail", rejection.detail)]) }

/-- The response as it is sent for a verb. -/
def forVerb (verb : String) (response : Response) : Response :=
  { response with withholdsBody := verb == "HEAD" }

end Response
end Http
end RecordApi
