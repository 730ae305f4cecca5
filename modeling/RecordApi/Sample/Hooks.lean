import RecordApi.Api.Options
import RecordApi.Json.Reader

/-!
# Sample guards and hooks

Guards that look at the headers of a request or at the keys of its body, one that only keeps
a record, one that breaks and one that makes tea.
-/

namespace RecordApi
namespace Sample

/-- The path of a request as its address shows it: a question mark or a number sign ends it,
and line ends and tabs are left out. -/
def shownPath (request : Http.Request) : String :=
  String.ofList ((request.path.takeWhile fun c => c ≠ '?' && c ≠ '#').filter fun c =>
    c ≠ '\t' && c ≠ '\n' && c ≠ '\r')

/-- Passes requests on which a test says yes. -/
def passing (name : String) (test : Http.Request → Bool) (otherwise : Http.Rejection) : Guard where
  name
  judge request := if test request then .passes else .rejects otherwise

def auth : Guard :=
  passing "auth" (fun request => request.headers.get? "authorization" == some "Bearer secret")
    ⟨401, .text "Unauthorized", [("www-authenticate", "Bearer")]⟩

def admin : Guard :=
  passing "admin" (fun request => request.headers.get? "x-role" == some "admin")
    ⟨403, .text "Forbidden", []⟩

def bodyKeys (request : Http.Request) : List String :=
  match Json.read request.body.toList with
  | .ok (.map entries) => Assoc.keys entries
  | _ => []

/-- Rejects a body that lacks required keys. -/
def validation (rules : Rules) : Guard where
  name := "validation"
  judge request :=
    let required := (rules.filter fun rule => rule.2 == "required").map (·.1)
    match required.filter fun key => !(bodyKeys request).contains key with
    | [] => .passes
    | missing => .rejects ⟨422, .text ("missing " ++ ",".intercalate missing), []⟩

/-- Keeps a record of every request. -/
def audit : Guard where
  name := "audit"
  judge _ := .passes
  calls request := [{ name := "audit", verb := request.verb, path := shownPath request }]

def boom : Guard where
  name := "boom"
  judge _ := .breaks "boom"

def teapot : Guard where
  name := "teapot"
  judge _ := .rejects ⟨418, .map [("tea", .text "pot")], [("x-tea", "green")]⟩

/-- The further guards by their names. -/
def guard? (name : String) : Option Guard :=
  [audit, boom, teapot].find? fun guard => guard.name == name

/-- A hook that keeps a record of payloads under its name. -/
def hook (name : String) : Hook where
  call request payload :=
    { name, verb := request.verb, path := shownPath request, payload := some payload }

end Sample
end RecordApi
