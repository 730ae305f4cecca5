import RecordApi.Http.Message

/-!
# Requests from other origins

Every origin may send every request, with credentials.  A browser that asks beforehand is
answered at once; other responses to a request that names its origin grant access to it.
-/

namespace RecordApi
namespace Http
namespace Cors

def verbs : List String := ["DELETE", "GET", "HEAD", "OPTIONS", "PATCH", "POST", "PUT"]

def credentials : String × String := ("access-control-allow-credentials", "true")

def allowedOrigin (origin : String) : String × String :=
  ("access-control-allow-origin", origin)

/-- The answer to a browser that asks whether it may send a request. -/
def preflight? (request : Request) : Option Response := do
  let origin ← request.headers.get? "origin"
  if request.verb ≠ "OPTIONS" then none
  let verb ← request.headers.get? "access-control-request-method"
  let requested :=
    (request.headers.get? "access-control-request-headers").map fun names =>
      ("access-control-allow-headers", names)
  let headers := [allowedOrigin origin,
    ("access-control-allow-methods", ", ".intercalate verbs),
    ("access-control-max-age", "600"), credentials] ++ requested.toList
  return if verbs.contains verb then { status := 200, headers, body := .text "OK" }
    else { status := 400, headers, body := .text "Disallowed CORS method" }

/-- The headers by which a response grants access: to every origin, or to the origin of a
request that carries cookies. -/
def grant (request : Request) (response : Response) : Response :=
  match request.headers.get? "origin" with
  | none => response
  | some origin =>
      let shown := if (request.headers.get? "cookie").isSome then origin else "*"
      { response with headers := response.headers ++ [allowedOrigin shown, credentials] }

end Cors
end Http
end RecordApi
