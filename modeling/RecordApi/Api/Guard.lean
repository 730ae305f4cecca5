import RecordApi.Http.Message

/-!
# Guards and hooks

A guard judges a request before it is served: it lets it pass, rejects it, or breaks with
an error of its own.  Guards run one after the other up to the first that does not let the
request pass.  A hook runs after a request was answered with success, with the payload of
the answer.  What guards and hooks did is kept as a list of calls.
-/

namespace RecordApi

/-- What a guard or a hook did. -/
structure Call where
  name : String
  verb : String
  path : String
  payload : Option Value := none

inductive Verdict where
  | passes
  | rejects (rejection : Http.Rejection)
  | breaks (text : String)

structure Guard where
  /-- Guards of one name are one guard. -/
  name : String
  judge : Http.Request → Verdict
  calls : Http.Request → List Call := fun _ => []

structure Hook where
  call : Http.Request → Value → Call

namespace Guard

def distinct : List Guard → List Guard
  | [] => []
  | guard :: rest => guard :: (distinct rest).filter fun other => other.name ≠ guard.name

/-- Runs guards up to the first that does not let a request pass. -/
def run (request : Http.Request) : List Guard → Verdict × List Call
  | [] => (.passes, [])
  | guard :: rest =>
      match guard.judge request with
      | .passes =>
          let (verdict, calls) := run request rest
          (verdict, guard.calls request ++ calls)
      | verdict => (verdict, guard.calls request)

end Guard
end RecordApi
