import RecordApi.Api.Application
import RecordApi.Sample.Rows

/-!
# A sample service

The entities of the sample schema, each with all methods below the name of its table and
with no guard.
-/

namespace RecordApi
namespace Sample

def resource (model : Model) : Resource where
  store := ⟨schema, registry, model.table, model⟩

def route (model : Model) (method : Method) : Route :=
  ⟨resource model, method, "/" ++ model.table, []⟩

/-- An application of some models. -/
def service (models : List Model) : Application where
  routes := models.flatMap fun model => Method.all.map (route model)

/-- The text of an answer in JSON. -/
def answerText (exchange : Exchange) : String :=
  match exchange.response.body with
  | .json value => Json.write .compact value
  | _ => ""

end Sample
end RecordApi
