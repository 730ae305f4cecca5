import RecordApi.Conversion.Field
import RecordApi.Conversion.Reading
import RecordApi.Http.Message
import RecordApi.Json.Reader
import RecordApi.Schema.Model

/-!
# Payloads

The body of a request that writes is a JSON map from fields to values.  Each value is
converted to the kind of its column; keys that are no columns are dropped, and columns that
are not given stay out of the payload.
-/

namespace RecordApi

/-- What the body of a request turns out to be. -/
inductive Given where
  | absent
  /-- The body is not announced as JSON. -/
  | octets
  | value (v : Value)

namespace Given

/-- Why a body is not even read. -/
inductive Error where
  | malformed
  /-- An integer of too many digits. -/
  | unreadable
deriving DecidableEq, Repr

/-- A media type announces JSON: `application/json` or a subtype that ends in `+json`. -/
def announcesJson (type : String) : Bool :=
  let cs := (Text.trimChars (type.toList.takeWhile (· ≠ ';'))).map Char.toLower
  match Text.piecesOf '/' cs with
  | [kind, subtype] =>
      kind == "application".toList &&
        (subtype == "json".toList || "+json".toList.isSuffixOf subtype)
  | _ => false

def ofRequest (request : Http.Request) : Except Error Given :=
  let type := (request.headers.get? "content-type").getD ""
  if request.body.isEmpty then .ok .absent
  else if type.isEmpty || announcesJson type then
    let cs := request.body.toList
    match Json.read (if cs.head? = some '\ufeff' then cs.drop 1 else cs) with
    | .ok .null => .ok .absent
    | .ok v => .ok (.value v)
    | .error .malformed => .error .malformed
    | .error .integerTooLong => .error .unreadable
  else .ok .octets

end Given

namespace Payload

/-- The issues of a body lie below this key. -/
def root : String := "body"

def ofGiven (model : Model) : Given → Except (List Issue) (Assoc Value)
  | .absent => .error [⟨[root], .missing⟩]
  | .octets => .error [⟨[root], .notObject⟩]
  | .value (.map entries) =>
      let converted := model.columns.filterMap fun column =>
        (Assoc.get? entries column.key).map fun v =>
          (column.key, Conversion.ofKind column.type.kind v)
      let issues := converted.filterMap fun (key, result) =>
        match result with
        | .ok _ => none
        | .error problem => some ⟨[root, key], problem⟩
      Reading.conclude issues (converted.filterMap fun (key, result) =>
        match result with
        | .ok v => some (key, v)
        | .error _ => none)
  | .value _ => .error [⟨[root], .notObject⟩]

end Payload
end RecordApi
