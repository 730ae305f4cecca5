import RecordApi.Conversion.Field
import RecordApi.Query.Filter

/-!
# Reading fields out of a map

The fields of a configuration are read one by one, and the problems of all of them are
told together.  A field that is not given takes its default.
-/

namespace RecordApi

/-- A value that was read, and what was wrong with what was given. -/
structure Reading (α : Type) where
  value : α
  issues : List Issue := []

namespace Reading

/-- Reads a field by a conversion that may find several issues below it. -/
def nested {α : Type} (entries : Assoc Value) (name : String) (default : α)
    (convert : Value → Except (List Issue) α) : Reading α :=
  match entries.get? name with
  | none => ⟨default, []⟩
  | some v =>
      match convert v with
      | .ok a => ⟨a, []⟩
      | .error issues => ⟨default, issues.map fun issue => { issue with path := name :: issue.path }⟩

def field {α : Type} (entries : Assoc Value) (name : String) (default : α)
    (convert : Value → Except Problem α) : Reading α :=
  nested entries name default fun v => (convert v).mapError fun problem => [⟨[], problem⟩]

/-- The value that was built, if nothing was wrong with its parts. -/
def conclude {α : Type} (issues : List Issue) (value : α) : Except (List Issue) α :=
  if issues.isEmpty then .ok value else .error issues

end Reading

namespace Conversion

/-- A map whose values are all texts. -/
def textMap : Value → Except (List Issue) (Assoc String)
  | .map entries =>
      let issues := entries.flatMap fun (key, v) =>
        match text v with
        | .ok _ => []
        | .error problem => [⟨[key], problem⟩]
      Reading.conclude issues (entries.filterMap fun (key, v) =>
        match v with
        | .text s => some (key, s)
        | _ => none)
  | _ => .error [⟨[], .notMap⟩]

def mergePolicy : Value → Except Problem Filter.MergePolicy
  | .text s =>
      match Filter.MergePolicy.ofName? s with
      | some policy => .ok policy
      | none => .error .notChoice
  | _ => .error .notChoice

end Conversion
end RecordApi
