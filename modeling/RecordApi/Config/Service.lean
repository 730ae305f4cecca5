import RecordApi.Conversion.Reading

/-!
# Configuration of a service

How a service describes itself, and how it answers queries that leave something open.
-/

namespace RecordApi

/-- The version of the library, and of a service that tells no other. -/
def currentVersion : String := "0.1.0"

structure ServiceConfig where
  projectName : String := "autocrud"
  version : String := currentVersion
  description : String := "CRUD routes generated from SQLAlchemy models"
  author : Option String := none
  email : Option String := none
  license : Option (Assoc String) := none
  /-- Answers tell what went wrong inside. -/
  debugMode : Bool := false
  merge : Filter.MergePolicy := .lastWins
  /-- A filter on a relation leaves out rows without a related row. -/
  requireFiltered : Bool := true
  defaultPage : Int := 1
  defaultPageSize : Int := 10

namespace ServiceConfig

open Conversion

def ofMap (entries : Assoc Value) : Except (List Issue) ServiceConfig :=
  let base : ServiceConfig := {}
  let project := Reading.field entries "project_name" base.projectName text
  let version := Reading.field entries "version" base.version text
  let description := Reading.field entries "description" base.description text
  let author := Reading.field entries "author" base.author (optional text)
  let email := Reading.field entries "email" base.email (optional text)
  let license := Reading.nested entries "license_info" base.license fun v =>
    if v.isNull then .ok none else (textMap v).map some
  let debug := Reading.field entries "debug_mode" base.debugMode truth
  let merge := Reading.field entries "filter_merge" base.merge mergePolicy
  let required := Reading.field entries "require_filtered_relations" base.requireFiltered truth
  let page := Reading.field entries "default_page" base.defaultPage (integerFrom 1)
  let size := Reading.field entries "default_page_size" base.defaultPageSize (integerFrom 1)
  Reading.conclude
    (project.issues ++ version.issues ++ description.issues ++ author.issues ++ email.issues ++
      license.issues ++ debug.issues ++ merge.issues ++ required.issues ++ page.issues ++
      size.issues)
    ⟨project.value, version.value, description.value, author.value, email.value,
      license.value, debug.value, merge.value, required.value, page.value, size.value⟩

def entries (config : ServiceConfig) : Assoc Value := [
  ("project_name", .text config.projectName),
  ("version", .text config.version),
  ("description", .text config.description),
  ("author", Value.ofOption .text config.author),
  ("email", Value.ofOption .text config.email),
  ("license_info", Value.ofOption (fun l => .map (Assoc.mapValues .text l)) config.license),
  ("debug_mode", .bool config.debugMode),
  ("filter_merge", .text config.merge.name),
  ("require_filtered_relations", .bool config.requireFiltered),
  ("default_page", .int config.defaultPage),
  ("default_page_size", .int config.defaultPageSize)]

end ServiceConfig
end RecordApi
