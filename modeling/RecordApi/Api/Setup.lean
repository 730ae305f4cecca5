import RecordApi.Api.Application

/-!
# Setting up an application

The routes of registered entities are made one entity after the other, each below a mount
point, and the console tells what was made.
-/

namespace RecordApi

structure Mount where
  resource : Resource
  base : String

structure Setup where
  schema : Schema
  registry : Registry
  config : ServiceConfig := {}
  /-- The options of single entities; the others have the default ones. -/
  options : Assoc Options := []
  hooks : SharedGuards := {}
  handlesErrors : Bool := false
  /-- Where the setup and the requests are logged. -/
  logger : Console.Logger := {}

namespace Setup

def resource (setup : Setup) (entity : String) : Except SetupError Resource :=
  match (setup.registry.get? entity).bind setup.schema.model? with
  | some model => .ok {
      store := ⟨setup.schema, setup.registry, entity, model⟩
      options := (setup.options.get? entity).getD {}
      config := setup.config }
  | none => .error (.unregistered entity)

/-- A mount point is empty, or it starts with a slash and does not end with one. -/
def isMountPoint (base : String) : Bool :=
  let cs := base.toList
  cs.isEmpty || (cs.head? == some '/' && cs.getLast? != some '/')

/-- The mount of an entity, by default below its name. -/
def mount (setup : Setup) (entity : String) (base : Option String) : Except SetupError Mount := do
  let resource ← setup.resource entity
  let base := base.getD ("/" ++ entity)
  if isMountPoint base then return ⟨resource, base⟩ else .error (.badMount base)

def routes (setup : Setup) (mount : Mount) : Except SetupError (List Route) :=
  let resource := mount.resource
  resource.options.enabled.mapM fun method => do
    let guards ← resource.options.guards setup.hooks resource.name method
    return ⟨resource, method, mount.base, guards⟩

/-- What the console tells about the routes of an entity. -/
def madeRoutes (entity : String) : Console.Step :=
  let name := Palette.model.markup entity
  .message .success s!"Generated CRUD routes for {name}"

/-- What the console tells about an entity whose routes are made. -/
def makingRoutes (entity : String) : List Console.Step :=
  let name := Palette.table.markup entity
  [.message .info s!"Generating CRUD for: {name}", .indented [madeRoutes entity]]

/-- The number of routes of each entity. -/
def routeTable (made : List (Mount × List Route)) : Console.Step :=
  .grid ["Model", "Prefix", "Routes"]
    (made.map fun (mount, routes) => [mount.resource.name, mount.base, toString routes.length])

/-- Mounts entities and makes their routes. -/
def make (setup : Setup) (entities : List (String × Option String)) :
    Except SetupError (List (Mount × List Route)) :=
  entities.mapM fun (entity, base) => do
    let mount ← setup.mount entity base
    return (mount, ← setup.routes mount)

/-- What the console tells before routes are made. -/
def opening (setup : Setup) : List Console.Step :=
  if setup.handlesErrors then [.message .success "Configured global error handlers"] else []

/-- The application of some routes, and what was logged while it was set up. -/
def finish (setup : Setup) (made : List (Mount × List Route)) (steps : List Console.Step) :
    Except SetupError (Application × List String) :=
  match setup.logger.runAll (setup.opening ++ steps) with
  | (_, .raised) => .error .unprintable
  | (logger, .completed) => .ok ({
      routes := made.flatMap (·.2)
      config := setup.config
      handlesErrors := setup.handlesErrors
      logger := setup.logger }, logger.output)

def application (setup : Setup) : Except SetupError (Application × List String) := do
  let entities := setup.registry.keys
  let made ← setup.make (entities.map fun entity => (entity, none))
  setup.finish made ([.section "Generating Table Routes"] ++ entities.flatMap makingRoutes ++
    [routeTable made, .message .success s!"Generated table routes for {entities.length} models"])

/-- An application of some entities below given mount points. -/
def mounted (setup : Setup) (entities : List (String × Option String)) :
    Except SetupError (Application × List String) := do
  let made ← setup.make entities
  setup.finish made (entities.map fun entity => madeRoutes entity.1)

end Setup
end RecordApi
