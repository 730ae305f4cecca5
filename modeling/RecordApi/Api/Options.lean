import RecordApi.Api.Guard
import RecordApi.Api.Method
import RecordApi.Assoc

/-!
# Options of an entity

Which methods an entity has, what guards them, what they show by default and what runs
after them.  Without options an entity has every method and nothing guards it.
-/

namespace RecordApi

/-- Rules for the keys of a body, by key. -/
abbrev Rules := Assoc String

/-- The guards that all entities share. -/
structure SharedGuards where
  auth : Option Guard := none
  admin : Option Guard := none
  /-- Makes a guard from rules. -/
  validation : Option (Rules → Guard) := none

/-- What runs after a method: nothing, one hook, or several hooks in their order. -/
inductive Continuation where
  | none
  | single (hook : Hook)
  | several (hooks : List Hook)

namespace Continuation

instance : Coe (List Hook) Continuation := ⟨several⟩

def hooks : Continuation → List Hook
  | none => []
  | single hook => [hook]
  | several hooks => hooks

end Continuation

structure Options where
  methods : List Method := Method.all
  /-- Methods that the shared `auth` guard protects. -/
  auth : List Method := []
  /-- Methods that the shared `admin` guard protects. -/
  admin : List Method := []
  rules : Method → Rules := fun _ => []
  additional : Method → List Guard := fun _ => []
  defaultFields : Method → Option (List String) := fun _ => none
  defaultRelationFields : Option (Assoc (List String)) := none
  after : Method → Continuation := fun _ => .none
  /-- Keys that a guard may add to a body; no record is looked up by them. -/
  privateKeys : List String := ["_userId", "_role"]

/-- Why routes cannot be made. -/
inductive SetupError where
  | noAuth (entity : String) (method : Method)
  | noAdmin (entity : String) (method : Method)
  | noValidation (entity : String) (method : Method)
  | unregistered (entity : String)
  /-- A mount point lacks its leading slash or ends with a slash. -/
  | badMount (base : String)
  /-- A name breaks the markup of the console. -/
  | unprintable
deriving DecidableEq, Repr

namespace SetupError

def message : SetupError → String
  | .noAuth entity method =>
      s!"'{entity}' guards {method.name} with auth but no auth hook is configured"
  | .noAdmin entity method =>
      s!"'{entity}' guards {method.name} with admin but no admin hook is configured"
  | .noValidation entity method =>
      s!"'{entity}' validates {method.name} but no validation hook is configured"
  | .unregistered entity => s!"Model '{entity}' is not registered"
  | .badMount base => s!"'{base}' is no mount point"
  | .unprintable => "a name breaks the markup of the console"

end SetupError

namespace Options

/-- A shared guard, if the options ask for it. -/
def shared (needed : Bool) (guard : Option Guard) (missing : SetupError) :
    Except SetupError (List Guard) :=
  if needed then
    match guard with
    | some guard => .ok [guard]
    | none => .error missing
  else .ok []

/-- The guards of a method of an entity, in the order in which they run. -/
def guards (options : Options) (hooks : SharedGuards) (entity : String) (method : Method) :
    Except SetupError (List Guard) := do
  let rules := options.rules method
  let auth ← shared (options.auth.contains method) hooks.auth (.noAuth entity method)
  let admin ← shared (options.admin.contains method) hooks.admin (.noAdmin entity method)
  let validation ← shared (!rules.isEmpty) (hooks.validation.map (· rules))
    (.noValidation entity method)
  return Guard.distinct (auth ++ admin ++ validation ++ options.additional method)

def enabled (options : Options) : List Method :=
  Method.all.filter options.methods.contains

def afterHooks (options : Options) (method : Method) : List Hook :=
  (options.after method).hooks

end Options
end RecordApi
