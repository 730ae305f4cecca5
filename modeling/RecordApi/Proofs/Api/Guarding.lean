import RecordApi.Api.Setup
import RecordApi.Proofs.Api.Calls
import RecordApi.Proofs.Steps

/-!
# Guards hold

The routes of an entity are made exactly when every guard that its options ask for has a hook.
The route of a method then has all of these guards, and a request that one of them rejects gets
no further: it is answered by a guard, or before, and neither the database nor a hook sees it.
-/

namespace RecordApi

open Http Steps

namespace Guard

variable {request : Request} {guards : List Guard}

/-- A name stands for one guard. -/
def NamesTell (guards : List Guard) : Prop :=
  ∀ guard ∈ guards, ∀ other ∈ guards, guard.name = other.name → guard = other

/-- Whoever rejects a request does not answer it with a status of success. -/
def Refuse (guards : List Guard) (request : Request) : Prop :=
  ∀ guard ∈ guards, ∀ rejection, guard.judge request = .rejects rejection →
    ¬ (200 ≤ rejection.status ∧ rejection.status < 300)

theorem mem_of_mem_distinct {guard : Guard} (h : guard ∈ distinct guards) : guard ∈ guards := by
  induction guards with
  | nil => cases h
  | cons first rest ih =>
      rcases List.mem_cons.mp h with rfl | hrest
      · exact List.mem_cons_self
      · exact List.mem_cons_of_mem first (ih (List.mem_filter.mp hrest).1)

/-- A guard that is left out has the name of one that is kept. -/
theorem exists_kept
    {guard : Guard}
    (h : guard ∈ guards) :
    ∃ kept ∈ distinct guards, kept.name = guard.name := by
  induction guards with
  | nil => cases h
  | cons first rest ih =>
      rcases List.mem_cons.mp h with rfl | hrest
      · exact ⟨guard, List.mem_cons_self, rfl⟩
      · rcases ih hrest with ⟨kept, hkept, hname⟩
        by_cases hfirst : first.name = guard.name
        · exact ⟨first, List.mem_cons_self, hfirst⟩
        · refine ⟨kept, List.mem_cons_of_mem first (List.mem_filter.mpr ⟨hkept, ?_⟩), hname⟩
          rw [hname]
          simpa using Ne.symm hfirst

theorem mem_distinct
    {guard : Guard}
    (hnames : NamesTell guards) (h : guard ∈ guards) :
    guard ∈ distinct guards := by
  rcases exists_kept h with ⟨kept, hkept, hname⟩
  rw [← hnames kept (mem_of_mem_distinct hkept) guard h hname]
  exact hkept

/-- A verdict that does not let a request pass is that of a guard. -/
theorem exists_judge_of_run
    {verdict : Verdict} {calls : List Call}
    (hverdict : verdict ≠ .passes)
    (h : run request guards = (verdict, calls)) :
    ∃ guard ∈ guards, guard.judge request = verdict := by
  induction guards generalizing calls with
  | nil =>
      cases h
      exact absurd rfl hverdict
  | cons first rest ih =>
      unfold run at h
      split at h
      · rcases ih (Prod.ext (Prod.mk.inj h).1 rfl) with ⟨guard, hguard, hjudge⟩
        exact ⟨guard, List.mem_cons_of_mem first hguard, hjudge⟩
      · exact ⟨first, List.mem_cons_self, (Prod.mk.inj h).1⟩

/-- A request that passes guards passes each of them. -/
theorem judge_of_run_passes
    {calls : List Call}
    (h : run request guards = (.passes, calls)) :
    ∀ guard ∈ guards, guard.judge request = .passes := by
  induction guards generalizing calls with
  | nil => exact fun _ hguard => absurd hguard List.not_mem_nil
  | cons first rest ih =>
      unfold run at h
      split at h
      · rename_i hfirst
        rw [List.forall_mem_cons]
        exact ⟨hfirst, ih (Prod.ext (Prod.mk.inj h).1 rfl)⟩
      · rename_i verdict hverdict
        exact absurd (Prod.mk.inj h).1 hverdict

end Guard

/-! ## The guards of a method -/

namespace Options

variable {options : Options} {hooks : SharedGuards} {entity : String} {method : Method}

/-- The guards that options ask for, as far as there are hooks for them. -/
def asked (options : Options) (hooks : SharedGuards) (method : Method) : List Guard :=
  (if method ∈ options.auth then hooks.auth.toList else []) ++
    (if method ∈ options.admin then hooks.admin.toList else []) ++
    (if options.rules method ≠ [] then
      (hooks.validation.map (· (options.rules method))).toList else []) ++
    options.additional method

/-- Options ask for a guard of a method and there is no hook for it, which an error tells. -/
inductive Lacks (options : Options) (hooks : SharedGuards) (entity : String) (method : Method) :
    SetupError → Prop
  | auth (hasked : method ∈ options.auth) (hhook : hooks.auth = none) :
      Lacks options hooks entity method (.noAuth entity method)
  | admin (hasked : method ∈ options.admin) (hhook : hooks.admin = none) :
      Lacks options hooks entity method (.noAdmin entity method)
  | validation (hasked : options.rules method ≠ []) (hhook : hooks.validation = none) :
      Lacks options hooks entity method (.noValidation entity method)

theorem shared_eq_ok
    {needed : Bool} {guard : Option Guard} {missing : SetupError} {guards : List Guard}
    (h : shared needed guard missing = .ok guards) :
    guards = (if needed = true then guard.toList else []) ∧ ¬ (needed = true ∧ guard = none) := by
  unfold shared at h
  cases needed with
  | false =>
      cases h
      exact ⟨rfl, fun hnone => Bool.noConfusion hnone.1⟩
  | true =>
      cases guard with
      | none => cases h
      | some guard =>
          cases h
          refine ⟨rfl, ?_⟩
          rintro ⟨_, hnone⟩
          cases hnone

theorem shared_eq_error
    {needed : Bool} {guard : Option Guard} {missing error : SetupError}
    (h : shared needed guard missing = .error error) :
    error = missing ∧ needed = true ∧ guard = none := by
  unfold shared at h
  cases needed with
  | false => cases h
  | true =>
      cases guard with
      | none =>
          cases h
          exact ⟨rfl, rfl, rfl⟩
      | some guard => cases h

/-- A method gets the guards that its options ask for, or lacks the hook for one of them. -/
theorem guards_eq_ok
    {guards : List Guard}
    (h : options.guards hooks entity method = .ok guards) :
    guards = Guard.distinct (options.asked hooks method) ∧
      ∀ error, ¬ options.Lacks hooks entity method error := by
  unfold Options.guards at h
  rcases bind_eq_ok.mp h with ⟨auth, hauth, h⟩
  rcases bind_eq_ok.mp h with ⟨admin, hadmin, h⟩
  rcases bind_eq_ok.mp h with ⟨validation, hvalidation, h⟩
  rcases shared_eq_ok hauth with ⟨hauth, hauthed⟩
  rcases shared_eq_ok hadmin with ⟨hadmin, hadmined⟩
  rcases shared_eq_ok hvalidation with ⟨hvalidation, hvalidated⟩
  constructor
  · rw [← pure_eq_ok.mp h, hauth, hadmin, hvalidation]
    simp [asked]
  · intro error hlacks
    cases hlacks with
    | auth hasked hhook => exact hauthed ⟨by simpa using hasked, hhook⟩
    | admin hasked hhook => exact hadmined ⟨by simpa using hasked, hhook⟩
    | validation hasked hhook =>
        exact hvalidated ⟨by simpa using hasked, by rw [hhook]; rfl⟩

theorem lacks_of_guards
    {error : SetupError}
    (h : options.guards hooks entity method = .error error) :
    options.Lacks hooks entity method error := by
  unfold Options.guards at h
  rcases bind_eq_error.mp h with hauth | ⟨auth, _, h⟩
  · rcases shared_eq_error hauth with ⟨rfl, hasked, hhook⟩
    exact Lacks.auth (by simpa using hasked) hhook
  rcases bind_eq_error.mp h with hadmin | ⟨admin, _, h⟩
  · rcases shared_eq_error hadmin with ⟨rfl, hasked, hhook⟩
    exact Lacks.admin (by simpa using hasked) hhook
  rcases bind_eq_error.mp h with hvalidation | ⟨validation, _, h⟩
  · rcases shared_eq_error hvalidation with ⟨rfl, hasked, hhook⟩
    exact Lacks.validation (by simpa using hasked) (by simpa using hhook)
  · cases h

end Options

/-! ## The routes of an entity -/

namespace Setup

variable {setup : Setup} {mount : Mount} {routes : List Route}

/-- What is made for a method of an entity. -/
structure Makes (setup : Setup) (mount : Mount) (route : Route) : Prop where
  resource : route.resource = mount.resource
  guards : route.guards =
    Guard.distinct (mount.resource.options.asked setup.hooks route.method)
  complete : ∀ error, ¬ mount.resource.options.Lacks setup.hooks mount.resource.name
    route.method error

theorem lacks_of_routes
    {error : SetupError}
    (h : setup.routes mount = .error error) :
    ∃ method ∈ mount.resource.options.methods,
      mount.resource.options.Lacks setup.hooks mount.resource.name method error := by
  unfold Setup.routes at h
  rcases exists_error_of_mapM h with ⟨method, henabled, hfails⟩
  refine ⟨method, by simpa using (List.mem_filter.mp henabled).2, ?_⟩
  rcases bind_eq_error.mp hfails with hguards | ⟨guards, _, hmade⟩
  · exact Options.lacks_of_guards hguards
  · cases hmade

theorem makes_of_guards
    {method : Method} {route : Route}
    (h : (do
      let guards ← mount.resource.options.guards setup.hooks mount.resource.name method
      return (⟨mount.resource, method, mount.base, guards⟩ : Route)) = Except.ok route) :
    route.method = method ∧ Makes setup mount route := by
  rcases bind_eq_ok.mp h with ⟨guards, hguards, hroute⟩
  rcases Options.guards_eq_ok hguards with ⟨hdistinct, hcomplete⟩
  cases pure_eq_ok.mp hroute
  exact ⟨rfl, ⟨rfl, hdistinct, hcomplete⟩⟩

theorem makes_of_mem
    {route : Route}
    (h : setup.routes mount = .ok routes) (hroute : route ∈ routes) :
    Makes setup mount route := by
  unfold Setup.routes at h
  rcases exists_of_mapM h route hroute with ⟨method, _, hmethod⟩
  exact (makes_of_guards hmethod).2

theorem methods_of_routes
    (h : setup.routes mount = .ok routes) :
    routes.map (·.method) = mount.resource.options.enabled := by
  unfold Setup.routes at h
  rw [← List.forall₂_eq_eq_eq, List.forall₂_map_left_iff]
  exact (forall₂_of_mapM h).flip.imp fun route method hmethod => (makes_of_guards hmethod).1

theorem exists_error_iff (setup : Setup) (mount : Mount) :
    (∃ error, setup.routes mount = .error error) ↔
      ∃ method ∈ mount.resource.options.methods, ∃ error,
        mount.resource.options.Lacks setup.hooks mount.resource.name method error := by
  constructor
  · rintro ⟨error, h⟩
    rcases lacks_of_routes h with ⟨method, henabled, hlacks⟩
    exact ⟨method, henabled, error, hlacks⟩
  · rintro ⟨method, henabled, error, hlacks⟩
    cases h : setup.routes mount with
    | error error => exact ⟨error, rfl⟩
    | ok routes =>
        have hmethod : method ∈ routes.map (·.method) := by
          rw [methods_of_routes h]
          unfold Options.enabled
          rw [List.mem_filter]
          exact ⟨by cases method <;> decide, by simpa using henabled⟩
        rcases List.mem_map.mp hmethod with ⟨route, hroute, rfl⟩
        exact absurd hlacks ((makes_of_mem h hroute).complete error)

end Setup

/-! ## Rejected requests -/

namespace Application

variable {app : Application} {route : Route} {id : String} {request : Request}

/-- A request that a guard of its route rejects does not reach the method. -/
theorem not_admits_of_rejects
    {guard : Guard} {rejection : Rejection} {payload : Assoc Value}
    (hguard : guard ∈ route.guards)
    (hrejects : guard.judge request = .rejects rejection) :
    ¬ route.Admits request payload := by
  rintro ⟨_, calls, _, hpasses, _⟩
  rw [Guard.judge_of_run_passes hpasses guard hguard] at hrejects
  cases hrejects

theorem not_isSuccess_of_not_admits
    (db : Database)
    (hroute : app.route? request = some (route, id))
    (hrefuse : Guard.Refuse route.guards request)
    (h : ∀ payload, ¬ route.Admits request payload) :
    ¬ (app.serve request db).1.response.IsSuccess := by
  intro hsuccess
  unfold Response.IsSuccess at hsuccess
  rcases (serve_of_not_admits db hroute h).2 with hfixed | ⟨rejection, calls, hrun, hsame⟩
  · simp only [List.mem_cons, List.not_mem_nil, or_false] at hfixed
    omega
  · have hverdict : Verdict.rejects rejection ≠ .passes := fun hpasses => by cases hpasses
    rcases Guard.exists_judge_of_run hverdict hrun with ⟨guard, hguard, hjudge⟩
    rw [← hsame] at hsuccess
    exact hrefuse guard hguard rejection hjudge hsuccess

end Application

namespace Setup

open Application

/-- Routes are not made exactly when an enabled method asks for a guard that has no hook, and
the error tells which.  Otherwise each enabled method has one route, and a request to it that
some guard of the method rejects is not answered with success, leaves the database as it is and
reaches no hook. -/
theorem routes_guarded (setup : Setup) (mount : Mount) :
    ((∃ error, setup.routes mount = .error error) ↔
      ∃ method ∈ mount.resource.options.methods, ∃ error,
        mount.resource.options.Lacks setup.hooks mount.resource.name method error) ∧
    (∀ error, setup.routes mount = .error error →
      ∃ method ∈ mount.resource.options.methods,
        mount.resource.options.Lacks setup.hooks mount.resource.name method error) ∧
    ∀ routes, setup.routes mount = .ok routes →
      routes.map (·.method) = mount.resource.options.enabled ∧
      ∀ (app : Application) (request : Request) (db : Database) (route : Route) (id : String)
        (guard : Guard) (rejection : Rejection),
        route ∈ routes → app.route? request = some (route, id) →
        Guard.NamesTell (mount.resource.options.asked setup.hooks route.method) →
        Guard.Refuse (mount.resource.options.asked setup.hooks route.method) request →
        guard ∈ mount.resource.options.asked setup.hooks route.method →
        guard.judge request = .rejects rejection →
          ¬ (app.serve request db).1.response.IsSuccess ∧
          (app.serve request db).2 = db ∧
          (app.serve request db).1.calls = route.guardCalls request := by
  refine ⟨exists_error_iff setup mount, fun error h => lacks_of_routes h, ?_⟩
  intro routes hmade
  refine ⟨methods_of_routes hmade, ?_⟩
  intro app request db route id guard rejection hmem hroute hnames hrefuse hguard hrejects
  have hguards := (makes_of_mem hmade hmem).guards
  have hkept : guard ∈ route.guards := by
    rw [hguards]
    exact Guard.mem_distinct hnames hguard
  have hrefuses : Guard.Refuse route.guards request := by
    rw [hguards]
    exact fun other hother => hrefuse other (Guard.mem_of_mem_distinct hother)
  have hstops : ∀ payload, ¬ route.Admits request payload :=
    fun payload => not_admits_of_rejects hkept hrejects
  exact ⟨not_isSuccess_of_not_admits db hroute hrefuses hstops,
    (serve_of_not_admits db hroute hstops).1, calls_of_not_admits db hroute hstops⟩

end Setup

namespace Sample

/-- Authors are made and removed by those who are known. -/
def guardedAuthors : Mount where
  resource := { resource authors with
    options := { auth := [.post, .delete], additional := fun _ => [audit] } }
  base := "/authors"

def guardedSetup : Setup where
  schema := schema
  registry := registry
  hooks := { auth := some auth }

def guardedRoute (method : Method) (guards : List Guard) : Route :=
  ⟨guardedAuthors.resource, method, "/authors", guards⟩

def guardedRoutes : List Route :=
  [guardedRoute .gets [audit], guardedRoute .get [audit], guardedRoute .post [auth, audit],
    guardedRoute .put [audit], guardedRoute .delete [auth, audit]]

def unknownDeletion : Request where
  verb := "DELETE"
  path := "/authors/1".toList

/-- Nobody unknown removes an author. -/
theorem routes_guarded_author :
    guardedSetup.routes guardedAuthors = .ok guardedRoutes ∧
      ¬ (({ routes := guardedRoutes : Application }).serve unknownDeletion
        database).1.response.IsSuccess ∧
      (({ routes := guardedRoutes : Application }).serve unknownDeletion database).2 =
        database := by
  have hmade : guardedSetup.routes guardedAuthors = .ok guardedRoutes := by rfl
  have hasked : guardedAuthors.resource.options.asked guardedSetup.hooks .delete =
      [auth, audit] := by rfl
  have hnames : Guard.NamesTell [auth, audit] := by
    simp [Guard.NamesTell, auth, audit, passing]
  have hrefuse : Guard.Refuse [auth, audit] unknownDeletion := by
    intro guard hguard rejection hrejects
    rcases List.mem_cons.mp hguard with rfl | hguard
    · cases hrejects
      decide
    · rw [List.mem_singleton.mp hguard] at hrejects
      cases hrejects
  have hrejected := ((Setup.routes_guarded guardedSetup guardedAuthors).2.2 guardedRoutes
    hmade).2 { routes := guardedRoutes } unknownDeletion database
    (guardedRoute .delete [auth, audit]) "1" auth _ (by simp [guardedRoutes]) (by rfl)
    (by rw [← hasked] at hnames; exact hnames) (by rw [← hasked] at hrefuse; exact hrefuse)
    (by simp [guardedRoute, hasked]) (by rfl)
  exact ⟨hmade, hrejected.1, hrejected.2.1⟩

end Sample
end RecordApi
