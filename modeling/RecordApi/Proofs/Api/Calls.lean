import RecordApi.Proofs.Api.Serving
import RecordApi.Sample.Hooks
import RecordApi.Sample.Service

/-!
# What runs around a method

Guards run before the method of a route and hooks behind it.  The hooks run where the method
answers with success, each of them once, in their order and with the payload of the answer;
behind every other answer none of them runs.
-/

namespace RecordApi

open Http

/-- A guard of the route answers a request in place of its method. -/
def Route.Rejects (route : Route) (request : Request) : Prop :=
  ∃ rejection calls, Guard.run request route.guards = (.rejects rejection, calls)

/-- What the guards of a route do with a request.  A body that cannot be read is answered before
they run. -/
def Route.guardCalls (route : Route) (request : Request) : List Call :=
  match Application.body route request with
  | .error _ => []
  | .ok _ => (Guard.run request route.guards).2

/-- What the hooks behind a method do with the payload of an answer. -/
def Route.hookCalls (route : Route) (request : Request) (data : Value) : List Call :=
  (route.resource.options.afterHooks route.method).map (·.call request data)

namespace Application

variable {app : Application} {route : Route} {id : String} {request : Request}
  {payload : Assoc Value} {db : Database}

theorem calls_of_no_route
    (db : Database)
    (h : app.route? request = none) :
    (app.serve request db).1.calls = [] := by
  unfold serve serveAny
  rw [h]
  cases Cors.preflight? request with
  | none => rfl
  | some response => rfl

/-! ## Hooks behind an outcome -/

/-- What the hooks do behind an outcome: they run where it is shown. -/
def outcomeCalls (app : Application) (route : Route) (request : Request) (outcome : Outcome) :
    List Call :=
  match app.answered route request outcome with
  | .inl _ => []
  | .inr exchange => exchange.calls

theorem outcomeCalls_done
    (app : Application) (route : Route) (request : Request) {data : Value}
    (hfinite : Json.isFiniteTree data = true) :
    app.outcomeCalls route request (.done data) = route.hookCalls request data := by
  unfold outcomeCalls answered
  dsimp only
  rw [if_pos hfinite]
  rfl

theorem outcomeCalls_of_not_isShown
    (app : Application) (route : Route) (request : Request) {outcome : Outcome}
    (h : ¬ outcome.IsShown) :
    app.outcomeCalls route request outcome = [] := by
  unfold outcomeCalls
  cases outcome with
  | missing => rfl
  | uncounted error => rfl
  | done data =>
      have hnot : ¬ Json.isFiniteTree data = true := fun hfinite => h ⟨data, rfl, hfinite⟩
      unfold answered
      dsimp only
      rw [if_neg hnot]
  | failed failure =>
      unfold answered failed
      dsimp only
      split
      · rfl
      · rename_i exchange hexchange
        split at hexchange
        · cases hexchange
        · cases hexchange
          rfl

/-! ## Requests that reach their method -/

theorem calls_of_admits
    (db : Database)
    (hroute : app.route? request = some (route, id))
    (h : route.Admits request payload) :
    (app.serve request db).1.calls = route.guardCalls request ++
      app.outcomeCalls route request
        (route.resource.run route.method db ⟨id, request.items, payload⟩).1 := by
  rcases h with ⟨given, calls, hbody, hguards, hpayload⟩
  rw [serve_of_route? hroute]
  unfold Route.guardCalls
  rw [hbody]
  dsimp only
  rw [hguards]
  unfold serveBy guarded perform outcomeCalls sent
  rw [hbody]
  dsimp only
  rw [hguards]
  dsimp only
  rw [hpayload]
  dsimp only
  cases app.answered route request
      (route.resource.run route.method db ⟨id, request.items, payload⟩).1 with
  | inl escape => exact (List.append_nil calls).symm
  | inr exchange => rfl

theorem calls_of_not_admits
    (db : Database)
    (hroute : app.route? request = some (route, id))
    (h : ∀ payload, ¬ route.Admits request payload) :
    (app.serve request db).1.calls = route.guardCalls request := by
  rw [serve_of_route? hroute]
  unfold serveBy Route.guardCalls sent
  cases hbody : body route request with
  | error error =>
      cases error with
      | malformed => rfl
      | unreadable => rfl
  | ok given =>
      dsimp only
      unfold guarded
      cases hguards : Guard.run request route.guards with
      | mk verdict calls =>
          cases verdict with
          | rejects rejection => rfl
          | breaks text => rfl
          | passes =>
              dsimp only
              cases hpayload : Application.payload route given with
              | error issues => rfl
              | ok payload =>
                  exact absurd ⟨given, calls, hbody, hguards, hpayload⟩ (h payload)

theorem not_rejects_of_admits (h : route.Admits request payload) : ¬ route.Rejects request := by
  rintro ⟨rejection, calls, hrejects⟩
  rcases h with ⟨_, _, _, hpasses, _⟩
  rw [hpasses] at hrejects
  cases hrejects

/-- An answer of success that no guard gave is that of the method. -/
theorem admits_of_success
    (hroute : app.route? request = some (route, id))
    (hrejects : ¬ route.Rejects request)
    (hsuccess : (app.serve request db).1.response.IsSuccess) :
    ∃ payload, route.Admits request payload := by
  by_cases hadmits : ∃ payload, route.Admits request payload
  · exact hadmits
  · exfalso
    have hearly := serve_of_not_admits db hroute fun payload h => hadmits ⟨payload, h⟩
    unfold Response.IsSuccess at hsuccess
    rcases hearly.2 with hfixed | ⟨rejection, calls, hrejection, _⟩
    · simp only [List.mem_cons, List.not_mem_nil, or_false] at hfixed
      omega
    · exact hrejects ⟨rejection, calls, hrejection⟩

/-! ## Hooks run exactly on success -/

/-- Behind an answer of success, which no guard gave, every hook of the method runs once, in the
order of the hooks and with the payload that the answer carries.  Behind any other answer no
hook runs, and none without a route. -/
theorem hooks_iff_success (app : Application) (request : Request) (db : Database) :
    (app.route? request = none → (app.serve request db).1.calls = []) ∧
      ∀ route id, app.route? request = some (route, id) →
        ((app.serve request db).1.response.IsSuccess ∧ ¬ route.Rejects request →
          ∃ data, (app.serve request db).1.response.status = route.successStatus ∧
            (app.serve request db).1.response.body = .json data ∧
            (app.serve request db).1.calls =
              route.guardCalls request ++ route.hookCalls request data) ∧
        (¬ ((app.serve request db).1.response.IsSuccess ∧ ¬ route.Rejects request) →
          (app.serve request db).1.calls = route.guardCalls request) := by
  refine ⟨calls_of_no_route db, ?_⟩
  intro route id hroute
  have hadmitted : ∀ payload, route.Admits request payload →
      ∃ outcome, ((app.serve request db).1.response.IsSuccess ↔ outcome.IsShown) ∧
        (app.serve request db).1.response.status = (app.response route request outcome).status ∧
        (app.serve request db).1.response.body = (app.response route request outcome).body ∧
        (app.serve request db).1.calls =
          route.guardCalls request ++ app.outcomeCalls route request outcome := by
    intro payload hadmits
    have hserve := serve_of_admits db hroute hadmits
    refine ⟨_, ?_, hserve.1, hserve.2.1, calls_of_admits db hroute hadmits⟩
    unfold Response.IsSuccess
    rw [hserve.1]
    exact isSuccess_response_iff app route request _
  constructor
  · rintro ⟨hsuccess, hrejects⟩
    rcases admits_of_success hroute hrejects hsuccess with ⟨payload, hadmits⟩
    rcases hadmitted payload hadmits with ⟨outcome, hiff, hstatus, hbody, hcalls⟩
    rcases hiff.mp hsuccess with ⟨data, rfl, hfinite⟩
    rw [response_of_isShown hfinite] at hstatus hbody
    rw [outcomeCalls_done app route request hfinite] at hcalls
    exact ⟨data, hstatus, hbody, hcalls⟩
  · intro hother
    by_cases hadmits : ∃ payload, route.Admits request payload
    · rcases hadmits with ⟨payload, hadmits⟩
      rcases hadmitted payload hadmits with ⟨outcome, hiff, _, _, hcalls⟩
      have hfailure : ¬ outcome.IsShown := fun hshown =>
        hother ⟨hiff.mpr hshown, not_rejects_of_admits hadmits⟩
      rw [outcomeCalls_of_not_isShown app route request hfailure, List.append_nil] at hcalls
      exact hcalls
    · exact calls_of_not_admits db hroute fun payload h => hadmits ⟨payload, h⟩

end Application

namespace Sample

/-- Authors are audited, and two hooks look at every answer about them. -/
def watched (method : Method) : Route where
  resource := { resource authors with
    options := { additional := fun _ => [audit], after := fun _ => [hook "first", hook "second"] } }
  method := method
  base := "/authors"
  guards := [audit]

def watchedService : Application where
  routes := Method.all.map watched

def firstAuthorRequest : Request where
  verb := "GET"
  path := "/authors/1".toList

/-- Both hooks see the author that is shown. -/
theorem hooks_iff_success_author :
    watchedService.route? firstAuthorRequest = some (watched .get, "1") ∧
      (watchedService.serve firstAuthorRequest database).1.response.status = 200 ∧
      ∃ data, (watchedService.serve firstAuthorRequest database).1.response.body = .json data ∧
        (watchedService.serve firstAuthorRequest database).1.calls =
          audit.calls firstAuthorRequest ++ [(hook "first").call firstAuthorRequest data,
            (hook "second").call firstAuthorRequest data] := by
  have hroute : watchedService.route? firstAuthorRequest = some (watched .get, "1") := by rfl
  have hstatus : (watchedService.serve firstAuthorRequest database).1.response.status = 200 := by
    decide
  have hsuccess : (watchedService.serve firstAuthorRequest database).1.response.IsSuccess := by
    unfold Response.IsSuccess
    omega
  have hrejects : ¬ (watched .get).Rejects firstAuthorRequest := by
    rintro ⟨rejection, calls, hrejects⟩
    cases hrejects
  rcases ((Application.hooks_iff_success watchedService firstAuthorRequest database).2 _ _
    hroute).1 ⟨hsuccess, hrejects⟩ with ⟨data, _, hbody, hcalls⟩
  exact ⟨hroute, hstatus, data, hbody, hcalls⟩

end Sample
end RecordApi
