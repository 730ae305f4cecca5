import RecordApi.Api.Application

/-!
# Serving a request

A request that has a route either reaches the method of the route with a payload or is
answered before, with the database as it was.  `Route.Admits` tells the two apart.  The
response to a request that reaches its method depends on the outcome alone, and only an
outcome with a payload that JSON can hold gives a status of success.
-/

namespace RecordApi

open Http

/-- A status that tells success. -/
def Http.Response.IsSuccess (response : Response) : Prop :=
  200 ≤ response.status ∧ response.status < 300

/-- An outcome with a payload that JSON can hold. -/
def Outcome.IsShown (outcome : Outcome) : Prop :=
  ∃ data, outcome = .done data ∧ Json.isFiniteTree data = true

/-- A request reaches the method of a route with a payload: its body is read, all guards let
it pass, and the payload is free of issues. -/
def Route.Admits (route : Route) (request : Request) (payload : Assoc Value) : Prop :=
  ∃ given calls, Application.body route request = .ok given ∧
    Guard.run request route.guards = (.passes, calls) ∧
    Application.payload route given = .ok payload

namespace Application

variable {app : Application} {route : Route} {id : String} {request : Request}
  {payload : Assoc Value} {db : Database}

/-- The response to a request that reached its method, before it is sent. -/
def response (app : Application) (route : Route) (request : Request) (outcome : Outcome) :
    Response :=
  match app.answered route request outcome with
  | .inl escape => (app.escapeResponse escape).1
  | .inr exchange => exchange.response

/-! ## Routes -/

theorem verb_of_route? (h : app.route? request = some (route, id)) :
    route.method.verb = request.verb := by
  unfold route? at h
  rcases List.exists_of_findSome?_eq_some h with ⟨candidate, _, hroute⟩
  split at hroute
  · rename_i hverb
    rw [Option.map_eq_some_iff] at hroute
    rcases hroute with ⟨_, _, hpair⟩
    cases hpair
    exact beq_iff_eq.mp hverb
  · cases hroute

theorem preflight?_of_route? (h : app.route? request = some (route, id)) :
    Cors.preflight? request = none := by
  have hverb : request.verb ≠ "OPTIONS" := by
    rw [← verb_of_route? h]
    cases route.method <;> decide
  unfold Cors.preflight?
  cases request.headers.get? "origin" with
  | none => rfl
  | some origin => simp [hverb]

theorem serve_of_route? (h : app.route? request = some (route, id)) :
    app.serve request db =
      (sent request (app.serveBy route id request db).1,
        (app.serveBy route id request db).2) := by
  unfold serve
  rw [preflight?_of_route? h]
  unfold serveAny
  rw [h]

theorem mem_of_route? (h : app.route? request = some (route, id)) :
    route ∈ app.routes := by
  unfold route? at h
  rcases List.exists_of_findSome?_eq_some h with ⟨candidate, hmem, hroute⟩
  split at hroute
  · rw [Option.map_eq_some_iff] at hroute
    rcases hroute with ⟨_, _, hpair⟩
    cases hpair
    exact hmem
  · cases hroute

/-- A request without a route leaves the database as it is. -/
theorem serve_of_no_route
    (db : Database)
    (h : app.route? request = none) :
    (app.serve request db).2 = db := by
  unfold serve serveAny
  rw [h]
  cases Cors.preflight? request with
  | none => rfl
  | some response => rfl

theorem status_sent (request : Request) (exchange : Exchange) :
    (sent request exchange).response.status = exchange.response.status := by
  unfold sent Cors.grant
  split
  · split <;> rfl
  · rfl

theorem body_sent (request : Request) (exchange : Exchange) :
    (sent request exchange).response.body = exchange.response.body := by
  unfold sent Cors.grant
  split
  · split <;> rfl
  · rfl

/-! ## Escapes -/

theorem status_escapeResponse (app : Application) (escape : Escape) :
    (app.escapeResponse escape).1.status = 500 := by
  unfold escapeResponse
  split
  · cases escape with
    | unprintable => rfl
    | outside text =>
        dsimp only
        split <;> rfl
  · rfl

theorem status_rejected (app : Application) (rejection : Rejection) :
    (app.rejected rejection).status = rejection.status := by
  unfold rejected
  split <;> rfl

/-! ## Requests that reach their method -/

theorem serve_of_admits
    (db : Database)
    (hroute : app.route? request = some (route, id))
    (h : route.Admits request payload) :
    let (outcome, after) := route.resource.run route.method db ⟨id, request.items, payload⟩
    (app.serve request db).1.response.status = (app.response route request outcome).status ∧
      (app.serve request db).1.response.body = (app.response route request outcome).body ∧
      (app.serve request db).2 = after := by
  rcases h with ⟨given, calls, hbody, hguards, hpayload⟩
  rw [serve_of_route? hroute, status_sent, body_sent]
  unfold serveBy guarded perform response
  rw [hbody]
  dsimp only
  rw [hguards]
  dsimp only
  rw [hpayload]
  dsimp only
  cases app.answered route request
      (route.resource.run route.method db ⟨id, request.items, payload⟩).1 with
  | inl escape => exact ⟨rfl, rfl, rfl⟩
  | inr exchange => exact ⟨rfl, rfl, rfl⟩

/-- The statuses of an answer that the method of a route does not give itself. -/
def IsEarlyStatus (route : Route) (request : Request) (status : Nat) : Prop :=
  status ∈ [400, 422, 500] ∨
    ∃ rejection calls, Guard.run request route.guards = (.rejects rejection, calls) ∧
      rejection.status = status

theorem serve_of_not_admits
    (db : Database)
    (hroute : app.route? request = some (route, id))
    (h : ∀ payload, ¬ route.Admits request payload) :
    (app.serve request db).2 = db ∧
      IsEarlyStatus route request (app.serve request db).1.response.status := by
  rw [serve_of_route? hroute, status_sent]
  unfold serveBy
  cases hbody : body route request with
  | error error =>
      cases error with
      | malformed => exact ⟨rfl, Or.inl (by simp)⟩
      | unreadable =>
          refine ⟨rfl, Or.inl ?_⟩
          dsimp only
          rw [status_rejected]
          simp
  | ok given =>
      dsimp only
      unfold guarded
      cases hguards : Guard.run request route.guards with
      | mk verdict calls =>
          cases verdict with
          | rejects rejection =>
              refine ⟨rfl, Or.inr ⟨rejection, calls, hguards, ?_⟩⟩
              exact (status_rejected app rejection).symm
          | breaks text =>
              refine ⟨rfl, Or.inl ?_⟩
              change (app.escapeResponse (.outside text)).1.status ∈ [400, 422, 500]
              rw [status_escapeResponse]
              simp
          | passes =>
              dsimp only
              cases hpayload : Application.payload route given with
              | error issues => exact ⟨rfl, Or.inl (by simp)⟩
              | ok payload =>
                  exact absurd ⟨given, calls, hbody, hguards, hpayload⟩ (h payload)

/-! ## Outcomes -/

theorem successStatus_eq (route : Route) :
    route.successStatus = 200 ∨ route.successStatus = 201 := by
  unfold Route.successStatus
  cases route.method with
  | post => exact Or.inr rfl
  | _ => exact Or.inl rfl

theorem response_of_isShown
    {data : Value}
    (hfinite : Json.isFiniteTree data = true) :
    app.response route request (.done data) = Response.ofValue route.successStatus data := by
  unfold response answered
  dsimp only
  rw [if_pos hfinite]

theorem status_of_not_isShown
    (app : Application) (route : Route) (request : Request) {outcome : Outcome}
    (h : ¬ outcome.IsShown) :
    (app.response route request outcome).status = 404 ∨
      (app.response route request outcome).status = 500 := by
  unfold response
  cases outcome with
  | missing => exact Or.inl rfl
  | uncounted error => exact Or.inr (status_escapeResponse app _)
  | done data =>
      have hnot : ¬ Json.isFiniteTree data = true := fun hfinite => h ⟨data, rfl, hfinite⟩
      unfold answered
      dsimp only
      rw [if_neg hnot]
      exact Or.inr (status_escapeResponse app _)
  | failed failure =>
      unfold answered failed
      dsimp only
      split
      · rename_i escape hescape
        exact Or.inr (status_escapeResponse app escape)
      · rename_i exchange hexchange
        split at hexchange
        · cases hexchange
        · cases hexchange
          exact Or.inr rfl

theorem isSuccess_response_iff
    (app : Application) (route : Route) (request : Request) (outcome : Outcome) :
    (app.response route request outcome).IsSuccess ↔ outcome.IsShown := by
  constructor
  · intro hsuccess
    by_cases hshown : outcome.IsShown
    · exact hshown
    · unfold Response.IsSuccess at hsuccess
      rcases status_of_not_isShown app route request hshown with hstatus | hstatus
      · omega
      · omega
  · rintro ⟨data, hdone, hfinite⟩
    rw [hdone, response_of_isShown hfinite]
    change 200 ≤ route.successStatus ∧ route.successStatus < 300
    have hstatus := successStatus_eq route
    omega

/-! ## Answers of success -/

/-- No guard rejects a request with the status by which its route tells success. -/
def IsTruthful (route : Route) (request : Request) : Prop :=
  ∀ rejection calls, Guard.run request route.guards = (.rejects rejection, calls) →
    rejection.status ≠ route.successStatus

/-- An answer of success comes from the method of the route and carries its payload. -/
theorem shown_of_success
    (hroute : app.route? request = some (route, id))
    (htruthful : IsTruthful route request)
    (hstatus : (app.serve request db).1.response.status = route.successStatus) :
    ∃ payload data after, route.Admits request payload ∧
      route.resource.run route.method db ⟨id, request.items, payload⟩ = (.done data, after) ∧
      (app.serve request db).1.response.body = .json data ∧
      (app.serve request db).2 = after := by
  have hsuccess := successStatus_eq route
  by_cases hadmits : ∃ payload, route.Admits request payload
  · rcases hadmits with ⟨payload, hadmits⟩
    have hserve := serve_of_admits db hroute hadmits
    cases hrun : route.resource.run route.method db ⟨id, request.items, payload⟩ with
    | mk outcome after =>
        rw [hrun] at hserve
        rcases hserve with ⟨hanswer, hbody, hafter⟩
        have hshown : outcome.IsShown := by
          rw [← isSuccess_response_iff app route request]
          unfold Response.IsSuccess
          rw [← hanswer]
          omega
        rcases hshown with ⟨data, hdone, hfinite⟩
        refine ⟨payload, data, after, hadmits, ?_, ?_, hafter⟩
        · rw [← hdone]
          exact hrun
        · rw [hbody, hdone, response_of_isShown hfinite]
          rfl
  · have hearly := serve_of_not_admits db hroute fun payload h => hadmits ⟨payload, h⟩
    rcases hearly.2 with hfixed | ⟨rejection, calls, hrejects, hsame⟩
    · rw [hstatus] at hfixed
      simp only [List.mem_cons, List.not_mem_nil, or_false] at hfixed
      omega
    · exact absurd (hsame.trans hstatus) (htruthful rejection calls hrejects)

end Application
end RecordApi
