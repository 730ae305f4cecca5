import RecordApi.Proofs.Api.Atomicity
import RecordApi.Proofs.Api.Matching
import RecordApi.Proofs.Storage.Repeating

/-!
# Sending a change again

A request that changes a record without naming its key can be sent twice.  It comes to the changed
row again, whose contents are what the request asks for already, and it is read by the same query.
The second answer is the first one and the database stays as it is.
-/

namespace RecordApi

open Steps Storage

/-! ## Changing a record again -/

namespace Resource

variable {r : Resource} {db : Database}

/-- The record that a path names is looked for by its key. -/
theorem existing_of_decode
    {query : RequestQuery} {items : List (String × String)} (r : Resource) (db : Database)
    (id : String)
    (hquery : decode items = .ok query) :
    r.existing db id items =
      ((r.store.find db (Query.ofKey r.store.model.keyField (.text id))).mapError .store).map
        fun found => (query, found) := by
  unfold existing
  rw [hquery]
  change (Except.mapError Failure.store
    (r.store.find db (Query.ofKey r.store.model.keyField (.text id))) >>= _) = _
  cases r.store.find db (Query.ofKey r.store.model.keyField (.text id)) with
  | error error => rfl
  | ok found => rfl

theorem decode_of_existing
    {id : String} {items : List (String × String)} {query : RequestQuery}
    {found : Option (Assoc Value)}
    (h : r.existing db id items = .ok (query, found)) :
    decode items = .ok query := by
  unfold existing at h
  rcases bind_eq_ok.mp h with ⟨query', hquery, h⟩
  rcases bind_eq_ok.mp h with ⟨_, _, h⟩
  cases pure_eq_ok.mp h
  exact hquery

/-- Behind a change, the path leads to the changed row or to one that shows its key, and nothing is
changed any more. -/
theorem update_replaced
    {arguments : Arguments} {query : RequestQuery} {found : Assoc Value} {row next : Row}
    (hfields : r.store.model.fields.Nodup) (hsingle : r.store.model.primaryKey.length = 1)
    (hunnamed : Assoc.get? arguments.payload r.store.model.keyField = none)
    (hexisting : r.existing db arguments.id arguments.items = .ok (query, some found))
    (hnext : r.store.replacement db (.text arguments.id) arguments.payload =
      .ok (some (row, next))) :
    r.update (r.store.replaced db row next) arguments.id arguments.items arguments.payload =
      (r.confirmation .put (r.store.replaced db row next) query next arguments.payload,
        r.store.replaced db row next) := by
  rcases Store.exists_leadsTo hfields hsingle hunnamed hnext with ⟨again, hleads⟩
  have hquery := decode_of_existing hexisting
  rw [existing_of_decode r db arguments.id hquery] at hexisting
  rcases map_eq_ok.mp hexisting with ⟨record, hfound, _⟩
  have hfind := Store.find_replaced hsingle (mapError_eq_ok.mp hfound) hleads
  have hexists := existing_of_decode r (r.store.replaced db row next) arguments.id hquery
  have hagain := Store.replacement_again hleads
  rw [hfind] at hexists
  cases hload : loadRow r.store.model none again with
  | error error =>
      have hshown : showWhole r.store.model again = .error error := map_eq_error.mpr hload
      rw [hshown] at hexists
      rcases hleads.readable with rfl | ⟨shown, hreadable⟩
      · unfold update confirmation
        rw [hexists, hshown]
        rfl
      · rw [hshown] at hreadable
        cases hreadable
  | ok entity =>
      have hshown : showWhole r.store.model again = .ok _ :=
        showRow_eq_ok.mpr ⟨entity, hload, rfl⟩
      rw [hshown] at hexists
      rw [hload] at hagain
      rw [update_of_replacement hexists hagain, Store.replaced_self]

/-- A change of a record, made twice in a row, is made once: either it leaves the database as it
is, or it comes to the changed row the second time. -/
theorem run_put_again
    (arguments : Arguments)
    (hfields : r.store.model.fields.Nodup) (hsingle : r.store.model.primaryKey.length = 1)
    (hunnamed : Assoc.get? arguments.payload r.store.model.keyField = none) :
    r.run .put (r.run .put db arguments).2 arguments = r.run .put db arguments := by
  change r.update (r.update db arguments.id arguments.items arguments.payload).2
    arguments.id arguments.items arguments.payload =
      r.update db arguments.id arguments.items arguments.payload
  -- whatever leaves the database as it is can be run again
  have hsame : (r.update db arguments.id arguments.items arguments.payload).2 = db →
      r.update (r.update db arguments.id arguments.items arguments.payload).2
          arguments.id arguments.items arguments.payload =
        r.update db arguments.id arguments.items arguments.payload := fun h => by rw [h]
  cases hexisting : r.existing db arguments.id arguments.items with
  | error failure =>
      apply hsame
      unfold update
      rw [hexisting]
  | ok answer =>
      rcases answer with ⟨query, _ | found⟩
      · apply hsame
        unfold update
        rw [hexisting]
      · cases hnext : r.store.replacement db (.text arguments.id) arguments.payload with
        | error error =>
            apply hsame
            unfold update
            rw [hexisting, Store.update_of_error hnext]
        | ok rows =>
            rcases rows with _ | ⟨row, next⟩
            · apply hsame
              unfold update
              rw [hexisting, Store.update_of_missing hnext]
            · rw [update_of_replacement hexisting hnext]
              exact update_replaced hfields hsingle hunnamed hexisting hnext

end Resource

/-! ## Requests -/

/-- A body is a map with a value for a field. -/
def Given.names (field : String) : Given → Bool
  | .value (.map entries) => (Assoc.get? entries field).isSome
  | _ => false

namespace Application

open Http

variable {app : Application} {route : Route} {id : String} {request : Request}
  {payload : Assoc Value} {db : Database}

/-- What a payload holds was named by the body. -/
theorem names_of_payload
    {given : Given} {field : String} {v : Value}
    (h : Application.payload route given = .ok payload)
    (hv : Assoc.get? payload field = some v) :
    given.names field = true := by
  unfold Application.payload at h
  split at h
  · cases given with
    | absent => cases h
    | octets => cases h
    | value body =>
        cases body with
        | map entries =>
            have hconverted : Assoc.get? (Payload.conversions entries
                route.resource.store.model.columns) field = some (.ok v) := by
              rw [← Payload.ofGiven_eq_ok h, Assoc.get?_mapValues, hv]
              rfl
            rcases Option.map_eq_some_iff.mp hconverted with ⟨⟨key, result⟩, hfound, _⟩
            have hkey := List.find?_some hfound
            rw [beq_iff_eq] at hkey
            have hmem := List.mem_of_find?_eq_some hfound
            rcases List.mem_filterMap.mp hmem with ⟨column, _, hcolumn⟩
            rcases Option.map_eq_some_iff.mp hcolumn with ⟨w, hw, hpair⟩
            cases hpair
            unfold Given.names
            dsimp only
            rw [← hkey]
            exact congrArg Option.isSome hw
        | _ => cases h
  · cases h
    cases hv

/-- The exchange over a request that reaches its method depends on the database only by what the
method does there. -/
theorem serve_eq_of_run
    {after : Database}
    (hroute : app.route? request = some (route, id))
    (hadmits : route.Admits request payload)
    (hrun : route.resource.run route.method after ⟨id, request.items, payload⟩ =
      route.resource.run route.method db ⟨id, request.items, payload⟩) :
    app.serve request after = app.serve request db := by
  rcases hadmits with ⟨given, calls, hbody, hguards, hpayload⟩
  rw [serve_of_route? hroute, serve_of_route? hroute]
  unfold serveBy guarded perform
  rw [hbody]
  dsimp only
  rw [hguards]
  dsimp only
  rw [hpayload]
  dsimp only
  rw [hrun]

/-- A request that changes a record without naming its key, sent twice in a row, gives the same
exchange both times, and the second leaves the database as the first did.  So it is for every
answer, also where the first one fails behind its write. -/
theorem serve_serve
    (hroute : app.route? request = some (route, id)) (hmethod : route.method = .put)
    (hfields : route.resource.store.model.fields.Nodup)
    (hsingle : route.resource.store.model.primaryKey.length = 1)
    (hunnamed : ∀ given, body route request = .ok given →
      given.names route.resource.store.model.keyField = false) :
    app.serve request (app.serve request db).2 = app.serve request db := by
  by_cases hadmits : ∃ payload, route.Admits request payload
  · rcases hadmits with ⟨payload, hadmits⟩
    have hpayload : Assoc.get? payload route.resource.store.model.keyField = none := by
      rcases hadmits with ⟨given, _, hbody, _, hpayload⟩
      cases hget : Assoc.get? payload route.resource.store.model.keyField with
      | none => rfl
      | some v =>
          have hnamed := names_of_payload hpayload hget
          rw [hunnamed given hbody] at hnamed
          cases hnamed
    have hafter := (serve_of_admits db hroute hadmits).2.2
    apply serve_eq_of_run hroute hadmits
    rw [hafter, hmethod]
    exact Resource.run_put_again ⟨id, request.items, payload⟩ hfields hsingle hpayload
  · rw [(serve_of_not_admits db hroute fun payload h => hadmits ⟨payload, h⟩).1]

end Application

namespace Sample

open Http

/-- The node becomes its own parent, and is asked for with its children. -/
def selfParenting : Request where
  verb := "PUT"
  path := "/nodes/2".toList
  items := [("relations", "children")]
  body := "\x7b\"parent_id\":2\x7d"

theorem serve_serve_nodes :
    ((service [nodes]).serve selfParenting database).1.response.status = 200 ∧
      ((service [nodes]).serve selfParenting database).2 ≠ database ∧
      (service [nodes]).serve selfParenting
          ((service [nodes]).serve selfParenting database).2 =
        (service [nodes]).serve selfParenting database := by
  have hroute : (service [nodes]).route? selfParenting = some (route nodes .put, "2") := by rfl
  have hunnamed : (Application.body (route nodes .put) selfParenting).toOption.map
      (Given.names "id") = some false := by
    decide +kernel
  refine ⟨by decide +kernel, by decide +kernel, ?_⟩
  refine Application.serve_serve hroute rfl (by decide) rfl ?_
  intro given hgiven
  rw [hgiven] at hunnamed
  exact Option.some.inj hunnamed

end Sample
end RecordApi
