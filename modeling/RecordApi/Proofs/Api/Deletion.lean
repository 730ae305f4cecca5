import RecordApi.Proofs.Api.Atomicity

/-!
# What a deletion takes away

The record that answers a deletion is read by the first field of the key, limited to one row;
the rows that are taken away are all that share the cell of this field.  The two agree where
no other row shares it, as in a table whose key is a single field.
-/

namespace RecordApi

open Steps Storage

namespace Store

variable {store : Store} {db : Database}

/-- The rows that do not satisfy a test are all but one row exactly when that row is the only
one that satisfies it. -/
theorem perm_cons_filter_not_iff
    {test : Row → Bool} {row : Row} {rows : List Row}
    (hrow : row ∈ rows)
    (htest : test row = true) :
    rows.Perm (row :: rows.filter fun other => !test other) ↔ rows.countP test = 1 := by
  have hsplit := List.filter_append_perm test rows
  constructor
  · intro hperm
    have hall := hperm.length_eq
    have hboth := hsplit.length_eq
    rw [List.length_append, ← List.countP_eq_length_filter] at hboth
    rw [List.length_cons] at hall
    omega
  · intro hcount
    rw [List.countP_eq_length_filter] at hcount
    rcases List.length_eq_one_iff.mp hcount with ⟨only, honly⟩
    have hmem : row ∈ rows.filter test := List.mem_filter.mpr ⟨hrow, htest⟩
    rw [honly, List.mem_singleton] at hmem
    rw [honly, ← hmem] at hsplit
    exact hsplit.symm

/-- Where the key is a single field, no two rows share its cell. -/
theorem countP_sharesLead_of_single
    {row : Row}
    (hkey : store.model.primaryKey = [store.model.keyField])
    (hdistinct : store.KeysDistinct db)
    (hrow : row ∈ db.rows store.model)
    (hlead : store.sharesLead row row = true) :
    (db.rows store.model).countP (store.sharesLead row) = 1 := by
  rcases List.mem_iff_append.mp hrow with ⟨ahead, behind, hsplit⟩
  unfold KeysDistinct at hdistinct
  rw [hsplit, List.pairwise_append] at hdistinct
  rcases hdistinct with ⟨_, hbehind, hahead⟩
  have hnone : ∀ other : Row, Row.sameKey store.model other row = false →
      store.sharesLead row other = false := by
    intro other hother
    rw [← Bool.not_eq_true]
    intro hshares
    rw [Row.sameKey_of_single hkey hshares] at hother
    cases hother
  have hbefore : ahead.countP (store.sharesLead row) = 0 := by
    rw [List.countP_eq_zero]
    intro other hother
    rw [hnone other (hahead other hother row List.mem_cons_self)]
    exact Bool.false_ne_true
  have hafter : behind.countP (store.sharesLead row) = 0 := by
    rw [List.countP_eq_zero]
    intro other hother
    have hkeys := List.rel_of_pairwise_cons hbehind hother
    rw [Row.sameKey_comm] at hkeys
    rw [hnone other hkeys]
    exact Bool.false_ne_true
  rw [hsplit, List.countP_append, List.countP_cons, hbefore, hafter, hlead]
  rfl

end Store

namespace Resource

variable {r : Resource} {db : Database}

/-- A deletion that gives a record gives a row of the table, and takes away all rows with the
same cell in the first field of the key. -/
theorem delete_eq_done
    {id : String} {items : List (String × String)} {data : Value} {after : Database}
    (h : r.delete db id items = (.done data, after)) :
    ∃ query row record, decode items = .ok query ∧ row ∈ db.rows r.store.model ∧
      data = .map record ∧ r.Displays .delete query row record ∧
      r.store.sharesLead row row = true ∧
      after = db.withRows r.store.model
        ((db.rows r.store.model).filter fun other => !r.store.sharesLead row other) := by
  cases hrecord : r.named .delete db id items with
  | error failure =>
      unfold delete at h
      rw [hrecord] at h
      cases h
  | ok found =>
      cases found with
      | none =>
          unfold delete at h
          rw [hrecord] at h
          cases h
      | some record =>
          cases hrows : r.store.spared db (some (r.identified (.text id))) with
          | error error =>
              unfold delete Store.destroy at h
              rw [hrecord, hrows] at h
              cases h
          | ok rows =>
              rw [delete_of_spared hrecord hrows] at h
              cases h
              rcases spared_of_named hrecord hrows with
                ⟨query, row, hdecode, hrow, hdisplays, hlead, hkept⟩
              refine ⟨query, row, record, hdecode, hrow, rfl, hdisplays, hlead, ?_⟩
              rw [hkept]

end Resource

/-! ## Requests that delete -/

namespace Application

open Http

variable {app : Application} {route : Route} {id : String} {request : Request} {db : Database}

/-- A deletion answered with success shows a row of the table, changes no other table, and
takes away the rows that share the first key field with the row shown.  That is this one row
exactly when no other row shares the field, and so wherever the key is a single field. -/
theorem serve_delete_exact_iff
    (hroute : app.route? request = some (route, id))
    (hmethod : route.method = .delete)
    (htruthful : IsTruthful route request)
    (hstatus : (app.serve request db).1.response.status = 200) :
    ∃ query row record, Resource.decode request.items = .ok query ∧
      row ∈ db.rows route.resource.store.model ∧
      (app.serve request db).1.response.body = .json (.map record) ∧
      route.resource.Displays .delete query row record ∧
      db.SameOutside route.resource.store.model (app.serve request db).2 ∧
      (app.serve request db).2.rows route.resource.store.model =
        (db.rows route.resource.store.model).filter
          (fun other => !route.resource.store.sharesLead row other) ∧
      ((db.rows route.resource.store.model).Perm
          (row :: (app.serve request db).2.rows route.resource.store.model) ↔
        (db.rows route.resource.store.model).countP (route.resource.store.sharesLead row) = 1) ∧
      (route.resource.store.model.primaryKey.length = 1 → route.resource.store.KeysDistinct db →
        (db.rows route.resource.store.model).countP
          (route.resource.store.sharesLead row) = 1) := by
  have hsuccess : route.successStatus = 200 := by
    unfold Route.successStatus
    rw [hmethod]
  rw [← hsuccess] at hstatus
  rcases shown_of_success hroute htruthful hstatus with
    ⟨payload, data, after, _, hrun, hbody, hafter⟩
  rw [hmethod] at hrun
  rcases Resource.delete_eq_done hrun with
    ⟨query, row, record, hdecode, hrow, hdata, hdisplays, hlead, hwithRows⟩
  have hrows : (app.serve request db).2.rows route.resource.store.model =
      (db.rows route.resource.store.model).filter
        (fun other => !route.resource.store.sharesLead row other) := by
    rw [hafter, hwithRows, Database.rows_withRows]
  refine ⟨query, row, record, hdecode, hrow, ?_, hdisplays, ?_, hrows, ?_, ?_⟩
  · rw [hbody, hdata]
  · rw [hafter, hwithRows]
    exact Database.sameOutside_withRows db _ _
  · rw [hrows]
    exact Store.perm_cons_filter_not_iff hrow hlead
  · intro hlength hdistinct
    exact Store.countP_sharesLead_of_single (Model.primaryKey_of_single hlength) hdistinct hrow
      hlead

end Application

namespace Sample

open Http

/-- The memberships of a user, by the user alone. -/
def sharedLeadRequest : Request where
  verb := "DELETE"
  path := "/memberships/1".toList

def singleRequest : Request where
  verb := "DELETE"
  path := "/tags/b".toList

/-- A tag is deleted by its code. -/
theorem serve_delete_exact_iff_tag :
    (service schema.models).route? singleRequest = some (route tags .delete, "b") ∧
      ((service schema.models).serve singleRequest database).1.response.status = 200 ∧
      ∃ row, (database.rows tags).Perm
        (row :: ((service schema.models).serve singleRequest database).2.rows tags) := by
  have hroute : (service schema.models).route? singleRequest = some (route tags .delete, "b") := by
    rfl
  have hstatus : ((service schema.models).serve singleRequest database).1.response.status = 200 := by
    decide
  have htruthful : Application.IsTruthful (route tags .delete) singleRequest := by
    intro rejection calls hrejects
    cases hrejects
  have hdistinct : (resource tags).store.KeysDistinct database := by
    unfold Store.KeysDistinct
    decide
  rcases Application.serve_delete_exact_iff hroute rfl htruthful hstatus with
    ⟨_, row, _, _, _, _, _, _, _, hiff, hsingle⟩
  exact ⟨hroute, hstatus, row, hiff.mpr (hsingle rfl hdistinct)⟩

/-- Two memberships of the user go, and the answer shows one. -/
theorem shared_lead_deletes_two :
    ((service schema.models).serve sharedLeadRequest database).1.response.status = 200 ∧
      ∀ row, ¬ (database.rows memberships).Perm
        (row :: ((service schema.models).serve sharedLeadRequest database).2.rows memberships) := by
  constructor
  · decide
  · intro row hperm
    have hlength := hperm.length_eq
    rw [List.length_cons] at hlength
    revert hlength
    decide

end Sample
end RecordApi
