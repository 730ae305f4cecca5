import RecordApi.Proofs.Steps
import RecordApi.Query.Builder

/-!
# Building inclusions

The inclusions of a query stand under the names that a request gives, in its order, and equal
names give equal inclusions.  A builder that demands related rows builds the same inclusions
as one that does not, but for the demands.
-/

namespace RecordApi

open Steps

namespace Inclusion

theorem relation_of_build
    {builder : QueryBuilder} {query : RequestQuery}
    {relationFields : Option (Assoc (List String))} {relation : String} {inclusion : Inclusion}
    (h : Inclusion.build builder query relationFields relation = .ok inclusion) :
    inclusion.relation = relation := by
  unfold Inclusion.build at h
  dsimp only at h
  split at h
  · rcases bind_eq_ok.mp h with ⟨filter, _, h⟩
    rw [← pure_eq_ok.mp h]
  · rcases bind_eq_ok.mp h with ⟨filter, _, h⟩
    rw [← pure_eq_ok.mp h]

theorem relations_of_resolve
    {builder : QueryBuilder} {query : RequestQuery}
    {relationFields : Option (Assoc (List String))} {inclusions : Option (List Inclusion)}
    (h : Inclusion.resolve builder query relationFields = .ok inclusions) :
    (inclusions.getD []).map (·.relation) = query.relations.getD [] := by
  unfold Inclusion.resolve at h
  cases hrelations : query.relations with
  | none =>
      rw [hrelations] at h
      cases h
      rfl
  | some relations =>
      rw [hrelations] at h
      rcases map_eq_ok.mp h with ⟨built, hbuilt, hsome⟩
      rw [← hsome]
      have hnames : List.Forall₂ Eq relations (built.map (·.relation)) := by
        rw [List.forall₂_map_right_iff]
        exact (forall₂_of_mapM hbuilt).imp fun _ _ hbuild => (relation_of_build hbuild).symm
      rw [List.forall₂_eq_eq_eq] at hnames
      exact hnames.symm

theorem build_requireFiltered
    (builder : QueryBuilder) (required : Bool) (query : RequestQuery)
    (relationFields : Option (Assoc (List String))) (relation : String) :
    build { builder with requireFiltered := required } query relationFields relation =
      (build { builder with requireFiltered := false } query relationFields relation).map
        fun i => { i with required := required && i.filter.isSome } := by
  unfold build
  dsimp only
  split
  · cases Filter.compile builder.merge _ <;> rfl
  · rfl

theorem resolve_requireFiltered
    (builder : QueryBuilder) (required : Bool) (query : RequestQuery)
    (relationFields : Option (Assoc (List String))) :
    resolve { builder with requireFiltered := required } query relationFields =
      (resolve { builder with requireFiltered := false } query relationFields).map
        (·.map (·.map fun i => { i with required := required && i.filter.isSome })) := by
  unfold resolve
  cases query.relations with
  | none => rfl
  | some relations =>
      dsimp only
      have hbuild := funext (build_requireFiltered builder required query relationFields)
      rw [hbuild, mapM_map]
      cases relations.mapM (build { builder with requireFiltered := false } query relationFields)
        <;> rfl

/-- What is built without demands demands nothing, and is told by its name. -/
theorem of_resolve
    {builder : QueryBuilder} {query : RequestQuery}
    {relationFields : Option (Assoc (List String))} {inclusions : Option (List Inclusion)}
    (h : resolve { builder with requireFiltered := false } query relationFields = .ok inclusions) :
    ∀ i ∈ inclusions.getD [], i.required = false ∧
      build { builder with requireFiltered := false } query relationFields i.relation = .ok i := by
  unfold resolve at h
  cases hrelations : query.relations with
  | none =>
      rw [hrelations] at h
      cases h
      exact fun _ hi => absurd hi List.not_mem_nil
  | some relations =>
      rw [hrelations] at h
      rcases map_eq_ok.mp h with ⟨built, hbuilt, hsome⟩
      rw [← hsome]
      intro i hi
      rcases exists_of_mapM hbuilt i hi with ⟨relation, _, hbuild⟩
      rw [relation_of_build hbuild]
      refine ⟨?_, hbuild⟩
      rw [build_requireFiltered] at hbuild
      rcases map_eq_ok.mp hbuild with ⟨_, _, hi'⟩
      rw [← hi']
      rfl

end Inclusion

namespace Query

/-- The query that demands a related row for every filter. -/
def requiring (query : Query) : Query :=
  { query with
    inclusions := query.inclusions.map (·.map fun i => { i with required := i.filter.isSome }) }

/-- A query that demands nothing and includes a relation in one way only. -/
structure IsLenient (query : Query) : Prop where
  not_required : ∀ i ∈ query.inclusions.getD [], i.required = false
  unique : ∀ i ∈ query.inclusions.getD [], ∀ j ∈ query.inclusions.getD [],
    i.relation = j.relation → i = j

theorem inclusions_requiring (query : Query) :
    query.requiring.inclusions.getD [] =
      (query.inclusions.getD []).map fun i => { i with required := i.filter.isSome } := by
  unfold requiring
  cases query.inclusions <;> rfl

end Query

namespace QueryBuilder

variable {builder : QueryBuilder} {request : RequestQuery} {defaults : Defaults}

theorem inclusions_requireFiltered
    (builder : QueryBuilder) (required : Bool) (request : RequestQuery) (defaults : Defaults) :
    inclusions { builder with requireFiltered := required } request defaults =
      (inclusions { builder with requireFiltered := false } request defaults).map
        (·.map (·.map fun i => { i with required := required && i.filter.isSome })) :=
  Inclusion.resolve_requireFiltered builder required request _

theorem isLenient_of_forList
    {query : Query} {page : Page}
    (h : { builder with requireFiltered := false }.forList request defaults =
      .ok (query, page)) :
    query.IsLenient := by
  unfold forList at h
  rcases bind_eq_ok.mp h with ⟨_, _, h⟩
  rcases bind_eq_ok.mp h with ⟨inclusions, hinclusions, h⟩
  have hresolve := Inclusion.of_resolve hinclusions
  cases pure_eq_ok.mp h
  refine ⟨fun i hi => (hresolve i hi).1, ?_⟩
  intro i hi j hj hname
  have hbuild := (hresolve i hi).2
  rw [hname, (hresolve j hj).2] at hbuild
  exact (Except.ok.inj hbuild).symm

/-- A builder that demands related rows differs in these demands only. -/
theorem forList_requiring
    {strict lenient : Query} {page page' : Page}
    (hstrict : { builder with requireFiltered := true }.forList request defaults =
      .ok (strict, page))
    (hlenient : { builder with requireFiltered := false }.forList request defaults =
      .ok (lenient, page')) :
    strict = lenient.requiring := by
  unfold forList at hstrict hlenient
  rcases bind_eq_ok.mp hstrict with ⟨filter, hfilter, hstrict⟩
  rcases bind_eq_ok.mp hstrict with ⟨demanding, hdemanding, hstrict⟩
  rcases bind_eq_ok.mp hlenient with ⟨filter', hfilter', hlenient⟩
  rcases bind_eq_ok.mp hlenient with ⟨inclusions, hinclusions, hlenient⟩
  rw [inclusions_requireFiltered, hinclusions] at hdemanding
  have hsame : filter = filter' := by
    have hcompile : (Except.ok filter : Except Filter.Error (Option Predicate)) = .ok filter' :=
      hfilter.symm.trans hfilter'
    exact Except.ok.inj hcompile
  cases pure_eq_ok.mp hstrict
  cases pure_eq_ok.mp hlenient
  cases hdemanding
  rw [hsame]
  unfold Query.requiring
  simp only [Bool.true_and]

end QueryBuilder
end RecordApi
