import RecordApi.Proofs.Storage.Nesting

/-!
# Loading related rows

What an inclusion needs so that it can be nested in some parents: that it is understood, that
its filter can be told on every row it is asked of, and that every row it shows can be read.
Fewer parents need less, and the action for which the rows are loaded makes no difference.
So what can be shown of some rows can be shown of any part of them.
-/

namespace RecordApi

open Steps Storage

variable {store : Store} {db : Database} {action : Action}

namespace Inclusion

/-- A row of the target of which the filter of an inclusion is asked. -/
def Asks (store : Store) (db : Database) (relation : Relation) (target : Model)
    (parents : List Row) (child : Row) : Prop :=
  parents ≠ [] ∧ child ∈ db.rows target ∧
    (relation.join.filtersFirst = true ∨ ∃ parent ∈ parents, ∃ owner ∈ store.kin db parent,
      relation.join.multiplicity db store.model target owner child ≠ 0)

/-- An inclusion is understood, and can be nested in some parents. -/
structure Loads (store : Store) (db : Database) (parents : List Row) (inclusion : Inclusion)
    (relation : Relation) (target : Model) (clause? : Option (Clause Value)) : Prop where
  resolved : store.relation inclusion = .ok (relation, target)
  renders : inclusion.Renders target clause?
  prepared : parents ≠ [] → (asked clause?).hasQuantifier = false ∧
    Binding.firstError? (asked clause?).bindings = none
  told : ∀ child, Asks store db relation target parents child →
    ∃ holds, (asked clause?).bound.holds? child = some holds
  readable : ∀ parent ∈ parents, ∀ owner ∈ store.kin db parent, ∀ child ∈ db.rows target,
    relation.join.multiplicity db store.model target owner child ≠ 0 →
      inclusion.admits target child = true →
        ∃ shown, showRow target inclusion.attributes child = .ok shown

variable {inclusion : Inclusion} {relation : Relation} {target : Model}
  {clause? : Option (Clause Value)} {parents fewer : List Row}

theorem ne_nil_of_subset (hsubset : fewer ⊆ parents) (hsome : fewer ≠ []) : parents ≠ [] := by
  intro hnil
  rw [hnil] at hsubset
  exact hsome (List.subset_nil.mp hsubset)

theorem Asks.of_subset
    {child : Row}
    (hsubset : fewer ⊆ parents)
    (h : Asks store db relation target fewer child) :
    Asks store db relation target parents child := by
  rcases h with ⟨hsome, hchild, hasked⟩
  refine ⟨ne_nil_of_subset hsubset hsome, hchild, ?_⟩
  rcases hasked with hall | ⟨parent, hparent, hrelated⟩
  · exact Or.inl hall
  · exact Or.inr ⟨parent, hsubset hparent, hrelated⟩

theorem Loads.of_subset
    (hsubset : fewer ⊆ parents)
    (h : Loads store db parents inclusion relation target clause?) :
    Loads store db fewer inclusion relation target clause? where
  resolved := h.resolved
  renders := h.renders
  prepared := fun hsome => h.prepared (ne_nil_of_subset hsubset hsome)
  told := fun child hasks => h.told child (hasks.of_subset hsubset)
  readable := fun parent hparent => h.readable parent (hsubset hparent)

theorem mem_candidates
    {rows : List Row} {child : Row} :
    child ∈ inclusion.candidates target rows ↔
      child ∈ rows ∧ inclusion.admits target child = true := by
  unfold candidates
  rw [(perm_sortRows _ _).mem_iff, List.mem_filter]

end Inclusion

namespace Store

open Inclusion

variable {inclusion : Inclusion} {inclusions : List Inclusion} {relation : Relation}
  {target : Model} {clause? : Option (Clause Value)}

/-! ## One inclusion -/

/-- The rows that are looked through are those of which the filter is asked. -/
theorem mem_pool_iff
    {parents : List Row} {child : Row}
    (hrecalls : store.Recalls db) (hstored : parents ⊆ db.rows store.model)
    (hread : ∀ parent ∈ parents, ∃ id, readId? store.model parent = some id)
    (hsome : parents ≠ []) :
    child ∈ store.pool db relation target (store.owners db (parents.map store.shownId)) ↔
      Asks store db relation target parents child := by
  unfold pool Asks
  cases relation.join.filtersFirst with
  | true => simp [hsome]
  | false =>
      have howners := mem_owners_iff hrecalls hstored hread
      simp only [Bool.false_eq_true, if_false, List.mem_filter, List.any_eq_true, howners, ne_eq,
        hsome, not_false_eq_true, true_and, false_or, bne_iff_ne]
      refine and_congr_right fun _ => ?_
      constructor
      · rintro ⟨owner, ⟨parent, hparent, howner⟩, hrelated⟩
        exact ⟨parent, hparent, owner, howner, hrelated⟩
      · rintro ⟨parent, hparent, owner, howner, hrelated⟩
        exact ⟨owner, ⟨parent, hparent, howner⟩, hrelated⟩

theorem mem_related_iff
    {parents : List Row} {pair : Row × Row}
    (hrecalls : store.Recalls db) (hstored : parents ⊆ db.rows store.model)
    (hread : ∀ parent ∈ parents, ∃ id, readId? store.model parent = some id) :
    pair ∈ store.joined db relation target (store.owners db (parents.map store.shownId))
        (inclusion.candidates target (db.rows target)) ↔
      (pair.2 ∈ db.rows target ∧ inclusion.admits target pair.2 = true) ∧
        (∃ parent ∈ parents, pair.1 ∈ store.kin db parent) ∧
        relation.join.multiplicity db store.model target pair.1 pair.2 ≠ 0 := by
  rw [mem_joined_iff, mem_candidates, mem_owners_iff hrecalls hstored hread]

/-- Related rows of which each can be shown are loaded with their owners. -/
theorem exists_loadPair
    {relation : Relation} {target : Model} {clause? : Option (Clause Value)} {rows : List Row}
    {pair : Row × Row}
    (h : Loads store db rows inclusion relation target clause?)
    (hpair : (pair.2 ∈ db.rows target ∧ inclusion.admits target pair.2 = true) ∧
      (∃ parent ∈ rows, pair.1 ∈ store.kin db parent) ∧
        relation.join.multiplicity db store.model target pair.1 pair.2 ≠ 0) :
    ∃ taken, store.loadPair target inclusion.attributes pair = .ok taken := by
  rcases hpair with ⟨⟨hchild, hadmits⟩, ⟨parent, hparent, howner⟩, hmultiplicity⟩
  rcases h.readable parent hparent pair.1 howner pair.2 hchild hmultiplicity hadmits with
    ⟨values, hvalues⟩
  rcases showRow_eq_ok.mp hvalues with ⟨entity, hentity, _⟩
  exact ⟨(store.shownId pair.1, entity),
    loadPair_eq_ok.mpr ⟨readId?_of_isKin (mem_kin_iff.mp howner).2, hentity⟩⟩

/-- An inclusion is nested in some rows exactly when it can be loaded for them. -/
theorem exists_nest_iff
    (action : Action) (inclusion : Inclusion) {parents : List (Row × Assoc Value)} {shown : Shown}
    (hrecalls : store.Recalls db) (hshows : store.ShowsOf db parents shown) :
    (∃ after, store.nest db action inclusion shown = .ok after) ↔
      ∃ relation target clause?,
        Loads store db (parents.map (·.1)) inclusion relation target clause? := by
  have hids := hshows.ids_eq
  have hstored := hshows.stored
  have hread := hshows.readable
  generalize parents.map (·.1) = rows at hids hstored hread
  have hbound := hrecalls.bound rows hstored hread
  constructor
  · rintro ⟨after, h⟩
    unfold nest at h
    rcases bind_eq_ok.mp h with ⟨⟨relation, target⟩, hresolved, h⟩
    rcases bind_eq_ok.mp h with ⟨pairs, hrelated, h⟩
    rcases bind_eq_ok.mp h with ⟨loaded, hloaded, _⟩
    rw [hids] at hrelated
    rcases renders_of_relatedRows hrelated with ⟨clause?, hrenders⟩
    have hparts (hsome : rows ≠ []) :=
      (relatedRows_eq_ok_iff (by simpa using hsome) hrenders hbound).mp hrelated
    refine ⟨relation, target, clause?, hresolved, hrenders, fun hsome => (hparts hsome).1, ?_, ?_⟩
    · intro child hasks
      exact (hparts hasks.1).2.1 child ((mem_pool_iff hrecalls hstored hread hasks.1).mpr hasks)
    · intro parent hparent owner howner child hchild hmultiplicity hadmits
      have hpair : (owner, child) ∈ pairs := by
        rw [relatedRows_eq_joined hrecalls hstored hread hrelated,
          mem_related_iff hrecalls hstored hread]
        exact ⟨⟨hchild, hadmits⟩, ⟨parent, hparent, howner⟩, hmultiplicity⟩
      rcases exists_mapM_iff.mp ⟨loaded, hloaded⟩ (owner, child) hpair with ⟨taken, htaken⟩
      exact ⟨_, showRow_eq_ok.mpr ⟨taken.2, (loadPair_eq_ok.mp htaken).2, rfl⟩⟩
  · rintro ⟨relation, target, clause?, h⟩
    have hrelated : ∃ pairs, store.relatedRows db action inclusion relation target
        (rows.map store.shownId) = .ok pairs := by
      by_cases hnone : rows = []
      · rw [hnone]
        exact ⟨[], relatedRows_nil h.renders⟩
      · refine ⟨_, (relatedRows_eq_ok_iff (by simpa using hnone) h.renders hbound).mpr
          ⟨h.prepared hnone, ?_, rfl⟩⟩
        intro child hchild
        exact h.told child ((mem_pool_iff hrecalls hstored hread hnone).mp hchild)
    rcases hrelated with ⟨pairs, hrelated⟩
    have hloaded : ∀ pair ∈ pairs, ∃ taken,
        store.loadPair target inclusion.attributes pair = .ok taken := by
      intro pair hpair
      rw [relatedRows_eq_joined hrecalls hstored hread hrelated,
        mem_related_iff hrecalls hstored hread] at hpair
      exact exists_loadPair h hpair
    rcases exists_mapM_iff.mpr hloaded with ⟨loaded, hloaded⟩
    unfold nest
    rw [h.resolved]
    dsimp only [bind, Except.bind]
    rw [hids, hrelated]
    exact ⟨_, bind_eq_ok.mpr ⟨loaded, hloaded, rfl⟩⟩

/-! ## All inclusions -/

/-- By induction on the inclusions: nesting one of them keeps the rows. -/
theorem exists_nestAll_iff
    (action : Action) {later : List Inclusion} {parents : List (Row × Assoc Value)} {shown : Shown}
    (hfaithful : store.Faithful db inclusions) (hlater : later ⊆ inclusions)
    (hshows : store.ShowsOf db parents shown) :
    (∃ after, store.nestAll db action later shown = .ok after) ↔
      ∀ inclusion ∈ later, ∃ relation target clause?,
        Loads store db (parents.map (·.1)) inclusion relation target clause? := by
  induction later generalizing parents shown with
  | nil =>
      constructor
      · exact fun _ _ hmem => absurd hmem List.not_mem_nil
      · exact fun _ => ⟨shown, rfl⟩
  | cons inclusion rest ih =>
      rcases List.cons_subset.mp hlater with ⟨hmem, hothers⟩
      have hrecalls := hfaithful.recalls (List.ne_nil_of_mem hmem)
      have hfirst := exists_nest_iff action inclusion hrecalls hshows
      have hlast : ∀ {middle}, store.nest db action inclusion shown = .ok middle →
          ((∃ after, store.nestAll db action rest middle = .ok after) ↔
            ∀ inclusion ∈ rest, ∃ relation target clause?,
              Loads store db (parents.map (·.1)) inclusion relation target clause?) := by
        intro middle hmiddle
        have hsame := ih hothers (nest_eq_ok hfaithful hmem hshows hmiddle)
        rw [List.map_map] at hsame
        exact hsame
      rw [List.forall_mem_cons]
      constructor
      · rintro ⟨after, h⟩
        rcases bind_eq_ok.mp h with ⟨middle, hmiddle, hrest⟩
        exact ⟨hfirst.mp ⟨middle, hmiddle⟩, (hlast hmiddle).mp ⟨after, hrest⟩⟩
      · rintro ⟨hloads, hothers⟩
        rcases hfirst.mpr hloads with ⟨middle, hmiddle⟩
        rcases (hlast hmiddle).mpr hothers with ⟨after, hrest⟩
        exact ⟨after, bind_eq_ok.mpr ⟨middle, hmiddle, hrest⟩⟩

/-- Where keys are shown faithfully, rows are shown exactly when each of them can be read and every
inclusion can be loaded for them; what they show then is the answer of the query to each. -/
theorem showRows_eq_ok_iff
    {query : Query} {rows : List Row} {shown : List (Assoc Value)}
    (hfaithful : store.Faithful db (query.inclusions.getD []))
    (hrows : rows ⊆ db.rows store.model) :
    store.showRows db action query rows = .ok shown ↔
      (∀ row ∈ rows, ∃ own, showRow store.model query.attributes row = .ok own) ∧
      (∀ inclusion ∈ query.inclusions.getD [], ∃ relation target clause?,
        Loads store db rows inclusion relation target clause?) ∧
      shown = rows.map (store.answer db query) := by
  have hload : (∀ row ∈ rows, ∃ own, showRow store.model query.attributes row = .ok own) ↔
      ∃ loaded, rows.mapM (loadRow store.model query.attributes) = .ok loaded := by
    rw [exists_mapM_iff]
    refine forall₂_congr fun row _ => ?_
    constructor
    · rintro ⟨own, hown⟩
      rcases showRow_eq_ok.mp hown with ⟨entity, hentity, _⟩
      exact ⟨entity, hentity⟩
    · rintro ⟨entity, hentity⟩
      exact ⟨_, showRow_eq_ok.mpr ⟨entity, hentity, rfl⟩⟩
  have hnest : ∀ {loaded}, rows.mapM (loadRow store.model query.attributes) = .ok loaded →
      ((∃ after, store.nestAll db action (query.inclusions.getD [])
          (store.shownOwn query.attributes loaded) = .ok after) ↔
        ∀ inclusion ∈ query.inclusions.getD [], ∃ relation target clause?,
          Loads store db rows inclusion relation target clause?) := by
    intro loaded hloaded
    by_cases hnone : query.inclusions.getD [] = []
    · rw [hnone]
      exact ⟨fun _ _ hmem => absurd hmem List.not_mem_nil, fun _ => ⟨_, rfl⟩⟩
    · have hshows := showsOf_shownOwn hfaithful.apart (hfaithful.recalls hnone) hrows hloaded
      have hall := exists_nestAll_iff action hfaithful (List.Subset.refl _) hshows
      rw [List.map_map] at hall
      rwa [show rows.map ((·.1) ∘ fun row => (row, shownOf store.model query.attributes row)) =
        rows from List.map_id rows] at hall
  rw [hload]
  constructor
  · intro h
    have hanswer := showRows_eq_ok hfaithful hrows h
    unfold showRows at h
    rcases bind_eq_ok.mp h with ⟨loaded, hloaded, h⟩
    rcases bind_eq_ok.mp h with ⟨after, hafter, _⟩
    exact ⟨⟨loaded, hloaded⟩, (hnest hloaded).mp ⟨after, hafter⟩, hanswer⟩
  · rintro ⟨⟨loaded, hloaded⟩, hloads, hanswer⟩
    rcases (hnest hloaded).mpr hloads with ⟨after, hafter⟩
    have h : store.showRows db action query rows = .ok (after.rows.map (·.2)) :=
      bind_eq_ok.mpr ⟨loaded, hloaded, bind_eq_ok.mpr ⟨after, hafter, rfl⟩⟩
    rw [h, hanswer, showRows_eq_ok hfaithful hrows h]

/-- What can be shown of some rows can be shown of any part of them, under any action. -/
theorem showRows_of_subset
    {other : Action} {query : Query} {rows fewer : List Row} {shown : List (Assoc Value)}
    (hfaithful : store.Faithful db (query.inclusions.getD []))
    (hrows : rows ⊆ db.rows store.model) (hsubset : fewer ⊆ rows)
    (h : store.showRows db action query rows = .ok shown) :
    store.showRows db other query fewer = .ok (fewer.map (store.answer db query)) := by
  rcases (showRows_eq_ok_iff hfaithful hrows).mp h with ⟨hread, hloads, _⟩
  refine (showRows_eq_ok_iff hfaithful (List.Subset.trans hsubset hrows)).mpr
    ⟨fun row hrow => hread row (hsubset hrow), ?_, rfl⟩
  intro inclusion hinclusion
  rcases hloads inclusion hinclusion with ⟨relation, target, clause?, hloaded⟩
  exact ⟨relation, target, clause?, hloaded.of_subset hsubset⟩

end Store
end RecordApi
