import RecordApi.Api.Failure
import RecordApi.Proofs.Storage.Filtering
import RecordApi.Proofs.Storage.Recalling
import RecordApi.Proofs.Storage.Selecting
import RecordApi.Sample.Bands
import RecordApi.Sample.Service

/-!
# What a destruction destroys

A list and a destruction are two statements, put together apart from each other.  Asked by one
predicate they understand it alike, bind the same operands and tell every row by the same
test, so that exactly the listed rows are destroyed.
-/

namespace RecordApi

open Steps Storage

/-- A query asks one predicate and nothing else of the rows, and shows all that it selects. -/
structure Query.AsksOnly (query : Query) (p : Predicate) : Prop where
  filter : query.filter = some p
  inclusions : query.inclusions.getD [] = []
  limit : query.limit = none
  offset : query.offset = none

namespace Store

variable {store : Store} {db after : Database} {query : Query} {p : Predicate}
  {selection : Selection Value} {keys : List SortKey}

/-! ## One predicate -/

theorem ofQuery_eq_ok_iff
    (hasks : query.AsksOnly p) :
    Selection.ofQuery store query = .ok selection ↔
      ∃ clause, Clause.ofPredicate store.model store.name p = .ok clause ∧
        selection = ⟨some clause, []⟩ := by
  unfold Selection.ofQuery
  rw [hasks.filter, hasks.inclusions]
  constructor
  · intro h
    rcases bind_eq_ok.mp h with ⟨clause?, hrendered, h⟩
    rcases bind_eq_ok.mp h with ⟨required, hrequired, h⟩
    rcases map_eq_ok.mp hrendered with ⟨clause, hclause, rfl⟩
    cases hrequired
    exact ⟨clause, hclause, (pure_eq_ok.mp h).symm⟩
  · rintro ⟨clause, hclause, rfl⟩
    exact bind_eq_ok.mpr ⟨some clause, map_eq_ok.mpr ⟨clause, hclause, rfl⟩, rfl⟩

/-- Which rows a predicate selects does not depend on the rows of other tables. -/
theorem selects_eq
    (hasks : query.AsksOnly p) (hselection : Selection.ofQuery store query = .ok selection)
    (after : Database) (row : Row) :
    selection.simplified.bound.selects? after store.model row =
      selection.simplified.bound.selects? db store.model row := by
  rcases (ofQuery_eq_ok_iff hasks).mp hselection with ⟨clause, _, rfl⟩
  rw [Selection.selects?_of_clause, Selection.selects?_of_clause]

/-- What runs on the rows of a table runs on some of them. -/
theorem Runs.of_subset
    (hasks : query.AsksOnly p) (hruns : store.Runs db query selection keys)
    (hsubset : after.rows store.model ⊆ db.rows store.model) :
    store.Runs after query selection keys where
  rendered := hruns.rendered
  projected := hruns.projected
  ordered := hruns.ordered
  prepared := hruns.prepared
  told := by
    intro row hrow
    rw [selects_eq hasks hruns.rendered after row]
    exact hruns.told row (hsubset hrow)

theorem selects_of_runs
    (hruns : store.Runs db query selection keys) (row : Row) :
    store.selects db query row =
      (selection.simplified.bound.selects? db store.model row == some true) := by
  unfold selects
  rw [hruns.rendered]

/-- Where a predicate can be listed it can be destroyed by, and the rows that are not listed are
spared. -/
theorem spared_of_runs
    (hasks : query.AsksOnly p) (hruns : store.Runs db query selection keys) :
    store.spared db (some p) =
      .ok ((db.rows store.model).filter fun row => !store.selects db query row) := by
  rcases (ofQuery_eq_ok_iff hasks).mp hruns.rendered with ⟨clause, hclause, rfl⟩
  have hprepared := hruns.prepared
  have htold := hruns.told
  simp only [Selection.selects?_of_clause] at htold
  simp only [Selection.simplified_clause, Selection.hasQuantifier, Selection.bindings,
    Option.map_some, Option.getD_some, List.any_nil, Bool.or_false, List.flatMap_nil,
    List.append_nil] at hprepared
  have hspared : ∀ row ∈ db.rows store.model, ∃ spared,
      (clause.simplified.bound.selects? store.model row).map (!·) = some spared := by
    intro row hrow
    rcases htold row hrow with ⟨selected, hselected⟩
    exact ⟨!selected, by rw [hselected, Option.map_some]⟩
  unfold spared
  refine bind_eq_ok.mpr ⟨some clause, map_eq_ok.mpr ⟨clause, hclause, rfl⟩, ?_⟩
  refine bind_eq_ok.mpr ⟨(), prepare_eq_ok.mpr hprepared, ?_⟩
  rw [evaluated_eq_ok, filterRows?_of_told hspared]
  congr 1
  apply List.filter_congr
  intro row hrow
  rcases htold row hrow with ⟨selected, hselected⟩
  rw [selects_of_runs hruns, Selection.selects?_of_clause, hselected]
  cases selected <;> rfl

/-! ## Destroying what is listed -/

/-- Of the rows of a table exactly some were taken away; the other rows are in their order, and
no other table was touched. -/
structure Removes (store : Store) (db after : Database) (removed : List Row) : Prop where
  apart : (removed ++ after.rows store.model).Perm (db.rows store.model)
  ordered : (after.rows store.model).Sublist (db.rows store.model)
  outside : db.SameOutside store.model after

/-- The selected rows are removed where all others are kept. -/
theorem removes_selected (store : Store) (db : Database) (query : Query) :
    store.Removes db
      (db.withRows store.model
        ((db.rows store.model).filter fun row => !store.selects db query row))
      (store.selected db query) where
  apart := by
    rw [Database.rows_withRows]
    exact ((perm_selected store db query).append_right _).trans
      (List.filter_append_perm (store.selects db query) (db.rows store.model))
  ordered := by
    rw [Database.rows_withRows]
    exact List.filter_sublist
  outside := Database.sameOutside_withRows db store.model _

/-- Nothing is selected where no row is kept that was selected. -/
theorem selected_eq_nil
    (hasks : query.AsksOnly p) (hruns : store.Runs db query selection keys) :
    store.selected (db.withRows store.model
      ((db.rows store.model).filter fun row => !store.selects db query row)) query = [] := by
  rw [List.eq_nil_iff_forall_not_mem]
  intro row hrow
  rcases mem_selected.mp hrow with ⟨hkept, selection', hselection', hselects⟩
  rw [hruns.rendered] at hselection'
  cases hselection'
  rw [Database.rows_withRows, List.mem_filter, selects_of_runs hruns,
    ← selects_eq hasks hruns.rendered, hselects] at hkept
  cases hkept.2

/-- Where a predicate can be listed, a destruction by it removes exactly the rows that it selects,
as many as the list counts, and these are what the list shows; so where keys tell the rows of the
table apart, each listed row is a removed one that shows itself.  Afterwards the predicate lists
nothing.  And without a predicate nothing is destroyed. -/
theorem destroy_of_list (store : Store) (db : Database) :
    (∀ query p listing, Query.AsksOnly query p → store.list db query = .ok listing →
      ∃ after, store.destroy db (some p) = (.ok listing.count, after) ∧
        store.Removes db after (store.selected db query) ∧
        (store.selected db query).length = listing.count ∧
        listing.rows = store.shownRows query.attributes (store.selected db query) ∧
        (TellsApart store.model (db.rows store.model) →
          List.Forall₂ (fun row values => showRow store.model query.attributes row = .ok values)
            (store.selected db query) listing.rows) ∧
        store.list after query = .ok ⟨[], 0⟩) ∧
    ∃ error, store.destroy db none = (.error error, db) ∧
      (Failure.store error).label = "StorageError" := by
  refine ⟨?_, .unguarded store.name, rfl, rfl⟩
  intro query p listing hasks h
  rcases list_eq_ok_iff.mp h with ⟨⟨selection, keys, hruns⟩, hlimit, hoffset, hshown, hcount⟩
  have hslice : ∀ rows, slice query.limit query.offset rows = rows := by
    intro rows
    rw [hasks.limit, hasks.offset]
    rfl
  rw [hslice, showRows_plain_iff hasks.inclusions] at hshown
  have hremoves := removes_selected store db query
  have hnil := selected_eq_nil hasks hruns
  have hspared := spared_of_runs hasks hruns
  generalize hafter : (db.rows store.model).filter (fun row => !store.selects db query row) = kept
    at hremoves hnil hspared
  refine ⟨db.withRows store.model kept, ?_, hremoves, hcount.symm, hshown.2, ?_, ?_⟩
  · have hlength := hremoves.apart.length_eq
    rw [List.length_append, Database.rows_withRows, ← hcount] at hlength
    unfold destroy
    rw [hspared]
    dsimp only
    rw [← hlength, Nat.add_sub_cancel]
  · intro hapart
    rw [hshown.2, shownRows_of_tellsApart hapart (selected_subset store db query) hshown.1,
      List.forall₂_map_right_iff, List.forall₂_same]
    intro row hrow
    rcases hshown.1 row hrow with ⟨own, hown⟩
    rw [shownOf_of_showRow hown]
    exact hown
  · have hsubset := hremoves.ordered.subset
    refine list_eq_ok_iff.mpr
      ⟨⟨selection, keys, hruns.of_subset hasks hsubset⟩, hlimit, hoffset, ?_, ?_⟩
    · rw [hslice, hnil]
      exact (showRows_plain_iff hasks.inclusions).mpr
        ⟨fun _ hmem => absurd hmem List.not_mem_nil, rfl⟩
    · rw [hnil]
      rfl

end Store

namespace Sample

/-- Posts from before February 2024, or whose title starts with a Z; one post has no date. -/
def oldOrZebra : Predicate :=
  .group .or [.condition ⟨"created_on", .known .lt, .text "2024-02-01"⟩,
    .group .and [.condition ⟨"title", .known .like, .text "Z%"⟩, .group .and []]]

theorem destroy_of_list_posts :
    let store := (resource posts).store
    let query : Query := { filter := some oldOrZebra }
    ∃ listing after, store.list database query = .ok listing ∧
      listing.count = 3 ∧ store.destroy database (some oldOrZebra) = (.ok 3, after) ∧
      store.Removes database after (store.selected database query) ∧
      (store.selected database query).length = 3 ∧
      List.Forall₂ (fun row values => showRow posts none row = .ok values)
        (store.selected database query) listing.rows ∧
      store.list after query = .ok ⟨[], 0⟩ := by
  intro store query
  have hapart : TellsApart posts (database.rows posts) :=
    tellsApart_tables posts (by simp [schema])
  have hlist : (store.list database query).toOption.map (·.count) = some 3 := by decide +kernel
  rcases Option.map_eq_some_iff.mp hlist with ⟨listing, hlisting, hcount⟩
  rw [toOption_eq_some] at hlisting
  have hasks : query.AsksOnly oldOrZebra := ⟨rfl, rfl, rfl, rfl⟩
  rcases (Store.destroy_of_list store database).1 query oldOrZebra listing hasks hlisting with
    ⟨after, hdestroy, hremoves, hlength, _, hlisted, hempty⟩
  rw [hcount] at hdestroy hlength
  exact ⟨listing, after, hlisting, hcount, hdestroy, hremoves, hlength, hlisted hapart, hempty⟩

/-- The predicate that holds no condition and is true of every row. -/
def unconditional : Predicate :=
  .group .and []

/-- The bands are listed as twice the first one, where both of them are destroyed.  And a predicate
that holds no condition destroys every row, where none at all is refused. -/
theorem destroyed_otherwise :
    (let query : Query := { filter := some unconditional }
     (bandStore.list bandDatabase query).toOption.map (fun listing =>
        listing.rows.map fun shown => (Assoc.get? shown "label").map (·.sameAs (.text "first"))) =
          some [some true, some true] ∧
      (bandStore.selected bandDatabase query).map (·.cell "label") =
        [.text "first", .text "second"] ∧
      (bandStore.destroy bandDatabase (some unconditional)).1.toOption = some 2 ∧
      (bandStore.destroy bandDatabase (some unconditional)).2.rows bands = []) ∧
    (let store := (resource posts).store
     unconditional.conditions = [] ∧
      (store.destroy database (some unconditional)).1.toOption = some 5 ∧
      (store.destroy database (some unconditional)).2.rows posts = []) := by
  refine ⟨⟨?listed, ?selected, ?counted, rfl⟩, rfl, ?unasked, rfl⟩
  case listed => decide +kernel
  case selected => decide
  case counted => decide
  case unasked => decide

end Sample
end RecordApi
