import RecordApi.Proofs.Storage.Failures
import RecordApi.Proofs.Storage.Lookup
import RecordApi.Proofs.Storage.Truths

/-!
# Queries for one condition

A query for one condition runs when the operands of its test are bound and the test is told on
every row of the table.  It then selects the rows on which the test says yes, and lists them if they
can be read.
-/

namespace RecordApi

open Steps

/-- The query that asks for a field by an operator, and for nothing else. -/
def Query.asking (field : String) (op : Operator) (operand : Value) : Query where
  filter := some (.asks field op operand)

namespace Store

variable {store : Store} {field : String} {op : Operator} {operand : Value} {column : Column}
  {test : Test Value}

theorem ofQuery_asking
    (hcolumn : store.model.column? field = some column)
    (htest : Clause.testOf store.model store.name column op operand = .ok test) :
    Selection.ofQuery store (Query.asking field op operand) =
      .ok ⟨some (.test column test), []⟩ := by
  have hclause : Clause.ofPredicate store.model store.name (.asks field op operand) =
      .ok (.test column test) := by
    rw [Predicate.ofPredicate_asks store.name op operand hcolumn, htest]
    rfl
  refine bind_eq_ok.mpr ⟨some (.test column test), map_eq_ok.mpr ⟨_, hclause, rfl⟩, ?_⟩
  exact bind_eq_ok.mpr ⟨[], rfl, rfl⟩

theorem runs_asking
    {db : Database}
    (hcolumn : store.model.column? field = some column)
    (htest : Clause.testOf store.model store.name column op operand = .ok test)
    (hquantified : test.isQuantified = false)
    (hbound : ∀ binding ∈ test.bindings column, ∃ cell, binding = .ok cell)
    (htold : ∀ row ∈ db.rows store.model, ∃ t, (test.bound column).truth? column row = some t) :
    ∃ selection, store.Runs db (Query.asking field op operand) selection [] := by
  have hnothing : Selection.IsDemanding (⟨none, []⟩ : Selection Value) :=
    fun _ hmem => absurd hmem List.not_mem_nil
  refine ⟨_, ofQuery_asking hcolumn htest, rfl, rfl,
    Selection.prepared_test hquantified hbound hnothing, ?_⟩
  intro row hrow
  rcases htold row hrow with ⟨t, ht⟩
  refine ⟨t == .yes, ?_⟩
  rw [Selection.selects?_of_clause, Clause.selects?_test, ht, Option.map_some]

/-- A query runs only when its condition is understood and its operands are bound. -/
theorem exists_test_of_runs
    {db : Database} {selection : Selection Value} {keys : List SortKey}
    (hcolumn : store.model.column? field = some column)
    (hruns : store.Runs db (Query.asking field op operand) selection keys) :
    ∃ test, Clause.testOf store.model store.name column op operand = .ok test ∧
      ∀ binding ∈ test.bindings column, ∃ cell, binding = .ok cell := by
  have hfilter := hruns.rendered
  unfold Selection.ofQuery at hfilter
  rcases bind_eq_ok.mp hfilter with ⟨_, hclause, _⟩
  rcases map_eq_ok.mp hclause with ⟨clause, hclause, _⟩
  rw [Predicate.ofPredicate_asks store.name op operand hcolumn] at hclause
  rcases map_eq_ok.mp hclause with ⟨test, htest, _⟩
  refine ⟨test, htest, ?_⟩
  have hselection := hruns.rendered
  rw [ofQuery_asking hcolumn htest] at hselection
  cases hselection
  have hbound := Binding.firstError?_eq_none_iff.mp hruns.prepared.2
  exact fun binding hbinding => hbound binding (List.mem_append_left _ hbinding)

/-- A query that runs lists all rows that it selects, if the rows of the table can be read. -/
theorem list_asking
    {db : Database} {selection : Selection Value}
    (hruns : store.Runs db (Query.asking field op operand) selection [])
    (hreadable : ∀ row ∈ db.rows store.model, row.IsReadable store.model) :
    store.list db (Query.asking field op operand) =
      .ok ⟨store.shownRows none (store.selected db (Query.asking field op operand)),
        (store.selected db (Query.asking field op operand)).length⟩ := by
  refine list_eq_ok_iff.mpr ⟨⟨selection, [], hruns⟩, rfl, rfl, ?_, rfl⟩
  refine (showRows_plain_iff rfl).mpr ⟨?_, rfl⟩
  intro row hrow
  cases hown : Storage.showRow store.model none row with
  | ok own => exact ⟨own, hown⟩
  | error error =>
      have hmem := (mem_selected.mp (mem_of_mem_slice hrow)).1
      exact absurd (hreadable row hmem) (Storage.showRow_eq_error hown).2

/-- The rows on which the test says yes are selected. -/
theorem mem_selected_asking
    {db : Database} {row : Row} {t : Truth}
    (hcolumn : store.model.column? field = some column)
    (htest : Clause.testOf store.model store.name column op operand = .ok test)
    (hbound : ∀ binding ∈ test.bindings column, ∃ cell, binding = .ok cell)
    (htruth : (test.bound column).truth? column row = some t)
    (hrow : row ∈ db.rows store.model) :
    row ∈ store.selected db (Query.asking field op operand) ↔ t = .yes := by
  have hhas : (Predicate.asks field op operand).HasTruth store.model store.name row t :=
    (Predicate.hasTruth_asks_iff hcolumn).mpr ⟨test, htest, hbound, htruth⟩
  rw [mem_selected]
  exact (and_iff_right hrow).trans (selects_iff_of_hasTruth db hhas)

end Store

namespace Sample

def itemStore : Store :=
  ⟨schema, registry, "items", items⟩

end Sample
end RecordApi
