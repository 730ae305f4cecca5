import RecordApi.Proofs.Storage.Lookup
import RecordApi.Proofs.Storage.Storing

/-!
# Rows that equal an operand

An equality can be asked of every row of a table.  A row that was inserted with a value equals the
value as an operand, and so does a row that was inserted with a null and kept it.
-/

namespace RecordApi

open Steps

namespace Storage

/-- The cell of a column equals a converted operand; null equals null. -/
def equalsOperand (column : Column) (operand : Value) (cell : Cell) : Bool :=
  match operand with
  | .null => cell.isNull
  | v => cell.sameKey (comparedCell column v)

theorem equalsOperand_of_ne_null
    {column : Column} {operand : Value} {cell : Cell}
    (h : operand ≠ .null) :
    equalsOperand column operand cell = cell.sameKey (comparedCell column operand) := by
  cases operand with
  | null => exact absurd rfl h
  | _ => rfl

theorem exists_equality (operand : Value) :
    ∃ test, Clause.comparisonTest .eq operand = .ok test ∧ test.isQuantified = false := by
  cases operand with
  | null => exact ⟨_, rfl, rfl⟩
  | bool b => exact ⟨_, rfl, rfl⟩
  | _ => exact ⟨_, rfl, rfl⟩

theorem truth?_equality
    {operand : Value} {test : Test Value}
    (h : Clause.comparisonTest .eq operand = .ok test) (column : Column) (row : Row) :
    ((test.bound column).truth? column row).map (· == .yes) =
      some (equalsOperand column operand (row.cell column.key)) := by
  cases operand with
  | null =>
      cases h
      change some (Truth.ofBool ((row.cell column.key).isNull != false) == .yes) =
        some (row.cell column.key).isNull
      cases (row.cell column.key).isNull <;> rfl
  | _ => exact equalityTest_truth? column row Value.noConfusion h

/-- An operand that some cell equals is bound without an error. -/
theorem bind_of_equalsOperand
    {column : Column} {operand : Value} {test : Test Value} {cell : Cell}
    (h : Clause.comparisonTest .eq operand = .ok test)
    (hequals : equalsOperand column operand cell = true) :
    ∀ binding ∈ test.bindings column, ∃ bound, binding = .ok bound := by
  cases operand with
  | null =>
      cases h
      exact fun _ hmem => absurd hmem List.not_mem_nil
  | _ => exact Store.bind_of_sameKey hequals h

end Storage

namespace Store

open Storage

variable {store : Store} {query : Query} {column : Column} {v operand : Value} {cell : Cell}

/-- A query asks for nothing but an equality. -/
structure IsEquality (query : Query) (field : String) (v : Value) : Prop where
  filter : query.filter = some (.condition (Predicate.equals field v))
  order : query.order = none
  inclusions : query.inclusions = none

theorem ofQuery_equality
    {test : Test Value}
    (hquery : IsEquality query column.key v)
    (hcolumn : store.model.column? column.key = some column)
    (hcoerce : Clause.coerce column v = .ok operand)
    (htest : Clause.comparisonTest .eq operand = .ok test) :
    Selection.ofQuery store query = .ok ⟨some (.test column test), []⟩ := by
  have hfound : Clause.column store.model store.name column.key = .ok column := by
    unfold Clause.column
    rw [hcolumn]
  have hclause : Clause.ofPredicate store.model store.name
      (.condition (Predicate.equals column.key v)) = .ok (.test column test) := by
    refine bind_eq_ok.mpr ⟨column, hfound, bind_eq_ok.mpr ⟨test, ?_, rfl⟩⟩
    exact bind_eq_ok.mpr ⟨operand, hcoerce, htest⟩
  unfold Selection.ofQuery
  rw [hquery.filter, hquery.inclusions]
  refine bind_eq_ok.mpr ⟨some (.test column test), map_eq_ok.mpr ⟨_, hclause, rfl⟩, ?_⟩
  exact bind_eq_ok.mpr ⟨[], rfl, rfl⟩

/-- An equality selects the rows whose cell equals the operand, in the order of the table. -/
theorem selects_equality_iff
    (hquery : IsEquality query column.key v)
    (hcolumn : store.model.column? column.key = some column)
    (hcoerce : Clause.coerce column v = .ok operand)
    (db : Database) (row : Row) :
    store.Selects db query row ↔ equalsOperand column operand (row.cell column.key) = true := by
  rcases exists_equality operand with ⟨test, htest, _⟩
  have hselects := truth?_equality htest column row
  rw [← Clause.selects?_test store.model, ← Selection.selects?_of_clause db] at hselects
  unfold Selects
  rw [ofQuery_equality hquery hcolumn hcoerce htest]
  constructor
  · rintro ⟨selection, hselection, hrow⟩
    cases hselection
    rw [hselects] at hrow
    exact Option.some.inj hrow
  · intro hequals
    refine ⟨_, rfl, ?_⟩
    rw [hselects, hequals]

/-- Where some cell equals its operand, an equality runs on every database. -/
theorem runs_equality
    (hquery : IsEquality query column.key v)
    (hcolumn : store.model.column? column.key = some column)
    (hcoerce : Clause.coerce column v = .ok operand)
    (hequals : equalsOperand column operand cell = true)
    (hfields : checkFields store.model store.name query.attributes = .ok ())
    (db : Database) :
    ∃ selection, store.Runs db query selection [] := by
  rcases exists_equality operand with ⟨test, htest, hquantified⟩
  have hnothing : Selection.IsDemanding (⟨none, []⟩ : Selection Value) :=
    fun _ hmem => absurd hmem List.not_mem_nil
  refine ⟨_, ofQuery_equality hquery hcolumn hcoerce htest, hfields, ?_,
    Selection.prepared_test hquantified (bind_of_equalsOperand htest hequals) hnothing, ?_⟩
  · rw [hquery.order]
    rfl
  · intro row _
    refine ⟨equalsOperand column operand (row.cell column.key), ?_⟩
    rw [Selection.selects?_of_clause, Clause.selects?_test, truth?_equality htest]

variable {db : Database} {payload : Assoc Value} {row : Row}

/-- The new row equals the value that it was inserted with: one that the column holds, or a null in
whose place nothing is put. -/
theorem equalsOperand_of_insert
    (hinsert : store.insert db payload = .ok row)
    (hcolumn : store.model.column? column.key = some column)
    (hgiven : Assoc.get? payload column.key = some operand)
    (hkept : column.type.Holds operand ∨
      operand = .null ∧ column.default = none ∧ store.model.countsUp column = false) :
    equalsOperand column operand (row.cell column.key) = true := by
  rcases hkept with hholds | ⟨rfl, hdefault, hcounts⟩
  · rw [equalsOperand_of_ne_null (Holds.ne_null hholds)]
    exact sameKey_of_insert hinsert hcolumn hgiven hholds
  · have hcell := cell_of_insert_null hinsert hcolumn hgiven hdefault hcounts
    rw [hcell]
    rfl

end Store
end RecordApi
