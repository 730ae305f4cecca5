import RecordApi.Proofs.Storage.Showing
import RecordApi.Proofs.Storage.Writes

/-!
# The row that is found

A query without an order finds the first row of the table that it selects.  The row of a
given key is found and destroyed by one test, whether the cell of the first key field is the
same key as the operand.
-/

namespace RecordApi

open Steps

namespace Binding

/-- Values are bound together exactly when each of them has a cell. -/
theorem firstError?_eq_none_iff
    {bindings : List (Except BindError Cell)} :
    firstError? bindings = none ↔ ∀ binding ∈ bindings, ∃ cell, binding = .ok cell := by
  have hempty : ∀ errors : List BindError,
      (if errors.contains .refused then some BindError.refused else errors.head?) = none ↔
        errors = [] := by
    intro errors
    cases errors with
    | nil => simp
    | cons e rest => split <;> simp
  unfold firstError?
  rw [hempty, List.filterMap_eq_nil_iff]
  apply forall₂_congr
  intro binding _
  cases binding with
  | error e => simp
  | ok cell => simp

end Binding

namespace Clause

/-- A test alone selects the rows on which its truth is yes. -/
theorem selects?_test (model : Model) (column : Column) (test : Test Value) (row : Row) :
    (Clause.test column test).simplified.bound.selects? model row =
      ((test.bound column).truth? column row).map (· == .yes) := by
  have hmembers : ∀ test : Clause Cell, ([test].filter (looksUp model.keyField) ++
      [test].filter fun clause => !clause.looksUp model.keyField) = [test] := by
    intro test
    cases hlooks : test.looksUp model.keyField with
    | true => simp [hlooks]
    | false => simp [hlooks]
  unfold Clause.simplified Clause.bound Clause.selects? Clause.keyFirst Clause.membersOf
  rw [hmembers]
  unfold Clause.allHold? Clause.holds?
  cases ((test.bound column).truth? column row).map (· == .yes) with
  | none => rfl
  | some selected => cases selected <;> rfl

end Clause

namespace Storage

theorem evaluated_eq_ok
    {β : Type} {action : Action} {model : String} {x : Option β} {b : β} :
    evaluated action model x = .ok b ↔ x = some b := by
  cases x with
  | none => simp [evaluated]
  | some a => simp [evaluated]

theorem prepare_eq_ok
    {action : Action} {name : String} {quantified : Bool} {bindings : List (Except BindError Cell)} :
    prepare action name quantified bindings = .ok () ↔
      quantified = false ∧ Binding.firstError? bindings = none := by
  unfold prepare
  cases quantified with
  | true => simp
  | false => cases Binding.firstError? bindings <;> simp

theorem findRow?_eq_some
    {test : Row → Option Bool} {rows : List Row} {row : Row}
    (h : findRow? test rows = some (some row)) :
    ∃ ahead behind, rows = ahead ++ row :: behind ∧
      (∀ other ∈ ahead, test other = some false) ∧ test row = some true := by
  induction rows with
  | nil => cases h
  | cons first rest ih =>
      unfold findRow? at h
      split at h
      · rename_i htest
        cases h
        refine ⟨[], rest, rfl, ?_, htest⟩
        intro other hother
        cases hother
      · rename_i htest
        rcases ih h with ⟨ahead, behind, hrest, hahead, hrow⟩
        refine ⟨first :: ahead, behind, ?_, ?_, hrow⟩
        · rw [hrest]
          rfl
        · intro other hother
          cases hother with
          | head => exact htest
          | tail _ hmem => exact hahead other hmem
      · cases h

theorem filterRows?_eq_some
    {test : Row → Option Bool} {rows kept : List Row}
    (h : filterRows? test rows = some kept) :
    kept = rows.filter fun row => test row == some true := by
  induction rows generalizing kept with
  | nil =>
      cases h
      rfl
  | cons row rest ih =>
      unfold filterRows? at h
      simp only [Option.bind_eq_bind, Option.bind_eq_some_iff, Option.pure_def,
        Option.some.injEq] at h
      rcases h with ⟨selected, hselected, others, hothers, hkept⟩
      rw [← hkept, ih hothers, List.filter_cons, hselected]
      cases selected <;> rfl

/-- Rows are filtered only where every one of them can be told. -/
theorem told_of_filterRows?
    {test : Row → Option Bool} {rows kept : List Row}
    (h : filterRows? test rows = some kept) :
    ∀ row ∈ rows, ∃ selected, test row = some selected := by
  induction rows generalizing kept with
  | nil => exact fun _ hrow => absurd hrow List.not_mem_nil
  | cons first rest ih =>
      unfold filterRows? at h
      rcases Option.bind_eq_some_iff.mp h with ⟨selected, hselected, h⟩
      rcases Option.bind_eq_some_iff.mp h with ⟨others, hothers, _⟩
      rw [List.forall_mem_cons]
      exact ⟨⟨selected, hselected⟩, ih hothers⟩

theorem findRow?_eq_head?
    {test : Row → Option Bool} {rows : List Row} {found : Option Row}
    (h : findRow? test rows = some found) :
    found = (rows.filter fun row => test row == some true).head? := by
  induction rows with
  | nil =>
      cases h
      rfl
  | cons row rest ih =>
      unfold findRow? at h
      split at h
      · rename_i hyes
        cases h
        rw [List.filter_cons_of_pos (by simp [hyes])]
        rfl
      · rename_i hno
        rw [List.filter_cons_of_neg (by simp [hno])]
        exact ih h
      · cases h

/-- Where every row can be told, the first row is found. -/
theorem findRow?_of_told
    {test : Row → Option Bool} {rows : List Row}
    (h : ∀ row ∈ rows, ∃ selected, test row = some selected) :
    findRow? test rows = some (rows.filter fun row => test row == some true).head? := by
  induction rows with
  | nil => rfl
  | cons row rest ih =>
      rw [List.forall_mem_cons] at h
      rcases h with ⟨⟨selected, hrow⟩, hrest⟩
      unfold findRow?
      rw [hrow]
      cases selected with
      | true =>
          rw [List.filter_cons_of_pos (by simp [hrow])]
          rfl
      | false =>
          rw [List.filter_cons_of_neg (by simp [hrow])]
          exact ih hrest

theorem filterRows?_of_told
    {test : Row → Option Bool} {rows : List Row}
    (h : ∀ row ∈ rows, ∃ selected, test row = some selected) :
    filterRows? test rows = some (rows.filter fun row => test row == some true) := by
  induction rows with
  | nil => rfl
  | cons row rest ih =>
      rw [List.forall_mem_cons] at h
      rcases h with ⟨⟨selected, hrow⟩, hrest⟩
      unfold filterRows?
      rw [hrow, ih hrest, List.filter_cons, hrow]
      cases selected <;> rfl

/-! ## Equality with an operand -/

/-- The cell with which a column is compared when it is to equal a converted operand. -/
def comparedCell (column : Column) (operand : Value) : Cell :=
  (match operand with
    | .bool b => Cell.int (if b then 1 else 0)
    | v => Test.boundCell (column.type.operandType v) v).against column.type.affinity

theorem integral_ne_null (d : Decimal) : Operand.integral d ≠ .null := by
  unfold Operand.integral
  cases d.toInt? with
  | none => exact Value.noConfusion
  | some n => exact Value.noConfusion

theorem coerce_ne_null
    {column : Column} {operand v : Value}
    (hoperand : operand ≠ .null)
    (h : Clause.coerce column operand = .ok v) :
    v ≠ .null := by
  unfold Clause.coerce Operand.coerce at h
  rw [mapError_eq_ok] at h
  split at h
  · exact absurd rfl hoperand
  · split at h
    case h_2 =>
      rcases map_eq_ok.mp h with ⟨d, _, hv⟩
      rw [← hv]
      exact integral_ne_null d
    case h_8 | h_9 | h_10 =>
      cases h
      exact hoperand
    all_goals
      rcases map_eq_ok.mp h with ⟨_, _, hv⟩
      rw [← hv]
      exact Value.noConfusion

/-- Whether two cells are compared as equal. -/
theorem truth_eq_yes (a b : Cell) : (Comparison.eq.truth a b == .yes) = a.sameKey b := by
  unfold Comparison.truth Cell.sameKey
  cases Cell.compare? a b with
  | none => rfl
  | some o => cases o <;> rfl

/-- The test of a comparison has the truth of the comparison. -/
theorem comparisonTest_truth?
    {comparison : Comparison} (column : Column) {operand : Value} {test : Test Value} (row : Row)
    (hoperand : operand ≠ .null)
    (h : Clause.comparisonTest comparison operand = .ok test) :
    (test.bound column).truth? column row =
      some (comparison.truth (row.cell column.key) (comparedCell column operand)) := by
  cases operand with
  | null => exact absurd rfl hoperand
  | _ => cases comparison <;> cases h <;> rfl

theorem equalityTest_truth?
    (column : Column) {operand : Value} {test : Test Value} (row : Row)
    (hoperand : operand ≠ .null)
    (h : Clause.comparisonTest .eq operand = .ok test) :
    ((test.bound column).truth? column row).map (· == .yes) =
      some ((row.cell column.key).sameKey (comparedCell column operand)) := by
  rw [comparisonTest_truth? column row hoperand h, Option.map_some, truth_eq_yes]

theorem selects?_equals
    {model : Model} {name field : String} {operand : Value} {clause : Clause Value}
    (hoperand : operand ≠ .null)
    (h : Clause.ofPredicate model name (.condition (Predicate.equals field operand)) =
      .ok clause) :
    ∃ column v, model.column? field = some column ∧ Clause.coerce column operand = .ok v ∧
      ∀ row, clause.simplified.bound.selects? model row =
        some ((row.cell field).sameKey (comparedCell column v)) := by
  unfold Clause.ofPredicate Clause.ofCondition at h
  rcases bind_eq_ok.mp h with ⟨column, hcolumn, h⟩
  rcases bind_eq_ok.mp h with ⟨test, htest, hclause⟩
  rcases bind_eq_ok.mp htest with ⟨v, hv, hcompare⟩
  have hfound : model.column? field = some column := Clause.column_eq_ok.mp hcolumn
  have hkey := Model.key_of_column? hfound
  refine ⟨column, v, hfound, hv, ?_⟩
  intro row
  rw [← pure_eq_ok.mp hclause, Clause.selects?_test,
    equalityTest_truth? column row (coerce_ne_null hoperand hv) hcompare, hkey]

end Storage

namespace Store

open Storage

variable {store : Store} {db : Database}

/-- A query selects a row: the row meets the predicate of the query and has the related rows
that the query demands. -/
def Selects (store : Store) (db : Database) (query : Query) (row : Row) : Prop :=
  ∃ selection, Selection.ofQuery store query = .ok selection ∧
    selection.simplified.bound.selects? db store.model row = some true

theorem find_eq_some
    {query : Query} {shown : Assoc Value}
    (horder : query.order = none)
    (h : store.find db query = .ok (some shown)) :
    ∃ ahead row behind, db.rows store.model = ahead ++ row :: behind ∧
      (∀ other ∈ ahead, ¬ store.Selects db query other) ∧ store.Selects db query row ∧
      Shows store.model (shownFields store.model query.attributes)
        ((query.inclusions.getD []).map (·.relation)) row shown := by
  unfold find at h
  rcases bind_eq_ok.mp h with ⟨_, hcheck, h⟩
  rcases bind_eq_ok.mp h with ⟨selection, hselection, h⟩
  rcases bind_eq_ok.mp h with ⟨keys, hkeys, h⟩
  rw [mapError_eq_ok] at h
  rcases bind_eq_ok.mp h with ⟨_, _, h⟩
  rcases bind_eq_ok.mp h with ⟨found, hfound, h⟩
  have hkeys_nil : keys = [] := by
    rw [horder] at hkeys
    exact (pure_eq_ok.mp hkeys).symm
  cases found with
  | none => cases pure_eq_ok.mp h
  | some row =>
      rcases bind_eq_ok.mp h with ⟨answers, hanswers, h⟩
      have hfirst : findRow? (selection.simplified.bound.selects? db store.model)
          (db.rows store.model) = some (some row) := by
        unfold firstRow? at hfound
        rw [hkeys_nil, sortRows_nil, evaluated_eq_ok] at hfound
        exact hfound
      rcases findRow?_eq_some hfirst with ⟨ahead, behind, hrows, hahead, hrow⟩
      rcases shows_of_showRows hcheck hanswers with ⟨_, rfl, hshows⟩
      refine ⟨ahead, row, behind, hrows, ?_, ⟨selection, hselection, hrow⟩, ?_⟩
      · intro other hother hselects
        rcases hselects with ⟨selection', hselection', hselected⟩
        rw [hselection] at hselection'
        cases hselection'
        rw [hahead other hother] at hselected
        cases hselected
      · cases pure_eq_ok.mp h
        exact hshows

/-! ## The rows of a key -/

theorem selects?_of_selection
    {model : Model} {column : Column} {test : Test Value} {required : List (Existence Value)}
    {row : Row}
    (h : (Selection.simplified ⟨some (.test column test), required⟩).bound.selects? db model row =
      some true) :
    (Clause.test column test).simplified.bound.selects? model row = some true := by
  unfold Selection.selects? at h
  dsimp only [Selection.simplified, Selection.bound, Option.map_some, Clause.simplified,
    Clause.isNever, Clause.isAlways, Bool.false_and, Bool.false_eq_true, if_false] at h
  split at h
  · assumption
  · rename_i hother
    exact absurd h hother

/-- The rows that a query for a key selects all have the key of its operand. -/
theorem selects_equals
    {query : Query} {field : String} {operand : Value} {row : Row}
    (hfilter : query.filter = some (.condition (Predicate.equals field operand)))
    (hoperand : operand ≠ .null)
    (h : store.Selects db query row) :
    ∃ column v, store.model.column? field = some column ∧
      Clause.coerce column operand = .ok v ∧
      (row.cell field).sameKey (comparedCell column v) = true := by
  rcases h with ⟨selection, hselection, hselects⟩
  unfold Selection.ofQuery at hselection
  rw [hfilter] at hselection
  rcases bind_eq_ok.mp hselection with ⟨clause?, hclause, hselection⟩
  rcases bind_eq_ok.mp hselection with ⟨required, _, hselection⟩
  rcases map_eq_ok.mp hclause with ⟨clause, hpredicate, hsome⟩
  rcases selects?_equals hoperand hpredicate with ⟨column, v, hcolumn, hv, hrow⟩
  refine ⟨column, v, hcolumn, hv, ?_⟩
  have hshape : ∃ column test, clause = .test column test := by
    unfold Clause.ofPredicate Clause.ofCondition at hpredicate
    rcases bind_eq_ok.mp hpredicate with ⟨column, _, hpredicate⟩
    rcases bind_eq_ok.mp hpredicate with ⟨test, _, hpredicate⟩
    exact ⟨column, test, (pure_eq_ok.mp hpredicate).symm⟩
  rcases hshape with ⟨_, test, hshape⟩
  rw [← pure_eq_ok.mp hselection, ← hsome, hshape] at hselects
  have hselected := selects?_of_selection hselects
  rw [← hshape, hrow row] at hselected
  exact Option.some.inj hselected

theorem spared_sublist
    {filter : Option Predicate} {rows : List Row}
    (h : store.spared db filter = .ok rows) :
    rows.Sublist (db.rows store.model) := by
  unfold spared at h
  rcases bind_eq_ok.mp h with ⟨clause?, _, h⟩
  cases clause? with
  | none => cases h
  | some clause =>
      rcases bind_eq_ok.mp h with ⟨_, _, hkept⟩
      rw [filterRows?_eq_some (evaluated_eq_ok.mp hkept)]
      exact List.filter_sublist

/-- Destroying by a key leaves the rows of all other keys. -/
theorem spared_equals
    {field : String} {operand : Value} {rows : List Row}
    (hoperand : operand ≠ .null)
    (h : store.spared db (some (.condition (Predicate.equals field operand))) = .ok rows) :
    ∃ column v, store.model.column? field = some column ∧
      Clause.coerce column operand = .ok v ∧
      rows = (db.rows store.model).filter fun row =>
        !(row.cell field).sameKey (comparedCell column v) := by
  unfold spared at h
  rcases bind_eq_ok.mp h with ⟨clause?, hclause, h⟩
  rcases map_eq_ok.mp hclause with ⟨clause, hpredicate, hsome⟩
  rcases selects?_equals hoperand hpredicate with ⟨column, v, hcolumn, hv, hrow⟩
  refine ⟨column, v, hcolumn, hv, ?_⟩
  rw [← hsome] at h
  rcases bind_eq_ok.mp h with ⟨_, _, hkept⟩
  rw [filterRows?_eq_some (evaluated_eq_ok.mp hkept)]
  apply List.filter_congr
  intro row _
  rw [hrow row]
  cases (row.cell field).sameKey (comparedCell column v) with
  | true => rfl
  | false => rfl

theorem keysDistinct_spared
    {filter : Option Predicate} {rows : List Row}
    (hdistinct : store.KeysDistinct db)
    (h : store.spared db filter = .ok rows) :
    store.KeysDistinct (db.withRows store.model rows) := by
  unfold KeysDistinct
  rw [Database.rows_withRows]
  exact hdistinct.sublist (spared_sublist h)

end Store
end RecordApi
