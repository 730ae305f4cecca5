import RecordApi.Proofs.Storage.Clauses
import RecordApi.Proofs.Storage.Showing

/-!
# The conditions of a predicate

A predicate is rendered condition by condition, from left to right: it is refused for the first
of its conditions that is refused, and the tests of its clause are those of its conditions.  The
operands that a clause binds are what the operands of its conditions are converted to.
-/

namespace RecordApi

open Steps

/-- The values with which an operator compares a column, before they are converted for it. -/
def Operator.compared (op : Operator) (operand : Value) : List Value :=
  match op with
  | .eq | .ne | .gt | .gte | .lt | .lte => [operand]
  | .between | .notBetween | .isIn | .notIn | .all | .any => Clause.operandItems operand
  | _ => []

/-- The operands of a test that are bound. -/
def Test.operands {α : Type} : Test α → List α
  | .compare _ operand => [operand]
  | .between _ low high => [low, high]
  | .among _ operands => operands
  | _ => []

namespace Clause

variable {model : Model} {name : String}

/-! ## Rendering -/

mutual

/-- By induction on the predicate: its conditions are rendered one after the other, and their
tests are all tests that there are. -/
theorem tests_ofPredicate (model : Model) (name : String) :
    ∀ p : Predicate, (ofPredicate model name p).map tests =
      (p.conditions.mapM (ofCondition model name)).map (List.flatMap tests)
  | .condition c => by
      rw [ofPredicate, Predicate.conditions]
      cases h : ofCondition model name c with
      | error e => simp [Except.map, List.mapM_cons, h, bind, Except.bind]
      | ok clause => simp [Except.map, List.mapM_cons, h, bind, Except.bind, pure, Except.pure]
  | .group combinator branches => by
      have hall := tests_ofPredicates model name branches
      rw [ofPredicate, Predicate.conditions, ← hall]
      cases ofPredicates model name branches with
      | error e => rfl
      | ok clauses => simp [Except.map, tests, allTests_eq_flatMap]

theorem tests_ofPredicates (model : Model) (name : String) :
    ∀ ps : List Predicate, (ofPredicates model name ps).map (List.flatMap tests) =
      ((Predicate.conditionsOfAll ps).mapM (ofCondition model name)).map (List.flatMap tests)
  | [] => rfl
  | p :: rest => by
      have happend : ∀ clauses others : List (Clause Value),
          (clauses ++ others).flatMap tests = clauses.flatMap tests ++ others.flatMap tests :=
        fun _ _ => List.flatMap_append
      have hcons : ∀ (clause : Clause Value) (others : List (Clause Value)),
          (clause :: others).flatMap tests = clause.tests ++ others.flatMap tests :=
        fun _ _ => List.flatMap_cons
      rw [ofPredicates, Predicate.conditionsOfAll, List.mapM_append, map_steps happend,
        map_steps hcons, tests_ofPredicate model name p, tests_ofPredicates model name rest]

end

theorem ofPredicate_eq_error_iff
    {p : Predicate} {e : StoreError} :
    ofPredicate model name p = .error e ↔
      p.conditions.mapM (ofCondition model name) = .error e := by
  rw [← map_eq_error (f := tests), tests_ofPredicate, map_eq_error]

/-- A predicate is refused for the first of its conditions that is refused. -/
theorem ofPredicate_of_refused
    {p : Predicate} {before after : List Condition} {c : Condition} {e : StoreError}
    (hconditions : p.conditions = before ++ c :: after)
    (hbefore : ∀ b ∈ before, ∃ clause, ofCondition model name b = .ok clause)
    (hrefused : ofCondition model name c = .error e) :
    ofPredicate model name p = .error e := by
  rw [ofPredicate_eq_error_iff, hconditions]
  exact mapM_eq_error hbefore hrefused

theorem exists_refused
    {p : Predicate} {e : StoreError}
    (h : ofPredicate model name p = .error e) :
    ∃ c ∈ p.conditions, ofCondition model name c = .error e :=
  exists_error_of_mapM (ofPredicate_eq_error_iff.mp h)

theorem ofCondition_eq_ok
    {c : Condition} {clause : Clause Value}
    (h : ofCondition model name c = .ok clause) :
    ∃ column op test, model.column? c.field = some column ∧ c.operator = .known op ∧
      testOf model name column op c.operand = .ok test ∧ clause = .test column test := by
  unfold ofCondition at h
  rcases bind_eq_ok.mp h with ⟨column, hcolumn, h⟩
  cases hop : c.operator with
  | unknown operator =>
      rw [hop] at h
      cases h
  | known op =>
      rw [hop] at h
      rcases bind_eq_ok.mp h with ⟨test, htest, hclause⟩
      exact ⟨column, op, test, column_eq_ok.mp hcolumn, rfl, htest, (pure_eq_ok.mp hclause).symm⟩

/-- Every test of a clause is that of a condition. -/
theorem exists_condition
    {p : Predicate} {clause : Clause Value} {column : Column} {test : Test Value}
    (h : ofPredicate model name p = .ok clause)
    (htest : (column, test) ∈ clause.tests) :
    ∃ c ∈ p.conditions, ofCondition model name c = .ok (.test column test) := by
  have htests := tests_ofPredicate model name p
  rw [h] at htests
  rcases map_eq_ok.mp htests.symm with ⟨clauses, hclauses, hflat⟩
  rw [← hflat] at htest
  rcases List.mem_flatMap.mp htest with ⟨own, hown, hmem⟩
  rcases exists_of_mapM hclauses own hown with ⟨c, hc, hrendered⟩
  rcases ofCondition_eq_ok hrendered with ⟨_, _, _, _, _, _, rfl⟩
  rw [tests, List.mem_singleton] at hmem
  cases hmem
  exact ⟨c, hc, hrendered⟩

/-! ## Converting and binding -/

variable {column : Column} {operand v : Value} {asked : Test Value}

theorem operands_of_comparison
    {comparison : Comparison}
    (h : (do comparisonTest comparison (← coerce column operand)) = .ok asked)
    (hv : v ∈ asked.operands) :
    coerce column operand = .ok v := by
  rcases bind_eq_ok.mp h with ⟨converted, hconverted, htest⟩
  unfold comparisonTest at htest
  split at htest
  · cases htest
    cases hv
  · cases htest
    cases hv
  · cases htest
    cases hv
  · cases htest
    cases hv
  · cases htest
  · cases htest
  · cases htest
    rw [List.mem_singleton.mp hv]
    exact hconverted

theorem operands_of_pair
    {negated : Bool}
    (h : pairTest negated column operand = .ok asked)
    (hv : v ∈ asked.operands) :
    ∃ item ∈ operandItems operand, coerce column item = .ok v := by
  unfold pairTest at h
  split at h
  · rename_i low high hitems
    rcases bind_eq_ok.mp h with ⟨lower, hlower, h⟩
    rcases bind_eq_ok.mp h with ⟨upper, hupper, h⟩
    cases pure_eq_ok.mp h
    rw [hitems]
    rcases List.mem_cons.mp hv with rfl | hv
    · exact ⟨low, List.mem_cons_self, hlower⟩
    · rw [List.mem_singleton.mp hv]
      exact ⟨high, by simp, hupper⟩
  · cases h

theorem operands_of_list
    {negated : Bool}
    (h : ((operandItems operand).mapM (coerce column)).map (Test.among negated) = .ok asked)
    (hv : v ∈ asked.operands) :
    ∃ item ∈ operandItems operand, coerce column item = .ok v := by
  rcases map_eq_ok.mp h with ⟨converted, hconverted, rfl⟩
  exact exists_of_mapM hconverted v hv

/-- What a test binds is converted from what its operator compares. -/
theorem operands_of_testOf
    {op : Operator}
    (h : testOf model name column op operand = .ok asked)
    (hv : v ∈ asked.operands) :
    ∃ item ∈ op.compared operand, coerce column item = .ok v := by
  cases op with
  | eq => exact ⟨operand, List.mem_singleton_self _, operands_of_comparison h hv⟩
  | ne => exact ⟨operand, List.mem_singleton_self _, operands_of_comparison h hv⟩
  | gt => exact ⟨operand, List.mem_singleton_self _, operands_of_comparison h hv⟩
  | gte => exact ⟨operand, List.mem_singleton_self _, operands_of_comparison h hv⟩
  | lt => exact ⟨operand, List.mem_singleton_self _, operands_of_comparison h hv⟩
  | lte => exact ⟨operand, List.mem_singleton_self _, operands_of_comparison h hv⟩
  | between => exact operands_of_pair h hv
  | notBetween => exact operands_of_pair h hv
  | isIn => exact operands_of_list h hv
  | notIn => exact operands_of_list h hv
  | is | isNot =>
      rcases map_eq_ok.mp h with ⟨truth, _, rfl⟩
      cases truth <;> cases hv
  | col =>
      rcases map_eq_ok.mp h with ⟨_, _, rfl⟩
      cases hv
  | all | any =>
      rcases map_eq_ok.mp h with ⟨_, _, rfl⟩
      cases hv
  | _ =>
      cases h
      cases hv

mutual

theorem bindings_eq_flatMap :
    ∀ clause : Clause Value,
      clause.bindings = clause.tests.flatMap fun asked => asked.2.bindings asked.1
  | .test column t => by
      rw [bindings, tests, List.flatMap_singleton]
  | .group combinator clauses => by
      rw [bindings, tests, allBindings_eq_flatMap clauses]

theorem allBindings_eq_flatMap :
    ∀ clauses : List (Clause Value),
      allBindings clauses = (allTests clauses).flatMap fun asked => asked.2.bindings asked.1
  | [] => rfl
  | clause :: rest => by
      rw [allBindings, allTests, List.flatMap_append, bindings_eq_flatMap clause,
        allBindings_eq_flatMap rest]

end

end Clause
end RecordApi
