import RecordApi.Proofs.Storage.Conditions
import RecordApi.Proofs.Storage.Filtering
import RecordApi.Proofs.Storage.Finding

/-!
# Truths of predicates on rows

A predicate has a truth on a row when nothing goes wrong with it there: it is rendered for the
model, its operands are bound, and its tests can be evaluated.  A condition then has the truth of
its test and a group that of its members, and a query for the predicate selects the rows on which
it is yes.
-/

namespace RecordApi

open Steps

/-- The operands of a clause have cells. -/
def Clause.IsBound (clause : Clause Value) : Prop :=
  ∀ binding ∈ clause.bindings, ∃ cell, binding = .ok cell

instance (clause : Clause Value) : Decidable clause.IsBound :=
  decidable_of_iff (∀ binding ∈ clause.bindings, binding.toOption.isSome) <| by
    refine forall₂_congr fun binding _ => ?_
    cases binding <;> simp [Except.toOption]

instance (clause : Clause Value) (row : Row) (assign : Column → Test Value → Truth) :
    Decidable (clause.Evaluates row assign) :=
  inferInstanceAs (Decidable (∀ test ∈ clause.tests, _ = some (assign test.1 test.2)))

theorem Clause.isBound_group_iff
    {combinator : Combinator} {clauses : List (Clause Value)} :
    (Clause.group combinator clauses).IsBound ↔ ∀ clause ∈ clauses, clause.IsBound := by
  have hflat : (Clause.group combinator clauses).bindings = clauses.flatMap Clause.bindings := by
    rw [Clause.bindings]
    induction clauses with
    | nil => rfl
    | cons clause rest ih => rw [Clause.allBindings, ih, List.flatMap_cons]
  unfold Clause.IsBound
  rw [hflat]
  constructor
  · intro h clause hclause binding hbinding
    exact h binding (List.mem_flatMap.mpr ⟨clause, hclause, hbinding⟩)
  · intro h binding hbinding
    rcases List.mem_flatMap.mp hbinding with ⟨clause, hclause, hmem⟩
    exact h clause hclause binding hmem

namespace Predicate

/-- A predicate on the rows of a model, which errors call by a name, has a truth on a row. -/
def HasTruth (model : Model) (name : String) (row : Row) (p : Predicate) (t : Truth) : Prop :=
  ∃ clause, Clause.ofPredicate model name p = .ok clause ∧ clause.IsBound ∧
    clause.Evaluates row (Clause.truthAt row) ∧ clause.truth (Clause.truthAt row) = t

instance (model : Model) (name : String) (row : Row) (p : Predicate) (t : Truth) :
    Decidable (p.HasTruth model name row t) :=
  match h : Clause.ofPredicate model name p with
  | .ok clause =>
      decidable_of_iff (clause.IsBound ∧ clause.Evaluates row (Clause.truthAt row) ∧
        clause.truth (Clause.truthAt row) = t) <| by
          unfold HasTruth
          rw [h]
          exact ⟨fun hclause => ⟨clause, rfl, hclause⟩,
            fun ⟨_, hsame, hclause⟩ => Except.ok.inj hsame ▸ hclause⟩
  | .error _ => isFalse fun ⟨_, hclause, _⟩ => nomatch h.symm.trans hclause

/-- Nothing goes wrong with a predicate on a row. -/
def IsTold (model : Model) (name : String) (row : Row) (p : Predicate) : Prop :=
  ∃ t, p.HasTruth model name row t

variable {model : Model} {name : String} {row : Row} {p : Predicate} {t u : Truth}

theorem HasTruth.unique
    (h : p.HasTruth model name row t) (h' : p.HasTruth model name row u) :
    t = u := by
  rcases h with ⟨clause, hclause, _, _, rfl⟩
  rcases h' with ⟨clause', hclause', _, _, rfl⟩
  rw [hclause] at hclause'
  cases hclause'
  rfl

/-! ## Conditions and groups -/

/-- The condition that asks for a field by an operator. -/
def asks (field : String) (op : Operator) (operand : Value) : Predicate :=
  .condition ⟨field, .known op, operand⟩

theorem ofPredicate_asks
    {field : String} {column : Column} (name : String) (op : Operator) (operand : Value)
    (hcolumn : model.column? field = some column) :
    Clause.ofPredicate model name (asks field op operand) =
      (Clause.testOf model name column op operand).map (Clause.test column) := by
  unfold asks
  rw [Clause.ofPredicate]
  unfold Clause.ofCondition
  rw [Clause.column_eq_ok.mpr hcolumn]
  change (Clause.testOf model name column op operand >>= fun test =>
    pure (Clause.test column test)) = _
  cases Clause.testOf model name column op operand with
  | error e => rfl
  | ok test => rfl

/-- A condition has the truth of its test. -/
theorem hasTruth_asks_iff
    {field : String} {column : Column} {op : Operator} {operand : Value}
    (hcolumn : model.column? field = some column) :
    (asks field op operand).HasTruth model name row t ↔
      ∃ test, Clause.testOf model name column op operand = .ok test ∧
        (∀ binding ∈ test.bindings column, ∃ cell, binding = .ok cell) ∧
        (test.bound column).truth? column row = some t := by
  unfold HasTruth
  rw [ofPredicate_asks name op operand hcolumn]
  constructor
  · rintro ⟨clause, hclause, hbound, hevaluates, rfl⟩
    rcases map_eq_ok.mp hclause with ⟨test, htest, rfl⟩
    exact ⟨test, htest, hbound, hevaluates (column, test) List.mem_cons_self⟩
  · rintro ⟨test, htest, hbound, htruth⟩
    have hat : Clause.truthAt row column test = t := by
      unfold Clause.truthAt
      rw [htruth]
      rfl
    refine ⟨.test column test, map_eq_ok.mpr ⟨test, htest, rfl⟩, hbound, ?_, hat⟩
    intro asked hasked
    rw [Clause.tests, List.mem_singleton] at hasked
    rw [hasked, hat]
    exact htruth

theorem exists_column_of_isTold
    {field : String} {op : Operator} {operand : Value}
    (h : (asks field op operand).IsTold model name row) :
    ∃ column, model.column? field = some column := by
  rcases h with ⟨t, clause, hclause, _⟩
  unfold asks at hclause
  rw [Clause.ofPredicate] at hclause
  rcases Clause.ofCondition_eq_ok hclause with ⟨column, _, _, hcolumn, _⟩
  exact ⟨column, hcolumn⟩

/-- By induction on the predicates, which are rendered one after the other. -/
theorem forall₂_hasTruth_iff
    {ps : List Predicate} {ts : List Truth} :
    List.Forall₂ (HasTruth model name row) ps ts ↔
      ∃ clauses, Clause.ofPredicates model name ps = .ok clauses ∧
        (∀ clause ∈ clauses, clause.IsBound) ∧
        (∀ clause ∈ clauses, clause.Evaluates row (Clause.truthAt row)) ∧
        clauses.map (Clause.truth (Clause.truthAt row)) = ts := by
  induction ps generalizing ts with
  | nil =>
      constructor
      · intro h
        cases h
        exact ⟨[], rfl, by simp, by simp, rfl⟩
      · rintro ⟨clauses, hclauses, _, _, rfl⟩
        cases hclauses
        exact List.Forall₂.nil
  | cons p rest ih =>
      constructor
      · intro h
        cases h with
        | cons hfirst hrest =>
            rcases hfirst with ⟨clause, hclause, hbound, hevaluates, rfl⟩
            rcases ih.mp hrest with ⟨others, hothers, hbounds, hall, rfl⟩
            refine ⟨clause :: others, ?_, List.forall_mem_cons.mpr ⟨hbound, hbounds⟩,
              List.forall_mem_cons.mpr ⟨hevaluates, hall⟩, rfl⟩
            rw [Clause.ofPredicates, hclause, hothers]
            rfl
      · rintro ⟨clauses, hclauses, hbounds, hall, rfl⟩
        rcases bind_eq_ok.mp hclauses with ⟨clause, hclause, hclauses⟩
        rcases bind_eq_ok.mp hclauses with ⟨others, hothers, hclauses⟩
        cases pure_eq_ok.mp hclauses
        rw [List.forall_mem_cons] at hbounds hall
        exact List.Forall₂.cons ⟨clause, hclause, hbounds.1, hall.1, rfl⟩
          (ih.mpr ⟨others, hothers, hbounds.2, hall.2, rfl⟩)

/-- A group has the truth of its members. -/
theorem hasTruth_group_iff
    {combinator : Combinator} {ps : List Predicate} :
    (Predicate.group combinator ps).HasTruth model name row t ↔
      ∃ ts, List.Forall₂ (HasTruth model name row) ps ts ∧ combinator.truth ts = t := by
  constructor
  · rintro ⟨clause, hclause, hbound, hevaluates, rfl⟩
    rcases map_eq_ok.mp hclause with ⟨clauses, hclauses, rfl⟩
    refine ⟨clauses.map (Clause.truth (Clause.truthAt row)), ?_, ?_⟩
    · exact forall₂_hasTruth_iff.mpr ⟨clauses, hclauses, Clause.isBound_group_iff.mp hbound,
        Clause.evaluates_group_iff.mp hevaluates, rfl⟩
    · exact (Clause.truth_group _ _ _).symm
  · rintro ⟨ts, hts, rfl⟩
    rcases forall₂_hasTruth_iff.mp hts with ⟨clauses, hclauses, hbound, hevaluates, rfl⟩
    refine ⟨.group combinator clauses, map_eq_ok.mpr ⟨clauses, hclauses, rfl⟩,
      Clause.isBound_group_iff.mpr hbound, Clause.evaluates_group_iff.mpr hevaluates, ?_⟩
    exact Clause.truth_group _ _ _

end Predicate

/-! ## Queries -/

namespace Store

/-- A query for a predicate selects a row exactly when its truth there is yes. -/
theorem selects_iff_of_hasTruth
    {store : Store} {row : Row} {p : Predicate} {t : Truth} (db : Database)
    (h : p.HasTruth store.model store.name row t) :
    store.Selects db { filter := some p } row ↔ t = .yes := by
  rcases h with ⟨clause, hclause, _, hevaluates, rfl⟩
  have hselection : Selection.ofQuery store { filter := some p } = .ok ⟨some clause, []⟩ := by
    unfold Selection.ofQuery
    change ((Clause.ofPredicate store.model store.name p).map some >>= _) = _
    rw [hclause]
    rfl
  have hselects : (Selection.simplified ⟨some clause, []⟩).bound.selects? db store.model row =
      some (clause.truth (Clause.truthAt row) == .yes) := by
    rw [Selection.selects?_of_clause,
      Clause.selects?_bound (Clause.evaluates_simplified hevaluates), Clause.truth_simplified]
  unfold Selects
  rw [hselection]
  constructor
  · rintro ⟨selection, hsame, hyes⟩
    cases hsame
    rw [hselects] at hyes
    exact beq_iff_eq.mp (Option.some.inj hyes)
  · intro hyes
    refine ⟨_, rfl, ?_⟩
    rw [hselects, hyes]
    rfl

end Store
end RecordApi
