import RecordApi.Proofs.Query.Meaning
import RecordApi.Proofs.Storage.Clauses
import RecordApi.Sample.Rows

/-!
# Filtering rows

A condition has a truth on a row, which its test tells once its operand is bound.  A filter
then selects exactly the rows on which its meaning under these truths is yes: neither
compiling it nor rendering and simplifying its predicate changes which rows these are.
-/

namespace RecordApi

open Steps

/-- The truth of a condition on a row of a model, if the condition is rendered and its test
evaluated there. -/
def Condition.truthOn? (model : Model) (name : String) (row : Row) (c : Condition) :
    Option Truth :=
  match Clause.ofCondition model name c with
  | .ok (.test column t) => (t.bound column).truth? column row
  | _ => none

namespace Clause

variable {model : Model} {name : String} {row : Row} {assign : Condition → Truth}

/-- The truth of a test on a row, unknown where the test cannot be evaluated. -/
def truthAt (row : Row) (column : Column) (t : Test Value) : Truth :=
  ((t.bound column).truth? column row).getD .unknown

/-- A rendered predicate has on a row the truth that its conditions have there. -/
def Renders (row : Row) (assign : Condition → Truth) (clause : Clause Value) (p : Predicate) :
    Prop :=
  clause.Evaluates row (truthAt row) ∧ clause.truth (truthAt row) = p.truth assign

theorem renders_condition
    {c : Condition} {clause : Clause Value}
    (hassign : c.truthOn? model name row = some (assign c))
    (h : ofCondition model name c = .ok clause) :
    clause.Renders row assign (.condition c) := by
  unfold Condition.truthOn? at hassign
  rw [h] at hassign
  cases clause with
  | group combinator clauses => cases hassign
  | test column t =>
      dsimp only at hassign
      have htruth : truthAt row column t = assign c := by
        unfold truthAt
        rw [hassign]
        rfl
      constructor
      · intro test htest
        rw [tests, List.mem_singleton] at htest
        rw [htest, htruth]
        exact hassign
      · exact htruth

mutual

/-- By induction on the predicate: rendering keeps its groups and renders its conditions. -/
theorem renders_of_ofPredicate :
    ∀ {p : Predicate} {clause : Clause Value},
      (∀ c ∈ p.conditions, c.truthOn? model name row = some (assign c)) →
        ofPredicate model name p = .ok clause → clause.Renders row assign p
  | .condition c, clause, hassign, h =>
      renders_condition (hassign c List.mem_cons_self) h
  | .group combinator branches, clause, hassign, h => by
      rcases map_eq_ok.mp h with ⟨clauses, hclauses, hclause⟩
      have hall := renders_of_ofPredicates hassign hclauses
      rw [← hclause]
      constructor
      · exact evaluates_group_iff.mpr hall.1
      · rw [truth_group, Predicate.truth_group, hall.2]

theorem renders_of_ofPredicates :
    ∀ {ps : List Predicate} {clauses : List (Clause Value)},
      (∀ c ∈ Predicate.conditionsOfAll ps, c.truthOn? model name row = some (assign c)) →
        ofPredicates model name ps = .ok clauses →
          (∀ clause ∈ clauses, clause.Evaluates row (truthAt row)) ∧
            clauses.map (truth (truthAt row)) = ps.map (Predicate.truth assign)
  | [], clauses, _, h => by
      cases h
      exact ⟨fun _ hmem => absurd hmem List.not_mem_nil, rfl⟩
  | p :: rest, clauses, hassign, h => by
      rcases bind_eq_ok.mp h with ⟨clause, hclause, h⟩
      rcases bind_eq_ok.mp h with ⟨others, hothers, hclauses⟩
      have hfirst := renders_of_ofPredicate
        (fun c hc => hassign c (List.mem_append_left _ hc)) hclause
      have hrest := renders_of_ofPredicates
        (fun c hc => hassign c (List.mem_append_right _ hc)) hothers
      rw [← pure_eq_ok.mp hclauses]
      constructor
      · intro other hother
        cases hother with
        | head => exact hfirst.1
        | tail _ hmem => exact hrest.1 other hmem
      · rw [List.map_cons, List.map_cons, hfirst.2, hrest.2]

end

/-! ## Selecting -/

theorem looksUp_bound (field : String) (clause : Clause Value) :
    looksUp field clause.bound = looksUp field clause := by
  cases clause with
  | group combinator clauses => rfl
  | test column t =>
      rw [bound, looksUp, looksUp]
      cases t <;> rfl

theorem membersOf_bound (c : Combinator) (clause : Clause Value) :
    membersOf c clause.bound = (membersOf c clause).map bound := by
  cases clause with
  | test column t => rfl
  | group own clauses =>
      rw [bound, membersOf, membersOf, allBound_eq_map]
      split
      · rfl
      · rw [List.map_singleton, bound, allBound_eq_map]

theorem keyFirst_bound (field : String) (clause : Clause Value) :
    keyFirst field clause.bound = (keyFirst field clause).map bound := by
  unfold keyFirst
  dsimp only
  rw [membersOf_bound, List.filter_map, List.filter_map, List.map_append]
  have htest : looksUp field ∘ bound = looksUp field := by
    funext member
    exact looksUp_bound field member
  have hother : (fun member => !looksUp field member) ∘ bound =
      fun member => !looksUp field member := by
    funext member
    exact congrArg (!·) (looksUp_bound field member)
  rw [htest, hother]

theorem perm_keyFirst (field : String) (clause : Clause Value) :
    (keyFirst field clause).Perm (membersOf .and clause) :=
  List.filter_append_perm (looksUp field) (membersOf .and clause)

/-- The conjuncts may be looked through in any order. -/
theorem selects?_bound
    {assign : Column → Test Value → Truth} {clause : Clause Value}
    (h : clause.Evaluates row assign) :
    clause.bound.selects? model row = some (truth assign clause == .yes) := by
  have hmembers : ∀ member ∈ keyFirst model.keyField clause, member.Evaluates row assign := by
    intro member hmember test htest
    apply h
    rw [← tests_membersOf .and clause, List.mem_flatMap]
    exact ⟨member, (perm_keyFirst _ clause).mem_iff.mp hmember, htest⟩
  unfold selects?
  rw [keyFirst_bound, allHold?_bound hmembers,
    Combinator.truth_perm ((perm_keyFirst _ clause).map (truth assign)), truth_membersOf]

theorem evaluates_simplified
    {assign : Column → Test Value → Truth} {clause : Clause Value}
    (h : clause.Evaluates row assign) :
    clause.simplified.Evaluates row assign :=
  fun test htest => h test (mem_tests_of_simplified clause htest)

end Clause

namespace Selection

theorem simplified_clause (clause : Clause Value) :
    simplified ⟨some clause, []⟩ = ⟨some clause.simplified, []⟩ := by
  unfold simplified
  cases hnever : clause.simplified.isNever <;> simp [hnever]

/-- A predicate alone is simplified and bound as its clause is. -/
theorem selects?_of_clause
    (db : Database) (model : Model) (clause : Clause Value) (row : Row) :
    (simplified ⟨some clause, []⟩).bound.selects? db model row =
      clause.simplified.bound.selects? model row := by
  rw [simplified_clause]
  unfold selects? bound
  dsimp only [Option.map_some, List.map_nil, allRequired?]
  split
  · rename_i hyes
    exact hyes.symm
  · rfl

end Selection

namespace Filter

/-- Compiling a filter keeps its meaning: under every assignment of truth to conditions the
predicate has the truth of the filter.  So a store that has rendered the predicate selects a
row, on which all its conditions have a truth, exactly when the filter is true there. -/
theorem truth_compile
    {merge : MergePolicy} {filter : Value} {predicate? : Option Predicate}
    (h : compile merge filter = .ok predicate?) :
    (∀ assign : Condition → Truth,
      (predicate?.map (Predicate.truth assign)).getD .yes = truth merge assign filter) ∧
    ∀ {model : Model} {name : String} {clause? : Option (Clause Value)} {row : Row}
      {assign : Condition → Truth},
      Clause.ofPredicate? model name predicate? = .ok clause? →
      (∀ p ∈ predicate?, ∀ c ∈ p.conditions, c.truthOn? model name row = some (assign c)) →
      ∀ db : Database, (Selection.simplified ⟨clause?, []⟩).bound.selects? db model row =
        some (truth merge assign filter == .yes) := by
  have htruth : ∀ assign : Condition → Truth,
      (predicate?.map (Predicate.truth assign)).getD .yes = truth merge assign filter :=
    fun assign => truth_of_compile assign h
  refine ⟨htruth, ?_⟩
  intro model name clause? row assign hrender hassign db
  rw [← htruth assign]
  cases predicate? with
  | none =>
      cases hrender
      rfl
  | some p =>
      rcases map_eq_ok.mp hrender with ⟨clause, hclause, hsome⟩
      have hrenders := Clause.renders_of_ofPredicate (hassign p rfl) hclause
      rw [← hsome, Selection.selects?_of_clause,
        Clause.selects?_bound (Clause.evaluates_simplified hrenders.1),
        Clause.truth_simplified, hrenders.2]
      rfl

end Filter

namespace Sample

/-- Authors of age 18 to 64 whose name is not `x`, among empty groups. -/
def ageFilter : Value :=
  .map [("and", .list [
    .map [("age", .map [("gte", .int 18), ("lt", .int 65)]), ("and", .list [])],
    .map [("or", .list [.map [("or", .list [])], .map [("name", .map [("ne", .text "x")])]])]])]

/-- What becomes of the filter when all operators on a field count. -/
def agePredicate : Predicate :=
  .group .and [
    .group .and [.condition ⟨"age", .known .gte, .int 18⟩, .condition ⟨"age", .known .lt, .int 65⟩,
      .group .and []],
    .group .or [.group .or [], .condition ⟨"name", .known .ne, .text "x"⟩]]

def youngAuthor : Row :=
  rowOf authors [.int 4, .text "author04", .int 18]

/-- The truth of a condition on the row of the author. -/
def youngTruth (c : Condition) : Truth :=
  (c.truthOn? authors "authors" youngAuthor).getD .unknown

theorem truth_compile_ageFilter :
    Filter.compile .conjunction ageFilter = .ok (some agePredicate) ∧
      (∀ assign, agePredicate.truth assign = Filter.truth .conjunction assign ageFilter) ∧
      ∃ clause?, Clause.ofPredicate? authors "authors" (some agePredicate) = .ok clause? ∧
        (∀ c ∈ agePredicate.conditions,
          c.truthOn? authors "authors" youngAuthor = some (youngTruth c)) ∧
        (Selection.simplified ⟨clause?, []⟩).bound.selects? database authors youngAuthor =
          some true := by
  have hcompile : Filter.compile .conjunction ageFilter = .ok (some agePredicate) := by rfl
  have htruth := Filter.truth_compile hcompile
  have hconditions : ∀ c ∈ agePredicate.conditions,
      c.truthOn? authors "authors" youngAuthor = some (youngTruth c) := by
    intro c hc
    have hvalues : agePredicate.conditions.map (Condition.truthOn? authors "authors" youngAuthor) =
        agePredicate.conditions.map (some ∘ youngTruth) := by rfl
    exact List.map_inj_left.mp hvalues c hc
  have hyes : Filter.truth .conjunction youngTruth ageFilter = .yes := by rfl
  have hholds : ∀ p ∈ some agePredicate, ∀ c ∈ p.conditions,
      c.truthOn? authors "authors" youngAuthor = some (youngTruth c) := by
    intro p hp
    cases hp
    exact hconditions
  refine ⟨hcompile, htruth.1, _, rfl, hconditions, ?_⟩
  refine (htruth.2 rfl hholds database).trans ?_
  rw [hyes]
  rfl

end Sample
end RecordApi
