import RecordApi.Proofs.Query.Truth
import RecordApi.Proofs.Steps
import RecordApi.Storage.Evaluation

/-!
# The truth of a clause

A clause has the truth of its groups over that of its tests.  Simplifying a clause keeps this
truth, binding it keeps its shape, and looking through its groups from left to right tells
whether it is yes.
-/

namespace RecordApi
namespace Clause

open Steps

variable {α : Type}

/-! ## Truth and tests -/

mutual

/-- The truth of a clause under an assignment of truth to tests of columns. -/
def truth (assign : Column → Test α → Truth) : Clause α → Truth
  | .test column t => assign column t
  | .group combinator clauses => combinator.truth (truths assign clauses)

def truths (assign : Column → Test α → Truth) : List (Clause α) → List Truth
  | [] => []
  | clause :: rest => truth assign clause :: truths assign rest

end

mutual

/-- The tests of a clause, from left to right. -/
def tests : Clause α → List (Column × Test α)
  | .test column t => [(column, t)]
  | .group _ clauses => allTests clauses

def allTests : List (Clause α) → List (Column × Test α)
  | [] => []
  | clause :: rest => tests clause ++ allTests rest

end

theorem truths_eq_map (assign : Column → Test α → Truth) (clauses : List (Clause α)) :
    truths assign clauses = clauses.map (truth assign) := by
  induction clauses with
  | nil => rfl
  | cons clause rest ih => rw [truths, ih, List.map_cons]

theorem allTests_eq_flatMap (clauses : List (Clause α)) :
    allTests clauses = clauses.flatMap tests := by
  induction clauses with
  | nil => rfl
  | cons clause rest ih => rw [allTests, ih, List.flatMap_cons]

theorem truth_group (assign : Column → Test α → Truth) (c : Combinator)
    (clauses : List (Clause α)) :
    truth assign (.group c clauses) = c.truth (clauses.map (truth assign)) := by
  rw [truth, truths_eq_map]

theorem allBound_eq_map (clauses : List (Clause Value)) :
    allBound clauses = clauses.map bound := by
  induction clauses with
  | nil => rfl
  | cons clause rest ih => rw [allBound, ih, List.map_cons]

/-! ## Simplifying -/

theorem eq_of_isAlways
    {clause : Clause α}
    (h : clause.isAlways = true) :
    clause = .group .and [] := by
  unfold isAlways at h
  split at h
  · rfl
  · cases h

theorem eq_of_isNever
    {clause : Clause α}
    (h : clause.isNever = true) :
    clause = .group .or [] := by
  unfold isNever at h
  split at h
  · rfl
  · cases h

theorem truth_of_isAlways
    {clause : Clause α} (assign : Column → Test α → Truth)
    (h : clause.isAlways = true) :
    truth assign clause = .yes := by
  rw [eq_of_isAlways h]
  rfl

theorem truth_of_isNever
    {clause : Clause α} (assign : Column → Test α → Truth)
    (h : clause.isNever = true) :
    truth assign clause = .no := by
  rw [eq_of_isNever h]
  rfl

theorem truth_membersOf (assign : Column → Test α → Truth) (c : Combinator) (clause : Clause α) :
    c.truth ((membersOf c clause).map (truth assign)) = truth assign clause := by
  unfold membersOf
  split
  · rename_i own clauses
    split
    · rename_i hown
      rw [truth_group, hown]
    · rw [List.map_singleton, Combinator.truth_singleton]
  · rw [List.map_singleton, Combinator.truth_singleton]

/-- Members that change nothing may be left out, and groups of the same kind opened. -/
theorem truth_kept
    (assign : Column → Test α → Truth) (c : Combinator) {neutral : Clause α → Bool}
    (hneutral : ∀ clause, neutral clause = true → truth assign clause = c.neutral)
    (clauses : List (Clause α)) :
    c.truth ((clauses.filter (!neutral ·)).map (truth assign)) =
      c.truth (clauses.map (truth assign)) := by
  induction clauses with
  | nil => rfl
  | cons clause rest ih =>
      rw [List.map_cons, Combinator.truth_cons, ← ih]
      cases hclause : neutral clause with
      | true =>
          rw [List.filter_cons_of_neg (by simp [hclause]), hneutral clause hclause,
            Combinator.neutral_connect]
      | false =>
          rw [List.filter_cons_of_pos (by simp [hclause]), List.map_cons, Combinator.truth_cons]

theorem truth_opened
    (assign : Column → Test α → Truth) (c : Combinator) (clauses : List (Clause α)) :
    truth assign (.group c (clauses.flatMap (membersOf c))) =
      c.truth (clauses.map (truth assign)) := by
  rw [truth_group, List.map_flatMap, Combinator.truth_flatMap]
  congr 1
  apply List.map_congr_left
  intro clause _
  exact truth_membersOf assign c clause

theorem truth_of_neutral
    (assign : Column → Test α → Truth) {c : Combinator} {clause : Clause α}
    (h : (match c with | .and => isAlways | .or => isNever) clause = true) :
    truth assign clause = c.neutral := by
  cases c with
  | and => exact truth_of_isAlways assign h
  | or => exact truth_of_isNever assign h

theorem truth_of_deciding
    (assign : Column → Test α → Truth) {c : Combinator} {clause : Clause α}
    (h : (match c with | .and => isNever | .or => isAlways) clause = true) :
    truth assign clause = c.deciding := by
  cases c with
  | and => exact truth_of_isNever assign h
  | or => exact truth_of_isAlways assign h

theorem truth_combine (assign : Column → Test α → Truth) (c : Combinator)
    (clauses : List (Clause α)) :
    truth assign (combine c clauses) = c.truth (clauses.map (truth assign)) := by
  unfold combine
  dsimp only
  split
  · rename_i clause hfind
    have htruth := truth_of_deciding assign (List.find?_some hfind)
    rw [htruth, Combinator.truth_of_mem_deciding]
    rw [← htruth]
    exact List.mem_map_of_mem (List.mem_of_find?_eq_some hfind)
  · have hkept := truth_kept assign c (fun _ => truth_of_neutral assign) clauses
    split
    · rename_i clause hsingle
      have hone := Combinator.truth_singleton c (truth assign clause)
      rw [← List.map_singleton, ← hsingle] at hone
      exact hone.symm.trans hkept
    · exact (truth_opened assign c _).trans hkept

mutual

/-- Simplifying keeps the truth of a clause. -/
theorem truth_simplified (assign : Column → Test α → Truth) :
    ∀ clause : Clause α, truth assign clause.simplified = truth assign clause
  | .test _ _ => rfl
  | .group c clauses => by
      rw [simplified, truth_combine, truth_group, truth_simplifiedAll]

theorem truth_simplifiedAll (assign : Column → Test α → Truth) :
    ∀ clauses : List (Clause α),
      (simplifiedAll clauses).map (truth assign) = clauses.map (truth assign)
  | [] => rfl
  | clause :: rest => by
      rw [simplifiedAll, List.map_cons, List.map_cons, truth_simplified assign clause,
        truth_simplifiedAll assign rest]

end

theorem tests_membersOf (c : Combinator) (clause : Clause α) :
    (membersOf c clause).flatMap tests = clause.tests := by
  unfold membersOf
  split
  · split
    · rw [tests, allTests_eq_flatMap]
    · rw [List.flatMap_singleton]
  · rw [List.flatMap_singleton]

theorem mem_tests_combine
    {c : Combinator} {clauses : List (Clause α)} {test : Column × Test α}
    (h : test ∈ (combine c clauses).tests) :
    test ∈ clauses.flatMap tests := by
  unfold combine at h
  dsimp only at h
  split at h
  · rename_i clause hfind
    exact List.mem_flatMap.mpr ⟨clause, List.mem_of_find?_eq_some hfind, h⟩
  · split at h
    · rename_i clause hkept
      have hmem : clause ∈ clauses := by
        have hsingle := List.mem_singleton_self clause
        rw [← hkept] at hsingle
        exact List.mem_of_mem_filter hsingle
      exact List.mem_flatMap.mpr ⟨clause, hmem, h⟩
    · rw [tests, allTests_eq_flatMap, List.flatMap_assoc] at h
      rcases List.mem_flatMap.mp h with ⟨clause, hclause, htest⟩
      rw [tests_membersOf] at htest
      exact List.mem_flatMap.mpr ⟨clause, List.mem_of_mem_filter hclause, htest⟩

mutual

/-- Simplifying makes no new tests. -/
theorem mem_tests_of_simplified :
    ∀ (clause : Clause α) {asked : Column × Test α},
      asked ∈ clause.simplified.tests → asked ∈ clause.tests
  | .test _ _, _, h => h
  | .group c clauses, _, h => by
      rw [simplified] at h
      rw [tests, allTests_eq_flatMap]
      exact mem_tests_of_simplifiedAll clauses (mem_tests_combine h)

theorem mem_tests_of_simplifiedAll :
    ∀ (clauses : List (Clause α)) {asked : Column × Test α},
      asked ∈ (simplifiedAll clauses).flatMap tests → asked ∈ clauses.flatMap tests
  | [], _, h => h
  | clause :: rest, _, h => by
      rw [simplifiedAll, List.flatMap_cons, List.mem_append] at h
      rw [List.flatMap_cons, List.mem_append]
      cases h with
      | inl hfirst => exact Or.inl (mem_tests_of_simplified clause hfirst)
      | inr hrest => exact Or.inr (mem_tests_of_simplifiedAll rest hrest)

end

/-! ## Evaluating -/

/-- Every test of a clause has the assigned truth on a row once its operands are bound. -/
def Evaluates (row : Row) (assign : Column → Test Value → Truth) (clause : Clause Value) : Prop :=
  ∀ test ∈ clause.tests, (test.2.bound test.1).truth? test.1 row = some (assign test.1 test.2)

variable {row : Row} {assign : Column → Test Value → Truth}

theorem evaluates_group_iff
    {c : Combinator} {clauses : List (Clause Value)} :
    (Clause.group c clauses).Evaluates row assign ↔
      ∀ clause ∈ clauses, clause.Evaluates row assign := by
  unfold Evaluates
  rw [tests, allTests_eq_flatMap]
  constructor
  · intro h clause hclause test htest
    exact h test (List.mem_flatMap.mpr ⟨clause, hclause, htest⟩)
  · intro h test htest
    rcases List.mem_flatMap.mp htest with ⟨clause, hclause, hmem⟩
    exact h clause hclause test hmem

mutual

/-- Whether a clause holds on a row is told by its truth. -/
theorem holds?_bound :
    ∀ {clause : Clause Value}, clause.Evaluates row assign →
      holds? row clause.bound = some (truth assign clause == .yes)
  | .test column t, h => by
      rw [bound, holds?, h (column, t) List.mem_cons_self, Option.map_some, truth]
  | .group .and clauses, h => by
      rw [bound, holds?, truth_group, allBound_eq_map]
      exact allHold?_bound (evaluates_group_iff.mp h)
  | .group .or clauses, h => by
      rw [bound, holds?, truth_group, allBound_eq_map]
      exact anyHolds?_bound (evaluates_group_iff.mp h)

theorem allHold?_bound :
    ∀ {clauses : List (Clause Value)}, (∀ clause ∈ clauses, clause.Evaluates row assign) →
      allHold? row (clauses.map bound) =
        some (Combinator.and.truth (clauses.map (truth assign)) == .yes)
  | [], _ => rfl
  | clause :: rest, h => by
      have hfirst := holds?_bound (h clause List.mem_cons_self)
      have hrest := allHold?_bound fun other hother => h other (List.mem_cons_of_mem _ hother)
      rw [List.map_cons, allHold?, hfirst, List.map_cons, Combinator.and_truth_cons_beq]
      cases truth assign clause == .yes with
      | true => exact hrest
      | false => rfl

theorem anyHolds?_bound :
    ∀ {clauses : List (Clause Value)}, (∀ clause ∈ clauses, clause.Evaluates row assign) →
      anyHolds? row (clauses.map bound) =
        some (Combinator.or.truth (clauses.map (truth assign)) == .yes)
  | [], _ => rfl
  | clause :: rest, h => by
      have hfirst := holds?_bound (h clause List.mem_cons_self)
      have hrest := anyHolds?_bound fun other hother => h other (List.mem_cons_of_mem _ hother)
      rw [List.map_cons, anyHolds?, hfirst, List.map_cons, Combinator.or_truth_cons_beq]
      cases truth assign clause == .yes with
      | true => rfl
      | false => exact hrest

end

end Clause
end RecordApi
