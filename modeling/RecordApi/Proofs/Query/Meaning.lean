import Mathlib.Data.List.TakeDrop
import RecordApi.Proofs.Query.Truth
import RecordApi.Proofs.Steps
import RecordApi.Query.Filter

/-!
# The meaning of a filter

`Filter.truth` reads a filter as it stands: the keys of an entry are conjoined, the keys `and`
and `or` join their entries, and the operators on one field are conjoined or only the last of
them counts.  Compiling keeps this meaning, whatever the truth of the single conditions.
-/

namespace RecordApi

open Steps

namespace Filter

/-- The condition that an operator with its operand puts on a field. -/
def conditionOf (field : String) (operator : String × Value) : Condition :=
  ⟨field, OperatorName.ofName operator.1, operator.2⟩

/-- The truth of the operators on one field. -/
def fieldTruth (merge : MergePolicy) (assign : Condition → Truth) (field : String) :
    Value → Truth
  | .map operators =>
      let truths := operators.map fun operator => assign (conditionOf field operator)
      match merge with
      | .conjunction => Combinator.and.truth truths
      | .lastWins => truths.getLastD .yes
  | _ => .yes

mutual

/-- The truth of an entry, in which all keys must hold. -/
def entryTruth (merge : MergePolicy) (assign : Condition → Truth) : Value → Truth
  | .map entries => Combinator.and.truth (keyTruths merge assign entries)
  | _ => .yes

def groupTruth (merge : MergePolicy) (assign : Condition → Truth) (combinator : Combinator) :
    Value → Truth
  | .list items => combinator.truth (itemTruths merge assign items)
  | _ => .yes

def keyTruths (merge : MergePolicy) (assign : Condition → Truth) :
    List (String × Value) → List Truth
  | [] => []
  | (key, value) :: rest =>
      (match Combinator.ofName? key with
        | some combinator => groupTruth merge assign combinator value
        | none => fieldTruth merge assign key value) :: keyTruths merge assign rest

def itemTruths (merge : MergePolicy) (assign : Condition → Truth) : List Value → List Truth
  | [] => []
  | item :: rest => entryTruth merge assign item :: itemTruths merge assign rest

end

/-- The truth of a filter; a falsy value is no filter and always holds. -/
def truth (merge : MergePolicy) (assign : Condition → Truth) (filter : Value) : Truth :=
  if filter.isFalsy then .yes else entryTruth merge assign filter

end Filter

namespace Predicate

variable (assign : Condition → Truth)

theorem truths_eq_map (ps : List Predicate) : truths assign ps = ps.map (truth assign) := by
  induction ps with
  | nil => rfl
  | cons p rest ih => rw [truths, ih, List.map_cons]

theorem truth_group (c : Combinator) (ps : List Predicate) :
    truth assign (.group c ps) = c.truth (ps.map (truth assign)) := by
  rw [truth, truths_eq_map]

theorem truth_conjoin (ps : List Predicate) :
    truth assign (conjoin ps) = Combinator.and.truth (ps.map (truth assign)) := by
  unfold conjoin
  split
  · rw [List.map_singleton, Combinator.truth_singleton]
  · rw [truth_group]

theorem map_truth_condition (conditions : List Condition) :
    (conditions.map Predicate.condition).map (truth assign) = conditions.map assign := by
  rw [List.map_map]
  rfl

end Predicate

namespace Filter

variable {merge : MergePolicy} (assign : Condition → Truth)

/-- The conditions that a policy keeps are those that count. -/
theorem truth_keep (field : String) (operators : List (String × Value)) :
    Combinator.and.truth ((merge.keep (operators.map (conditionOf field))).map assign) =
      fieldTruth merge assign field (.map operators) := by
  have hmap : (operators.map (conditionOf field)).map assign =
      operators.map fun operator => assign (conditionOf field operator) := by
    rw [List.map_map]
    rfl
  unfold fieldTruth MergePolicy.keep
  dsimp only
  rw [← hmap]
  cases merge with
  | conjunction => rfl
  | lastWins =>
      dsimp only
      rw [List.map_drop, ← List.length_map (f := assign)]
      cases (operators.map (conditionOf field)).map assign with
      | nil => rfl
      | cons t ts =>
          rw [List.drop_length_sub_one (List.cons_ne_nil t ts), Combinator.truth_singleton]
          rfl

theorem truth_compileField
    {field : String} {value : Value} {conditions : List Condition}
    (h : compileField merge field value = .ok conditions) :
    Combinator.and.truth (conditions.map assign) = fieldTruth merge assign field value := by
  unfold compileField at h
  split at h
  · cases h
    exact truth_keep assign field _
  · cases h

mutual

theorem truth_compileEntry :
    ∀ {depth : Nat} {value : Value} {p : Predicate},
      compileEntry merge depth value = .ok p → p.truth assign = entryTruth merge assign value
  | depth, value, p, h => by
      unfold compileEntry at h
      cases value with
      | map entries =>
          dsimp only at h
          split at h
          · cases h
          · rcases map_eq_ok.mp h with ⟨parts, hparts, hp⟩
            rw [← hp, Predicate.truth_conjoin, truth_compileKeys hparts, entryTruth]
      | _ =>
          dsimp only at h
          split at h <;> cases h

theorem truth_compileGroup :
    ∀ {c : Combinator} {depth : Nat} {value : Value} {p : Predicate},
      compileGroup merge c depth value = .ok p → p.truth assign = groupTruth merge assign c value
  | c, depth, value, p, h => by
      unfold compileGroup at h
      cases value with
      | list items =>
          rcases map_eq_ok.mp h with ⟨branches, hbranches, hp⟩
          rw [← hp, Predicate.truth_group, truth_compileItems hbranches, groupTruth]
      | _ => cases h

theorem truth_compileKeys :
    ∀ {depth : Nat} {entries : List (String × Value)} {parts : List Predicate},
      compileKeys merge depth entries = .ok parts →
        Combinator.and.truth (parts.map (Predicate.truth assign)) =
          Combinator.and.truth (keyTruths merge assign entries)
  | depth, [], parts, h => by
      cases h
      rfl
  | depth, (key, value) :: rest, parts, h => by
      unfold compileKeys at h
      cases hkey : Combinator.ofName? key with
      | some c =>
          rw [hkey] at h
          rcases bind_eq_ok.mp h with ⟨first, hfirst, h⟩
          rcases bind_eq_ok.mp h with ⟨others, hothers, hparts⟩
          rcases map_eq_ok.mp hfirst with ⟨p, hp, hsingle⟩
          rw [← pure_eq_ok.mp hparts, ← hsingle, List.map_append, Combinator.truth_append,
            List.map_singleton, Combinator.truth_singleton, truth_compileGroup hp,
            truth_compileKeys hothers, keyTruths, hkey, Combinator.truth_cons]
      | none =>
          rw [hkey] at h
          rcases bind_eq_ok.mp h with ⟨first, hfirst, h⟩
          rcases bind_eq_ok.mp h with ⟨others, hothers, hparts⟩
          rcases map_eq_ok.mp hfirst with ⟨conditions, hconditions, hmap⟩
          rw [← pure_eq_ok.mp hparts, ← hmap, List.map_append, Combinator.truth_append,
            Predicate.map_truth_condition, truth_compileField assign hconditions,
            truth_compileKeys hothers, keyTruths, hkey, Combinator.truth_cons]

theorem truth_compileItems :
    ∀ {depth : Nat} {items : List Value} {branches : List Predicate},
      compileItems merge depth items = .ok branches →
        branches.map (Predicate.truth assign) = itemTruths merge assign items
  | depth, [], branches, h => by
      cases h
      rfl
  | depth, item :: rest, branches, h => by
      unfold compileItems at h
      rcases bind_eq_ok.mp h with ⟨p, hp, h⟩
      rcases bind_eq_ok.mp h with ⟨others, hothers, hbranches⟩
      rw [← pure_eq_ok.mp hbranches, List.map_cons, truth_compileEntry hp,
        truth_compileItems hothers, itemTruths]

end

/-- A filter that is accepted means what it is compiled to; no predicate always holds. -/
theorem truth_of_compile
    {filter : Value} {predicate? : Option Predicate}
    (h : compile merge filter = .ok predicate?) :
    (predicate?.map (Predicate.truth assign)).getD .yes = truth merge assign filter := by
  unfold compile at h
  unfold truth
  cases hfalsy : filter.isFalsy with
  | true =>
      rw [hfalsy] at h
      cases h
      rfl
  | false =>
      rw [hfalsy] at h
      simp only [Bool.false_eq_true, if_false] at h ⊢
      split at h
      · split at h
        · cases h
        · rcases map_eq_ok.mp h with ⟨p, hp, hsome⟩
          rw [← hsome]
          exact truth_compileEntry assign hp
      · cases h

end Filter
end RecordApi
