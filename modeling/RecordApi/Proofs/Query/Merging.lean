import RecordApi.Proofs.Query.Nesting

/-!
# Policies for several operators

A filter that is compiled so that all operators on a field count selects no row that it does not
select when only the last of them counts: the conditions of the second predicate are some of
those of the first, in their order, and it holds wherever the first one does.
-/

namespace RecordApi
namespace Predicate

/-- A predicate that holds only where another one holds, with its conditions among others. -/
structure Narrows (strict lax : Predicate) : Prop where
  conditions : lax.conditions.Sublist strict.conditions
  truth : ∀ assign : Condition → Truth, strict.truth assign = .yes → lax.truth assign = .yes

/-- The same for the conjunctions of two lists. -/
def NarrowsAll (strict lax : List Predicate) : Prop :=
  Narrows (.group .and strict) (.group .and lax)

variable {ps qs : List Predicate}

theorem Narrows.of_forall₂
    (c : Combinator) (h : List.Forall₂ Narrows ps qs) :
    Narrows (.group c ps) (.group c qs) := by
  constructor
  · rw [Predicate.conditions, Predicate.conditions]
    induction h with
    | nil => exact List.Sublist.refl []
    | cons hfirst _ ih => exact hfirst.conditions.append ih
  · intro assign
    rw [truth_group, truth_group]
    apply Combinator.truth_eq_yes_mono
    rw [List.forall₂_map_left_iff, List.forall₂_map_right_iff]
    exact h.imp fun _ _ hnarrows => hnarrows.truth assign

theorem NarrowsAll.conjoin
    (h : NarrowsAll ps qs) :
    Narrows (conjoin ps) (conjoin qs) := by
  constructor
  · rw [conditions_conjoin, conditions_conjoin]
    exact h.conditions
  · intro assign
    rw [truth_conjoin, truth_conjoin, ← truth_group, ← truth_group]
    exact h.truth assign

theorem NarrowsAll.append
    {ps' qs' : List Predicate}
    (h : NarrowsAll ps qs) (h' : NarrowsAll ps' qs') :
    NarrowsAll (ps ++ ps') (qs ++ qs') := by
  constructor
  · rw [Predicate.conditions, Predicate.conditions, conditionsOfAll_append, conditionsOfAll_append]
    exact h.conditions.append h'.conditions
  · intro assign
    have hfirst := h.truth assign
    have hlater := h'.truth assign
    rw [truth_group, truth_group] at hfirst hlater ⊢
    rw [List.map_append, List.map_append, Combinator.truth_append, Combinator.truth_append]
    rw [Combinator.and_connect_eq_yes, Combinator.and_connect_eq_yes]
    exact And.imp hfirst hlater

theorem NarrowsAll.of_sublist
    {kept all : List Condition}
    (h : kept.Sublist all) :
    NarrowsAll (all.map .condition) (kept.map .condition) := by
  constructor
  · rw [Predicate.conditions, Predicate.conditions, conditionsOfAll_map_condition,
      conditionsOfAll_map_condition]
    exact h
  · intro assign
    rw [truth_group, truth_group, map_truth_condition, map_truth_condition,
      Combinator.and_truth_eq_yes, Combinator.and_truth_eq_yes]
    intro hall t ht
    exact hall t ((h.map assign).subset ht)

end Predicate

namespace Filter

open Predicate

variable {filter : Value}

/-! ## One operator of several -/

mutual

-- Induction on the rules: the parts of an entry are compared as one conjunction, since a field
-- puts fewer of them when one operator counts, and the branches of a group are compared in pairs.
theorem CompilesEntry.narrows
    {depth : Nat} {value : Value} {strict : Predicate}
    (h : CompilesEntry .conjunction depth value strict) :
    ∃ lax, CompilesEntry .lastWins depth value lax ∧ Narrows strict lax := by
  cases h with
  | map bounded keys =>
      rcases keys.narrows with ⟨parts, hparts, hnarrows⟩
      exact ⟨_, .map bounded hparts, hnarrows.conjoin⟩

theorem CompilesKeys.narrows
    {depth : Nat} {entries : List (String × Value)} {strict : List Predicate}
    (h : CompilesKeys .conjunction depth entries strict) :
    ∃ lax, CompilesKeys .lastWins depth entries lax ∧ NarrowsAll strict lax := by
  cases h with
  | nil => exact ⟨[], .nil, .of_forall₂ .and .nil⟩
  | @group _ _ c _ _ branches _ isGroup members later =>
      rcases members.narrows with ⟨others, hothers, hmembers⟩
      rcases later.narrows with ⟨parts, hparts, hlater⟩
      have hgroup : NarrowsAll [.group c branches] [.group c others] :=
        .of_forall₂ .and (.cons (.of_forall₂ c hmembers) .nil)
      exact ⟨_, .group isGroup hothers hparts, hgroup.append hlater⟩
  | @field _ key operators _ _ isField later =>
      rcases later.narrows with ⟨parts, hparts, hlater⟩
      have hfield := NarrowsAll.of_sublist
        (keep_sublist .lastWins (operators.map (conditionOf key)))
      exact ⟨_, .field isField hparts, hfield.append hlater⟩

theorem CompilesItems.narrows
    {depth : Nat} {items : List Value} {strict : List Predicate}
    (h : CompilesItems .conjunction depth items strict) :
    ∃ lax, CompilesItems .lastWins depth items lax ∧ List.Forall₂ Narrows strict lax := by
  cases h with
  | nil => exact ⟨[], .nil, .nil⟩
  | cons first later =>
      rcases first.narrows with ⟨p, hp, hfirst⟩
      rcases later.narrows with ⟨others, hothers, hlater⟩
      exact ⟨_, .cons hp hothers, .cons hfirst hlater⟩

end

/-! ## Fields with one operator -/

/-- No field of a filter has several operators. -/
def HasSingleOperators (filter : Value) : Prop :=
  ∀ depth field operators, HasField filter depth field operators → operators.length ≤ 1

theorem keep_of_length_le_one
    {α : Type} {xs : List α}
    (merge : MergePolicy) (h : xs.length ≤ 1) :
    merge.keep xs = xs := by
  cases merge with
  | lastWins =>
      unfold MergePolicy.keep
      dsimp only
      rw [Nat.sub_eq_zero_of_le h, List.drop_zero]
  | conjunction => rfl

mutual

theorem CompilesEntry.with_merge
    {merge merge' : MergePolicy} {depth : Nat} {value : Value} {p : Predicate}
    (h : CompilesEntry merge depth value p) (hsingle : HasSingleOperators filter)
    (hinside : Inside filter depth value) :
    CompilesEntry merge' depth value p := by
  cases h with
  | map bounded keys => exact .map bounded (keys.with_merge hsingle hinside fun _ hentry => hentry)

theorem CompilesKeys.with_merge
    {merge merge' : MergePolicy} {depth : Nat} {all entries : List (String × Value)}
    {parts : List Predicate}
    (h : CompilesKeys merge depth entries parts) (hsingle : HasSingleOperators filter)
    (hinside : Inside filter depth (.map all)) (hall : ∀ entry ∈ entries, entry ∈ all) :
    CompilesKeys merge' depth entries parts := by
  cases h with
  | nil => exact .nil
  | group isGroup members later =>
      rw [List.forall_mem_cons] at hall
      exact .group isGroup (members.with_merge hsingle (hinside.members isGroup hall.1))
        (later.with_merge hsingle hinside hall.2)
  | @field _ key operators _ _ isField later =>
      rw [List.forall_mem_cons] at hall
      have hlength : (operators.map (conditionOf key)).length ≤ 1 := by
        rw [List.length_map]
        exact hsingle depth key operators
          ⟨all, hinside, ofName?_eq_none.mp isField, hall.1⟩
      rw [keep_of_length_le_one merge hlength, ← keep_of_length_le_one merge' hlength]
      exact .field isField (later.with_merge hsingle hinside hall.2)

theorem CompilesItems.with_merge
    {merge merge' : MergePolicy} {depth : Nat} {items : List Value} {branches : List Predicate}
    (h : CompilesItems merge depth items branches) (hsingle : HasSingleOperators filter)
    (hinside : ∀ item ∈ items, Inside filter depth item) :
    CompilesItems merge' depth items branches := by
  cases h with
  | nil => exact .nil
  | cons first later =>
      rw [List.forall_mem_cons] at hinside
      exact .cons (first.with_merge hsingle hinside.1) (later.with_merge hsingle hinside.2)

end

/-- An accepted filter is accepted with both policies.  With the conjunction of all operators it
holds only where it holds with the last ones, whose conditions are a part of the others; where no
field has several operators both policies give one predicate. -/
theorem conjunction_narrows
    {merge : MergePolicy} {predicate? : Option Predicate}
    (h : compile merge filter = .ok predicate?) :
    ∃ strict? lax?, compile .conjunction filter = .ok strict? ∧
      compile .lastWins filter = .ok lax? ∧ Option.Rel Narrows strict? lax? ∧
      (HasSingleOperators filter → strict? = lax?) := by
  rcases accepts_iff.mp ⟨predicate?, h⟩ with hfalsy | hfilter
  · exact ⟨none, none, compile_eq_none.mpr hfalsy, compile_eq_none.mpr hfalsy, .none, fun _ => rfl⟩
  · rcases exists_compile_iff.mpr hfilter with ⟨strict, hstrict⟩
    rcases compile_eq_some.mp hstrict with ⟨key, value, hroot, hcompiles⟩
    rcases hcompiles.narrows with ⟨lax, hlax, hnarrows⟩
    refine ⟨some strict, some lax, hstrict, compile_eq_some.mpr ⟨key, value, hroot, hlax⟩,
      .some hnarrows, ?_⟩
    intro hsingle
    have hsame : CompilesEntry .lastWins 0 filter strict := hcompiles.with_merge hsingle .root
    have heq : (.ok strict : Except Error Predicate) = .ok lax := hsame.eq_ok.symm.trans hlax.eq_ok
    cases heq
    rfl

end Filter

namespace Sample

/-- Authors of age 18 to 64, or of the name `x`. -/
def ageRange : Value :=
  .map [("or", .list [
    .map [("age", .map [("gte", .int 18), ("lt", .int 65)])],
    .map [("name", .map [("eq", .text "x")])]])]

def isUnder65 : Predicate :=
  .condition ⟨"age", .known .lt, .int 65⟩

def isNamedX : Predicate :=
  .condition ⟨"name", .known .eq, .text "x"⟩

def isAdult : Predicate :=
  .group .and [.condition ⟨"age", .known .gte, .int 18⟩, isUnder65]

theorem inside_ofAge
    {depth : Nat} {value : Value}
    (h : Filter.Inside ofAge depth value) :
    value = ofAge := by
  induction h with
  | root => rfl
  | item _ _ group _ ih =>
      cases ih
      cases List.mem_singleton.mp group

theorem hasSingleOperators_ofAge : Filter.HasSingleOperators ofAge := by
  rintro depth field operators ⟨entries, hinside, _, hfield⟩
  cases inside_ofAge hinside
  cases List.mem_singleton.mp hfield
  exact Nat.le_refl 1

theorem conjunction_narrows_ageRange :
    Filter.compile .conjunction ageRange = .ok (some (.group .or [isAdult, isNamedX])) ∧
      Filter.compile .lastWins ageRange = .ok (some (.group .or [isUnder65, isNamedX])) ∧
      Predicate.Narrows (.group .or [isAdult, isNamedX]) (.group .or [isUnder65, isNamedX]) ∧
      Filter.HasSingleOperators ofAge ∧
      Filter.compile .conjunction ofAge = Filter.compile .lastWins ofAge := by
  have hrange : Filter.compile .conjunction ageRange =
      .ok (some (.group .or [isAdult, isNamedX])) := rfl
  have hlax : Filter.compile .lastWins ageRange =
      .ok (some (.group .or [isUnder65, isNamedX])) := rfl
  refine ⟨hrange, hlax, ?_, hasSingleOperators_ofAge, ?_⟩
  · rcases Filter.conjunction_narrows hrange with ⟨strict?, lax?, hstrict?, hlax?, hnarrows, _⟩
    rw [hrange] at hstrict?
    rw [hlax] at hlax?
    cases hstrict?
    cases hlax?
    cases hnarrows with
    | some h => exact h
  · have hage : ∃ predicate?, Filter.compile .lastWins ofAge = .ok predicate? := ⟨_, rfl⟩
    rcases hage with ⟨predicate?, hage⟩
    rcases Filter.conjunction_narrows hage with ⟨strict?, lax?, hstrict?, hlax?, _, hsame⟩
    rw [hstrict?, hlax?, hsame hasSingleOperators_ofAge]

end Sample
end RecordApi
