import RecordApi.Proofs.Query.Meaning

/-!
# Compiled filters

`CompilesEntry` relates an entry of a filter to the predicate it is compiled to, and likewise
for the keys of an entry and the items of a group: there is one rule for each shape that a
compiler accepts.  `compileEntry` computes this relation, so what holds of all compiled filters
is proved over the rules.
-/

namespace RecordApi

open Steps

namespace Filter

mutual

/-- An entry that lies in `depth` groups is compiled to a predicate. -/
inductive CompilesEntry (merge : MergePolicy) : Nat → Value → Predicate → Prop
  | map {depth : Nat} {entries : List (String × Value)} {parts : List Predicate}
      (bounded : depth ≤ maxDepth)
      (keys : CompilesKeys merge depth entries parts) :
      CompilesEntry merge depth (.map entries) (.conjoin parts)

/-- The keys of such an entry are compiled to the parts of a conjunction. -/
inductive CompilesKeys (merge : MergePolicy) :
    Nat → List (String × Value) → List Predicate → Prop
  | nil {depth : Nat} : CompilesKeys merge depth [] []
  | group {depth : Nat} {key : String} {c : Combinator} {items : List Value}
      {rest : List (String × Value)} {branches others : List Predicate}
      (isGroup : Combinator.ofName? key = some c)
      (members : CompilesItems merge (depth + 1) items branches)
      (later : CompilesKeys merge depth rest others) :
      CompilesKeys merge depth ((key, .list items) :: rest) (.group c branches :: others)
  | field {depth : Nat} {key : String} {operators rest : List (String × Value)}
      {others : List Predicate}
      (isField : Combinator.ofName? key = none)
      (later : CompilesKeys merge depth rest others) :
      CompilesKeys merge depth ((key, .map operators) :: rest)
        ((merge.keep (operators.map (conditionOf key))).map .condition ++ others)

/-- The items of a group are compiled to its branches. -/
inductive CompilesItems (merge : MergePolicy) : Nat → List Value → List Predicate → Prop
  | nil {depth : Nat} : CompilesItems merge depth [] []
  | cons {depth : Nat} {item : Value} {rest : List Value} {p : Predicate}
      {others : List Predicate}
      (first : CompilesEntry merge depth item p)
      (later : CompilesItems merge depth rest others) :
      CompilesItems merge depth (item :: rest) (p :: others)

end

variable {merge : MergePolicy} {depth : Nat}

/-! ## The steps of compiling -/

theorem compileEntry_eq_ok
    {value : Value} {p : Predicate} :
    compileEntry merge depth value = .ok p ↔
      ∃ entries parts, value = .map entries ∧ depth ≤ maxDepth ∧
        compileKeys merge depth entries = .ok parts ∧ Predicate.conjoin parts = p := by
  unfold compileEntry
  by_cases hdeep : maxDepth < depth
  · simp only [if_pos hdeep]
    cases value <;> simp [Nat.not_le.mpr hdeep]
  · simp only [if_neg hdeep]
    cases value <;> simp [Nat.not_lt.mp hdeep, map_eq_ok]

theorem compileEntry_eq_error
    {value : Value} {e : Error} :
    compileEntry merge depth value = .error e ↔
      (maxDepth < depth ∧ .tooDeep = e) ∨ (depth ≤ maxDepth ∧
        (((∀ entries, value ≠ .map entries) ∧ .entryNotObject = e) ∨
          ∃ entries, value = .map entries ∧ compileKeys merge depth entries = .error e)) := by
  unfold compileEntry
  by_cases hdeep : maxDepth < depth
  · simp only [if_pos hdeep]
    cases value <;> simp [hdeep, Nat.not_le.mpr hdeep]
  · simp only [if_neg hdeep]
    cases value <;> simp [hdeep, Nat.not_lt.mp hdeep, map_eq_error]

theorem compileGroup_eq_ok
    {c : Combinator} {value : Value} {p : Predicate} :
    compileGroup merge c depth value = .ok p ↔
      ∃ items branches, value = .list items ∧ compileItems merge depth items = .ok branches ∧
        Predicate.group c branches = p := by
  unfold compileGroup
  cases value <;> simp [map_eq_ok]

theorem compileGroup_eq_error
    {c : Combinator} {value : Value} {e : Error} :
    compileGroup merge c depth value = .error e ↔
      ((∀ items, value ≠ .list items) ∧ .groupNotList c = e) ∨
        ∃ items, value = .list items ∧ compileItems merge depth items = .error e := by
  unfold compileGroup
  cases value <;> simp [map_eq_error]

theorem compileField_eq_ok
    {field : String} {value : Value} {conditions : List Condition} :
    compileField merge field value = .ok conditions ↔
      ∃ operators, value = .map operators ∧
        merge.keep (operators.map (conditionOf field)) = conditions := by
  unfold compileField conditionOf
  cases value <;> simp

theorem compileField_eq_error
    {field : String} {value : Value} {e : Error} :
    compileField merge field value = .error e ↔
      (∀ operators, value ≠ .map operators) ∧ .fieldNotMap field = e := by
  unfold compileField
  cases value <;> simp

section

variable {key : String} {value : Value} {rest : List (String × Value)}

theorem compileKeys_group
    {c : Combinator}
    (hkey : Combinator.ofName? key = some c) :
    compileKeys merge depth ((key, value) :: rest) = (do
      let p ← compileGroup merge c (depth + 1) value
      let others ← compileKeys merge depth rest
      return p :: others) := by
  rw [compileKeys, hkey]
  dsimp only
  cases compileGroup merge c (depth + 1) value <;> rfl

theorem compileKeys_field
    (hkey : Combinator.ofName? key = none) :
    compileKeys merge depth ((key, value) :: rest) = (do
      let conditions ← compileField merge key value
      let others ← compileKeys merge depth rest
      return conditions.map Predicate.condition ++ others) := by
  rw [compileKeys, hkey]
  dsimp only
  cases compileField merge key value <;> rfl

end

/-! ## The relation is computed -/

mutual

theorem compilesEntry_of_eq_ok :
    ∀ {depth : Nat} {value : Value} {p : Predicate},
      compileEntry merge depth value = .ok p → CompilesEntry merge depth value p
  | depth, value, p, h => by
      cases value with
      | map entries =>
          rcases compileEntry_eq_ok.mp h with ⟨_, parts, hvalue, hbounded, hparts, hp⟩
          cases hvalue
          rw [← hp]
          exact .map hbounded (compilesKeys_of_eq_ok hparts)
      | _ =>
          rcases compileEntry_eq_ok.mp h with ⟨_, _, hvalue, _⟩
          cases hvalue

theorem compilesKeys_of_eq_ok :
    ∀ {depth : Nat} {entries : List (String × Value)} {parts : List Predicate},
      compileKeys merge depth entries = .ok parts → CompilesKeys merge depth entries parts
  | depth, [], parts, h => by
      cases h
      exact .nil
  | depth, (key, value) :: rest, parts, h => by
      cases hkey : Combinator.ofName? key with
      | some c =>
          rw [compileKeys_group hkey] at h
          rcases bind_eq_ok.mp h with ⟨p, hgroup, h⟩
          rcases bind_eq_ok.mp h with ⟨others, hothers, hparts⟩
          cases value with
          | list items =>
              rcases compileGroup_eq_ok.mp hgroup with ⟨_, branches, hvalue, hbranches, hp⟩
              cases hvalue
              rw [← pure_eq_ok.mp hparts, ← hp]
              exact .group hkey (compilesItems_of_eq_ok hbranches) (compilesKeys_of_eq_ok hothers)
          | _ =>
              rcases compileGroup_eq_ok.mp hgroup with ⟨_, _, hvalue, _⟩
              cases hvalue
      | none =>
          rw [compileKeys_field hkey] at h
          rcases bind_eq_ok.mp h with ⟨conditions, hfield, h⟩
          rcases bind_eq_ok.mp h with ⟨others, hothers, hparts⟩
          rcases compileField_eq_ok.mp hfield with ⟨operators, hvalue, hconditions⟩
          rw [hvalue, ← pure_eq_ok.mp hparts, ← hconditions]
          exact .field hkey (compilesKeys_of_eq_ok hothers)

theorem compilesItems_of_eq_ok :
    ∀ {depth : Nat} {items : List Value} {branches : List Predicate},
      compileItems merge depth items = .ok branches → CompilesItems merge depth items branches
  | depth, [], branches, h => by
      cases h
      exact .nil
  | depth, item :: rest, branches, h => by
      rcases bind_eq_ok.mp h with ⟨p, hp, h⟩
      rcases bind_eq_ok.mp h with ⟨others, hothers, hbranches⟩
      rw [← pure_eq_ok.mp hbranches]
      exact .cons (compilesEntry_of_eq_ok hp) (compilesItems_of_eq_ok hothers)

end

mutual

theorem CompilesEntry.eq_ok
    {depth : Nat} {value : Value} {p : Predicate}
    (h : CompilesEntry merge depth value p) :
    compileEntry merge depth value = .ok p := by
  cases h with
  | map bounded keys =>
      exact compileEntry_eq_ok.mpr ⟨_, _, rfl, bounded, keys.eq_ok, rfl⟩

theorem CompilesKeys.eq_ok
    {depth : Nat} {entries : List (String × Value)} {parts : List Predicate}
    (h : CompilesKeys merge depth entries parts) :
    compileKeys merge depth entries = .ok parts := by
  cases h with
  | nil => rfl
  | group isGroup members later =>
      rw [compileKeys_group isGroup,
        compileGroup_eq_ok.mpr ⟨_, _, rfl, members.eq_ok, rfl⟩, later.eq_ok]
      rfl
  | field isField later =>
      rw [compileKeys_field isField, compileField_eq_ok.mpr ⟨_, rfl, rfl⟩, later.eq_ok]
      rfl

theorem CompilesItems.eq_ok
    {depth : Nat} {items : List Value} {branches : List Predicate}
    (h : CompilesItems merge depth items branches) :
    compileItems merge depth items = .ok branches := by
  cases h with
  | nil => rfl
  | cons first later =>
      rw [compileItems, first.eq_ok, later.eq_ok]
      rfl

end

/-! ## Whole filters -/

variable {filter : Value}

theorem compile_single (key : String) (value : Value) :
    compile merge (.map [(key, value)]) =
      (compileEntry merge 0 (.map [(key, value)])).map some := rfl

theorem compile_eq_none : compile merge filter = .ok none ↔ filter.isFalsy = true := by
  constructor
  · intro h
    unfold compile at h
    split at h
    · assumption
    · split at h
      · split at h
        · cases h
        · rcases map_eq_ok.mp h with ⟨_, _, hsome⟩
          cases hsome
      · cases h
  · intro h
    unfold compile
    rw [if_pos h]

theorem compile_eq_some
    {p : Predicate} :
    compile merge filter = .ok (some p) ↔
      ∃ key value, filter = .map [(key, value)] ∧ CompilesEntry merge 0 filter p := by
  constructor
  · intro h
    unfold compile at h
    split at h
    · cases h
    · rename_i hfalsy
      split at h
      · rename_i entries
        split at h
        · cases h
        · rename_i hseveral
          rcases map_eq_ok.mp h with ⟨root, hroot, hsome⟩
          cases hsome
          cases entries with
          | nil => exact absurd rfl hfalsy
          | cons entry rest =>
            cases rest with
            | nil => exact ⟨entry.1, entry.2, rfl, compilesEntry_of_eq_ok hroot⟩
            | cons _ _ => exact absurd (by simp) hseveral
      · cases h
  · rintro ⟨key, value, rfl, h⟩
    rw [compile_single, h.eq_ok]
    rfl

end Filter
end RecordApi
