import RecordApi.Proofs.Query.Merging

/-!
# The order of keys and entries

In a filter the keys of an entry and the entries of a group may stand in any order, at any
depth, and so may the operators on a field when all of them count: reordered filters are
accepted together and have the same truth.
-/

namespace RecordApi
namespace Filter

/-- A filter is put in another order: some of its keys, of the entries of its groups and, when
all of them count, of the operators on its fields. -/
inductive Reorders (merge : MergePolicy) : Value → Value → Prop
  | refl (filter : Value) : Reorders merge filter filter
  | trans {filter between other : Value}
      (first : Reorders merge filter between)
      (later : Reorders merge between other) :
      Reorders merge filter other
  | keys {entries others : List (String × Value)}
      (order : entries.Perm others) :
      Reorders merge (.map entries) (.map others)
  | items {before after : List (String × Value)} {key : String} {items others : List Value}
      (isGroup : IsGroupKey key)
      (order : items.Perm others) :
      Reorders merge (.map (before ++ (key, .list items) :: after))
        (.map (before ++ (key, .list others) :: after))
  | operators {before after operators others : List (String × Value)} {key : String}
      (every : merge = .conjunction)
      (isField : ¬ IsGroupKey key)
      (order : operators.Perm others) :
      Reorders merge (.map (before ++ (key, .map operators) :: after))
        (.map (before ++ (key, .map others) :: after))
  | inside {before after : List (String × Value)} {key : String} {ahead behind : List Value}
      {item other : Value}
      (isGroup : IsGroupKey key)
      (inner : Reorders merge item other) :
      Reorders merge (.map (before ++ (key, .list (ahead ++ item :: behind)) :: after))
        (.map (before ++ (key, .list (ahead ++ other :: behind)) :: after))

variable {merge : MergePolicy} {filter other : Value}

theorem Reorders.symm
    (h : Reorders merge filter other) :
    Reorders merge other filter := by
  induction h with
  | refl filter => exact .refl filter
  | trans _ _ hfirst hlater => exact hlater.trans hfirst
  | keys order => exact .keys order.symm
  | items isGroup order => exact .items isGroup order.symm
  | operators every isField order => exact .operators every isField order.symm
  | inside isGroup _ ih => exact .inside isGroup ih

/-! ## Acceptance -/

/-- A map is reordered to a map with as many keys. -/
theorem Reorders.exists_map
    {entries : List (String × Value)}
    (h : Reorders merge (.map entries) other) :
    ∃ others, other = .map others ∧ others.length = entries.length := by
  generalize hfilter : Value.map entries = filter at h
  induction h generalizing entries with
  | refl _ => exact ⟨entries, hfilter.symm, rfl⟩
  | trans _ _ hfirst hlater =>
      rcases hfirst hfilter with ⟨between, hbetween, hlength⟩
      rcases hlater hbetween.symm with ⟨others, hothers, hlength'⟩
      exact ⟨others, hothers, hlength'.trans hlength⟩
  | keys order =>
      cases hfilter
      exact ⟨_, rfl, order.length_eq.symm⟩
  | items _ _ =>
      cases hfilter
      exact ⟨_, rfl, by simp⟩
  | operators _ _ _ =>
      cases hfilter
      exact ⟨_, rfl, by simp⟩
  | inside _ _ _ =>
      cases hfilter
      exact ⟨_, rfl, by simp⟩

theorem isFalsy_append_cons (before after : List (String × Value)) (entry : String × Value) :
    (Value.map (before ++ entry :: after)).isFalsy = false := by
  cases before with
  | nil => rfl
  | cons first rest => rfl

theorem Reorders.isFalsy_eq
    (h : Reorders merge filter other) :
    filter.isFalsy = other.isFalsy := by
  induction h with
  | refl _ => rfl
  | trans _ _ hfirst hlater => exact hfirst.trans hlater
  | keys order => exact order.isEmpty_eq
  | items _ _ => rw [isFalsy_append_cons, isFalsy_append_cons]
  | operators _ _ _ => rw [isFalsy_append_cons, isFalsy_append_cons]
  | inside _ _ _ => rw [isFalsy_append_cons, isFalsy_append_cons]

theorem isEntry_with_key
    {limit depth : Nat} {before after : List (String × Value)} {entry entry' : String × Value}
    (hkey : IsKey limit depth entry.1 entry.2 → IsKey limit depth entry'.1 entry'.2)
    (h : IsEntry limit depth (.map (before ++ entry :: after))) :
    IsEntry limit depth (.map (before ++ entry' :: after)) := by
  cases h with
  | map bounded keys =>
      rw [List.forall_mem_append, List.forall_mem_cons] at keys
      refine .map bounded ?_
      rw [List.forall_mem_append, List.forall_mem_cons]
      exact ⟨keys.1, hkey keys.2.1, keys.2.2⟩

theorem isKey_group_iff
    {limit depth : Nat} {key : String} {items : List Value}
    (hkey : IsGroupKey key) :
    IsKey limit depth key (.list items) ↔ ∀ item ∈ items, IsEntry limit (depth + 1) item := by
  constructor
  · intro h
    cases h with
    | group _ members => exact members
  · exact fun members => .group hkey members

theorem Reorders.isEntry
    {limit depth : Nat}
    (h : Reorders merge filter other) (hentry : IsEntry limit depth filter) :
    IsEntry limit depth other := by
  induction h generalizing depth with
  | refl _ => exact hentry
  | trans _ _ hfirst hlater => exact hlater (hfirst hentry)
  | keys order =>
      cases hentry with
      | map bounded keys => exact .map bounded fun entry hmem => keys entry (order.mem_iff.mpr hmem)
  | items isGroup order =>
      refine isEntry_with_key ?_ hentry
      rw [isKey_group_iff isGroup, isKey_group_iff isGroup]
      exact fun members item hitem => members item (order.mem_iff.mpr hitem)
  | operators _ isField _ => exact isEntry_with_key (fun _ => .field isField) hentry
  | inside isGroup _ ih =>
      refine isEntry_with_key ?_ hentry
      rw [isKey_group_iff isGroup, isKey_group_iff isGroup, List.forall_mem_append,
        List.forall_mem_append, List.forall_mem_cons, List.forall_mem_cons]
      exact fun members => ⟨members.1, ih members.2.1, members.2.2⟩

theorem Reorders.isFilter
    {limit : Nat}
    (h : Reorders merge filter other) (hfilter : IsFilter limit filter) :
    IsFilter limit other := by
  rcases hfilter with ⟨key, value, hroot, hentry⟩
  rw [hroot] at h hentry
  rcases h.exists_map with ⟨others, hothers, hlength⟩
  rcases List.length_eq_one_iff.mp hlength with ⟨⟨key', value'⟩, hsingle⟩
  rw [hsingle] at hothers
  exact ⟨key', value', hothers, h.isEntry hentry⟩

theorem Reorders.accepts
    (h : Reorders merge filter other)
    (haccepts : ∃ predicate?, compile merge filter = .ok predicate?) :
    ∃ predicate?, compile merge other = .ok predicate? := by
  rw [accepts_iff] at haccepts ⊢
  rw [← h.isFalsy_eq]
  exact haccepts.imp_right h.isFilter

/-! ## Truth -/

variable (assign : Condition → Truth)

/-- The truth of one key of an entry. -/
def keyTruth (merge : MergePolicy) (assign : Condition → Truth) (entry : String × Value) : Truth :=
  match Combinator.ofName? entry.1 with
  | some combinator => groupTruth merge assign combinator entry.2
  | none => fieldTruth merge assign entry.1 entry.2

theorem entryTruth_map (entries : List (String × Value)) :
    entryTruth merge assign (.map entries) =
      Combinator.and.truth (entries.map (keyTruth merge assign)) := by
  rw [entryTruth]
  congr 1
  induction entries with
  | nil => rfl
  | cons entry rest ih =>
      rw [keyTruths, ih, List.map_cons]
      rfl

theorem groupTruth_list (c : Combinator) (items : List Value) :
    groupTruth merge assign c (.list items) = c.truth (items.map (entryTruth merge assign)) := by
  rw [groupTruth]
  congr 1
  induction items with
  | nil => rfl
  | cons item rest ih => rw [itemTruths, ih, List.map_cons]

theorem keyTruth_group
    {key : String} {c : Combinator} {items : List Value}
    (hkey : Combinator.ofName? key = some c) :
    keyTruth merge assign (key, .list items) = c.truth (items.map (entryTruth merge assign)) := by
  rw [keyTruth, hkey, ← groupTruth_list]

theorem keyTruth_field
    {key : String} {operators : List (String × Value)}
    (hkey : Combinator.ofName? key = none) :
    keyTruth .conjunction assign (key, .map operators) =
      Combinator.and.truth (operators.map fun operator => assign (conditionOf key operator)) := by
  rw [keyTruth, hkey]
  rfl

theorem entryTruth_with_key
    {before after : List (String × Value)} {entry entry' : String × Value}
    (hkey : keyTruth merge assign entry = keyTruth merge assign entry') :
    entryTruth merge assign (.map (before ++ entry :: after)) =
      entryTruth merge assign (.map (before ++ entry' :: after)) := by
  rw [entryTruth_map, entryTruth_map, List.map_append, List.map_append, List.map_cons,
    List.map_cons, hkey]

theorem Reorders.entryTruth_eq
    (h : Reorders merge filter other) :
    entryTruth merge assign filter = entryTruth merge assign other := by
  induction h with
  | refl _ => rfl
  | trans _ _ hfirst hlater => exact hfirst.trans hlater
  | keys order =>
      rw [entryTruth_map, entryTruth_map]
      exact Combinator.truth_perm (order.map _)
  | items isGroup order =>
      rcases isGroupKey_iff.mp isGroup with ⟨c, hkey⟩
      apply entryTruth_with_key
      rw [keyTruth_group assign hkey, keyTruth_group assign hkey]
      exact Combinator.truth_perm (order.map _)
  | operators every isField order =>
      have hkey := ofName?_eq_none.mpr isField
      apply entryTruth_with_key
      rw [every, keyTruth_field assign hkey, keyTruth_field assign hkey]
      exact Combinator.truth_perm (order.map _)
  | inside isGroup _ ih =>
      rcases isGroupKey_iff.mp isGroup with ⟨c, hkey⟩
      apply entryTruth_with_key
      rw [keyTruth_group assign hkey, keyTruth_group assign hkey, List.map_append, List.map_append,
        List.map_cons, List.map_cons, ih]

theorem Reorders.truth_eq
    (h : Reorders merge filter other) :
    truth merge assign filter = truth merge assign other := by
  unfold truth
  rw [h.isFalsy_eq, h.entryTruth_eq assign]

/-- Reordered filters are accepted together, and compiled to predicates of the same truth. -/
theorem compile_of_reorders
    (h : Reorders merge filter other) :
    ((∃ predicate?, compile merge filter = .ok predicate?) ↔
        ∃ predicate?, compile merge other = .ok predicate?) ∧
      ∀ {p? q? : Option Predicate}, compile merge filter = .ok p? → compile merge other = .ok q? →
        Option.Rel (fun p q => ∀ assign, p.truth assign = q.truth assign) p? q? := by
  refine ⟨⟨h.accepts, h.symm.accepts⟩, ?_⟩
  intro p? q? hp hq
  have htruth : ∀ assign, (p?.map (Predicate.truth assign)).getD .yes =
      (q?.map (Predicate.truth assign)).getD .yes := by
    intro assign
    rw [truth_of_compile assign hp, truth_of_compile assign hq]
    exact h.truth_eq assign
  cases p? with
  | none =>
      have hfalsy := compile_eq_none.mp hp
      rw [h.isFalsy_eq, ← @compile_eq_none merge, hq] at hfalsy
      cases hfalsy
      exact .none
  | some p =>
      cases q? with
      | none =>
          have hfalsy := compile_eq_none.mp hq
          rw [← h.isFalsy_eq, ← @compile_eq_none merge, hp] at hfalsy
          cases hfalsy
      | some q => exact .some htruth

end Filter

namespace Sample

/-- The filter `ageRange` with its entries and its operators the other way round. -/
def ageRangeBackwards : Value :=
  .map [("or", .list [
    .map [("name", .map [("eq", .text "x")])],
    .map [("age", .map [("lt", .int 65), ("gte", .int 18)])]])]

theorem reorders_ageRange : Filter.Reorders .conjunction ageRange ageRangeBackwards := by
  have hage := @Filter.Reorders.operators .conjunction [] []
    [("gte", .int 18), ("lt", .int 65)] [("lt", .int 65), ("gte", .int 18)] "age"
    rfl (by decide) (.swap _ _ [])
  have hentry := @Filter.Reorders.inside .conjunction [] [] "or" []
    [.map [("name", .map [("eq", .text "x")])]] _ _ (by decide) hage
  exact hentry.trans
    (@Filter.Reorders.items .conjunction [] [] "or" _ _ (by decide) (.swap _ _ []))

theorem compile_of_reorders_ageRange :
    Filter.Reorders .conjunction ageRange ageRangeBackwards ∧
      ∃ p q, Filter.compile .conjunction ageRange = .ok (some p) ∧
        Filter.compile .conjunction ageRangeBackwards = .ok (some q) ∧
        ∀ assign, p.truth assign = q.truth assign := by
  have hcompile := (Filter.compile_of_reorders reorders_ageRange).2 rfl rfl
  refine ⟨reorders_ageRange, _, _, rfl, rfl, ?_⟩
  cases hcompile with
  | some htruth => exact htruth

end Sample
end RecordApi
