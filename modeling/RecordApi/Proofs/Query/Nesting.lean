import RecordApi.Proofs.Query.Grammar

/-!
# How deep groups nest

The bound on the depth of a filter is on the groups in which an entry lies, and is looked at
where an entry stands.  A group without entries is never looked at: such a group may stand
inside as many others as an entry may, so that groups nest one deeper than the bound.
-/

namespace RecordApi

namespace Predicate

theorem conditionsOfAll_append (ps qs : List Predicate) :
    conditionsOfAll (ps ++ qs) = conditionsOfAll ps ++ conditionsOfAll qs := by
  induction ps with
  | nil => rfl
  | cons p rest ih =>
      rw [List.cons_append, conditionsOfAll, conditionsOfAll, ih, List.append_assoc]

theorem conditionsOfAll_map_condition (conditions : List Condition) :
    conditionsOfAll (conditions.map Predicate.condition) = conditions := by
  induction conditions with
  | nil => rfl
  | cons c rest ih =>
      rw [List.map_cons, conditionsOfAll, ih]
      rfl

theorem conditions_conjoin (ps : List Predicate) :
    conditions (conjoin ps) = conditionsOfAll ps := by
  unfold conjoin
  split
  · rw [conditionsOfAll, conditionsOfAll, List.append_nil]
  · rfl

end Predicate

namespace Filter

/-- So many of the keys `and` and `or` of a filter stand one inside the other. -/
def Nests (filter : Value) (n : Nat) : Prop :=
  ∃ depth entries key value, n = depth + 1 ∧ Inside filter depth (.map entries) ∧
    IsGroupKey key ∧ (key, value) ∈ entries

/-- A field with these operators stands inside so many groups of a filter. -/
def HasField (filter : Value) (depth : Nat) (field : String)
    (operators : List (String × Value)) : Prop :=
  ∃ entries, Inside filter depth (.map entries) ∧ ¬ IsGroupKey field ∧
    (field, .map operators) ∈ entries

/-- An operator inside so many groups of a filter puts this condition. -/
def Puts (filter : Value) (depth : Nat) (c : Condition) : Prop :=
  ∃ field operators, HasField filter depth field operators ∧
    ∃ operator ∈ operators, conditionOf field operator = c

variable {merge : MergePolicy} {filter : Value}

/-! ## Where the conditions come from -/

theorem keep_sublist {α : Type} (merge : MergePolicy) (xs : List α) :
    (merge.keep xs).Sublist xs := by
  cases merge with
  | lastWins => exact List.drop_sublist _ _
  | conjunction => exact List.Sublist.refl xs

mutual

theorem CompilesEntry.puts
    {depth : Nat} {value : Value} {p : Predicate}
    (h : CompilesEntry merge depth value p) (hinside : Inside filter depth value) :
    ∀ c ∈ p.conditions, ∃ n, Puts filter n c := by
  cases h with
  | map bounded keys =>
      rw [Predicate.conditions_conjoin]
      exact keys.puts hinside fun _ hentry => hentry

-- The keys that are left to compile are followed as some of `all`, the keys of an entry of the
-- filter, which an induction on the keys alone would lose.
theorem CompilesKeys.puts
    {depth : Nat} {all entries : List (String × Value)} {parts : List Predicate}
    (h : CompilesKeys merge depth entries parts) (hinside : Inside filter depth (.map all))
    (hall : ∀ entry ∈ entries, entry ∈ all) :
    ∀ c ∈ Predicate.conditionsOfAll parts, ∃ n, Puts filter n c := by
  cases h with
  | nil => exact nofun
  | group isGroup members later =>
      rw [List.forall_mem_cons] at hall
      intro c hc
      rcases List.mem_append.mp hc with hc | hc
      · exact members.puts (hinside.members isGroup hall.1) c hc
      · exact later.puts hinside hall.2 c hc
  | @field _ key operators _ _ isField later =>
      rw [List.forall_mem_cons] at hall
      rw [Predicate.conditionsOfAll_append, Predicate.conditionsOfAll_map_condition]
      intro c hc
      rcases List.mem_append.mp hc with hc | hc
      · have hfield : HasField filter depth key operators :=
          ⟨all, hinside, ofName?_eq_none.mp isField, hall.1⟩
        rcases List.mem_map.mp ((keep_sublist merge _).subset hc) with ⟨operator, hoperator, hcondition⟩
        exact ⟨depth, key, operators, hfield, operator, hoperator, hcondition⟩
      · exact later.puts hinside hall.2 c hc

theorem CompilesItems.puts
    {depth : Nat} {items : List Value} {branches : List Predicate}
    (h : CompilesItems merge depth items branches)
    (hinside : ∀ item ∈ items, Inside filter depth item) :
    ∀ c ∈ Predicate.conditionsOfAll branches, ∃ n, Puts filter n c := by
  cases h with
  | nil => exact nofun
  | cons first later =>
      rw [List.forall_mem_cons] at hinside
      intro c hc
      rcases List.mem_append.mp hc with hc | hc
      · exact first.puts hinside.1 c hc
      · exact later.puts hinside.2 c hc

end

/-! ## The bound -/

theorem Inside.exists_outer
    {n depth : Nat} {value : Value}
    (h : Inside filter depth value) (hle : n ≤ depth) :
    ∃ outer, Inside filter n outer := by
  induction h with
  | root =>
      rw [Nat.le_zero.mp hle]
      exact ⟨filter, .root⟩
  | @item depth _ _ _ item entry isGroup group member ih =>
      rcases Nat.le_or_eq_of_le_succ hle with hle | heq
      · exact ih hle
      · rw [heq]
        exact ⟨item, entry.item isGroup group member⟩

/-- Only what has a key somewhere is a filter at all. -/
theorem Inside.isFalsy_eq_false
    {depth : Nat} {entries : List (String × Value)} {entry : String × Value}
    (h : Inside filter depth (.map entries)) (hkey : entry ∈ entries) :
    filter.isFalsy = false := by
  generalize hvalue : Value.map entries = value at h
  induction h generalizing entries entry with
  | root =>
      rw [← hvalue]
      cases entries with
      | nil => cases hkey
      | cons first rest => rfl
  | item _ _ group _ ih => exact ih group rfl

theorem Nests.isFalsy_eq_false
    {n : Nat}
    (h : Nests filter n) :
    filter.isFalsy = false := by
  rcases h with ⟨_, _, _, _, _, hinside, _, hkey⟩
  exact hinside.isFalsy_eq_false hkey

theorem IsFilter.nests_le
    {limit n : Nat}
    (h : IsFilter limit filter) (hnests : Nests filter n) :
    n ≤ limit + 1 := by
  rcases hnests with ⟨depth, _, _, _, hn, hinside, _⟩
  rw [hn]
  exact Nat.succ_le_succ (h.depth_le hinside)

theorem IsFilter.puts_le
    {limit n : Nat} {c : Condition}
    (h : IsFilter limit filter) (hputs : Puts filter n c) :
    n ≤ limit := by
  rcases hputs with ⟨_, _, ⟨_, hinside, _⟩, _⟩
  exact h.depth_le hinside

/-- The bound is on the groups in which an entry lies.  So a filter whose groups nest deeper is
refused, unless it is of the right shape and its groups inside `maxDepth` others are empty.
In a filter that is accepted groups nest one deeper at most, and each condition is put by an
operator that stands inside `maxDepth` groups at most. -/
theorem deep_refused_iff (merge : MergePolicy) (filter : Value) :
    (((∃ n, maxDepth < n ∧ Nests filter n) → ∃ e, compile merge filter = .error e) ↔
        ¬ ((∃ limit, IsFilter limit filter) ∧ Nests filter (maxDepth + 1) ∧
          ∀ entry, ¬ Inside filter (maxDepth + 1) entry)) ∧
      ∀ p, compile merge filter = .ok (some p) →
        (∀ depth entry, Inside filter depth entry → depth ≤ maxDepth) ∧
          (∀ n, Nests filter n → n ≤ maxDepth + 1) ∧
          ∀ c ∈ p.conditions, ∃ n ≤ maxDepth, Puts filter n c := by
  refine ⟨⟨?_, ?_⟩, ?_⟩
  · rintro hrefused ⟨⟨limit, hfilter⟩, hnests, hempty⟩
    rcases hrefused ⟨_, Nat.lt_succ_self _, hnests⟩ with ⟨e, h⟩
    rcases (fault_of_compile h).exists_inside hfilter with ⟨depth, value, hinside, hdeep⟩
    rcases hinside.exists_outer hdeep with ⟨entry, hentry⟩
    exact hempty entry hentry
  · rintro hexcept ⟨n, hdeep, hnests⟩
    -- A filter of the grammar nests one deeper at most, with no entry in its deepest groups.
    rw [refuses_iff]
    refine ⟨hnests.isFalsy_eq_false, ?_⟩
    intro hfilter
    apply hexcept
    refine ⟨⟨maxDepth, hfilter⟩, ?_, ?_⟩
    · rw [← Nat.le_antisymm (hfilter.nests_le hnests) hdeep]
      exact hnests
    · intro entry hinside
      exact absurd (hfilter.depth_le hinside) (Nat.not_succ_le_self maxDepth)
  · intro p h
    have hfilter : IsFilter maxDepth filter := exists_compile_iff.mp ⟨p, h⟩
    refine ⟨fun _ _ => hfilter.depth_le, fun _ => hfilter.nests_le, ?_⟩
    intro c hc
    rcases compile_eq_some.mp h with ⟨_, _, _, hcompiles⟩
    rcases hcompiles.puts .root c hc with ⟨n, hputs⟩
    exact ⟨n, hfilter.puts_le hputs, hputs⟩

end Filter

namespace Sample

/-- A filter with an entry inside so many groups. -/
def nested : Nat → Value → Value
  | 0, entry => entry
  | n + 1, entry => nested n (.map [("and", .list [entry])])

theorem inside_nested (n : Nat) (entry : Value) : Filter.Inside (nested n entry) n entry := by
  induction n generalizing entry with
  | zero => exact .root
  | succ n ih => exact (ih _).item (Or.inl rfl) List.mem_cons_self List.mem_cons_self

def ofAge : Value :=
  .map [("age", .map [("eq", .int 1)])]

def emptyGroup : Value :=
  .map [("or", .list [])]

theorem nests_nested_emptyGroup (n : Nat) : Filter.Nests (nested n emptyGroup) (n + 1) :=
  ⟨n, _, "or", .list [], rfl, inside_nested n emptyGroup, Or.inr rfl, List.mem_cons_self⟩

/-- A field inside eight groups is accepted, and the same field inside nine is refused. -/
theorem deep_refused_iff_ofAge :
    Filter.Nests (nested 9 ofAge) 9 ∧
      (∃ e, Filter.compile .lastWins (nested 9 ofAge) = .error e) ∧
      ∃ p, Filter.compile .conjunction (nested 8 ofAge) = .ok (some p) ∧
        p.conditions.length = 1 ∧ ∀ c ∈ p.conditions, ∃ n ≤ 8, Filter.Puts (nested 8 ofAge) n c := by
  have hnests : Filter.Nests (nested 9 ofAge) 9 :=
    ⟨8, _, "and", _, rfl, inside_nested 8 _, Or.inl rfl, List.mem_cons_self⟩
  have hrefused := (Filter.deep_refused_iff .lastWins (nested 9 ofAge)).1
  have haccepted := (Filter.deep_refused_iff .conjunction (nested 8 ofAge)).2
  refine ⟨hnests, ?_, _, rfl, rfl, (haccepted _ rfl).2.2⟩
  refine hrefused.mpr ?_ ⟨9, by decide, hnests⟩
  rintro ⟨_, _, hempty⟩
  exact hempty _ (inside_nested 9 ofAge)

/-- Nine groups, one inside the other, of which the innermost is empty, are accepted. -/
theorem empty_group_nests_deeper :
    Filter.maxDepth < 9 ∧ Filter.Nests (nested 8 emptyGroup) 9 ∧
      (∃ p, Filter.compile .lastWins (nested 8 emptyGroup) = .ok (some p)) ∧
      ∃ p, Filter.compile .conjunction (nested 8 emptyGroup) = .ok (some p) :=
  ⟨by decide, nests_nested_emptyGroup 8, ⟨_, rfl⟩, _, rfl⟩

end Sample
end RecordApi
