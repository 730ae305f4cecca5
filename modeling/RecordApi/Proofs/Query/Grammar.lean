import RecordApi.Api.Failure
import RecordApi.Proofs.Query.Compiling

/-!
# The grammar of filters

A filter is a map of one key that is an entry.  The keys `and` and `or` of an entry hold lists
of entries, every other key holds a map of operators, and an entry may lie in so many groups at
most, one inside the other.  `Filter.compile` accepts exactly the filters of this grammar,
whatever becomes of several operators on one field, and the error with which it refuses any
other value tells a fault of that value.
-/

namespace RecordApi

open Steps

namespace Filter

/-- A key that holds a list of entries; every other key is a field. -/
def IsGroupKey (key : String) : Prop :=
  key = "and" ∨ key = "or"

instance : DecidablePred IsGroupKey :=
  fun key => inferInstanceAs (Decidable (key = "and" ∨ key = "or"))

mutual

/-- The entries that lie in `depth` groups, where `limit` groups are allowed. -/
inductive IsEntry (limit : Nat) : Nat → Value → Prop
  | map {depth : Nat} {entries : List (String × Value)}
      (bounded : depth ≤ limit)
      (keys : ∀ entry ∈ entries, IsKey limit depth entry.1 entry.2) :
      IsEntry limit depth (.map entries)

/-- What the keys of such an entry may hold. -/
inductive IsKey (limit : Nat) : Nat → String → Value → Prop
  | group {depth : Nat} {key : String} {items : List Value}
      (isGroup : IsGroupKey key)
      (members : ∀ item ∈ items, IsEntry limit (depth + 1) item) :
      IsKey limit depth key (.list items)
  | field {depth : Nat} {key : String} {operators : List (String × Value)}
      (isField : ¬ IsGroupKey key) :
      IsKey limit depth key (.map operators)

end

/-- The filters whose entries lie in `limit` groups at most. -/
def IsFilter (limit : Nat) (filter : Value) : Prop :=
  ∃ key value, filter = .map [(key, value)] ∧ IsEntry limit 0 filter

/-- A value stands where a filter has an entry, inside so many groups. -/
inductive Inside (filter : Value) : Nat → Value → Prop
  | root : Inside filter 0 filter
  | item {depth : Nat} {entries : List (String × Value)} {key : String} {items : List Value}
      {item : Value}
      (entry : Inside filter depth (.map entries))
      (isGroup : IsGroupKey key)
      (group : (key, .list items) ∈ entries)
      (member : item ∈ items) :
      Inside filter (depth + 1) item

/-- What is wrong with a filter when an error tells it. -/
inductive Fault (filter : Value) : Error → Prop
  | notObject (root : ∀ entries, filter ≠ .map entries) : Fault filter .notObject
  | severalRoots {entries : List (String × Value)}
      (root : filter = .map entries)
      (several : 1 < entries.length) :
      Fault filter .severalRoots
  | tooDeep {depth : Nat} {value : Value}
      (entry : Inside filter depth value)
      (deep : maxDepth < depth) :
      Fault filter .tooDeep
  | entryNotObject {depth : Nat} {value : Value}
      (entry : Inside filter depth value)
      (notMap : ∀ entries, value ≠ .map entries) :
      Fault filter .entryNotObject
  | groupNotList {depth : Nat} {entries : List (String × Value)} {c : Combinator} {value : Value}
      (entry : Inside filter depth (.map entries))
      (key : (c.name, value) ∈ entries)
      (notList : ∀ items, value ≠ .list items) :
      Fault filter (.groupNotList c)
  | fieldNotMap {depth : Nat} {entries : List (String × Value)} {field : String} {value : Value}
      (entry : Inside filter depth (.map entries))
      (isField : ¬ IsGroupKey field)
      (key : (field, value) ∈ entries)
      (notMap : ∀ operators, value ≠ .map operators) :
      Fault filter (.fieldNotMap field)

/-! ## Keys -/

theorem ofName?_eq_some
    {key : String} {c : Combinator} :
    Combinator.ofName? key = some c ↔ c.name = key := by
  constructor
  · intro h
    unfold Combinator.ofName? at h
    split at h <;> cases h <;> rfl
  · rintro rfl
    cases c <;> rfl

theorem isGroupKey_iff
    {key : String} :
    IsGroupKey key ↔ ∃ c, Combinator.ofName? key = some c := by
  constructor
  · rintro (hand | hor)
    · exact ⟨.and, ofName?_eq_some.mpr hand.symm⟩
    · exact ⟨.or, ofName?_eq_some.mpr hor.symm⟩
  · rintro ⟨c, hkey⟩
    rw [← ofName?_eq_some.mp hkey]
    cases c with
    | and => exact Or.inl rfl
    | or => exact Or.inr rfl

theorem ofName?_eq_none
    {key : String} :
    Combinator.ofName? key = none ↔ ¬ IsGroupKey key := by
  rw [isGroupKey_iff, Option.eq_none_iff_forall_ne_some, not_exists]

theorem isGroupKey_name (c : Combinator) : IsGroupKey c.name :=
  isGroupKey_iff.mpr ⟨c, ofName?_eq_some.mpr rfl⟩

variable {merge : MergePolicy} {filter : Value}

theorem Inside.members
    {depth : Nat} {entries : List (String × Value)} {key : String} {c : Combinator}
    {items : List Value}
    (h : Inside filter depth (.map entries)) (hkey : Combinator.ofName? key = some c)
    (hgroup : (key, .list items) ∈ entries) :
    ∀ item ∈ items, Inside filter (depth + 1) item :=
  fun _ hitem => h.item (isGroupKey_iff.mpr ⟨c, hkey⟩) hgroup hitem

/-! ## What is accepted -/

mutual

theorem CompilesEntry.isEntry
    {depth : Nat} {value : Value} {p : Predicate}
    (h : CompilesEntry merge depth value p) :
    IsEntry maxDepth depth value := by
  cases h with
  | map bounded keys => exact .map bounded keys.isKey

theorem CompilesKeys.isKey
    {depth : Nat} {entries : List (String × Value)} {parts : List Predicate}
    (h : CompilesKeys merge depth entries parts) :
    ∀ entry ∈ entries, IsKey maxDepth depth entry.1 entry.2 := by
  cases h with
  | nil => exact nofun
  | group isGroup members later =>
      rw [List.forall_mem_cons]
      exact ⟨.group (isGroupKey_iff.mpr ⟨_, isGroup⟩) members.isEntry, later.isKey⟩
  | field isField later =>
      rw [List.forall_mem_cons]
      exact ⟨.field (ofName?_eq_none.mp isField), later.isKey⟩

theorem CompilesItems.isEntry
    {depth : Nat} {items : List Value} {branches : List Predicate}
    (h : CompilesItems merge depth items branches) :
    ∀ item ∈ items, IsEntry maxDepth depth item := by
  cases h with
  | nil => exact nofun
  | cons first later =>
      rw [List.forall_mem_cons]
      exact ⟨first.isEntry, later.isEntry⟩

end

/-! ## What is refused -/

mutual

theorem fault_of_compileEntry :
    ∀ {depth : Nat} {value : Value} {e : Error},
      Inside filter depth value → compileEntry merge depth value = .error e → Fault filter e
  | depth, value, e, hinside, h => by
      rcases compileEntry_eq_error.mp h with ⟨hdeep, rfl⟩ | ⟨_, ⟨hvalue, rfl⟩ | hkeys⟩
      · exact .tooDeep hinside hdeep
      · exact .entryNotObject hinside hvalue
      · cases value with
        | map entries =>
            rcases hkeys with ⟨_, hvalue, hkeys⟩
            cases hvalue
            exact fault_of_compileKeys hinside (fun _ hentry => hentry) hkeys
        | _ => rcases hkeys with ⟨_, hvalue, _⟩; cases hvalue

theorem fault_of_compileGroup :
    ∀ {depth : Nat} {all : List (String × Value)} {c : Combinator} {value : Value} {e : Error},
      Inside filter depth (.map all) → (c.name, value) ∈ all →
        compileGroup merge c (depth + 1) value = .error e → Fault filter e
  | depth, all, c, value, e, hinside, hkey, h => by
      rcases compileGroup_eq_error.mp h with ⟨hvalue, rfl⟩ | hitems
      · exact .groupNotList hinside hkey hvalue
      · cases value with
        | list items =>
            rcases hitems with ⟨_, hvalue, hitems⟩
            cases hvalue
            exact fault_of_compileItems (hinside.members (ofName?_eq_some.mpr rfl) hkey) hitems
        | _ => rcases hitems with ⟨_, hvalue, _⟩; cases hvalue

-- `entries` are the keys that are left of the entry `all`, whose place in the filter is known.
theorem fault_of_compileKeys :
    ∀ {depth : Nat} {all entries : List (String × Value)} {e : Error},
      Inside filter depth (.map all) → (∀ entry ∈ entries, entry ∈ all) →
        compileKeys merge depth entries = .error e → Fault filter e
  | depth, all, [], e, _, _, h => by cases h
  | depth, all, (key, value) :: rest, e, hinside, hall, h => by
      rw [List.forall_mem_cons] at hall
      cases hkey : Combinator.ofName? key with
      | some c =>
          rw [compileKeys_group hkey] at h
          rcases bind_eq_error.mp h with hgroup | ⟨p, _, h⟩
          · rw [← ofName?_eq_some.mp hkey] at hall
            exact fault_of_compileGroup hinside hall.1 hgroup
          rcases bind_eq_error.mp h with hrest | ⟨others, _, h⟩
          · exact fault_of_compileKeys hinside hall.2 hrest
          · cases h
      | none =>
          rw [compileKeys_field hkey] at h
          rcases bind_eq_error.mp h with hfield | ⟨conditions, _, h⟩
          · rcases compileField_eq_error.mp hfield with ⟨hvalue, rfl⟩
            exact .fieldNotMap hinside (ofName?_eq_none.mp hkey) hall.1 hvalue
          rcases bind_eq_error.mp h with hrest | ⟨others, _, h⟩
          · exact fault_of_compileKeys hinside hall.2 hrest
          · cases h

theorem fault_of_compileItems :
    ∀ {depth : Nat} {items : List Value} {e : Error},
      (∀ item ∈ items, Inside filter depth item) →
        compileItems merge depth items = .error e → Fault filter e
  | depth, [], e, _, h => by cases h
  | depth, item :: rest, e, hitems, h => by
      rw [List.forall_mem_cons] at hitems
      rcases bind_eq_error.mp h with hitem | ⟨p, _, h⟩
      · exact fault_of_compileEntry hitems.1 hitem
      rcases bind_eq_error.mp h with hrest | ⟨others, _, h⟩
      · exact fault_of_compileItems hitems.2 hrest
      · cases h

end

theorem fault_of_compile
    {e : Error}
    (h : compile merge filter = .error e) :
    Fault filter e := by
  unfold compile at h
  split at h
  · cases h
  · split at h
    · rename_i entries
      split at h
      · rename_i hseveral
        cases h
        exact .severalRoots rfl hseveral
      · exact fault_of_compileEntry .root (map_eq_error.mp h)
    · rename_i hroot
      cases h
      exact .notObject hroot

/-! ## The grammar has no faults -/

theorem IsEntry.inside
    {limit depth : Nat} {value : Value}
    (h : IsEntry limit 0 filter) (hinside : Inside filter depth value) :
    IsEntry limit depth value := by
  induction hinside with
  | root => exact h
  | item _ isGroup group member ih =>
      cases ih with
      | map _ keys =>
          cases keys _ group with
          | group _ members => exact members _ member

/-- A filter of the grammar, but for its depth, can only be too deep. -/
theorem Fault.exists_inside
    {limit : Nat} {e : Error}
    (h : Fault filter e) (hfilter : IsFilter limit filter) :
    ∃ depth value, Inside filter depth value ∧ maxDepth < depth := by
  rcases hfilter with ⟨key, value, hroot, hentry⟩
  cases h with
  | notObject root => exact absurd hroot (root _)
  | severalRoots root several =>
      rw [hroot] at root
      cases root
      exact absurd several (Nat.lt_irrefl 1)
  | tooDeep entry deep => exact ⟨_, _, entry, deep⟩
  | entryNotObject entry notMap =>
      cases hentry.inside entry with
      | map _ _ => exact absurd rfl (notMap _)
  | @groupNotList _ _ c _ entry key notList =>
      cases hentry.inside entry with
      | map _ keys =>
          rcases keys _ key with _ | isField
          · exact absurd rfl (notList _)
          · exact absurd (isGroupKey_name c) isField
  | fieldNotMap entry isField key notMap =>
      cases hentry.inside entry with
      | map _ keys =>
          rcases keys _ key with isGroup | _
          · exact absurd isGroup isField
          · exact absurd rfl (notMap _)

theorem IsFilter.depth_le
    {limit depth : Nat} {value : Value}
    (h : IsFilter limit filter) (hinside : Inside filter depth value) :
    depth ≤ limit := by
  rcases h with ⟨_, _, _, hentry⟩
  cases hentry.inside hinside with
  | map bounded _ => exact bounded

theorem Fault.not_isFilter
    {e : Error}
    (h : Fault filter e) :
    ¬ IsFilter maxDepth filter := by
  intro hfilter
  rcases h.exists_inside hfilter with ⟨depth, value, hinside, hdeep⟩
  exact absurd (hfilter.depth_le hinside) (Nat.not_le.mpr hdeep)

/-! ## Accepting and refusing -/

theorem not_isFalsy_of_isFilter
    {limit : Nat}
    (h : IsFilter limit filter) :
    filter.isFalsy = false := by
  rcases h with ⟨key, value, hroot, _⟩
  rw [hroot]
  rfl

theorem exists_compile_iff :
    (∃ p, compile merge filter = .ok (some p)) ↔ IsFilter maxDepth filter := by
  constructor
  · rintro ⟨p, h⟩
    rcases compile_eq_some.mp h with ⟨key, value, hroot, hentry⟩
    exact ⟨key, value, hroot, hentry.isEntry⟩
  · intro h
    -- Nothing of the grammar is refused, since every refusal tells a fault.
    cases hresult : compile merge filter with
    | error e => exact absurd h (fault_of_compile hresult).not_isFilter
    | ok predicate? =>
        cases predicate? with
        | some p => exact ⟨p, rfl⟩
        | none =>
            rw [compile_eq_none, not_isFalsy_of_isFilter h] at hresult
            cases hresult

theorem accepts_iff :
    (∃ predicate?, compile merge filter = .ok predicate?) ↔
      filter.isFalsy = true ∨ IsFilter maxDepth filter := by
  rw [← @compile_eq_none merge, ← @exists_compile_iff merge, Option.exists]

theorem refuses_iff :
    (∃ e, compile merge filter = .error e) ↔
      filter.isFalsy = false ∧ ¬ IsFilter maxDepth filter := by
  rw [← Bool.not_eq_true, ← not_or, ← @accepts_iff merge]
  cases compile merge filter with
  | error e => simp
  | ok predicate? => simp

/-- A filter is compiled exactly when it is in the grammar, whatever the policy, and a value that
is neither falsy nor in the grammar is refused for a fault that it has. -/
theorem compile_iff_isFilter (filter : Value) :
    (∀ merge, compile merge filter = .ok none ↔ filter.isFalsy = true) ∧
      (∀ merge, (∃ p, compile merge filter = .ok (some p)) ↔ IsFilter maxDepth filter) ∧
      (∀ merge, (∃ e, compile merge filter = .error e ∧ Fault filter e ∧
          (Failure.filter e).label = "MalformedFilterError") ↔
        filter.isFalsy = false ∧ ¬ IsFilter maxDepth filter) ∧
      ∀ merge merge', (∃ predicate?, compile merge filter = .ok predicate?) ↔
        ∃ predicate?, compile merge' filter = .ok predicate? := by
  refine ⟨fun _ => compile_eq_none, fun _ => exists_compile_iff, ?_, ?_⟩
  · intro merge
    rw [← @refuses_iff merge]
    constructor
    · rintro ⟨e, h, _⟩
      exact ⟨e, h⟩
    · rintro ⟨e, h⟩
      exact ⟨e, h, fault_of_compile h, rfl⟩
  · intro merge merge'
    rw [accepts_iff, accepts_iff]

end Filter
end RecordApi
