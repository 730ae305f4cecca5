import RecordApi.Proofs.Params.Brackets
import RecordApi.Proofs.Params.Leaves

/-!
# Maps that become lists

A map whose keys are all digits becomes a list, which fails when one of the keys writes no
number.  Whether that happens is told by the leaves of a tree, so it does not depend on their
order.
-/

namespace RecordApi

open Leaf

namespace Leaf

/-- The keys that leaves have next after a path. -/
def keysAt : List String → List Leaf → List String
  | [], leaves => heads leaves
  | name :: rest, leaves => keysAt rest (below name leaves)

variable {leaves others : List Leaf}

theorem keysAt_of_bare (hbare : ∀ leaf ∈ leaves, leaf.path = []) (path : List String) :
    keysAt path leaves = [] := by
  induction path generalizing leaves with
  | nil =>
      unfold keysAt heads
      rw [List.filterMap_eq_nil_iff]
      intro leaf hleaf
      rw [hbare leaf hleaf]
      rfl
  | cons name rest ih =>
      have hbelow : below name leaves = [] := by
        unfold below
        rw [List.filterMap_eq_nil_iff]
        intro leaf hleaf
        unfold below?
        rw [hbare leaf hleaf]
      rw [keysAt, hbelow]
      exact ih fun leaf hleaf => absurd hleaf List.not_mem_nil

theorem perm_keysAt (h : leaves.Perm others) (path : List String) :
    (keysAt path leaves).Perm (keysAt path others) := by
  induction path generalizing leaves others with
  | nil => exact h.filterMap _
  | cons name rest ih => exact ih (h.filterMap _)

end Leaf

namespace Params

open Steps Value

/-- All keys are digits, and one of them writes no number. -/
def AreMisnumbered (keys : List String) : Prop :=
  (∀ key ∈ keys, Text.isDigitText key = true) ∧ ∃ key ∈ keys, indexNumber? key = none

/-- The keys next after some path are all digits, and one of them writes no number. -/
def Misnumbered (leaves : List Leaf) : Prop :=
  ∃ path, AreMisnumbered (keysAt path leaves)

variable {leaves others : List Leaf} {keys names : List String}

theorem areMisnumbered_congr (h : ∀ key, key ∈ keys ↔ key ∈ names) :
    AreMisnumbered keys ↔ AreMisnumbered names := by
  unfold AreMisnumbered
  simp only [h]

theorem misnumbered_of_perm (h : leaves.Perm others) : Misnumbered leaves ↔ Misnumbered others :=
  exists_congr fun path => areMisnumbered_congr fun _ => (perm_keysAt h path).mem_iff

theorem misnumbered_iff :
    Misnumbered leaves ↔
      AreMisnumbered (heads leaves) ∨ ∃ name, Misnumbered (below name leaves) := by
  constructor
  · rintro ⟨path, h⟩
    cases path with
    | nil => exact Or.inl h
    | cons name rest => exact Or.inr ⟨name, rest, h⟩
  · rintro (h | ⟨name, rest, h⟩)
    · exact ⟨[], h⟩
    · exact ⟨name :: rest, h⟩

theorem not_misnumbered_of_bare (hbare : ∀ leaf ∈ leaves, leaf.path = []) :
    ¬ Misnumbered leaves := by
  rintro ⟨path, -, key, hkey, -⟩
  rw [keysAt_of_bare hbare] at hkey
  exact List.not_mem_nil hkey

/-! ## Trees grown item by item -/

/-- No branch is empty, and none has a key twice. -/
inductive Tree.IsGrown : Tree → Prop
  | plain (text : String) : IsGrown (.plain text)
  | repeated {texts : List String} (nonempty : texts ≠ []) : IsGrown (.repeated texts)
  | branch {entries : List (String × Tree)} (nonempty : entries ≠ [])
      (distinct : (Assoc.keys entries).Nodup) (members : ∀ entry ∈ entries, entry.2.IsGrown) :
      IsGrown (.branch entries)

structure AreGrown (entries : Assoc Tree) : Prop where
  distinct : (Assoc.keys entries).Nodup
  members : ∀ entry ∈ entries, entry.2.IsGrown

variable {entries next result : Assoc Tree} {tree : Tree} {tree? : Option Tree}
variable {key root value : String} {path : List String}

theorem areGrown_nil : AreGrown [] :=
  ⟨List.nodup_nil, fun _ hentry => absurd hentry List.not_mem_nil⟩

theorem AreGrown.put (h : AreGrown entries) (htree : tree.IsGrown) (name : String) :
    AreGrown (entries.put name tree) := by
  refine ⟨Assoc.nodup_keys_put name tree h.distinct, ?_⟩
  intro entry hentry
  rcases Assoc.mem_of_mem_put hentry with rfl | hentry
  · exact htree
  · exact h.members entry hentry

theorem AreGrown.of_get? (h : AreGrown entries) {name : String} :
    ∀ tree ∈ entries.get? name, tree.IsGrown := by
  intro tree htree
  exact h.members (name, tree) ((Assoc.get?_eq_some h.distinct).mp htree)

theorem areGrown_of_entriesOf?
    (hgrown : ∀ tree ∈ tree?, tree.IsGrown) (h : entriesOf? tree? = some entries) :
    AreGrown entries := by
  cases tree? with
  | none =>
      cases h
      exact areGrown_nil
  | some tree =>
      cases hgrown tree rfl with
      | plain text => cases h
      | repeated nonempty => cases h
      | branch nonempty distinct members =>
          cases h
          exact ⟨distinct, members⟩

theorem put_ne_nil (name : String) (tree : Tree) (entries : Assoc Tree) :
    entries.put name tree ≠ [] := by
  intro h
  have hmem : name ∈ Assoc.keys (entries.put name tree) := Assoc.mem_keys_put.mpr (Or.inr rfl)
  rw [h] at hmem
  exact List.not_mem_nil hmem

theorem isGrown_of_graft
    (hgrown : ∀ tree ∈ tree?, tree.IsGrown) (h : graft key root value path tree? = .ok tree) :
    tree.IsGrown := by
  induction path generalizing tree? tree with
  | nil =>
      cases tree? with
      | none =>
          cases h
          exact .plain value
      | some old =>
          cases old with
          | plain text =>
              cases h
              exact .repeated (List.cons_ne_nil _ _)
          | repeated texts =>
              cases h
              exact .repeated (List.concat_ne_nil _ _)
          | branch entries => cases h
  | cons segment rest ih =>
      rcases exists_entries_of_graft h with ⟨entries, child, hentries, hchild, rfl⟩
      have hold := areGrown_of_entriesOf? hgrown hentries
      have hnew := hold.put (ih hold.of_get? hchild) (resolveSegment entries segment)
      exact .branch (put_ne_nil _ _ _) hnew.distinct hnew.members

theorem areGrown_of_assignItem
    {item : String × String} (hgrown : AreGrown entries)
    (h : assignItem entries item = .ok next) :
    AreGrown next := by
  rcases exists_child_of_assignItem h with ⟨segment, rest, child, -, hchild, rfl⟩
  exact hgrown.put (isGrown_of_graft hgrown.of_get? hchild) _

theorem areGrown_of_foldlM
    {items : List (String × String)} (hgrown : AreGrown entries)
    (h : items.foldlM assignItem entries = .ok result) :
    AreGrown result := by
  induction items generalizing entries with
  | nil =>
      cases h
      exact hgrown
  | cons item rest ih =>
      rw [List.foldlM_cons] at h
      rcases bind_eq_ok.mp h with ⟨next, hnext, hrest⟩
      exact ih (areGrown_of_assignItem hgrown hnext) hrest

/-! ## Leaves of grown trees -/

theorem leavesOf_ne_nil
    (hentries : entries ≠ []) (hne : ∀ entry ∈ entries, entry.2.leaves ≠ []) :
    leavesOf entries ≠ [] := by
  rcases List.exists_cons_of_ne_nil hentries with ⟨⟨key, tree⟩, rest, rfl⟩
  rw [List.forall_mem_cons] at hne
  rw [leavesOf]
  intro h
  exact hne.1 (List.map_eq_nil_iff.mp (List.append_eq_nil_iff.mp h).1)

theorem Tree.IsGrown.leaves_ne_nil (h : tree.IsGrown) : tree.leaves ≠ [] := by
  induction h with
  | plain text =>
      rw [Tree.leaves]
      exact List.cons_ne_nil _ _
  | repeated nonempty =>
      rw [Tree.leaves]
      exact fun h => nonempty (List.map_eq_nil_iff.mp h)
  | branch nonempty distinct members ih =>
      rw [Tree.leaves]
      exact leavesOf_ne_nil nonempty ih

theorem below_leavesOf (hdistinct : (Assoc.keys entries).Nodup) (name : String) :
    below name (leavesOf entries) = leavesOf? (entries.get? name) := by
  rw [leavesOf_eq_flatMap]
  exact below_flatMap hdistinct name

/-- Every key leads to a leaf. -/
theorem mem_heads_leavesOf (h : AreGrown entries) :
    key ∈ heads (leavesOf entries) ↔ key ∈ Assoc.keys entries := by
  have hheads : heads (leavesOf entries) =
      entries.flatMap fun entry => entry.2.leaves.map fun _ => entry.1 := by
    rw [leavesOf_eq_flatMap]
    unfold heads
    rw [List.filterMap_flatMap]
    exact List.flatMap_congr fun entry _ => heads_under entry.1 entry.2.leaves
  unfold Assoc.keys
  rw [hheads, List.mem_flatMap, List.mem_map]
  refine exists_congr fun entry => and_congr_right fun hentry => ?_
  rw [List.mem_map]
  constructor
  · rintro ⟨_, -, hkey⟩
    exact hkey
  · intro hkey
    rcases List.exists_mem_of_ne_nil _ (h.members entry hentry).leaves_ne_nil with ⟨leaf, hleaf⟩
    exact ⟨leaf, hleaf, hkey⟩

theorem misnumbered_leavesOf (h : AreGrown entries) :
    Misnumbered (leavesOf entries) ↔
      AreMisnumbered (Assoc.keys entries) ∨ ∃ entry ∈ entries, Misnumbered entry.2.leaves := by
  rw [misnumbered_iff, areMisnumbered_congr fun _ => mem_heads_leavesOf h]
  refine or_congr_right ⟨?_, ?_⟩
  · rintro ⟨name, hname⟩
    rw [below_leavesOf h.distinct] at hname
    cases hget : entries.get? name with
    | none =>
        rw [hget] at hname
        exact absurd hname (not_misnumbered_of_bare fun _ hleaf => absurd hleaf List.not_mem_nil)
    | some tree =>
        rw [hget] at hname
        exact ⟨(name, tree), (Assoc.get?_eq_some h.distinct).mp hget, hname⟩
  · rintro ⟨⟨name, tree⟩, hentry, htree⟩
    refine ⟨name, ?_⟩
    rw [below_leavesOf h.distinct, (Assoc.get?_eq_some h.distinct).mpr hentry]
    exact htree

/-! ## Folding -/

variable {values : Assoc Value} {e : Error}

theorem exists_inIndexOrder_iff :
    (∃ items, inIndexOrder values = .ok items) ↔
      ∀ entry ∈ values, indexNumber? entry.1 ≠ none := by
  rw [inIndexOrder_eq, ← forall₂_congr fun _ _ => exists_readIndex_iff, ← exists_mapM_iff]
  constructor
  · rintro ⟨items, h⟩
    rcases map_eq_ok.mp h with ⟨pairs, hpairs, -⟩
    exact ⟨pairs, hpairs⟩
  · rintro ⟨pairs, hpairs⟩
    exact ⟨_, map_eq_ok.mpr ⟨pairs, hpairs, rfl⟩⟩

theorem exists_foldMap_iff :
    (∃ value, foldMap values = .ok value) ↔ ¬ AreMisnumbered (Assoc.keys values) := by
  have hnumbers : (∀ entry ∈ values, indexNumber? entry.1 ≠ none) ↔
      ¬ ∃ key ∈ Assoc.keys values, indexNumber? key = none := by
    simp [Assoc.keys]
  -- only a map that has keys and only digit ones becomes a list
  by_cases hdigits : ∀ key ∈ Assoc.keys values, Text.isDigitText key = true
  · by_cases hempty : values = []
    · rw [hempty]
      exact iff_of_true ⟨_, rfl⟩ fun h => by simpa [Assoc.keys] using h.2
    · rw [foldMap_of_digits hempty hdigits, AreMisnumbered, and_iff_right hdigits, ← hnumbers,
        ← exists_inIndexOrder_iff]
      constructor
      · rintro ⟨_, h⟩
        rcases map_eq_ok.mp h with ⟨items, hitems, -⟩
        exact ⟨items, hitems⟩
      · rintro ⟨items, hitems⟩
        exact ⟨_, map_eq_ok.mpr ⟨items, hitems, rfl⟩⟩
  · have hother := hdigits
    push Not at hother
    rcases hother with ⟨key, hkey, hnondigit⟩
    rw [foldMap_of_nondigit hkey (Bool.eq_false_iff.mpr hnondigit)]
    exact iff_of_true ⟨_, rfl⟩ fun h => hdigits h.1

theorem keys_of_foldEntries (h : foldEntries entries = .ok values) :
    Assoc.keys values = Assoc.keys entries := by
  induction entries generalizing values with
  | nil =>
      rw [foldEntries] at h
      cases h
      rfl
  | cons entry rest ih =>
      rcases entry with ⟨key, tree⟩
      rw [foldEntries] at h
      rcases bind_eq_ok.mp h with ⟨value, -, h⟩
      rcases bind_eq_ok.mp h with ⟨others, hothers, h⟩
      rw [← pure_eq_ok.mp h, Assoc.keys_cons, Assoc.keys_cons, ih hothers]

theorem exists_foldEntries_iff :
    (∃ values, foldEntries entries = .ok values) ↔
      ∀ entry ∈ entries, ∃ value, entry.2.fold = .ok value := by
  induction entries with
  | nil =>
      rw [foldEntries]
      exact iff_of_true ⟨_, rfl⟩ fun _ hentry => absurd hentry List.not_mem_nil
  | cons entry rest ih =>
      rcases entry with ⟨key, tree⟩
      rw [List.forall_mem_cons, ← ih, foldEntries]
      constructor
      · rintro ⟨values, h⟩
        rcases bind_eq_ok.mp h with ⟨value, hvalue, h⟩
        rcases bind_eq_ok.mp h with ⟨others, hothers, -⟩
        exact ⟨⟨value, hvalue⟩, others, hothers⟩
      · rintro ⟨⟨value, hvalue⟩, others, hothers⟩
        rw [hvalue, hothers]
        exact ⟨_, rfl⟩

theorem exists_fold_branch_iff :
    (∃ value, (Tree.branch entries).fold = .ok value) ↔
      (∀ entry ∈ entries, ∃ value, entry.2.fold = .ok value) ∧
        ¬ AreMisnumbered (Assoc.keys entries) := by
  rw [← exists_foldEntries_iff, Tree.fold]
  constructor
  · rintro ⟨value, h⟩
    rcases bind_eq_ok.mp h with ⟨values, hvalues, hvalue⟩
    rw [← keys_of_foldEntries hvalues, ← exists_foldMap_iff]
    exact ⟨⟨values, hvalues⟩, value, hvalue⟩
  · rintro ⟨⟨values, hvalues⟩, hkeys⟩
    rw [← keys_of_foldEntries hvalues, ← exists_foldMap_iff] at hkeys
    rcases hkeys with ⟨value, hvalue⟩
    exact ⟨value, bind_eq_ok.mpr ⟨values, hvalues, hvalue⟩⟩

theorem exists_fold_iff_of_members
    (h : AreGrown entries)
    (hmembers : ∀ entry ∈ entries,
      ((∃ value, entry.2.fold = .ok value) ↔ ¬ Misnumbered entry.2.leaves)) :
    (∃ value, (Tree.branch entries).fold = .ok value) ↔ ¬ Misnumbered (leavesOf entries) := by
  rw [exists_fold_branch_iff, misnumbered_leavesOf h, forall₂_congr hmembers]
  push Not
  exact and_comm

/-- A grown tree folds to a value, unless its leaves are misnumbered. -/
theorem Tree.IsGrown.exists_fold_iff (h : tree.IsGrown) :
    (∃ value, tree.fold = .ok value) ↔ ¬ Misnumbered tree.leaves := by
  induction h with
  | plain text =>
      rw [Tree.fold, Tree.leaves]
      exact iff_of_true ⟨_, rfl⟩ (not_misnumbered_of_bare (by simp))
  | repeated nonempty =>
      rw [Tree.fold, Tree.leaves]
      exact iff_of_true ⟨_, rfl⟩ (not_misnumbered_of_bare (by simp))
  | branch nonempty distinct members ih =>
      rw [Tree.leaves]
      exact exists_fold_iff_of_members ⟨distinct, members⟩ ih

theorem AreGrown.exists_fold_iff (h : AreGrown entries) :
    (∃ value, (Tree.branch entries).fold = .ok value) ↔ ¬ Misnumbered (leavesOf entries) :=
  exists_fold_iff_of_members h fun entry hentry => (h.members entry hentry).exists_fold_iff

/-! ## How folding fails -/

theorem eq_of_foldMap_error (h : foldMap values = .error e) : e = .indexNotDecimal := by
  unfold foldMap at h
  split at h
  · rw [inIndexOrder_eq] at h
    rcases exists_error_of_mapM (map_eq_error.mp (map_eq_error.mp h)) with ⟨entry, -, hentry⟩
    exact (readIndex_eq_error.mp hentry).2.symm
  · cases h

mutual

theorem Tree.eq_of_fold_error : ∀ {tree : Tree}, tree.fold = .error e → e = .indexNotDecimal
  | .plain s, h => by
      rw [Tree.fold] at h
      cases h
  | .repeated texts, h => by
      rw [Tree.fold] at h
      cases h
  | .branch entries, h => by
      rw [Tree.fold] at h
      rcases bind_eq_error.mp h with h | ⟨values, -, h⟩
      · exact eq_of_foldEntries_error h
      · exact eq_of_foldMap_error h

theorem eq_of_foldEntries_error :
    ∀ {entries : List (String × Tree)}, foldEntries entries = .error e → e = .indexNotDecimal
  | [], h => by
      rw [foldEntries] at h
      cases h
  | (key, tree) :: rest, h => by
      rw [foldEntries] at h
      rcases bind_eq_error.mp h with h | ⟨value, -, h⟩
      · exact Tree.eq_of_fold_error h
      rcases bind_eq_error.mp h with h | ⟨others, -, h⟩
      · exact eq_of_foldEntries_error h
      · cases h

end

end Params
end RecordApi
