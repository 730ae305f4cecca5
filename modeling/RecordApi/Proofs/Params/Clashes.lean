import RecordApi.Api.Failure
import RecordApi.Proofs.Params.Numbering

/-!
# Clashing keys

A plain value and bracket notation under one name do not go together, in whatever order they
come: the path of a leaf may not go on where the path of another leaf ends.
-/

namespace RecordApi

open Leaf

namespace Leaf

/-- One of two paths goes on where the other one ends. -/
def Mixes (path other : List String) : Prop :=
  path ≠ other ∧ (path <+: other ∨ other <+: path)

def Clashing (leaves : List Leaf) : Prop :=
  ∃ leaf ∈ leaves, ∃ other ∈ leaves, Mixes leaf.path other.path

variable {path other : List String} {leaves others : List Leaf} {leaf : Leaf}

theorem mixes_comm : Mixes path other ↔ Mixes other path :=
  and_congr ne_comm or_comm

theorem not_mixes_self (path : List String) : ¬ Mixes path path :=
  fun h => h.1 rfl

theorem mixes_nil_iff : Mixes [] path ↔ path ≠ [] := by
  constructor
  · exact fun h => h.1.symm
  · exact fun h => ⟨h.symm, Or.inl (List.nil_prefix)⟩

theorem mixes_cons_iff {name segment : String} :
    Mixes (name :: path) (segment :: other) ↔ name = segment ∧ Mixes path other := by
  unfold Mixes
  rw [List.cons_prefix_cons, List.cons_prefix_cons]
  by_cases hname : name = segment
  · simp [hname]
  · simp [hname, Ne.symm hname]

theorem mem_below {name : String} : leaf ∈ below name leaves ↔ leaf.under name ∈ leaves := by
  unfold below
  rw [List.mem_filterMap]
  constructor
  · rintro ⟨⟨path, text⟩, hfound, hleaf⟩
    cases path with
    | nil => cases hleaf
    | cons head rest =>
        unfold below? at hleaf
        dsimp only at hleaf
        split at hleaf
        · rename_i hhead
          cases hleaf
          rw [← hhead]
          exact hfound
        · cases hleaf
  · intro hleaf
    exact ⟨leaf.under name, hleaf, if_pos rfl⟩

theorem clashing_congr (h : ∀ leaf, leaf ∈ leaves ↔ leaf ∈ others) :
    Clashing leaves ↔ Clashing others := by
  unfold Clashing
  simp only [h]

/-- A leaf that mixes with no other one brings no clash. -/
theorem clashing_cons (h : ∀ other ∈ leaves, ¬ Mixes other.path leaf.path) :
    Clashing (leaf :: leaves) ↔ Clashing leaves := by
  have hsym : ∀ other ∈ leaves, ¬ Mixes leaf.path other.path :=
    fun other hother hmixes => h other hother (mixes_comm.mp hmixes)
  unfold Clashing
  simp only [List.exists_mem_cons_iff]
  constructor
  · rintro ((hself | ⟨other, hother, hmixes⟩) | ⟨other, hother, hmixes | hrest⟩)
    · exact absurd hself (not_mixes_self _)
    · exact absurd hmixes (hsym other hother)
    · exact absurd hmixes (h other hother)
    · exact ⟨other, hother, hrest⟩
  · rintro ⟨other, hother, hrest⟩
    exact Or.inr ⟨other, hother, Or.inr hrest⟩

end Leaf

namespace Params

open Steps

variable {entries next result : Assoc Tree} {tree : Tree} {tree? : Option Tree}
variable {key root value : String} {path : List String} {e : Error}
variable {items others : List (String × String)}

/-! ## One leaf -/

theorem path_of_mem_leaves {leaf : Leaf} (h : entriesOf? (some tree) = none)
    (hleaf : leaf ∈ tree.leaves) : leaf.path = [] := by
  cases tree with
  | plain text =>
      rw [Tree.leaves, List.mem_singleton] at hleaf
      rw [hleaf]
  | repeated texts =>
      rw [Tree.leaves] at hleaf
      rcases List.mem_map.mp hleaf with ⟨text, -, rfl⟩
      rfl
  | branch entries => cases h

theorem exists_mixes_of_leavesOf {segment : String} {rest : List String} (h : AreGrown entries) :
    (∃ leaf ∈ leavesOf entries, Mixes leaf.path (segment :: rest)) ↔
      ∃ leaf ∈ leavesOf? (entries.get? segment), Mixes leaf.path rest := by
  rw [← below_leavesOf h.distinct]
  constructor
  · rintro ⟨_, hleaf, hmixes⟩
    rcases mem_leavesOf.mp hleaf with ⟨entry, hentry, inner, hinner, rfl⟩
    rcases mixes_cons_iff.mp hmixes with ⟨hname, hrest⟩
    exact ⟨inner, mem_below.mpr (hname ▸ hleaf), hrest⟩
  · rintro ⟨leaf, hleaf, hmixes⟩
    exact ⟨leaf.under segment, mem_below.mp hleaf, mixes_cons_iff.mpr ⟨rfl, hmixes⟩⟩

/-- A path may not go on below a plain value. -/
theorem exists_mixes_of_plain
    {segment : String} {rest : List String} (h : entriesOf? (some tree) = none)
    (hgrown : tree.IsGrown) :
    ∃ leaf ∈ tree.leaves, Mixes leaf.path (segment :: rest) := by
  rcases List.exists_mem_of_ne_nil _ hgrown.leaves_ne_nil with ⟨leaf, hleaf⟩
  refine ⟨leaf, hleaf, ?_⟩
  rw [path_of_mem_leaves h hleaf, mixes_nil_iff]
  exact List.cons_ne_nil _ _

/-- A path may not end at a branch. -/
theorem exists_graft_nil_error_iff (hgrown : ∀ tree ∈ tree?, tree.IsGrown) :
    (∃ e, graft key root value [] tree? = .error e) ↔
      ∃ leaf ∈ leavesOf? tree?, Mixes leaf.path [] := by
  have hplain : ∀ tree, entriesOf? (some tree) = none →
      ¬ ∃ leaf ∈ leavesOf? (some tree), Mixes leaf.path [] := by
    rintro tree hentries ⟨leaf, hleaf, hmixes⟩
    exact hmixes.1 (path_of_mem_leaves hentries hleaf)
  cases tree? with
  | none => exact iff_of_false (by rintro ⟨_, ⟨⟩⟩) (by rintro ⟨_, ⟨⟩, _⟩)
  | some tree =>
      cases tree with
      | plain text => exact iff_of_false (by rintro ⟨_, ⟨⟩⟩) (hplain _ rfl)
      | repeated texts => exact iff_of_false (by rintro ⟨_, ⟨⟩⟩) (hplain _ rfl)
      | branch entries =>
          rcases List.exists_mem_of_ne_nil _ (hgrown _ rfl).leaves_ne_nil with ⟨leaf, hleaf⟩
          refine iff_of_true ⟨_, rfl⟩ ⟨leaf, hleaf, mixes_comm.mp (mixes_nil_iff.mpr ?_)⟩
          rw [Tree.leaves] at hleaf
          rcases mem_leavesOf.mp hleaf with ⟨entry, -, inner, -, rfl⟩
          exact List.cons_ne_nil _ _

/-- A value is refused exactly when its path mixes with the path of a leaf. -/
theorem exists_graft_error_iff
    (hgrown : ∀ tree ∈ tree?, tree.IsGrown) (hnamed : "" ∉ path) :
    (∃ e, graft key root value path tree? = .error e) ↔
      ∃ leaf ∈ leavesOf? tree?, Mixes leaf.path path := by
  induction path generalizing tree? with
  | nil => exact exists_graft_nil_error_iff hgrown
  | cons segment rest ih =>
      rw [List.mem_cons, not_or] at hnamed
      cases hentries : entriesOf? tree? with
      | none =>
          rw [graft_of_plain hentries]
          cases tree? with
          | none => cases hentries
          | some tree => exact iff_of_true ⟨_, rfl⟩ (exists_mixes_of_plain hentries (hgrown _ rfl))
      | some entries =>
          have hold := areGrown_of_entriesOf? hgrown hentries
          rw [leavesOf?_of_entries hentries, exists_mixes_of_leavesOf hold,
            ← ih hold.of_get? hnamed.2, graft_of_entries hentries,
            resolveSegment_of_ne (Ne.symm hnamed.1)]
          exact exists_congr fun e => map_eq_error

/-- Wherever a path is refused, it is for mixing. -/
theorem label_of_graft_error (h : graft key root value path tree? = .error e) :
    (Failure.params e).label = "MalformedQueryError" := by
  induction path generalizing tree? with
  | nil =>
      cases tree? with
      | none => cases h
      | some tree =>
          cases tree <;> cases h
          rfl
  | cons segment rest ih =>
      cases hentries : entriesOf? tree? with
      | none =>
          rw [graft_of_plain hentries] at h
          cases h
          rfl
      | some entries =>
          rw [graft_of_entries hentries] at h
          exact ih (map_eq_error.mp h)

/-! ## Items one after the other -/

theorem exists_assignItem_error_iff
    {item : String × String} (hgrown : AreGrown entries) (hnamed : "" ∉ Key.split item.1) :
    (∃ e, assignItem entries item = .error e) ↔
      ∃ leaf ∈ leavesOf entries, Mixes leaf.path (Key.split item.1) := by
  rcases Key.exists_split item.1 with ⟨segment, rest, hsplit⟩
  rw [hsplit, List.mem_cons, not_or] at hnamed
  rw [assignItem_eq hsplit, hsplit, exists_mixes_of_leavesOf hgrown,
    ← exists_graft_error_iff hgrown.of_get? hnamed.2, resolveSegment_of_ne (Ne.symm hnamed.1)]
  exact exists_congr fun e => map_eq_error

theorem perm_leavesOf_assignItem
    {item : String × String} (h : assignItem entries item = .ok next)
    (hnamed : "" ∉ Key.split item.1) :
    (leavesOf next).Perm (ofItem item :: leavesOf entries) := by
  rcases exists_leaf_of_assignItem h with ⟨place, hfills, hleaves⟩
  rw [hfills.eq_of_named hnamed] at hleaves
  exact hleaves

theorem label_of_foldlM_error (h : items.foldlM assignItem entries = .error e) :
    (Failure.params e).label = "MalformedQueryError" := by
  induction items generalizing entries with
  | nil => cases h
  | cons item rest ih =>
      rw [List.foldlM_cons] at h
      rcases bind_eq_error.mp h with h | ⟨next, -, h⟩
      · rcases Key.exists_split item.1 with ⟨segment, others, hsplit⟩
        rw [assignItem_eq hsplit] at h
        exact label_of_graft_error (map_eq_error.mp h)
      · exact ih h

/-- Leaves that do not clash take items one after the other, unless these clash with them or
with each other. -/
theorem exists_foldlM_iff
    (hgrown : AreGrown entries) (hnamed : ∀ item ∈ items, "" ∉ Key.split item.1)
    (hheld : ¬ Clashing (leavesOf entries)) :
    (∃ result, items.foldlM assignItem entries = .ok result) ↔
      ¬ Clashing (items.map ofItem ++ leavesOf entries) := by
  induction items generalizing entries with
  | nil => exact iff_of_true ⟨entries, rfl⟩ hheld
  | cons item rest ih =>
      rw [List.forall_mem_cons] at hnamed
      have hrefused := exists_assignItem_error_iff hgrown hnamed.1
      rw [List.foldlM_cons]
      cases hstep : assignItem entries item with
      | error e =>
          refine iff_of_false (by rintro ⟨_, ⟨⟩⟩) (not_not_intro ?_)
          rcases hrefused.mp ⟨e, hstep⟩ with ⟨leaf, hleaf, hmixes⟩
          exact ⟨leaf, List.mem_append_right _ hleaf, ofItem item, List.mem_cons_self, hmixes⟩
      | ok next =>
          have happart : ∀ leaf ∈ leavesOf entries, ¬ Mixes leaf.path (ofItem item).path := by
            intro leaf hleaf hmixes
            rcases hrefused.mpr ⟨leaf, hleaf, hmixes⟩ with ⟨e, he⟩
            rw [hstep] at he
            cases he
          have hleaves := perm_leavesOf_assignItem hstep hnamed.1
          have hnext : ¬ Clashing (leavesOf next) := by
            rwa [clashing_congr fun _ => hleaves.mem_iff, clashing_cons happart]
          -- the item counts among the leaves held now, so the whole stays the same
          have hall : (rest.map ofItem ++ leavesOf next).Perm
              (ofItem item :: (rest.map ofItem ++ leavesOf entries)) :=
            (hleaves.append_left _).trans List.perm_middle
          refine (ih (areGrown_of_assignItem hgrown hstep) hnamed.2 hnext).trans ?_
          rw [clashing_congr fun _ => hall.mem_iff]
          rfl

theorem perm_leavesOf_foldlM
    (hnamed : ∀ item ∈ items, "" ∉ Key.split item.1)
    (h : items.foldlM assignItem entries = .ok result) :
    (leavesOf result).Perm (items.map ofItem ++ leavesOf entries) := by
  rcases exists_leaves_of_foldlM h with ⟨places, hfills, hleaves⟩
  rwa [eq_of_forall₂_fills hfills (List.forall_mem_map.mpr hnamed)] at hleaves

/-! ## Whole requests -/

/-- The key of one item goes on where the key of another one ends. -/
def Mixed (items : List (String × String)) : Prop :=
  ∃ item ∈ items, ∃ other ∈ items,
    Key.split item.1 <+: Key.split other.1 ∧ Key.split item.1 ≠ Key.split other.1

instance (items : List (String × String)) : Decidable (Mixed items) :=
  inferInstanceAs (Decidable (∃ item ∈ items, ∃ other ∈ items,
    Key.split item.1 <+: Key.split other.1 ∧ Key.split item.1 ≠ Key.split other.1))

theorem mixed_of_perm (h : others.Perm items) : Mixed others ↔ Mixed items := by
  unfold Mixed
  simp only [h.mem_iff]

theorem clashing_map_ofItem : Clashing (items.map ofItem) ↔ Mixed items := by
  unfold Clashing Mixed
  simp only [List.mem_map, exists_exists_and_eq_and]
  constructor
  · rintro ⟨item, hitem, other, hother, hne, hbefore | hbefore⟩
    · exact ⟨item, hitem, other, hother, hbefore, hne⟩
    · exact ⟨other, hother, item, hitem, hbefore, hne.symm⟩
  · rintro ⟨item, hitem, other, hother, hbefore, hne⟩
    exact ⟨item, hitem, other, hother, hne, Or.inl hbefore⟩

theorem exists_entries_iff (hnamed : ∀ item ∈ items, "" ∉ Key.split item.1) :
    (∃ entries, items.foldlM assignItem [] = .ok entries) ↔ ¬ Mixed items := by
  have hempty : ¬ Clashing (leavesOf []) := by
    rw [leavesOf]
    rintro ⟨_, hleaf, -⟩
    exact List.not_mem_nil hleaf
  rw [exists_foldlM_iff areGrown_nil hnamed hempty, leavesOf, List.append_nil, clashing_map_ofItem]

/-- Items are malformed when they cannot be put together, whatever they would fold to. -/
theorem malformed_fold_iff :
    (∃ e, fold items = .error e ∧ (Failure.params e).label = "MalformedQueryError") ↔
      ¬ ∃ entries, items.foldlM assignItem [] = .ok entries := by
  rw [fold_eq_branch]
  constructor
  · rintro ⟨e, he, hlabel⟩ ⟨entries, hentries⟩
    rw [hentries] at he
    rw [Tree.eq_of_fold_error (show (Tree.branch entries).fold = .error e from he)] at hlabel
    exact absurd hlabel (by decide)
  · intro h
    cases hentries : items.foldlM assignItem [] with
    | error e => exact ⟨e, rfl, label_of_foldlM_error hentries⟩
    | ok entries => exact absurd ⟨entries, hentries⟩ h

theorem exists_fold_iff (hnamed : ∀ item ∈ items, "" ∉ Key.split item.1) :
    (∃ value, fold items = .ok value) ↔
      ¬ Mixed items ∧ ¬ Misnumbered (items.map ofItem) := by
  rw [fold_eq_branch, ← exists_entries_iff hnamed]
  have hnumbers : ∀ {entries}, items.foldlM assignItem [] = .ok entries →
      ((∃ value, (Tree.branch entries).fold = .ok value) ↔
        ¬ Misnumbered (items.map ofItem)) := by
    intro entries hentries
    have hleaves := perm_leavesOf_foldlM hnamed hentries
    rw [leavesOf, List.append_nil] at hleaves
    rw [(areGrown_of_foldlM areGrown_nil hentries).exists_fold_iff, misnumbered_of_perm hleaves]
  constructor
  · rintro ⟨value, h⟩
    rcases bind_eq_ok.mp h with ⟨entries, hentries, hvalue⟩
    exact ⟨⟨entries, hentries⟩, (hnumbers hentries).mp ⟨value, hvalue⟩⟩
  · rintro ⟨⟨entries, hentries⟩, hnumbered⟩
    rcases (hnumbers hentries).mpr hnumbered with ⟨value, hvalue⟩
    exact ⟨value, bind_eq_ok.mpr ⟨entries, hentries, hvalue⟩⟩

/-- Items whose keys have no empty segment are malformed exactly when two of them mix a plain
value with bracket notation.  Otherwise they are accepted, unless a map of theirs is misnumbered,
so their order does not decide. -/
theorem malformed_iff_mixed (hnamed : ∀ item ∈ items, "" ∉ Key.split item.1) :
    ((∃ e, fold items = .error e ∧ (Failure.params e).label = "MalformedQueryError") ↔
        Mixed items) ∧
      ((∃ value, fold items = .ok value) ↔
        ¬ Mixed items ∧ ¬ Misnumbered (items.map ofItem)) ∧
      ∀ others, others.Perm items →
        ((∃ value, fold others = .ok value) ↔ ∃ value, fold items = .ok value) := by
  refine ⟨?_, exists_fold_iff hnamed, ?_⟩
  · rw [malformed_fold_iff, exists_entries_iff hnamed, not_not]
  · intro others hothers
    have hnamed' : ∀ item ∈ others, "" ∉ Key.split item.1 :=
      fun item hitem => hnamed item (hothers.mem_iff.mp hitem)
    rw [exists_fold_iff hnamed, exists_fold_iff hnamed', mixed_of_perm hothers,
      misnumbered_of_perm (hothers.map ofItem)]

end Params

namespace Sample

/-- A repeated key, and a plain value below which another key goes on. -/
def clashingKeys : List (String × String) :=
  [("a[b][c]", "p"), ("d", "q"), ("d", "r"), ("a[b]", "s")]

theorem named_clashingKeys : ∀ item ∈ clashingKeys, "" ∉ Key.split item.1 := by
  decide

theorem mixed_clashingKeys : Params.Mixed clashingKeys := by
  decide

theorem malformed_iff_mixed_clashingKeys :
    (∀ item ∈ clashingKeys, "" ∉ Key.split item.1) ∧
      (∃ e, Params.fold clashingKeys = .error e ∧
        (Failure.params e).label = "MalformedQueryError") ∧
      ¬ ∃ value, Params.fold clashingKeys.reverse = .ok value := by
  have hmalformed := Params.malformed_iff_mixed named_clashingKeys
  refine ⟨named_clashingKeys, hmalformed.1.mpr mixed_clashingKeys, ?_⟩
  rw [hmalformed.2.2 _ (List.reverse_perm _), hmalformed.2.1]
  exact fun h => h.1 mixed_clashingKeys

end Sample
end RecordApi
