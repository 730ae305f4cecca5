import RecordApi.Proofs.Params.Folding

/-!
# Leaves of a tree

What a tree holds is told by its leaves: its texts, each with the keys that lead to it.  Putting
a value at the end of a path adds one leaf and keeps all others, wherever empty segments send it.
-/

namespace RecordApi
namespace Leaf

/-- A leaf at its place: each of its empty segments may be filled by an index. -/
structure Fills (leaf place : Leaf) : Prop where
  text : place.text = leaf.text
  path : List.Forall₂ (fun segment key => segment ≠ "" → key = segment) leaf.path place.path

theorem path_of_fills
    {path place : List String}
    (h : List.Forall₂ (fun segment key => segment ≠ "" → key = segment) path place)
    (hnamed : "" ∉ path) :
    place = path := by
  induction h with
  | nil => rfl
  | cons hfirst _ ih =>
      rw [List.mem_cons, not_or] at hnamed
      rw [hfirst (Ne.symm hnamed.1), ih hnamed.2]

theorem Fills.eq_of_named
    {leaf place : Leaf} (h : leaf.Fills place) (hnamed : "" ∉ leaf.path) :
    place = leaf := by
  rcases leaf with ⟨path, text⟩
  rcases place with ⟨path', text'⟩
  rw [Leaf.mk.injEq]
  exact ⟨path_of_fills h.path hnamed, h.text⟩

theorem eq_of_forall₂_fills
    {leaves places : List Leaf} (h : List.Forall₂ Fills leaves places)
    (hnamed : ∀ leaf ∈ leaves, "" ∉ leaf.path) :
    places = leaves := by
  induction h with
  | nil => rfl
  | cons hfirst _ ih =>
      rw [List.forall_mem_cons] at hnamed
      rw [hfirst.eq_of_named hnamed.1, ih hnamed.2]

theorem map_text_of_fills
    {leaves places : List Leaf} (h : List.Forall₂ Fills leaves places) :
    places.map Leaf.text = leaves.map Leaf.text := by
  rw [← List.forall₂_eq_eq_eq, List.forall₂_map_left_iff, List.forall₂_map_right_iff]
  exact h.flip.imp fun _ _ hplace => hplace.text

end Leaf

namespace Key

theorem exists_split (key : String) : ∃ root rest, split key = root :: rest := by
  unfold split splitChars
  dsimp only
  split
  · exact ⟨_, _, rfl⟩
  · split <;> exact ⟨_, _, rfl⟩

end Key

namespace Params

open Steps Leaf

mutual

def Tree.leaves : Tree → List Leaf
  | .plain text => [⟨[], text⟩]
  | .repeated texts => texts.map fun text => ⟨[], text⟩
  | .branch entries => leavesOf entries

/-- The leaves below the keys of some entries. -/
def leavesOf : List (String × Tree) → List Leaf
  | [] => []
  | (key, tree) :: rest => tree.leaves.map (under key) ++ leavesOf rest

end

/-- The leaves of a tree that may be missing. -/
def leavesOf? (tree? : Option Tree) : List Leaf :=
  (tree?.map Tree.leaves).getD []

variable {entries next result : Assoc Tree} {tree : Tree} {tree? : Option Tree}
variable {key root value : String} {path : List String}

theorem leavesOf_eq_flatMap (entries : Assoc Tree) :
    leavesOf entries = entries.flatMap fun entry => entry.2.leaves.map (under entry.1) := by
  induction entries with
  | nil => rw [leavesOf]; rfl
  | cons entry rest ih => rw [leavesOf, ih]; rfl

theorem mem_leavesOf {leaf : Leaf} :
    leaf ∈ leavesOf entries ↔
      ∃ entry ∈ entries, ∃ inner ∈ entry.2.leaves, leaf = inner.under entry.1 := by
  rw [leavesOf_eq_flatMap, List.mem_flatMap]
  simp only [List.mem_map, eq_comm]

/-- A tree that has one leaf more than the one it replaces adds that leaf to the entries. -/
theorem perm_leavesOf_put
    {leaf : Leaf} {name : String}
    (h : tree.leaves.Perm (leaf :: leavesOf? (entries.get? name))) :
    (leavesOf (entries.put name tree)).Perm (leaf.under name :: leavesOf entries) := by
  induction entries with
  | nil =>
      have hleaf := h.map (under name)
      simpa [Assoc.put, leavesOf, leavesOf?, Assoc.get?] using hleaf
  | cons entry rest ih =>
      rcases entry with ⟨other, old⟩
      rw [Assoc.get?_cons] at h
      unfold Assoc.put
      by_cases hname : other = name
      · rw [if_pos hname] at h
        rw [if_pos hname, leavesOf, leavesOf, hname]
        exact (h.map (under name)).append_right (leavesOf rest)
      · rw [if_neg hname] at h
        rw [if_neg hname, leavesOf, leavesOf]
        exact ((ih h).append_left _).trans List.perm_middle

/-! ## Paths as they are put -/

theorem resolveSegment_filled (entries : Assoc Tree) (segment : String) :
    segment ≠ "" → resolveSegment entries segment = segment :=
  fun h => resolveSegment_of_ne h entries

/-- The entries under which a path goes on: those of a branch, and none yet where a tree is
missing. -/
def entriesOf? : Option Tree → Option (Assoc Tree)
  | none => some []
  | some (.branch entries) => some entries
  | some _ => none

theorem graft_of_entries
    {segment : String} {rest : List String} (h : entriesOf? tree? = some entries) :
    graft key root value (segment :: rest) tree? =
      (graft key root value rest (entries.get? (resolveSegment entries segment))).map
        fun child => .branch (entries.put (resolveSegment entries segment) child) := by
  have hassign : graft key root value (segment :: rest) tree? =
      (assign key root value (segment :: rest) entries).map .branch := by
    cases tree? with
    | none =>
        cases h
        rfl
    | some old =>
        cases old with
        | branch entries =>
            cases h
            rfl
        | _ => cases h
  rw [hassign, assign_cons]
  cases graft key root value rest (entries.get? (resolveSegment entries segment)) <;> rfl

theorem graft_of_plain
    {segment : String} {rest : List String} (h : entriesOf? tree? = none) :
    graft key root value (segment :: rest) tree? = .error (.bracketsOverPlain key root) := by
  cases tree? with
  | none => cases h
  | some old => cases old <;> first | rfl | cases h

theorem leavesOf?_of_entries (h : entriesOf? tree? = some entries) :
    leavesOf? tree? = leavesOf entries := by
  cases tree? with
  | none =>
      cases h
      rw [leavesOf]
      rfl
  | some old =>
      cases old with
      | branch entries =>
          cases h
          simp [leavesOf?, Tree.leaves]
      | _ => cases h

theorem exists_entries_of_graft
    {segment : String} {rest : List String}
    (h : graft key root value (segment :: rest) tree? = .ok tree) :
    ∃ entries child, entriesOf? tree? = some entries ∧
      graft key root value rest (entries.get? (resolveSegment entries segment)) = .ok child ∧
      tree = .branch (entries.put (resolveSegment entries segment) child) := by
  cases hentries : entriesOf? tree? with
  | none =>
      rw [graft_of_plain hentries] at h
      cases h
  | some entries =>
      rw [graft_of_entries hentries] at h
      rcases map_eq_ok.mp h with ⟨child, hchild, rfl⟩
      exact ⟨entries, child, rfl, hchild, rfl⟩

theorem exists_leaf_of_graft
    (h : graft key root value path tree? = .ok tree) :
    ∃ place, (Leaf.mk path value).Fills place ∧ tree.leaves.Perm (place :: leavesOf? tree?) := by
  induction path generalizing tree? tree with
  | nil =>
      refine ⟨⟨[], value⟩, ⟨rfl, List.Forall₂.nil⟩, ?_⟩
      cases tree? with
      | none =>
          cases h
          exact List.Perm.refl _
      | some old =>
          cases old with
          | plain text =>
              cases h
              exact List.Perm.swap _ _ _
          | repeated texts =>
              cases h
              simp [leavesOf?, Tree.leaves]
          | branch entries => cases h
  | cons segment rest ih =>
      rcases exists_entries_of_graft h with ⟨entries, child, hentries, hchild, rfl⟩
      rcases ih hchild with ⟨place, hfills, hleaves⟩
      refine ⟨place.under (resolveSegment entries segment),
        ⟨hfills.text, List.Forall₂.cons (resolveSegment_filled entries segment) hfills.path⟩, ?_⟩
      rw [leavesOf?_of_entries hentries, Tree.leaves]
      exact perm_leavesOf_put hleaves

/-! ## Items one after the other -/

theorem assignItem_eq
    {item : String × String} {segment : String} {rest : List String}
    (h : Key.split item.1 = segment :: rest) (entries : Assoc Tree) :
    assignItem entries item =
      (graft item.1 segment item.2 rest (entries.get? (resolveSegment entries segment))).map
        fun child => entries.put (resolveSegment entries segment) child := by
  unfold assignItem
  dsimp only
  rw [h]
  exact assign_cons _ _ _ _ _ _

theorem exists_child_of_assignItem
    {item : String × String} (h : assignItem entries item = .ok next) :
    ∃ segment rest child, Key.split item.1 = segment :: rest ∧
      graft item.1 segment item.2 rest (entries.get? (resolveSegment entries segment)) =
        .ok child ∧
      next = entries.put (resolveSegment entries segment) child := by
  rcases Key.exists_split item.1 with ⟨segment, rest, hsplit⟩
  rw [assignItem_eq hsplit] at h
  rcases map_eq_ok.mp h with ⟨child, hchild, rfl⟩
  exact ⟨segment, rest, child, hsplit, hchild, rfl⟩

theorem exists_leaf_of_assignItem
    {item : String × String} (h : assignItem entries item = .ok next) :
    ∃ place, (ofItem item).Fills place ∧ (leavesOf next).Perm (place :: leavesOf entries) := by
  rcases exists_child_of_assignItem h with ⟨segment, rest, child, hsplit, hchild, rfl⟩
  rcases exists_leaf_of_graft hchild with ⟨place, hfills, hleaves⟩
  refine ⟨place.under (resolveSegment entries segment), ⟨hfills.text, ?_⟩,
    perm_leavesOf_put hleaves⟩
  unfold ofItem
  rw [hsplit]
  exact List.Forall₂.cons (resolveSegment_filled entries segment) hfills.path

/-- Items that are put one after the other leave a leaf each, and nothing else. -/
theorem exists_leaves_of_foldlM
    {items : List (String × String)} (h : items.foldlM assignItem entries = .ok result) :
    ∃ places, List.Forall₂ Fills (items.map ofItem) places ∧
      (leavesOf result).Perm (places ++ leavesOf entries) := by
  induction items generalizing entries with
  | nil =>
      cases h
      exact ⟨[], List.Forall₂.nil, List.Perm.refl _⟩
  | cons item rest ih =>
      rw [List.foldlM_cons] at h
      rcases bind_eq_ok.mp h with ⟨next, hnext, hrest⟩
      rcases exists_leaf_of_assignItem hnext with ⟨place, hfills, hleaves⟩
      rcases ih hrest with ⟨places, hplaces, hresult⟩
      refine ⟨place :: places, List.Forall₂.cons hfills hplaces, hresult.trans ?_⟩
      exact (hleaves.append_left places).trans List.perm_middle

theorem fold_eq_branch (items : List (String × String)) :
    fold items = items.foldlM assignItem [] >>= fun entries => (Tree.branch entries).fold := by
  unfold fold
  refine congrArg _ (funext fun entries => ?_)
  rw [Tree.fold]

end Params
end RecordApi
