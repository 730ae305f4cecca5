import Mathlib
import RecordApi.Proofs.Params.Roots
import RecordApi.Proofs.Sorting

/-!
# Values under no index

An empty pair of brackets puts a value under the number of indices that stand there already.
The value then comes last in its list, unless that number stands for another value or there is
a greater index.
-/

namespace RecordApi

namespace Params

open Steps

/-- An item in bracket notation under a name. -/
def IsBracketed (name : String) (item : String × String) : Prop :=
  ∃ segment rest, Key.split item.1 = name :: segment :: rest

/-- The keys that items have put below a name. -/
def keysUnder (items : List (String × String)) (name : String) : List String :=
  match (items.foldlM assignItem []).toOption.bind (Assoc.get? · name) with
  | some (.branch entries) => Assoc.keys entries
  | _ => []

/-- A list may be followed by one more value: the number of its keys writes an index that is
none of them, and none of them writes a greater one. -/
structure HasRoom (keys : List String) : Prop where
  fresh : toString keys.length ∉ keys
  last : ∀ key ∈ keys, ∀ n, indexNumber? key = some n → n ≤ keys.length
  countable : (toString keys.length).length ≤ Json.integerDigits

variable {items : List (String × String)} {item : String × String} {name key root value : String}
variable {entries node next result : Assoc Tree} {tree : Tree} {tree? : Option Tree}
variable {path : List String} {values : Assoc Value} {list : List Value}

/-! ## Branches -/

theorem exists_branch_of_graft
    (hpath : path ≠ [] ∨ ∃ node, tree? = some (.branch node))
    (h : graft key root value path tree? = .ok tree) :
    ∃ node, tree = .branch node := by
  cases path with
  | nil =>
      rcases hpath with hpath | ⟨node, rfl⟩
      · exact absurd rfl hpath
      · cases h
  | cons segment rest =>
      rcases exists_entries_of_graft h with ⟨entries, child, _, _, rfl⟩
      exact ⟨_, rfl⟩

/-- A branch stays one, and an item in bracket notation makes one. -/
theorem exists_branch_of_assignItem
    (h : assignItem entries item = .ok next)
    (hbranch : (∃ node, entries.get? name = some (.branch node)) ∨ IsBracketed name item) :
    ∃ node, next.get? name = some (.branch node) := by
  rcases exists_child_of_assignItem h with ⟨segment, rest, child, hsplit, hchild, rfl⟩
  by_cases hname : resolveSegment entries segment = name
  · rw [hname] at hchild ⊢
    have hpath : rest ≠ [] ∨ ∃ node, entries.get? name = some (.branch node) := by
      rcases hbranch with hbranch | ⟨first, others, hkey⟩
      · exact Or.inr hbranch
      · rw [hsplit] at hkey
        rw [(List.cons.inj hkey).2]
        exact Or.inl (List.cons_ne_nil _ _)
    rcases exists_branch_of_graft hpath hchild with ⟨node, rfl⟩
    exact ⟨node, Assoc.get?_put_self _ _ _⟩
  · rw [Assoc.get?_put_of_ne hname]
    rcases hbranch with hbranch | ⟨first, others, hkey⟩
    · exact hbranch
    · have hne := Key.ne_empty_of_isName (Key.isName_of_split hkey)
      rw [hsplit] at hkey
      rw [(List.cons.inj hkey).1] at hname
      exact absurd (resolveSegment_of_ne hne entries) hname

theorem exists_branch_of_foldlM
    (h : items.foldlM assignItem entries = .ok result)
    (hbranch : (∃ node, entries.get? name = some (.branch node)) ∨
      ∃ item ∈ items, IsBracketed name item) :
    ∃ node, result.get? name = some (.branch node) := by
  induction items generalizing entries with
  | nil =>
      cases h
      rcases hbranch with hbranch | ⟨item, hitem, _⟩
      · exact hbranch
      · exact absurd hitem List.not_mem_nil
  | cons item rest ih =>
      rw [List.foldlM_cons] at h
      rcases bind_eq_ok.mp h with ⟨next, hnext, hrest⟩
      apply ih hrest
      rcases hbranch with hbranch | ⟨other, hother, hbracketed⟩
      · exact Or.inl (exists_branch_of_assignItem hnext (Or.inl hbranch))
      rcases List.mem_cons.mp hother with rfl | hother
      · exact Or.inl (exists_branch_of_assignItem hnext (Or.inr hbracketed))
      · exact Or.inr ⟨other, hother, hbracketed⟩

theorem keysUnder_of_branch
    (htrees : items.foldlM assignItem [] = .ok entries)
    (hbranch : entries.get? name = some (.branch node)) :
    keysUnder items name = Assoc.keys node := by
  unfold keysUnder
  rw [htrees]
  change (match entries.get? name with | some (.branch entries) => _ | _ => _) = _
  rw [hbranch]

/-! ## Trees that are put -/

theorem foldEntries_put
    (h : foldEntries entries = .ok values) (name : String) (tree : Tree) :
    foldEntries (entries.put name tree) = tree.fold.map fun value => values.put name value := by
  induction entries generalizing values with
  | nil =>
      rw [foldEntries] at h
      cases h
      rw [Assoc.put, foldEntries, foldEntries]
      cases tree.fold <;> rfl
  | cons entry rest ih =>
      rcases entry with ⟨key, old⟩
      rw [foldEntries] at h
      rcases bind_eq_ok.mp h with ⟨value, hvalue, h⟩
      rcases bind_eq_ok.mp h with ⟨others, hothers, h⟩
      rw [← pure_eq_ok.mp h, Assoc.put_cons]
      simp only [Assoc.put_cons]
      split
      · rw [foldEntries, hothers]
        cases tree.fold <;> rfl
      · rw [foldEntries, hvalue, ih hothers]
        cases tree.fold <;> rfl

/-- A tree below a name folds to the value there. -/
theorem exists_fold_of_get?
    (h : foldEntries entries = .ok values) (hget : entries.get? name = some tree) :
    ∃ value, tree.fold = .ok value ∧ values.get? name = some value := by
  induction entries generalizing values with
  | nil => cases hget
  | cons entry rest ih =>
      rcases entry with ⟨key, old⟩
      rw [foldEntries] at h
      rcases bind_eq_ok.mp h with ⟨value, hvalue, h⟩
      rcases bind_eq_ok.mp h with ⟨others, hothers, h⟩
      rw [← pure_eq_ok.mp h, Assoc.get?_cons]
      rw [Assoc.get?_cons] at hget
      by_cases hkey : key = name
      · rw [if_pos hkey] at hget ⊢
        exact ⟨value, Option.some.inj hget ▸ hvalue, rfl⟩
      · rw [if_neg hkey] at hget ⊢
        exact ih hothers hget

theorem length_of_foldEntries (h : foldEntries entries = .ok values) :
    values.length = entries.length := by
  have hkeys := congrArg List.length (keys_of_foldEntries h)
  unfold Assoc.keys at hkeys
  rwa [List.length_map, List.length_map] at hkeys

theorem eq_of_foldMap_map {others : Assoc Value} (h : foldMap others = .ok (.map values)) :
    others = values := by
  unfold foldMap at h
  split at h
  · rcases map_eq_ok.mp h with ⟨_, _, ⟨⟩⟩
  · cases h
    rfl

theorem foldMap_eq_list_iff :
    foldMap values = .ok (.list list) ↔
      (values ≠ [] ∧ ∀ key ∈ Assoc.keys values, Text.isDigitText key = true) ∧
        inIndexOrder values = .ok list := by
  by_cases hdigits : values ≠ [] ∧ ∀ key ∈ Assoc.keys values, Text.isDigitText key = true
  · rw [foldMap_of_digits hdigits.1 hdigits.2, and_iff_right hdigits, map_eq_ok]
    simp
  · rw [foldMap_of_named hdigits]
    exact iff_of_false (fun h => by cases h) fun h => hdigits h.1

theorem length_of_inIndexOrder (h : inIndexOrder values = .ok list) :
    values.length = list.length := by
  rw [inIndexOrder_eq] at h
  rcases map_eq_ok.mp h with ⟨pairs, hpairs, rfl⟩
  rw [List.length_map, List.length_mergeSort]
  exact (forall₂_of_mapM hpairs).length_eq

/-- A map stays one when a value of it is replaced. -/
theorem foldMap_put_of_mem
    (h : foldMap values = .ok (.map values)) (hname : name ∈ Assoc.keys values) (v : Value) :
    foldMap (values.put name v) = .ok (.map (values.put name v)) := by
  apply foldMap_of_named
  rintro ⟨_, hdigits⟩
  rw [Assoc.keys_put, if_pos hname] at hdigits
  have hne : values ≠ [] := by
    rintro rfl
    cases hname
  rw [foldMap_of_digits hne hdigits] at h
  rcases map_eq_ok.mp h with ⟨_, _, ⟨⟩⟩

/-! ## A list with one more index -/

variable {pairs : List (Nat × Value)} {n : Nat} {v : Value}

theorem inIndexOrder_of_pairs (h : values.mapM readIndex = .ok pairs) :
    inIndexOrder values = .ok ((pairs.mergeSort fun a b => a.1 ≤ b.1).map (·.2)) := by
  rw [inIndexOrder_eq, h]
  rfl

/-- The value comes behind those whose index is not greater. -/
theorem inIndexOrder_concat
    (h : values.mapM readIndex = .ok pairs) (hkey : indexNumber? key = some n) (v : Value) :
    inIndexOrder (values ++ [(key, v)]) =
      .ok (((pairs.mergeSort fun a b => a.1 ≤ b.1).filter fun a => decide (a.1 ≤ n)).map (·.2) ++
        v :: ((pairs.mergeSort fun a b => a.1 ≤ b.1).filter fun a => !decide (a.1 ≤ n)).map
          (·.2)) := by
  have hread : readIndex (key, v) = .ok (n, v) := readIndex_eq_ok.mpr ⟨hkey, rfl⟩
  have hpairs : (values ++ [(key, v)]).mapM readIndex = .ok (pairs ++ [(n, v)]) := by
    rw [List.mapM_append, h, List.mapM_cons, hread]
    rfl
  rw [inIndexOrder_of_pairs hpairs, mergeSort_concat number_trans number_total, List.map_append,
    List.map_cons]

theorem forall_number_le_iff (h : values.mapM readIndex = .ok pairs) :
    (∀ key ∈ Assoc.keys values, ∀ m, indexNumber? key = some m → m ≤ n) ↔
      ∀ pair ∈ pairs.mergeSort fun a b => a.1 ≤ b.1, decide (pair.1 ≤ n) = true := by
  have hpairs : (∀ entry ∈ values, ∀ m, indexNumber? entry.1 = some m → m ≤ n) ↔
      ∀ pair ∈ pairs, pair.1 ≤ n := by
    refine forall_iff_of_forall₂ (forall₂_of_mapM h) fun entry _ pair hread => ?_
    rw [(readIndex_eq_ok.mp hread).1]
    simp
  simp only [(List.mergeSort_perm pairs _).mem_iff, decide_eq_true_eq]
  rw [← hpairs]
  simp [Assoc.keys]

/-- Whatever is put under an index comes last exactly when no index is greater. -/
theorem inIndexOrder_concat_iff
    (h : inIndexOrder values = .ok list) (hkey : indexNumber? key = some n) :
    (∀ s, inIndexOrder (values ++ [(key, .text s)]) = .ok (list ++ [.text s])) ↔
      ∀ other ∈ Assoc.keys values, ∀ m, indexNumber? other = some m → m ≤ n := by
  rw [inIndexOrder_eq] at h
  rcases map_eq_ok.mp h with ⟨pairs, hpairs, rfl⟩
  rw [forall_number_le_iff hpairs]
  constructor
  · intro hall
    have hlast : ∀ s, _ := fun s =>
      Except.ok.inj ((inIndexOrder_concat hpairs hkey (.text s)).symm.trans (hall s))
    rcases List.eq_nil_or_concat' ((pairs.mergeSort fun a b => a.1 ≤ b.1).filter
      fun a => !decide (a.1 ≤ n)) with hnone | ⟨front, greatest, hgreater⟩
    · intro pair hpair
      have hpass := List.filter_eq_nil_iff.mp hnone pair hpair
      simpa using hpass
    · -- the value of the greatest index stays last, so it would be every text
      have hsame : ∀ s, greatest.2 = .text s := by
        intro s
        have hends := hlast s
        rw [hgreater, List.map_append, ← List.cons_append, ← List.append_assoc] at hends
        exact List.head_eq_of_cons_eq (List.append_inj' hends rfl).2
      exact absurd (Value.text.inj ((hsame "").symm.trans (hsame "a"))) (by decide)
  · intro hle s
    rw [inIndexOrder_concat hpairs hkey, (filter_of_pass hle).1, (filter_of_pass hle).2]
    rfl

/-! ## One item more -/

/-- Items fold to a map with a list under a name.  Below the name stands a branch whose keys are
the indices of the list. -/
structure Lists (items : List (String × String)) (name : String) (trees node : Assoc Tree)
    (values entries : Assoc Value) (list : List Value) : Prop where
  assigned : items.foldlM assignItem [] = .ok trees
  folded : foldEntries trees = .ok values
  isMap : foldMap values = .ok (.map values)
  branch : trees.get? name = some (.branch node)
  inner : foldEntries node = .ok entries
  isList : foldMap entries = .ok (.list list)

theorem exists_lists
    (hfold : fold items = .ok (.map values)) (hbracketed : ∃ item ∈ items, IsBracketed name item)
    (hlist : values.get? name = some (.list list)) :
    ∃ trees node entries, Lists items name trees node values entries list := by
  rcases exists_entries_of_fold hfold with ⟨trees, others, htrees, hvalues, hmap⟩
  cases eq_of_foldMap_map hmap
  rcases exists_branch_of_foldlM htrees (Or.inr hbracketed) with ⟨node, hbranch⟩
  rcases exists_fold_of_get? hvalues hbranch with ⟨value, hvalue, hget⟩
  rw [hlist] at hget
  cases hget
  rw [Tree.fold] at hvalue
  rcases bind_eq_ok.mp hvalue with ⟨entries, hentries, hvalue⟩
  exact ⟨trees, node, entries, htrees, hvalues, hmap, hbranch, hentries, hvalue⟩

namespace Lists

variable {trees : Assoc Tree} {entries : Assoc Value}
variable (h : Lists items name trees node values entries list)

include h

theorem keys_eq : Assoc.keys entries = Assoc.keys node :=
  keys_of_foldEntries h.inner

theorem keysUnder_eq : keysUnder items name = Assoc.keys entries := by
  rw [keysUnder_of_branch h.assigned h.branch, h.keys_eq]

theorem inOrder : inIndexOrder entries = .ok list :=
  (foldMap_eq_list_iff.mp h.isList).2

theorem length_keysUnder : (keysUnder items name).length = list.length := by
  rw [h.keysUnder_eq, ← length_of_inIndexOrder h.inOrder]
  exact List.length_map _

/-- All keys are digits, so the next index is their number. -/
theorem nextIndex_eq : nextIndex node = toString list.length := by
  have hdigits := (foldMap_eq_list_iff.mp h.isList).1.2
  rw [h.keys_eq] at hdigits
  have hall : node.filter (fun entry => Text.isDigitText entry.1) = node :=
    List.filter_eq_self.mpr fun entry hentry => hdigits _ (List.mem_map_of_mem hentry)
  unfold nextIndex
  rw [hall, ← length_of_inIndexOrder h.inOrder, length_of_foldEntries h.inner]

theorem mem_keys : name ∈ Assoc.keys values := by
  rw [keys_of_foldEntries h.folded]
  by_contra hname
  rw [← Assoc.get?_eq_none, h.branch] at hname
  cases hname

/-- An item with empty brackets goes to the next index below its name. -/
theorem assignItem_next (hname : Key.isName name = true) (s : String) :
    assignItem trees (name ++ "[]", s) =
      (graft (name ++ "[]") name s [] (node.get? (toString list.length))).map fun tree =>
        trees.put name (.branch (node.put (toString list.length) tree)) := by
  have hjoin : Key.join [name, ""] = name ++ "[]" := by
    simp [Key.join, Key.joinChars, String.ofList_append]
  have hsplit : Key.split (name ++ "[]", s).1 = [name, ""] := by
    rw [← hjoin]
    exact Key.split_join hname (by simp [Key.IsPlain])
  have hindex : resolveSegment node "" = toString list.length := h.nextIndex_eq
  have hnode : entriesOf? (some (.branch node)) = some node := rfl
  rw [assignItem_eq hsplit, resolveSegment_of_ne (Key.ne_empty_of_isName hname), h.branch,
    graft_of_entries hnode, hindex]
  cases graft (name ++ "[]") name s [] (node.get? (toString list.length)) <;> rfl

theorem foldlM_concat (s : String) :
    (items ++ [(name ++ "[]", s)]).foldlM assignItem [] =
      assignItem trees (name ++ "[]", s) := by
  rw [List.foldlM_append, h.assigned]
  change assignItem trees (name ++ "[]", s) >>= pure = _
  rw [bind_pure]

/-- One item more changes the value below its name and no other. -/
theorem fold_concat (hname : Key.isName name = true) (s : String) :
    fold (items ++ [(name ++ "[]", s)]) =
      graft (name ++ "[]") name s [] (node.get? (toString list.length)) >>= fun tree =>
        (Tree.branch (node.put (toString list.length) tree)).fold.map fun v =>
          .map (values.put name v) := by
  unfold fold
  rw [h.foldlM_concat, h.assignItem_next hname]
  cases graft (name ++ "[]") name s [] (node.get? (toString list.length)) with
  | error e => rfl
  | ok tree =>
      change (foldEntries (trees.put name (.branch (node.put (toString list.length) tree))) >>=
        foldMap) = Except.map _ _
      rw [foldEntries_put h.folded]
      cases (Tree.branch (node.put (toString list.length) tree)).fold with
      | error e => rfl
      | ok v => exact foldMap_put_of_mem h.isMap h.mem_keys v

/-! ### A number that is taken -/

/-- Where the next index is taken, the list does not get longer. -/
theorem length_of_taken
    {longer : List Value} {s : String}
    (hname : Key.isName name = true) (htaken : toString list.length ∈ keysUnder items name)
    (hfold : fold (items ++ [(name ++ "[]", s)]) = .ok (.map (values.put name (.list longer)))) :
    longer.length = list.length := by
  rw [h.fold_concat hname] at hfold
  rcases bind_eq_ok.mp hfold with ⟨tree, _, hfold⟩
  rcases map_eq_ok.mp hfold with ⟨v, hv, hput⟩
  rw [Assoc.eq_of_put_eq (Value.map.inj hput), Tree.fold] at hv
  rcases bind_eq_ok.mp hv with ⟨others, hothers, hmap⟩
  have hkeys := keys_of_foldEntries hothers
  rw [h.keysUnder_eq, h.keys_eq] at htaken
  rw [Assoc.keys_put, if_pos htaken, ← h.keys_eq] at hkeys
  have hlength := congrArg List.length hkeys
  unfold Assoc.keys at hlength
  rw [List.length_map, List.length_map] at hlength
  rw [← length_of_inIndexOrder (foldMap_eq_list_iff.mp hmap).2, hlength,
    length_of_inIndexOrder h.inOrder]

/-! ### A number that is free -/

theorem fold_concat_of_fresh
    (hname : Key.isName name = true) (hfresh : toString list.length ∉ keysUnder items name)
    (s : String) :
    fold (items ++ [(name ++ "[]", s)]) =
      (inIndexOrder (entries ++ [(toString list.length, .text s)])).map fun longer =>
        .map (values.put name (.list longer)) := by
  have hkey : toString list.length ∉ Assoc.keys entries := h.keysUnder_eq ▸ hfresh
  have hnone : node.get? (toString list.length) = none := by
    rw [Assoc.get?_eq_none, ← h.keys_eq]
    exact hkey
  have hdigits := (foldMap_eq_list_iff.mp h.isList).1.2
  have hmore : ∀ key ∈ Assoc.keys (entries ++ [(toString list.length, Value.text s)]),
      Text.isDigitText key = true := by
    rw [← Assoc.put_of_notMem _ hkey, Assoc.keys_put, if_neg hkey, List.forall_mem_append]
    exact ⟨hdigits, List.forall_mem_singleton.mpr (Text.isDigitText_toString _)⟩
  rw [h.fold_concat hname, hnone]
  change (Tree.branch (node.put _ (.plain s))).fold.map _ = _
  rw [Tree.fold, foldEntries_put h.inner, Tree.fold]
  change (foldMap (entries.put _ (.text s))).map _ = _
  rw [Assoc.put_of_notMem _ hkey, foldMap_of_digits (List.concat_ne_nil _ _) hmore]
  cases inIndexOrder (entries ++ [(toString list.length, .text s)]) <;> rfl

theorem fold_concat_iff_of_fresh
    {s : String} {longer : List Value}
    (hname : Key.isName name = true) (hfresh : toString list.length ∉ keysUnder items name) :
    fold (items ++ [(name ++ "[]", s)]) = .ok (.map (values.put name (.list longer))) ↔
      inIndexOrder (entries ++ [(toString list.length, .text s)]) = .ok longer := by
  rw [h.fold_concat_of_fresh hname hfresh, map_eq_ok]
  constructor
  · rintro ⟨others, hothers, hput⟩
    rw [hothers, Value.list.inj (Assoc.eq_of_put_eq (Value.map.inj hput))]
  · exact fun hlonger => ⟨longer, hlonger, rfl⟩

theorem forall_concat_iff (hname : Key.isName name = true) :
    (∀ s, fold (items ++ [(name ++ "[]", s)]) =
        .ok (.map (values.put name (.list (list ++ [.text s]))))) ↔
      HasRoom (keysUnder items name) := by
  have hlength := h.length_keysUnder
  by_cases hfresh : toString list.length ∈ keysUnder items name
  · refine iff_of_false (fun hall => ?_) fun hroom => hroom.fresh (hlength ▸ hfresh)
    have hsame := h.length_of_taken hname hfresh (hall "")
    rw [List.length_append, List.length_singleton] at hsame
    omega
  · simp only [h.fold_concat_iff_of_fresh hname hfresh]
    by_cases hcountable : (toString list.length).length ≤ Json.integerDigits
    · rw [inIndexOrder_concat_iff h.inOrder (indexNumber?_toString hcountable), ← h.keysUnder_eq]
      exact ⟨fun hlast => ⟨hlength ▸ hfresh, hlength ▸ hlast, hlength ▸ hcountable⟩,
        fun hroom => hlength ▸ hroom.last⟩
    · refine iff_of_false (fun hall => ?_) fun hroom => hcountable (hlength ▸ hroom.countable)
      have hnumber := exists_inIndexOrder_iff.mp ⟨_, hall ""⟩ _
        (List.mem_append_right _ List.mem_cons_self)
      unfold indexNumber? at hnumber
      exact hnumber (if_neg hcountable)

/-- The next index is then one of the keys below the name. -/
theorem keysUnder_concat
    (hname : Key.isName name = true) (hroom : HasRoom (keysUnder items name)) (s : String) :
    keysUnder (items ++ [(name ++ "[]", s)]) name =
      keysUnder items name ++ [toString list.length] := by
  have hfresh : toString list.length ∉ Assoc.keys node := by
    rw [← h.keys_eq, ← h.keysUnder_eq, ← h.length_keysUnder]
    exact hroom.fresh
  have hitems : (items ++ [(name ++ "[]", s)]).foldlM assignItem [] =
      .ok (trees.put name (.branch (node.put (toString list.length) (.plain s)))) := by
    rw [h.foldlM_concat, h.assignItem_next hname, Assoc.get?_eq_none.mpr hfresh]
    rfl
  rw [keysUnder_of_branch hitems (Assoc.get?_put_self _ _ _), Assoc.keys_put, if_neg hfresh,
    h.keysUnder_eq, h.keys_eq]

end Lists

theorem isName_of_bracketed (h : ∃ item ∈ items, IsBracketed name item) :
    Key.isName name = true := by
  rcases h with ⟨item, _, segment, rest, hsplit⟩
  exact Key.isName_of_split hsplit

/-! ## Items with empty brackets one after the other -/

variable {keys : List String}

/-- Keys that are the indices of a list leave room for the next one. -/
theorem hasRoom_of_indices
    (hkeys : ∀ key ∈ keys, ∃ i < keys.length, key = toString i)
    (hcountable : ∀ i ≤ keys.length, (toString i).length ≤ Json.integerDigits) :
    HasRoom keys where
  fresh := by
    intro htaken
    rcases hkeys _ htaken with ⟨i, hi, hsame⟩
    rw [Text.toString_injective hsame] at hi
    exact Nat.lt_irrefl i hi
  last := by
    intro key hkey n hn
    rcases hkeys key hkey with ⟨i, hi, rfl⟩
    rw [indexNumber?_toString (hcountable i hi.le), Option.some.injEq] at hn
    exact hn ▸ hi.le
  countable := hcountable _ (Nat.le_refl _)

/-- After an index has been given, there is still room: the next one is greater than all. -/
theorem HasRoom.concat
    (h : HasRoom keys) (hcountable : (toString (keys.length + 1)).length ≤ Json.integerDigits) :
    HasRoom (keys ++ [toString keys.length]) := by
  have hlength : (keys ++ [toString keys.length]).length = keys.length + 1 := List.length_append
  refine ⟨?_, ?_, hlength ▸ hcountable⟩
  · rw [hlength, List.mem_append, List.mem_singleton]
    rintro (htaken | hsame)
    · have hle := h.last _ htaken _ (indexNumber?_toString hcountable)
      omega
    · have heq := Text.toString_injective hsame
      omega
  · rw [hlength, List.forall_mem_append, List.forall_mem_singleton,
      indexNumber?_toString h.countable]
    refine ⟨fun key hkey n hn => Nat.le_succ_of_le (h.last key hkey n hn), ?_⟩
    rintro n ⟨⟩
    exact Nat.le_succ _

/-- Where there is room, empty brackets append value after value.  By induction on the values:
each of them leaves room for the next. -/
theorem fold_append_of_hasRoom
    (hfold : fold items = .ok (.map values)) (hbracketed : ∃ item ∈ items, IsBracketed name item)
    (hlist : values.get? name = some (.list list)) (hroom : HasRoom (keysUnder items name))
    (texts : List String)
    (hcountable : ∀ i ≤ list.length + texts.length, (toString i).length ≤ Json.integerDigits) :
    fold (items ++ texts.map fun s => (name ++ "[]", s)) =
      .ok (.map (values.put name (.list (list ++ texts.map .text)))) := by
  induction texts generalizing items values list with
  | nil =>
      rw [List.map_nil, List.map_nil, List.append_nil, List.append_nil, Assoc.put_of_get? hlist]
      exact hfold
  | cons s rest ih =>
      rcases exists_lists hfold hbracketed hlist with ⟨trees, node, entries, h⟩
      have hname : Key.isName name = true := isName_of_bracketed hbracketed
      have hstep := (h.forall_concat_iff hname).mpr hroom s
      have hnext : HasRoom (keysUnder (items ++ [(name ++ "[]", s)]) name) := by
        rw [h.keysUnder_concat hname hroom, ← h.length_keysUnder]
        refine hroom.concat (hcountable _ ?_)
        rw [h.length_keysUnder, List.length_cons]
        omega
      rcases hbracketed with ⟨item, hitem, hkey⟩
      have hrest := ih hstep ⟨item, List.mem_append_left _ hitem, hkey⟩
        (Assoc.get?_put_self _ _ _) hnext ?_
      · rw [List.append_assoc, Assoc.put_put, List.append_assoc] at hrest
        exact hrest
      · rw [List.length_append, List.length_singleton, Nat.add_assoc, Nat.add_comm 1]
        exact hcountable

/-- Empty brackets append, whatever value they are given, exactly where there is room below their
name: the number of indices there is none of them, and none of them is greater. -/
theorem fold_append_iff
    (hfold : fold items = .ok (.map values)) (hbracketed : ∃ item ∈ items, IsBracketed name item)
    (hlist : values.get? name = some (.list list)) :
    (keysUnder items name).length = list.length ∧
      ((∀ s, fold (items ++ [(name ++ "[]", s)]) =
          .ok (.map (values.put name (.list (list ++ [.text s]))))) ↔
        HasRoom (keysUnder items name)) := by
  have hname := isName_of_bracketed hbracketed
  rcases exists_lists hfold hbracketed hlist with ⟨trees, node, entries, h⟩
  exact ⟨h.length_keysUnder, h.forall_concat_iff hname⟩

end Params

namespace Sample

/-- Two indices in the wrong order. -/
def indexedNames : List (String × String) :=
  [("a[1]", "name"), ("a[0]", "id")]

set_option maxRecDepth 4000 in
theorem fold_indexedNames :
    Params.fold indexedNames = .ok (.map [("a", .list [.text "id", .text "name"])]) := by
  cbv

theorem keysUnder_indexedNames : Params.keysUnder indexedNames "a" = ["1", "0"] := by
  decide

theorem fold_append_iff_indexedNames :
    Params.fold indexedNames = .ok (.map [("a", .list [.text "id", .text "name"])]) ∧
      (∃ item ∈ indexedNames, Params.IsBracketed "a" item) ∧
      Params.HasRoom ["1", "0"] ∧
      ∀ s, Params.fold (indexedNames ++ [("a[]", s)]) =
        .ok (.map [("a", .list [.text "id", .text "name", .text s])]) := by
  have hbracketed : ∃ item ∈ indexedNames, Params.IsBracketed "a" item :=
    ⟨_, List.mem_cons_self, "1", [], by decide⟩
  have hroom : Params.HasRoom ["1", "0"] := Params.hasRoom_of_indices (by decide) (by decide)
  have happend := (Params.fold_append_iff fold_indexedNames hbracketed rfl).2
  rw [keysUnder_indexedNames] at happend
  exact ⟨fold_indexedNames, hbracketed, hroom, happend.mpr hroom⟩

set_option maxRecDepth 4000 in
/-- The only index is one, and so is the number of indices. -/
theorem append_joins_taken_index :
    Params.fold [("a[1]", "x")] = .ok (.map [("a", .list [.text "x"])]) ∧
      Params.fold [("a[1]", "x"), ("a[]", "y")] ≠
        .ok (.map [("a", .list [.text "x", .text "y"])]) := by
  have hjoined : Params.fold [("a[1]", "x"), ("a[]", "y")] =
      .ok (.map [("a", .list [.ofTexts ["x", "y"]])]) := by
    cbv
  refine ⟨by cbv, ?_⟩
  rw [hjoined]
  rintro ⟨⟩

end Sample
end RecordApi
