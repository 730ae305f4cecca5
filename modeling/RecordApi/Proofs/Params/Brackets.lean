import RecordApi.Proofs.Params.Folding
import RecordApi.Proofs.Params.Indices

/-!
# Bracket notation read back

Items in bracket notation fold to the map that they were written from.  Their order decides
only in which order the keys of maps come.
-/

namespace RecordApi

open Leaf

namespace Value

/-! ## Leaves of entries -/

variable {entries : List (String × Value)}

theorem below_under (name : String) (leaves : List Leaf) :
    below name (leaves.map (under name)) = leaves := by
  have hself : below? name ∘ under name = some := funext fun leaf => if_pos rfl
  unfold below
  rw [List.filterMap_map, hself, List.filterMap_some]

theorem below_under_of_ne {name other : String} (h : other ≠ name) (leaves : List Leaf) :
    below name (leaves.map (under other)) = [] := by
  unfold below
  rw [List.filterMap_map, List.filterMap_eq_nil_iff]
  exact fun leaf _ => if_neg h

theorem below_append (name : String) (first second : List Leaf) :
    below name (first ++ second) = below name first ++ below name second :=
  List.filterMap_append

theorem heads_append (first second : List Leaf) :
    heads (first ++ second) = heads first ++ heads second :=
  List.filterMap_append

theorem heads_under (name : String) (leaves : List Leaf) :
    heads (leaves.map (under name)) = leaves.map fun _ => name := by
  unfold heads
  rw [List.filterMap_map, ← List.filterMap_eq_map]
  rfl

/-- What lies below a name among the leaves under distinct keys. -/
theorem below_flatMap
    {α : Type} {leavesIn : α → List Leaf} {entries : Assoc α}
    (hdistinct : (Assoc.keys entries).Nodup) (name : String) :
    below name (entries.flatMap fun entry => (leavesIn entry.2).map (under entry.1)) =
      ((entries.get? name).map leavesIn).getD [] := by
  induction entries with
  | nil => rfl
  | cons entry rest ih =>
      have hparts := List.nodup_cons.mp hdistinct
      rw [List.flatMap_cons, below_append, ih hparts.2, Assoc.get?_cons]
      by_cases hname : entry.1 = name
      · have hrest : Assoc.get? rest name = none :=
          Assoc.get?_eq_none.mpr (hname ▸ hparts.1)
        rw [hname, below_under, hrest, if_pos rfl]
        exact List.append_nil _
      · rw [below_under_of_ne hname, if_neg hname, List.nil_append]

theorem entryLeaves_eq_flatMap (entries : List (String × Value)) :
    entryLeaves entries = entries.flatMap fun entry => entry.2.leaves.map (under entry.1) := by
  induction entries with
  | nil => rw [entryLeaves]; rfl
  | cons entry rest ih => rw [entryLeaves, ih]; rfl

theorem below_entryLeaves
    (hdistinct : (Assoc.keys entries).Nodup) (name : String) :
    below name (entryLeaves entries) = ((Assoc.get? entries name).map leaves).getD [] := by
  rw [entryLeaves_eq_flatMap]
  exact below_flatMap hdistinct name

theorem mem_entryLeaves {leaf : Leaf} :
    leaf ∈ entryLeaves entries ↔
      ∃ entry ∈ entries, ∃ inner ∈ entry.2.leaves, leaf = inner.under entry.1 := by
  rw [entryLeaves_eq_flatMap, List.mem_flatMap]
  simp only [List.mem_map, eq_comm]

/-- When every value has a leaf, the first names of the leaves are the keys. -/
theorem eraseDups_heads_entryLeaves
    (hdistinct : (Assoc.keys entries).Nodup) (hne : ∀ entry ∈ entries, entry.2.leaves ≠ []) :
    (heads (entryLeaves entries)).eraseDups = Assoc.keys entries := by
  induction entries with
  | nil => rw [entryLeaves]; rfl
  | cons entry rest ih =>
      rcases entry with ⟨key, value⟩
      rw [List.forall_mem_cons] at hne
      have hparts := List.nodup_cons.mp hdistinct
      have hmem : ∀ name ∈ heads (entryLeaves rest), name ∈ Assoc.keys rest := by
        intro name hname
        rw [← ih hparts.2 hne.2]
        exact List.mem_eraseDups.mpr hname
      rw [entryLeaves, heads_append, heads_under]
      rcases List.exists_cons_of_ne_nil hne.1 with ⟨leaf, others, hleaves⟩
      have hsame : (others.map fun _ => key).filter (fun name => !name == key) = [] := by
        simp
      have hother : (heads (entryLeaves rest)).filter (fun name => !name == key) =
          heads (entryLeaves rest) := by
        rw [List.filter_eq_self]
        intro name hname
        have hapart : name ≠ key := fun heq => hparts.1 (heq ▸ hmem name hname)
        simpa using hapart
      rw [hleaves, List.map_cons, List.cons_append, List.eraseDups_cons, List.filter_append,
        hsame, hother, List.nil_append, ih hparts.2 hne.2]
      rfl

theorem entryLeaves_ne_nil
    (hentries : entries ≠ []) (hne : ∀ entry ∈ entries, entry.2.leaves ≠ []) :
    entryLeaves entries ≠ [] := by
  rcases List.exists_cons_of_ne_nil hentries with ⟨⟨key, value⟩, rest, rfl⟩
  rw [entryLeaves]
  rw [List.forall_mem_cons] at hne
  intro h
  exact hne.1 (List.map_eq_nil_iff.mp (List.append_eq_nil_iff.mp h).1)

theorem leaves_list (items : List Value) :
    leaves (.list items) = entryLeaves (Params.indexed 0 items) := by
  rw [leaves, Params.itemLeaves_eq_entryLeaves]

theorem forall_mem_indexed
    {P : Value → Prop} {items : List Value} (h : ∀ item ∈ items, P item) :
    ∀ entry ∈ Params.indexed 0 items, P entry.2 := by
  intro entry hentry
  rcases Params.mem_indexed.mp hentry with ⟨i, hi, _⟩
  exact h _ (List.mem_of_getElem? hi)

theorem indexed_ne_nil {items : List Value} (h : items ≠ []) : Params.indexed 0 items ≠ [] := by
  rcases List.exists_cons_of_ne_nil h with ⟨item, rest, rfl⟩
  exact List.cons_ne_nil _ _

theorem leaves_ne_nil {value : Value} (h : Bracketable value) : value.leaves ≠ [] := by
  induction h with
  | text s =>
      rw [leaves]
      exact List.cons_ne_nil _ _
  | list nonempty countable members ih =>
      rw [leaves_list]
      exact entryLeaves_ne_nil (indexed_ne_nil nonempty) (forall_mem_indexed ih)
  | map nonempty distinct names nondigit members ih =>
      rw [leaves]
      exact entryLeaves_ne_nil nonempty ih

theorem plain_of_mem_entryLeaves
    (hkeys : ∀ entry ∈ entries, Key.IsPlain entry.1.toList)
    (hleaves : ∀ entry ∈ entries, ∀ leaf ∈ entry.2.leaves,
      ∀ segment ∈ leaf.path, Key.IsPlain segment.toList) :
    ∀ leaf ∈ entryLeaves entries, ∀ segment ∈ leaf.path, Key.IsPlain segment.toList := by
  intro leaf hleaf
  rcases mem_entryLeaves.mp hleaf with ⟨entry, hentry, inner, hinner, rfl⟩
  exact List.forall_mem_cons.mpr ⟨hkeys entry hentry, hleaves entry hentry inner hinner⟩

theorem plain_of_mem_leaves {value : Value} (h : Bracketable value) :
    ∀ leaf ∈ value.leaves, ∀ segment ∈ leaf.path, Key.IsPlain segment.toList := by
  induction h with
  | text s =>
      rw [leaves]
      intro leaf hleaf segment hsegment
      rw [List.mem_singleton.mp hleaf] at hsegment
      exact absurd hsegment List.not_mem_nil
  | list nonempty countable members ih =>
      rw [leaves_list]
      refine plain_of_mem_entryLeaves (fun entry hentry => ?_) (forall_mem_indexed ih)
      rcases Params.mem_indexed.mp hentry with ⟨i, _, hkey⟩
      rw [hkey]
      exact Key.plain_of_isName (Key.isName_toString i)
  | map nonempty distinct names nondigit members ih =>
      rw [leaves]
      exact plain_of_mem_entryLeaves
        (fun entry hentry => Key.plain_of_isName (names _ (List.mem_map_of_mem hentry))) ih

end Value

namespace Params

open Value Steps

/-! ## Values restored -/

/-- However its leaves are ordered, they fold to a value again, and to itself when they come in
document order. -/
def Restores (value : Value) : Prop :=
  ∀ leaves, leaves.Perm value.leaves →
    ∃ tree result, Grows none leaves (some tree) ∧ tree.fold = .ok result ∧
      SameUpToKeyOrder value result ∧ (leaves = value.leaves → result = value)

/-- The same for a value whose leaves all lie below keys or indices. -/
def Gathers (value : Value) : Prop :=
  ∀ leaves, leaves.Perm value.leaves →
    ∃ trees result, Gains [] leaves trees ∧ (Tree.branch trees).fold = .ok result ∧
      SameUpToKeyOrder value result ∧ (leaves = value.leaves → result = value)

variable {entries : List (String × Value)}

/-- What some leaves of a map are read as under one of its keys. -/
def ReadUnder (entries : Assoc Value) (leaves : List Leaf) (key : String) (w : Value) : Prop :=
  ∃ v, entries.get? key = some v ∧ SameUpToKeyOrder v w ∧
    (leaves = entryLeaves entries → w = v)

theorem exists_tree_below
    (hdistinct : (Assoc.keys entries).Nodup)
    (hrestores : ∀ entry ∈ entries, Restores entry.2)
    {leaves : List Leaf} (hperm : leaves.Perm (entryLeaves entries)) (name : String) :
    ∃ tree, Grows none (below name leaves) tree ∧
      ∀ t ∈ tree, ∃ w, t.fold = .ok w ∧ ReadUnder entries leaves name w := by
  have hbelow := below_entryLeaves hdistinct name
  have hname : (below name leaves).Perm (below name (entryLeaves entries)) := hperm.filterMap _
  cases hget : Assoc.get? entries name with
  | none =>
      rw [hbelow, hget] at hname
      rw [List.perm_nil.mp hname]
      exact ⟨none, Grows.nil none, fun t ht => nomatch ht⟩
  | some v =>
      rw [hget] at hbelow
      rw [hbelow] at hname
      have hentry := (Assoc.get?_eq_some hdistinct).mp hget
      rcases hrestores (name, v) hentry _ hname with ⟨tree, w, hgrows, hfold, hsame, horder⟩
      refine ⟨some tree, hgrows, fun t ht => ⟨w, ?_, v, hget, hsame, fun heq => horder ?_⟩⟩
      · rw [← Option.some.inj ht, hfold]
      · rw [heq, hbelow]
        rfl

/-- Leaves of a map, each under its key, fold to entries under the same keys. -/
theorem restores_entries
    (hdistinct : (Assoc.keys entries).Nodup)
    (hnames : ∀ key ∈ Assoc.keys entries, key ≠ "")
    (hne : ∀ entry ∈ entries, entry.2.leaves ≠ [])
    (hrestores : ∀ entry ∈ entries, Restores entry.2)
    {leaves : List Leaf} (hperm : leaves.Perm (entryLeaves entries)) :
    ∃ trees values, Gains [] leaves trees ∧ foldEntries trees = .ok values ∧
      (Assoc.keys entries).Perm (Assoc.keys values) ∧
      (∀ entry ∈ values, ReadUnder entries leaves entry.1 entry.2) ∧
      (leaves = entryLeaves entries → values = entries) := by
  choose trees hgrows htrees using exists_tree_below hdistinct hrestores hperm
  have hnamed : ∀ leaf ∈ leaves, leaf.IsNamed := by
    intro leaf hleaf
    rcases mem_entryLeaves.mp (hperm.mem_iff.mp hleaf) with ⟨entry, hentry, inner, _, rfl⟩
    exact ⟨entry.1, inner.path, rfl, hnames _ (List.mem_map_of_mem hentry)⟩
  rcases exists_folded hnamed hgrows htrees with
    ⟨result, values, hgains, hvalues, hkeys, hread, _⟩
  refine ⟨result, values, hgains, hvalues, ?_, hread, fun horder => ?_⟩
  · rw [hkeys, List.perm_ext_iff_of_nodup hdistinct (nodup_eraseDups _)]
    intro name
    rw [List.mem_eraseDups, ← eraseDups_heads_entryLeaves hdistinct hne, List.mem_eraseDups]
    exact (hperm.filterMap _).mem_iff.symm
  · -- in document order the keys come in their order too
    have hdistinct' : (Assoc.keys values).Nodup := hkeys ▸ nodup_eraseDups _
    apply Assoc.eq_of_get?_eq hdistinct'
    · rw [hkeys, horder, eraseDups_heads_entryLeaves hdistinct hne]
    · intro key hkey
      rcases List.mem_map.mp hkey with ⟨entry, hentry, rfl⟩
      rcases hread _ hentry with ⟨v, hv, _, hequal⟩
      rw [(Assoc.get?_eq_some hdistinct').mpr hentry, hv, hequal horder]

theorem Gathers.restores
    {value : Value} (h : Gathers value)
    (hleaves : value.leaves = entryLeaves entries) (hne : value.leaves ≠ []) :
    Restores value := by
  intro leaves hperm
  rcases h leaves hperm with ⟨trees, result, hgains, hfold, hsame, horder⟩
  have hnonempty : leaves ≠ [] := fun hnil => hne (List.nil_perm.mp (hnil ▸ hperm))
  have hpath : ∀ leaf ∈ leaves, leaf.path ≠ [] := by
    intro leaf hleaf
    have hmem := hperm.mem_iff.mp hleaf
    rw [hleaves] at hmem
    rcases mem_entryLeaves.mp hmem with ⟨entry, _, inner, _, rfl⟩
    exact List.cons_ne_nil _ _
  exact ⟨.branch trees, result, Grows.of_gains_nil hnonempty hgains hpath, hfold, hsame, horder⟩

theorem gathers_map
    (hdistinct : (Assoc.keys entries).Nodup)
    (hnames : ∀ key ∈ Assoc.keys entries, Key.isName key = true)
    (hnondigit : ∃ key ∈ Assoc.keys entries, Text.isDigitText key = false)
    (hne : ∀ entry ∈ entries, entry.2.leaves ≠ [])
    (hrestores : ∀ entry ∈ entries, Restores entry.2) :
    Gathers (.map entries) := by
  intro leaves hperm
  rw [Value.leaves] at hperm ⊢
  rcases restores_entries hdistinct (fun key hkey => Key.ne_empty_of_isName (hnames key hkey))
    hne hrestores hperm with ⟨trees, values, hgains, hvalues, hkeys, hread, horder⟩
  rcases hnondigit with ⟨key, hkey, hdigit⟩
  have hfold := foldMap_of_nondigit (hkeys.mem_iff.mp hkey) hdigit
  refine ⟨trees, .map values, hgains, fold_branch hvalues hfold,
    SameUpToKeyOrder.map hkeys fun key v w hv hw => ?_, fun heq => congrArg Value.map (horder heq)⟩
  rcases hread _ hw with ⟨other, hother, hsame, _⟩
  rw [(Assoc.get?_eq_some hdistinct).mpr hv] at hother
  rw [Option.some.inj hother]
  exact hsame

theorem gathers_list
    {items : List Value} (hitems : items ≠ [])
    (hcountable : ∀ i < items.length, (toString i).length ≤ Json.integerDigits)
    (hne : ∀ item ∈ items, item.leaves ≠ [])
    (hrestores : ∀ item ∈ items, Restores item) :
    Gathers (.list items) := by
  intro leaves hperm
  rw [leaves_list] at hperm ⊢
  have hdistinct := nodup_keys_indexed 0 items
  have hnames : ∀ key ∈ Assoc.keys (indexed 0 items), key ≠ "" := by
    intro key hkey
    rcases exists_index_of_mem_keys hkey with ⟨i, rfl⟩
    exact Key.ne_empty_of_isName (Key.isName_toString i)
  rcases restores_entries hdistinct hnames (forall_mem_indexed hne)
    (forall_mem_indexed hrestores) hperm with
    ⟨trees, values, hgains, hvalues, hkeys, hread, horder⟩
  rcases exists_perm_indexed hkeys.symm with ⟨others, hlength, hothers⟩
  have hsorted := inIndexOrder_of_perm (hlength ▸ hcountable) hothers
  have hfold : foldMap values = .ok (.list others) := by
    rw [foldMap_of_digits, hsorted]
    · rfl
    · rintro rfl
      exact indexed_ne_nil hitems (List.map_eq_nil_iff.mp (List.perm_nil.mp hkeys))
    · intro key hkey
      rcases exists_index_of_mem_keys (hkeys.mem_iff.mpr hkey) with ⟨i, rfl⟩
      exact Text.isDigitText_toString i
  refine ⟨trees, .list others, hgains, fold_branch hvalues hfold, ?_, ?_⟩
  · refine SameUpToKeyOrder.list hlength.symm fun i v w hv hw => ?_
    have hentry : (toString i, w) ∈ indexed 0 others := mem_indexed.mpr ⟨i, hw, rfl⟩
    rcases hread _ (hothers.mem_iff.mpr hentry) with ⟨other, hother, hsame, _⟩
    have hmem : (toString i, v) ∈ indexed 0 items := mem_indexed.mpr ⟨i, hv, rfl⟩
    rw [(Assoc.get?_eq_some hdistinct).mpr hmem] at hother
    rw [Option.some.inj hother]
    exact hsame
  · intro heq
    rw [horder heq, inIndexOrder_of_perm hcountable (List.Perm.refl _)] at hsorted
    rw [Except.ok.inj hsorted]

theorem restores_of_bracketable {value : Value} (h : Bracketable value) : Restores value := by
  have hleaves := leaves_ne_nil h
  induction h with
  | text s =>
      intro leaves hperm
      rw [Value.leaves] at hperm ⊢
      rw [List.perm_singleton.mp hperm]
      exact ⟨.plain s, .text s, Grows.cons (fun _ _ => rfl) (Grows.nil _), by rw [Tree.fold],
        SameUpToKeyOrder.text s, fun _ => rfl⟩
  | list nonempty countable members ih =>
      have hne := fun item h => leaves_ne_nil (members item h)
      exact (gathers_list nonempty countable hne fun item h => ih item h (hne item h)).restores
        (leaves_list _) hleaves
  | map nonempty distinct names nondigit members ih =>
      have hne := fun entry h => leaves_ne_nil (members entry h)
      exact (gathers_map distinct names nondigit hne fun entry h => ih entry h (hne entry h)).restores
        (by rw [Value.leaves]) hleaves

theorem gathers_of_bracketable
    {value : Value} (h : Bracketable value) (hnested : ∀ s, value ≠ .text s) : Gathers value := by
  cases h with
  | text s => exact absurd rfl (hnested s)
  | list nonempty countable members =>
      exact gathers_list nonempty countable (fun item h => leaves_ne_nil (members item h))
        fun item h => restores_of_bracketable (members item h)
  | map nonempty distinct names nondigit members =>
      exact gathers_map distinct names nondigit (fun entry h => leaves_ne_nil (members entry h))
        fun entry h => restores_of_bracketable (members entry h)

/-! ## Items read back -/

theorem ofItem_item {leaf : Leaf}
    (hentries : Bracketable (.map entries)) (hleaf : leaf ∈ entryLeaves entries) :
    ofItem leaf.item = leaf := by
  have hplain := plain_of_mem_leaves hentries leaf (by rwa [Value.leaves])
  cases hentries with
  | map nonempty distinct names nondigit members =>
      rcases mem_entryLeaves.mp hleaf with ⟨entry, hentry, inner, _, rfl⟩
      have hname := names _ (List.mem_map_of_mem hentry)
      have hpath := Key.split_join hname (List.forall_mem_cons.mp hplain).2
      exact congrArg (Leaf.mk · inner.text) hpath

theorem map_ofItem_item
    (hentries : Bracketable (.map entries))
    {leaves : List Leaf} (hperm : leaves.Perm (entryLeaves entries)) :
    (leaves.map item).map ofItem = leaves := by
  rw [List.map_map]
  refine (List.map_congr_left fun leaf hleaf => ?_).trans (List.map_id leaves)
  exact ofItem_item hentries (hperm.mem_iff.mp hleaf)

theorem fold_of_gains
    {items : List (String × String)} {trees : Assoc Tree} {value : Value}
    (hgains : Gains [] (items.map ofItem) trees) (hfold : (Tree.branch trees).fold = .ok value) :
    fold items = .ok value := by
  unfold fold
  rw [Gains.foldlM hgains]
  rw [Tree.fold] at hfold
  exact hfold

theorem fold_map_item
    (hentries : Bracketable (.map entries))
    {leaves : List Leaf} (hperm : leaves.Perm (entryLeaves entries)) :
    ∃ value, fold (leaves.map item) = .ok value ∧ SameUpToKeyOrder (.map entries) value ∧
      (leaves = entryLeaves entries → value = .map entries) := by
  have hgathers := gathers_of_bracketable hentries (fun _ h => nomatch h) leaves
  rw [Value.leaves] at hgathers
  rcases hgathers hperm with ⟨trees, value, hgains, hfold, hsame, horder⟩
  rw [← map_ofItem_item hentries hperm] at hgains
  exact ⟨value, fold_of_gains hgains hfold, hsame, horder⟩

/-- Items of bracket notation in any order fold to the map that they were written from, up to
the order of keys, and in document order to the map itself. -/
theorem fold_writeItems (h : Bracketable (.map entries)) :
    (∀ items, items.Perm (writeItems entries) →
      ∃ value, fold items = .ok value ∧ SameUpToKeyOrder (.map entries) value) ∧
    fold (writeItems entries) = .ok (.map entries) := by
  constructor
  · intro items hitems
    have hleaves : Relation.Comp (· = List.map item ·) List.Perm items (entryLeaves entries) := by
      rw [List.eq_map_comp_perm]
      exact hitems
    rcases hleaves with ⟨leaves, rfl, hperm⟩
    rcases fold_map_item h hperm with ⟨value, hfold, hsame, _⟩
    exact ⟨value, hfold, hsame⟩
  · rcases fold_map_item h (List.Perm.refl _) with ⟨value, hfold, _, horder⟩
    rw [← horder rfl]
    exact hfold

example : writeItems [("fields", .ofTexts ["id", "name"])] =
    [("fields[0]", "id"), ("fields[1]", "name")] := by
  rfl

end Params

namespace Value

theorem bracketable_ofTexts
    {texts : List String} (hne : texts ≠ [])
    (hcountable : ∀ i < texts.length, (toString i).length ≤ Json.integerDigits) :
    Bracketable (.ofTexts texts) := by
  refine Bracketable.list (by simpa using hne) (by simpa using hcountable) fun item hitem => ?_
  rcases List.mem_map.mp hitem with ⟨s, _, rfl⟩
  exact Bracketable.text s

theorem bracketable_single
    {key : String} {value : Value}
    (hname : Key.isName key = true) (hdigit : Text.isDigitText key = false)
    (hvalue : Bracketable value) :
    Bracketable (.map [(key, value)]) := by
  refine Bracketable.map (List.cons_ne_nil _ _) (List.nodup_singleton key) ?_ ?_ ?_
  · exact List.forall_mem_singleton.mpr hname
  · exact ⟨key, List.mem_singleton_self key, hdigit⟩
  · exact List.forall_mem_singleton.mpr hvalue

end Value

namespace Sample

open Value

/-- A request that asks for eleven fields of whoever is of age or called Ann. -/
def adults : List (String × Value) :=
  [("filters", .map [("or", .list
      [.map [("age", .map [("gte", .text "18")])], .map [("name", .map [("eq", .text "Ann")])]])]),
    ("fields", .ofTexts ["a", "b", "c", "d", "e", "f", "g", "h", "i", "j", "k"])]

theorem bracketable_adults : Bracketable (.map adults) := by
  have hfield : ∀ field operator operand, Key.isName field = true →
      Text.isDigitText field = false → Key.isName operator = true →
      Text.isDigitText operator = false →
      Bracketable (.map [(field, .map [(operator, .text operand)])]) :=
    fun field operator operand hfield hdigit hoperator hdigit' =>
      bracketable_single hfield hdigit
        (bracketable_single hoperator hdigit' (Bracketable.text operand))
  have hgroup : Bracketable (.list [.map [("age", .map [("gte", .text "18")])],
      .map [("name", .map [("eq", .text "Ann")])]]) := by
    refine Bracketable.list (List.cons_ne_nil _ _) (by decide) ?_
    rw [List.forall_mem_cons, List.forall_mem_singleton]
    exact ⟨hfield _ _ _ (by decide) (by decide) (by decide) (by decide),
      hfield _ _ _ (by decide) (by decide) (by decide) (by decide)⟩
  refine Bracketable.map (List.cons_ne_nil _ _) (by decide) (by decide)
    ⟨"fields", by decide, by decide⟩ ?_
  unfold adults
  rw [List.forall_mem_cons, List.forall_mem_singleton]
  exact ⟨bracketable_single (by decide) (by decide) hgroup,
    bracketable_ofTexts (List.cons_ne_nil _ _) (by decide)⟩

theorem fold_writeItems_adults :
    Bracketable (.map adults) ∧
    (∃ value, Params.fold (Params.writeItems adults).reverse = .ok value ∧
      SameUpToKeyOrder (.map adults) value) ∧
    Params.fold (Params.writeItems adults) = .ok (.map adults) :=
  have hboth := Params.fold_writeItems bracketable_adults
  ⟨bracketable_adults, hboth.1 _ (List.reverse_perm _), hboth.2⟩

end Sample
end RecordApi
