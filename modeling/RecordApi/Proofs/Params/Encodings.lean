import RecordApi.Params.Encoding
import RecordApi.Proofs.Json.Reading
import RecordApi.Proofs.Params.Brackets
import RecordApi.Proofs.Text.Pieces

/-!
# Encodings of one parameter

What is read for a parameter depends on the items of that parameter only, and it is the same
for each way to encode a value.
-/

namespace RecordApi
namespace Params

open Steps Leaf Value

/-! ## One parameter among others -/

/-- The items below a name fold to a value, or to nothing when there are none. -/
def FoldsTo (name : String) (items : List (String × String)) (value? : Option Value) : Prop :=
  ∃ tree?, Grows none (below name (items.map ofItem)) tree? ∧
    value?.map Except.ok = tree?.map Tree.fold

theorem FoldsTo.of_grows
    {name : String} {items : List (String × String)} {tree : Tree} {raw : Value}
    (hgrows : Grows none (below name (items.map ofItem)) (some tree))
    (hfold : tree.fold = .ok raw) : FoldsTo name items (some raw) :=
  ⟨some tree, hgrows, congrArg some hfold.symm⟩

theorem Grows.unique
    {tree first second : Option Tree} {leaves : List Leaf}
    (hfirst : Grows tree leaves first) (hsecond : Grows tree leaves second) : first = second := by
  induction hfirst with
  | nil => exact hsecond.eq_of_nil.symm
  | cons step others ih =>
      rcases hsecond.of_cons with ⟨next, hstep, hrest⟩
      have hnext := Except.ok.inj ((step "" "").symm.trans (hstep "" ""))
      exact ih (hnext ▸ hrest)

theorem below_itemsOf (name : String) (items : List (String × String)) :
    below name (items.map ofItem) = below name ((itemsOf name items).map ofItem) := by
  unfold below itemsOf
  rw [List.filterMap_map, List.filterMap_map, List.filterMap_filter]
  refine List.filterMap_congr fun item _ => ?_
  unfold rootOf Function.comp below? ofItem
  cases Key.split item.1 with
  | nil => exact (ite_self none).symm
  | cons head rest =>
      by_cases hhead : head = name <;> simp [hhead]

theorem FoldsTo.unique
    {name : String} {items : List (String × String)} {value? other? : Option Value}
    (h : FoldsTo name items value?) (hother : FoldsTo name items other?) : value? = other? := by
  rcases h with ⟨tree?, hgrows, hvalue⟩
  rcases hother with ⟨tree', hgrows', hvalue'⟩
  rw [hgrows.unique hgrows', ← hvalue'] at hvalue
  exact Option.map_injective (fun _ _ => Except.ok.inj) hvalue

theorem foldMap_of_heads
    {leaves : List Leaf} {values : Assoc Value}
    (hkeys : Assoc.keys values = (heads leaves).eraseDups)
    (hnondigit : ∀ name ∈ heads leaves, Text.isDigitText name = false) :
    foldMap values = .ok (.map values) := by
  cases values with
  | nil => rfl
  | cons entry rest =>
      have hentry : entry.1 ∈ Assoc.keys (entry :: rest) := List.mem_cons_self
      have hhead := hentry
      rw [hkeys, List.mem_eraseDups] at hhead
      exact foldMap_of_nondigit hentry (hnondigit _ hhead)

/-- Parameters are told apart by their names, so each may be folded by itself. -/
theorem exists_fold
    {items : List (String × String)}
    (hroots : ∀ item ∈ items, ∃ name rest, Key.split item.1 = name :: rest ∧
      name ≠ "" ∧ Text.isDigitText name = false)
    (hfolds : ∀ name, ∃ value?, FoldsTo name items value?) :
    ∃ values, fold items = .ok (.map values) ∧
      ∀ name value?, FoldsTo name items value? → Assoc.get? values name = value? := by
  choose value? htold using hfolds
  choose tree? hgrows hequal using htold
  have hnamed : ∀ leaf ∈ items.map ofItem, leaf.IsNamed := by
    intro leaf hleaf
    rcases List.mem_map.mp hleaf with ⟨item, hitem, rfl⟩
    rcases hroots item hitem with ⟨name, rest, hsplit, hname, _⟩
    exact ⟨name, rest, hsplit, hname⟩
  have hnondigit : ∀ name ∈ heads (items.map ofItem), Text.isDigitText name = false := by
    intro name hname
    rcases List.mem_filterMap.mp hname with ⟨leaf, hleaf, hhead⟩
    rcases List.mem_map.mp hleaf with ⟨item, hitem, rfl⟩
    rcases hroots item hitem with ⟨root, rest, hsplit, _, hdigit⟩
    simp only [ofItem, hsplit, List.head?_cons, Option.some.injEq] at hhead
    exact hhead ▸ hdigit
  have htrees : ∀ name, ∀ tree ∈ tree? name, ∃ w, tree.fold = .ok w ∧ value? name = some w := by
    intro name tree htree
    have hvalue := hequal name
    rw [htree] at hvalue
    rcases Option.map_eq_some_iff.mp hvalue with ⟨w, hw, hok⟩
    exact ⟨w, hok.symm, hw⟩
  rcases exists_folded hnamed hgrows htrees with
    ⟨entries, values, hgains, hvalues, hkeys, hread, hrest⟩
  refine ⟨values, fold_of_gains hgains (fold_branch hvalues (foldMap_of_heads hkeys hnondigit)), ?_⟩
  intro name other? hother
  rw [hother.unique ⟨tree? name, hgrows name, hequal name⟩]
  cases hentry : Assoc.get? values name with
  | some w =>
      have hdistinct : (Assoc.keys values).Nodup := hkeys ▸ nodup_eraseDups _
      exact (hread _ ((Assoc.get?_eq_some hdistinct).mp hentry)).symm
  | none =>
      have hnone := hequal name
      rw [hrest name (Assoc.get?_eq_none.mp hentry)] at hnone
      exact (Option.map_eq_none_iff.mp hnone).symm

/-! ## Ways to encode a value -/

variable {name : String} {items : List (String × String)}

theorem split_name (hname : Key.isName name = true) : Key.split name = [name] := by
  have hjoin : Key.join [name] = name := by simp [Key.join, Key.joinChars]
  have hplain : ∀ segment ∈ ([] : List String), Key.IsPlain segment.toList :=
    fun _ hsegment => absurd hsegment List.not_mem_nil
  have hsplit := Key.split_join hname hplain
  rwa [hjoin] at hsplit

theorem below_plain (hname : Key.isName name = true) (texts : List String) :
    below name ((texts.map fun text => (name, text)).map ofItem) =
      texts.map fun text => ⟨[], text⟩ := by
  unfold below
  rw [List.map_map, List.filterMap_map, List.filterMap_eq_map_iff_forall_eq_some]
  intro text _
  unfold Function.comp below? ofItem
  rw [split_name hname]
  exact if_pos rfl

theorem foldsTo_of_text (hname : Key.isName name = true) (text : String) :
    FoldsTo name [(name, text)] (some (.text text)) := by
  have hbelow := below_plain hname [text]
  refine FoldsTo.of_grows ?_ (Tree.fold.eq_1 text)
  rw [List.map_singleton] at hbelow
  rw [hbelow]
  exact Grows.cons (fun _ _ => rfl) (Grows.nil _)

theorem readJson_of_nested
    {value : Value} (hnested : value.isNested = true) (malformed : Error) :
    readJson malformed value = .ok value := by
  cases value with
  | list items => rfl
  | map entries => rfl
  | _ => cases hnested

theorem readJson_of_read
    {text : String} {value : Value} (hread : Json.read text.toList = .ok value)
    (hnested : value.isNested = true) (malformed : Error) :
    readJson malformed (.text text) = .ok value := by
  rcases Json.read_trimChars hread hnested with ⟨first, rest, htrim, hfirst, hcore⟩
  simp only [readJson, htrim, hfirst, if_true, hcore]

/-- A value in bracket notation or as JSON is read as the value itself. -/
theorem foldsTo_of_value
    (hname : Key.isName name = true) (hdigit : Text.isDigitText name = false)
    {value : Value} (hvalue : Bracketable value) (hnested : value.isNested = true)
    (h : EncodesValue name value items) :
    ∃ raw, FoldsTo name items (some raw) ∧ ∀ malformed, readJson malformed raw = .ok value := by
  cases h with
  | brackets =>
      have hmap := bracketable_single hname hdigit hvalue
      have hdistinct : (Assoc.keys [(name, value)]).Nodup := List.nodup_singleton name
      have hleaves : below name ((writeItems [(name, value)]).map ofItem) = value.leaves := by
        unfold writeItems
        rw [map_ofItem_item hmap (List.Perm.refl _), below_entryLeaves hdistinct,
          Assoc.get?_cons, if_pos rfl]
        rfl
      rcases restores_of_bracketable hvalue _ (List.Perm.refl _) with
        ⟨tree, result, hgrows, hfold, _, horder⟩
      rw [horder rfl] at hfold
      rw [← hleaves] at hgrows
      exact ⟨value, FoldsTo.of_grows hgrows hfold, readJson_of_nested hnested⟩
  | @json text hread =>
      exact ⟨.text text, foldsTo_of_text hname text, readJson_of_read hread hnested⟩

/-! ## Ways to encode a list of names -/

theorem listable_iff {name : String} (h : isListable name = true) :
    name ≠ "" ∧ ',' ∉ name.toList ∧ Text.trimChars name.toList = name.toList ∧
      name.toList.head? ≠ some '\x7b' ∧ name.toList.head? ≠ some '[' := by
  simpa [isListable, and_assoc] using h

theorem nameList_of_readJson
    {raw : Value} {names : List String} {parameter : String}
    (h : readJson (.notJson parameter) raw = .ok (.ofTexts names)) :
    nameList parameter raw = .ok (some names) := by
  have htexts : (names.map Value.text).map Value.plainText = names := by
    rw [List.map_map]
    exact List.map_id names
  unfold nameList
  rw [h]
  exact congrArg (fun texts => Except.ok (some texts)) htexts

theorem ne_nil_of_bracketable {names : List String} (h : Bracketable (.ofTexts names)) :
    names ≠ [] := by
  rintro rfl
  cases h with
  | list nonempty countable members => exact nonempty rfl

/-- Names between commas start like the first of them, so they are no JSON. -/
theorem nameList_of_text
    {names : List String} (hne : names ≠ [])
    (hlistable : ∀ name ∈ names, isListable name = true) (parameter : String) :
    nameList parameter (.text (",".intercalate names)) = .ok (some names) := by
  have hnames : ∀ name ∈ names, name ≠ "" ∧ ',' ∉ name.toList ∧
      Text.trimChars name.toList = name.toList := by
    intro name hname
    rcases listable_iff (hlistable name hname) with ⟨hempty, hcomma, htrim, _⟩
    exact ⟨hempty, hcomma, htrim⟩
  rcases List.exists_cons_of_ne_nil hne with ⟨first, rest, rfl⟩
  rcases listable_iff (hlistable first List.mem_cons_self) with ⟨hempty, _, htrim, hbrace, hbracket⟩
  rcases List.exists_cons_of_ne_nil (by simpa using hempty : first.toList ≠ []) with
    ⟨c, tail, hfirst⟩
  rw [hfirst] at htrim hbrace hbracket
  have hjoined : ∃ others, (",".intercalate (first :: rest)).toList = c :: others := by
    rw [String.toList_intercalate, List.map_cons, hfirst]
    cases rest with
    | nil =>
        rw [List.map_nil, List.intercalate_singleton]
        exact ⟨tail, rfl⟩
    | cons second others =>
        rw [List.map_cons, List.intercalate_cons_cons]
        exact ⟨_, rfl⟩
  rcases hjoined with ⟨others, hjoined⟩
  rcases Text.trimChars_cons (Text.isBlank_of_trimChars_eq htrim) others with ⟨trimmed, htrimmed⟩
  have hplain : ¬(c = '\x7b' ∨ c = '[') := by
    rintro (rfl | rfl)
    · exact hbrace rfl
    · exact hbracket rfl
  have hread : readJson (.notJson parameter) (.text (",".intercalate (first :: rest))) =
      .ok (.text (",".intercalate (first :: rest))) := by
    simp only [readJson, hjoined, htrimmed, hplain, if_false]
  unfold nameList
  rw [hread]
  exact congrArg (fun texts => Except.ok (some texts)) (Text.commaList_intercalate hnames)

theorem grows_repeated (texts others : List String) :
    Grows (some (.repeated texts)) (others.map fun text => ⟨[], text⟩)
      (some (.repeated (texts ++ others))) := by
  induction others generalizing texts with
  | nil =>
      rw [List.append_nil]
      exact Grows.nil _
  | cons text rest ih =>
      have hrest := ih (texts ++ [text])
      rw [List.append_assoc, List.singleton_append] at hrest
      exact Grows.cons (fun _ _ => rfl) hrest

theorem foldsTo_of_repeated
    (hname : Key.isName name = true) {names : List String} (hne : names ≠ [])
    (hlistable : ∀ name ∈ names, isListable name = true) :
    ∃ raw, FoldsTo name (names.map fun text => (name, text)) (some raw) ∧
      ∀ parameter, nameList parameter raw = .ok (some names) := by
  match names with
  | [] => exact absurd rfl hne
  | [only] =>
      have honly := nameList_of_text hne hlistable
      rw [String.intercalate_singleton] at honly
      exact ⟨.text only, foldsTo_of_text hname only, honly⟩
  | first :: second :: rest =>
      have hgrows : Grows none ((first :: second :: rest).map fun text => ⟨[], text⟩)
          (some (.repeated (first :: second :: rest))) :=
        Grows.cons (fun _ _ => rfl)
          (Grows.cons (fun _ _ => rfl) (grows_repeated [first, second] rest))
      rw [← below_plain hname] at hgrows
      exact ⟨.ofTexts (first :: second :: rest), FoldsTo.of_grows hgrows (by rw [Tree.fold]),
        fun parameter => nameList_of_readJson rfl⟩

/-- An empty segment stands for the number of indices so far, so it gives a text the index
after the last one. -/
theorem assign_empty
    {entries : Assoc Tree} {start : Nat}
    (hkeys : Assoc.keys entries = (List.range start).map toString) (key root text : String) :
    assign key root text [""] entries = assign key root text [toString start] entries := by
  have hdigits : entries.filter (fun entry => Text.isDigitText entry.1) = entries := by
    rw [List.filter_eq_self]
    intro entry hentry
    have hkey : entry.1 ∈ Assoc.keys entries := List.mem_map_of_mem hentry
    rw [hkeys] at hkey
    rcases List.mem_map.mp hkey with ⟨i, _, hi⟩
    rw [← hi]
    exact Text.isDigitText_toString i
  have hlength : entries.length = start := by
    have h := congrArg List.length hkeys
    simpa [Assoc.keys] using h
  have hnext : resolveSegment entries "" = toString start := by
    change nextIndex entries = toString start
    unfold nextIndex
    rw [hdigits, hlength]
  have hindex := Key.ne_empty_of_isName (Key.isName_toString start)
  rw [assign_cons, assign_cons, hnext, resolveSegment_of_ne hindex]

theorem keys_of_assign
    {entries next : Assoc Tree} {start : Nat}
    (hkeys : Assoc.keys entries = (List.range start).map toString) {key root text : String}
    (h : assign key root text [toString start] entries = .ok next) :
    Assoc.keys next = (List.range (start + 1)).map toString := by
  have hnew : toString start ∉ Assoc.keys entries := by
    rw [hkeys]
    intro hmem
    rcases List.mem_map.mp hmem with ⟨i, hi, heq⟩
    rw [Text.toString_injective heq] at hi
    exact List.not_mem_range_self hi
  have hindex := Key.ne_empty_of_isName (Key.isName_toString start)
  rw [assign_cons, resolveSegment_of_ne hindex] at h
  rcases map_eq_ok.mp h with ⟨tree, _, rfl⟩
  rw [Assoc.keys_put, if_neg hnew, hkeys, List.range_succ, List.map_append]
  rfl

/-- Texts under empty segments gather as those under the indices would. -/
theorem gains_appended
    {entries result : Assoc Tree} {start : Nat}
    (hkeys : Assoc.keys entries = (List.range start).map toString)
    {names : List String}
    (h : Gains entries (itemLeaves start (names.map Value.text)) result) :
    Gains entries (names.map fun name => ⟨[""], name⟩) result := by
  induction names generalizing entries start with
  | nil =>
      rw [List.map_nil, itemLeaves] at h
      exact h
  | cons name rest ih =>
      rw [List.map_cons, itemLeaves, leaves] at h
      rcases h.of_cons with ⟨next, hstep, hothers⟩
      have hnext := keys_of_assign hkeys (hstep "" "")
      refine Gains.cons (fun key root => ?_) (ih hnext hothers)
      exact (assign_empty hkeys key root name).trans (hstep key root)

theorem below_appended (hname : Key.isName name = true) (texts : List String) :
    below name ((texts.map fun text => (name ++ "[]", text)).map ofItem) =
      texts.map fun text => ⟨[""], text⟩ := by
  have hjoin : Key.join [name, ""] = name ++ "[]" := by
    rw [← String.toList_inj, String.toList_append]
    simp [Key.join, Key.joinChars]
  have hplain : ∀ segment ∈ [""], Key.IsPlain segment.toList := by
    intro segment hsegment
    rw [List.mem_singleton.mp hsegment]
    exact fun c hc => absurd hc List.not_mem_nil
  have hsplit : Key.split (name ++ "[]") = [name, ""] := hjoin ▸ Key.split_join hname hplain
  unfold below
  rw [List.map_map, List.filterMap_map, List.filterMap_eq_map_iff_forall_eq_some]
  intro text _
  unfold Function.comp below? ofItem
  rw [hsplit]
  exact if_pos rfl

theorem foldsTo_of_appended
    (hname : Key.isName name = true) {names : List String}
    (hnames : Bracketable (.ofTexts names)) :
    FoldsTo name (names.map fun text => (name ++ "[]", text)) (some (.ofTexts names)) := by
  have hne := ne_nil_of_bracketable hnames
  rcases gathers_of_bracketable hnames (fun _ h => nomatch h) _ (List.Perm.refl _) with
    ⟨trees, result, hgains, hfold, _, horder⟩
  rw [horder rfl] at hfold
  rw [Value.ofTexts, leaves] at hgains
  have happended : Gains [] (names.map fun text => ⟨[""], text⟩) trees := gains_appended rfl hgains
  have hpath : ∀ leaf ∈ names.map fun text => (⟨[""], text⟩ : Leaf), leaf.path ≠ [] := by
    intro leaf hleaf
    rcases List.mem_map.mp hleaf with ⟨text, _, rfl⟩
    exact List.cons_ne_nil _ _
  have hgrows := Grows.of_gains_nil (by simpa using hne) happended hpath
  rw [← below_appended hname] at hgrows
  exact FoldsTo.of_grows hgrows hfold

/-- A list of names in any encoding is read as the list itself. -/
theorem foldsTo_of_names
    (hname : Key.isName name = true) (hdigit : Text.isDigitText name = false)
    {names : List String} (hnames : Bracketable (.ofTexts names))
    (h : EncodesNames name names items) :
    ∃ raw, FoldsTo name items (some raw) ∧
      ∀ parameter, nameList parameter raw = .ok (some names) := by
  have hne := ne_nil_of_bracketable hnames
  cases h with
  | value encodes =>
      rcases foldsTo_of_value hname hdigit hnames rfl encodes with ⟨raw, hfolds, hread⟩
      exact ⟨raw, hfolds, fun parameter => nameList_of_readJson (hread (.notJson parameter))⟩
  | repeated listable => exact foldsTo_of_repeated hname hne listable
  | commas listable =>
      exact ⟨.text (",".intercalate names), foldsTo_of_text hname _,
        nameList_of_text hne listable⟩
  | appended =>
      exact ⟨.ofTexts names, foldsTo_of_appended hname hnames,
        fun parameter => nameList_of_readJson rfl⟩

end Params
end RecordApi
