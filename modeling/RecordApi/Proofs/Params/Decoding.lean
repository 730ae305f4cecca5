import RecordApi.Proofs.Params.Encodings

/-!
# Encodings that agree

A request is decoded to what it says, whichever encoding each of its parameters is given in
and whatever items of other parameters stand in between.
-/

namespace RecordApi
namespace Params

open Steps Leaf Value

variable {items : List (String × String)}

/-! ## Parameters that may be left out -/

theorem FoldsTo.of_itemsOf
    {name : String} {value? : Option Value} (h : FoldsTo name (itemsOf name items) value?) :
    FoldsTo name items value? := by
  unfold FoldsTo at h ⊢
  rwa [below_itemsOf]

theorem foldsTo_none {name : String} (h : itemsOf name items = []) : FoldsTo name items none := by
  apply FoldsTo.of_itemsOf
  rw [h]
  exact ⟨none, Grows.nil none, rfl⟩

theorem foldsTo_of_gives_text
    {name : String} (hname : Key.isName name = true) {text? : Option String}
    (h : Gives (fun text items => items = [(name, text)]) text? (itemsOf name items)) :
    FoldsTo name items (text?.map Value.text) := by
  cases text? with
  | none => exact foldsTo_none h
  | some text =>
      apply FoldsTo.of_itemsOf
      rw [show itemsOf name items = [(name, text)] from h]
      exact foldsTo_of_text hname text

theorem foldsTo_of_gives_value
    {α : Type} {toValue : α → Value} (hnested : ∀ a, (toValue a).isNested = true)
    {name : String} (hname : Key.isName name = true) (hdigit : Text.isDigitText name = false)
    {given : Option α} (hgiven : ∀ a ∈ given, Bracketable (toValue a))
    (h : Gives (fun a => EncodesValue name (toValue a)) given (itemsOf name items)) :
    ∃ raw?, FoldsTo name items raw? ∧
      ∀ malformed, readJson malformed (raw?.getD .null) = .ok (Value.ofOption toValue given) := by
  cases given with
  | none => exact ⟨none, foldsTo_none h, fun _ => rfl⟩
  | some a =>
      rcases foldsTo_of_value hname hdigit (hgiven a rfl) (hnested a) h with ⟨raw, hfolds, hread⟩
      exact ⟨some raw, hfolds.of_itemsOf, hread⟩

theorem foldsTo_of_gives_names
    {name : String} (hname : Key.isName name = true) (hdigit : Text.isDigitText name = false)
    {given : Option (List String)} (hgiven : ∀ names ∈ given, Bracketable (.ofTexts names))
    (h : Gives (EncodesNames name) given (itemsOf name items)) :
    ∃ raw?, FoldsTo name items raw? ∧
      ∀ parameter, nameList parameter (raw?.getD .null) = .ok given := by
  cases given with
  | none => exact ⟨none, foldsTo_none h, fun _ => rfl⟩
  | some names =>
      rcases foldsTo_of_names hname hdigit (hgiven names rfl) h with ⟨raw, hfolds, hread⟩
      exact ⟨some raw, hfolds.of_itemsOf, hread⟩

/-! ## Readers of parameters -/

theorem lastOf_getD (text? : Option String) :
    lastOf ((text?.map Value.text).getD .null) = Value.ofOption Value.text text? := by
  cases text? <;> rfl

theorem byRelation_of_readJson
    {α : Type} {entriesOf : α → Assoc Value} {given : Option α} {parameter : String} {raw : Value}
    (h : readJson (.notJson parameter) raw =
      .ok (Value.ofOption (fun a => Value.map (entriesOf a)) given)) :
    byRelation parameter raw = .ok (given.map entriesOf) := by
  unfold byRelation
  rw [h]
  cases given <;> rfl

theorem readEntries_mapValues
    {α β : Type} {read : String → Value → Except Error β} {toValue : α → Value} {result : α → β}
    (h : ∀ name a, read name (toValue a) = .ok (result a)) (entries : Assoc α) :
    readEntries read (Assoc.mapValues toValue entries) =
      .ok (Assoc.mapValues result entries) := by
  induction entries with
  | nil => rfl
  | cons entry rest ih =>
      have hfirst := h entry.1 entry.2
      simp only [Assoc.mapValues, List.map_cons, readEntries] at ih ⊢
      rw [hfirst, ih]
      rfl

theorem readEntries?_map
    {α β : Type} {read : String → Value → Except Error β} {toValue : α → Value} {result : α → β}
    (h : ∀ name a, read name (toValue a) = .ok (result a)) (given : Option (Assoc α)) :
    readEntries? read (given.map (Assoc.mapValues toValue)) =
      .ok (given.map (Assoc.mapValues result)) := by
  cases given with
  | none => rfl
  | some entries =>
      simp only [Option.map_some, readEntries?]
      rw [readEntries_mapValues h]
      rfl

theorem readEntries?_names (given : Option (Assoc (List String))) :
    readEntries? (fun name value => (nameList s!"relationFields[{name}]" value).map (·.getD []))
      (given.map (Assoc.mapValues Value.ofTexts)) = .ok given := by
  have hread : ∀ (name : String) (names : List String),
      (nameList s!"relationFields[{name}]" (.ofTexts names)).map (·.getD []) = .ok names := by
    intro name names
    have hnames : nameList s!"relationFields[{name}]" (.ofTexts names) = .ok (some names) :=
      nameList_of_readJson rfl
    rw [hnames]
    rfl
  have hsame : Assoc.mapValues (fun names : List String => names) = id :=
    funext fun entries => List.map_id entries
  rw [readEntries?_map hread, hsame, Option.map_id]
  rfl

theorem map_lastOf_texts (given : Option (Assoc String)) :
    (given.map (Assoc.mapValues Value.text)).map (Assoc.mapValues lastOf) =
      given.map (Assoc.mapValues Value.text) := by
  cases given with
  | none => rfl
  | some entries =>
      have htexts : Assoc.mapValues lastOf (Assoc.mapValues Value.text entries) =
          Assoc.mapValues Value.text entries := List.map_map
      exact congrArg some htexts

/-! ## Whole requests -/

theorem isName_of_parameter :
    ∀ name ∈ Contents.parameters, Key.isName name = true ∧ Text.isDigitText name = false := by
  decide

theorem root_of_known
    (hknown : ∀ item ∈ items, rootOf item ∈ Contents.parameters) :
    ∀ item ∈ items, ∃ name rest, Key.split item.1 = name :: rest ∧
      name ≠ "" ∧ Text.isDigitText name = false := by
  intro item hitem
  have hroot := isName_of_parameter _ (hknown item hitem)
  unfold rootOf at hroot
  cases hsplit : Key.split item.1 with
  | nil =>
      rw [hsplit] at hroot
      exact absurd rfl (Key.ne_empty_of_isName hroot.1)
  | cons name rest =>
      rw [hsplit] at hroot
      exact ⟨name, rest, rfl, Key.ne_empty_of_isName hroot.1, hroot.2⟩

theorem itemsOf_eq_nil
    (hknown : ∀ item ∈ items, rootOf item ∈ Contents.parameters)
    {name : String} (hname : name ∉ Contents.parameters) : itemsOf name items = [] := by
  unfold itemsOf
  rw [List.filter_eq_nil_iff]
  intro item hitem hroot
  rw [beq_iff_eq] at hroot
  exact hname (hroot ▸ hknown item hitem)

def valueAt (values : Assoc Value) (parameter : String) : Value :=
  (values.get? parameter).getD .null

/-- Some entries are read as what a request says. -/
structure Tells (values : Assoc Value) (contents : Contents) : Prop where
  filters : ∀ malformed, readJson malformed (valueAt values "filters") =
    .ok (Value.ofOption Value.map contents.filters)
  sort : lastOf (valueAt values "sort") = Value.ofOption Value.text contents.sort
  page : lastOf (valueAt values "page") = Value.ofOption Value.text contents.page
  pageSize : lastOf (valueAt values "pageSize") = Value.ofOption Value.text contents.pageSize
  fields : ∀ parameter, nameList parameter (valueAt values "fields") = .ok contents.fields
  relations : ∀ parameter, nameList parameter (valueAt values "relations") = .ok contents.relations
  relationFields : ∀ malformed, readJson malformed (valueAt values "relationFields") =
    .ok (Value.ofOption Contents.relationFieldsValue contents.relationFields)
  relationFilters : ∀ malformed, readJson malformed (valueAt values "relationFilters") =
    .ok (Value.ofOption Contents.relationFiltersValue contents.relationFilters)
  relationSort : ∀ malformed, readJson malformed (valueAt values "relationSort") =
    .ok (Value.ofOption Contents.relationSortValue contents.relationSort)

theorem ofEntries_of_tells
    {values : Assoc Value} {contents : Contents} (h : Tells values contents) :
    ofEntries values = .ok contents.query := by
  have hrelationFields := byRelation_of_readJson (h.relationFields (.notJson "relationFields"))
  have hrelationFilters := byRelation_of_readJson (h.relationFilters (.notJson "relationFilters"))
  have hrelationSort := byRelation_of_readJson (h.relationSort (.notJson "relationSort"))
  have hat : ∀ parameter, (Assoc.get? values parameter).getD .null = valueAt values parameter :=
    fun _ => rfl
  unfold ofEntries
  simp only [hat, hrelationFields, hrelationFilters, hrelationSort, h.filters, h.fields,
    h.relations, h.sort, h.page, h.pageSize, map_lastOf_texts, bind, Except.bind]
  rw [readEntries?_names, readEntries?_map fun _ _ => readJson_of_nested rfl _]
  rfl

/-! ## A filter alone -/

theorem fold_single
    {name : String} (hname : Key.isName name = true) (hdigit : Text.isDigitText name = false)
    (text : String) :
    fold [(name, text)] = .ok (.map [(name, .text text)]) := by
  have hempty : name.isEmpty = false := by
    simpa using Key.ne_empty_of_isName hname
  have hassign : assignItem [] (name, text) = .ok [(name, .plain text)] := by
    unfold assignItem
    dsimp only
    rw [split_name hname, assign, resolveSegment, hempty]
    rfl
  have hmap : foldMap [(name, .text text)] = .ok (.map [(name, .text text)]) :=
    foldMap_of_nondigit List.mem_cons_self hdigit
  unfold fold
  rw [List.foldlM_cons, hassign]
  exact hmap

/-- A request with a filter in JSON asks for what the filter says and for nothing else. -/
theorem decode_filters
    {text : String} {filters : Assoc Value}
    (hread : Json.read text.toList = .ok (.map filters)) :
    decode [("filters", text)] = .ok { filters := .map filters } := by
  have hnone : ∀ name, name ≠ "filters" → valueAt [("filters", .text text)] name = .null := by
    intro name hne
    unfold valueAt
    rw [Assoc.get?_cons, if_neg hne.symm]
    rfl
  have htells : Tells [("filters", .text text)] { filters := some filters } := {
    filters := readJson_of_read hread rfl
    sort := by rw [hnone _ (by decide)]; rfl
    page := by rw [hnone _ (by decide)]; rfl
    pageSize := by rw [hnone _ (by decide)]; rfl
    fields := fun _ => by rw [hnone _ (by decide)]; rfl
    relations := fun _ => by rw [hnone _ (by decide)]; rfl
    relationFields := fun _ => by rw [hnone _ (by decide)]; rfl
    relationFilters := fun _ => by rw [hnone _ (by decide)]; rfl
    relationSort := fun _ => by rw [hnone _ (by decide)]; rfl }
  unfold decode
  rw [fold_single (by decide) (by decide)]
  exact ofEntries_of_tells htells

theorem exists_tells
    {contents : Contents} (htellable : contents.Tellable) (hitems : contents.EncodedBy items) :
    ∃ values, fold items = .ok (.map values) ∧ Tells values contents := by
  rcases foldsTo_of_gives_value (fun _ => rfl) (by decide) (by decide) htellable.filters
    hitems.filters with ⟨filters?, hfilters, hreadFilters⟩
  rcases foldsTo_of_gives_value (fun _ => rfl) (by decide) (by decide) htellable.relationFields
    hitems.relationFields with ⟨relationFields?, hrelationFields, hreadRelationFields⟩
  rcases foldsTo_of_gives_value (fun _ => rfl) (by decide) (by decide) htellable.relationFilters
    hitems.relationFilters with ⟨relationFilters?, hrelationFilters, hreadRelationFilters⟩
  rcases foldsTo_of_gives_value (fun _ => rfl) (by decide) (by decide) htellable.relationSort
    hitems.relationSort with ⟨relationSort?, hrelationSort, hreadRelationSort⟩
  rcases foldsTo_of_gives_names (by decide) (by decide) htellable.fields
    hitems.fields with ⟨fields?, hfields, hreadFields⟩
  rcases foldsTo_of_gives_names (by decide) (by decide) htellable.relations
    hitems.relations with ⟨relations?, hrelations, hreadRelations⟩
  have hsort := foldsTo_of_gives_text (by decide) hitems.sort
  have hpage := foldsTo_of_gives_text (by decide) hitems.page
  have hpageSize := foldsTo_of_gives_text (by decide) hitems.pageSize
  -- a name that is no parameter has no items
  have hfolds : ∀ name, ∃ value?, FoldsTo name items value? := by
    intro name
    by_cases hname : name ∈ Contents.parameters
    · simp only [Contents.parameters, List.mem_cons, List.not_mem_nil, or_false] at hname
      rcases hname with rfl | rfl | rfl | rfl | rfl | rfl | rfl | rfl | rfl
      · exact ⟨_, hfilters⟩
      · exact ⟨_, hsort⟩
      · exact ⟨_, hpage⟩
      · exact ⟨_, hpageSize⟩
      · exact ⟨_, hfields⟩
      · exact ⟨_, hrelations⟩
      · exact ⟨_, hrelationFields⟩
      · exact ⟨_, hrelationFilters⟩
      · exact ⟨_, hrelationSort⟩
    · exact ⟨none, foldsTo_none (itemsOf_eq_nil hitems.known hname)⟩
  rcases exists_fold (root_of_known hitems.known) hfolds with ⟨values, hvalues, hget⟩
  have hat : ∀ {name value?}, FoldsTo name items value? →
      valueAt values name = value?.getD .null :=
    fun h => congrArg (fun value? => value?.getD Value.null) (hget _ _ h)
  exact ⟨values, hvalues, {
    filters := by rwa [hat hfilters]
    sort := by rw [hat hsort, lastOf_getD]
    page := by rw [hat hpage, lastOf_getD]
    pageSize := by rw [hat hpageSize, lastOf_getD]
    fields := by rwa [hat hfields]
    relations := by rwa [hat hrelations]
    relationFields := by rwa [hat hrelationFields]
    relationFilters := by rwa [hat hrelationFilters]
    relationSort := by rwa [hat hrelationSort] }⟩

/-- Whatever encodings its parameters are given in, a request asks for the same query. -/
theorem decode_of_encoded
    {contents : Contents} (htellable : contents.Tellable) (hitems : contents.EncodedBy items) :
    decode items = .ok contents.query := by
  rcases exists_tells htellable hitems with ⟨values, hvalues, htells⟩
  unfold decode
  rw [hvalues]
  exact ofEntries_of_tells htells

end Params

namespace Sample

open Value

/-- Whoever is called Ann, with the titles of some posts. -/
def annsPosts : Params.Contents where
  filters := some [("name", .map [("eq", .text "Ann")])]
  sort := some "-name"
  fields := some ["id", "name"]
  relations := some ["posts"]
  relationFields := some [("posts", ["title"])]
  relationFilters := some [("posts", [("title", .map [("startsWith", .text "A")])])]
  relationSort := some [("posts", "-id")]

/-- The same in several encodings, with the items of different parameters mixed up. -/
def annsPostsItems : List (String × String) :=
  [("fields[]", "id"), ("filters", " \x7b\"name\": \x7b\"eq\": \"Ann\"\x7d\x7d\n"),
    ("relations", "posts"), ("fields[]", "name"), ("relationFields[posts][0]", "title"),
    ("sort", "-name"), ("relationSort", "\x7b\"posts\":\"-id\"\x7d"),
    ("relationFilters[posts][title][startsWith]", "A")]

theorem tellable_annsPosts : annsPosts.Tellable where
  filters := by
    rintro _ ⟨⟩
    exact bracketable_single (by decide) (by decide)
      (bracketable_single (by decide) (by decide) (Bracketable.text _))
  fields := by
    rintro _ ⟨⟩
    exact bracketable_ofTexts (List.cons_ne_nil _ _) (by decide)
  relations := by
    rintro _ ⟨⟩
    exact bracketable_ofTexts (List.cons_ne_nil _ _) (by decide)
  relationFields := by
    rintro _ ⟨⟩
    exact bracketable_single (by decide) (by decide)
      (bracketable_ofTexts (List.cons_ne_nil _ _) (by decide))
  relationFilters := by
    rintro _ ⟨⟩
    exact bracketable_single (by decide) (by decide) (bracketable_single (by decide) (by decide)
      (bracketable_single (by decide) (by decide) (Bracketable.text _)))
  relationSort := by
    rintro _ ⟨⟩
    exact bracketable_single (by decide) (by decide) (Bracketable.text _)

theorem read_annsPosts :
    Json.read " \x7b\"name\": \x7b\"eq\": \"Ann\"\x7d\x7d\n".toList =
        .ok (.map [("name", .map [("eq", .text "Ann")])]) ∧
      Json.read "\x7b\"posts\":\"-id\"\x7d".toList = .ok (.map [("posts", .text "-id")]) := by
  constructor <;>
    simp [Json.read, Json.value, Json.members, Json.skipBlanks, Json.isBlank, Json.stringRest?,
      Json.character?, Json.unitCharacter?, Json.unit?, Json.letter?, Assoc.ofPairs,
      Assoc.put, bind, Except.bind, Except.map, pure, Except.pure]

theorem encodedBy_annsPosts : annsPosts.EncodedBy annsPostsItems where
  known := by decide
  filters := Params.EncodesValue.json read_annsPosts.1
  sort := rfl
  page := rfl
  pageSize := rfl
  fields := Params.EncodesNames.appended
  relations := Params.EncodesNames.repeated (by decide)
  relationFields := Params.EncodesValue.brackets
  relationFilters := Params.EncodesValue.brackets
  relationSort := Params.EncodesValue.json read_annsPosts.2

theorem decode_of_encoded_annsPosts :
    annsPosts.Tellable ∧ annsPosts.EncodedBy annsPostsItems ∧
      Params.decode annsPostsItems = .ok annsPosts.query :=
  ⟨tellable_annsPosts, encodedBy_annsPosts,
    Params.decode_of_encoded tellable_annsPosts encodedBy_annsPosts⟩

end Sample
end RecordApi
