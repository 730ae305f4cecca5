import RecordApi.Proofs.Query.Building
import RecordApi.Proofs.Storage.Filtering
import RecordApi.Proofs.Storage.Loading
import RecordApi.Proofs.Storage.Recalling
import RecordApi.Proofs.Storage.Selecting
import RecordApi.Sample.Bands

/-!
# Required relations

A query may demand that a row has a related row on which the filter of an inclusion holds.
The demand is checked apart from the nesting of related rows, and both agree: a row meets the
demand exactly when what is nested in it is not empty.
-/

namespace RecordApi

open Steps Storage

/-! ## Demands -/

namespace Existence

/-- A demand as it is checked on rows. -/
def prepared (e : Existence Value) : Existence Cell :=
  ⟨e.relation, e.target, e.clause.simplified.bound⟩

/-- A row has a related row on which the clause holds. -/
def IsMet (db : Database) (owner : Model) (e : Existence Cell) (parent : Row) : Prop :=
  ∃ child ∈ db.rows e.target,
    e.relation.join.multiplicity db owner e.target parent child ≠ 0 ∧
      e.clause.holds? child = some true

theorem holdsFrom?_iff
    {db : Database} {owner : Model} {e : Existence Cell} {parent : Row} {rows : List Row}
    {met : Bool}
    (h : e.holdsFrom? db owner parent rows = some met) :
    met = true ↔ ∃ child ∈ rows,
      e.relation.join.multiplicity db owner e.target parent child ≠ 0 ∧
        e.clause.holds? child = some true := by
  induction rows with
  | nil =>
      cases h
      simp
  | cons child rest ih =>
      unfold holdsFrom? at h
      rw [List.exists_mem_cons_iff]
      split at h
      · rename_i hzero
        rw [ih h]
        constructor
        · exact Or.inr
        · rintro (⟨hrelated, _⟩ | hlater)
          · exact absurd hzero hrelated
          · exact hlater
      · rename_i hrelated
        split at h
        · rename_i hfails
          rw [ih h]
          constructor
          · exact Or.inr
          · rintro (⟨_, hholds⟩ | hlater)
            · rw [hfails] at hholds
              cases hholds
            · exact hlater
        · rename_i hdecided
          constructor
          · intro hmet
            rw [hmet] at h
            exact Or.inl ⟨hrelated, h⟩
          · intro _
            cases met with
            | true => rfl
            | false => exact absurd h hdecided

theorem isMet_iff
    {db : Database} {owner : Model} {e : Existence Cell} {parent : Row} {met : Bool}
    (h : e.holds? db owner parent = some met) :
    met = true ↔ e.IsMet db owner parent :=
  holdsFrom?_iff h

end Existence

namespace Selection

variable {db : Database} {model : Model} {row : Row}

/-- By induction on the demands: the first that is not met decides. -/
theorem allRequired?_iff
    {required : List (Existence Cell)} {met : Bool}
    (h : allRequired? db model row required = some met) :
    met = true ↔ ∀ e ∈ required, e.IsMet db model row := by
  induction required with
  | nil =>
      cases h
      simp
  | cons e rest ih =>
      unfold allRequired? at h
      rw [List.forall_mem_cons]
      split at h
      · rename_i hholds
        rw [ih h]
        have hmet := (Existence.isMet_iff hholds).mp rfl
        constructor
        · exact fun hrest => ⟨hmet, hrest⟩
        · exact fun hboth => hboth.2
      · rename_i hdecided
        cases met with
        | true => exact absurd h hdecided
        | false =>
            have hnot := Existence.isMet_iff h
            constructor
            · intro hfalse
              cases hfalse
            · exact fun hboth => hnot.mpr hboth.1

/-- Simplifying a selection as a whole keeps what its clause and its demands say apart. -/
theorem selects?_simplified (selection : Selection Value) :
    selection.simplified.bound.selects? db model row =
      match (simplified ⟨selection.clause, []⟩).bound.selects? db model row with
      | some true => allRequired? db model row (selection.required.map Existence.prepared)
      | other => other := by
  rcases selection with ⟨clause?, required⟩
  have hprepared : required.map Existence.prepared =
      (required.map fun e => { e with clause := e.clause.simplified }).map
        fun e => ⟨e.relation, e.target, e.clause.bound⟩ := by
    rw [List.map_map]
    rfl
  dsimp only
  rw [hprepared]
  cases clause? with
  | none => rfl
  | some clause =>
      rw [selects?_of_clause]
      unfold simplified
      dsimp only [Option.map_some]
      split
      · rename_i hnever
        rw [Clause.eq_of_isNever hnever]
        rfl
      · split
        · rename_i halways
          rw [Bool.and_eq_true] at halways
          rw [Clause.eq_of_isAlways halways.1]
          rfl
        · rfl

end Selection

/-! ## What an inclusion shows -/

namespace Relation

/-- A nested value holds a related row. -/
def isShownBy (relation : Relation) : Value → Bool
  | .list items => relation.many && !items.isEmpty
  | .map _ => !relation.many
  | _ => false

end Relation

namespace Store

variable {store : Store} {db : Database}

/-- What is shown of a row has a related row nested for an inclusion: one in the list of a
relation to many rows, or the one of a relation to a single row. -/
def showsRelated (store : Store) (inclusion : Inclusion) (shown : Assoc Value) : Bool :=
  match store.relation inclusion with
  | .ok (relation, _) => (Assoc.get? shown inclusion.relation).any relation.isShownBy
  | .error _ => false

theorem relatedValues_ne_nil_iff
    (store : Store) (db : Database) (inclusion : Inclusion) (relation : Relation)
    (target : Model) (parent : Row) :
    store.relatedValues db inclusion relation target parent ≠ [] ↔
      ∃ owner ∈ store.kin db parent, ∃ child ∈ db.rows target,
        relation.join.multiplicity db store.model target owner child ≠ 0 ∧
          inclusion.admits target child = true := by
  unfold relatedValues
  rw [ne_eq, List.map_eq_nil_iff, List.eq_nil_iff_forall_not_mem]
  simp only [not_forall, not_not, mem_joined_iff, Inclusion.mem_candidates]
  constructor
  · rintro ⟨⟨owner, child⟩, ⟨hchild, hadmits⟩, howner, hrelated⟩
    exact ⟨owner, howner, child, hchild, hrelated, hadmits⟩
  · rintro ⟨owner, howner, child, hchild, hrelated, hadmits⟩
    exact ⟨(owner, child), ⟨hchild, hadmits⟩, howner, hrelated⟩

theorem isShownBy_relatedValue
    {inclusion : Inclusion} {relation : Relation} {target : Model} {parent : Row}
    (hrelation : store.relation inclusion = .ok (relation, target)) :
    relation.isShownBy (store.relatedValue db inclusion parent) = true ↔
      store.relatedValues db inclusion relation target parent ≠ [] := by
  have hmaps : ∀ v ∈ store.relatedValues db inclusion relation target parent,
      ∃ fields, v = .map fields := by
    intro v hv
    rcases List.mem_map.mp hv with ⟨pair, _, rfl⟩
    exact ⟨_, rfl⟩
  unfold relatedValue
  rw [hrelation]
  dsimp only
  cases hmany : relation.many with
  | true => simp [Relation.isShownBy, hmany]
  | false =>
      cases hvalues : store.relatedValues db inclusion relation target parent with
      | nil => simp [Relation.isShownBy]
      | cons v rest =>
          rcases hmaps v (by rw [hvalues]; exact List.mem_cons_self) with ⟨fields, hmap⟩
          simp [Relation.isShownBy, hmap, hmany]

/-- Inclusions that nest one value under a name show this value there. -/
theorem get?_withRelated
    {inclusions : List Inclusion} {parent : Row} {name : String} {v : Value}
    (hvalue : ∀ inclusion ∈ inclusions, inclusion.relation = name →
      store.relatedValue db inclusion parent = v)
    (shown : Assoc Value) :
    Assoc.get? (store.withRelated db inclusions parent shown) name =
      if name ∈ inclusions.map (·.relation) then some v else Assoc.get? shown name := by
  unfold withRelated
  induction inclusions generalizing shown with
  | nil => rfl
  | cons inclusion rest ih =>
      rw [List.foldl_cons, List.map_cons,
        ih fun other hother => hvalue other (List.mem_cons_of_mem _ hother)]
      by_cases hrest : name ∈ rest.map (·.relation)
      · rw [if_pos hrest, if_pos (List.mem_cons_of_mem _ hrest)]
      · rw [if_neg hrest]
        by_cases hname : inclusion.relation = name
        · rw [hname, Assoc.get?_put_self, if_pos List.mem_cons_self,
            hvalue inclusion List.mem_cons_self hname]
        · rw [Assoc.get?_put_of_ne hname, if_neg]
          intro hmem
          cases hmem with
          | head => exact hname rfl
          | tail _ hlater => exact hrest hlater

end Store

/-! ## A query with demands and without -/

namespace Query

def filtered (query : Query) : List Inclusion :=
  (query.inclusions.getD []).filter (·.filter.isSome)

def unpaged (query : Query) : Query :=
  { query with limit := none, offset := none }

end Query

namespace Store

variable {store : Store} {db : Database} {query : Query}

/-- What is shown of a row has a related row for every inclusion with a filter. -/
def showsFiltered (store : Store) (query : Query) (shown : Assoc Value) : Bool :=
  query.filtered.all fun inclusion => store.showsRelated inclusion shown

theorem answer_requiring (store : Store) (db : Database) (query : Query) (row : Row) :
    store.answer db query.requiring row = store.answer db query row := by
  unfold answer withRelated
  rw [Query.inclusions_requiring, List.foldl_map]
  rfl

theorem showsRelated_answer
    {inclusion : Inclusion} {relation : Relation} {target : Model}
    (hquery : query.IsLenient) (hmem : inclusion ∈ query.inclusions.getD [])
    (hrelation : store.relation inclusion = .ok (relation, target)) {row : Row}
    (hkin : store.kin db row = [row]) :
    store.showsRelated inclusion (store.answer db query row) = true ↔
      ∃ child ∈ db.rows target,
        relation.join.multiplicity db store.model target row child ≠ 0 ∧
          inclusion.admits target child = true := by
  have hvalue : Assoc.get? (store.answer db query row) inclusion.relation =
      some (store.relatedValue db inclusion row) := by
    unfold answer
    rw [get?_withRelated, if_pos (List.mem_map_of_mem hmem)]
    intro other hother hname
    rw [hquery.unique other hother inclusion hmem hname]
  unfold showsRelated
  rw [hrelation, hvalue]
  dsimp only [Option.any_some]
  rw [isShownBy_relatedValue hrelation, relatedValues_ne_nil_iff, hkin]
  simp only [List.mem_singleton, exists_eq_left]

theorem filtered_requiring (query : Query) :
    ((query.requiring.inclusions.getD []).filter (·.required)) =
      query.filtered.map fun i => { i with required := i.filter.isSome } := by
  rw [Query.inclusions_requiring, List.filter_map]
  rfl

theorem showsFiltered_requiring (store : Store) (query : Query) (shown : Assoc Value) :
    store.showsFiltered query.requiring shown = store.showsFiltered query shown := by
  unfold showsFiltered Query.filtered
  rw [Query.inclusions_requiring, List.filter_map, List.all_map]
  rfl

/-- The demands of a query are those of its filters, and a row meets them where related rows
are shown for all of these. -/
theorem isMet_iff_showsFiltered
    {selection : Selection Value}
    (hquery : query.IsLenient) (h : Selection.ofQuery store query.requiring = .ok selection)
    {row : Row} (hkin : query.inclusions.getD [] ≠ [] → store.kin db row = [row]) :
    (∀ e ∈ selection.required.map Existence.prepared, e.IsMet db store.model row) ↔
      store.showsFiltered query (store.answer db query row) = true := by
  unfold Selection.ofQuery at h
  rcases bind_eq_ok.mp h with ⟨_, _, h⟩
  rcases bind_eq_ok.mp h with ⟨required, hrequired, h⟩
  rw [← pure_eq_ok.mp h]
  have hpairs := forall₂_of_mapM hrequired
  rw [filtered_requiring, List.forall₂_map_left_iff] at hpairs
  unfold showsFiltered
  rw [List.forall_mem_map, List.all_eq_true]
  refine (forall_iff_of_forall₂ hpairs ?_).symm
  intro i hi e hpair
  rcases List.mem_filter.mp hi with ⟨hmem, hfilter⟩
  rcases bind_eq_ok.mp hpair with ⟨⟨relation, target⟩, hrelation, hpair⟩
  rcases bind_eq_ok.mp hpair with ⟨clause?, hclause, hpair⟩
  have hclause' : Clause.ofPredicate? target i.relation i.filter = .ok clause? := hclause
  rw [showsRelated_answer hquery hmem hrelation (hkin (List.ne_nil_of_mem hmem))]
  unfold Existence.IsMet Existence.prepared Inclusion.admits
  rw [← pure_eq_ok.mp hpair, hclause']
  -- an inclusion with a filter has a clause
  cases clause? with
  | none =>
      rcases Option.isSome_iff_exists.mp hfilter with ⟨p, hp⟩
      rw [hp] at hclause'
      rcases map_eq_ok.mp hclause' with ⟨_, _, hnone⟩
      cases hnone
  | some clause => simp only [beq_iff_eq, Option.getD_some, Inclusion.asked, Option.map_some]

theorem ofQuery_requiring
    {selection : Selection Value}
    (hquery : query.IsLenient) (h : Selection.ofQuery store query.requiring = .ok selection) :
    Selection.ofQuery store query = .ok ⟨selection.clause, []⟩ := by
  unfold Selection.ofQuery at h ⊢
  rcases bind_eq_ok.mp h with ⟨clause?, hclause, h⟩
  rcases bind_eq_ok.mp h with ⟨required, _, h⟩
  have hnone : (query.inclusions.getD []).filter (·.required) = [] := by
    rw [List.filter_eq_nil_iff]
    intro i hi
    rw [hquery.not_required i hi]
    exact Bool.false_ne_true
  have hclause' : Clause.ofPredicate? store.model store.name query.filter = .ok clause? := hclause
  rw [← pure_eq_ok.mp h, hclause', hnone]
  rfl

/-- A row that is selected under the demands shows related rows for all filters. -/
theorem showsFiltered_of_selects?
    {selection : Selection Value} {row : Row}
    (hquery : query.IsLenient) (h : Selection.ofQuery store query.requiring = .ok selection)
    (hkin : query.inclusions.getD [] ≠ [] → store.kin db row = [row])
    (hselected : selection.simplified.bound.selects? db store.model row = some true) :
    store.showsFiltered query (store.answer db query row) = true := by
  rw [Selection.selects?_simplified] at hselected
  split at hselected
  · exact (isMet_iff_showsFiltered hquery h hkin).mp
      ((Selection.allRequired?_iff hselected).mp rfl)
  · rename_i hother
    exact absurd hselected hother

/-- The demands leave exactly those selected rows that show related rows for all filters. -/
theorem filterRows?_requiring
    {selection : Selection Value} {strict lenient : List Row}
    (hquery : query.IsLenient) (h : Selection.ofQuery store query.requiring = .ok selection)
    (hstrict : filterRows? (selection.simplified.bound.selects? db store.model)
      (db.rows store.model) = some strict)
    (hlenient : filterRows? ((Selection.simplified ⟨selection.clause, []⟩).bound.selects? db
      store.model) (db.rows store.model) = some lenient)
    (hkin : ∀ row ∈ lenient, query.inclusions.getD [] ≠ [] → store.kin db row = [row]) :
    strict = lenient.filter fun row =>
      store.showsFiltered query (store.answer db query row) := by
  have hkept := filterRows?_eq_some hlenient
  rw [hkept, List.filter_filter, filterRows?_eq_some hstrict]
  apply List.filter_congr
  intro row hrow
  rcases told_of_filterRows? hstrict row hrow with ⟨met, hmet⟩
  rw [hmet]
  rw [Selection.selects?_simplified] at hmet
  split at hmet
  · rename_i hselected
    have hmem : row ∈ lenient := by
      rw [hkept, List.mem_filter, hselected]
      exact ⟨hrow, rfl⟩
    have hshown := (Selection.allRequired?_iff hmet).trans
      (isMet_iff_showsFiltered hquery h (hkin row hmem))
    rw [hselected, ← Bool.eq_iff_iff.mpr hshown]
    cases met <;> rfl
  · rename_i hother
    rw [hmet]
    cases met with
    | true => exact absurd hmet hother
    | false => simp

/-! ## Lists -/

theorem isLenient_unpaged (h : query.IsLenient) : query.unpaged.IsLenient :=
  ⟨h.not_required, h.unique⟩

theorem slice_unpaged (query : Query) (rows : List Row) :
    slice query.unpaged.limit query.unpaged.offset rows = rows :=
  rfl

/-- Demands change nothing about the keys that are shown. -/
theorem faithful_requiring
    (h : store.Faithful db (query.inclusions.getD [])) :
    store.Faithful db (query.requiring.inclusions.getD []) := by
  rw [Query.inclusions_requiring]
  refine ⟨h.apart, ?_, ?_⟩
  · intro hsome
    exact h.recalls fun hnone => hsome (by rw [hnone, List.map_nil])
  · intro inclusion hmem relation target hrelation
    rcases List.mem_map.mp hmem with ⟨own, hown, rfl⟩
    exact h.related own hown relation target hrelation

/-- Where rows were shown, each of them is its only kin. -/
theorem kin_of_showRows
    {action : Action} {rows : List Row} {shown : List (Assoc Value)}
    (hsingle : store.model.primaryKey.length = 1)
    (hfaithful : store.Faithful db (query.inclusions.getD []))
    (hrows : rows ⊆ db.rows store.model)
    (h : store.showRows db action query rows = .ok shown) :
    ∀ row ∈ rows, query.inclusions.getD [] ≠ [] → store.kin db row = [row] := by
  intro row hrow hsome
  rcases ((showRows_eq_ok_iff hfaithful hrows).mp h).1 row hrow with ⟨own, hown⟩
  exact kin_of_showRow hsingle hfaithful.apart (hfaithful.recalls hsome) (hrows hrow) hown

theorem showsFiltered_of_list
    {listing : Listing}
    (hsingle : store.model.primaryKey.length = 1)
    (hfaithful : store.Faithful db (query.inclusions.getD []))
    (hquery : query.IsLenient) (h : store.list db query.requiring = .ok listing) :
    ∀ shown ∈ listing.rows, store.showsFiltered query shown = true := by
  rcases list_eq_ok_iff.mp h with ⟨_, _, _, hshown, _⟩
  have hrequiring := faithful_requiring hfaithful
  have hpage := slice_selected_subset store db query.requiring
  have hkin := kin_of_showRows hsingle hrequiring hpage hshown
  rw [showRows_eq_ok hrequiring hpage hshown]
  intro shown hmem
  rcases List.mem_map.mp hmem with ⟨row, hrow, hown⟩
  rcases (mem_selected.mp (mem_of_mem_slice hrow)).2 with ⟨selection, hselection, hselected⟩
  rw [← hown, answer_requiring]
  refine showsFiltered_of_selects? hquery hselection ?_ hselected
  intro hsome
  apply hkin row hrow
  rw [Query.inclusions_requiring]
  simpa using hsome

/-- Without paging the demands leave those rows that show related rows for all of them. -/
theorem rows_requiring
    {listing all : Listing}
    (hsingle : store.model.primaryKey.length = 1)
    (hfaithful : store.Faithful db (query.inclusions.getD []))
    (hquery : query.IsLenient)
    (hlisting : store.list db query.unpaged.requiring = .ok listing)
    (hall : store.list db query.unpaged = .ok all) :
    listing.rows = all.rows.filter (store.showsFiltered query) ∧
      listing.count = listing.rows.length := by
  rcases list_eq_ok_iff.mp hlisting with ⟨⟨selection, keys, hruns⟩, _, _, hshown, hcount⟩
  rcases list_eq_ok_iff.mp hall with ⟨⟨selection', keys', hruns'⟩, _, _, hshown', _⟩
  have hlenient := hruns'.filterRows?_eq
  have hselection := hruns'.rendered
  rw [ofQuery_requiring (isLenient_unpaged hquery) hruns.rendered] at hselection
  cases hselection
  have hsame : keys = keys' := Except.ok.inj (hruns.ordered.symm.trans hruns'.ordered)
  have hunpaged : ∀ rows, slice query.unpaged.requiring.limit query.unpaged.requiring.offset rows =
      rows := slice_unpaged query
  rw [hunpaged] at hshown
  rw [slice_unpaged] at hshown'
  have hrows : listing.rows = (store.selected db query.unpaged.requiring).map
      (store.answer db query.unpaged.requiring) :=
    showRows_eq_ok (faithful_requiring hfaithful) (selected_subset _ _ _) hshown
  have hrows' := showRows_eq_ok hfaithful (selected_subset _ _ _) hshown'
  have hkin := kin_of_showRows hsingle hfaithful (selected_subset _ _ _) hshown'
  have hkept := filterRows?_requiring (isLenient_unpaged hquery) hruns.rendered
    hruns.filterRows?_eq hlenient fun row hrow => by
      refine hkin row ?_
      rw [selected_of_ok hruns'.rendered hruns'.ordered]
      exact (perm_sortRows _ _).mem_iff.mpr hrow
  rw [funext (answer_requiring store db query.unpaged)] at hrows
  constructor
  · rw [hrows, hrows', List.filter_map, selected_of_ok hruns.rendered hruns.ordered,
      selected_of_ok hruns'.rendered hruns'.ordered, hkept, ← hsame, ← filter_sortRows]
    rfl
  · rw [hcount, hrows, List.length_map]

end Store

namespace Sample

/-- Posts with their labels and comments, of which a label and the likes are filtered. -/
def likedPosts : RequestQuery where
  relations := some ["comments", "labels", "author"]
  relationFilters := some [("comments", .map [("likes", .map [("gte", .int 1)])]),
    ("labels", .map [("code", .map [("eq", .text "a")])])]

def postStore : Store :=
  ⟨schema, registry, "posts", posts⟩

theorem faithful_posts (inclusions : List Inclusion) :
    postStore.Faithful database inclusions :=
  faithful_of_words rfl rfl rfl inclusions

def builder (store : Store) : QueryBuilder where
  registry := store.registry

/-- A list without paging, with demands or without. -/
def listed? (store : Store) (db : Database) (request : RequestQuery) (requireFiltered : Bool) :
    Option (Query × Page × Listing) := do
  let (query, page) ←
    ({ builder store with requireFiltered := requireFiltered }.forList request {}).toOption
  return (query, page, ← (store.list db query.unpaged).toOption)

/-- Bands with their offers, which are filtered. -/
def offeredBands : RequestQuery where
  relations := some ["offers"]
  relationFilters := some [("offers", .map [("id", .map [("gte", .int 1)])])]

/-- Posts with their authors; the comments are filtered but not asked for. -/
def authoredPosts : RequestQuery where
  relations := some ["author"]
  relationFilters := some [("comments", .map [("likes", .map [("gt", .int 5)])])]

end Sample
end RecordApi
