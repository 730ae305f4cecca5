import RecordApi.Proofs.Storage.Nesting

/-!
# The rows that a query selects

A query selects rows of its table and puts them in order.  A list shows a slice of these rows,
a look-up shows the first of them, and both show the same of one row.
-/

namespace RecordApi

open Steps

namespace Store

open Storage

variable {store : Store} {db : Database} {query : Query}

def sortKeys (store : Store) (query : Query) : List SortKey :=
  (SortKey.ofOrder store.model store.name query.order).toOption.getD []

def selects (store : Store) (db : Database) (query : Query) (row : Row) : Bool :=
  match Selection.ofQuery store query with
  | .ok selection => selection.simplified.bound.selects? db store.model row == some true
  | .error _ => false

/-- The rows that a query selects, in its order and without its slice. -/
def selected (store : Store) (db : Database) (query : Query) : List Row :=
  sortRows (store.sortKeys query) ((db.rows store.model).filter (store.selects db query))

theorem selects_iff {row : Row} : store.selects db query row = true ↔ store.Selects db query row := by
  unfold selects Selects
  cases Selection.ofQuery store query with
  | error e => simp
  | ok selection => simp

theorem perm_selected (store : Store) (db : Database) (query : Query) :
    (store.selected db query).Perm ((db.rows store.model).filter (store.selects db query)) :=
  perm_sortRows _ _

theorem mem_selected {row : Row} :
    row ∈ store.selected db query ↔ row ∈ db.rows store.model ∧ store.Selects db query row := by
  rw [(perm_selected store db query).mem_iff, List.mem_filter, selects_iff]

theorem selected_subset (store : Store) (db : Database) (query : Query) :
    store.selected db query ⊆ db.rows store.model :=
  fun _ hrow => (mem_selected.mp hrow).1

theorem mem_of_mem_slice
    {limit offset : Option Int} {rows : List Row} {row : Row}
    (h : row ∈ slice limit offset rows) :
    row ∈ rows := by
  unfold slice at h
  dsimp only at h
  split at h
  · split at h
    · exact List.mem_of_mem_drop h
    · exact List.mem_of_mem_drop (List.mem_of_mem_take h)
  · exact List.mem_of_mem_drop h

/-- The rows of a page are rows of the table. -/
theorem slice_selected_subset (store : Store) (db : Database) (query : Query) :
    slice query.limit query.offset (store.selected db query) ⊆ db.rows store.model :=
  fun _ hrow => selected_subset store db query (mem_of_mem_slice hrow)

theorem selected_of_ok
    {selection : Selection Value} {keys : List SortKey}
    (hselection : Selection.ofQuery store query = .ok selection)
    (hkeys : SortKey.ofOrder store.model store.name query.order = .ok keys) :
    store.selected db query = sortRows keys ((db.rows store.model).filter fun row =>
      selection.simplified.bound.selects? db store.model row == some true) := by
  unfold selected sortKeys selects
  rw [hselection, hkeys]
  rfl

/-- A query is understood, and every row of its table can be told. -/
structure Runs (store : Store) (db : Database) (query : Query) (selection : Selection Value)
    (keys : List SortKey) : Prop where
  rendered : Selection.ofQuery store query = .ok selection
  projected : checkFields store.model store.name query.attributes = .ok ()
  ordered : SortKey.ofOrder store.model store.name query.order = .ok keys
  prepared : selection.simplified.hasQuantifier = false ∧
    Binding.firstError? selection.simplified.bindings = none
  told : ∀ row ∈ db.rows store.model,
    ∃ selected, selection.simplified.bound.selects? db store.model row = some selected

variable {selection : Selection Value} {keys : List SortKey}

theorem Runs.filterRows?_eq
    (h : store.Runs db query selection keys) :
    filterRows? (selection.simplified.bound.selects? db store.model) (db.rows store.model) =
      some ((db.rows store.model).filter fun row =>
        selection.simplified.bound.selects? db store.model row == some true) :=
  filterRows?_of_told h.told

/-! ## Lists -/

/-- A list succeeds exactly when its query runs, its bounds are words and its page can be shown;
it shows a slice of the selected rows and counts all of them. -/
theorem list_eq_ok_iff
    {listing : Listing} :
    store.list db query = .ok listing ↔
      (∃ selection keys, store.Runs db query selection keys) ∧
      checkBound query.limit = .ok () ∧ checkBound query.offset = .ok () ∧
      store.showRows db .list query (slice query.limit query.offset (store.selected db query)) =
        .ok listing.rows ∧
      listing.count = (store.selected db query).length := by
  constructor
  · intro h
    unfold list at h
    rcases bind_eq_ok.mp h with ⟨selection, hselection, h⟩
    rcases bind_eq_ok.mp h with ⟨_, hfields, h⟩
    rcases bind_eq_ok.mp h with ⟨keys, hkeys, h⟩
    rw [mapError_eq_ok] at h
    rcases bind_eq_ok.mp h with ⟨_, hprepare, h⟩
    rcases bind_eq_ok.mp h with ⟨rows, hrows, h⟩
    rcases bind_eq_ok.mp h with ⟨_, hlimit, h⟩
    rcases bind_eq_ok.mp h with ⟨_, hoffset, h⟩
    rcases bind_eq_ok.mp h with ⟨shown, hshown, h⟩
    have hfilter := evaluated_eq_ok.mp hrows
    have hselected : store.selected db query = sortRows keys rows := by
      rw [selected_of_ok hselection hkeys, filterRows?_eq_some hfilter]
    refine ⟨⟨selection, keys, hselection, hfields, hkeys, prepare_eq_ok.mp hprepare,
      told_of_filterRows? hfilter⟩, hlimit, hoffset, ?_, ?_⟩
    · rw [hselected, ← pure_eq_ok.mp h]
      exact hshown
    · rw [hselected, ← pure_eq_ok.mp h, (perm_sortRows keys rows).length_eq]
  · rintro ⟨⟨selection, keys, hruns⟩, hlimit, hoffset, hshown, hcount⟩
    rw [selected_of_ok hruns.rendered hruns.ordered] at hshown hcount
    unfold list
    rw [hruns.rendered, hruns.projected, hruns.ordered]
    refine mapError_eq_ok.mpr (bind_eq_ok.mpr ⟨(), prepare_eq_ok.mpr hruns.prepared, ?_⟩)
    refine bind_eq_ok.mpr ⟨_, evaluated_eq_ok.mpr hruns.filterRows?_eq, ?_⟩
    refine bind_eq_ok.mpr ⟨(), hlimit, bind_eq_ok.mpr ⟨(), hoffset, ?_⟩⟩
    refine bind_eq_ok.mpr ⟨listing.rows, hshown, ?_⟩
    rw [(perm_sortRows keys _).length_eq] at hcount
    rw [← hcount]
    rfl

/-! ## Single rows -/

theorem firstRow?_eq_some
    {test : Row → Option Bool} {rows : List Row} {found : Option Row}
    (h : store.firstRow? keys test rows = some found) :
    found = (sortRows keys (rows.filter fun row => test row == some true)).head? := by
  unfold firstRow? at h
  split at h
  · rw [findRow?_eq_head? h, filter_sortRows]
  · rcases Option.map_eq_some_iff.mp h with ⟨kept, hkept, hfound⟩
    rw [← hfound, filterRows?_eq_some hkept]

/-- Where every row can be told, the first of the selected rows is found. -/
theorem firstRow?_of_told
    (store : Store) (keys : List SortKey) {test : Row → Option Bool} {rows : List Row}
    (h : ∀ row ∈ rows, ∃ selected, test row = some selected) :
    store.firstRow? keys test rows =
      some (sortRows keys (rows.filter fun row => test row == some true)).head? := by
  unfold firstRow?
  split
  · rw [findRow?_of_told, filter_sortRows]
    intro row hrow
    exact h row ((perm_sortRows keys rows).mem_iff.mp hrow)
  · rw [filterRows?_of_told h]
    rfl

/-- A look-up shows the first of the selected rows, or finds none. -/
theorem find_eq_selected
    {shown? : Option (Assoc Value)}
    (h : store.find db query = .ok shown?) :
    checkFields store.model store.name query.attributes = .ok () ∧
      ((store.selected db query).head? = none ∧ shown? = none ∨
        ∃ row shown, (store.selected db query).head? = some row ∧ shown? = some shown ∧
          store.showRows db .find query [row] = .ok [shown]) := by
  unfold find at h
  rcases bind_eq_ok.mp h with ⟨_, hfields, h⟩
  rcases bind_eq_ok.mp h with ⟨selection, hselection, h⟩
  rcases bind_eq_ok.mp h with ⟨keys, hkeys, h⟩
  rw [mapError_eq_ok] at h
  rcases bind_eq_ok.mp h with ⟨_, _, h⟩
  rcases bind_eq_ok.mp h with ⟨found, hfound, h⟩
  have hfirst : (store.selected db query).head? = found := by
    rw [selected_of_ok hselection hkeys]
    exact (firstRow?_eq_some (evaluated_eq_ok.mp hfound)).symm
  rw [hfirst]
  refine ⟨hfields, ?_⟩
  cases found with
  | none => exact Or.inl ⟨rfl, (pure_eq_ok.mp h).symm⟩
  | some row =>
      rcases bind_eq_ok.mp h with ⟨answers, hanswers, h⟩
      rcases shows_of_showRows hfields hanswers with ⟨shown, rfl, _⟩
      exact Or.inr ⟨row, shown, rfl, (pure_eq_ok.mp h).symm, hanswers⟩

/-- A query that runs finds the first of the selected rows, if that can be shown. -/
theorem find_of_runs
    {answer : Row → Assoc Value}
    (hruns : store.Runs db query selection keys)
    (hshown : ∀ row ∈ (store.selected db query).head?,
      store.showRows db .find query [row] = .ok [answer row]) :
    store.find db query = .ok ((store.selected db query).head?.map answer) := by
  have hfirst := firstRow?_of_told store keys hruns.told
  rw [← selected_of_ok hruns.rendered hruns.ordered] at hfirst
  unfold find
  rw [hruns.projected, hruns.rendered, hruns.ordered]
  refine mapError_eq_ok.mpr (bind_eq_ok.mpr ⟨(), prepare_eq_ok.mpr hruns.prepared, ?_⟩)
  refine bind_eq_ok.mpr ⟨_, evaluated_eq_ok.mpr hfirst, ?_⟩
  cases hfound : (store.selected db query).head? with
  | none => rfl
  | some row => exact bind_eq_ok.mpr ⟨_, hshown row hfound, rfl⟩

end Store
end RecordApi
