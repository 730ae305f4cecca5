import RecordApi.Proofs.Assoc
import RecordApi.Proofs.Steps
import RecordApi.Storage.Reading

/-!
# What a row shows

A projected row shows for each of its fields what the cell of its column reads as.  Nesting
related rows adds a field under the name of each relation and leaves all other fields.
-/

namespace RecordApi

open Steps

/-! ## Fields put in order -/

namespace Assoc

variable {α : Type}

theorem get?_foldl_put (f : String → α) (key : String) (fields : List String) (acc : Assoc α) :
    get? ((fields.map fun field => (field, f field)).foldl
      (fun entries pair => put pair.1 pair.2 entries) acc) key =
      if key ∈ fields then some (f key) else get? acc key := by
  induction fields generalizing acc with
  | nil => simp
  | cons field rest ih =>
      rw [List.map_cons, List.foldl_cons, ih]
      by_cases hrest : key ∈ rest
      · simp [hrest]
      · by_cases hfield : field = key
        · simp [hfield, get?_put_self]
        · simp [hrest, get?_put_of_ne hfield, Ne.symm hfield]

theorem get?_ofPairs
    (f : String → α) {key : String} {fields : List String}
    (hkey : key ∈ fields) :
    get? (ofPairs (fields.map fun field => (field, f field))) key = some (f key) := by
  unfold ofPairs
  rw [get?_foldl_put]
  exact if_pos hkey

end Assoc

namespace Clause

theorem column_eq_ok
    {model : Model} {name field : String} {column : Column} :
    Clause.column model name field = .ok column ↔ model.column? field = some column := by
  unfold Clause.column
  cases model.column? field with
  | none => simp
  | some found => simp

end Clause

namespace Storage

/-! ## A projection -/

/-- An answer shows some fields of a row, those under other names aside: each is what the
cell of its column reads as. -/
def Shows (model : Model) (fields aside : List String) (row : Row) (shown : Assoc Value) : Prop :=
  ∀ field ∈ fields, field ∉ aside →
    ∃ column v, model.column? field = some column ∧
      Binding.read? column.type (row.cell field) = some v ∧ Assoc.get? shown field = some v

theorem get?_read_columns
    (row : Row) {field : String} {columns : List Column} {column : Column}
    {values : Assoc Value}
    (hvalues : (columns.mapM fun column =>
      (Binding.read? column.type (row.cell column.key)).map fun v => (column.key, v)) =
        some values)
    (hcolumn : columns.find? (fun column => column.key == field) = some column) :
    ∃ v, Binding.read? column.type (row.cell field) = some v ∧
      Assoc.get? values field = some v := by
  induction columns generalizing values with
  | nil => cases hcolumn
  | cons first rest ih =>
      rw [List.mapM_cons] at hvalues
      cases hfirst : Binding.read? first.type (row.cell first.key) with
      | none => simp [hfirst] at hvalues
      | some v =>
          simp only [hfirst, Option.map_some, Option.bind_eq_bind, Option.bind_some,
            Option.bind_eq_some_iff, Option.pure_def, Option.some.injEq] at hvalues
          rcases hvalues with ⟨others, hothers, hcons⟩
          rw [← hcons, Assoc.get?_cons]
          by_cases hkey : first.key = field
          · rw [List.find?_cons_of_pos (by simpa using hkey)] at hcolumn
            cases hcolumn
            rw [← hkey]
            exact ⟨v, hfirst, if_pos rfl⟩
          · rw [List.find?_cons_of_neg (by simpa using hkey)] at hcolumn
            rw [if_neg hkey]
            exact ih hothers hcolumn

/-- A field that was read belongs to a column. -/
theorem exists_column_of_read
    (row : Row) {field : String} {v : Value} {columns : List Column} {values : Assoc Value}
    (hvalues : (columns.mapM fun column =>
      (Binding.read? column.type (row.cell column.key)).map fun v => (column.key, v)) =
        some values)
    (hget : Assoc.get? values field = some v) :
    ∃ column ∈ columns, column.key = field := by
  induction columns generalizing values with
  | nil =>
      cases hvalues
      cases hget
  | cons first rest ih =>
      rw [List.mapM_cons] at hvalues
      simp only [Option.bind_eq_bind, Option.bind_eq_some_iff, Option.map_eq_some_iff,
        Option.pure_def, Option.some.injEq] at hvalues
      rcases hvalues with ⟨_, ⟨w, _, rfl⟩, others, hothers, rfl⟩
      rw [Assoc.get?_cons] at hget
      split at hget
      · exact ⟨first, List.mem_cons_self, ‹_›⟩
      · rcases ih hothers hget with ⟨column, hmem, hkey⟩
        exact ⟨column, List.mem_cons_of_mem first hmem, hkey⟩

theorem column?_of_forM
    {model : Model} {name field : String} {fields : List String}
    (hcheck : (fields.forM fun field =>
      (Clause.column model name field).map fun _ => ()) = .ok ())
    (hfield : field ∈ fields) :
    ∃ column, model.column? field = some column := by
  induction fields with
  | nil => cases hfield
  | cons first rest ih =>
      rcases bind_eq_ok.mp hcheck with ⟨_, hfirst, hrest⟩
      cases hfield with
      | head =>
          rcases map_eq_ok.mp hfirst with ⟨column, hcolumn, _⟩
          exact ⟨column, Clause.column_eq_ok.mp hcolumn⟩
      | tail _ hmem => exact ih hrest hmem

/-- A projection that was checked names columns only. -/
theorem column?_of_checkFields
    {model : Model} {name field : String} {attributes : Option (List String)}
    (hcheck : checkFields model name attributes = .ok ())
    (hfield : field ∈ shownFields model attributes) :
    ∃ column, model.column? field = some column := by
  have hall : field ∈ model.fields → ∃ column, model.column? field = some column := by
    intro hmem
    rcases List.mem_map.mp hmem with ⟨column, hcolumn, hkey⟩
    unfold Model.column?
    rw [← Option.isSome_iff_exists, List.find?_isSome]
    exact ⟨column, hcolumn, by simpa using hkey⟩
  cases attributes with
  | none => exact hall hfield
  | some fields =>
      cases fields with
      | nil => exact hall hfield
      | cons first rest => exact column?_of_forM hcheck hfield

/-- The column of a loaded field is among those that are read. -/
theorem find?_loadedColumns
    {model : Model} {attributes : Option (List String)} {field : String}
    (hfield : model.inKey field = true ∨ field ∈ shownFields model attributes) :
    (loadedColumns model attributes).find? (fun column => column.key == field) =
      model.column? field := by
  unfold loadedColumns
  rw [List.find?_filter]
  have htest : (fun column : Column =>
      decide ((model.inKey column.key || (shownFields model attributes).contains column.key) =
        true ∧ (column.key == field) = true)) = fun column => column.key == field := by
    funext column
    by_cases hkey : column.key = field
    · rcases hfield with hin | hshown
      · simp [hkey, hin]
      · simp [hkey, hshown]
    · simp [hkey]
  rw [htest]
  rfl

theorem loadRow_eq_ok
    {model : Model} {attributes : Option (List String)} {row : Row} {entity : Entity} :
    loadRow model attributes row = .ok entity ↔
      ∃ loaded, ((loadedColumns model attributes).mapM fun column =>
          (Binding.read? column.type (row.cell column.key)).map fun v => (column.key, v)) =
            some loaded ∧
        entity = ⟨(readKey? model row).getD [], loaded⟩ := by
  unfold loadRow
  dsimp only
  cases (loadedColumns model attributes).mapM fun column =>
      (Binding.read? column.type (row.cell column.key)).map fun v => (column.key, v) with
  | none => simp
  | some loaded =>
      constructor
      · intro h
        cases h
        exact ⟨loaded, rfl, rfl⟩
      · rintro ⟨_, hloaded, rfl⟩
        cases hloaded
        rfl

/-- A field that is loaded holds what the cell of its column reads as. -/
theorem get?_of_loadRow
    {model : Model} {attributes : Option (List String)} {row : Row} {entity : Entity}
    {field : String} {column : Column}
    (hload : loadRow model attributes row = .ok entity)
    (hcolumn : model.column? field = some column)
    (hfield : model.inKey field = true ∨ field ∈ shownFields model attributes) :
    ∃ v, Binding.read? column.type (row.cell field) = some v ∧
      Assoc.get? entity.loaded field = some v := by
  rcases loadRow_eq_ok.mp hload with ⟨loaded, hloaded, rfl⟩
  exact get?_read_columns row hloaded ((find?_loadedColumns hfield).trans hcolumn)

theorem showRow_eq_ok
    {model : Model} {attributes : Option (List String)} {row : Row} {shown : Assoc Value} :
    showRow model attributes row = .ok shown ↔
      ∃ entity, loadRow model attributes row = .ok entity ∧
        entity.project (shownFields model attributes) = shown :=
  map_eq_ok

theorem shows_of_loadRow
    {model : Model} (name : String) {attributes : Option (List String)} {row : Row}
    {entity : Entity}
    (hcheck : checkFields model name attributes = .ok ())
    (hload : loadRow model attributes row = .ok entity) :
    Shows model (shownFields model attributes) [] row
      (entity.project (shownFields model attributes)) := by
  intro field hfield _
  rcases column?_of_checkFields hcheck hfield with ⟨column, hcolumn⟩
  rcases get?_of_loadRow hload hcolumn (Or.inr hfield) with ⟨v, hread, hget⟩
  refine ⟨column, v, hcolumn, hread, ?_⟩
  unfold Entity.project Entity.value
  rw [Assoc.get?_ofPairs _ hfield, hget]
  rfl

theorem shows_of_showRow
    {model : Model} (name : String) {attributes : Option (List String)} {row : Row}
    {shown : Assoc Value}
    (hcheck : checkFields model name attributes = .ok ())
    (hshow : showRow model attributes row = .ok shown) :
    Shows model (shownFields model attributes) [] row shown := by
  rcases showRow_eq_ok.mp hshow with ⟨entity, hload, rfl⟩
  exact shows_of_loadRow name hcheck hload

/-! ## Nested relations -/

/-- Two answers differ in some fields at most. -/
def SameAside (aside : List String) (before after : Assoc Value) : Prop :=
  ∀ field, field ∉ aside → Assoc.get? after field = Assoc.get? before field

theorem shows_of_sameAside
    {model : Model} {fields aside : List String} {row : Row} {before after : Assoc Value}
    (hshows : Shows model fields [] row before)
    (hsame : SameAside aside before after) :
    Shows model fields aside row after := by
  intro field hfield haside
  rcases hshows field hfield List.not_mem_nil with ⟨column, v, hcolumn, hread, hget⟩
  refine ⟨column, v, hcolumn, hread, ?_⟩
  rw [hsame field haside]
  exact hget

end Storage

namespace Store

open Storage

variable {store : Store} {db : Database} {action : Action}

theorem forall₂_of_nest
    {inclusion : Inclusion} {before after : Shown}
    (h : store.nest db action inclusion before = .ok after) :
    List.Forall₂ (fun a b : Value × Assoc Value => SameAside [inclusion.relation] a.2 b.2)
      before.rows after.rows := by
  unfold nest at h
  rcases bind_eq_ok.mp h with ⟨⟨relation, target⟩, _, h⟩
  rcases bind_eq_ok.mp h with ⟨pairs, _, h⟩
  rcases bind_eq_ok.mp h with ⟨loaded, _, h⟩
  rw [← pure_eq_ok.mp h, List.forall₂_map_right_iff, List.forall₂_same]
  intro row _ field hfield
  rw [List.mem_singleton] at hfield
  exact Assoc.get?_put_of_ne (Ne.symm hfield) _ _

/-- By induction on the inclusions: each of them adds its own field to every row. -/
theorem forall₂_of_nestAll
    {inclusions : List Inclusion} {before after : Shown}
    (h : store.nestAll db action inclusions before = .ok after) :
    List.Forall₂ (fun a b : Value × Assoc Value =>
      SameAside (inclusions.map (·.relation)) a.2 b.2) before.rows after.rows := by
  induction inclusions generalizing before with
  | nil =>
      cases h
      rw [List.forall₂_same]
      intro row _ field _
      rfl
  | cons inclusion rest ih =>
      rcases bind_eq_ok.mp h with ⟨middle, hfirst, hrest⟩
      refine forall₂_comp ?_ (forall₂_of_nest hfirst) (ih hrest)
      intro before between after hbefore hafter field hfield
      rw [List.map_cons, List.mem_cons, not_or] at hfield
      rw [hafter field hfield.2]
      exact hbefore field (by simpa using hfield.1)

/-- Held alone, an entity is what was loaded. -/
theorem entity_singleton (entity : Entity) :
    Session.entity (Session.holdAll [] [entity]) entity = entity := by
  change (([entity] : Session).find? (·.isSame entity)).getD entity = entity
  rw [List.find?_singleton]
  split <;> rfl

/-- A row that is shown alone shows its own columns, beside the relations nested in it. -/
theorem shows_of_showRows
    {query : Query} {row : Row} {answers : List (Assoc Value)}
    (hcheck : checkFields store.model store.name query.attributes = .ok ())
    (h : store.showRows db action query [row] = .ok answers) :
    ∃ shown, answers = [shown] ∧ Shows store.model (shownFields store.model query.attributes)
      ((query.inclusions.getD []).map (·.relation)) row shown := by
  unfold showRows at h
  rcases bind_eq_ok.mp h with ⟨loaded, hloaded, h⟩
  rcases bind_eq_ok.mp h with ⟨after, hnested, h⟩
  rw [← pure_eq_ok.mp h]
  cases forall₂_of_mapM hloaded with
  | @cons _ entity _ _ hentity hnone =>
      cases hnone
      have hown := shows_of_loadRow store.name hcheck hentity
      have hrows := forall₂_of_nestAll hnested
      simp only [shownOwn, List.map_cons, List.map_nil, entity_singleton] at hrows
      generalize after.rows = rows at hrows
      rcases hrows with _ | ⟨hsame, hnone⟩
      cases hnone
      exact ⟨_, rfl, shows_of_sameAside hown hsame⟩

/-! ## Rows without relations -/

/-- What the rows of a page show of a projection, of those that can be read.  Rows whose keys read
alike show what the first of them holds. -/
def shownRows (store : Store) (attributes : Option (List String)) (rows : List Row) :
    List (Assoc Value) :=
  (store.shownOwn attributes (rows.filterMap fun row =>
    (loadRow store.model attributes row).toOption)).rows.map (·.2)

theorem length_shownRows
    {attributes : Option (List String)} {rows : List Row}
    (hread : ∀ row ∈ rows, ∃ own, showRow store.model attributes row = .ok own) :
    (store.shownRows attributes rows).length = rows.length := by
  have hload : ∀ row ∈ rows, ∃ entity, loadRow store.model attributes row = .ok entity := by
    intro row hrow
    rcases hread row hrow with ⟨own, hown⟩
    rcases showRow_eq_ok.mp hown with ⟨entity, hentity, _⟩
    exact ⟨entity, hentity⟩
  rcases exists_mapM_iff.mpr hload with ⟨loaded, hloaded⟩
  unfold shownRows shownOwn
  rw [filterMap_of_mapM hloaded, List.length_map, List.length_map]
  exact (forall₂_of_mapM hloaded).length_eq.symm

/-- Without relations, rows are shown exactly when each of them can be read. -/
theorem showRows_plain_iff
    {query : Query} {rows : List Row} {shown : List (Assoc Value)}
    (hplain : query.inclusions.getD [] = []) :
    store.showRows db action query rows = .ok shown ↔
      (∀ row ∈ rows, ∃ own, showRow store.model query.attributes row = .ok own) ∧
      shown = store.shownRows query.attributes rows := by
  unfold showRows shownRows
  rw [hplain, bind_eq_ok]
  constructor
  · rintro ⟨loaded, hloaded, h⟩
    rw [filterMap_of_mapM hloaded]
    refine ⟨?_, (pure_eq_ok.mp h).symm⟩
    intro row hrow
    rcases exists_mapM_iff.mp ⟨loaded, hloaded⟩ row hrow with ⟨entity, hentity⟩
    exact ⟨_, showRow_eq_ok.mpr ⟨entity, hentity, rfl⟩⟩
  · rintro ⟨hread, rfl⟩
    have hload : ∀ row ∈ rows, ∃ entity, loadRow store.model query.attributes row = .ok entity := by
      intro row hrow
      rcases hread row hrow with ⟨own, hown⟩
      rcases showRow_eq_ok.mp hown with ⟨entity, hentity, _⟩
      exact ⟨entity, hentity⟩
    rcases exists_mapM_iff.mpr hload with ⟨loaded, hloaded⟩
    rw [filterMap_of_mapM hloaded]
    exact ⟨loaded, hloaded, rfl⟩

end Store
end RecordApi
