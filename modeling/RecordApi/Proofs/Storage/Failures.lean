import RecordApi.Proofs.Storage.Changing
import RecordApi.Proofs.Storage.Loading
import RecordApi.Proofs.Storage.Requiring
import RecordApi.Proofs.Storage.Selecting
import RecordApi.Proofs.Storage.Straying
import RecordApi.Proofs.Storage.Writes
import RecordApi.Sample.Service

/-!
# How a store fails

A store tells its failures by errors of its own, and the faults of the database as one of them.
Four failures are not told so: an order comparison with null or a truth value that is refused
before there is a statement, an instant outside the calendar, an integer that is no word, and a
stored cell that its column cannot read.  Each of them has its cause in the request or in the
rows, and the first one strikes whenever its condition is reached.  A key that a row shows is asked
for again, so that it is bound as well.
-/

namespace RecordApi

open Steps Storage StoreError

/-! ## Causes -/

/-- Every cell of a row can be read by its column. -/
def Row.IsReadable (model : Model) (row : Row) : Prop :=
  ∀ column ∈ model.columns, ∃ v, Binding.read? column.type (row.cell column.key) = some v

/-- A query asks a predicate of the rows of a model, to select rows by it or not. -/
inductive Store.Asks (store : Store) (query : Query) : Model → Predicate → Bool → Prop
  | own {p : Predicate} (hfilter : query.filter = some p) : Asks store query store.model p true
  | included {inclusion : Inclusion} {relation : Relation} {target : Model} {p : Predicate}
      (hinclusion : inclusion ∈ query.inclusions.getD [])
      (htarget : store.relation inclusion = .ok (relation, target))
      (hfilter : inclusion.filter = some p) :
      Asks store query target p inclusion.required

/-- A query may show rows of a model. -/
inductive Store.Reads (store : Store) (query : Query) : Model → Prop
  | own : Reads store query store.model
  | included {inclusion : Inclusion} {relation : Relation} {target : Model}
      (hinclusion : inclusion ∈ query.inclusions.getD [])
      (htarget : store.relation inclusion = .ok (relation, target)) :
      Reads store query target

/-- A query on some rows makes a store fail in a way of its own. -/
inductive Query.Strays (store : Store) (db : Database) (query : Query) : StoreError → Prop
  | condition {model : Model} {p : Predicate} {selects : Bool} {c : Condition} {error : StoreError}
      (hasks : store.Asks query model p selects) (hc : c ∈ p.conditions)
      (hstrays : c.Strays model error) (hselects : error = .comparison → selects = true) :
      Strays store db query error
  | bound {n : Int} (hn : query.limit = some n ∨ query.offset = some n)
      (hword : fitsWord n = false) :
      Strays store db query .outOfRange
  | key {row : Row} {n : Int} (hrow : row ∈ db.rows store.model)
      (hn : row.cell store.model.keyField = .int n) (hword : fitsWord n = false) :
      Strays store db query .outOfRange
  | row {model : Model} {row : Row} (hreads : store.Reads query model)
      (hrow : row ∈ db.rows model) (hunreadable : ¬ row.IsReadable model) :
      Strays store db query .unreadable

/-- A change under a key makes a store fail in a way of its own. -/
inductive Store.UpdateStrays (store : Store) (db : Database) (key : Value)
    (payload : Assoc Value) : StoreError → Prop
  | beyondCalendar {column : Column}
      (hcolumn : store.model.column? store.model.keyField = some column)
      (htype : column.type = .timestamp)
      (hinstant : Operand.timestamp column.key key = .error .beyondCalendar) :
      UpdateStrays store db key payload (.operand .beyondCalendar)
  | key {column : Column} {v : Value} {parts : List Value} {n : Int}
      (hcolumn : store.model.column? store.model.keyField = some column)
      (hv : Clause.coerce column key = .ok v) (hparts : keyParts? store.model v = some parts)
      (hn : .int n ∈ parts) (hword : fitsWord n = false) :
      UpdateStrays store db key payload .outOfRange
  | value {column : Column} {n : Int} (hcolumn : column ∈ store.model.columns)
      (hn : Assoc.get? payload column.key = some (.int n)) (hword : fitsWord n = false) :
      UpdateStrays store db key payload .outOfRange
  | shownKey {row : Row} {field : String} {n : Int} (hrow : row ∈ db.rows store.model)
      (hfield : field ∈ store.model.primaryKey) (hn : row.cell field = .int n)
      (hword : fitsWord n = false) :
      UpdateStrays store db key payload .outOfRange
  | row {row : Row}
      (hrow : row ∈ db.rows store.model ∨
        row ∈ (store.update db key payload).2.rows store.model)
      (hunreadable : ¬ row.IsReadable store.model) :
      UpdateStrays store db key payload .unreadable

theorem Query.Strays.not_isTyped
    {store : Store} {db : Database} {query : Query} {error : StoreError}
    (h : query.Strays store db error) :
    ¬ error.IsTyped := by
  cases h with
  | condition _ _ hstrays _ => exact hstrays.not_isTyped
  | bound _ _ => decide
  | key _ _ _ => decide
  | row _ _ _ => decide

theorem Store.UpdateStrays.not_isTyped
    {store : Store} {db : Database} {key : Value} {payload : Assoc Value} {error : StoreError}
    (h : store.UpdateStrays db key payload error) :
    ¬ error.IsTyped := by
  cases h <;> decide

/-! ## Fields, orders and rows -/

namespace Storage

variable {model : Model} {name : String} {error : StoreError}

theorem isTyped_of_checkFields
    {attributes : Option (List String)}
    (h : checkFields model name attributes = .error error) :
    error.IsTyped := by
  unfold checkFields at h
  generalize attributes.getD [] = fields at h
  induction fields with
  | nil => cases h
  | cons field rest ih =>
      rcases bind_eq_error.mp h with hfirst | ⟨_, _, hrest⟩
      · exact Clause.isTyped_of_column (map_eq_error.mp hfirst)
      · exact ih hrest

theorem isTyped_of_ofOrder
    {order : Option (List OrderItem)}
    (h : SortKey.ofOrder model name order = .error error) :
    error.IsTyped := by
  rcases exists_error_of_mapM h with ⟨item, _, hitem⟩
  rcases bind_eq_error.mp hitem with hcolumn | ⟨_, _, hdirection⟩
  · exact Clause.isTyped_of_column hcolumn
  · split at hdirection
    · cases hdirection
    · cases hdirection
    · cases hdirection
    · cases hdirection
      simp [isTyped_iff]

theorem exists_read
    {row : Row} {columns : List Column}
    (h : ∀ column ∈ columns, ∃ v, Binding.read? column.type (row.cell column.key) = some v) :
    ∃ values, (columns.mapM fun column =>
      (Binding.read? column.type (row.cell column.key)).map fun v => (column.key, v)) =
        some values := by
  induction columns with
  | nil => exact ⟨[], rfl⟩
  | cons column rest ih =>
      rw [List.forall_mem_cons] at h
      rcases h.1 with ⟨v, hv⟩
      rcases ih h.2 with ⟨others, hothers⟩
      rw [List.mapM_cons, hv, hothers]
      exact ⟨_, rfl⟩

/-- A row is not loaded only where it cannot be read. -/
theorem loadRow_eq_error
    {attributes : Option (List String)} {row : Row}
    (h : loadRow model attributes row = .error error) :
    error = .unreadable ∧ ¬ row.IsReadable model := by
  unfold loadRow at h
  dsimp only at h
  split at h
  · rename_i hnone
    cases h
    refine ⟨rfl, ?_⟩
    intro hreadable
    have hloaded : ∀ column ∈ loadedColumns model attributes,
        ∃ v, Binding.read? column.type (row.cell column.key) = some v :=
      fun column hcolumn => hreadable column (List.mem_of_mem_filter hcolumn)
    rcases exists_read hloaded with ⟨values, hvalues⟩
    rw [hvalues] at hnone
    cases hnone
  · cases h

theorem showRow_eq_error
    {attributes : Option (List String)} {row : Row}
    (h : showRow model attributes row = .error error) :
    error = .unreadable ∧ ¬ row.IsReadable model :=
  loadRow_eq_error (map_eq_error.mp h)

/-- Only an integer reads as an integer. -/
theorem cell_of_read?_int
    {type : ColumnType} {cell : Cell} {n : Int}
    (h : Binding.read? type cell = some (.int n)) :
    cell = .int n := by
  cases cell with
  | null => cases h
  | int m => cases type <;> cases h <;> rfl
  | real x => cases type <;> cases h
  | text t =>
      cases type with
      | date | timestamp | uuid =>
          rcases Option.map_eq_some_iff.mp h with ⟨_, _, hsame⟩
          cases hsame
      | enumeration names =>
          dsimp only [Binding.read?] at h
          split at h <;> cases h
      | _ => cases h

end Storage

namespace Store

variable {store : Store} {db : Database} {query : Query} {error : StoreError} {action : Action}

theorem isTyped_of_relation
    {inclusion : Inclusion}
    (h : store.relation inclusion = .error error) :
    error.IsTyped := by
  unfold relation at h
  dsimp only at h
  split at h
  · cases h
    simp [isTyped_iff]
  · split at h
    · cases h
    · cases h
      simp [isTyped_iff]

/-! ## Selections -/

theorem strays_of_ofQuery
    (db : Database)
    (h : Selection.ofQuery store query = .error error) :
    error.IsTyped ∨ query.Strays store db error := by
  unfold Selection.ofQuery at h
  rcases bind_eq_error.mp h with hfilter | ⟨_, _, h⟩
  · rcases Clause.strays_of_ofPredicate? hfilter with htyped | ⟨p, hp, c, hc, hstrays⟩
    · exact Or.inl htyped
    · exact Or.inr (.condition (.own hp) hc hstrays fun _ => rfl)
  rcases bind_eq_error.mp h with hrequired | ⟨_, _, h⟩
  · rcases exists_error_of_mapM hrequired with ⟨inclusion, hinclusion, hfails⟩
    rcases List.mem_filter.mp hinclusion with ⟨hmem, hselects⟩
    rcases bind_eq_error.mp hfails with htarget | ⟨⟨relation, target⟩, htarget, hfails⟩
    · exact Or.inl (isTyped_of_relation htarget)
    rcases bind_eq_error.mp hfails with hfilter | ⟨_, _, hfails⟩
    · rcases Clause.strays_of_ofPredicate? hfilter with htyped | ⟨p, hp, c, hc, hstrays⟩
      · exact Or.inl htyped
      · exact Or.inr (.condition (.included hmem htarget hp) hc hstrays fun _ => hselects)
    · cases hfails
  · cases h

theorem mem_bindings_simplified
    {selection : Selection Value} {binding : Except BindError Cell}
    (h : binding ∈ selection.simplified.bindings) :
    (∃ clause, selection.clause = some clause ∧ binding ∈ clause.simplified.bindings) ∨
      ∃ e ∈ selection.required, binding ∈ e.clause.simplified.bindings := by
  have hrequired : ∀ {required : List (Existence Value)},
      binding ∈ (required.map fun e : Existence Value => { e with clause := e.clause.simplified
        }).flatMap (fun e => e.clause.bindings) →
      ∃ e ∈ required, binding ∈ e.clause.simplified.bindings := by
    intro required hmem
    rw [List.flatMap_map] at hmem
    exact List.mem_flatMap.mp hmem
  rcases selection with ⟨clause?, required⟩
  cases clause? with
  | none => exact Or.inr (hrequired h)
  | some clause =>
      unfold Selection.simplified at h
      dsimp only [Option.map_some] at h
      split at h
      · rcases List.mem_append.mp h with hown | hnone
        · exact Or.inl ⟨clause, rfl, hown⟩
        · cases hnone
      · split at h
        · exact Or.inr (hrequired h)
        · rcases List.mem_append.mp h with hown | hothers
          · exact Or.inl ⟨clause, rfl, hown⟩
          · exact Or.inr (hrequired hothers)

theorem strays_of_prepare
    (db : Database) {selection : Selection Value}
    (hselection : Selection.ofQuery store query = .ok selection)
    (h : prepare action store.name selection.simplified.hasQuantifier
      selection.simplified.bindings = .error error) :
    error.IsTyped ∨ query.Strays store db error := by
  rcases prepare_eq_error h with htyped | ⟨rfl, hmem⟩
  · exact Or.inl htyped
  right
  unfold Selection.ofQuery at hselection
  rcases bind_eq_ok.mp hselection with ⟨clause?, hclause, hselection⟩
  rcases bind_eq_ok.mp hselection with ⟨required, hrequired, hselection⟩
  cases pure_eq_ok.mp hselection
  rcases mem_bindings_simplified hmem with ⟨clause, rfl, hbinding⟩ | ⟨e, he, hbinding⟩
  · rcases strays_of_bindings hclause hbinding with ⟨p, hp, c, hc, hstrays⟩
    exact .condition (.own hp) hc hstrays StoreError.noConfusion
  · rcases exists_of_mapM hrequired e he with ⟨inclusion, hinclusion, hmade⟩
    rcases bind_eq_ok.mp hmade with ⟨⟨relation, target⟩, htarget, hmade⟩
    rcases bind_eq_ok.mp hmade with ⟨clause?, hfilter, hmade⟩
    cases pure_eq_ok.mp hmade
    cases clause? with
    | none => cases hbinding
    | some clause =>
        rcases strays_of_bindings hfilter hbinding with ⟨p, hp, c, hc, hstrays⟩
        exact .condition (.included (List.mem_of_mem_filter hinclusion) htarget hp) hc hstrays
          StoreError.noConfusion

/-! ## Related rows -/

theorem bound_of_prepare
    {name : String} {quantified : Bool} {keys others : List (Except BindError Cell)}
    (h : prepare action name quantified (keys ++ others) = .ok ()) :
    ∀ binding ∈ keys, ∃ cell, binding = .ok cell := by
  have hbound := Binding.firstError?_eq_none_iff.mp (prepare_eq_ok.mp h).2
  exact fun binding hbinding => hbound binding (List.mem_append_left _ hbinding)

/-- What is joined are rows of the store that were found, and rows of the target. -/
theorem mem_of_relatedRows
    {inclusion : Inclusion} {relation : Relation} {target : Model} {ids : List Value}
    {pairs : List (Row × Row)}
    (h : store.relatedRows db action inclusion relation target ids = .ok pairs)
    {pair : Row × Row} (hpair : pair ∈ pairs) :
    pair.1 ∈ store.owners db ids ∧ pair.2 ∈ db.rows target := by
  rcases renders_of_relatedRows h with ⟨clause?, hrenders⟩
  by_cases hnone : ids = []
  · rw [hnone, relatedRows_nil hrenders] at h
    cases h
    cases hpair
  · have hbound : ∀ binding ∈ store.keyBindings ids, ∃ cell, binding = .ok cell := by
      unfold relatedRows at h
      rcases bind_eq_ok.mp h with ⟨_, _, h⟩
      rcases bind_eq_ok.mp h with ⟨_, _, h⟩
      rcases bind_eq_ok.mp h with ⟨_, _, h⟩
      rw [if_neg (by simpa using hnone)] at h
      rcases bind_eq_ok.mp h with ⟨_, hprepare, _⟩
      exact bound_of_prepare hprepare
    rw [((relatedRows_eq_ok_iff hnone hrenders hbound).mp h).2.2, mem_joined_iff] at hpair
    exact ⟨hpair.2.1, (Inclusion.mem_candidates.mp hpair.1).1⟩

/-- What goes wrong inside an action, where a refused comparison is a fault of the action. -/
def Wraps (store : Store) (db : Database) (query : Query) (error : StoreError) : Prop :=
  error.IsTyped ∨ error = .comparison ∨ query.Strays store db error

theorem wraps_of_condition
    {model : Model} {p : Predicate} {selects : Bool} {c : Condition}
    (hasks : store.Asks query model p selects) (hc : c ∈ p.conditions)
    (hstrays : c.Strays model error) :
    store.Wraps db query error := by
  by_cases hcomparison : error = .comparison
  · exact Or.inr (Or.inl hcomparison)
  · exact Or.inr (Or.inr (.condition hasks hc hstrays fun h => absurd h hcomparison))

/-- The integers among the keys that are shown are keys of rows. -/
def KeysStored (store : Store) (db : Database) (ids : List Value) : Prop :=
  ∀ n, .int n ∈ ids → ∃ row ∈ db.rows store.model, row.cell store.model.keyField = .int n

theorem wraps_of_relatedRows
    {inclusion : Inclusion} {relation : Relation} {target : Model} {ids : List Value}
    (hinclusion : inclusion ∈ query.inclusions.getD [])
    (htarget : store.relation inclusion = .ok (relation, target))
    (hstored : store.KeysStored db ids)
    (h : store.relatedRows db action inclusion relation target ids = .error error) :
    store.Wraps db query error := by
  unfold relatedRows at h
  rcases bind_eq_error.mp h with hfilter | ⟨clause?, hclause, h⟩
  · rcases Clause.strays_of_ofPredicate? hfilter with htyped | ⟨p, hp, c, hc, hstrays⟩
    · exact Or.inl htyped
    · exact wraps_of_condition (.included hinclusion htarget hp) hc hstrays
  rcases bind_eq_error.mp h with hfields | ⟨_, _, h⟩
  · exact Or.inl (isTyped_of_checkFields hfields)
  rcases bind_eq_error.mp h with horder | ⟨_, _, h⟩
  · exact Or.inl (isTyped_of_ofOrder horder)
  split at h
  · cases h
  rcases bind_eq_error.mp h with hprepare | ⟨_, _, h⟩
  · rcases prepare_eq_error hprepare with htyped | ⟨rfl, hbinding⟩
    · exact Or.inl htyped
    rcases List.mem_append.mp hbinding with hkey | hclauses
    · unfold keyBindings keyTest? at hkey
      split at hkey
      · rename_i column test htest
        rcases Option.map_eq_some_iff.mp htest with ⟨own, _, hsame⟩
        cases hsame
        rcases List.mem_map.mp hkey with ⟨id, hid, hbind⟩
        rcases bind_eq_outOfRange hbind with ⟨n, rfl, hword⟩
        rcases hstored n hid with ⟨row, hrow, hn⟩
        exact Or.inr (Or.inr (.key hrow hn hword))
      · cases hkey
    · cases clause? with
      | none => cases hclauses
      | some clause =>
          rcases strays_of_bindings hclause hclauses with ⟨p, hp, c, hc, hstrays⟩
          exact wraps_of_condition (.included hinclusion htarget hp) hc hstrays
  rcases bind_eq_error.mp h with htold | ⟨_, _, h⟩
  · exact Or.inl (isTyped_of_evaluated htold)
  · cases h

theorem wraps_of_loadPair
    {inclusion : Inclusion} {relation : Relation} {target : Model} {ids : List Value}
    {pair : Row × Row}
    (hinclusion : inclusion ∈ query.inclusions.getD [])
    (htarget : store.relation inclusion = .ok (relation, target))
    (howner : pair.1 ∈ store.owners db ids) (hchild : pair.2 ∈ db.rows target)
    (h : store.loadPair target inclusion.attributes pair = .error error) :
    store.Wraps db query error := by
  unfold loadPair at h
  split at h
  · rename_i hnone
    cases h
    rcases mem_of_owners howner with ⟨hrow, column, hcolumn⟩
    refine Or.inr (Or.inr (.row .own hrow ?_))
    intro hreadable
    rcases hreadable column (Model.mem_of_column? hcolumn) with ⟨v, hv⟩
    unfold readId? at hnone
    rw [hcolumn, Option.bind_some, hv] at hnone
    cases hnone
  · rcases loadRow_eq_error (map_eq_error.mp h) with ⟨rfl, hunreadable⟩
    exact Or.inr (Or.inr (.row (.included hinclusion htarget) hchild hunreadable))

theorem wraps_of_nest
    {inclusion : Inclusion} {shown : Shown}
    (hinclusion : inclusion ∈ query.inclusions.getD [])
    (hstored : store.KeysStored db (shown.rows.map (·.1)))
    (h : store.nest db action inclusion shown = .error error) :
    store.Wraps db query error := by
  unfold nest at h
  rcases bind_eq_error.mp h with htarget | ⟨⟨relation, target⟩, htarget, h⟩
  · exact Or.inl (isTyped_of_relation htarget)
  rcases bind_eq_error.mp h with hrelated | ⟨pairs, hrelated, h⟩
  · exact wraps_of_relatedRows hinclusion htarget hstored hrelated
  rcases bind_eq_error.mp h with hloaded | ⟨_, _, h⟩
  · rcases exists_error_of_mapM hloaded with ⟨pair, hpair, hfails⟩
    rcases mem_of_relatedRows hrelated hpair with ⟨howner, hchild⟩
    exact wraps_of_loadPair hinclusion htarget howner hchild hfails
  · cases h

/-- Nesting leaves the keys that are shown. -/
theorem ids_of_nest
    {inclusion : Inclusion} {shown after : Shown}
    (h : store.nest db action inclusion shown = .ok after) :
    after.rows.map (·.1) = shown.rows.map (·.1) := by
  unfold nest at h
  rcases bind_eq_ok.mp h with ⟨_, _, h⟩
  rcases bind_eq_ok.mp h with ⟨_, _, h⟩
  rcases bind_eq_ok.mp h with ⟨_, _, h⟩
  rw [← pure_eq_ok.mp h, List.map_map]
  rfl

/-- By induction on the inclusions, each of which is one of the query. -/
theorem wraps_of_nestAll
    {inclusions : List Inclusion} {shown : Shown}
    (hinclusions : ∀ inclusion ∈ inclusions, inclusion ∈ query.inclusions.getD [])
    (hstored : store.KeysStored db (shown.rows.map (·.1)))
    (h : store.nestAll db action inclusions shown = .error error) :
    store.Wraps db query error := by
  induction inclusions generalizing shown with
  | nil => cases h
  | cons inclusion rest ih =>
      rw [List.forall_mem_cons] at hinclusions
      rcases bind_eq_error.mp h with hfirst | ⟨middle, hmiddle, hrest⟩
      · exact wraps_of_nest hinclusions.1 hstored hfirst
      · rw [← ids_of_nest hmiddle] at hstored
        exact ih hinclusions.2 hstored hrest

/-- The keys that loaded rows show are those of rows. -/
theorem keysStored_shownOwn
    {attributes : Option (List String)} {rows : List Row} {loaded : List Entity}
    (hrows : ∀ row ∈ rows, row ∈ db.rows store.model)
    (hloaded : rows.mapM (loadRow store.model attributes) = .ok loaded) :
    store.KeysStored db ((store.shownOwn attributes loaded).rows.map (·.1)) := by
  have hentities : ∀ entity ∈ loaded, entity.IsRead store.model (db.rows store.model) := by
    intro entity hentity
    rcases exists_of_mapM hloaded entity hentity with ⟨row, hrow, hload⟩
    exact Entity.isRead_of_reads (hrows row hrow) (Entity.reads_of_loadRow hload)
  have hnone : ∀ held ∈ ([] : Session), held.IsRead store.model (db.rows store.model) :=
    fun _ hmem => absurd hmem List.not_mem_nil
  have hheld := Session.isRead_holdAll hnone hentities
  intro n hn
  unfold shownOwn at hn
  rw [List.map_map] at hn
  rcases List.mem_map.mp hn with ⟨entity, hentity, hid⟩
  have hread := Session.isRead_entity hheld (hentities entity hentity)
  change Entity.value _ _ = _ at hid
  unfold Entity.value at hid
  cases hget : Assoc.get? ((Session.holdAll [] loaded).entity entity).loaded
      store.model.keyField with
  | none =>
      rw [hget] at hid
      cases hid
  | some v =>
      rw [hget] at hid
      cases hid
      rcases hread _ _ hget with ⟨row, hrow, column, _, hcell⟩
      exact ⟨row, hrow, cell_of_read?_int hcell⟩

theorem wraps_of_showRows
    {rows : List Row}
    (hrows : ∀ row ∈ rows, row ∈ db.rows store.model)
    (h : store.showRows db action query rows = .error error) :
    store.Wraps db query error := by
  unfold showRows at h
  rcases bind_eq_error.mp h with hown | ⟨loaded, hloaded, h⟩
  · rcases exists_error_of_mapM hown with ⟨row, hrow, hfails⟩
    rcases loadRow_eq_error hfails with ⟨rfl, hunreadable⟩
    exact Or.inr (Or.inr (.row .own (hrows row hrow) hunreadable))
  rcases bind_eq_error.mp h with hnested | ⟨_, _, h⟩
  · exact wraps_of_nestAll (fun _ hmem => hmem) (keysStored_shownOwn hrows hloaded) hnested
  · cases h

theorem strays_of_during
    {name : String} {inner : StoreError}
    (h : store.Wraps db query inner) (hduring : inner.during action name = error) :
    error.IsTyped ∨ query.Strays store db error := by
  unfold StoreError.during at hduring
  split at hduring
  · rw [← hduring]
    exact Or.inl (by simp [isTyped_iff])
  · rename_i hother
    rw [← hduring]
    rcases h with htyped | hcomparison | hstrays
    · exact Or.inl htyped
    · exact absurd hcomparison hother
    · exact Or.inr hstrays

/-! ## Reading -/

theorem checkBound_eq_error
    {n : Option Int}
    (h : checkBound n = .error error) :
    error = .outOfRange ∧ ∃ k, n = some k ∧ fitsWord k = false := by
  unfold checkBound at h
  split at h
  · cases h
  · rename_i hfits
    cases h
    cases n with
    | none => exact absurd rfl hfits
    | some k => exact ⟨rfl, k, rfl, by simpa using hfits⟩

theorem strays_of_list
    (h : store.list db query = .error error) :
    error.IsTyped ∨ query.Strays store db error := by
  unfold list at h
  rcases bind_eq_error.mp h with hselection | ⟨selection, hselection, h⟩
  · exact strays_of_ofQuery db hselection
  rcases bind_eq_error.mp h with hfields | ⟨_, _, h⟩
  · exact Or.inl (isTyped_of_checkFields hfields)
  rcases bind_eq_error.mp h with horder | ⟨keys, _, h⟩
  · exact Or.inl (isTyped_of_ofOrder horder)
  rcases mapError_eq_error.mp h with ⟨inner, h, hduring⟩
  refine strays_of_during ?_ hduring
  rcases bind_eq_error.mp h with hprepare | ⟨_, _, h⟩
  · rcases strays_of_prepare db hselection hprepare with htyped | hstrays
    · exact Or.inl htyped
    · exact Or.inr (Or.inr hstrays)
  rcases bind_eq_error.mp h with htold | ⟨rows, hrows, h⟩
  · exact Or.inl (isTyped_of_evaluated htold)
  rcases bind_eq_error.mp h with hlimit | ⟨_, _, h⟩
  · rcases checkBound_eq_error hlimit with ⟨rfl, n, hn, hword⟩
    exact Or.inr (Or.inr (.bound (Or.inl hn) hword))
  rcases bind_eq_error.mp h with hoffset | ⟨_, _, h⟩
  · rcases checkBound_eq_error hoffset with ⟨rfl, n, hn, hword⟩
    exact Or.inr (Or.inr (.bound (Or.inr hn) hword))
  rcases bind_eq_error.mp h with hshown | ⟨_, _, h⟩
  · refine wraps_of_showRows ?_ hshown
    intro row hrow
    have hkept := (perm_sortRows keys rows).mem_iff.mp (mem_of_mem_slice hrow)
    rw [filterRows?_eq_some (evaluated_eq_ok.mp hrows)] at hkept
    exact List.mem_of_mem_filter hkept
  · cases h

theorem ofQuery_unpaged (store : Store) (query : Query) :
    Selection.ofQuery store query.unpaged = Selection.ofQuery store query := rfl

theorem showRows_unpaged (rows : List Row) :
    store.showRows db action query.unpaged rows = store.showRows db action query rows := rfl

/-- A look-up has no slice of its own. -/
theorem strays_of_find
    (h : store.find db query = .error error) :
    error.IsTyped ∨ query.unpaged.Strays store db error := by
  unfold find at h
  rcases bind_eq_error.mp h with hfields | ⟨_, _, h⟩
  · exact Or.inl (isTyped_of_checkFields hfields)
  rw [← ofQuery_unpaged] at h
  rcases bind_eq_error.mp h with hselection | ⟨selection, hselection, h⟩
  · exact strays_of_ofQuery db hselection
  rcases bind_eq_error.mp h with horder | ⟨keys, _, h⟩
  · exact Or.inl (isTyped_of_ofOrder horder)
  rcases mapError_eq_error.mp h with ⟨inner, h, hduring⟩
  refine strays_of_during ?_ hduring
  rcases bind_eq_error.mp h with hprepare | ⟨_, _, h⟩
  · rcases strays_of_prepare db hselection hprepare with htyped | hstrays
    · exact Or.inl htyped
    · exact Or.inr (Or.inr hstrays)
  rcases bind_eq_error.mp h with htold | ⟨found, hfound, h⟩
  · exact Or.inl (isTyped_of_evaluated htold)
  cases found with
  | none => cases h
  | some row =>
      rcases bind_eq_error.mp h with hshown | ⟨_, _, h⟩
      · rw [← showRows_unpaged] at hshown
        refine wraps_of_showRows ?_ hshown
        intro other hother
        rw [List.mem_singleton.mp hother]
        have hfirst := firstRow?_eq_some (evaluated_eq_ok.mp hfound)
        have hmem := List.mem_of_head? hfirst.symm
        exact List.mem_of_mem_filter ((perm_sortRows keys _).mem_iff.mp hmem)
      · cases h

/-! ## Writing -/

/-- Each part of a key is what its column reads as. -/
theorem read?_of_mem_zip
    {row : Row} {columns : List Column} {key : List Value} {column : Column} {v : Value}
    (hkey : columns.mapM (fun column => Binding.read? column.type (row.cell column.key)) = some key)
    (h : (column, v) ∈ columns.zip key) :
    Binding.read? column.type (row.cell column.key) = some v := by
  induction columns generalizing key with
  | nil => cases h
  | cons first rest ih =>
      rw [List.mapM_cons] at hkey
      rcases Option.bind_eq_some_iff.mp hkey with ⟨w, hw, hkey⟩
      rcases Option.bind_eq_some_iff.mp hkey with ⟨others, hothers, hsame⟩
      cases hsame
      rcases List.mem_cons.mp h with hfirst | hrest
      · cases hfirst
        exact hw
      · exact ih hothers hrest

/-- A destruction shows no rows and asks its filter alone. -/
theorem strays_of_destroy
    {filter : Option Predicate}
    (h : (store.destroy db filter).1 = .error error) :
    error.IsTyped ∨
      ∃ p, filter = some p ∧ ∃ c ∈ p.conditions, c.Strays store.model error := by
  have hspared : store.spared db filter = .error error := by
    unfold destroy at h
    cases hrows : store.spared db filter with
    | error e =>
        rw [hrows] at h
        cases h
        rfl
    | ok rows =>
        rw [hrows] at h
        cases h
  unfold spared at hspared
  rcases bind_eq_error.mp hspared with hfilter | ⟨clause?, hclause, hspared⟩
  · exact Clause.strays_of_ofPredicate? hfilter
  cases clause? with
  | none =>
      cases hspared
      exact Or.inl (by simp [isTyped_iff])
  | some clause =>
      rcases bind_eq_error.mp hspared with hprepare | ⟨_, _, htold⟩
      · exact strays_of_statement hclause hprepare
      · exact Or.inl (isTyped_of_evaluated htold)

theorem strays_of_locate
    {key v : Value} {column : Column} {payload : Assoc Value}
    (hcolumn : store.model.column? store.model.keyField = some column)
    (hv : Clause.coerce column key = .ok v)
    (h : store.locate db v = .error error) :
    error.IsTyped ∨ store.UpdateStrays db key payload error := by
  unfold locate at h
  split at h
  · cases h
    exact Or.inl (by simp [isTyped_iff])
  · rename_i parts hparts
    rcases bind_eq_error.mp h with hprepare | ⟨_, _, h⟩
    · rcases prepare_eq_error hprepare with htyped | ⟨rfl, hbinding⟩
      · exact Or.inl htyped
      · rcases List.mem_map.mp hbinding with ⟨⟨own, part⟩, hpair, hbind⟩
        rcases bind_eq_outOfRange hbind with ⟨n, rfl, hword⟩
        exact Or.inr (.key hcolumn hv hparts (List.of_mem_zip hpair).2 hword)
    · cases h

theorem strays_of_changed
    {row : Row} {entity : Entity} {key : Value} {payload : Assoc Value}
    (hrow : row ∈ db.rows store.model) (hload : loadRow store.model none row = .ok entity)
    (h : store.changed db entity.key (changes store.model payload entity) = .error error) :
    error.IsTyped ∨ store.UpdateStrays db key payload error := by
  unfold changed at h
  rcases bind_eq_error.mp h with hprepare | ⟨_, _, h⟩
  · rcases prepare_eq_error hprepare with htyped | ⟨rfl, hbinding⟩
    · exact Or.inl htyped
    rcases List.mem_append.mp hbinding with hchange | hkey
    · rcases List.mem_map.mp hchange with ⟨⟨column, v⟩, hchange, hbind⟩
      rcases bind_eq_outOfRange hbind with ⟨n, rfl, hword⟩
      rcases mem_changes_iff.mp hchange with ⟨hcolumn, hn, _⟩
      exact Or.inr (.value hcolumn hn hword)
    · rcases List.mem_map.mp hkey with ⟨⟨column, v⟩, hpart, hbind⟩
      rcases bind_eq_outOfRange hbind with ⟨n, rfl, hword⟩
      have hcolumn := (List.of_mem_zip hpart).1
      rcases List.mem_filterMap.mp hcolumn with ⟨field, hfield, hfound⟩
      have hread := read?_of_mem_zip (Entity.reads_of_loadRow hload).key hpart
      rw [Model.key_of_column? hfound] at hread
      exact Or.inr (.shownKey hrow hfield (cell_of_read?_int hread) hword)
  · split at h
    · cases h
      exact Or.inl (by split <;> simp [isTyped_iff])
    · dsimp only at h
      split at h
      · cases h
      · cases h
        exact Or.inl (by simp [isTyped_iff])

theorem strays_of_replacement
    {key : Value} {payload : Assoc Value}
    (h : store.replacement db key payload = .error error) :
    error.IsTyped ∨ store.UpdateStrays db key payload error := by
  unfold replacement at h
  rcases bind_eq_error.mp h with hfield | ⟨column, hfield, h⟩
  · exact Or.inl (Clause.isTyped_of_column hfield)
  have hcolumn := Clause.column_eq_ok.mp hfield
  rcases bind_eq_error.mp h with hkey | ⟨v, hv, h⟩
  · rcases Clause.coerce_eq_error hkey with htyped | ⟨rfl, htype, hinstant⟩
    · exact Or.inl htyped
    · exact Or.inr (.beyondCalendar hcolumn htype hinstant)
  rcases bind_eq_error.mp h with hlocate | ⟨found, hfound, h⟩
  · exact strays_of_locate hcolumn hv hlocate
  cases found with
  | none => cases h
  | some row =>
      rcases locate_eq_some hfound with ⟨_, _, hrow⟩
      rcases bind_eq_error.mp h with hread | ⟨entity, hentity, h⟩
      · rcases loadRow_eq_error hread with ⟨rfl, hunreadable⟩
        exact Or.inr (.row (Or.inl (mem_of_rowOfKey? hrow)) hunreadable)
      rcases bind_eq_error.mp h with hchanged | ⟨_, _, h⟩
      · exact strays_of_changed (mem_of_rowOfKey? hrow) hentity hchanged
      · cases h

theorem strays_of_update
    {key : Value} {payload : Assoc Value}
    (h : (store.update db key payload).1 = .error error) :
    error.IsTyped ∨ store.UpdateStrays db key payload error := by
  cases hrows : store.replacement db key payload with
  | error e =>
      unfold update at h
      rw [hrows] at h
      cases h
      exact strays_of_replacement hrows
  | ok answer =>
      rcases answer with _ | ⟨row, next⟩
      · unfold update at h
        rw [hrows] at h
        cases h
      · have hupdate : store.update db key payload =
            ((showWhole store.model next).map some, store.replaced db row next) := by
          unfold update
          rw [hrows]
        rw [hupdate] at h
        rcases showRow_eq_error (map_eq_error.mp h) with ⟨rfl, hunreadable⟩
        refine Or.inr (.row (Or.inr ?_) hunreadable)
        rw [hupdate]
        exact mem_replaced (replacement_eq_some hrows).1

/-! ## Refused comparisons -/

theorem ofPredicate_eq_comparison
    {p : Predicate} {before after : List Condition} {c : Condition}
    (hconditions : p.conditions = before ++ c :: after)
    (hbefore : ∀ b ∈ before, ∃ clause, Clause.ofCondition store.model store.name b = .ok clause)
    (hstrays : c.Strays store.model .comparison) :
    Clause.ofPredicate? store.model store.name (some p) = .error .comparison :=
  map_eq_error.mpr (Clause.ofPredicate_of_refused hconditions hbefore
    (Clause.ofCondition_eq_comparison_iff.mpr hstrays))

theorem ofQuery_eq_error
    {p : Predicate}
    (hfilter : query.filter = some p)
    (h : Clause.ofPredicate? store.model store.name (some p) = .error error) :
    Selection.ofQuery store query = .error error := by
  unfold Selection.ofQuery
  rw [hfilter, h]
  rfl

end Store

namespace Sample

/-- Authors whose age is above null. -/
def aboveNull : Condition :=
  ⟨"age", .known .gt, .null⟩

def queryAboveNull : Query where
  filter := some (.condition aboveNull)

end Sample
end RecordApi
