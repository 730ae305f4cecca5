import RecordApi.Proofs.Storage.Framing
import RecordApi.Proofs.Storage.Lookup

/-!
# Making a change again

A change that leaves the key as it is comes to the same row when it is made again.  The path leads
to the changed row, or to a row that shows the key of this one and is left as it was; either way the
second change writes at most what is there already.  Both give the same answer, also when the row
cannot be read behind the first one.
-/

namespace RecordApi

open Steps Storage StoreError

/-! ## Rows with the same key -/

namespace Row

theorem sameKey_of_key_eq
    {model : Model} {a b : Row}
    (h : a.key model = b.key model) (other : Row) :
    sameKey model a other = sameKey model b other := by
  unfold sameKey
  rw [h]

/-- A row that alone passes a test is found by it, wherever it is put. -/
theorem find?_insertInOrder
    {test : Row → Bool} {row : Row} {rows : List Row} (model : Model)
    (hrow : test row = true) (hrows : ∀ other ∈ rows, test other = false) :
    (insertInOrder model row rows).find? test = some row := by
  rcases insertInOrder_split model row rows with ⟨ahead, behind, hsplit, hinsert⟩
  have hahead : ahead.find? test = none := by
    rw [List.find?_eq_none]
    intro other hother htest
    rw [hrows other (hsplit ▸ List.mem_append_left behind hother)] at htest
    cases htest
  rw [hinsert, List.find?_append, hahead, Option.none_or, List.find?_cons_of_pos hrow]

/-- A row that does not pass a test hides no other one. -/
theorem find?_insertInOrder_of_not
    {test : Row → Bool} {row : Row} (model : Model) (rows : List Row)
    (hrow : test row = false) :
    (insertInOrder model row rows).find? test = rows.find? test := by
  rcases insertInOrder_split model row rows with ⟨ahead, behind, hsplit, hinsert⟩
  rw [hinsert, hsplit, List.find?_append, List.find?_append,
    List.find?_cons_of_neg (by simp [hrow])]

end Row

namespace Storage

/-- Changes to what the cells of a row hold already change nothing. -/
theorem changedRow_eq_self
    {row : Row} {changes : List (Column × Value)}
    (h : ∀ change ∈ changes,
      Assoc.get? row change.1.key = some (storedCell change.1 change.2)) :
    changedRow row changes = row := by
  induction changes with
  | nil => rfl
  | cons change rest ih =>
      rw [List.forall_mem_cons] at h
      unfold changedRow
      rw [List.foldl_cons, Assoc.put_of_get? h.1]
      exact ih h.2

theorem get?_changedRow_of_mem
    {changes : List (Column × Value)} {column : Column} {v : Value} (row : Row)
    (hdistinct : (changes.map (·.1.key)).Nodup) (h : (column, v) ∈ changes) :
    Assoc.get? (changedRow row changes) column.key = some (storedCell column v) := by
  have hpair := List.mem_map_of_mem
    (f := fun change : Column × Value => (change.1.key, storedCell change.1 change.2)) h
  rw [changedRow_eq_foldl]
  exact Assoc.get?_foldl_put_of_mem row (by rwa [List.map_map]) hpair

/-- What is still to be changed in a changed row was changed before. -/
theorem changes_changedRow_subset
    {model : Model} {row : Row} {payload : Assoc Value} {entity again : Entity}
    (hfields : model.fields.Nodup) (hload : loadRow model none row = .ok entity)
    (hagain : loadRow model none (changedRow row (changes model payload entity)) = .ok again) :
    changes model payload again ⊆ changes model payload entity := by
  rintro ⟨column, v⟩ hchange
  rcases mem_changes_iff.mp hchange with ⟨hcolumn, hv, hdiffers⟩
  by_cases hsame : v.sameAs (entity.value column.key) = false
  · exact mem_changes_iff.mpr ⟨hcolumn, hv, hsame⟩
  · -- the cell was left alone, so that it shows the same again
    rw [Bool.not_eq_false] at hsame
    have hcell : (changedRow row (changes model payload entity)).cell column.key = _ :=
      cell_changed row hfields hcolumn
    unfold changedCell at hcell
    rw [hv] at hcell
    dsimp only at hcell
    rw [if_pos hsame] at hcell
    rcases read?_of_loadRow hfields hload hcolumn with ⟨w, hread, hget⟩
    rcases read?_of_loadRow hfields hagain hcolumn with ⟨w', hread', hget'⟩
    rw [hcell, hread] at hread'
    cases hread'
    unfold Entity.value at hsame hdiffers
    rw [hget] at hsame
    rw [hget', hsame] at hdiffers
    cases hdiffers

/-- What a key reads as depends only on the cells of the key. -/
theorem readKey?_congr
    {model : Model} {a b : Row}
    (h : ∀ field ∈ model.primaryKey, a.cell field = b.cell field) :
    readKey? model a = readKey? model b := by
  unfold readKey?
  apply mapM_congr
  intro column hcolumn
  rcases List.mem_filterMap.mp hcolumn with ⟨field, hfield, hfound⟩
  rw [Model.key_of_column? hfound, h field hfield]

end Storage

namespace Store

variable {store : Store} {db : Database} {key : Value} {payload : Assoc Value} {row next : Row}

/-! ## The table behind a change -/

theorem others_replaced
    (hkey : next.key store.model = row.key store.model) :
    store.others (store.replaced db row next) next = store.others db row := by
  by_cases hnext : next = row
  · rw [hnext, replaced_self]
  rcases Row.insertInOrder_split store.model next (store.others db row) with
    ⟨ahead, behind, hsplit, hinsert⟩
  have hkept : (store.others db row).filter
      (fun other => !Row.sameKey store.model next other) = store.others db row := by
    rw [List.filter_eq_self]
    intro other hother
    rw [Row.sameKey_of_key_eq hkey]
    exact (List.mem_filter.mp hother).2
  unfold others at hkept ⊢
  rw [rows_replaced store db hnext, hinsert, List.filter_append,
    List.filter_cons_of_neg (by simp [Row.sameKey_self]), ← List.filter_append, ← hsplit]
  exact hkept

/-- The test whether the key of a row is compared as a cell. -/
def hasCell (store : Store) (cell : Cell) (row : Row) : Bool :=
  (row.cell store.model.keyField).sameKey cell

/-- Looking up one key compares its cell with the key of each row. -/
theorem rowOfKey?_of_single
    {part : Value} {column : Column}
    (hsingle : store.model.primaryKey.length = 1)
    (hcolumn : store.model.column? store.model.keyField = some column) (db : Database) :
    store.rowOfKey? db [part] = (db.rows store.model).find? (store.hasCell
      ((Test.boundCell column.type part).against column.type.affinity)) := by
  have hcolumns : keyColumns store.model = [column] := by
    unfold keyColumns
    rw [Model.primaryKey_of_single hsingle, List.filterMap_cons_some hcolumn]
    rfl
  unfold rowOfKey? hasCell
  rw [hcolumns, ← Model.key_of_column? hcolumn]
  apply congrArg (List.find? · _)
  funext other
  exact Bool.and_true _

/-- Two cells to which one key is compared find the same row. -/
theorem hasCell_congr
    {cell own : Cell}
    (hcell : store.hasCell cell row = true) (hown : store.hasCell own row = true) :
    store.hasCell cell = store.hasCell own :=
  funext fun _ => Cell.sameKey_congr (Cell.sameKey_trans (Cell.sameKey_symm hcell) hown) _

/-- Behind a change, the key of the changed row leads to the new row. -/
theorem find?_replaced_self
    {cell own : Cell}
    (hsingle : store.model.primaryKey.length = 1)
    (hkept : next.cell store.model.keyField = row.cell store.model.keyField)
    (hfirst : (db.rows store.model).find? (store.hasCell own) = some row)
    (hcell : store.hasCell cell row = true) :
    ((store.replaced db row next).rows store.model).find? (store.hasCell cell) = some next := by
  by_cases hnext : next = row
  · rw [hnext, replaced_self, hasCell_congr hcell (List.find?_some hfirst)]
    exact hfirst
  rw [rows_replaced store db hnext]
  apply Row.find?_insertInOrder
  · unfold hasCell
    rw [hkept]
    exact hcell
  · intro other hother
    rw [Bool.eq_false_iff]
    intro hsame
    have hkeys := Row.sameKey_of_single (Model.primaryKey_of_single hsingle)
      (Cell.sameKey_trans hcell (Cell.sameKey_symm hsame))
    have hapart := (List.mem_filter.mp hother).2
    rw [hkeys] at hapart
    cases hapart

/-- And every other key leads to the row to which it led before. -/
theorem find?_replaced_other
    {cell : Cell}
    (hsingle : store.model.primaryKey.length = 1)
    (hkept : next.cell store.model.keyField = row.cell store.model.keyField)
    (hcell : store.hasCell cell row = false) :
    ((store.replaced db row next).rows store.model).find? (store.hasCell cell) =
      (db.rows store.model).find? (store.hasCell cell) := by
  by_cases hnext : next = row
  · rw [hnext, replaced_self]
  have hother : store.hasCell cell next = false := by
    unfold hasCell at hcell ⊢
    rw [hkept]
    exact hcell
  rw [rows_replaced store db hnext, Row.find?_insertInOrder_of_not _ _ hother]
  unfold others
  rw [List.find?_filter]
  congr 1
  funext other
  rw [Bool.eq_iff_iff, decide_eq_true_eq]
  refine and_iff_right_of_imp fun hmatches => ?_
  rw [Bool.not_eq_true']
  by_contra hsame
  rw [Bool.not_eq_false] at hsame
  have hrow := Row.cell_sameKey_of_single (Model.primaryKey_of_single hsingle) hsame hmatches
  rw [show store.hasCell cell row = true from hrow] at hcell
  cases hcell

/-! ## The change made again -/

theorem cell_of_replacement
    (hunnamed : Assoc.get? payload store.model.keyField = none)
    (h : store.replacement db key payload = .ok (some (row, next))) :
    next.cell store.model.keyField = row.cell store.model.keyField := by
  rcases steps_of_replacement h with ⟨_, _, _, entity, _, _, _, _, hchanged⟩
  rcases changed_eq_ok hchanged with ⟨_, rfl, _⟩
  apply cell_changedRow_of_notMem
  intro hmem
  rcases List.mem_map.mp hmem with ⟨⟨column, v⟩, hchange, hkey⟩
  rw [← hkey, (mem_changes_iff.mp hchange).2.1] at hunnamed
  cases hunnamed

theorem key_of_replacement
    (hsingle : store.model.primaryKey.length = 1)
    (hunnamed : Assoc.get? payload store.model.keyField = none)
    (h : store.replacement db key payload = .ok (some (row, next))) :
    next.key store.model = row.key store.model := by
  unfold Row.key
  rw [Model.primaryKey_of_single hsingle, List.map_singleton, List.map_singleton,
    cell_of_replacement hunnamed h]

/-- Changes that were made, and no others, leave the changed row as it is. -/
theorem changed_again
    {shown : List Value} {first again : List (Column × Value)}
    (hdistinct : (first.map (·.1.key)).Nodup) (hsubset : again ⊆ first)
    (hkey : next.key store.model = row.key store.model)
    (hfound : store.rowOfKey? (store.replaced db row next) shown = some next)
    (hchanged : store.changed db shown first = .ok (row, next)) :
    store.changed (store.replaced db row next) shown again = .ok (next, next) := by
  rcases changed_eq_ok hchanged with ⟨_, hnext, hcomplete, hfresh⟩
  have hself : changedRow next again = next := by
    apply changedRow_eq_self
    intro change hchange
    rw [hnext]
    exact get?_changedRow_of_mem row hdistinct (hsubset hchange)
  have hprepare : prepare .update store.name false
      ((again.map fun change => Binding.bind change.1.type change.2) ++
        bindKey store.model shown) = .ok () := by
    unfold changed at hchanged
    rcases bind_eq_ok.mp hchanged with ⟨_, hprepared, _⟩
    have hbound := Binding.firstError?_eq_none_iff.mp (prepare_eq_ok.mp hprepared).2
    refine prepare_eq_ok.mpr ⟨rfl, Binding.firstError?_eq_none_iff.mpr ?_⟩
    rw [List.forall_mem_append] at hbound ⊢
    exact ⟨fun binding hbinding => hbound.1 binding (List.map_subset _ hsubset hbinding), hbound.2⟩
  unfold changed
  refine bind_eq_ok.mpr ⟨(), hprepare, ?_⟩
  rw [hfound]
  dsimp only
  rw [hself, others_replaced hkey, hcomplete, hfresh]
  rfl

/-- To which row a key leads behind a change: to the new one, or to a row that can be read. -/
structure LeadsTo (store : Store) (db : Database) (key : Value) (payload : Assoc Value)
    (row next again : Row) : Prop where
  found : ∃ column v part, store.model.column? store.model.keyField = some column ∧
    Clause.coerce column key = .ok v ∧ keyParts? store.model v = some [part] ∧
    (∀ after, store.locate after v = .ok (store.rowOfKey? after [part])) ∧
    store.rowOfKey? (store.replaced db row next) [part] = some again
  readable : again = next ∨ ∃ shown, showWhole store.model again = .ok shown
  changed : ∀ entity, loadRow store.model none again = .ok entity →
    store.changed (store.replaced db row next) entity.key
      (changes store.model payload entity) = .ok (next, next)

/-- Where a row is looked up without an error, it is looked up in every database. -/
theorem locate_of_parts
    {v : Value} {parts : List Value} {found : Option Row}
    (hparts : keyParts? store.model v = some parts) (h : store.locate db v = .ok found)
    (after : Database) :
    store.locate after v = .ok (store.rowOfKey? after parts) := by
  unfold locate at h ⊢
  rw [hparts] at h ⊢
  rcases bind_eq_ok.mp h with ⟨_, hprepare, _⟩
  exact bind_eq_ok.mpr ⟨(), hprepare, rfl⟩

/-- The key that an entity shows has one part where the key has. -/
theorem exists_key_eq_singleton
    {column : Column} {attributes : Option (List String)} {found row : Row} {entity : Entity}
    (hsingle : store.model.primaryKey.length = 1)
    (hcolumn : store.model.column? store.model.keyField = some column)
    (hload : loadRow store.model attributes found = .ok entity)
    (hrow : store.rowOfKey? db entity.key = some row) :
    ∃ part, entity.key = [part] := by
  rcases isShown_of_rowOfKey? hsingle hcolumn hload hrow with ⟨_, part, hcolumn', hread, _⟩
  rw [hcolumn] at hcolumn'
  cases hcolumn'
  refine ⟨part, Option.some.inj ((Entity.reads_of_loadRow hload).key.symm.trans ?_)⟩
  apply readKey?_of_single hsingle
  unfold readId?
  rw [hcolumn, Option.bind_some, Model.key_of_column? hcolumn, hread]

/-- Rows with one cell as their key show one key. -/
theorem key_eq_of_cell_eq
    {attributes attributes' : Option (List String)} {found next : Row} {entity entity' : Entity}
    (hsingle : store.model.primaryKey.length = 1)
    (hkept : next.cell store.model.keyField = found.cell store.model.keyField)
    (hload : loadRow store.model attributes found = .ok entity)
    (hload' : loadRow store.model attributes' next = .ok entity') :
    entity'.key = entity.key := by
  have hread : readKey? store.model next = readKey? store.model found := by
    apply readKey?_congr
    rw [Model.primaryKey_of_single hsingle]
    exact List.forall_mem_singleton.mpr hkept
  rw [(Entity.reads_of_loadRow hload').key, (Entity.reads_of_loadRow hload).key] at hread
  exact Option.some.inj hread

/-- A change that leaves the key alone comes to the new row when it is made again: the row that the
key led to was the one that was changed, or it still stands there and shows the same. -/
theorem exists_leadsTo
    (hfields : store.model.fields.Nodup) (hsingle : store.model.primaryKey.length = 1)
    (hunnamed : Assoc.get? payload store.model.keyField = none)
    (h : store.replacement db key payload = .ok (some (row, next))) :
    ∃ again, store.LeadsTo db key payload row next again := by
  have hkept := cell_of_replacement hunnamed h
  have hkey := key_of_replacement hsingle hunnamed h
  rcases steps_of_replacement h with
    ⟨column, v, found, entity, hfield, hv, hlocate, hload, hchanged⟩
  have hcolumn := Clause.column_eq_ok.mp hfield
  have hdistinct := (sublist_keys_changes store.model payload entity).nodup hfields
  rcases changed_eq_ok hchanged with ⟨hrow, hnext, _⟩
  rcases locate_eq_some hlocate with ⟨parts, hparts, hfound⟩
  rcases exists_part hsingle hparts with ⟨part, rfl⟩
  rcases exists_key_eq_singleton hsingle hcolumn hload hrow with ⟨p, hp⟩
  rw [hp, rowOfKey?_of_single hsingle hcolumn] at hrow
  have hagain : store.rowOfKey? (store.replaced db row next) entity.key = some next := by
    rw [hp, rowOfKey?_of_single hsingle hcolumn]
    exact find?_replaced_self hsingle hkept hrow (List.find?_some hrow)
  have hlooked := hfound
  rw [rowOfKey?_of_single hsingle hcolumn] at hlooked
  cases hown : store.hasCell ((Test.boundCell column.type part).against column.type.affinity) row with
  | true =>
      -- the key of the row that is changed is the one that is looked up
      have hsame : found = row := by
        rw [hasCell_congr hown (List.find?_some hrow), hrow] at hlooked
        exact (Option.some.inj hlooked).symm
      refine ⟨next, ⟨column, v, part, hcolumn, hv, hparts, locate_of_parts hparts hlocate, ?_⟩,
        Or.inl rfl, ?_⟩
      · rw [rowOfKey?_of_single hsingle hcolumn]
        exact find?_replaced_self hsingle hkept hrow hown
      · intro entity' hload'
        have hkeys := key_eq_of_cell_eq hsingle (hsame ▸ hkept) hload hload'
        have hsubset : changes store.model payload entity' ⊆
            changes store.model payload entity := by
          rw [hnext, ← hsame] at hload'
          exact changes_changedRow_subset hfields hload hload'
        rw [hkeys]
        exact changed_again hdistinct hsubset hkey hagain hchanged
  | false =>
      refine ⟨found, ⟨column, v, part, hcolumn, hv, hparts, locate_of_parts hparts hlocate, ?_⟩,
        Or.inr ⟨_, showRow_eq_ok.mpr ⟨entity, hload, rfl⟩⟩, ?_⟩
      · rw [rowOfKey?_of_single hsingle hcolumn, find?_replaced_other hsingle hkept hown]
        exact hlooked
      · intro entity' hload'
        rw [hload] at hload'
        cases hload'
        exact changed_again hdistinct (List.Subset.refl _) hkey hagain hchanged

/-- A change that leaves the key alone, made again, writes the same row again. -/
theorem replacement_again
    {again : Row}
    (h : store.LeadsTo db key payload row next again) :
    store.replacement (store.replaced db row next) key payload =
      (loadRow store.model none again).map fun _ => some (next, next) := by
  rcases h.found with ⟨column, v, part, hcolumn, hv, _, hlocate, hfound⟩
  unfold replacement
  rw [Clause.column_eq_ok.mpr hcolumn]
  change (Clause.coerce column key >>= _) = _
  rw [hv]
  change (store.locate _ v >>= _) = _
  rw [hlocate, hfound]
  change (loadRow store.model none again >>= _) = _
  cases hload : loadRow store.model none again with
  | error error => rfl
  | ok entity =>
      change (store.changed _ entity.key _ >>= _) = _
      rw [h.changed entity hload]
      rfl

/-- A change that leaves the key alone, made twice in a row, is made once. -/
theorem update_update
    (hfields : store.model.fields.Nodup) (hsingle : store.model.primaryKey.length = 1)
    (hunnamed : Assoc.get? payload store.model.keyField = none) :
    store.update (store.update db key payload).2 key payload = store.update db key payload := by
  cases hnext : store.replacement db key payload with
  | error error =>
      rw [update_of_error hnext]
      exact update_of_error hnext
  | ok written =>
      rcases written with _ | ⟨row, next⟩
      · rw [update_of_missing hnext]
        exact update_of_missing hnext
      · rcases exists_leadsTo hfields hsingle hunnamed hnext with ⟨again, hleads⟩
        have hagain := replacement_again hleads
        rw [update_of_replacement hnext]
        cases hload : loadRow store.model none again with
        | error error =>
            rw [hload] at hagain
            rw [update_of_error hagain]
            rcases hleads.readable with rfl | ⟨shown, hshown⟩
            · rw [show showWhole store.model again = .error error from map_eq_error.mpr hload]
              rfl
            · rcases showRow_eq_ok.mp hshown with ⟨entity, hentity, _⟩
              rw [hload] at hentity
              cases hentity
        | ok entity =>
            rw [hload] at hagain
            rw [update_of_replacement hagain, replaced_self]

end Store

/-! ## The row that a path names -/

namespace Storage

/-- A key that is read from a path is compared alike when a row is looked for and when it is
changed. -/
theorem comparedCell_of_text
    {column : Column} {s : String} {v : Value}
    (h : Clause.coerce column (.text s) = .ok v) :
    comparedCell column v =
      (Test.boundCell column.type v).against column.type.affinity := by
  unfold Clause.coerce Operand.coerce at h
  rw [mapError_eq_ok] at h
  dsimp only at h
  rcases column with ⟨key, name, type, nullable, default, reference⟩
  cases type with
  | integer =>
      rcases map_eq_ok.mp h with ⟨d, _, rfl⟩
      unfold Operand.integral
      cases d.toInt? with
      | none => rfl
      | some n => rfl
  | boolean =>
      rcases map_eq_ok.mp h with ⟨b, _, rfl⟩
      cases b <;> rfl
  | varchar _ | enumeration _ | blob | untyped =>
      cases h
      rfl
  | date | float | numeric _ _ | timestamp | uuid =>
      rcases map_eq_ok.mp h with ⟨_, _, rfl⟩
      rfl

/-- A key that is read from a path has one part. -/
theorem keyParts?_of_text
    {model : Model} {column : Column} {s : String} {v part : Value}
    (hsingle : model.primaryKey.length = 1) (h : Clause.coerce column (.text s) = .ok v)
    (hparts : keyParts? model v = some [part]) :
    part = v := by
  have hplain : keyParts? model v = some [v] := by
    unfold Clause.coerce Operand.coerce at h
    rw [mapError_eq_ok] at h
    dsimp only at h
    unfold keyParts?
    rcases column with ⟨key, name, type, nullable, default, reference⟩
    cases type with
    | integer =>
        rcases map_eq_ok.mp h with ⟨d, _, rfl⟩
        unfold Operand.integral
        cases d.toInt? with
        | none => exact if_pos hsingle
        | some n => exact if_pos hsingle
    | varchar _ | enumeration _ | blob | untyped =>
        cases h
        exact if_pos hsingle
    | boolean | date | float | numeric _ _ | timestamp | uuid =>
        rcases map_eq_ok.mp h with ⟨_, _, rfl⟩
        exact if_pos hsingle
  rw [hplain] at hparts
  cases hparts
  rfl

end Storage

/-- The query for the rows with a key, which are shown as a whole. -/
def Query.ofKey (field : String) (key : Value) : Query where
  filter := some (.condition (Predicate.equals field key))

namespace Store

variable {store : Store} {db : Database} {key : Value}

/-- Without an order, the first row on which a test says yes. -/
theorem firstRow?_nil
    {test : Row → Option Bool} {p : Row → Bool} (store : Store) (rows : List Row)
    (h : ∀ row, test row = some (p row)) :
    store.firstRow? [] test rows = some (rows.find? p) := by
  change findRow? test (sortRows [] rows) = _
  rw [sortRows_nil, findRow?_of_told fun row _ => ⟨p row, h row⟩, List.head?_filter]
  apply congrArg (fun p => some (List.find? p rows))
  funext row
  rw [h]
  cases p row <;> rfl

/-- A row that is found by a filter alone is shown as a whole. -/
theorem shown_of_filter (db : Database) (filter : Option Predicate) (row : Row) :
    (store.showRows db .find { filter } [row] >>= fun shown =>
      (pure shown.head? : Except StoreError _)).mapError (during .find store.name) =
        (showWhole store.model row).map some := by
  unfold showRows showWhole showRow
  rw [List.mapM_cons, List.mapM_nil]
  dsimp only
  cases hload : loadRow store.model none row with
  | error error =>
      rw [(loadRow_eq_error hload).1]
      rfl
  | ok entity =>
      have hshown : (store.shownOwn none [entity]).rows.map (·.2) =
          [entity.project (shownFields store.model none)] := by
        unfold shownOwn
        simp only [List.map_cons, List.map_nil, entity_singleton]
      change Except.mapError _ (pure ((store.shownOwn none [entity]).rows.map (·.2)).head?) = _
      rw [hshown]
      rfl

/-- Where a record is looked for by its key without an error, it is looked for so in every
database: the first row with the key is shown as a whole. -/
theorem find_of_key
    {found : Option (Assoc Value)}
    (hkey : key ≠ .null)
    (h : store.find db (Query.ofKey store.model.keyField key) = .ok found) :
    ∃ column operand, store.model.column? store.model.keyField = some column ∧
      Clause.coerce column key = .ok operand ∧
      ∀ after, store.find after (Query.ofKey store.model.keyField key) =
        match (after.rows store.model).find? fun row =>
            (row.cell store.model.keyField).sameKey (comparedCell column operand) with
        | some row => (showWhole store.model row).map some
        | none => .ok none := by
  unfold find at h
  rcases bind_eq_ok.mp h with ⟨_, _, h⟩
  rcases bind_eq_ok.mp h with ⟨selection, hselection, h⟩
  rcases bind_eq_ok.mp h with ⟨keys, hkeys, h⟩
  rw [mapError_eq_ok] at h
  rcases bind_eq_ok.mp h with ⟨_, hprepare, _⟩
  cases hkeys
  have hclause : ∃ clause, Clause.ofPredicate store.model store.name
      (.condition (Predicate.equals store.model.keyField key)) = .ok clause ∧
      selection = ⟨some clause, []⟩ := by
    unfold Selection.ofQuery at hselection
    rcases bind_eq_ok.mp hselection with ⟨clause?, hclause, hselection⟩
    rcases bind_eq_ok.mp hselection with ⟨required, hrequired, hselection⟩
    rcases map_eq_ok.mp hclause with ⟨clause, hmade, rfl⟩
    cases hrequired
    exact ⟨clause, hmade, (pure_eq_ok.mp hselection).symm⟩
  rcases hclause with ⟨clause, hmade, rfl⟩
  rcases selects?_equals hkey hmade with ⟨column, operand, hcolumn, hoperand, hselects⟩
  refine ⟨column, operand, hcolumn, hoperand, ?_⟩
  intro after
  have hfirst := firstRow?_nil store (after.rows store.model) fun row =>
    (Selection.selects?_of_clause after store.model clause row).trans (hselects row)
  unfold find
  rw [hselection]
  change Except.mapError _ (prepare _ _ _ _ >>= _) = _
  rw [hprepare]
  change Except.mapError _ (evaluated _ _ (store.firstRow? [] _ _) >>= _) = _
  rw [hfirst]
  cases (after.rows store.model).find? fun row =>
      (row.cell store.model.keyField).sameKey (comparedCell column operand) with
  | none => rfl
  | some row => exact shown_of_filter after _ row

/-- Behind a change, a path is looked for as it is looked up. -/
theorem find_replaced
    {s : String} {payload : Assoc Value} {row next again : Row} {found : Option (Assoc Value)}
    (hsingle : store.model.primaryKey.length = 1)
    (hfound : store.find db (Query.ofKey store.model.keyField (.text s)) = .ok found)
    (hleads : store.LeadsTo db (.text s) payload row next again) :
    store.find (store.replaced db row next) (Query.ofKey store.model.keyField (.text s)) =
      (showWhole store.model again).map some := by
  rcases find_of_key Value.noConfusion hfound with ⟨column, v, hcolumn, hv, hfind⟩
  rcases hleads.found with ⟨column', v', part, hcolumn', hv', hparts, _, hagain⟩
  rw [hcolumn] at hcolumn'
  cases hcolumn'
  rw [hv] at hv'
  cases hv'
  rw [keyParts?_of_text hsingle hv hparts, rowOfKey?_of_single hsingle hcolumn] at hagain
  rw [hfind, comparedCell_of_text hv]
  change (match List.find? (store.hasCell _) _ with | some row => _ | none => _) = _
  rw [hagain]

end Store

end RecordApi
