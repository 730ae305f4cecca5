import RecordApi.Proofs.Storage.Committing
import RecordApi.Proofs.Storage.Recalling
import RecordApi.Sample.Bands
import RecordApi.Sample.Service

/-!
# What a successful write leaves as it is

A creation puts one row among the others, and a change puts one row in the place of another one.
The row to be changed is found again by the key that it shows, which is the same row if its column
keeps the key.  Both answer with the row that now stands in the table, and neither looks at what
the payload holds beside the columns of the model.
-/

namespace RecordApi

open Steps Storage

/-! ## One row -/

namespace Store

/-- One row was put among the rows of a table. -/
structure Adds (store : Store) (db after : Database) (row : Row) : Prop where
  placed : ∃ ahead behind, db.rows store.model = ahead ++ behind ∧
    after.rows store.model = ahead ++ row :: behind
  outside : db.SameOutside store.model after

/-- One row was taken from a table, and another one was put among the rest of its rows. -/
structure Replaces (store : Store) (db after : Database) (row next : Row) : Prop where
  taken : ∃ ahead behind, db.rows store.model = ahead ++ row :: behind ∧
    ∃ ahead' behind', ahead' ++ behind' = ahead ++ behind ∧
      after.rows store.model = ahead' ++ next :: behind'
  outside : db.SameOutside store.model after

end Store

namespace Storage

variable {model : Model} {payload other : Assoc Value} {column : Column} {row next : Row}

/-- What a column of a new row holds: what it is given, its default, or a number that no other
row has.  Null stands for nothing given. -/
inductive Fills (model : Model) (rows : List Row) (payload : Assoc Value) (column : Column) :
    Cell → Prop
  | given {v : Value} (hgiven : Assoc.get? payload column.key = some v) (hv : v ≠ .null)
      (hstored : model.countsUp column = true → storedCell column v ≠ .null) :
      Fills model rows payload column (storedCell column v)
  | omitted
      (hnone : Assoc.get? payload column.key = none ∨
        Assoc.get? payload column.key = some .null)
      (hstored : model.countsUp column = true →
        storedCell column (column.default.getD .null) ≠ .null) :
      Fills model rows payload column (storedCell column (column.default.getD .null))
  | counted {n : Int} (hcounts : model.countsUp column = true)
      (hnone : storedCell column (newValue payload column) = .null)
      (hfresh : ∀ row ∈ rows, row.cell column.key ≠ .int n) :
      Fills model rows payload column (.int n)

/-- A row differs from another one in the columns that a payload names.  They hold what the payload
gives, but for those of which the row that was found shows just this: they are left as they are. -/
structure Differs (model : Model) (payload : Assoc Value) (found row next : Row) : Prop where
  named : ∀ column ∈ model.columns, ∀ v, Assoc.get? payload column.key = some v →
    ∃ w, Binding.read? column.type (found.cell column.key) = some w ∧
      next.cell column.key =
        if v.sameAs w then row.cell column.key else storedCell column v
  kept : ∀ field, (∀ column ∈ model.columns, column.key = field →
    Assoc.get? payload field = none) → next.cell field = row.cell field

end Storage

namespace Store

variable {store : Store} {db after : Database} {key : Value} {payload other : Assoc Value}
  {column : Column} {row next : Row}

/-! ## Creations -/

theorem adds_added (store : Store) (db : Database) (row : Row) :
    store.Adds db (store.added db row) row where
  placed := by
    rw [rows_added]
    exact Row.insertInOrder_split store.model row (db.rows store.model)
  outside := Database.sameOutside_withRows db store.model _

theorem isNull_iff {cell : Cell} : cell.isNull = true ↔ cell = .null := by
  cases cell <;> simp [Cell.isNull]

/-- A number that no row of the table has as its key, since the row with it is new. -/
theorem ne_of_isFresh
    {rows : List Row} {n : Int}
    (hcounts : store.model.countsUp column = true) (hcell : row.cell column.key = .int n)
    (hfresh : isFresh store.model row rows = true) :
    ∀ other ∈ rows, other.cell column.key ≠ .int n := by
  intro other hother hsame
  have hcells : (row.cell column.key).sameKey (other.cell column.key) := by
    rw [hcell, hsame, Cell.sameKey_iff]
    exact ⟨_, rfl, rfl⟩
  have hne := (isFresh_iff _ _ _).mp hfresh other hother
  rw [Row.sameKey_of_single (Model.of_countsUp hcounts).1 hcells] at hne
  cases hne

theorem fills_of_insert
    (hfields : store.model.fields.Nodup) (hinsert : store.insert db payload = .ok row)
    (hcolumn : column ∈ store.model.columns) :
    Fills store.model (db.rows store.model) payload column (row.cell column.key) := by
  rcases insert_eq_ok hinsert with ⟨hrow, _, hfresh⟩
  have hcell : (newRow store.model payload (db.rows store.model)).cell column.key = _ :=
    cell_newRow _ (Model.column?_of_mem hfields hcolumn)
  rw [← hrow] at hcell
  by_cases hcounted : store.model.countsUp column = true ∧
      storedCell column (newValue payload column) = .null
  · rcases hcounted with ⟨hcounts, hnone⟩
    rw [hcounts, hnone] at hcell
    have hnumber : row.cell column.key = .int (nextKey column.key (db.rows store.model)) := hcell
    rw [hnumber]
    exact .counted hcounts hnone (ne_of_isFresh hcounts hnumber hfresh)
  · have hstored : store.model.countsUp column = true →
        storedCell column (newValue payload column) ≠ .null :=
      fun hcounts hnone => hcounted ⟨hcounts, hnone⟩
    have hplain : row.cell column.key = storedCell column (newValue payload column) := by
      rw [hcell, if_neg]
      rw [Bool.and_eq_true, isNull_iff]
      exact hcounted
    rw [hplain]
    unfold newValue at hstored ⊢
    cases hgiven : Assoc.get? payload column.key with
    | none =>
        rw [hgiven] at hstored
        exact .omitted (Or.inl hgiven) hstored
    | some v =>
        rw [hgiven] at hstored
        cases v with
        | null => exact .omitted (Or.inr hgiven) hstored
        | _ => exact .given hgiven Value.noConfusion hstored

/-! ## Changes -/

/-- The key of a row is the one that is looked up, once this is converted for its column. -/
def IsNamed (store : Store) (key : Value) (row : Row) : Prop :=
  ∃ column v part, store.model.column? store.model.keyField = some column ∧
    Clause.coerce column key = .ok v ∧ keyParts? store.model v = some [part] ∧
    (row.cell store.model.keyField).sameKey
      ((Test.boundCell column.type part).against column.type.affinity) = true

theorem exists_part
    {model : Model} {v : Value} {parts : List Value}
    (hsingle : model.primaryKey.length = 1) (h : keyParts? model v = some parts) :
    ∃ part, parts = [part] := by
  unfold keyParts? at h
  dsimp only at h
  split at h
  · split at h
    · rename_i hlength
      rw [← Option.some.inj h]
      exact List.length_eq_one_iff.mp (hlength.trans hsingle)
    · cases h
  · split at h
    · rw [Model.primaryKey_of_single hsingle, List.mapM_cons, List.mapM_nil] at h
      rcases Option.bind_eq_some_iff.mp h with ⟨part, _, hparts⟩
      exact ⟨part, (Option.some.inj hparts).symm⟩
    · cases h
  · rw [if_pos hsingle] at h
    exact ⟨v, (Option.some.inj h).symm⟩

/-- The key of a row is the one that another row shows. -/
def IsShown (store : Store) (found row : Row) : Prop :=
  ∃ column v, store.model.column? store.model.keyField = some column ∧
    Binding.read? column.type (found.cell store.model.keyField) = some v ∧
    (row.cell store.model.keyField).sameKey
      ((Test.boundCell column.type v).against column.type.affinity) = true

/-- Where the key is a single field, a row is found whose cell there is compared with one part. -/
theorem of_rowOfKey?
    {part : Value}
    (hsingle : store.model.primaryKey.length = 1)
    (hcolumn : store.model.column? store.model.keyField = some column)
    (h : store.rowOfKey? db [part] = some row) :
    row ∈ db.rows store.model ∧ (row.cell store.model.keyField).sameKey
      ((Test.boundCell column.type part).against column.type.affinity) = true := by
  have hcolumns : keyColumns store.model = [column] := by
    unfold keyColumns
    rw [Model.primaryKey_of_single hsingle, List.filterMap_cons_some hcolumn]
    rfl
  refine ⟨mem_of_rowOfKey? h, ?_⟩
  have hkey := List.find?_some h
  rw [hcolumns] at hkey
  rw [← Model.key_of_column? hcolumn]
  exact (Bool.and_eq_true _ _ ▸ hkey).1

/-- The row that is looked up has the key that it is looked up by. -/
theorem isNamed_of_locate
    {v : Value}
    (hsingle : store.model.primaryKey.length = 1)
    (hcolumn : store.model.column? store.model.keyField = some column)
    (hv : Clause.coerce column key = .ok v) (h : store.locate db v = .ok (some row)) :
    row ∈ db.rows store.model ∧ store.IsNamed key row := by
  rcases locate_eq_some h with ⟨parts, hparts, hfound⟩
  rcases exists_part hsingle hparts with ⟨part, rfl⟩
  rcases of_rowOfKey? hsingle hcolumn hfound with ⟨hrow, hcell⟩
  exact ⟨hrow, column, v, part, hcolumn, hv, hparts, hcell⟩

/-- The row that is changed has the key which the row that was looked up shows. -/
theorem isShown_of_rowOfKey?
    {attributes : Option (List String)} {found : Row} {entity : Entity}
    (hsingle : store.model.primaryKey.length = 1)
    (hcolumn : store.model.column? store.model.keyField = some column)
    (hload : loadRow store.model attributes found = .ok entity)
    (h : store.rowOfKey? db entity.key = some row) :
    store.IsShown found row := by
  have hin : store.model.inKey store.model.keyField = true := by
    unfold Model.inKey
    rw [Model.primaryKey_of_single hsingle]
    exact List.elem_cons_self
  rcases get?_of_loadRow hload hcolumn (Or.inl hin) with ⟨v, hread, _⟩
  have hid : readId? store.model found = some v := by
    unfold readId?
    rw [hcolumn, Option.bind_some, Model.key_of_column? hcolumn, hread]
  have hkey := (Entity.reads_of_loadRow hload).key
  rw [readKey?_of_single hsingle hid] at hkey
  rw [← Option.some.inj hkey] at h
  exact ⟨column, v, hcolumn, hread, (of_rowOfKey? hsingle hcolumn h).2⟩

/-- No two rows have the key that is looked up. -/
theorem eq_of_isNamed
    {row' : Row}
    (hsingle : store.model.primaryKey.length = 1) (hdistinct : store.KeysDistinct db)
    (hrow : row ∈ db.rows store.model) (hnamed : store.IsNamed key row)
    (hrow' : row' ∈ db.rows store.model) (hnamed' : store.IsNamed key row') :
    row' = row := by
  rcases hnamed with ⟨column, v, part, hcolumn, hv, hparts, hcell⟩
  rcases hnamed' with ⟨column', v', part', hcolumn', hv', hparts', hcell'⟩
  rw [hcolumn] at hcolumn'
  cases hcolumn'
  rw [hv] at hv'
  cases hv'
  rw [hparts] at hparts'
  cases hparts'
  exact Row.eq_of_sameKey (Model.primaryKey_of_single hsingle) hdistinct hrow' hrow
    (Cell.sameKey_trans hcell' (Cell.sameKey_symm hcell))

/-- Where the column keeps the key of a row, only the row itself has the key that it shows. -/
theorem eq_of_isShown
    {found : Row} {v : Value}
    (hsingle : store.model.primaryKey.length = 1) (hdistinct : store.KeysDistinct db)
    (hfound : found ∈ db.rows store.model) (hrow : row ∈ db.rows store.model)
    (hcolumn : store.model.column? store.model.keyField = some column)
    (hkeeps : column.type.Keeps (found.cell store.model.keyField) v)
    (h : store.IsShown found row) :
    row = found := by
  rcases h with ⟨column', v', hcolumn', hread, hcell⟩
  rw [hcolumn] at hcolumn'
  cases hcolumn'
  rw [hkeeps.read?] at hread
  cases hread
  exact Row.eq_of_sameKey (Model.primaryKey_of_single hsingle) hdistinct hrow hfound
    (Cell.sameKey_trans hcell (Cell.sameKey_symm hkeeps.sameKey_boundCell))

theorem replaces_replaced
    (hdistinct : store.KeysDistinct db) (hrow : row ∈ db.rows store.model) :
    store.Replaces db (store.replaced db row next) row next where
  taken := by
    rcases exists_others hdistinct hrow with ⟨ahead, behind, hrows, hothers⟩
    refine ⟨ahead, behind, hrows, ?_⟩
    by_cases hnext : next = row
    · rw [hnext, replaced_self]
      exact ⟨ahead, behind, rfl, hrows⟩
    · rcases Row.insertInOrder_split store.model next (store.others db row) with
        ⟨ahead', behind', hrest, hinsert⟩
      refine ⟨ahead', behind', hrest.symm.trans hothers, ?_⟩
      rw [rows_replaced store db hnext, hinsert]
  outside := sameOutside_replaced store db row next

theorem differs_of_changes
    {found : Row} {entity : Entity}
    (hfields : store.model.fields.Nodup) (hload : loadRow store.model none found = .ok entity)
    (row : Row) :
    Differs store.model payload found row
      (changedRow row (changes store.model payload entity)) := by
  constructor
  · intro column hcolumn v hgiven
    rcases read?_of_loadRow hfields hload hcolumn with ⟨w, hread, hget⟩
    refine ⟨w, hread, ?_⟩
    rw [cell_changed row hfields hcolumn]
    unfold changedCell Entity.value
    rw [hgiven, hget]
    rfl
  · intro field hnone
    apply cell_changedRow_of_notMem
    intro hmem
    rcases List.mem_map.mp hmem with ⟨⟨column, v⟩, hchange, hkey⟩
    rcases mem_changes_iff.mp hchange with ⟨hcolumn, hgiven, _⟩
    have hleft := hnone column hcolumn hkey
    rw [← hkey, hgiven] at hleft
    cases hleft

/-! ## What is no column -/

theorem newValue_congr
    (h : Assoc.get? other column.key = Assoc.get? payload column.key) :
    newValue other column = newValue payload column := by
  unfold newValue
  rw [h]

theorem create_congr
    (db : Database)
    (h : ∀ column ∈ store.model.columns,
      Assoc.get? other column.key = Assoc.get? payload column.key) :
    store.create db other = store.create db payload := by
  have hrow : newRow store.model other (db.rows store.model) =
      newRow store.model payload (db.rows store.model) := by
    apply List.map_congr_left
    intro column hcolumn
    rw [newValue_congr (h column hcolumn)]
  have hbindings : (store.model.columns.map fun column =>
      Binding.bind column.type (newValue other column)) =
      store.model.columns.map fun column => Binding.bind column.type (newValue payload column) := by
    apply List.map_congr_left
    intro column hcolumn
    rw [newValue_congr (h column hcolumn)]
  have hinsert : store.insert db other = store.insert db payload := by
    unfold insert
    dsimp only
    rw [hrow, hbindings]
  unfold create
  rw [hinsert]

theorem update_congr
    (db : Database) (key : Value)
    (h : ∀ column ∈ store.model.columns,
      Assoc.get? other column.key = Assoc.get? payload column.key) :
    store.update db key other = store.update db key payload := by
  have hchanges : ∀ entity,
      changes store.model other entity = changes store.model payload entity := by
    intro entity
    apply List.filterMap_congr
    intro column hcolumn
    rw [h column hcolumn]
  unfold update replacement
  simp only [hchanges]

/-! ## Successful writes -/

theorem exists_adds_of_create
    {answer : Assoc Value}
    (hfields : store.model.fields.Nodup) (h : store.create db payload = (.ok answer, after)) :
    ∃ row, store.Adds db after row ∧
      (∀ column ∈ store.model.columns,
        Fills store.model (db.rows store.model) payload column (row.cell column.key)) ∧
      showWhole store.model row = .ok answer := by
  cases hrow : store.insert db payload with
  | error error =>
      rw [create_of_error hrow] at h
      cases h
  | ok row =>
      rw [create_of_insert hrow] at h
      rcases Prod.mk.inj h with ⟨hshown, rfl⟩
      exact ⟨row, adds_added store db row, fun _ hcolumn => fills_of_insert hfields hrow hcolumn,
        hshown⟩

/-- A change has taken place: a row was found by its key, and the row with the key that it shows
differs now in what the payload names. -/
structure Changes (store : Store) (db after : Database) (key : Value) (payload : Assoc Value)
    (found row next : Row) : Prop where
  mem : found ∈ db.rows store.model ∧ row ∈ db.rows store.model
  named : store.IsNamed key found
  only : ∀ other ∈ db.rows store.model, store.IsNamed key other → other = found
  shown : store.IsShown found row
  /-- A row whose key is kept by its column is itself the row that is changed. -/
  same : ∀ column v, store.model.column? store.model.keyField = some column →
    column.type.Keeps (found.cell store.model.keyField) v → row = found
  replaces : store.Replaces db after row next
  differs : Differs store.model payload found row next

theorem exists_changes_of_update
    {answer : Assoc Value}
    (hfields : store.model.fields.Nodup) (hsingle : store.model.primaryKey.length = 1)
    (hdistinct : store.KeysDistinct db)
    (h : store.update db key payload = (.ok (some answer), after)) :
    ∃ found row next, store.Changes db after key payload found row next ∧
      showWhole store.model next = .ok answer := by
  cases hnext : store.replacement db key payload with
  | error error =>
      rw [update_of_error hnext] at h
      cases h
  | ok written =>
      rcases written with _ | ⟨row, next⟩
      · rw [update_of_missing hnext] at h
        cases h
      · rw [update_of_replacement hnext] at h
        rcases Prod.mk.inj h with ⟨hshown, rfl⟩
        rcases steps_of_replacement hnext with
          ⟨column, v, found, entity, hfield, hv, hlocate, hload, hchanged⟩
        have hcolumn := Clause.column_eq_ok.mp hfield
        rcases changed_eq_ok hchanged with ⟨hagain, rfl, _⟩
        have hrow := mem_of_rowOfKey? hagain
        rcases isNamed_of_locate hsingle hcolumn hv hlocate with ⟨hfound, hnamed⟩
        have hkey := isShown_of_rowOfKey? hsingle hcolumn hload hagain
        refine ⟨found, row, _, ⟨⟨hfound, hrow⟩, hnamed, ?_, hkey, ?_,
          replaces_replaced hdistinct hrow, differs_of_changes hfields hload row⟩, ?_⟩
        · exact fun other hother => eq_of_isNamed hsingle hdistinct hfound hnamed hother
        · exact fun _ _ hcolumn' hkeeps =>
            eq_of_isShown hsingle hdistinct hfound hrow hcolumn' hkeeps hkey
        · rcases map_eq_ok.mp hshown with ⟨shown, hshown, heq⟩
          rw [hshown, Option.some.inj heq]

/-- A successful creation adds one row, filled from the payload and the defaults.  A successful
change takes one row away, that with the key which the row looked up shows, and puts one back that
differs from it in what the payload names.  Both answer with the row that they put, and what is no
column changes nothing. -/
theorem frame_of_write
    (store : Store) (db : Database) (hfields : store.model.fields.Nodup) :
    (∀ payload answer after, store.create db payload = (.ok answer, after) →
      ∃ row, store.Adds db after row ∧
        (∀ column ∈ store.model.columns,
          Fills store.model (db.rows store.model) payload column (row.cell column.key)) ∧
        showWhole store.model row = .ok answer) ∧
    (∀ key payload answer after, store.model.primaryKey.length = 1 → store.KeysDistinct db →
      store.update db key payload = (.ok (some answer), after) →
      ∃ found row next, store.Changes db after key payload found row next ∧
        showWhole store.model next = .ok answer) ∧
    ∀ payload other : Assoc Value,
      (∀ column ∈ store.model.columns,
        Assoc.get? other column.key = Assoc.get? payload column.key) →
      store.create db other = store.create db payload ∧
        ∀ key, store.update db key other = store.update db key payload := by
  refine ⟨?_, ?_, ?_⟩
  · exact fun _ _ _ h => exists_adds_of_create hfields h
  · exact fun _ _ _ _ hsingle hdistinct h =>
      exists_changes_of_update hfields hsingle hdistinct h
  · exact fun _ _ hcolumns =>
      ⟨create_congr db hcolumns, fun key => update_congr db key hcolumns⟩

end Store

namespace Sample

/-- A post that leaves its key and its state open. -/
def draftPost : Assoc Value :=
  [("id", .null), ("title", .text "New"), ("published", .null), ("author_id", .int 4)]

/-- Another code for a tag; the column of the code has another name in its table. -/
def recodedTag : Assoc Value := [("code", .text "z"), ("tag_code", .text "y")]

theorem frame_of_write_posts :
    let store := (resource posts).store
    let other := (resource tags).store
    posts.fields.Nodup ∧ tags.fields.Nodup ∧ tags.primaryKey.length = 1 ∧
      other.KeysDistinct database ∧
      store.create database (Assoc.put "views" (.int 9) draftPost) =
        store.create database draftPost ∧
      (∃ answer after row, store.create database draftPost = (.ok answer, after) ∧
        store.Adds database after row ∧
        Storage.Fills posts (database.rows posts) draftPost identity (row.cell "id") ∧
        Storage.showWhole posts row = .ok answer) ∧
      ∃ answer after row next,
        other.update database (.text "c") recodedTag = (.ok (some answer), after) ∧
        other.IsNamed (.text "c") row ∧ other.Replaces database after row next ∧
        next.cell "label" = row.cell "label" ∧ Storage.showWhole tags next = .ok answer := by
  intro store other
  have hposts : posts.fields.Nodup := by decide
  have htags : tags.fields.Nodup := by decide
  have hdistinct : other.KeysDistinct database := by
    unfold Store.KeysDistinct
    decide
  have hcreates := Store.frame_of_write store database hposts
  have hupdates := Store.frame_of_write other database htags
  have hcreate : (store.create database draftPost).1.toOption.isSome = true := by
    decide
  have hupdate : ((other.update database (.text "c") recodedTag).1.toOption.bind id).isSome =
      true := by
    decide
  refine ⟨hposts, htags, rfl, hdistinct, ?_, ?_, ?_⟩
  · have hviews : "views" ∉ posts.fields := by decide
    refine (hcreates.2.2 draftPost _ fun column hcolumn => Assoc.get?_put_of_ne ?_ _ _).1
    exact fun hkey => hviews (hkey ▸ List.mem_map_of_mem hcolumn)
  · generalize hwritten : store.create database draftPost = written at hcreate
    rcases written with ⟨_ | answer, after⟩
    · cases hcreate
    · rcases hcreates.1 _ _ _ hwritten with ⟨row, hadds, hfills, hshown⟩
      exact ⟨answer, after, row, rfl, hadds, hfills identity List.mem_cons_self, hshown⟩
  · generalize hwritten : other.update database (.text "c") recodedTag = written at hupdate
    rcases written with ⟨_ | _ | answer, after⟩
    · cases hupdate
    · cases hupdate
    · rcases hupdates.2.1 _ _ _ _ rfl hdistinct hwritten with
        ⟨found, row, next, hchanges, hshown⟩
      have hcolumn : tags.column? "code" =
          some ⟨"code", "tag_code", .varchar (some 20), false, none, none⟩ := rfl
      have hkept : ∃ v, (ColumnType.varchar (some 20)).Keeps (found.cell "code") v := by
        have htexts : ∀ row ∈ database.rows tags,
            ∃ s ∈ ["a", "b", "c", "d/e"], row.cell "code" = .text s := by
          decide
        rcases htexts found hchanges.mem.1 with ⟨s, _, hcell⟩
        rw [hcell]
        exact ⟨.text s, .text s⟩
      rcases hkept with ⟨v, hv⟩
      have hsame : row = found := hchanges.same _ v hcolumn hv
      have hlabel : next.cell "label" = row.cell "label" :=
        hchanges.differs.kept "label" fun _ _ _ => rfl
      exact ⟨answer, after, row, next, rfl, hsame ▸ hchanges.named, hchanges.replaces, hlabel,
        hshown⟩

/-- The cells of a column. -/
def cellsOf (model : Model) (field : String) (db : Database) : List Cell :=
  (db.rows model).map (·.cell field)

/-- The second band is looked up and the first one is changed, as it has the key that the second one
shows.  And an item is not given the price that it shows, though it has another one. -/
theorem other_row_changed :
    cellsOf bands "label" (bandStore.update bandDatabase finePrice [("label", .text "new")]).2 =
        [.text "new", .text "second"] ∧
      (let store := (resource items).store
       let stored := (store.create database [("price", finePrice)]).2
       let column := optional "price" (.numeric 10 2)
       cellsOf items "price" (store.update stored (.int 7) [("price", priceOf false 125)]).2 =
          cellsOf items "price" stored ∧
        (cellsOf items "price" stored).getLast? = some (storedCell column finePrice) ∧
        storedCell column finePrice ≠ storedCell column (priceOf false 125)) := by
  decide +kernel

end Sample
end RecordApi
