import RecordApi.Proofs.Steps
import RecordApi.Proofs.Storage.Keys

/-!
# What a write changes

A write changes the rows of its own table only.  A new row stands beside all earlier ones, a
replacement takes one key away and gives one, and a destruction leaves the rows on which its
predicate does not hold.  None of them puts two rows under one key.
-/

namespace RecordApi

open Steps

/-! ## The contents of a database -/

namespace Database

/-- Two databases hold the same rows and the same links; the order of rows does not count. -/
structure SameContents (before after : Database) : Prop where
  rows : ∀ model : Model, (after.rows model).Perm (before.rows model)
  links : after.links = before.links

/-- Two databases differ in the rows of one table at most. -/
structure SameOutside (model : Model) (before after : Database) : Prop where
  rows : ∀ other : Model, model.table ≠ other.table → after.rows other = before.rows other
  links : after.links = before.links

theorem SameContents.refl (db : Database) : SameContents db db where
  rows := fun model => List.Perm.refl (db.rows model)
  links := rfl

theorem sameOutside_withRows (db : Database) (model : Model) (rows : List Row) :
    SameOutside model db (db.withRows model rows) where
  rows := fun _ hne => rows_withRows_of_ne hne db rows
  links := rfl

theorem sameContents_withRows_iff (db : Database) (model : Model) (rows : List Row) :
    SameContents db (db.withRows model rows) ↔ rows.Perm (db.rows model) := by
  constructor
  · intro hsame
    have hrows := hsame.rows model
    rw [rows_withRows] at hrows
    exact hrows
  · intro hperm
    refine ⟨?_, rfl⟩
    intro other
    by_cases htable : model.table = other.table
    · have hother : ∀ db : Database, db.rows other = db.rows model := by
        intro db
        unfold Database.rows
        rw [htable]
      rw [hother, hother, rows_withRows]
      exact hperm
    · rw [rows_withRows_of_ne htable]

end Database

namespace Store

open Storage

variable {store : Store} {db : Database}

/-- No two rows of the table have one key. -/
def KeysDistinct (store : Store) (db : Database) : Prop :=
  (db.rows store.model).Pairwise fun a b => Row.sameKey store.model a b = false

/-! ## A new row -/

theorem rows_added (store : Store) (db : Database) (row : Row) :
    (store.added db row).rows store.model =
      Row.insertInOrder store.model row (db.rows store.model) :=
  Database.rows_withRows db store.model _

theorem perm_rows_added (store : Store) (db : Database) (row : Row) :
    ((store.added db row).rows store.model).Perm (row :: db.rows store.model) := by
  rw [rows_added]
  exact Row.perm_insertInOrder store.model row (db.rows store.model)

theorem not_sameContents_added (store : Store) (db : Database) (row : Row) :
    ¬ db.SameContents (store.added db row) := by
  intro hsame
  have hlength := ((perm_rows_added store db row).symm.trans (hsame.rows store.model)).length_eq
  rw [List.length_cons] at hlength
  omega

theorem insert_eq_ok
    {payload : Assoc Value} {row : Row}
    (h : store.insert db payload = .ok row) :
    row = newRow store.model payload (db.rows store.model) ∧
      isComplete store.model row = true ∧ isFresh store.model row (db.rows store.model) = true := by
  unfold insert at h
  rcases bind_eq_ok.mp h with ⟨_, _, hrow⟩
  dsimp only at hrow
  split at hrow
  · rename_i hstands
    rw [Bool.and_eq_true] at hstands
    rw [← pure_eq_ok.mp hrow]
    exact ⟨rfl, hstands⟩
  · cases hrow

/-- A key that counts up is an integer in every row that may stand in its table. -/
theorem cell_of_isComplete
    {model : Model} {row : Row} {column : Column}
    (hcolumn : model.column? model.keyField = some column)
    (hcounts : model.countsUp column = true)
    (hcomplete : isComplete model row = true) :
    ∃ n, row.cell model.keyField = .int n := by
  unfold isComplete at hcomplete
  rw [List.all_eq_true] at hcomplete
  have hcell := hcomplete column (Model.mem_of_column? hcolumn)
  dsimp only at hcell
  rw [hcounts, Model.key_of_column? hcolumn, Bool.and_eq_true] at hcell
  revert hcell
  cases row.cell model.keyField with
  | int n =>
      intro _
      exact ⟨n, rfl⟩
  | _ =>
      intro hcell
      cases hcell.2

theorem isFresh_iff (model : Model) (row : Row) (rows : List Row) :
    isFresh model row rows = true ↔ ∀ other ∈ rows, Row.sameKey model row other = false := by
  simp [isFresh]

/-- Whether keys are distinct does not depend on the order of the rows. -/
theorem pairwise_keys_iff
    {rows rows' : List Row}
    (hperm : rows.Perm rows') :
    (rows.Pairwise fun a b => Row.sameKey store.model a b = false) ↔
      rows'.Pairwise fun a b => Row.sameKey store.model a b = false := by
  apply hperm.pairwise_iff
  intro a b h
  rw [Row.sameKey_comm]
  exact h

theorem keysDistinct_of_sameContents
    {after : Database}
    (hdistinct : store.KeysDistinct db)
    (hsame : db.SameContents after) :
    store.KeysDistinct after :=
  (pairwise_keys_iff (hsame.rows store.model)).mpr hdistinct

theorem keysDistinct_insertInOrder
    {row : Row} {rows : List Row}
    (hrows : rows.Pairwise fun a b => Row.sameKey store.model a b = false)
    (hfresh : isFresh store.model row rows = true) :
    (Row.insertInOrder store.model row rows).Pairwise
      fun a b => Row.sameKey store.model a b = false := by
  rw [pairwise_keys_iff (Row.perm_insertInOrder store.model row rows)]
  exact List.Pairwise.cons ((isFresh_iff _ _ _).mp hfresh) hrows

theorem keysDistinct_added
    {payload : Assoc Value} {row : Row}
    (hdistinct : store.KeysDistinct db)
    (h : store.insert db payload = .ok row) :
    store.KeysDistinct (store.added db row) := by
  unfold KeysDistinct
  rw [rows_added]
  exact keysDistinct_insertInOrder hdistinct (insert_eq_ok h).2.2

/-! ## A replacement -/

theorem replaced_self (store : Store) (db : Database) (row : Row) :
    store.replaced db row row = db :=
  if_pos rfl

theorem replaced_of_ne
    {row next : Row}
    (store : Store) (db : Database) (h : next ≠ row) :
    store.replaced db row next =
      db.withRows store.model (Row.insertInOrder store.model next (store.others db row)) :=
  if_neg h

theorem rows_replaced
    {row next : Row}
    (store : Store) (db : Database) (h : next ≠ row) :
    (store.replaced db row next).rows store.model =
      Row.insertInOrder store.model next (store.others db row) := by
  rw [replaced_of_ne store db h]
  exact Database.rows_withRows db store.model _

theorem mem_replaced
    {row next : Row}
    (hrow : row ∈ db.rows store.model) :
    next ∈ (store.replaced db row next).rows store.model := by
  by_cases hnext : next = row
  · rw [hnext, replaced_self]
    exact hrow
  · rw [rows_replaced store db hnext]
    exact (Row.perm_insertInOrder store.model next _).mem_iff.mpr List.mem_cons_self

theorem sameOutside_replaced (store : Store) (db : Database) (row next : Row) :
    db.SameOutside store.model (store.replaced db row next) := by
  unfold replaced
  split
  · exact ⟨fun _ _ => rfl, rfl⟩
  · exact Database.sameOutside_withRows db store.model _

theorem mem_of_rowOfKey?
    {key : List Value} {row : Row}
    (h : store.rowOfKey? db key = some row) :
    row ∈ db.rows store.model :=
  List.mem_of_find?_eq_some h

theorem locate_eq_some
    {key : Value} {row : Row}
    (h : store.locate db key = .ok (some row)) :
    ∃ parts, keyParts? store.model key = some parts ∧ store.rowOfKey? db parts = some row := by
  unfold locate at h
  split at h
  · cases h
  · rename_i parts hparts
    rcases bind_eq_ok.mp h with ⟨_, _, hrow⟩
    exact ⟨parts, hparts, pure_eq_ok.mp hrow⟩

/-- A row is changed where its key is found again and the new row may stand. -/
theorem changed_eq_ok
    {key : List Value} {changes : List (Column × Value)} {row next : Row}
    (h : store.changed db key changes = .ok (row, next)) :
    store.rowOfKey? db key = some row ∧ next = changedRow row changes ∧
      isComplete store.model next = true ∧
      isFresh store.model next (store.others db row) = true := by
  unfold changed at h
  rcases bind_eq_ok.mp h with ⟨_, _, h⟩
  split at h
  · cases h
  · rename_i found hfound
    dsimp only at h
    split at h
    · rename_i hstands
      cases pure_eq_ok.mp h
      rw [Bool.and_eq_true] at hstands
      exact ⟨hfound, rfl, hstands⟩
    · cases h

/-- A replacement has found the row of its key and loaded it, and changes the row that has the
key which the entity shows. -/
theorem steps_of_replacement
    {key : Value} {payload : Assoc Value} {row next : Row}
    (h : store.replacement db key payload = .ok (some (row, next))) :
    ∃ column v found entity,
      Clause.column store.model store.name store.model.keyField = .ok column ∧
      Clause.coerce column key = .ok v ∧ store.locate db v = .ok (some found) ∧
      loadRow store.model none found = .ok entity ∧
      store.changed db entity.key (changes store.model payload entity) = .ok (row, next) := by
  unfold replacement at h
  rcases bind_eq_ok.mp h with ⟨column, hcolumn, h⟩
  rcases bind_eq_ok.mp h with ⟨v, hv, h⟩
  rcases bind_eq_ok.mp h with ⟨found, hfound, h⟩
  cases found with
  | none => cases pure_eq_ok.mp h
  | some found =>
      rcases bind_eq_ok.mp h with ⟨entity, hentity, h⟩
      rcases bind_eq_ok.mp h with ⟨rows, hrows, h⟩
      cases pure_eq_ok.mp h
      exact ⟨column, v, found, entity, hcolumn, hv, hfound, hentity, hrows⟩

theorem replacement_eq_some
    {key : Value} {payload : Assoc Value} {row next : Row}
    (h : store.replacement db key payload = .ok (some (row, next))) :
    row ∈ db.rows store.model ∧ isComplete store.model next = true ∧
      isFresh store.model next (store.others db row) = true := by
  rcases steps_of_replacement h with ⟨_, _, _, _, _, _, _, _, hchanged⟩
  rcases changed_eq_ok hchanged with ⟨hrow, _, hstands⟩
  exact ⟨mem_of_rowOfKey? hrow, hstands⟩

theorem keysDistinct_replaced
    {key : Value} {payload : Assoc Value} {row next : Row}
    (hdistinct : store.KeysDistinct db)
    (h : store.replacement db key payload = .ok (some (row, next))) :
    store.KeysDistinct (store.replaced db row next) := by
  by_cases hnext : next = row
  · rw [hnext, replaced_self]
    exact hdistinct
  unfold KeysDistinct
  rw [rows_replaced store db hnext]
  exact keysDistinct_insertInOrder (hdistinct.filter _) (replacement_eq_some h).2.2

/-- Where keys are distinct, the rows of other keys are all rows but the one. -/
theorem exists_others
    {row : Row}
    (hdistinct : store.KeysDistinct db)
    (hrow : row ∈ db.rows store.model) :
    ∃ ahead behind, db.rows store.model = ahead ++ row :: behind ∧
      store.others db row = ahead ++ behind := by
  have htest : ∀ rows : List Row, (∀ other ∈ rows, Row.sameKey store.model row other = false) →
      rows.filter (fun other => !Row.sameKey store.model row other) = rows := by
    intro rows hrows
    rw [List.filter_eq_self]
    intro other hother
    rw [hrows other hother]
    rfl
  rcases List.mem_iff_append.mp hrow with ⟨ahead, behind, hsplit⟩
  unfold KeysDistinct at hdistinct
  rw [hsplit, List.pairwise_append] at hdistinct
  rcases hdistinct with ⟨_, hbehind, hahead⟩
  refine ⟨ahead, behind, hsplit, ?_⟩
  unfold others
  rw [hsplit, List.filter_append, List.filter_cons, Row.sameKey_self, htest, htest]
  · rfl
  · intro other hother
    exact List.rel_of_pairwise_cons hbehind hother
  · intro other hother
    rw [Row.sameKey_comm]
    exact hahead other hother row List.mem_cons_self

theorem eq_of_sameContents_replaced
    {key : Value} {payload : Assoc Value} {row next : Row}
    (h : store.replacement db key payload = .ok (some (row, next)))
    (hsame : db.SameContents (store.replaced db row next)) :
    next = row := by
  have hinsert := Row.perm_insertInOrder store.model next (store.others db row)
  by_contra hne
  rw [replaced_of_ne store db hne, Database.sameContents_withRows_iff] at hsame
  have hmem : row ∈ next :: store.others db row :=
    (hinsert.symm.trans hsame).mem_iff.mpr (replacement_eq_some h).1
  cases hmem with
  | head => exact hne rfl
  | tail _ hother =>
      have hkey := (List.mem_filter.mp hother).2
      rw [Row.sameKey_self] at hkey
      cases hkey

/-- A replacement changes nothing exactly when it puts the same row back. -/
theorem sameContents_replaced_iff
    {key : Value} {payload : Assoc Value} {row next : Row}
    (h : store.replacement db key payload = .ok (some (row, next))) :
    db.SameContents (store.replaced db row next) ↔ next = row := by
  refine ⟨eq_of_sameContents_replaced h, ?_⟩
  intro hnext
  rw [hnext, replaced_self]
  exact Database.SameContents.refl db

end Store
end RecordApi
