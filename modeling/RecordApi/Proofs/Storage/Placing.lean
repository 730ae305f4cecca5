import RecordApi.Proofs.Storage.Committing
import RecordApi.Sample.Rows

/-!
# Cells with a place

What is no number is stored as nothing, so that every other cell of a table has a place in the
order of cells.  Each write keeps this, and then so does every run of writes.  A cell with a place
can be compared with every operand that has one.
-/

namespace RecordApi

open Steps Storage

/-! ## Cells -/

namespace Cell

variable {a b cell : Cell}

theorem isUnplaced_eq_false_iff : cell.isUnplaced = false ↔ cell ≠ .null ∧ cell ≠ .real .nan := by
  cases cell with
  | real x => cases x <;> simp [isUnplaced]
  | _ => simp [isUnplaced]

/-- Whether cells can be compared is told by the point of one of them. -/
theorem isNone_compare? (a : Cell) {b : Cell} (hb : b ≠ .real .nan) :
    (a.compare? b).isNone =
      match a, b.point? with
      | .null, _ => true
      | _, none => true
      | .real .nan, some (.text _) => false
      | .real .nan, some _ => true
      | _, some _ => false := by
  cases b with
  | null => cases a <;> rfl
  | int m =>
      cases a with
      | real x =>
          cases x with
          | infinite negative => cases negative <;> rfl
          | _ => rfl
      | _ => rfl
  | real y =>
      cases y with
      | nan => exact absurd rfl hb
      | infinite q =>
          cases a with
          | int n => cases q <;> rfl
          | real x =>
              cases x with
              | infinite p => cases p <;> cases q <;> rfl
              | nan => rfl
              | finite p r => cases q <;> rfl
          | _ => rfl
      | finite q r =>
          cases a with
          | real x =>
              cases x with
              | infinite p => cases p <;> rfl
              | _ => rfl
          | _ => rfl
  | text s =>
      cases a with
      | real x => cases x <;> rfl
      | _ => rfl

theorem isUnplaced_against
    (h : cell.isUnplaced = false) (affinity : Affinity) :
    (cell.against affinity).isUnplaced = false := by
  cases cell with
  | null => cases h
  | int n => cases affinity <;> rfl
  | real x =>
      cases affinity with
      | text => rfl
      | _ => exact h
  | text s =>
      have hnumber : ((number? s).getD (.text s)).isUnplaced = false := by
        cases hs : number? s with
        | none => rfl
        | some number =>
            rcases number?_eq_some hs with ⟨n, rfl⟩ | ⟨x, rfl, hx⟩
            · rfl
            · exact isUnplaced_real hx
      cases affinity with
      | text | free => rfl
      | _ => exact hnumber

theorem against_ne_nan
    (h : cell ≠ .real .nan) (affinity : Affinity) :
    cell.against affinity ≠ .real .nan := by
  by_cases hnull : cell = .null
  · rw [hnull]
    exact Cell.noConfusion
  · have hplaced := isUnplaced_against (isUnplaced_eq_false_iff.mpr ⟨hnull, h⟩) affinity
    exact (isUnplaced_eq_false_iff.mp hplaced).2

theorem integral_ne_nan {x : Binary64} (h : x ≠ .nan) : integral x ≠ .real .nan := by
  have hreal : Cell.real x ≠ .real .nan := fun hsame => h (Cell.real.inj hsame)
  unfold integral
  split
  · split
    · exact Cell.noConfusion
    · exact hreal
  · exact hreal

/-- A column puts nothing without a place in the place of a cell. -/
theorem stored_ne_nan
    (h : cell ≠ .real .nan) (affinity : Affinity) :
    cell.stored affinity ≠ .real .nan := by
  have hofInt : ∀ n, Cell.real (Binary64.ofInt n) ≠ .real .nan :=
    fun n hsame => Binary64.ofRatio_ne_nan _ _ _ (Cell.real.inj hsame)
  cases cell with
  | null => exact Cell.noConfusion
  | int n =>
      cases affinity with
      | real => exact hofInt n
      | _ => exact Cell.noConfusion
  | real x =>
      cases affinity with
      | numeric => exact integral_ne_nan fun hx => h (congrArg Cell.real hx)
      | real | free => exact h
      | text => exact Cell.noConfusion
  | text s =>
      cases affinity with
      | text | free => exact Cell.noConfusion
      | numeric =>
          unfold stored
          dsimp only
          cases hs : number? s with
          | none => exact Cell.noConfusion
          | some number =>
              rcases number?_eq_some hs with ⟨n, rfl⟩ | ⟨x, rfl, hx⟩
              · exact Cell.noConfusion
              · exact integral_ne_nan hx
      | real =>
          unfold stored
          dsimp only
          cases hs : number? s with
          | none => exact Cell.noConfusion
          | some number =>
              rcases number?_eq_some hs with ⟨n, rfl⟩ | ⟨x, rfl, hx⟩
              · exact hofInt n
              · exact fun hsame => hx (Cell.real.inj hsame)

end Cell

namespace Binding

/-- What is no number is bound as nothing. -/
theorem toCell_ne_nan
    {v : Value} {cell : Cell}
    (h : toCell v = .ok cell) :
    cell ≠ .real .nan := by
  cases v with
  | int n =>
      rw [toCell] at h
      split at h
      · cases h
        exact Cell.noConfusion
      · cases h
  | float x =>
      cases x with
      | nan =>
          cases h
          exact Cell.noConfusion
      | _ =>
          cases h
          exact fun hsame => Binary64.noConfusion (Cell.real.inj hsame)
  | null | bool _ | text _ | date _ | timestamp _ =>
      cases h
      exact Cell.noConfusion
  | decimal _ | uuid _ | list _ | map _ => cases h

theorem bind_ne_nan
    {type : ColumnType} {v : Value} {cell : Cell}
    (h : bind type v = .ok cell) :
    cell ≠ .real .nan := by
  rcases bind_eq_ok.mp h with ⟨_, _, hcell⟩
  exact toCell_ne_nan hcell

end Binding

/-! ## Rows -/

/-- A row as a table can hold it. -/
def Row.IsStored (row : Row) : Prop :=
  ∀ entry ∈ row, entry.2 ≠ .real .nan

instance (row : Row) : Decidable row.IsStored :=
  inferInstanceAs (Decidable (∀ entry ∈ row, entry.2 ≠ .real .nan))

theorem Row.IsStored.cell_ne_nan
    {row : Row}
    (h : row.IsStored) (field : String) :
    row.cell field ≠ .real .nan := by
  unfold Row.cell Assoc.get?
  cases hfound : row.find? fun entry => entry.1 == field with
  | none => exact Cell.noConfusion
  | some entry => exact h entry (List.mem_of_find?_eq_some hfound)

namespace Storage

theorem storedCell_ne_nan (column : Column) (v : Value) : storedCell column v ≠ .real .nan := by
  unfold storedCell Test.boundCell
  split
  · exact Cell.stored_ne_nan (Binding.bind_ne_nan ‹_›) _
  · exact Cell.noConfusion

theorem isStored_newRow (model : Model) (payload : Assoc Value) (rows : List Row) :
    Row.IsStored (newRow model payload rows) := by
  intro entry hentry
  rcases List.mem_map.mp hentry with ⟨column, _, rfl⟩
  dsimp only
  split
  · exact Cell.noConfusion
  · exact storedCell_ne_nan column _

theorem isStored_changedRow
    {row : Row} {changes : List (Column × Value)}
    (h : row.IsStored) :
    Row.IsStored (changedRow row changes) := by
  induction changes generalizing row with
  | nil => exact h
  | cons change rest ih =>
      refine ih fun entry hentry => ?_
      rcases Assoc.mem_of_mem_put hentry with rfl | hold
      · exact storedCell_ne_nan change.1 change.2
      · exact h entry hold

end Storage

/-! ## Databases -/

namespace Database

/-- A database as it can be stored. -/
def IsStored (db : Database) : Prop :=
  ∀ table ∈ db.tables, ∀ row ∈ table.2, Row.IsStored row

instance (db : Database) : Decidable db.IsStored :=
  inferInstanceAs (Decidable (∀ table ∈ db.tables, ∀ row ∈ table.2, Row.IsStored row))

variable {db after : Database} {model : Model} {rows : List Row}

theorem IsStored.of_mem_rows
    {row : Row}
    (h : db.IsStored) (hrow : row ∈ db.rows model) :
    row.IsStored := by
  unfold Database.rows Assoc.get? at hrow
  cases hfound : db.tables.find? fun entry => entry.1 == model.table with
  | none =>
      rw [hfound] at hrow
      cases hrow
  | some table =>
      rw [hfound] at hrow
      exact h table (List.mem_of_find?_eq_some hfound) row hrow

theorem IsStored.withRows
    (h : db.IsStored) (hrows : ∀ row ∈ rows, row.IsStored) :
    (db.withRows model rows).IsStored := by
  intro table htable
  rcases Assoc.mem_of_mem_put htable with rfl | hold
  · exact hrows
  · exact h table hold

/-- A database comes from another one by some writes. -/
inductive Reaches (db : Database) : Database → Prop
  | none : Reaches db db
  | create {after : Database} (store : Store) (payload : Assoc Value) (h : Reaches db after) :
      Reaches db (store.create after payload).2
  | update {after : Database} (store : Store) (key : Value) (payload : Assoc Value)
      (h : Reaches db after) :
      Reaches db (store.update after key payload).2
  | destroy {after : Database} (store : Store) (filter : Option Predicate)
      (h : Reaches db after) :
      Reaches db (store.destroy after filter).2

end Database

namespace Store

variable {store : Store} {db : Database}

theorem isStored_create
    {payload : Assoc Value}
    (h : db.IsStored) :
    (store.create db payload).2.IsStored := by
  cases hinsert : store.insert db payload with
  | error error =>
      rw [create_of_error hinsert]
      exact h
  | ok row =>
      rw [create_of_insert hinsert]
      refine h.withRows fun other hother => ?_
      rcases List.mem_cons.mp ((Row.perm_insertInOrder _ _ _).mem_iff.mp hother) with rfl | hold
      · rw [(insert_eq_ok hinsert).1]
        exact isStored_newRow _ _ _
      · exact h.of_mem_rows hold

theorem isStored_update
    {key : Value} {payload : Assoc Value}
    (h : db.IsStored) :
    (store.update db key payload).2.IsStored := by
  cases hnext : store.replacement db key payload with
  | error error =>
      rw [update_of_error hnext]
      exact h
  | ok found =>
      rcases found with _ | ⟨row, next⟩
      · rw [update_of_missing hnext]
        exact h
      · rcases steps_of_replacement hnext with ⟨_, _, _, _, _, _, _, _, hchanged⟩
        rcases changed_eq_ok hchanged with ⟨hrow, hmade, _⟩
        rw [update_of_replacement hnext]
        by_cases hsame : next = row
        · rw [hsame, replaced_self]
          exact h
        · rw [replaced_of_ne store db hsame]
          refine h.withRows fun other hother => ?_
          rcases List.mem_cons.mp ((Row.perm_insertInOrder _ _ _).mem_iff.mp hother) with
            rfl | hold
          · rw [hmade]
            exact isStored_changedRow (h.of_mem_rows (mem_of_rowOfKey? hrow))
          · exact h.of_mem_rows (List.mem_of_mem_filter hold)

theorem isStored_destroy
    {filter : Option Predicate}
    (h : db.IsStored) :
    (store.destroy db filter).2.IsStored := by
  unfold destroy
  cases hrows : store.spared db filter with
  | error error => exact h
  | ok rows => exact h.withRows fun row hrow => h.of_mem_rows ((spared_sublist hrows).subset hrow)

end Store

/-- By induction on the writes: a run of them leaves a database that can be stored. -/
theorem Database.Reaches.isStored
    {db after : Database}
    (h : db.Reaches after) (hdb : db.IsStored) :
    after.IsStored := by
  induction h with
  | none => exact hdb
  | create store payload _ ih => exact Store.isStored_create ih
  | update store key payload _ ih => exact Store.isStored_update ih
  | destroy store filter _ ih => exact Store.isStored_destroy ih

end RecordApi
