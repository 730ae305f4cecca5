import RecordApi.Proofs.Storage.Storing

/-!
# The cells of a written row

A new row gives to each column what the payload or the default gives it.  A changed row differs
from the old one in the columns that the payload names, and there only where the entity shows
something other than the payload asks for.
-/

namespace RecordApi

open Steps

/-- Each field of a model belongs to the column that has it as its key. -/
theorem Model.column?_of_mem
    {model : Model} {column : Column}
    (hfields : model.fields.Nodup) (h : column ∈ model.columns) :
    model.column? column.key = some column := by
  unfold Model.fields at hfields
  unfold Model.column?
  generalize model.columns = columns at hfields h
  induction columns with
  | nil => cases h
  | cons first rest ih =>
      rw [List.map_cons, List.nodup_cons] at hfields
      rcases List.mem_cons.mp h with rfl | hrest
      · exact List.find?_cons_of_pos (by simp)
      · have hne : first.key ≠ column.key :=
          fun heq => hfields.1 (heq ▸ List.mem_map_of_mem hrest)
        rw [List.find?_cons_of_neg (by simpa using hne)]
        exact ih hfields.2 hrest

namespace Storage

variable {model : Model} {payload : Assoc Value} {entity : Entity} {column : Column} {v : Value}

/-! ## Changes -/

theorem mem_changes_iff :
    (column, v) ∈ changes model payload entity ↔
      column ∈ model.columns ∧ Assoc.get? payload column.key = some v ∧
        v.sameAs (entity.value column.key) = false := by
  unfold changes
  rw [List.mem_filterMap]
  constructor
  · rintro ⟨own, hown, hchange⟩
    rcases Option.bind_eq_some_iff.mp hchange with ⟨w, hw, hsame⟩
    split at hsame
    · cases hsame
    · rename_i hdiffers
      cases hsame
      exact ⟨hown, hw, Bool.eq_false_iff.mpr hdiffers⟩
  · rintro ⟨hown, hv, hdiffers⟩
    refine ⟨column, hown, Option.bind_eq_some_iff.mpr ⟨v, hv, ?_⟩⟩
    rw [hdiffers]
    rfl

theorem sublist_filterMap
    {α β : Type} {f : α → Option β} {g : β → α} (xs : List α)
    (h : ∀ x y, f x = some y → g y = x) :
    ((xs.filterMap f).map g).Sublist xs := by
  induction xs with
  | nil => exact List.Sublist.slnil
  | cons x rest ih =>
      cases hx : f x with
      | none =>
          rw [List.filterMap_cons_none hx]
          exact ih.cons x
      | some y =>
          rw [List.filterMap_cons_some hx, List.map_cons, h x y hx]
          exact ih.cons_cons x

theorem sublist_keys_changes (model : Model) (payload : Assoc Value) (entity : Entity) :
    ((changes model payload entity).map (·.1.key)).Sublist model.fields := by
  have hcolumns : ((changes model payload entity).map (·.1)).Sublist model.columns := by
    apply sublist_filterMap
    intro column change hchange
    rcases Option.bind_eq_some_iff.mp hchange with ⟨w, _, hsame⟩
    split at hsame
    · cases hsame
    · cases hsame
      rfl
  have hkeys := hcolumns.map (·.key)
  rwa [List.map_map] at hkeys

theorem changedRow_eq_foldl (row : Row) (changes : List (Column × Value)) :
    changedRow row changes =
      (changes.map fun change => (change.1.key, storedCell change.1 change.2)).foldl
        (fun row pair => Assoc.put pair.1 pair.2 row) row := by
  rw [List.foldl_map]
  rfl

theorem cell_changedRow_of_notMem
    {changes : List (Column × Value)} {field : String} (row : Row)
    (h : field ∉ changes.map (·.1.key)) :
    (changedRow row changes).cell field = row.cell field := by
  unfold Row.cell
  rw [changedRow_eq_foldl, Assoc.get?_foldl_put_of_notMem]
  rwa [List.map_map]

theorem cell_changedRow_of_mem
    {changes : List (Column × Value)} (row : Row)
    (hdistinct : (changes.map (·.1.key)).Nodup) (h : (column, v) ∈ changes) :
    (changedRow row changes).cell column.key = storedCell column v := by
  have hpair := List.mem_map_of_mem
    (f := fun change : Column × Value => (change.1.key, storedCell change.1 change.2)) h
  have hput := Assoc.get?_foldl_put_of_mem row (by rwa [List.map_map]) hpair
  unfold Row.cell
  rw [changedRow_eq_foldl, hput]
  rfl

/-! ## A changed row -/

/-- Where a row is loaded as a whole, each column holds what its cell reads as. -/
theorem read?_of_loadRow
    {row : Row}
    (hfields : model.fields.Nodup) (hload : loadRow model none row = .ok entity)
    (hcolumn : column ∈ model.columns) :
    ∃ w, Binding.read? column.type (row.cell column.key) = some w ∧
      Assoc.get? entity.loaded column.key = some w :=
  get?_of_loadRow hload (Model.column?_of_mem hfields hcolumn)
    (Or.inr (List.mem_map_of_mem hcolumn))

/-- What a column holds after a change of its row.  What is not asked for stays, and so does what
is shown already. -/
def changedCell (row : Row) (payload : Assoc Value) (entity : Entity) (column : Column) : Cell :=
  match Assoc.get? payload column.key with
  | some v =>
      if v.sameAs (entity.value column.key) then row.cell column.key
      else storedCell column v
  | none => row.cell column.key

theorem cell_changed
    (row : Row) (hfields : model.fields.Nodup) (hcolumn : column ∈ model.columns) :
    (changedRow row (changes model payload entity)).cell column.key =
      changedCell row payload entity column := by
  have hdistinct := (sublist_keys_changes model payload entity).nodup hfields
  by_cases hchange : ∃ v, (column, v) ∈ changes model payload entity
  · rcases hchange with ⟨v, hv⟩
    rcases mem_changes_iff.mp hv with ⟨_, hget, hdiffers⟩
    unfold changedCell
    rw [cell_changedRow_of_mem row hdistinct hv, hget]
    dsimp only
    rw [hdiffers, if_neg Bool.false_ne_true]
  · have hkey : column.key ∉ (changes model payload entity).map (·.1.key) := by
      intro hmem
      rcases List.mem_map.mp hmem with ⟨⟨other, v⟩, hv, hother⟩
      have hfound := Model.column?_of_mem hfields (mem_changes_iff.mp hv).1
      have hsame : some other = some column := by
        rw [← hfound, hother]
        exact Model.column?_of_mem hfields hcolumn
      exact hchange ⟨v, Option.some.inj hsame ▸ hv⟩
    rw [cell_changedRow_of_notMem row hkey]
    unfold changedCell
    cases hget : Assoc.get? payload column.key with
    | none => rfl
    | some v =>
        dsimp only
        split
        · rfl
        · rename_i hdiffers
          exact absurd ⟨v, mem_changes_iff.mpr ⟨hcolumn, hget, Bool.eq_false_iff.mpr hdiffers⟩⟩
            hchange

end Storage

namespace Store

open Storage

variable {store : Store} {db : Database}

/-- The changes that are written are all bound. -/
theorem bound_of_changed
    {key : List Value} {changes : List (Column × Value)} {rows : Row × Row}
    (h : store.changed db key changes = .ok rows) :
    ∀ change ∈ changes, ∃ cell, Binding.bind change.1.type change.2 = .ok cell := by
  unfold changed at h
  rcases bind_eq_ok.mp h with ⟨_, hprepare, _⟩
  have hbound := Binding.firstError?_eq_none_iff.mp (prepare_eq_ok.mp hprepare).2
  intro change hchange
  exact hbound _ (List.mem_append_left _ (List.mem_map_of_mem hchange))

end Store

end RecordApi
