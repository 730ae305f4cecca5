import RecordApi.Proofs.Storage.Changing
import RecordApi.Proofs.Storage.Failures
import RecordApi.Proofs.Storage.Readable

/-!
# Writes that fail behind their commit

A destruction that fails leaves the database as it was, and so does every write that fails
before its commit.  A creation and a change read their row again behind it.  This fails where
the row was stored under a name outside an enumeration, and the row then stays.
-/

namespace RecordApi

open Steps Storage

namespace Storage

variable {model : Model} {row : Row}

/-- A row is shown as a whole exactly where it can be read. -/
theorem exists_showWhole_iff
    (hfields : model.fields.Nodup) :
    (∃ shown, showWhole model row = .ok shown) ↔ row.IsReadable model := by
  constructor
  · rintro ⟨shown, hshown⟩ column hcolumn
    rcases showRow_eq_ok.mp hshown with ⟨entity, hload, _⟩
    rcases read?_of_loadRow hfields hload hcolumn with ⟨v, hread, _⟩
    exact ⟨v, hread⟩
  · intro hreadable
    cases hshown : showWhole model row with
    | ok shown => exact ⟨shown, rfl⟩
    | error error => exact absurd hreadable (showRow_eq_error hshown).2

theorem showWhole_eq_unreadable
    (hfields : model.fields.Nodup) (h : ¬ row.IsReadable model) :
    showWhole model row = .error .unreadable := by
  cases hshown : showWhole model row with
  | ok shown => exact absurd ((exists_showWhole_iff hfields).mp ⟨shown, hshown⟩) h
  | error error => rw [(showRow_eq_error hshown).1]

end Storage

namespace Store

variable {store : Store} {db : Database} {key : Value} {payload : Assoc Value} {row next : Row}

/-! ## Creations -/

/-- A new row stands in its table with a name that it cannot show. -/
def CreatesMisnamed (store : Store) (db : Database) (payload : Assoc Value) : Prop :=
  (∃ row, store.insert db payload = .ok row) ∧
    ∃ column ∈ store.model.columns, column.Misnames (newValue payload column)

theorem isReadable_of_insert_iff
    (hfields : store.model.fields.Nodup) (hinsert : store.insert db payload = .ok row) :
    row.IsReadable store.model ↔
      ∀ column ∈ store.model.columns, ¬ column.Misnames (newValue payload column) := by
  unfold Row.IsReadable
  refine forall₂_congr fun column hcolumn => ?_
  rcases bind_of_insert hinsert hcolumn with ⟨cell, hbind⟩
  rw [(insert_eq_ok hinsert).1, cell_newRow _ (Model.column?_of_mem hfields hcolumn)]
  split
  · rename_i hcounts
    -- a key that counts up is no column of names
    rw [Bool.and_eq_true] at hcounts
    refine iff_of_true (exists_read?_of_ne_text _ fun s => Cell.noConfusion) ?_
    rintro ⟨names, s, hnames, _⟩
    rw [(Model.of_countsUp hcounts.1).2] at hnames
    cases hnames
  · exact exists_read?_iff hbind

/-! ## Changes -/

/-- A row is changed to another one that stands in its table and cannot be read. -/
def UpdatesMisnamed (store : Store) (db : Database) (key : Value) (payload : Assoc Value) : Prop :=
  ∃ row next, store.replacement db key payload = .ok (some (row, next)) ∧ next ≠ row ∧
    ¬ next.IsReadable store.model

/-- A name outside an enumeration is not among what is read of any row. -/
theorem sameAs_of_misnames
    {column : Column} {v w : Value} {cell : Cell}
    (hmisnames : column.Misnames v) (hread : Binding.read? column.type cell = some w) :
    v.sameAs w = false := by
  rcases hmisnames with ⟨names, s, htype, rfl, hs⟩
  rw [htype] at hread
  cases cell with
  | text t =>
      unfold Binding.read? at hread
      dsimp only at hread
      split at hread
      · rename_i ht
        cases hread
        have hne : s ≠ t := fun heq => hs (heq ▸ List.contains_iff_mem.mp ht)
        exact beq_eq_false_iff_ne.mpr hne
      · cases hread
  | _ =>
      cases hread
      rfl

/-- A row that could be read can still be read behind a change, unless this gives it a name that it
cannot show. -/
theorem isReadable_of_replacement_iff
    (hfields : store.model.fields.Nodup) (hreadable : row.IsReadable store.model)
    (h : store.replacement db key payload = .ok (some (row, next))) :
    next.IsReadable store.model ↔
      ∀ column ∈ store.model.columns, ∀ v,
        Assoc.get? payload column.key = some v → ¬ column.Misnames v := by
  rcases steps_of_replacement h with ⟨_, _, found, entity, _, _, _, hload, hchanged⟩
  rcases changed_eq_ok hchanged with ⟨_, rfl, _⟩
  unfold Row.IsReadable
  refine forall₂_congr fun column hcolumn => ?_
  rw [cell_changed row hfields hcolumn]
  unfold changedCell
  cases hgiven : Assoc.get? payload column.key with
  | none => exact iff_of_true (hreadable column hcolumn) fun _ h => by cases h
  | some v =>
      dsimp only
      split
      · rename_i hsame
        refine iff_of_true (hreadable column hcolumn) ?_
        rintro _ ⟨⟩ hmisnames
        rcases read?_of_loadRow hfields hload hcolumn with ⟨w, hread, hget⟩
        unfold Entity.value at hsame
        rw [hget, Option.getD_some, sameAs_of_misnames hmisnames hread] at hsame
        cases hsame
      · rename_i hdiffers
        have hchange : (column, v) ∈ changes store.model payload entity :=
          mem_changes_iff.mpr ⟨hcolumn, hgiven, Bool.eq_false_iff.mpr hdiffers⟩
        rcases bound_of_changed hchanged _ hchange with ⟨cell, hbind⟩
        rw [exists_read?_iff hbind]
        exact ⟨fun h _ hv => Option.some.inj hv ▸ h, fun h => h v rfl⟩

/-! ## Failures -/

variable {error : StoreError} {after : Database}

theorem create_of_insert
    (h : store.insert db payload = .ok row) :
    store.create db payload = (showWhole store.model row, store.added db row) := by
  unfold create
  rw [h]

theorem create_of_error
    (h : store.insert db payload = .error error) :
    store.create db payload = (.error error, db) := by
  unfold create
  rw [h]

theorem create_of_misnamed
    (hfields : store.model.fields.Nodup) (h : store.CreatesMisnamed db payload) :
    ∃ after, store.create db payload = (.error .unreadable, after) ∧ ¬ db.SameContents after := by
  rcases h with ⟨⟨row, hrow⟩, column, hcolumn, hmisnames⟩
  have hunreadable : ¬ row.IsReadable store.model := by
    rw [isReadable_of_insert_iff hfields hrow]
    exact fun hnone => hnone column hcolumn hmisnames
  refine ⟨store.added db row, ?_, not_sameContents_added store db row⟩
  rw [create_of_insert hrow, showWhole_eq_unreadable hfields hunreadable]

theorem unchanged_of_create
    (hfields : store.model.fields.Nodup) (h : ¬ store.CreatesMisnamed db payload)
    (hfails : store.create db payload = (.error error, after)) :
    after = db := by
  cases hrow : store.insert db payload with
  | error early =>
      rw [create_of_error hrow] at hfails
      cases hfails
      rfl
  | ok row =>
      have hreadable : row.IsReadable store.model := by
        rw [isReadable_of_insert_iff hfields hrow]
        exact fun column hcolumn hmisnames => h ⟨⟨row, hrow⟩, column, hcolumn, hmisnames⟩
      rcases (exists_showWhole_iff hfields).mpr hreadable with ⟨shown, hshown⟩
      rw [create_of_insert hrow, hshown] at hfails
      cases hfails

theorem update_of_replacement
    (h : store.replacement db key payload = .ok (some (row, next))) :
    store.update db key payload =
      ((showWhole store.model next).map some, store.replaced db row next) := by
  unfold update
  rw [h]

theorem update_of_error
    (h : store.replacement db key payload = .error error) :
    store.update db key payload = (.error error, db) := by
  unfold update
  rw [h]

theorem update_of_missing
    (h : store.replacement db key payload = .ok none) :
    store.update db key payload = (.ok none, db) := by
  unfold update
  rw [h]

theorem update_of_misnamed
    (hfields : store.model.fields.Nodup) (h : store.UpdatesMisnamed db key payload) :
    ∃ after, store.update db key payload = (.error .unreadable, after) ∧
      ¬ db.SameContents after := by
  rcases h with ⟨row, next, hnext, hne, hunreadable⟩
  refine ⟨store.replaced db row next, ?_, ?_⟩
  · rw [update_of_replacement hnext, showWhole_eq_unreadable hfields hunreadable]
    rfl
  · rw [sameContents_replaced_iff hnext]
    exact hne

/-- An update that has no row to show, or fails without a misnamed row, has not written. -/
theorem unchanged_of_update
    {answer : Except StoreError (Option (Assoc Value))}
    (hfields : store.model.fields.Nodup) (h : ¬ store.UpdatesMisnamed db key payload)
    (hanswer : ∀ shown, answer ≠ .ok (some shown))
    (hupdate : store.update db key payload = (answer, after)) :
    after = db := by
  cases hnext : store.replacement db key payload with
  | error early =>
      rw [update_of_error hnext] at hupdate
      cases hupdate
      rfl
  | ok found =>
      rcases found with _ | ⟨row, next⟩
      · rw [update_of_missing hnext] at hupdate
        cases hupdate
        rfl
      · by_cases hsame : next = row
        · rw [update_of_replacement hnext, hsame, replaced_self] at hupdate
          cases hupdate
          rfl
        · have hreadable : next.IsReadable store.model := by
            by_contra hunreadable
            exact h ⟨row, next, hnext, hsame, hunreadable⟩
          rcases (exists_showWhole_iff hfields).mpr hreadable with ⟨shown, hshown⟩
          rw [update_of_replacement hnext, hshown] at hupdate
          cases hupdate
          exact absurd rfl (hanswer shown)

theorem unchanged_of_destroy
    {filter : Option Predicate}
    (hfails : store.destroy db filter = (.error error, after)) :
    after = db := by
  unfold destroy at hfails
  cases hrows : store.spared db filter with
  | error early =>
      rw [hrows] at hfails
      cases hfails
      rfl
  | ok rows =>
      rw [hrows] at hfails
      cases hfails

/-- Writes are atomic but for names outside an enumeration.  A creation or a change that stores
such a name fails and leaves its row; every other write that fails, and a change that finds no
row, leaves the database as it was.  What a change makes of a row that could be read cannot be read
exactly where the payload gives such a name. -/
theorem unchanged_of_failure
    (store : Store) (db : Database) (hfields : store.model.fields.Nodup) :
    (∀ payload,
      (store.CreatesMisnamed db payload → ∃ after,
        store.create db payload = (.error .unreadable, after) ∧ ¬ db.SameContents after) ∧
      (¬ store.CreatesMisnamed db payload → ∀ error after,
        store.create db payload = (.error error, after) → after = db)) ∧
    (∀ key payload,
      (store.UpdatesMisnamed db key payload → ∃ after,
        store.update db key payload = (.error .unreadable, after) ∧ ¬ db.SameContents after) ∧
      (¬ store.UpdatesMisnamed db key payload → ∀ error after,
        store.update db key payload = (.error error, after) → after = db) ∧
      (∀ row next, store.replacement db key payload = .ok (some (row, next)) →
        row.IsReadable store.model →
          (store.UpdatesMisnamed db key payload ↔ ∃ column ∈ store.model.columns, ∃ v,
            Assoc.get? payload column.key = some v ∧ column.Misnames v)) ∧
      ∀ after, store.update db key payload = (.ok none, after) → after = db) ∧
    ∀ filter error after, store.destroy db filter = (.error error, after) → after = db := by
  refine ⟨fun payload => ⟨create_of_misnamed hfields, ?_⟩,
    fun key payload => ⟨update_of_misnamed hfields, ?_, ?_, ?_⟩, ?_⟩
  · exact fun h error after hfails => unchanged_of_create hfields h hfails
  · exact fun h error after hfails =>
      unchanged_of_update hfields h (fun _ h => by cases h) hfails
  · intro row next hnext hreadable
    have hnames := isReadable_of_replacement_iff hfields hreadable hnext
    constructor
    · rintro ⟨row', next', hnext', _, hunreadable⟩
      rw [hnext] at hnext'
      cases hnext'
      rw [hnames] at hunreadable
      push Not at hunreadable
      exact hunreadable
    · rintro ⟨column, hcolumn, v, hgiven, hmisnames⟩
      have hunreadable : ¬ next.IsReadable store.model := by
        rw [hnames]
        exact fun hnone => hnone column hcolumn v hgiven hmisnames
      refine ⟨row, next, hnext, ?_, hunreadable⟩
      rintro rfl
      exact hunreadable hreadable
  · intro after hnone
    refine unchanged_of_update hfields ?_ (fun _ h => by cases h) hnone
    intro hmisnamed
    rcases update_of_misnamed hfields hmisnamed with ⟨_, hfails, _⟩
    rw [hnone] at hfails
    cases hfails
  · exact fun filter error after hfails => unchanged_of_destroy hfails

end Store

namespace Sample

def bogusItem : Assoc Value := [("kind", .text "bogus")]

def bogusColumn : Column := optional "kind" (.enumeration ["raw", "done"])

theorem misnames_bogus : bogusColumn.Misnames (.text "bogus") :=
  ⟨["raw", "done"], "bogus", rfl, rfl, by decide⟩

/-- A new item of an unknown kind fails and stays, and so does an item whose kind is changed to
it; a nameless author fails and is not stored. -/
theorem unchanged_of_failure_items :
    let store := (resource items).store
    let other := (resource authors).store
    items.fields.Nodup ∧ store.CreatesMisnamed database bogusItem ∧
      (∃ after, store.create database bogusItem = (.error .unreadable, after) ∧
        ¬ database.SameContents after) ∧
      store.UpdatesMisnamed database (.int 3) bogusItem ∧
      (∃ after, store.update database (.int 3) bogusItem = (.error .unreadable, after) ∧
        ¬ database.SameContents after) ∧
      authors.fields.Nodup ∧ ¬ other.CreatesMisnamed database [("age", .int 1)] ∧
      ∃ error, other.create database [("age", .int 1)] = (.error error, database) := by
  intro store other
  have hitems : items.fields.Nodup := by decide
  have hauthors : authors.fields.Nodup := by decide
  have hkind : items.columns[9]? = some bogusColumn := rfl
  have hcolumn : bogusColumn ∈ items.columns := List.mem_of_getElem? hkind
  have hcreates : store.CreatesMisnamed database bogusItem := by
    have hinsert : (store.insert database bogusItem).toOption.isSome = true := by decide
    rcases Option.isSome_iff_exists.mp hinsert with ⟨row, hrow⟩
    exact ⟨⟨row, toOption_eq_some.mp hrow⟩, bogusColumn, hcolumn, misnames_bogus⟩
  have hupdates : store.UpdatesMisnamed database (.int 3) bogusItem := by
    have hreplacement : ((store.replacement database (.int 3) bogusItem).toOption.bind id).map
        (fun rows => ((showWhole items rows.1).toOption.isSome,
          (showWhole items rows.2).toOption.isSome)) = some (true, false) := by
      decide
    rcases Option.map_eq_some_iff.mp hreplacement with ⟨⟨row, next⟩, hnext, hshown⟩
    rcases Option.bind_eq_some_iff.mp hnext with ⟨found, hfound, rfl⟩
    rcases Prod.mk.inj hshown with ⟨hrow, _⟩
    rcases Option.isSome_iff_exists.mp hrow with ⟨shown, hshown⟩
    have hreadable : row.IsReadable store.model :=
      (Storage.exists_showWhole_iff hitems).mp ⟨shown, toOption_eq_some.mp hshown⟩
    have hcause := ((Store.unchanged_of_failure store database hitems).2.1 (.int 3)
      bogusItem).2.2.1 row next (toOption_eq_some.mp hfound) hreadable
    exact hcause.mpr ⟨bogusColumn, hcolumn, _, rfl, misnames_bogus⟩
  have hinsert : other.insert database [("age", .int 1)] =
      .error (.failed .create "authors" .integrity) := by rfl
  have hnameless : ¬ other.CreatesMisnamed database [("age", .int 1)] := by
    rintro ⟨⟨row, hrow⟩, _⟩
    rw [hinsert] at hrow
    cases hrow
  have hfails : ∃ error after, other.create database [("age", .int 1)] = (.error error, after) := by
    unfold Store.create
    rw [hinsert]
    exact ⟨_, _, rfl⟩
  rcases hfails with ⟨error, after, hfails⟩
  have hsame :=
    ((Store.unchanged_of_failure other database hauthors).1 _).2 hnameless error after hfails
  rw [hsame] at hfails
  have hall := Store.unchanged_of_failure store database hitems
  exact ⟨hitems, hcreates, (hall.1 _).1 hcreates, hupdates, (hall.2.1 _ _).1 hupdates, hauthors,
    hnameless, error, hfails⟩

/-- The item is refused with an error and found in its table. -/
theorem misnamed_item_stays :
    ((resource items).store.create database bogusItem).1 = .error .unreadable ∧
      ¬ database.SameContents ((resource items).store.create database bogusItem).2 := by
  constructor
  · have hfails : ((resource items).store.create database bogusItem).1.map (fun _ => ()) =
        .error .unreadable := by decide
    exact map_eq_error.mp hfails
  · intro hsame
    have hlength := (hsame.rows items).length_eq
    revert hlength
    decide

end Sample
end RecordApi
