import RecordApi.Proofs.Storage.Finding
import RecordApi.Proofs.Storage.Sessions
import RecordApi.Proofs.Storage.Sorting

/-!
# Nested rows

The related rows of all parents of a page are read at once, and each parent takes its own.
Where keys are shown faithfully, what a parent takes does not depend on the other parents: the rows
of the target on which the filter of the inclusion holds, in its order, as often as they are related
to a row that shows the key of the parent.  So the answer of a query to a row is a function of the
row alone.
-/

namespace RecordApi

open Steps

namespace Inclusion

/-- The clause of which the rows of a target are asked. -/
def asked (clause? : Option (Clause Value)) : Clause Value :=
  (clause?.map Clause.simplified).getD .always

/-- The filter of an inclusion holds on a row of its target. -/
def admits (inclusion : Inclusion) (target : Model) (child : Row) : Bool :=
  match Clause.ofPredicate? target inclusion.relation inclusion.filter with
  | .ok clause? => (asked clause?).bound.holds? child == some true
  | .error _ => false

def sortKeys (inclusion : Inclusion) (target : Model) : List SortKey :=
  (SortKey.ofOrder target inclusion.relation inclusion.order).toOption.getD []

/-- The rows from which every parent takes its own. -/
def candidates (inclusion : Inclusion) (target : Model) (rows : List Row) : List Row :=
  Storage.sortRows (inclusion.sortKeys target) (rows.filter (inclusion.admits target))

/-- An inclusion is understood on its target. -/
structure Renders (inclusion : Inclusion) (target : Model) (clause? : Option (Clause Value)) :
    Prop where
  rendered : Clause.ofPredicate? target inclusion.relation inclusion.filter = .ok clause?
  projected : Storage.checkFields target inclusion.relation inclusion.attributes = .ok ()
  ordered : SortKey.ofOrder target inclusion.relation inclusion.order =
    .ok (inclusion.sortKeys target)

end Inclusion

namespace Storage

/-- What a row shows of a projection, where its columns can be read. -/
def shownOf (model : Model) (attributes : Option (List String)) (row : Row) : Assoc Value :=
  (showRow model attributes row).toOption.getD []

theorem shownOf_of_showRow
    {model : Model} {attributes : Option (List String)} {row : Row} {shown : Assoc Value}
    (h : showRow model attributes row = .ok shown) :
    shownOf model attributes row = shown := by
  unfold shownOf
  rw [h]
  rfl

theorem shownOf_of_loadRow
    {model : Model} {attributes : Option (List String)} {row : Row} {entity : Entity}
    (h : loadRow model attributes row = .ok entity) :
    shownOf model attributes row = entity.project (shownFields model attributes) :=
  shownOf_of_showRow (showRow_eq_ok.mpr ⟨entity, h, rfl⟩)

end Storage

namespace Store

open Storage

/-! ## Keys that are shown -/

/-- The key that an entity of a row shows. -/
def shownId (store : Store) (row : Row) : Value :=
  (readId? store.model row).getD .null

/-- The key of a row reads as that of another one. -/
def isKin (store : Store) (row other : Row) : Bool :=
  match readId? store.model other, readId? store.model row with
  | some a, some b => a.sameAs b
  | _, _ => false

/-- The rows that show the key of a row. -/
def kin (store : Store) (db : Database) (row : Row) : List Row :=
  (db.rows store.model).filter (store.isKin row)

/-- Asked for the keys that some of its rows show, the table gives the rows that show one of
them. -/
structure Recalls (store : Store) (db : Database) : Prop where
  keyed : store.model.inKey store.model.keyField = true ∧
    ∃ column, store.model.column? store.model.keyField = some column
  bound : ∀ parents ⊆ db.rows store.model,
    (∀ parent ∈ parents, ∃ id, readId? store.model parent = some id) →
      ∀ binding ∈ store.keyBindings (parents.map store.shownId), ∃ cell, binding = .ok cell
  found : ∀ parents ⊆ db.rows store.model,
    (∀ parent ∈ parents, ∃ id, readId? store.model parent = some id) →
      ∀ owner ∈ db.rows store.model, owner ∈ store.owners db (parents.map store.shownId) ↔
        ∃ parent ∈ parents, store.isKin parent owner = true

/-- Keys are shown faithfully: they tell the rows of the store apart, and where relations are
included, they recall these rows and tell those of each target apart.  A target with the name of the
store's own model is this model, whose entities are held in one session. -/
structure Faithful (store : Store) (db : Database) (inclusions : List Inclusion) : Prop where
  apart : TellsApart store.model (db.rows store.model)
  recalls : inclusions ≠ [] → store.Recalls db
  related : ∀ inclusion ∈ inclusions, ∀ relation target,
    store.relation inclusion = .ok (relation, target) →
      TellsApart target (db.rows target) ∧
        (relation.target = store.model.name → target = store.model)

/-! ## Answers -/

/-- The rows of the target of which the filter of an inclusion is asked, for some owners. -/
def pool (store : Store) (db : Database) (relation : Relation) (target : Model)
    (owners : List Row) : List Row :=
  if relation.join.filtersFirst then db.rows target
  else (db.rows target).filter fun child => owners.any fun owner =>
    relation.join.multiplicity db store.model target owner child != 0

/-- Each row beside the owners to which it is related. -/
def joined (store : Store) (db : Database) (relation : Relation) (target : Model)
    (owners children : List Row) : List (Row × Row) :=
  children.flatMap fun child => owners.flatMap fun owner =>
    List.replicate (relation.join.multiplicity db store.model target owner child) (owner, child)

/-- The related rows of one parent, as an inclusion shows them. -/
def relatedValues (store : Store) (db : Database) (inclusion : Inclusion) (relation : Relation)
    (target : Model) (parent : Row) : List Value :=
  (store.joined db relation target (store.kin db parent)
    (inclusion.candidates target (db.rows target))).map fun pair =>
      .map (shownOf target inclusion.attributes pair.2)

/-- What is nested in a parent under the name of an inclusion. -/
def relatedValue (store : Store) (db : Database) (inclusion : Inclusion) (parent : Row) : Value :=
  match store.relation inclusion with
  | .ok (relation, target) =>
      let related := store.relatedValues db inclusion relation target parent
      if relation.many then .list related else related.headD .null
  | .error _ => .null

def withRelated (store : Store) (db : Database) (inclusions : List Inclusion) (parent : Row)
    (shown : Assoc Value) : Assoc Value :=
  inclusions.foldl (fun shown inclusion =>
    Assoc.put inclusion.relation (store.relatedValue db inclusion parent) shown) shown

def answer (store : Store) (db : Database) (query : Query) (row : Row) : Assoc Value :=
  store.withRelated db (query.inclusions.getD []) row
    (shownOf store.model query.attributes row)

variable {store : Store} {db : Database} {action : Action} {inclusion : Inclusion}
  {relation : Relation} {target : Model} {clause? : Option (Clause Value)} {parents : List Row}

theorem shownId_of_readId?
    {row : Row} {id : Value}
    (h : readId? store.model row = some id) :
    store.shownId row = id := by
  unfold shownId
  rw [h]
  rfl

theorem mem_kin_iff {parent owner : Row} :
    owner ∈ store.kin db parent ↔
      owner ∈ db.rows store.model ∧ store.isKin parent owner = true := by
  unfold kin
  rw [List.mem_filter]

theorem isKin_of_readId?
    {parent owner : Row} {id : Value}
    (hid : readId? store.model owner = some id)
    (hparent : ∃ id, readId? store.model parent = some id) :
    store.isKin parent owner = id.sameAs (store.shownId parent) := by
  rcases hparent with ⟨own, hown⟩
  unfold isKin shownId
  rw [hid, hown]
  rfl

theorem readId?_of_isKin
    {parent owner : Row}
    (h : store.isKin parent owner = true) :
    readId? store.model owner = some (store.shownId owner) := by
  unfold isKin at h
  unfold shownId
  cases hown : readId? store.model owner with
  | none =>
      rw [hown] at h
      cases h
  | some id => rfl

/-- Only rows of the store are found, and only by a key that is a column. -/
theorem mem_of_owners
    {ids : List Value} {owner : Row}
    (h : owner ∈ store.owners db ids) :
    owner ∈ db.rows store.model ∧
      ∃ column, store.model.column? store.model.keyField = some column := by
  unfold owners at h
  split at h
  · rename_i column test htest
    rcases Option.map_eq_some_iff.mp htest with ⟨own, hown, _⟩
    exact ⟨(List.mem_filter.mp h).1, own, hown⟩
  · cases h

/-- The rows that are found by the keys of some parents are the kin of these. -/
theorem mem_owners_iff
    (hrecalls : store.Recalls db) (hparents : parents ⊆ db.rows store.model)
    (hread : ∀ parent ∈ parents, ∃ id, readId? store.model parent = some id) (owner : Row) :
    owner ∈ store.owners db (parents.map store.shownId) ↔
      ∃ parent ∈ parents, owner ∈ store.kin db parent := by
  have hsubset {ids : List Value} (hmem : owner ∈ store.owners db ids) :=
    (mem_of_owners hmem).1
  simp only [mem_kin_iff]
  constructor
  · intro hmem
    rcases (hrecalls.found parents hparents hread owner (hsubset hmem)).mp hmem with
      ⟨parent, hparent, hkin⟩
    exact ⟨parent, hparent, hsubset hmem, hkin⟩
  · rintro ⟨parent, hparent, howner, hkin⟩
    exact (hrecalls.found parents hparents hread owner howner).mpr ⟨parent, hparent, hkin⟩

/-- Of the rows that are found, those of one key are the kin of the parent that shows it. -/
theorem filter_owners
    (hrecalls : store.Recalls db) (hparents : parents ⊆ db.rows store.model)
    (hread : ∀ parent ∈ parents, ∃ id, readId? store.model parent = some id)
    {parent : Row} (hparent : parent ∈ parents) :
    (store.owners db (parents.map store.shownId)).filter
        (fun owner => (store.shownId owner).sameAs (store.shownId parent)) =
      store.kin db parent := by
  have hmem := mem_owners_iff hrecalls hparents hread
  unfold owners at hmem ⊢
  rcases hrecalls.keyed.2 with ⟨column, hcolumn⟩
  have htest : ∀ ids, store.keyTest? ids = some (column, .among false ids) := by
    intro ids
    unfold keyTest?
    rw [hcolumn]
    rfl
  rw [htest] at hmem ⊢
  dsimp only at hmem ⊢
  unfold kin
  rw [List.filter_filter]
  apply List.filter_congr
  intro owner howner
  rw [Bool.eq_iff_iff, Bool.and_eq_true]
  simp only [List.mem_filter] at hmem
  constructor
  · rintro ⟨hsame, hfound⟩
    rcases (hmem owner).mp ⟨howner, hfound⟩ with ⟨other, hother, hkin⟩
    rw [isKin_of_readId? (readId?_of_isKin (mem_kin_iff.mp hkin).2) (hread parent hparent)]
    exact hsame
  · intro hkin
    refine ⟨?_, ((hmem owner).mpr ⟨parent, hparent, mem_kin_iff.mpr ⟨howner, hkin⟩⟩).2⟩
    rw [← isKin_of_readId? (readId?_of_isKin hkin) (hread parent hparent)]
    exact hkin

/-- Where the key is a single field, it reads as what this field does. -/
theorem readKey?_of_single
    {model : Model} {row : Row} {id : Value}
    (hsingle : model.primaryKey.length = 1) (hid : readId? model row = some id) :
    readKey? model row = some [id] := by
  unfold readId? at hid
  rcases Option.bind_eq_some_iff.mp hid with ⟨column, hcolumn, hread⟩
  unfold readKey? keyColumns
  rw [Model.primaryKey_of_single hsingle, List.filterMap_cons_some hcolumn, List.filterMap_nil,
    List.mapM_cons, hread]
  rfl

theorem isKin_iff_eq
    {row other : Row} {id : Value}
    (hsingle : store.model.primaryKey.length = 1)
    (hapart : TellsApart store.model (db.rows store.model))
    (hrow : row ∈ db.rows store.model) (hother : other ∈ db.rows store.model)
    (hid : readId? store.model row = some id) :
    store.isKin row other = true ↔ other = row := by
  have halike : ∀ own, readId? store.model other = some own →
      (own.sameAs id = true ↔ other = row) := by
    intro own hown
    rw [← hapart.alike_iff other hother row hrow _ _ (readKey?_of_single hsingle hown)
      (readKey?_of_single hsingle hid)]
    simp [Value.allSame]
  constructor
  · intro h
    have hown := readId?_of_isKin h
    rw [isKin_of_readId? hown ⟨id, hid⟩, shownId_of_readId? hid] at h
    exact (halike _ hown).mp h
  · intro heq
    rw [isKin_of_readId? (heq ▸ hid) ⟨id, hid⟩, shownId_of_readId? hid]
    exact (halike id (heq ▸ hid)).mpr heq

/-- Where the key is a single field that tells the rows apart, a row is its only kin. -/
theorem kin_of_single
    {row : Row} {id : Value}
    (hsingle : store.model.primaryKey.length = 1)
    (hapart : TellsApart store.model (db.rows store.model))
    (hrow : row ∈ db.rows store.model) (hid : readId? store.model row = some id) :
    store.kin db row = [row] := by
  have hkin : ∀ other ∈ db.rows store.model, store.isKin row other = (other == row) := by
    intro other hother
    rw [Bool.eq_iff_iff, beq_iff_eq]
    exact isKin_iff_eq hsingle hapart hrow hother hid
  unfold kin
  rw [List.filter_congr hkin, List.filter_beq, hapart.nodup.count, if_pos hrow]
  rfl

/-! ## The related rows -/

theorem mem_joined_iff
    {owners children : List Row} {pair : Row × Row} :
    pair ∈ store.joined db relation target owners children ↔
      pair.2 ∈ children ∧ pair.1 ∈ owners ∧
        relation.join.multiplicity db store.model target pair.1 pair.2 ≠ 0 := by
  unfold joined
  simp only [List.mem_flatMap, List.mem_replicate]
  constructor
  · rintro ⟨child, hchild, owner, howner, hrelated, rfl⟩
    exact ⟨hchild, howner, hrelated⟩
  · rintro ⟨hchild, howner, hrelated⟩
    exact ⟨pair.2, hchild, pair.1, howner, hrelated, rfl⟩

theorem filter_admits_comm
    (inclusion : Inclusion) (target : Model) (keep : Row → Bool) (rows : List Row) :
    sortRows (inclusion.sortKeys target) ((rows.filter keep).filter (inclusion.admits target)) =
      (inclusion.candidates target rows).filter keep := by
  unfold Inclusion.candidates
  rw [filter_sortRows, List.filter_filter, List.filter_filter]
  congr 2
  funext row
  exact Bool.and_comm _ _

theorem flatMap_filter_of_nil
    {α β : Type} {keep : α → Bool} {f : α → List β} {xs : List α}
    (h : ∀ x ∈ xs, keep x = false → f x = []) :
    (xs.filter keep).flatMap f = xs.flatMap f := by
  induction xs with
  | nil => rfl
  | cons x rest ih =>
      have hrest := ih fun y hy => h y (List.mem_cons_of_mem x hy)
      cases hx : keep x with
      | true => rw [List.filter_cons_of_pos hx, List.flatMap_cons, List.flatMap_cons, hrest]
      | false =>
          rw [List.filter_cons_of_neg (by simp [hx]), List.flatMap_cons, hrest,
            h x List.mem_cons_self hx, List.nil_append]

/-- Rows that no owner takes are not missed where they are not looked through. -/
theorem joined_pool (inclusion : Inclusion) (owners : List Row) :
    store.joined db relation target owners (sortRows (inclusion.sortKeys target)
        ((store.pool db relation target owners).filter (inclusion.admits target))) =
      store.joined db relation target owners
        (inclusion.candidates target (db.rows target)) := by
  unfold pool joined
  split
  · rfl
  · rw [filter_admits_comm]
    apply flatMap_filter_of_nil
    intro child _ hdropped
    rw [List.flatMap_eq_nil_iff]
    intro owner howner
    have hnone := List.any_eq_false.mp hdropped owner howner
    rw [List.replicate_eq_nil_iff]
    simpa using hnone

theorem prepare_append
    {name : String} {quantified : Bool} {keys others : List (Except BindError Cell)}
    (hkeys : ∀ binding ∈ keys, ∃ cell, binding = .ok cell) :
    prepare action name quantified (keys ++ others) = .ok () ↔
      quantified = false ∧ Binding.firstError? others = none := by
  rw [prepare_eq_ok, Binding.firstError?_eq_none_iff, Binding.firstError?_eq_none_iff,
    List.forall_mem_append]
  exact and_congr_right fun _ => and_iff_right hkeys

/-- The rows of a target are read for some keys where the filter of the inclusion can be asked of
every row that is looked through.  What is read then are the related rows, in their order. -/
theorem relatedRows_eq_ok_iff
    {ids : List Value} {pairs : List (Row × Row)}
    (hsome : ids ≠ []) (hrenders : inclusion.Renders target clause?)
    (hbound : ∀ binding ∈ store.keyBindings ids, ∃ cell, binding = .ok cell) :
    store.relatedRows db action inclusion relation target ids = .ok pairs ↔
      ((Inclusion.asked clause?).hasQuantifier = false ∧
        Binding.firstError? (Inclusion.asked clause?).bindings = none) ∧
      (∀ child ∈ store.pool db relation target (store.owners db ids),
        ∃ holds, (Inclusion.asked clause?).bound.holds? child = some holds) ∧
      pairs = store.joined db relation target (store.owners db ids)
        (inclusion.candidates target (db.rows target)) := by
  have hadmits : ∀ kept, kept = (store.pool db relation target (store.owners db ids)).filter
      (fun child => (Inclusion.asked clause?).bound.holds? child == some true) ↔
      kept = (store.pool db relation target (store.owners db ids)).filter
        (inclusion.admits target) := by
    intro kept
    unfold Inclusion.admits
    rw [hrenders.rendered]
  unfold relatedRows
  rw [hrenders.rendered, hrenders.projected, hrenders.ordered]
  dsimp only [bind, Except.bind]
  rw [if_neg (by simpa using hsome)]
  change (prepare action store.name (Inclusion.asked clause?).hasQuantifier
    (store.keyBindings ids ++ (Inclusion.asked clause?).bindings) >>= fun _ =>
      evaluated action store.name (filterRows? ((Inclusion.asked clause?).bound.holds? ·)
        (store.pool db relation target (store.owners db ids))) >>= fun kept =>
          pure (store.joined db relation target (store.owners db ids)
            (sortRows (inclusion.sortKeys target) kept))) = .ok pairs ↔ _
  rw [bind_eq_ok]
  constructor
  · rintro ⟨_, hprepare, h⟩
    rcases bind_eq_ok.mp h with ⟨kept, hkept, h⟩
    have hfilter := evaluated_eq_ok.mp hkept
    refine ⟨(prepare_append hbound).mp hprepare, told_of_filterRows? hfilter, ?_⟩
    rw [← pure_eq_ok.mp h, (hadmits kept).mp (filterRows?_eq_some hfilter), joined_pool]
  · rintro ⟨hclause, htold, rfl⟩
    refine ⟨(), (prepare_append hbound).mpr hclause, ?_⟩
    refine bind_eq_ok.mpr ⟨_, evaluated_eq_ok.mpr (filterRows?_of_told htold), ?_⟩
    rw [(hadmits _).mp rfl, joined_pool]
    rfl

/-! ## Nesting -/

/-- A joined pair is loaded where the key of its owner can be read, and its own columns. -/
theorem loadPair_eq_ok
    {attributes : Option (List String)} {pair : Row × Row} {loaded : Value × Entity} :
    store.loadPair target attributes pair = .ok loaded ↔
      readId? store.model pair.1 = some loaded.1 ∧
        loadRow target attributes pair.2 = .ok loaded.2 := by
  unfold loadPair
  cases readId? store.model pair.1 with
  | none => simp
  | some id =>
      dsimp only
      rw [map_eq_ok]
      constructor
      · rintro ⟨entity, hentity, rfl⟩
        exact ⟨rfl, hentity⟩
      · rintro ⟨hid, hentity⟩
        cases hid
        exact ⟨loaded.2, hentity, rfl⟩

/-- Related entities show what their own rows do, whatever the session has held before. -/
theorem shown_of_loaded
    {attributes : Option (List String)} {initial : Session} {pairs : List (Row × Row)}
    {loaded : List (Value × Entity)}
    (hapart : TellsApart target (db.rows target))
    (hinitial : initial.ReadsFrom target (db.rows target))
    (hpairs : ∀ pair ∈ pairs, pair.2 ∈ db.rows target)
    (hloaded : pairs.mapM (store.loadPair target attributes) = .ok loaded) :
    (initial.holdAll (loaded.map (·.2))).ReadsFrom target (db.rows target) ∧
      loaded.map (fun (id, entity) =>
          (id, ((initial.holdAll (loaded.map (·.2))).entity entity).project
            (shownFields target attributes))) =
        pairs.map fun pair => (store.shownId pair.1, shownOf target attributes pair.2) := by
  have hentities : Session.ReadsFrom target (db.rows target) (loaded.map (·.2)) := by
    intro entity hentity
    rcases List.mem_map.mp hentity with ⟨taken, htaken, rfl⟩
    rcases exists_of_mapM hloaded taken htaken with ⟨pair, hpair, hload⟩
    exact ⟨pair.2, hpairs pair hpair, Entity.reads_of_loadRow (loadPair_eq_ok.mp hload).2⟩
  rcases Session.holdAll_spec hapart hinitial hentities with ⟨hreads, hcovers⟩
  refine ⟨hreads, ?_⟩
  rcases List.forall₂_iff_zip.mp (forall₂_of_mapM hloaded) with ⟨hlength, hload⟩
  rw [← List.forall₂_eq_eq_eq, List.forall₂_map_left_iff, List.forall₂_map_right_iff]
  apply List.Forall₂.flip
  refine List.forall₂_iff_zip.mpr ⟨hlength, ?_⟩
  intro pair taken hmem
  rcases loadPair_eq_ok.mp (hload hmem) with ⟨hid, hentity⟩
  have htaken := List.mem_map_of_mem (f := fun taken : Value × Entity => taken.2)
    (List.of_mem_zip hmem).2
  have hproject := Session.project_entity hapart hreads (hcovers _ htaken)
    (hpairs pair (List.of_mem_zip hmem).1) hentity
  rw [← shownOf_of_loadRow hentity] at hproject
  exact Prod.ext (shownId_of_readId? hid).symm hproject

/-- What is shown so far, of some rows of the store. -/
structure ShowsOf (store : Store) (db : Database) (parents : List (Row × Assoc Value))
    (shown : Shown) : Prop where
  session : shown.session.ReadsFrom store.model (db.rows store.model)
  rows : shown.rows = parents.map fun parent => (store.shownId parent.1, parent.2)
  stored : parents.map (·.1) ⊆ db.rows store.model
  readable : ∀ parent ∈ parents.map (·.1), ∃ id, readId? store.model parent = some id

theorem ShowsOf.ids_eq
    {parents : List (Row × Assoc Value)} {shown : Shown}
    (h : store.ShowsOf db parents shown) :
    shown.rows.map (·.1) = (parents.map (·.1)).map store.shownId := by
  rw [h.rows, List.map_map, List.map_map]
  rfl

/-- The owners of joined pairs are chosen before the join as well as after it. -/
theorem filter_joined (keep : Row → Bool) (owners children : List Row) :
    (store.joined db relation target owners children).filter (fun pair => keep pair.1) =
      store.joined db relation target (owners.filter keep) children := by
  unfold joined
  rw [List.filter_flatMap]
  congr 1
  funext child
  induction owners with
  | nil => rfl
  | cons owner rest ih =>
      rw [List.flatMap_cons, List.filter_append, ih, List.filter_replicate]
      cases hkeep : keep owner with
      | true => rw [List.filter_cons_of_pos hkeep, List.flatMap_cons, if_pos rfl]
      | false =>
          rw [List.filter_cons_of_neg (by simp [hkeep]), if_neg Bool.false_ne_true]
          rfl

theorem owners_nil (hrecalls : store.Recalls db) : store.owners db [] = [] := by
  rw [List.eq_nil_iff_forall_not_mem]
  intro owner howner
  have hmem := mem_owners_iff hrecalls (List.nil_subset _)
    fun _ hparent => absurd hparent List.not_mem_nil
  rcases (hmem owner).mp howner with ⟨_, hparent, _⟩
  cases hparent

theorem renders_of_relatedRows
    {ids : List Value} {pairs : List (Row × Row)}
    (h : store.relatedRows db action inclusion relation target ids = .ok pairs) :
    ∃ clause?, inclusion.Renders target clause? := by
  unfold relatedRows at h
  rcases bind_eq_ok.mp h with ⟨clause?, hrendered, h⟩
  rcases bind_eq_ok.mp h with ⟨_, hprojected, h⟩
  rcases bind_eq_ok.mp h with ⟨keys, hordered, _⟩
  refine ⟨clause?, hrendered, hprojected, ?_⟩
  unfold Inclusion.sortKeys
  rw [hordered]
  rfl

/-- Without keys nothing is read. -/
theorem relatedRows_nil
    (hrenders : inclusion.Renders target clause?) :
    store.relatedRows db action inclusion relation target [] = .ok [] := by
  unfold relatedRows
  rw [hrenders.rendered, hrenders.projected, hrenders.ordered]
  rfl

/-- What is read for some parents are their related rows. -/
theorem relatedRows_eq_joined
    {pairs : List (Row × Row)}
    (hrecalls : store.Recalls db) (hparents : parents ⊆ db.rows store.model)
    (hread : ∀ parent ∈ parents, ∃ id, readId? store.model parent = some id)
    (h : store.relatedRows db action inclusion relation target (parents.map store.shownId) =
      .ok pairs) :
    pairs = store.joined db relation target (store.owners db (parents.map store.shownId))
      (inclusion.candidates target (db.rows target)) := by
  rcases renders_of_relatedRows h with ⟨clause?, hrenders⟩
  cases hids : parents.map store.shownId with
  | nil =>
      rw [hids, relatedRows_nil hrenders] at h
      cases h
      rw [owners_nil hrecalls]
      exact (List.flatMap_eq_nil_iff.mpr fun _ _ => rfl).symm
  | cons id rest =>
      have hsome : parents.map store.shownId ≠ [] := by
        rw [hids]
        exact List.cons_ne_nil id rest
      rw [← hids]
      exact ((relatedRows_eq_ok_iff hsome hrenders (hrecalls.bound parents hparents hread)).mp
        h).2.2

/-- What is nested in a row are its own related rows, whatever rows they were read for. -/
theorem nested_eq_relatedValue
    {pairs : List (Row × Row)} {parent : Row}
    (hresolved : store.relation inclusion = .ok (relation, target))
    (hrecalls : store.Recalls db) (hparents : parents ⊆ db.rows store.model)
    (hread : ∀ parent ∈ parents, ∃ id, readId? store.model parent = some id)
    (hparent : parent ∈ parents)
    (hpairs : pairs = store.joined db relation target
      (store.owners db (parents.map store.shownId))
      (inclusion.candidates target (db.rows target))) :
    nested relation (pairs.map fun pair =>
        (store.shownId pair.1, shownOf target inclusion.attributes pair.2))
      (store.shownId parent) = store.relatedValue db inclusion parent := by
  have hmine : ((pairs.map fun pair =>
        (store.shownId pair.1, shownOf target inclusion.attributes pair.2)).filter
      fun pair => pair.1.sameAs (store.shownId parent)).map (fun pair => Value.map pair.2) =
        store.relatedValues db inclusion relation target parent := by
    rw [List.filter_map, List.map_map, hpairs]
    unfold relatedValues
    rw [← filter_owners hrecalls hparents hread hparent, ← filter_joined]
    rfl
  unfold nested relatedValue
  rw [hresolved]
  dsimp only
  rw [hmine]

/-- Nesting an inclusion shows the same rows, with what is related to each. -/
theorem nest_eq_ok
    {inclusions : List Inclusion} {parents : List (Row × Assoc Value)} {shown after : Shown}
    (hfaithful : store.Faithful db inclusions) (hmem : inclusion ∈ inclusions)
    (hshows : store.ShowsOf db parents shown)
    (h : store.nest db action inclusion shown = .ok after) :
    store.ShowsOf db (parents.map fun parent =>
      (parent.1, Assoc.put inclusion.relation (store.relatedValue db inclusion parent.1) parent.2))
      after := by
  have hrecalls := hfaithful.recalls (List.ne_nil_of_mem hmem)
  unfold nest at h
  rcases bind_eq_ok.mp h with ⟨⟨relation, target⟩, hresolved, h⟩
  rcases bind_eq_ok.mp h with ⟨pairs, hrelated, h⟩
  rcases bind_eq_ok.mp h with ⟨loaded, hloaded, h⟩
  rcases hfaithful.related inclusion hmem relation target hresolved with ⟨hapart, hown⟩
  rw [hshows.ids_eq] at hrelated
  have hpairs := relatedRows_eq_joined hrecalls hshows.stored hshows.readable hrelated
  have hchildren : ∀ pair ∈ pairs, pair.2 ∈ db.rows target := by
    intro pair hpair
    rw [hpairs, mem_joined_iff] at hpair
    exact (List.mem_filter.mp ((perm_sortRows _ _).mem_iff.mp hpair.1)).1
  have hinitial : (if (relation.target == store.model.name) = true then shown.session
      else []).ReadsFrom target (db.rows target) := by
    split
    · rename_i hisOwn
      rw [hown (beq_iff_eq.mp hisOwn)]
      exact hshows.session
    · exact fun _ hheld => absurd hheld List.not_mem_nil
  rcases shown_of_loaded hapart hinitial hchildren hloaded with ⟨hreads, hprojected⟩
  rw [← pure_eq_ok.mp h]
  constructor
  · dsimp only
    split
    · rename_i hisOwn
      rw [if_pos hisOwn, hown (beq_iff_eq.mp hisOwn)] at hreads
      exact fun held hheld => hreads held (List.mem_of_mem_take hheld)
    · exact hshows.session
  · dsimp only
    rw [hshows.rows, List.map_map, List.map_map]
    apply List.map_congr_left
    intro parent hparent
    have hnested := nested_eq_relatedValue hresolved hrecalls hshows.stored hshows.readable
      (List.mem_map_of_mem hparent) hpairs
    rw [← hprojected] at hnested
    exact congrArg (fun v => (store.shownId parent.1, Assoc.put inclusion.relation v parent.2))
      hnested
  · rw [List.map_map]
    exact hshows.stored
  · rw [List.map_map]
    exact hshows.readable

/-- By induction on the inclusions, each of which adds to what the earlier ones show. -/
theorem nestAll_eq_ok
    {inclusions later : List Inclusion} {parents : List (Row × Assoc Value)}
    {shown after : Shown}
    (hfaithful : store.Faithful db inclusions) (hlater : later ⊆ inclusions)
    (hshows : store.ShowsOf db parents shown)
    (h : store.nestAll db action later shown = .ok after) :
    store.ShowsOf db (parents.map fun parent =>
      (parent.1, store.withRelated db later parent.1 parent.2)) after := by
  induction later generalizing parents shown with
  | nil =>
      cases h
      rwa [show (parents.map fun parent => (parent.1, store.withRelated db [] parent.1 parent.2)) =
        parents from List.map_id _]
  | cons inclusion rest ih =>
      rcases bind_eq_ok.mp h with ⟨middle, hfirst, hrest⟩
      rcases List.cons_subset.mp hlater with ⟨hmem, hothers⟩
      have hall := ih hothers (nest_eq_ok hfaithful hmem hshows hfirst) hrest
      rw [List.map_map] at hall
      exact hall

/-! ## Rows -/

/-- Loaded entities hold the key by which their rows are found. -/
theorem readId?_of_loadRow
    {attributes : Option (List String)} {row : Row} {entity : Entity}
    (hrecalls : store.Recalls db) (hload : loadRow store.model attributes row = .ok entity) :
    readId? store.model row = some (entity.value store.model.keyField) := by
  rcases hrecalls.keyed with ⟨hin, column, hcolumn⟩
  rcases get?_of_loadRow hload hcolumn (Or.inl hin) with ⟨v, hread, hget⟩
  unfold readId? Entity.value
  rw [hcolumn, Option.bind_some, Model.key_of_column? hcolumn, hread, hget]
  rfl

/-- Rows that were loaded show their own columns. -/
theorem rows_shownOwn
    {attributes : Option (List String)} {rows : List Row} {loaded : List Entity}
    (hapart : TellsApart store.model (db.rows store.model)) (hrows : rows ⊆ db.rows store.model)
    (hloaded : rows.mapM (loadRow store.model attributes) = .ok loaded) :
    (store.shownOwn attributes loaded).session.ReadsFrom store.model (db.rows store.model) ∧
      List.Forall₂ (fun row (shown : Value × Assoc Value) =>
        shown.2 = shownOf store.model attributes row ∧
          (store.Recalls db → readId? store.model row = some shown.1))
        rows (store.shownOwn attributes loaded).rows := by
  have hentities : Session.ReadsFrom store.model (db.rows store.model) loaded := by
    intro entity hentity
    rcases exists_of_mapM hloaded entity hentity with ⟨row, hrow, hload⟩
    exact ⟨row, hrows hrow, Entity.reads_of_loadRow hload⟩
  have hinitial : Session.ReadsFrom store.model (db.rows store.model) [] :=
    fun _ hheld => absurd hheld List.not_mem_nil
  rcases Session.holdAll_spec hapart hinitial hentities with ⟨hreads, hcovers⟩
  refine ⟨hreads, ?_⟩
  rcases List.forall₂_iff_zip.mp (forall₂_of_mapM hloaded) with ⟨hlength, hload⟩
  unfold shownOwn
  rw [List.forall₂_map_right_iff]
  refine List.forall₂_iff_zip.mpr ⟨hlength, ?_⟩
  intro row entity hmem
  have hrow := hrows (List.of_mem_zip hmem).1
  have hfound := hcovers entity (List.of_mem_zip hmem).2
  constructor
  · rw [shownOf_of_loadRow (hload hmem)]
    exact Session.project_entity hapart hreads hfound hrow (hload hmem)
  · intro hrecalls
    dsimp only
    rw [Session.value_entity hapart hreads hfound hrow (hload hmem) (Or.inl hrecalls.keyed.1)]
    exact readId?_of_loadRow hrecalls (hload hmem)

/-- What is shown of rows that were loaded, before anything is nested in them. -/
theorem showsOf_shownOwn
    {attributes : Option (List String)} {rows : List Row} {loaded : List Entity}
    (hapart : TellsApart store.model (db.rows store.model)) (hrecalls : store.Recalls db)
    (hrows : rows ⊆ db.rows store.model)
    (hloaded : rows.mapM (loadRow store.model attributes) = .ok loaded) :
    store.ShowsOf db (rows.map fun row => (row, shownOf store.model attributes row))
      (store.shownOwn attributes loaded) := by
  rcases rows_shownOwn hapart hrows hloaded with ⟨hreads, hshown⟩
  have hparents : (rows.map fun row => (row, shownOf store.model attributes row)).map (·.1) =
      rows := by
    rw [List.map_map]
    exact List.map_id _
  refine ⟨hreads, ?_, by rwa [hparents], ?_⟩
  · rw [List.map_map, ← List.forall₂_eq_eq_eq, List.forall₂_map_right_iff]
    refine hshown.flip.imp ?_
    rintro shown row ⟨hown, hid⟩
    exact Prod.ext (shownId_of_readId? (hid hrecalls)).symm hown
  · rw [hparents]
    intro row hrow
    rcases exists_mapM_iff.mp ⟨loaded, hloaded⟩ row hrow with ⟨entity, hentity⟩
    exact ⟨_, readId?_of_loadRow hrecalls hentity⟩

/-- Where keys are shown faithfully, rows show the answers of the query to each. -/
theorem showRows_eq_ok
    {query : Query} {rows : List Row} {shown : List (Assoc Value)}
    (hfaithful : store.Faithful db (query.inclusions.getD []))
    (hrows : rows ⊆ db.rows store.model)
    (h : store.showRows db action query rows = .ok shown) :
    shown = rows.map (store.answer db query) := by
  unfold showRows at h
  rcases bind_eq_ok.mp h with ⟨loaded, hloaded, h⟩
  rcases bind_eq_ok.mp h with ⟨after, hafter, h⟩
  rw [← pure_eq_ok.mp h]
  by_cases hnone : query.inclusions.getD [] = []
  · rw [hnone] at hafter
    cases hafter
    rw [← List.forall₂_eq_eq_eq, List.forall₂_map_left_iff, List.forall₂_map_right_iff]
    refine (rows_shownOwn hfaithful.apart hrows hloaded).2.flip.imp ?_
    rintro own row ⟨hown, _⟩
    unfold answer
    rw [hnone]
    exact hown
  · have hshows := nestAll_eq_ok hfaithful (List.Subset.refl _)
      (showsOf_shownOwn hfaithful.apart (hfaithful.recalls hnone) hrows hloaded) hafter
    rw [hshows.rows, List.map_map, List.map_map, List.map_map]
    rfl

/-- Where keys tell the rows of the table apart, each row shows its own columns. -/
theorem shownRows_of_tellsApart
    {attributes : Option (List String)} {rows : List Row}
    (hapart : TellsApart store.model (db.rows store.model)) (hrows : rows ⊆ db.rows store.model)
    (hread : ∀ row ∈ rows, ∃ own, showRow store.model attributes row = .ok own) :
    store.shownRows attributes rows = rows.map (shownOf store.model attributes) := by
  have hfaithful : store.Faithful db [] :=
    ⟨hapart, fun h => absurd rfl h, fun _ hmem => absurd hmem List.not_mem_nil⟩
  have hshown : store.showRows db .list { attributes } rows =
      .ok (store.shownRows attributes rows) :=
    (showRows_plain_iff rfl).mpr ⟨hread, rfl⟩
  exact showRows_eq_ok hfaithful hrows hshown

theorem kin_of_showRow
    {attributes : Option (List String)} {row : Row} {shown : Assoc Value}
    (hsingle : store.model.primaryKey.length = 1)
    (hapart : TellsApart store.model (db.rows store.model)) (hrecalls : store.Recalls db)
    (hrow : row ∈ db.rows store.model)
    (hshow : showRow store.model attributes row = .ok shown) :
    store.kin db row = [row] := by
  rcases showRow_eq_ok.mp hshow with ⟨entity, hentity, _⟩
  exact kin_of_single hsingle hapart hrow (readId?_of_loadRow hrecalls hentity)

end Store
end RecordApi
