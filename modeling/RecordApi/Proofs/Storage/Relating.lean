import Mathlib.Data.List.Pairwise
import RecordApi.Proofs.Storage.Loading
import RecordApi.Proofs.Storage.Requiring
import RecordApi.Proofs.Storage.Selecting
import RecordApi.Sample.Bands

/-!
# Related rows in an answer

An answer shows its own projection of a row and, under the name of each inclusion, rows of the
target.  These are exactly the related rows on which the filter of the inclusion is true, each as
often as it is related, in the order of the inclusion; none belongs to another row of the page.
-/

namespace RecordApi

open Steps Storage

/-! ## The filter of an inclusion -/

namespace Condition

/-- The truth of a condition on a row, unknown where the condition cannot be evaluated. -/
def truthOn (model : Model) (name : String) (row : Row) (c : Condition) : Truth :=
  (c.truthOn? model name row).getD .unknown

end Condition

namespace Clause

variable {model : Model} {name : String} {row : Row}

mutual

/-- What can be told of a clause is told by its truth. -/
theorem told_of_holds? :
    ∀ {clause : Clause Value} {holds : Bool},
      holds? row clause.bound = some holds → holds = (truth (truthAt row) clause == .yes)
  | .test column t, holds, h => by
      rw [bound, holds?] at h
      rcases Option.map_eq_some_iff.mp h with ⟨t', htruth, hholds⟩
      rw [truth, truthAt, htruth, ← hholds]
      rfl
  | .group .and clauses, holds, h => by
      rw [bound, holds?, allBound_eq_map] at h
      rw [truth_group]
      exact told_of_allHold? h
  | .group .or clauses, holds, h => by
      rw [bound, holds?, allBound_eq_map] at h
      rw [truth_group]
      exact told_of_anyHolds? h

theorem told_of_allHold? :
    ∀ {clauses : List (Clause Value)} {holds : Bool},
      allHold? row (clauses.map bound) = some holds →
        holds = (Combinator.and.truth (clauses.map (truth (truthAt row))) == .yes)
  | [], holds, h => by
      cases h
      rfl
  | clause :: rest, holds, h => by
      rw [List.map_cons, allHold?] at h
      rw [List.map_cons, Combinator.and_truth_cons_beq]
      split at h
      · rename_i hyes
        rw [← told_of_holds? hyes, Bool.true_and]
        exact told_of_allHold? h
      · rename_i hother
        cases holds with
        | true => exact absurd h hother
        | false => rw [← told_of_holds? h, Bool.false_and]

theorem told_of_anyHolds? :
    ∀ {clauses : List (Clause Value)} {holds : Bool},
      anyHolds? row (clauses.map bound) = some holds →
        holds = (Combinator.or.truth (clauses.map (truth (truthAt row))) == .yes)
  | [], holds, h => by
      cases h
      rfl
  | clause :: rest, holds, h => by
      rw [List.map_cons, anyHolds?] at h
      rw [List.map_cons, Combinator.or_truth_cons_beq]
      split at h
      · rename_i hno
        rw [← told_of_holds? hno, Bool.false_or]
        exact told_of_anyHolds? h
      · rename_i hother
        cases holds with
        | false => exact absurd h hother
        | true => rw [← told_of_holds? h, Bool.true_or]

end

mutual

/-- A rendered predicate has on every row the truth of its conditions there. -/
theorem truth_of_ofPredicate :
    ∀ {p : Predicate} {clause : Clause Value}, ofPredicate model name p = .ok clause →
      clause.truth (truthAt row) = p.truth (Condition.truthOn model name row)
  | .condition c, clause, h => by
      rw [Predicate.truth, Condition.truthOn, Condition.truthOn?]
      rw [ofPredicate] at h
      rw [h]
      rcases bind_eq_ok.mp h with ⟨column, _, h⟩
      split at h
      · cases h
      · rcases bind_eq_ok.mp h with ⟨t, _, hclause⟩
        rw [← pure_eq_ok.mp hclause]
        rfl
  | .group combinator branches, clause, h => by
      rcases map_eq_ok.mp h with ⟨clauses, hclauses, hclause⟩
      rw [← hclause, truth_group, Predicate.truth_group, truth_of_ofPredicates hclauses]

theorem truth_of_ofPredicates :
    ∀ {ps : List Predicate} {clauses : List (Clause Value)},
      ofPredicates model name ps = .ok clauses →
        clauses.map (truth (truthAt row)) =
          ps.map (Predicate.truth (Condition.truthOn model name row))
  | [], clauses, h => by
      cases h
      rfl
  | p :: rest, clauses, h => by
      rcases bind_eq_ok.mp h with ⟨clause, hclause, h⟩
      rcases bind_eq_ok.mp h with ⟨others, hothers, hclauses⟩
      rw [← pure_eq_ok.mp hclauses, List.map_cons, List.map_cons,
        truth_of_ofPredicate hclause, truth_of_ofPredicates hothers]

end

end Clause

namespace Inclusion

/-- The filter of an inclusion is true on a row of its target. -/
def isTrueOn (inclusion : Inclusion) (target : Model) (child : Row) : Bool :=
  (inclusion.filter.map
    (Predicate.truth (Condition.truthOn target inclusion.relation child))).getD .yes == .yes

theorem admits_eq_isTrueOn
    {inclusion : Inclusion} {target : Model} {clause? : Option (Clause Value)} {child : Row}
    (hrendered : Clause.ofPredicate? target inclusion.relation inclusion.filter = .ok clause?)
    (htold : ∃ holds, (asked clause?).bound.holds? child = some holds) :
    inclusion.admits target child = inclusion.isTrueOn target child := by
  unfold admits isTrueOn
  rw [hrendered]
  unfold Clause.ofPredicate? at hrendered
  cases hfilter : inclusion.filter with
  | none =>
      rw [hfilter] at hrendered
      cases hrendered
      rfl
  | some p =>
      rw [hfilter] at hrendered
      rcases map_eq_ok.mp hrendered with ⟨clause, hclause, rfl⟩
      rcases htold with ⟨holds, hholds⟩
      have htruth := Clause.told_of_holds? hholds
      change holds = (clause.simplified.truth (Clause.truthAt child) == .yes) at htruth
      rw [Clause.truth_simplified, Clause.truth_of_ofPredicate hclause] at htruth
      dsimp only
      rw [hholds, htruth, Option.map_some, Option.getD_some]
      cases p.truth (Condition.truthOn target inclusion.relation child) <;> rfl

end Inclusion

/-! ## What is nested -/

/-- An answer shows exactly the fields of a projection, and each as its cell reads. -/
structure Storage.Projects (model : Model) (attributes : Option (List String)) (row : Row)
    (shown : Assoc Value) : Prop where
  nodup : (Assoc.keys shown).Nodup
  mem_keys : ∀ field, field ∈ Assoc.keys shown ↔ field ∈ shownFields model attributes
  shows : Shows model (shownFields model attributes) [] row shown

namespace Store

/-- The rows that an inclusion nests in a row: those of the target on which its filter is true,
each as often as it is related to the row, in the order of the inclusion. -/
structure Relates (store : Store) (db : Database) (inclusion : Inclusion) (relation : Relation)
    (target : Model) (parent : Row) (related : List Row) : Prop where
  count_eq : ∀ child, related.count child =
    if inclusion.isTrueOn target child then
      (db.rows target).count child * relation.join.multiplicity db store.model target parent child
    else 0
  sorted : ∃ keys, SortKey.ofOrder target inclusion.relation inclusion.order = .ok keys ∧
    related.Pairwise fun a b => rowOrder keys a b ≠ .gt

/-- What an inclusion nests in a row: the projections of the related rows, as a list for a
relation to many rows, else the first of them or null. -/
def Nests (store : Store) (db : Database) (inclusion : Inclusion) (parent : Row) (v : Value) :
    Prop :=
  ∃ relation target related shown, store.relation inclusion = .ok (relation, target) ∧
    store.Relates db inclusion relation target parent related ∧
    List.Forall₂ (Projects target inclusion.attributes) related shown ∧
    v = if relation.many then .list (shown.map .map) else (shown.map .map).headD .null

/-- What a query answers to a row: its own projection, and what each inclusion nests in it.  A
later inclusion of the same name takes the place of an earlier one. -/
structure Answers (store : Store) (db : Database) (query : Query) (row : Row)
    (shown : Assoc Value) : Prop where
  nodup : (Assoc.keys shown).Nodup
  mem_keys : ∀ field, field ∈ Assoc.keys shown ↔
    field ∈ shownFields store.model query.attributes ∨
      field ∈ (query.inclusions.getD []).map (·.relation)
  shows : Shows store.model (shownFields store.model query.attributes)
    ((query.inclusions.getD []).map (·.relation)) row shown
  nests : ∀ ahead inclusion behind, query.inclusions.getD [] = ahead ++ inclusion :: behind →
    (∀ later ∈ behind, later.relation = inclusion.relation → later = inclusion) →
      ∃ v, Assoc.get? shown inclusion.relation = some v ∧ store.Nests db inclusion row v

/-! ## What is shown of a row -/

theorem nodup_mem_keys_ofPairs {α : Type} (f : String → α) (fields : List String) :
    (Assoc.keys (Assoc.ofPairs (fields.map fun field => (field, f field)))).Nodup ∧
      ∀ field, field ∈ Assoc.keys (Assoc.ofPairs (fields.map fun field => (field, f field))) ↔
        field ∈ fields := by
  have hnone : (Assoc.keys ([] : Assoc α)).Nodup := List.nodup_nil
  have hkeys := Assoc.keys_foldl_put (fields.map fun field => (field, f field)) hnone
  refine ⟨hkeys.1, ?_⟩
  intro field
  unfold Assoc.ofPairs
  rw [hkeys.2, List.map_map]
  simp [Assoc.keys]

theorem projects_of_showRow
    {model : Model} (name : String) {attributes : Option (List String)} {row : Row}
    {shown : Assoc Value}
    (hcheck : checkFields model name attributes = .ok ())
    (hshow : showRow model attributes row = .ok shown) :
    Projects model attributes row shown := by
  have hshows := shows_of_showRow name hcheck hshow
  rcases showRow_eq_ok.mp hshow with ⟨entity, _, rfl⟩
  have hkeys := nodup_mem_keys_ofPairs entity.value (shownFields model attributes)
  exact ⟨hkeys.1, hkeys.2, hshows⟩

/-! ## The related rows -/

variable {store : Store} {db : Database} {inclusion : Inclusion} {relation : Relation}
  {target : Model} {clause? : Option (Clause Value)} {parents : List Row} {parent : Row}

/-- The related rows of one parent, in the order in which they are nested. -/
def relatedTo (store : Store) (db : Database) (inclusion : Inclusion) (relation : Relation)
    (target : Model) (parent : Row) : List Row :=
  (inclusion.candidates target (db.rows target)).flatMap fun child =>
    List.replicate (relation.join.multiplicity db store.model target parent child) child

/-- Where a row is its own only kin, its related rows are nested in it. -/
theorem relatedValues_eq_map (hkin : store.kin db parent = [parent]) :
    store.relatedValues db inclusion relation target parent =
      (store.relatedTo db inclusion relation target parent).map fun child =>
        .map (shownOf target inclusion.attributes child) := by
  unfold relatedValues relatedTo joined
  rw [hkin, List.map_flatMap, List.map_flatMap]
  congr 1
  funext child
  rw [List.flatMap_cons, List.flatMap_nil, List.append_nil, List.map_replicate, List.map_replicate]

theorem mem_relatedTo
    {child : Row}
    (h : child ∈ store.relatedTo db inclusion relation target parent) :
    child ∈ db.rows target ∧ inclusion.admits target child = true ∧
      relation.join.multiplicity db store.model target parent child ≠ 0 := by
  rcases List.mem_flatMap.mp h with ⟨candidate, hcandidate, hcopy⟩
  have heq := List.eq_of_mem_replicate hcopy
  rw [← heq] at hcandidate hcopy
  have hmem := Inclusion.mem_candidates.mp hcandidate
  exact ⟨hmem.1, hmem.2, (List.mem_replicate.mp hcopy).1⟩

theorem count_flatMap_replicate
    {α : Type} [BEq α] [LawfulBEq α] (copies : α → Nat) (a : α) (xs : List α) :
    (xs.flatMap fun x => List.replicate (copies x) x).count a = xs.count a * copies a := by
  induction xs with
  | nil => rw [List.flatMap_nil, List.count_nil, Nat.zero_mul]
  | cons x rest ih =>
      rw [List.flatMap_cons, List.count_append, ih, List.count_replicate, List.count_cons]
      by_cases hx : x = a
      · rw [hx, if_pos (beq_self_eq_true a), if_pos (beq_self_eq_true a), Nat.add_mul, Nat.one_mul,
          Nat.add_comm]
      · rw [if_neg (by simpa using hx), if_neg (by simpa using hx), Nat.zero_add, Nat.add_zero]

theorem count_candidates (rows : List Row) (child : Row) :
    (inclusion.candidates target rows).count child =
      if inclusion.admits target child then rows.count child else 0 := by
  unfold Inclusion.candidates
  rw [(perm_sortRows _ _).count_eq]
  cases hadmits : inclusion.admits target child with
  | true => rw [List.count_filter hadmits, if_pos rfl]
  | false =>
      rw [if_neg Bool.false_ne_true, List.count_eq_zero]
      intro hmem
      rw [List.mem_filter, hadmits] at hmem
      exact Bool.false_ne_true hmem.2

/-- The rows that a parent takes are told by the parent alone: the filter was asked of each row
that is related to it. -/
theorem relates_of_loads
    (h : inclusion.Loads store db parents relation target clause?)
    (hparent : parent ∈ parents) (hkin : store.kin db parent = [parent]) :
    store.Relates db inclusion relation target parent
      (store.relatedTo db inclusion relation target parent) where
  count_eq := by
    intro child
    unfold relatedTo
    rw [count_flatMap_replicate, count_candidates]
    by_cases hrelated : relation.join.multiplicity db store.model target parent child = 0
    · rw [hrelated, Nat.mul_zero, Nat.mul_zero, ite_self]
    · by_cases hchild : child ∈ db.rows target
      · have hasks : Inclusion.Asks store db relation target parents child :=
          ⟨List.ne_nil_of_mem hparent, hchild,
            Or.inr ⟨parent, hparent, parent, hkin ▸ List.mem_cons_self, hrelated⟩⟩
        rw [Inclusion.admits_eq_isTrueOn h.renders.rendered (h.told child hasks)]
        cases inclusion.isTrueOn target child with
        | true => rfl
        | false => exact Nat.zero_mul _
      · rw [List.count_eq_zero.mpr hchild, ite_self, Nat.zero_mul, ite_self]
  sorted := by
    refine ⟨inclusion.sortKeys target, h.renders.ordered, ?_⟩
    unfold relatedTo Inclusion.candidates
    rw [List.pairwise_flatMap]
    constructor
    · intro child _
      rw [List.pairwise_replicate]
      exact Or.inr (rowOrder_self _ child)
    · refine (sorted_sortRows _ _).imp ?_
      intro a b hab x hx y hy
      rw [List.eq_of_mem_replicate hx, List.eq_of_mem_replicate hy]
      exact hab

theorem nests_of_loads
    (h : inclusion.Loads store db parents relation target clause?)
    (hparent : parent ∈ parents) (hkin : store.kin db parent = [parent]) :
    store.Nests db inclusion parent (store.relatedValue db inclusion parent) := by
  refine ⟨relation, target, store.relatedTo db inclusion relation target parent,
    (store.relatedTo db inclusion relation target parent).map (shownOf target inclusion.attributes),
    h.resolved, relates_of_loads h hparent hkin, ?_, ?_⟩
  · rw [List.forall₂_map_right_iff, List.forall₂_same]
    intro child hchild
    rcases mem_relatedTo hchild with ⟨hmem, hadmits, hrelated⟩
    rcases h.readable parent hparent parent (hkin ▸ List.mem_cons_self) child hmem hrelated hadmits
      with ⟨shown, hshown⟩
    rw [shownOf_of_showRow hshown]
    exact projects_of_showRow _ h.renders.projected hshown
  · unfold relatedValue
    rw [h.resolved]
    dsimp only
    rw [relatedValues_eq_map hkin, List.map_map]
    rfl

/-! ## Answers -/

theorem keys_withRelated
    (store : Store) (db : Database) (inclusions : List Inclusion) (parent : Row)
    {shown : Assoc Value}
    (hdistinct : (Assoc.keys shown).Nodup) :
    (Assoc.keys (store.withRelated db inclusions parent shown)).Nodup ∧
      ∀ field, field ∈ Assoc.keys (store.withRelated db inclusions parent shown) ↔
        field ∈ Assoc.keys shown ∨ field ∈ inclusions.map (·.relation) := by
  have hkeys := Assoc.keys_foldl_put (inclusions.map fun inclusion =>
    (inclusion.relation, store.relatedValue db inclusion parent)) hdistinct
  rw [List.foldl_map, List.map_map] at hkeys
  exact hkeys

/-- Under the name of an inclusion stands what the last of this name nests. -/
theorem get?_withRelated_split
    {ahead behind : List Inclusion}
    (hlast : ∀ later ∈ behind, later.relation = inclusion.relation → later = inclusion)
    (shown : Assoc Value) :
    Assoc.get? (store.withRelated db (ahead ++ inclusion :: behind) parent shown)
      inclusion.relation = some (store.relatedValue db inclusion parent) := by
  have hvalue : ∀ later ∈ inclusion :: behind, later.relation = inclusion.relation →
      store.relatedValue db later parent = store.relatedValue db inclusion parent := by
    intro later hlater hname
    cases hlater with
    | head => rfl
    | tail _ hmem => rw [hlast later hmem hname]
  have hsplit : store.withRelated db (ahead ++ inclusion :: behind) parent shown =
      store.withRelated db (inclusion :: behind) parent
        (store.withRelated db ahead parent shown) := by
    unfold withRelated
    rw [List.foldl_append]
  rw [hsplit, get?_withRelated hvalue, List.map_cons, if_pos List.mem_cons_self]

theorem shows_withRelated
    {model : Model} {fields : List String} {row : Row} {shown : Assoc Value}
    (inclusions : List Inclusion)
    (h : Shows model fields [] row shown) :
    Shows model fields (inclusions.map (·.relation)) row
      (store.withRelated db inclusions row shown) := by
  apply shows_of_sameAside h
  intro field hfield
  have hother : ∀ inclusion ∈ inclusions, inclusion.relation = field →
      store.relatedValue db inclusion row = .null := by
    intro inclusion hmem hname
    rw [← hname] at hfield
    exact absurd (List.mem_map_of_mem hmem) hfield
  rw [get?_withRelated hother, if_neg hfield]

theorem answers_of_showRows
    {action : Action} {query : Query} {rows : List Row} {shown : List (Assoc Value)}
    (hsingle : store.model.primaryKey.length = 1)
    (hfaithful : store.Faithful db (query.inclusions.getD []))
    (hrows : rows ⊆ db.rows store.model)
    (hcheck : checkFields store.model store.name query.attributes = .ok ())
    (h : store.showRows db action query rows = .ok shown) :
    List.Forall₂ (store.Answers db query) rows shown := by
  rcases (showRows_eq_ok_iff hfaithful hrows).mp h with ⟨hread, hloads, hanswer⟩
  rw [hanswer, List.forall₂_map_right_iff, List.forall₂_same]
  intro row hrow
  rcases hread row hrow with ⟨own, hown⟩
  have hprojects := projects_of_showRow _ hcheck hown
  unfold answer
  rw [shownOf_of_showRow hown]
  have hkeys := keys_withRelated store db (query.inclusions.getD []) row hprojects.nodup
  refine ⟨hkeys.1, ?_, shows_withRelated _ hprojects.shows, ?_⟩
  · intro field
    rw [hkeys.2, hprojects.mem_keys]
  · intro ahead inclusion behind hsplit hlast
    have hmem : inclusion ∈ query.inclusions.getD [] := by
      rw [hsplit]
      exact List.mem_append_right _ List.mem_cons_self
    have hkin := kin_of_showRow hsingle hfaithful.apart
      (hfaithful.recalls (List.ne_nil_of_mem hmem)) (hrows hrow) hown
    rcases hloads inclusion hmem with ⟨relation, target, clause?, hloaded⟩
    refine ⟨store.relatedValue db inclusion row, ?_, nests_of_loads hloaded hrow hkin⟩
    rw [hsplit]
    exact get?_withRelated_split hlast own

/-- A row that holds a key has at most one related row under it, if the key is compared as it is
stored. -/
theorem length_of_holds
    {field : String} {related : List Row}
    (hjoin : relation.join = .holds field target.keyField)
    (hplain : ∀ cell, Cell.beside (target.typeOf target.keyField).affinity
      (store.model.typeOf field).affinity cell = cell)
    (hsingle : target.primaryKey.length = 1)
    (hdistinct : (db.rows target).Pairwise fun a b => Row.sameKey target a b = false)
    (h : store.Relates db inclusion relation target parent related) :
    related.length ≤ 1 := by
  have hmultiplicity : ∀ child, relation.join.multiplicity db store.model target parent child =
      if Join.meets store.model target field target.keyField parent child then 1 else 0 := by
    intro child
    rw [hjoin]
    rfl
  have hmatches : ∀ child ∈ related, child ∈ db.rows target ∧
      Join.meets store.model target field target.keyField parent child = true := by
    intro child hchild
    have hcount := h.count_eq child
    have hpos := List.count_pos_iff.mpr hchild
    rw [hmultiplicity] at hcount
    constructor
    · by_contra hmissing
      rw [List.count_eq_zero.mpr hmissing, Nat.zero_mul, ite_self] at hcount
      omega
    · by_contra hother
      rw [if_neg hother, Nat.mul_zero, ite_self] at hcount
      omega
  have hsame : ∀ {child other},
      Join.meets store.model target field target.keyField parent child = true →
      Join.meets store.model target field target.keyField parent other = true →
        (child.cell target.keyField).sameKey (other.cell target.keyField) = true := by
    intro child other hchild hother
    unfold Join.meets Cell.joins at hchild hother
    rw [hplain] at hchild hother
    exact Cell.sameKey_trans (Cell.sameKey_symm hchild) hother
  -- two related rows would be one row twice, or two rows of one key
  match related, h, hmatches with
  | [], _, _ => exact Nat.zero_le 1
  | [child], _, _ => exact Nat.le_refl 1
  | child :: other :: rest, h, hmatches =>
      exfalso
      have hchild := hmatches child List.mem_cons_self
      have hother := hmatches other (List.mem_cons_of_mem _ List.mem_cons_self)
      have heq := Row.eq_of_sameKey (target.primaryKey_of_single hsingle) hdistinct hchild.1
        hother.1 (hsame hchild.2 hother.2)
      have hcount := h.count_eq child
      have honce := List.nodup_iff_count_le_one.mp (Row.nodup_of_distinct hdistinct) child
      rw [hmultiplicity, if_pos hchild.2, Nat.mul_one, ← heq, List.count_cons_self,
        List.count_cons_self] at hcount
      split at hcount <;> omega

/-- Nesting loses, repeats and mixes no related rows, where keys are shown faithfully.  Every listed
row and the row that is found show their own projection and, for each inclusion, exactly their own
related rows; and a row that holds a key in a field has one related row at most. -/
theorem answers_of_success
    {store : Store} {db : Database} {query : Query}
    (hsingle : store.model.primaryKey.length = 1)
    (hfaithful : store.Faithful db (query.inclusions.getD [])) :
    (∀ listing, store.list db query = .ok listing →
      List.Forall₂ (store.Answers db query)
        (slice query.limit query.offset (store.selected db query)) listing.rows) ∧
    (∀ shown, store.find db query = .ok (some shown) →
      ∃ row, (store.selected db query).head? = some row ∧ store.Answers db query row shown) ∧
    ∀ inclusion relation target field parent related,
      relation.join = .holds field target.keyField →
        (∀ cell, Cell.beside (target.typeOf target.keyField).affinity
          (store.model.typeOf field).affinity cell = cell) →
        target.primaryKey.length = 1 →
          (db.rows target).Pairwise (fun a b => Row.sameKey target a b = false) →
            store.Relates db inclusion relation target parent related → related.length ≤ 1 := by
  refine ⟨?_, ?_, fun _ _ _ _ _ _ => length_of_holds⟩
  · intro listing h
    rcases list_eq_ok_iff.mp h with ⟨⟨selection, keys, hruns⟩, _, _, hshown, _⟩
    exact answers_of_showRows hsingle hfaithful (slice_selected_subset store db query)
      hruns.projected hshown
  · intro shown h
    rcases find_eq_selected h with ⟨hcheck, hnone | ⟨row, own, hrow, hsome, hshown⟩⟩
    · cases hnone.2
    · cases hsome
      have hstored := selected_subset store db query (List.mem_of_mem_head? hrow)
      have hanswers := answers_of_showRows hsingle hfaithful
        (List.cons_subset.mpr ⟨hstored, List.nil_subset _⟩) hcheck hshown
      cases hanswers with
      | cons hfirst _ => exact ⟨row, hrow, hfirst⟩

end Store

namespace Sample

/-- The titles of all posts, each with its comments, its label `a` and its author. -/
def postsWithAll : Query where
  attributes := some ["title"]
  inclusions := some [
    ⟨"comments", none, some ["text"], none, none, false⟩,
    ⟨"labels", none, none, some (.condition ⟨"code", .known .eq, .text "a"⟩), none, false⟩,
    ⟨"author", none, some ["name"], none, none, false⟩]

theorem answers_of_success_posts :
    ∃ listing shown, postStore.list database postsWithAll = .ok listing ∧ listing.count = 5 ∧
      postStore.find database postsWithAll = .ok (some shown) ∧
      List.Forall₂ (postStore.Answers database postsWithAll)
        (postStore.selected database postsWithAll) listing.rows ∧
      ∃ row, (postStore.selected database postsWithAll).head? = some row ∧
        postStore.Answers database postsWithAll row shown := by
  have hlist : ((postStore.list database postsWithAll).toOption.map (·.count)) = some 5 := by
    decide
  have hfind : ((postStore.find database postsWithAll).toOption.map (·.isSome)) = some true := by
    decide
  rcases Option.map_eq_some_iff.mp hlist with ⟨listing, hlisting, hcount⟩
  rcases Option.map_eq_some_iff.mp hfind with ⟨shown?, hfound, hsome⟩
  rcases Option.isSome_iff_exists.mp hsome with ⟨shown, hshown⟩
  rw [toOption_eq_some] at hlisting hfound
  rw [hshown] at hfound
  have hanswers :=
    @Store.answers_of_success postStore database postsWithAll rfl (faithful_posts _)
  exact ⟨listing, shown, hlisting, hcount, hfound, hanswers.1 listing hlisting,
    hanswers.2.1 shown hfound⟩

/-- How many rows are nested in each listed row under a name. -/
def nestedCounts (store : Store) (db : Database) (relation : String) : Option (List Nat) :=
  (store.list db { inclusions := some [⟨relation, none, none, none, none, false⟩] }).toOption.map
    fun listing => listing.rows.map fun (shown : Assoc Value) =>
      match Assoc.get? shown relation with
      | some (.list related) => related.length
      | some (.map _) => 1
      | _ => 0

/-- Three things are nested otherwise than related.  The offer of the second band is lost, as it is
looked for by the price that the band shows; of two grades of one offer only the first is taken; and
a projection of no fields shows them all. -/
theorem nested_otherwise :
    (Join.multiplicity bandDatabase bands offers (.held "price" "price")
        (rowOf bands [finePrice, .text "second"]) (rowOf offers [.int 1, finePrice, .int 1]) = 1 ∧
      nestedCounts bandStore bandDatabase "offers" = some [0, 0]) ∧
    (((bandDatabase.rows grades).map (Join.multiplicity bandDatabase offers grades
        (.holds "grade" "code") (rowOf offers [.int 1, finePrice, .int 1]))) = [1, 1] ∧
      nestedCounts offerStore bandDatabase "grade" = some [1]) ∧
    shownFields comments (some []) = comments.fields := by
  decide +kernel

end Sample
end RecordApi
