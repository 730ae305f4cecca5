import RecordApi.Proofs.Storage.Failures

/-!
# Valid queries

A list query is refused when it names a field, a relation, an operator or a direction that does
not exist, or has an operand of the wrong kind.  Its own part is checked before a statement runs,
but an inclusion is checked only when the rows around it have been read.  `Store.checkQuery` makes
the same checks without any rows, and on every database a list query refuses as it does.
-/

namespace RecordApi

open Steps Storage StoreError

namespace StoreError

/-- The classes of errors that blame a query. -/
def refusals : List String :=
  ["UnknownFieldError", "UnknownRelationError", "UnsupportedOperatorError", "InvalidValueError",
    "UnsupportedSortDirectionError"]

/-- A query is refused for what it asks. -/
def IsRefusal (error : StoreError) : Prop :=
  Failure.storeLabel error ∈ refusals

instance (error : StoreError) : Decidable error.IsRefusal :=
  inferInstanceAs (Decidable (Failure.storeLabel error ∈ refusals))

theorem not_isRefusal_failed (action : Action) (model : String) (fault : Fault) :
    ¬ (failed action model fault).IsRefusal := by
  simp [IsRefusal, Failure.storeLabel, refusals]

theorem isRefusal_during
    {action : Action} {model : String} {error : StoreError}
    (h : (error.during action model).IsRefusal) :
    error.during action model = error := by
  unfold during at h ⊢
  split at h
  · exact absurd h (not_isRefusal_failed action model .comparison)
  · rfl

end StoreError

/-! ## Checks without rows -/

namespace Store

/-- What an inclusion asks of the rows of its model can be told. -/
def checkInclusion (store : Store) (inclusion : Inclusion) : Except StoreError Unit := do
  let (_, target) ← store.relation inclusion
  let _ ← Clause.ofPredicate? target inclusion.relation inclusion.filter
  checkFields target inclusion.relation inclusion.attributes
  let _ ← SortKey.ofOrder target inclusion.relation inclusion.order

/-- What a query asks of the rows of a store can be told. -/
def checkQuery (store : Store) (query : Query) : Except StoreError Unit := do
  let _ ← Selection.ofQuery store query
  checkFields store.model store.name query.attributes
  let _ ← SortKey.ofOrder store.model store.name query.order
  forM (query.inclusions.getD []) store.checkInclusion

end Store

/-- A computation refuses as a check does: it succeeds only where the check does, and when it
refuses, the check fails with the same error. -/
structure RefusesAs {α : Type} (check : Except StoreError Unit) (x : Except StoreError α) :
    Prop where
  of_ok : ∀ a, x = .ok a → check = .ok ()
  of_refusal : ∀ error, x = .error error → error.IsRefusal → check = .error error

namespace RefusesAs

variable {α β : Type} {check next : Except StoreError Unit} {x : Except StoreError α}
  {f : α → Except StoreError β}

/-- A computation that never refuses needs no check. -/
theorem harmless
    (h : ∀ error, x = .error error → ¬ error.IsRefusal) :
    RefusesAs (.ok ()) x :=
  ⟨fun _ _ => rfl, fun error hx hrefusal => absurd hrefusal (h error hx)⟩

/-- The checks of two steps are made one after the other. -/
theorem bind
    (hx : RefusesAs check x) (hf : ∀ a, x = .ok a → RefusesAs next (f a)) :
    RefusesAs (check >>= fun _ => next) (x >>= f) := by
  constructor
  · intro b h
    rcases bind_eq_ok.mp h with ⟨a, ha, hb⟩
    rw [hx.of_ok a ha]
    exact (hf a ha).of_ok b hb
  · intro error h hrefusal
    rcases bind_eq_error.mp h with hfirst | ⟨a, ha, hsecond⟩
    · rw [hx.of_refusal error hfirst hrefusal]
      rfl
    · rw [hx.of_ok a ha]
      exact (hf a ha).of_refusal error hsecond hrefusal

/-- A step that the check takes itself; the rest is checked for its result. -/
theorem step
    {rest : α → Except StoreError Unit}
    (hf : ∀ a, x = .ok a → RefusesAs (rest a) (f a)) :
    RefusesAs (x >>= rest) (x >>= f) := by
  cases x with
  | error e => exact ⟨fun _ h => (nomatch h), fun error h _ => by cases h; rfl⟩
  | ok a => exact hf a rfl

/-- A step in front that never refuses is no part of the check. -/
theorem skip
    (hx : ∀ error, x = .error error → ¬ error.IsRefusal) (hf : ∀ a, RefusesAs check (f a)) :
    RefusesAs check (x >>= f) :=
  bind (harmless hx) fun a _ => hf a

/-- Nor is what follows and never refuses. -/
theorem followed
    (hx : RefusesAs check x) (hf : ∀ a error, f a = .error error → ¬ error.IsRefusal) :
    RefusesAs check (x >>= f) := by
  have hboth := bind hx fun a _ => harmless (hf a)
  cases check with
  | error e => exact hboth
  | ok _ => exact hboth

theorem during
    {action : Action} {model : String}
    (hx : RefusesAs check x) :
    RefusesAs check (x.mapError (StoreError.during action model)) := by
  constructor
  · intro a h
    exact hx.of_ok a (mapError_eq_ok.mp h)
  · intro error h hrefusal
    rcases mapError_eq_error.mp h with ⟨inner, hinner, rfl⟩
    have hsame := isRefusal_during hrefusal
    rw [hsame] at hrefusal ⊢
    exact hx.of_refusal inner hinner hrefusal

end RefusesAs

/-! ## Steps that never refuse -/

namespace Storage

variable {model : Model} {name : String} {action : Action} {error : StoreError}

theorem not_isRefusal_of_prepare
    {quantified : Bool} {bindings : List (Except BindError Cell)}
    (h : prepare action name quantified bindings = .error error) :
    ¬ error.IsRefusal := by
  unfold prepare at h
  split at h
  · cases h
    exact not_isRefusal_failed _ _ _
  · split at h
    · rename_i bindError _
      cases h
      cases bindError with
      | refused => exact not_isRefusal_failed _ _ _
      | unsupported => exact not_isRefusal_failed _ _ _
      | outOfRange =>
          change ¬ StoreError.outOfRange.IsRefusal
          decide
    · cases h

theorem not_isRefusal_of_evaluated
    {β : Type} {answer : Option β}
    (h : evaluated action name answer = .error error) :
    ¬ error.IsRefusal := by
  cases answer with
  | none =>
      cases h
      exact not_isRefusal_failed _ _ _
  | some b => cases h

theorem not_isRefusal_of_checkBound
    {n : Option Int}
    (h : checkBound n = .error error) :
    ¬ error.IsRefusal := by
  rw [(Store.checkBound_eq_error h).1]
  decide

theorem not_isRefusal_of_loadRow
    {attributes : Option (List String)} {row : Row}
    (h : loadRow model attributes row = .error error) :
    ¬ error.IsRefusal := by
  rw [(loadRow_eq_error h).1]
  decide

end Storage

/-! ## Lists -/

namespace Store

theorem not_isRefusal_of_loadPair
    {store : Store} {target : Model} {attributes : Option (List String)} {pair : Row × Row}
    {error : StoreError}
    (h : store.loadPair target attributes pair = .error error) :
    ¬ error.IsRefusal := by
  unfold loadPair at h
  split at h
  · cases h
    decide
  · exact not_isRefusal_of_loadRow (map_eq_error.mp h)

theorem refusesAs_nest
    (store : Store) (db : Database) (action : Action) (inclusion : Inclusion) (shown : Shown) :
    RefusesAs (store.checkInclusion inclusion) (store.nest db action inclusion shown) := by
  unfold checkInclusion nest
  refine RefusesAs.step fun ⟨relation, target⟩ _ => RefusesAs.followed ?_ ?_
  · unfold relatedRows
    refine RefusesAs.step fun clause _ => RefusesAs.step fun _ _ => RefusesAs.step fun keys _ => ?_
    dsimp only
    split
    · exact RefusesAs.harmless fun error h => by cases h
    · refine RefusesAs.skip (fun _ => not_isRefusal_of_prepare) fun _ => ?_
      refine RefusesAs.skip (fun _ => not_isRefusal_of_evaluated) fun _ => ?_
      exact RefusesAs.harmless fun error h => by cases h
  · intro pairs error h
    rcases bind_eq_error.mp h with hloaded | ⟨_, _, h⟩
    · rcases exists_error_of_mapM hloaded with ⟨pair, _, hfails⟩
      exact not_isRefusal_of_loadPair hfails
    · cases h

/-- By induction on the inclusions; every one is reached, with the rows that those before it
leave. -/
theorem refusesAs_nestAll
    (store : Store) (db : Database) (action : Action) (inclusions : List Inclusion)
    (shown : Shown) :
    RefusesAs (forM inclusions store.checkInclusion)
      (store.nestAll db action inclusions shown) := by
  induction inclusions generalizing shown with
  | nil => exact RefusesAs.harmless fun error h => by cases h
  | cons inclusion rest ih =>
      exact RefusesAs.bind (store.refusesAs_nest db action inclusion shown)
        fun nested _ => ih nested

theorem refusesAs_list (store : Store) (db : Database) (query : Query) :
    RefusesAs (store.checkQuery query) (store.list db query) := by
  unfold checkQuery list
  refine RefusesAs.step fun selection _ => RefusesAs.step fun _ _ => RefusesAs.step fun keys _ => ?_
  refine RefusesAs.during (RefusesAs.skip (fun _ => not_isRefusal_of_prepare) fun _ => ?_)
  refine RefusesAs.skip (fun _ => not_isRefusal_of_evaluated) fun rows => ?_
  refine RefusesAs.skip (fun _ => not_isRefusal_of_checkBound) fun _ => ?_
  refine RefusesAs.skip (fun _ => not_isRefusal_of_checkBound) fun _ => ?_
  refine RefusesAs.followed ?_ fun _ error h => by cases h
  unfold showRows
  refine RefusesAs.skip (fun error h => ?_) fun loaded => ?_
  · rcases exists_error_of_mapM h with ⟨row, _, hfails⟩
    exact not_isRefusal_of_loadRow hfails
  · exact RefusesAs.followed (store.refusesAs_nestAll db .list _ _) fun _ error h => by cases h

/-- A list query that is refused on one database fails on every other one, with empty tables too,
and where it is refused there, it is with the same error. -/
theorem list_eq_error_of_refusal
    {store : Store} {db : Database} {query : Query} {error : StoreError}
    (h : store.list db query = .error error) (hrefusal : error.IsRefusal) (other : Database) :
    ∃ error', store.list other query = .error error' ∧ (error'.IsRefusal → error' = error) := by
  have hcheck := (store.refusesAs_list db query).of_refusal error h hrefusal
  have hother := store.refusesAs_list other query
  cases hlist : store.list other query with
  | ok listing =>
      have hpassed := hother.of_ok listing hlist
      rw [hcheck] at hpassed
      cases hpassed
  | error error' =>
      refine ⟨error', rfl, ?_⟩
      intro hrefusal'
      have hsame := hother.of_refusal error' hlist hrefusal'
      rw [hcheck] at hsame
      cases hsame
      rfl

end Store

namespace Sample

/-- Authors with their posts by a field that posts lack. -/
def queryByUnknownPost : Query where
  inclusions := some [{
    relation := "posts"
    model := some "Post"
    attributes := none
    filter := some (.condition ⟨"rating", .known .gt, .int 3⟩)
    order := none
    required := false }]

/-- The posts are asked for although no author is there whose posts they could be. -/
theorem list_eq_error_of_refusal_authors :
    let store := (resource authors).store
    store.list database queryByUnknownPost = .error (.unknownField "posts" "rating") ∧
      ∃ error, store.list .empty queryByUnknownPost = .error error ∧
        (error.IsRefusal → error = .unknownField "posts" "rating") := by
  have hlist : (resource authors).store.list database queryByUnknownPost =
      .error (.unknownField "posts" "rating") := by rfl
  exact ⟨hlist, Store.list_eq_error_of_refusal hlist (by decide) .empty⟩

end Sample
end RecordApi
