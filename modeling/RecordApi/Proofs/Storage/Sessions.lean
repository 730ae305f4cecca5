import RecordApi.Proofs.Storage.Showing

/-!
# Entities that stand for rows

Where the keys that entities show tell the rows of a table apart, an entity of a session stands for
one row only.  What it was filled with is then what the same row holds, so a row shows what was
loaded for it, whatever else the session holds.
-/

namespace RecordApi

open Steps Storage

/-- The keys that entities show tell the rows of a table apart: no row stands there twice, and
only of one and the same row do two keys read as the same. -/
structure Storage.TellsApart (model : Model) (rows : List Row) : Prop where
  nodup : rows.Nodup
  alike_iff : ∀ a ∈ rows, ∀ b ∈ rows, ∀ key key',
    readKey? model a = some key → readKey? model b = some key' →
      (Value.allSame key key' = true ↔ a = b)

/-- What two rows have to do with each other where their keys tell them apart. -/
def Storage.keysAgree (model : Model) (a b : Row) : Bool :=
  match readKey? model a, readKey? model b with
  | some key, some key' => decide (Value.allSame key key' = true ↔ a = b)
  | _, _ => true

theorem Storage.tellsApart_iff {model : Model} {rows : List Row} :
    TellsApart model rows ↔
      rows.Nodup ∧ ∀ a ∈ rows, ∀ b ∈ rows, keysAgree model a b = true := by
  have hagree : ∀ a b, keysAgree model a b = true ↔ ∀ key key',
      readKey? model a = some key → readKey? model b = some key' →
        (Value.allSame key key' = true ↔ a = b) := by
    intro a b
    unfold keysAgree
    cases readKey? model a with
    | none => simp
    | some key =>
        cases readKey? model b with
        | none => simp
        | some key' =>
            rw [decide_eq_true_eq]
            constructor
            · rintro h _ _ ⟨⟩ ⟨⟩
              exact h
            · exact fun h => h key key' rfl rfl
  simp only [hagree]
  exact ⟨fun h => ⟨h.nodup, h.alike_iff⟩, fun h => ⟨h.1, h.2⟩⟩

instance (model : Model) (rows : List Row) : Decidable (TellsApart model rows) :=
  decidable_of_iff' _ tellsApart_iff

/-! ## Entities -/

namespace Entity

/-- An entity has the key of a row and some of its columns, as they read. -/
structure Reads (model : Model) (row : Row) (entity : Entity) : Prop where
  key : readKey? model row = some entity.key
  loaded : ∀ field v, Assoc.get? entity.loaded field = some v →
    ∃ column, model.column? field = some column ∧
      Binding.read? column.type (row.cell field) = some v

/-- What one entity has loaded, another one has too. -/
def Covers (held entity : Entity) : Prop :=
  ∀ field, (Assoc.get? entity.loaded field).isSome = true →
    (Assoc.get? held.loaded field).isSome = true

variable {model : Model} {rows : List Row} {row : Row} {held entity other : Entity}

theorem get?_fill (held other : Entity) (field : String) :
    Assoc.get? (held.fill other).loaded field =
      (Assoc.get? held.loaded field).or (Assoc.get? other.loaded field) := by
  have hlacks : ∀ entries : Assoc Value, Assoc.get? held.loaded field = none →
      entries.find? (fun pair => decide ((Assoc.get? held.loaded pair.1).isNone = true ∧
        (pair.1 == field) = true)) = entries.find? fun pair => pair.1 == field := by
    intro entries hnone
    congr 1
    funext pair
    by_cases hkey : pair.1 = field
    · simp [hkey, hnone]
    · simp [hkey]
  unfold fill
  dsimp only
  rw [Assoc.get?, List.find?_append, List.find?_filter]
  cases hheld : Assoc.get? held.loaded field with
  | some v =>
      unfold Assoc.get? at hheld
      rcases Option.map_eq_some_iff.mp hheld with ⟨pair, hpair, rfl⟩
      rw [hpair]
      rfl
  | none =>
      rw [hlacks _ hheld]
      unfold Assoc.get? at hheld
      rw [Option.map_eq_none_iff] at hheld
      rw [hheld]
      rfl

theorem covers_fill_of_covers (h : held.Covers entity) (other : Entity) :
    (held.fill other).Covers entity := by
  intro field hfield
  rw [get?_fill, Option.isSome_or, h field hfield, Bool.true_or]

theorem covers_fill (held entity : Entity) : (held.fill entity).Covers entity := by
  intro field hfield
  rw [get?_fill, Option.isSome_or, hfield, Bool.or_true]

theorem covers_self (entity : Entity) : entity.Covers entity :=
  fun _ hfield => hfield

theorem reads_fill
    (hheld : held.Reads model row) (hother : other.Reads model row) :
    (held.fill other).Reads model row where
  key := hheld.key
  loaded := by
    intro field v hget
    rw [get?_fill, Option.or_eq_some_iff] at hget
    rcases hget with hown | ⟨_, htaken⟩
    · exact hheld.loaded field v hown
    · exact hother.loaded field v htaken

/-- An entity that was loaded of a row reads the row. -/
theorem reads_of_loadRow
    {attributes : Option (List String)}
    (hload : loadRow model attributes row = .ok entity) :
    entity.Reads model row := by
  rcases loadRow_eq_ok.mp hload with ⟨loaded, hloaded, rfl⟩
  constructor
  · have hkey : ∀ column ∈ keyColumns model,
        ∃ v, Binding.read? column.type (row.cell column.key) = some v := by
      intro column hcolumn
      rcases List.mem_filterMap.mp hcolumn with ⟨field, hfield, hfound⟩
      have hin : model.inKey field = true := List.contains_iff_mem.mpr hfield
      rcases get?_of_loadRow hload hfound (Or.inl hin) with ⟨v, hv, _⟩
      rw [Model.key_of_column? hfound]
      exact ⟨v, hv⟩
    rcases exists_mapM_some hkey with ⟨key, hread⟩
    change readKey? model row = some ((readKey? model row).getD [])
    rw [show readKey? model row = some key from hread]
    rfl
  · intro field v hget
    rcases exists_column_of_read row hloaded hget with ⟨column, hmem, rfl⟩
    rcases List.mem_filter.mp hmem with ⟨hcolumn, hchosen⟩
    rw [Bool.or_eq_true, List.contains_iff_mem] at hchosen
    have hfound : (model.column? column.key).isSome = true := by
      unfold Model.column?
      rw [List.find?_isSome]
      exact ⟨column, hcolumn, beq_self_eq_true column.key⟩
    rcases Option.isSome_iff_exists.mp hfound with ⟨own, hown⟩
    rcases get?_of_loadRow hload hown hchosen with ⟨w, hread, hloaded'⟩
    rw [hget] at hloaded'
    cases hloaded'
    exact ⟨own, hown, hread⟩

/-- What an entity has loaded was read from some rows. -/
def IsRead (model : Model) (rows : List Row) (entity : Entity) : Prop :=
  ∀ field v, Assoc.get? entity.loaded field = some v →
    ∃ row ∈ rows, ∃ column, model.column? field = some column ∧
      Binding.read? column.type (row.cell field) = some v

theorem isRead_of_reads
    (hrow : row ∈ rows) (h : entity.Reads model row) :
    entity.IsRead model rows := by
  intro field v hget
  rcases h.loaded field v hget with ⟨column, hcolumn, hread⟩
  exact ⟨row, hrow, column, hcolumn, hread⟩

theorem isRead_fill
    (hheld : held.IsRead model rows) (hother : other.IsRead model rows) :
    (held.fill other).IsRead model rows := by
  intro field v hget
  rw [get?_fill, Option.or_eq_some_iff] at hget
  rcases hget with hown | ⟨_, htaken⟩
  · exact hheld field v hown
  · exact hother field v htaken

/-- Two entities of one row have the same under a field that the one has loaded. -/
theorem value_of_covers
    {field : String}
    (hheld : held.Reads model row) (hentity : entity.Reads model row)
    (hcovers : held.Covers entity)
    (hfield : Assoc.get? entity.loaded field = none → model.column? field = none) :
    held.value field = entity.value field := by
  unfold value
  cases hentity' : Assoc.get? entity.loaded field with
  | none =>
      cases hheld' : Assoc.get? held.loaded field with
      | none => rfl
      | some v =>
          rcases hheld.loaded field v hheld' with ⟨column, hcolumn, _⟩
          rw [hfield hentity'] at hcolumn
          cases hcolumn
  | some v =>
      have hloaded := hcovers field (by rw [hentity']; rfl)
      rcases Option.isSome_iff_exists.mp hloaded with ⟨w, hw⟩
      rcases hentity.loaded field v hentity' with ⟨column, hcolumn, hv⟩
      rcases hheld.loaded field w hw with ⟨column', hcolumn', hw'⟩
      rw [hcolumn] at hcolumn'
      cases hcolumn'
      rw [hv] at hw'
      rw [hw, hw']

end Entity

/-! ## Sessions -/

namespace Session

open Entity

variable {model : Model} {rows : List Row} {row : Row} {session : Session} {entity other : Entity}

/-- Every entity that is held reads some row. -/
def ReadsFrom (model : Model) (rows : List Row) (session : Session) : Prop :=
  ∀ held ∈ session, ∃ row ∈ rows, held.Reads model row

/-- An entity is found, with all that it has loaded. -/
def Covers (session : Session) (entity : Entity) : Prop :=
  ∃ held, session.find? (·.isSame entity) = some held ∧ held.Covers entity

theorem eq_of_isSame
    (hapart : TellsApart model rows) {a b : Row} (ha : a ∈ rows) (hb : b ∈ rows)
    (hentity : entity.Reads model a) (hother : other.Reads model b)
    (hsame : entity.isSame other = true) :
    a = b :=
  (hapart.alike_iff a ha b hb _ _ hentity.key hother.key).mp hsame

theorem isSame_self
    (hapart : TellsApart model rows) (hrow : row ∈ rows) (hentity : entity.Reads model row) :
    entity.isSame entity = true :=
  (hapart.alike_iff row hrow row hrow _ _ hentity.key hentity.key).mpr rfl

theorem find?_cons_of_isSame {rest : Session} (h : other.isSame entity = true) :
    List.find? (·.isSame entity) (other :: rest) = some other :=
  List.find?_cons_of_pos (p := fun held : Entity => held.isSame entity) h

theorem find?_cons_of_not_isSame {rest : Session} (h : ¬ other.isSame entity = true) :
    List.find? (·.isSame entity) (other :: rest) = rest.find? (·.isSame entity) :=
  List.find?_cons_of_neg (p := fun held : Entity => held.isSame entity) h

/-! ### One entity more -/

theorem readsFrom_hold
    (hapart : TellsApart model rows) (hsession : session.ReadsFrom model rows)
    (hrow : row ∈ rows) (hentity : entity.Reads model row) :
    (session.hold entity).ReadsFrom model rows := by
  unfold ReadsFrom at *
  induction session with
  | nil =>
      intro held hheld
      cases List.mem_singleton.mp hheld
      exact ⟨row, hrow, hentity⟩
  | cons first rest ih =>
      rw [List.forall_mem_cons] at hsession
      rcases hsession with ⟨⟨own, hown, hfirst⟩, hrest⟩
      unfold hold
      split
      · rename_i hsame
        have heq := eq_of_isSame hapart hown hrow hfirst hentity hsame
        rw [List.forall_mem_cons]
        exact ⟨⟨own, hown, reads_fill hfirst (heq ▸ hentity)⟩, hrest⟩
      · rw [List.forall_mem_cons]
        exact ⟨⟨own, hown, hfirst⟩, ih hrest⟩

theorem covers_hold_self
    (session : Session) (hself : entity.isSame entity = true) :
    (session.hold entity).Covers entity := by
  induction session with
  | nil =>
      refine ⟨entity, ?_, covers_self entity⟩
      exact find?_cons_of_isSame hself
  | cons first rest ih =>
      unfold hold
      split
      · rename_i hsame
        exact ⟨first.fill entity, find?_cons_of_isSame hsame, covers_fill first entity⟩
      · rename_i hother
        rcases ih with ⟨held, hfound, hcovers⟩
        refine ⟨held, ?_, hcovers⟩
        rw [find?_cons_of_not_isSame hother]
        exact hfound

/-- What is found stays in its place, and only gains fields. -/
theorem covers_hold (h : session.Covers entity) (other : Entity) :
    (session.hold other).Covers entity := by
  induction session with
  | nil =>
      rcases h with ⟨_, hfound, _⟩
      cases hfound
  | cons first rest ih =>
      rcases h with ⟨held, hfound, hcovers⟩
      unfold hold
      cases hfirst : first.isSame entity with
      | true =>
          rw [find?_cons_of_isSame hfirst] at hfound
          cases hfound
          split
          · exact ⟨_, find?_cons_of_isSame hfirst, covers_fill_of_covers hcovers other⟩
          · exact ⟨_, find?_cons_of_isSame hfirst, hcovers⟩
      | false =>
          have hskip := Bool.eq_false_iff.mp hfirst
          rw [find?_cons_of_not_isSame hskip] at hfound
          split
          · have hfilled : ¬ (first.fill other).isSame entity = true := hskip
            exact ⟨held, (find?_cons_of_not_isSame hfilled).trans hfound, hcovers⟩
          · rcases ih ⟨held, hfound, hcovers⟩ with ⟨later, hlater, hmore⟩
            exact ⟨later, (find?_cons_of_not_isSame hskip).trans hlater, hmore⟩

/-! ### Many entities -/

theorem covers_holdAll (h : session.Covers entity) (entities : List Entity) :
    (session.holdAll entities).Covers entity := by
  unfold holdAll
  induction entities generalizing session with
  | nil => exact h
  | cons first rest ih => exact ih (covers_hold h first)

/-- Entities of rows are held as entities of rows, and each of them is found afterwards. -/
theorem holdAll_spec
    (hapart : TellsApart model rows) (hsession : session.ReadsFrom model rows)
    {entities : List Entity} (hentities : ReadsFrom model rows entities) :
    (session.holdAll entities).ReadsFrom model rows ∧
      ∀ entity ∈ entities, (session.holdAll entities).Covers entity := by
  unfold ReadsFrom at hentities
  induction entities generalizing session with
  | nil => exact ⟨hsession, fun _ hmem => absurd hmem List.not_mem_nil⟩
  | cons first rest ih =>
      rw [List.forall_mem_cons] at hentities
      rcases hentities with ⟨⟨row, hrow, hfirst⟩, hrest⟩
      have hself := isSame_self hapart hrow hfirst
      rcases ih (readsFrom_hold hapart hsession hrow hfirst) hrest with ⟨hreads, hcovers⟩
      refine ⟨hreads, ?_⟩
      rw [List.forall_mem_cons]
      exact ⟨covers_holdAll (covers_hold_self session hself) rest, hcovers⟩

/-! ### What was read

Whatever keys read as, an entity shows only what was read from the rows that were loaded. -/

/-- All that is held was read from some rows. -/
theorem isRead_hold
    (hsession : ∀ held ∈ session, held.IsRead model rows) (hentity : entity.IsRead model rows) :
    ∀ held ∈ session.hold entity, held.IsRead model rows := by
  induction session with
  | nil =>
      intro held hheld
      cases List.mem_singleton.mp hheld
      exact hentity
  | cons first rest ih =>
      rw [List.forall_mem_cons] at hsession
      unfold hold
      split
      · exact List.forall_mem_cons.mpr ⟨isRead_fill hsession.1 hentity, hsession.2⟩
      · exact List.forall_mem_cons.mpr ⟨hsession.1, ih hsession.2⟩

theorem isRead_holdAll
    {entities : List Entity}
    (hsession : ∀ held ∈ session, held.IsRead model rows)
    (hentities : ∀ entity ∈ entities, entity.IsRead model rows) :
    ∀ held ∈ session.holdAll entities, held.IsRead model rows := by
  unfold holdAll
  induction entities generalizing session with
  | nil => exact hsession
  | cons first rest ih =>
      rw [List.forall_mem_cons] at hentities
      exact ih (isRead_hold hsession hentities.1) hentities.2

theorem isRead_entity
    (hsession : ∀ held ∈ session, held.IsRead model rows) (hentity : entity.IsRead model rows) :
    (session.entity entity).IsRead model rows := by
  unfold Session.entity
  cases hfound : session.find? (·.isSame entity) with
  | none => exact hentity
  | some held => exact hsession held (List.mem_of_find?_eq_some hfound)

/-! ### What is shown -/

/-- A row that was loaded shows what its own entity has, whatever else is held. -/
theorem value_entity
    {attributes : Option (List String)} {field : String}
    (hapart : TellsApart model rows) (hsession : session.ReadsFrom model rows)
    (hcovers : session.Covers entity) (hrow : row ∈ rows)
    (hload : loadRow model attributes row = .ok entity)
    (hfield : model.inKey field = true ∨ field ∈ shownFields model attributes) :
    (session.entity entity).value field = entity.value field := by
  rcases hcovers with ⟨held, hfound, hcovers⟩
  rcases hsession held (List.mem_of_find?_eq_some hfound) with ⟨own, hown, hheld⟩
  have hreads := reads_of_loadRow hload
  have heq := eq_of_isSame hapart hown hrow hheld hreads
    (List.find?_some (p := fun held : Entity => held.isSame entity) hfound)
  have hentity : session.entity entity = held := by
    unfold Session.entity
    rw [hfound]
    rfl
  rw [hentity]
  refine value_of_covers (heq ▸ hheld) hreads hcovers ?_
  intro hnone
  by_contra hsome
  rcases Option.ne_none_iff_exists'.mp hsome with ⟨column, hcolumn⟩
  rcases get?_of_loadRow hload hcolumn hfield with ⟨v, _, hget⟩
  rw [hnone] at hget
  cases hget

theorem project_entity
    {attributes : Option (List String)}
    (hapart : TellsApart model rows) (hsession : session.ReadsFrom model rows)
    (hcovers : session.Covers entity) (hrow : row ∈ rows)
    (hload : loadRow model attributes row = .ok entity) :
    (session.entity entity).project (shownFields model attributes) =
      entity.project (shownFields model attributes) := by
  unfold project
  congr 1
  apply List.map_congr_left
  intro field hfield
  rw [value_entity hapart hsession hcovers hrow hload (Or.inr hfield)]

end Session
end RecordApi
