import RecordApi.Proofs.Query.Truth
import RecordApi.Proofs.Storage.Keeping
import RecordApi.Proofs.Storage.Nesting
import RecordApi.Proofs.Value.Same
import RecordApi.Sample.Rows

/-!
# Keys that are shown faithfully

Where a single column keeps the keys of a table, rows with different keys show different values,
and the values find their rows again.  So keys of every type are shown faithfully but for numbers
of fixed places that have other places.
-/

namespace RecordApi

open Steps Storage

theorem Value.sameAs_plain
    {t u : Timestamp}
    (ht : t.offset = none) (hu : u.offset = none) :
    (Value.timestamp t).sameAs (.timestamp u) = (t == u) := by
  unfold sameAs
  dsimp only
  rw [ht, hu]

namespace ColumnType.Keeps

variable {type : ColumnType} {a b : Cell} {v w : Value}

theorem toBinary64_zero (negative : Bool) (e : Int) :
    (Decimal.finite negative 0 e).toBinary64 = Binary64.zero negative := rfl

/-- A column of fixed places keeps numbers of these places, and compares them as binary numbers. -/
theorem of_numeric
    {precision scale : Nat}
    (h : (ColumnType.numeric precision scale).Keeps a v) :
    ∃ negative coefficient, v = .decimal (.finite negative coefficient (-(scale : Int))) ∧
      a.point? =
        (Cell.real (Decimal.finite negative coefficient (-(scale : Int))).toBinary64).point? := by
  cases h with
  | @places _ _ x exact_places finite =>
      cases x with
      | finite negative rank =>
          exact ⟨negative, _, rfl, congrArg (fun x => (Cell.real x).point?) exact_places.symm⟩
      | _ => cases finite
  | @wholePlaces _ _ n exact_places =>
      cases hx : Binary64.ofInt n with
      | finite negative rank =>
          rw [hx] at exact_places
          exact ⟨negative, _, rfl, (Cell.point?_of_toInt? exact_places).symm⟩
      | _ =>
          rw [hx] at exact_places
          cases exact_places

/-- A value that is kept is the same as itself. -/
theorem sameAs_self (htyped : type ≠ .untyped) (h : type.Keeps a v) : v.sameAs v = true := by
  cases h with
  | float finite =>
      rename_i x
      cases x with
      | finite negative rank => exact beq_self_eq_true _
      | _ => cases finite
  | places exact_places finite =>
      rename_i x
      cases x with
      | finite negative rank => exact beq_self_eq_true _
      | _ => cases finite
  | @wholePlaces _ _ n exact_places =>
      cases hx : Binary64.ofInt n with
      | finite negative rank => exact beq_self_eq_true _
      | _ =>
          rw [hx] at exact_places
          cases exact_places
  | @timestamp t plain =>
      rw [Value.sameAs_plain plain plain]
      exact beq_self_eq_true t
  | plainInt | plainFloat | plainText => exact absurd rfl htyped
  | _ => exact beq_self_eq_true _

/-- Decimals of one scale that are the same have one binary number. -/
theorem sameKey_of_numeric
    {precision scale : Nat}
    (hv : ColumnType.Keeps (.numeric precision scale) a v)
    (hw : ColumnType.Keeps (.numeric precision scale) b w) (h : v.sameAs w = true) :
    a.sameKey b = true := by
  rcases of_numeric hv with ⟨negative, coefficient, rfl, ha⟩
  rcases of_numeric hw with ⟨negative', coefficient', rfl, hb⟩
  rcases ExactNumber.eq_of_make_eq (beq_iff_eq.mp h) with ⟨rfl, hsign⟩
  rcases Cell.exists_point? (isUnplaced_real (Binary64.ofNumeral_ne_nan
    ⟨negative, coefficient, -(scale : Int)⟩)) with ⟨p, hp⟩
  have hpoint : a.point? = b.point? := by
    rw [ha, hb]
    rcases hsign with rfl | rfl
    · rw [toBinary64_zero, toBinary64_zero]
      cases negative <;> cases negative' <;> rfl
    · rfl
  exact (Cell.sameKey_iff _ _).mpr ⟨p, hpoint.symm.trans (ha.trans hp), ha.trans hp⟩

theorem sameKey_of_float
    {x y : Binary64}
    (hx : x.isFinite = true) (hy : y.isFinite = true)
    (h : (Value.float x).sameAs (.float y) = true) :
    (Cell.real x).sameKey (.real y) = true := by
  cases x with
  | finite negative rank =>
      cases y with
      | finite negative' rank' =>
          have hunits := ExactNumber.ofRank_inj (beq_iff_eq.mp h)
          exact (Cell.sameKey_iff _ _).mpr
            ⟨_, rfl, congrArg (fun n => some (Cell.Point.number n)) hunits⟩
      | _ => cases hy
  | _ => cases hx

/-- Values that are the same are kept as one key. -/
theorem sameKey_of_sameAs
    (htyped : type ≠ .untyped) (hv : type.Keeps a v) (hw : type.Keeps b w)
    (h : v.sameAs w = true) :
    a.sameKey b = true := by
  have hself {cell other : Cell} (hplaced : cell.isUnplaced = false) (heq : cell = other) :
      cell.sameKey other = true := by
    rcases Cell.exists_point? hplaced with ⟨p, hp⟩
    exact (Cell.sameKey_iff _ _).mpr ⟨p, heq ▸ hp, hp⟩
  cases type with
  | untyped => exact absurd rfl htyped
  | blob => cases hv
  | numeric precision scale => exact sameKey_of_numeric hv hw h
  | integer =>
      cases hv
      cases hw
      exact hself rfl (congrArg Cell.int (ExactNumber.ofInt_inj (beq_iff_eq.mp h)))
  | boolean =>
      cases hv
      cases hw
      exact hself rfl (congrArg Cell.int (ExactNumber.ofInt_inj (beq_iff_eq.mp h)))
  | float =>
      cases hv with
      | float finite =>
          cases hw with
          | float finite' => exact sameKey_of_float finite finite' h
  | varchar length =>
      cases hv
      cases hw
      exact hself rfl (congrArg Cell.text (beq_iff_eq.mp h))
  | enumeration names =>
      cases hv
      cases hw
      exact hself rfl (congrArg Cell.text (beq_iff_eq.mp h))
  | date =>
      cases hv
      cases hw
      exact hself rfl (congrArg (fun d : Date => Cell.text d.text) (beq_iff_eq.mp h))
  | uuid =>
      cases hv
      cases hw
      exact hself rfl (congrArg (fun u : Uuid => Cell.text u.compactText) (beq_iff_eq.mp h))
  | timestamp =>
      cases hv with
      | timestamp plain =>
          cases hw with
          | timestamp plain' =>
              rw [Value.sameAs_plain plain plain', beq_iff_eq] at h
              exact hself rfl (congrArg (fun t : Timestamp => Cell.text t.storedText) h)

/-- A value that is kept by a column with a type is bound by this type. -/
theorem operandType_of_keeps (htyped : type ≠ .untyped) (h : type.Keeps a v) :
    type.operandType v = type := by
  cases h with
  | plainInt | plainFloat | plainText => exact absurd rfl htyped
  | _ => rfl

/-- A value that is kept is compared as its cell, bound as it is stored. -/
theorem sameKey_boundCell (h : type.Keeps a v) :
    a.sameKey ((Test.boundCell type v).against type.affinity) = true := by
  let column : Column := { key := "", name := "", type }
  have hsame : a.sameKey (comparedCell column v) = true := Keeps.sameKey h
  have hcompared : comparedCell column v =
      (Test.boundCell type v).against type.affinity := by
    unfold comparedCell
    by_cases htyped : type = .untyped
    · subst htyped
      cases h <;> rfl
    · cases v with
      | bool b =>
          cases h
          cases b <;> rfl
      | _ =>
          exact congrArg (fun type' => (Test.boundCell type' _).against type.affinity)
            (operandType_of_keeps htyped h)
  rwa [hcompared] at hsame

theorem exists_bind (h : type.Keeps a v) : ∃ cell, Binding.bind type v = .ok cell := by
  have hsame := sameKey_boundCell h
  cases hbind : Binding.bind type v with
  | ok cell => exact ⟨cell, rfl⟩
  | error e =>
      have hnull : Test.boundCell type v = .null := by
        unfold Test.boundCell
        rw [hbind]
      rw [hnull] at hsame
      rcases (Cell.sameKey_iff _ _).mp hsame with ⟨_, hpoint, _⟩
      cases hpoint

end ColumnType.Keeps

/-! ## Tables -/

section

variable {model : Model} {rows : List Row} {column : Column}

/-- Where a single column keeps the keys of a table, the table is told apart by what it shows. -/
theorem Storage.tellsApart_of_keeps
    (hsingle : model.primaryKey.length = 1)
    (hcolumn : model.column? model.keyField = some column) (htyped : column.type ≠ .untyped)
    (hdistinct : rows.Pairwise fun a b => Row.sameKey model a b = false)
    (hkeeps : ∀ row ∈ rows, ∃ v, column.type.Keeps (row.cell model.keyField) v) :
    TellsApart model rows := by
  have hread : ∀ {row v}, column.type.Keeps (row.cell model.keyField) v →
      readKey? model row = some [v] := by
    intro row v hv
    apply Store.readKey?_of_single hsingle
    unfold readId?
    rw [hcolumn, Option.bind_some, Model.key_of_column? hcolumn, hv.read?]
  constructor
  · exact Row.nodup_of_distinct hdistinct
  · intro a ha b hb key key' hkey hkey'
    rcases hkeeps a ha with ⟨v, hv⟩
    rcases hkeeps b hb with ⟨w, hw⟩
    rw [hread hv] at hkey
    rw [hread hw] at hkey'
    cases hkey
    cases hkey'
    have hsame : Value.allSame [v] [w] = v.sameAs w := Bool.and_true _
    rw [hsame]
    constructor
    · intro h
      exact Row.eq_of_sameKey (model.primaryKey_of_single hsingle) hdistinct ha hb
        (ColumnType.Keeps.sameKey_of_sameAs htyped hv hw h)
    · rintro rfl
      have heq := hv.read?.symm.trans hw.read?
      cases heq
      exact hv.sameAs_self htyped

end

namespace Store

variable {store : Store} {db : Database} {column : Column}

theorem readId?_of_keeps
    {row : Row} {v : Value}
    (hcolumn : store.model.column? store.model.keyField = some column)
    (hv : column.type.Keeps (row.cell store.model.keyField) v) :
    readId? store.model row = some v := by
  unfold readId?
  rw [hcolumn, Option.bind_some, Model.key_of_column? hcolumn, hv.read?]

/-- A row is found by a list of keys where its own key is compared as one of them. -/
theorem mem_owners_iff_exists
    {ids : List Value} {owner : Row}
    (hcolumn : store.model.column? store.model.keyField = some column)
    (howner : owner ∈ db.rows store.model) :
    owner ∈ store.owners db ids ↔
      ∃ id ∈ ids, (owner.cell store.model.keyField).sameKey
        ((Test.boundCell (column.type.operandType (ids.headD .null)) id).against
          column.type.affinity) = true := by
  have htest : store.keyTest? ids = some (column, .among false ids) := by
    unfold keyTest?
    rw [hcolumn]
    rfl
  unfold owners
  rw [htest, List.mem_filter]
  simp only [howner, true_and]
  change (some (Combinator.or.truth ((ids.map _).map _)) == some Truth.yes) = true ↔ _
  rw [beq_iff_eq, Option.some.injEq]
  change Combinator.or.truth _ = Combinator.or.deciding ↔ _
  rw [Combinator.truth_eq_deciding_iff, List.map_map, List.mem_map]
  refine exists_congr fun id => and_congr_right fun _ => ?_
  rw [← Model.key_of_column? hcolumn, ← truth_eq_yes, beq_iff_eq]
  rfl

/-- Where a single column keeps the keys of a table, the table is asked for the rows that show
them. -/
theorem recalls_of_keeps
    (hsingle : store.model.primaryKey.length = 1)
    (hcolumn : store.model.column? store.model.keyField = some column)
    (htyped : column.type ≠ .untyped) (hdistinct : store.KeysDistinct db)
    (hkeeps : ∀ row ∈ db.rows store.model,
      ∃ v, column.type.Keeps (row.cell store.model.keyField) v) :
    store.Recalls db := by
  have hapart := tellsApart_of_keeps hsingle hcolumn htyped hdistinct hkeeps
  have htype : ∀ parents ⊆ db.rows store.model, parents ≠ [] →
      column.type.operandType ((parents.map store.shownId).headD .null) = column.type := by
    intro parents hparents hsome
    cases parents with
    | nil => exact absurd rfl hsome
    | cons first rest =>
        rcases hkeeps first (hparents List.mem_cons_self) with ⟨v, hv⟩
        rw [List.map_cons, List.headD_cons, shownId_of_readId? (readId?_of_keeps hcolumn hv)]
        exact ColumnType.Keeps.operandType_of_keeps htyped hv
  constructor
  · refine ⟨?_, column, hcolumn⟩
    unfold Model.inKey
    rw [Model.primaryKey_of_single hsingle]
    exact List.elem_cons_self
  · intro parents hparents _ binding hbinding
    unfold keyBindings keyTest? at hbinding
    rw [hcolumn] at hbinding
    rcases List.mem_map.mp hbinding with ⟨id, hid, rfl⟩
    rcases List.mem_map.mp hid with ⟨parent, hparent, rfl⟩
    rcases hkeeps parent (hparents hparent) with ⟨v, hv⟩
    rw [htype parents hparents (List.ne_nil_of_mem hparent),
      shownId_of_readId? (readId?_of_keeps hcolumn hv)]
    exact hv.exists_bind
  · intro parents hparents _ owner howner
    rw [mem_owners_iff_exists hcolumn howner]
    simp only [List.mem_map, exists_exists_and_eq_and]
    refine exists_congr fun parent => and_congr_right fun hparent => ?_
    rcases hkeeps parent (hparents hparent) with ⟨v, hv⟩
    have hid := readId?_of_keeps hcolumn hv
    rw [htype parents hparents (List.ne_nil_of_mem hparent), shownId_of_readId? hid,
      isKin_iff_eq hsingle hapart (hparents hparent) howner hid,
      ← Cell.sameKey_congr hv.sameKey_boundCell]
    constructor
    · exact Row.eq_of_sameKey (store.model.primaryKey_of_single hsingle) hdistinct howner
        (hparents hparent)
    · rintro rfl
      have hbound := hv.sameKey_boundCell
      exact Cell.sameKey_trans hbound (Cell.sameKey_symm hbound)

/-- Where the keys of all tables of a schema tell their rows apart, and the store recalls its own,
keys are shown faithfully whatever is included. -/
theorem faithful_of_schema
    (hown : store.schema.model? store.model.name = some store.model)
    (hapart : ∀ model ∈ store.schema.models, TellsApart model (db.rows model))
    (hrecalls : store.Recalls db) (inclusions : List Inclusion) :
    store.Faithful db inclusions where
  apart := hapart _ (List.mem_of_find?_eq_some hown)
  recalls := fun _ => hrecalls
  related := by
    intro inclusion _ relation target hrelation
    have htarget : store.schema.model? relation.target = some target := by
      unfold Store.relation at hrelation
      dsimp only at hrelation
      split at hrelation
      · cases hrelation
      · split at hrelation
        · cases hrelation
          assumption
        · cases hrelation
    refine ⟨hapart target (List.mem_of_find?_eq_some htarget), ?_⟩
    intro hsame
    rw [hsame, hown] at htarget
    exact (Option.some.inj htarget).symm

end Store

namespace Sample

def hasWord (row : Row) : Bool :=
  match row.cell "id" with
  | .int n => fitsWord n
  | _ => false

/-- The rows of a table have different words as their keys. -/
structure HasWords (model : Model) (rows : List Row) : Prop where
  key : model.primaryKey = ["id"]
  column : model.column? "id" = some identity
  distinct : rows.Pairwise fun a b => Row.sameKey model a b = false
  words : ∀ row ∈ rows, hasWord row = true

namespace HasWords

variable {model : Model} {rows : List Row}

theorem keyField_eq (h : HasWords model rows) : model.keyField = "id" := by
  unfold Model.keyField
  rw [h.key]
  rfl

theorem single (h : HasWords model rows) : model.primaryKey.length = 1 := by
  rw [h.key]
  rfl

theorem keyColumn (h : HasWords model rows) : model.column? model.keyField = some identity := by
  rw [h.keyField_eq]
  exact h.column

theorem keeps (h : HasWords model rows) :
    ∀ row ∈ rows, ∃ v, identity.type.Keeps (row.cell model.keyField) v := by
  intro row hrow
  have hword := h.words row hrow
  unfold hasWord at hword
  rw [h.keyField_eq]
  split at hword
  · rename_i n hcell
    rw [hcell]
    exact ⟨.int n, .int hword⟩
  · cases hword

theorem tellsApart (h : HasWords model rows) : TellsApart model rows :=
  tellsApart_of_keeps h.single h.keyColumn ColumnType.noConfusion h.distinct h.keeps

theorem recalls
    {store : Store} {db : Database} (h : HasWords store.model (db.rows store.model)) :
    store.Recalls db :=
  Store.recalls_of_keeps h.single h.keyColumn ColumnType.noConfusion h.distinct h.keeps

end HasWords

theorem hasWords_tables {model : Model} (hmodel : model ∈ schema.models)
    (hkey : model.primaryKey = ["id"]) :
    HasWords model (database.rows model) := by
  have hrows : ∀ model ∈ schema.models, model.primaryKey = ["id"] →
      ((database.rows model).Pairwise fun a b => Row.sameKey model a b = false) ∧
        ∀ row ∈ database.rows model, hasWord row = true := by
    decide
  have hcolumn : model.column? "id" = some identity := by
    simp only [schema, List.mem_cons, List.not_mem_nil, or_false] at hmodel
    rcases hmodel with rfl | rfl | rfl | rfl | rfl | rfl | rfl | rfl | rfl
    all_goals first | rfl | exact absurd hkey (by decide)
  rcases hrows model hmodel hkey with ⟨hdistinct, hwords⟩
  exact ⟨hkey, hcolumn, hdistinct, hwords⟩

theorem tellsApart_tables :
    ∀ model ∈ schema.models, TellsApart model (database.rows model) := by
  have hothers : ∀ model ∈ schema.models, model.primaryKey ≠ ["id"] →
      TellsApart model (database.rows model) := by
    decide
  intro model hmodel
  by_cases hkey : model.primaryKey = ["id"]
  · exact (hasWords_tables hmodel hkey).tellsApart
  · exact hothers model hmodel hkey

/-- A store of the sample whose rows have words as their keys shows keys faithfully. -/
theorem faithful_of_words
    {store : Store}
    (hschema : store.schema = schema) (hown : schema.model? store.model.name = some store.model)
    (hkey : store.model.primaryKey = ["id"]) (inclusions : List Inclusion) :
    store.Faithful database inclusions :=
  Store.faithful_of_schema (hschema ▸ hown) (hschema ▸ tellsApart_tables)
    (hasWords_tables (List.mem_of_find?_eq_some hown) hkey).recalls inclusions

end Sample
end RecordApi
