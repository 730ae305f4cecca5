import RecordApi.Proofs.Storage.Keeping
import RecordApi.Proofs.Storage.Requiring
import RecordApi.Proofs.Storage.Selecting

/-!
# Looking a listed row up

A row of a list is found again by its key, under the projection and the inclusions of the list,
and shows the same.  Without a slice, looking the query of a list up gives its first row.
-/

namespace RecordApi

open Steps Storage

namespace Selection

variable {db : Database} {model : Model} {row : Row} {selection : Selection Value}

theorem simplified_test (column : Column) (test : Test Value) (required : List (Existence Value)) :
    simplified ⟨some (.test column test), required⟩ =
      ⟨some (.test column test),
        required.map fun e => { e with clause := e.clause.simplified }⟩ := rfl

/-- The demands of a selection are bound, and can be asked of the database. -/
def IsDemanding (selection : Selection Value) : Prop :=
  ∀ e ∈ selection.required, e.clause.simplified.hasQuantifier = false ∧
    ∀ binding ∈ e.clause.simplified.bindings, ∃ cell, binding = .ok cell

/-- A selection that selects a row keeps its demands when it is simplified. -/
theorem required_simplified
    (h : selection.simplified.bound.selects? db model row = some true) :
    selection.simplified.required =
      selection.required.map fun e => { e with clause := e.clause.simplified } := by
  rcases selection with ⟨clause?, required⟩
  cases clause? with
  | none => rfl
  | some clause =>
      unfold simplified at h ⊢
      dsimp only [Option.map_some] at h ⊢
      split at h
      · rename_i hnever
        rw [Clause.eq_of_isNever hnever] at h
        cases h
      · rename_i hnever
        rw [if_neg hnever]
        split <;> rfl

theorem isDemanding_of_prepared
    (hselects : selection.simplified.bound.selects? db model row = some true)
    (hquantifier : selection.simplified.hasQuantifier = false)
    (hbindings : Binding.firstError? selection.simplified.bindings = none) :
    selection.IsDemanding := by
  have hrequired := required_simplified hselects
  unfold hasQuantifier at hquantifier
  rw [Bool.or_eq_false_iff, hrequired, List.any_eq_false] at hquantifier
  rw [Binding.firstError?_eq_none_iff] at hbindings
  intro e he
  constructor
  · have hone := hquantifier.2 _ (List.mem_map_of_mem he)
    simpa using hone
  · intro binding hbinding
    apply hbindings
    unfold bindings
    rw [hrequired, List.mem_append, List.mem_flatMap]
    exact Or.inr ⟨_, List.mem_map_of_mem he, hbinding⟩

/-- A test stands beside demands as it stands alone. -/
theorem prepared_test
    {column : Column} {test : Test Value}
    (hquantified : test.isQuantified = false)
    (hbindings : ∀ binding ∈ test.bindings column, ∃ cell, binding = .ok cell)
    (hdemands : selection.IsDemanding) :
    (simplified ⟨some (.test column test), selection.required⟩).hasQuantifier = false ∧
      Binding.firstError?
        (simplified ⟨some (.test column test), selection.required⟩).bindings = none := by
  rw [simplified_test, Binding.firstError?_eq_none_iff]
  constructor
  · unfold hasQuantifier
    rw [Bool.or_eq_false_iff, List.any_eq_false, List.forall_mem_map]
    refine ⟨hquantified, ?_⟩
    intro e he
    rw [(hdemands e he).1]
    exact Bool.false_ne_true
  · intro binding hbinding
    unfold bindings at hbinding
    rcases List.mem_append.mp hbinding with htest | hdemand
    · exact hbindings binding htest
    · rw [List.flatMap_map] at hdemand
      rcases List.mem_flatMap.mp hdemand with ⟨e, he, hmem⟩
      exact (hdemands e he).2 binding hmem

theorem allRequired?_of_selects
    (h : selection.simplified.bound.selects? db model row = some true) :
    allRequired? db model row (selection.required.map Existence.prepared) = some true := by
  rw [selects?_simplified] at h
  split at h
  · exact h
  · rename_i hother
    exact absurd h hother

end Selection

/-! ## The query for a listed row -/

/-- The query for the row of a key, with the projection and the inclusions of another query. -/
def Query.lookup (query : Query) (field : String) (key : Value) : Query where
  filter := some (.condition (Predicate.equals field key))
  attributes := query.attributes
  inclusions := query.inclusions

namespace Store

variable {store : Store} {db : Database} {query : Query} {selection : Selection Value}
  {row : Row} {key : Value}

/-- A value is the key of a row: taken as an operand, it is compared as the cell of the row. -/
def Identifies (store : Store) (key : Value) (row : Row) : Prop :=
  ∃ column operand, store.model.column? store.model.keyField = some column ∧
    Clause.coerce column key = .ok operand ∧
    (row.cell store.model.keyField).sameKey (comparedCell column operand) = true

theorem sameKey_null (cell : Cell) : cell.sameKey .null = false := by
  cases cell with
  | real x => cases x <;> rfl
  | _ => rfl

theorem comparedCell_null (column : Column) : comparedCell column .null = .null := rfl

/-- An operand that is compared as some key is bound without an error. -/
theorem bind_of_sameKey
    {column : Column} {operand : Value} {test : Test Value} {cell : Cell}
    (hkey : cell.sameKey (comparedCell column operand) = true)
    (htest : Clause.comparisonTest .eq operand = .ok test) :
    ∀ binding ∈ test.bindings column, ∃ bound, binding = .ok bound := by
  have hbound : Test.boundCell (column.type.operandType operand) operand ≠ .null →
      ∃ bound, Binding.bind (column.type.operandType operand) operand = .ok bound := by
    intro hcell
    unfold Test.boundCell at hcell
    split at hcell
    · exact ⟨_, ‹_›⟩
    · exact absurd rfl hcell
  have hne : Cell.against column.type.affinity
      (Test.boundCell (column.type.operandType operand) operand) ≠ .null →
      Test.boundCell (column.type.operandType operand) operand ≠ .null := by
    intro hcell hnull
    rw [hnull] at hcell
    exact hcell rfl
  have hcompared : comparedCell column operand ≠ .null := by
    intro hnull
    rw [hnull, sameKey_null] at hkey
    cases hkey
  intro binding hbinding
  cases operand with
  | null => exact absurd rfl hcompared
  | bool b =>
      cases htest
      cases hbinding
  | _ =>
      cases htest
      rw [Test.bindings, List.mem_singleton] at hbinding
      rw [hbinding]
      exact hbound (hne hcompared)

/-- Looking a key up asks for the key and for what the query demands, in this order. -/
theorem ofQuery_lookup
    (hrendered : Selection.ofQuery store query = .ok selection)
    (hkey : store.Identifies key row) :
    ∃ column operand test, store.model.column? store.model.keyField = some column ∧
      (row.cell store.model.keyField).sameKey (comparedCell column operand) = true ∧
      (∀ binding ∈ test.bindings column, ∃ cell, binding = .ok cell) ∧ test.isQuantified = false ∧
      Selection.ofQuery store (query.lookup store.model.keyField key) =
        .ok ⟨some (.test column test), selection.required⟩ ∧
      ∀ other, (Selection.simplified ⟨some (.test column test), []⟩).bound.selects? db store.model
        other = some ((other.cell store.model.keyField).sameKey (comparedCell column operand)) := by
  rcases hkey with ⟨column, operand, hcolumn, hcoerce, hsame⟩
  have hoperand : operand ≠ .null := by
    intro hnull
    rw [hnull, comparedCell_null, sameKey_null] at hsame
    cases hsame
  have hkey : key ≠ .null := by
    intro hnull
    rw [hnull] at hcoerce
    cases hcoerce
    exact hoperand rfl
  have htest : ∃ test, Clause.comparisonTest .eq operand = .ok test ∧
      test.isQuantified = false := by
    cases operand with
    | null => exact absurd rfl hoperand
    | _ => exact ⟨_, rfl, rfl⟩
  rcases htest with ⟨test, htest, hquantified⟩
  have hclause : Clause.ofPredicate store.model store.name
      (.condition (Predicate.equals store.model.keyField key)) = .ok (.test column test) := by
    have hfound : Clause.column store.model store.name store.model.keyField = .ok column := by
      unfold Clause.column
      rw [hcolumn]
    refine bind_eq_ok.mpr ⟨column, hfound, bind_eq_ok.mpr ⟨test, ?_, rfl⟩⟩
    exact bind_eq_ok.mpr ⟨operand, hcoerce, htest⟩
  refine ⟨column, operand, test, hcolumn, hsame, bind_of_sameKey hsame htest, hquantified, ?_, ?_⟩
  · unfold Selection.ofQuery at hrendered
    rcases bind_eq_ok.mp hrendered with ⟨_, _, hrendered⟩
    rcases bind_eq_ok.mp hrendered with ⟨required, hrequired, hselection⟩
    rw [← pure_eq_ok.mp hselection]
    refine bind_eq_ok.mpr ⟨some (.test column test), map_eq_ok.mpr ⟨_, hclause, rfl⟩, ?_⟩
    exact bind_eq_ok.mpr ⟨required, hrequired, rfl⟩
  · intro other
    rcases selects?_equals hkey hclause with ⟨column', operand', hcolumn', hcoerce', hselects⟩
    rw [hcolumn] at hcolumn'
    cases hcolumn'
    rw [hcoerce] at hcoerce'
    cases hcoerce'
    rw [Selection.selects?_of_clause]
    exact hselects other

/-- No other row has the key of a row. -/
theorem sameKey_eq_false_of_ne
    {other : Row} {compared : Cell}
    (hsingle : store.model.primaryKey.length = 1) (hdistinct : store.KeysDistinct db)
    (hrow : row ∈ db.rows store.model) (hother : other ∈ db.rows store.model) (hne : other ≠ row)
    (hsame : (row.cell store.model.keyField).sameKey compared = true) :
    (other.cell store.model.keyField).sameKey compared = false := by
  cases hcell : (other.cell store.model.keyField).sameKey compared with
  | false => rfl
  | true =>
      exact absurd (Row.eq_of_sameKey (store.model.primaryKey_of_single hsingle) hdistinct hother
        hrow (Cell.sameKey_trans hcell (Cell.sameKey_symm hsame))) hne

/-- What selects one row alone starts with it. -/
theorem head?_selected
    (hrow : row ∈ store.selected db query) (honly : ∀ other ∈ store.selected db query, other = row) :
    (store.selected db query).head? = some row := by
  cases hall : store.selected db query with
  | nil =>
      rw [hall] at hrow
      cases hrow
  | cons first rest =>
      rw [hall] at honly
      rw [honly first List.mem_cons_self]
      rfl

/-- A row that a list shows is the only one that a look-up of its key selects. -/
theorem runs_lookup
    {keys : List SortKey}
    (hruns : store.Runs db query selection keys)
    (hsingle : store.model.primaryKey.length = 1) (hdistinct : store.KeysDistinct db)
    (hrow : row ∈ store.selected db query) (hkey : store.Identifies key row) :
    (∃ selection', store.Runs db (query.lookup store.model.keyField key) selection' []) ∧
      (store.selected db (query.lookup store.model.keyField key)).head? = some row := by
  rcases mem_selected.mp hrow with ⟨hmem, selection', hselection', hselects⟩
  rw [hruns.rendered] at hselection'
  cases hselection'
  rcases ofQuery_lookup hruns.rendered hkey with
    ⟨column, operand, test, _, hsame, hbindings, hquantified, hrendered, htest⟩
  have hdemands := Selection.isDemanding_of_prepared hselects hruns.prepared.1 hruns.prepared.2
  have hselects' : ∀ other, (Selection.simplified ⟨some (.test column test),
      selection.required⟩).bound.selects? db store.model other =
      if (other.cell store.model.keyField).sameKey (comparedCell column operand) then
        Selection.allRequired? db store.model other (selection.required.map Existence.prepared)
      else some false := by
    intro other
    rw [Selection.selects?_simplified]
    dsimp only
    rw [htest other]
    cases (other.cell store.model.keyField).sameKey (comparedCell column operand) <;> rfl
  have hother : ∀ other ∈ db.rows store.model, other ≠ row →
      (other.cell store.model.keyField).sameKey (comparedCell column operand) = false :=
    fun _ hmem' hne => sameKey_eq_false_of_ne hsingle hdistinct hmem hmem' hne hsame
  have hfound := hselects' row
  rw [if_pos hsame, Selection.allRequired?_of_selects hselects] at hfound
  have hruns' : store.Runs db (query.lookup store.model.keyField key)
      ⟨some (.test column test), selection.required⟩ [] := by
    refine ⟨hrendered, hruns.projected, rfl,
      Selection.prepared_test hquantified hbindings hdemands, ?_⟩
    intro other hmem'
    by_cases heq : other = row
    · rw [heq]
      exact ⟨true, hfound⟩
    · refine ⟨false, ?_⟩
      rw [hselects', hother other hmem' heq]
      rfl
  refine ⟨⟨_, hruns'⟩, head?_selected (mem_selected.mpr ⟨hmem, _, hrendered, hfound⟩) ?_⟩
  intro other hselected
  rcases mem_selected.mp hselected with ⟨hmem', selection', hselection', hyes⟩
  rw [hrendered] at hselection'
  cases hselection'
  by_contra hne
  rw [hselects', hother other hmem' hne] at hyes
  cases hyes

/-- The value of a key field is the key of its row, if the column keeps the value. -/
theorem identifies_of_keeps
    {column : Column}
    (hcolumn : store.model.column? store.model.keyField = some column)
    (hkeeps : column.type.Keeps (row.cell store.model.keyField) key) :
    store.Identifies key row :=
  ⟨column, key, hcolumn, hkeeps.coerce, hkeeps.sameKey⟩

end Store

namespace Sample

def authorStore : Store :=
  ⟨schema, registry, "authors", authors⟩

theorem keysDistinct_authors : authorStore.KeysDistinct database :=
  (hasWords_tables List.mem_cons_self rfl).distinct

theorem faithful_authors (inclusions : List Inclusion) :
    authorStore.Faithful database inclusions :=
  faithful_of_words rfl rfl rfl inclusions

/-- The names of the third and the fourth author, with the titles of their posts. -/
def twoAuthors : Query where
  attributes := some ["name"]
  inclusions := some [⟨"posts", none, some ["title"], none, none, false⟩]
  limit := some 2
  offset := some 2

/-- The second band alone. -/
def fineBand : Database :=
  bandDatabase.withRows bands [rowOf bands [finePrice, .text "second"]]

end Sample
end RecordApi
