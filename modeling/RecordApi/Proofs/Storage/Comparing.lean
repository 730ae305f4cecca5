import RecordApi.Proofs.Conversion.Sharing
import RecordApi.Proofs.Number.Spelling
import RecordApi.Proofs.Number.Values
import RecordApi.Proofs.Storage.Asking
import RecordApi.Proofs.Storage.Ranging
import RecordApi.Sample.Rows

/-!
# Integers beside numerals

A column of integers is compared with a numeral by an exact integer where the numeral is whole, and
by the nearest binary number otherwise.  The rows that are listed are those whose integers are as
asked of the value of the numeral, as long as a whole numeral is a word, and no word lies between
another numeral and a whole number that it is rounded to.
-/

namespace RecordApi

open Steps

/-! ## Comparisons of numbers -/

namespace Comparison

/-- Two numbers are as a comparison asks. -/
def Holds : Comparison → ℚ → ℚ → Prop
  | .eq, a, b => a = b
  | .ne, a, b => a ≠ b
  | .gt, a, b => b < a
  | .gte, a, b => b ≤ a
  | .lt, a, b => a < b
  | .lte, a, b => a ≤ b

theorem accepts_cmp_iff (comparison : Comparison) (a b : ℚ) :
    comparison.accepts (cmp a b) = true ↔ comparison.Holds a b := by
  rcases lt_trichotomy a b with hless | rfl | hless
  · rw [(cmp_eq_lt_iff a b).mpr hless]
    cases comparison <;> simp [accepts, Holds, hless, hless.le, hless.ne, hless.not_gt]
  · rw [cmp_self_eq_eq]
    cases comparison <;> simp [accepts, Holds]
  · rw [(cmp_eq_gt_iff a b).mpr hless]
    cases comparison <;> simp [accepts, Holds, hless, hless.le, hless.ne', hless.not_gt]

/-- An order is told by the comparisons that accept it. -/
theorem eq_of_accepts
    {o o' : Ordering}
    (h : ∀ comparison : Comparison, comparison.accepts o = comparison.accepts o') :
    o = o' := by
  have hless := h .lt
  have hgreater := h .gt
  revert hless hgreater
  cases o <;> cases o' <;> decide

theorem truth_eq_yes_iff
    {comparison : Comparison} {a b : Cell} {o : Ordering}
    (h : a.compare? b = some o) :
    comparison.truth a b = .yes ↔ comparison.accepts o = true := by
  unfold truth
  rw [h]
  exact Truth.ofBool_eq_yes

end Comparison

/-! ## Operands -/

namespace Numeral

/-- What a column of integers is compared with. -/
def operand (numeral : Numeral) : Value :=
  Operand.integral (.finite numeral.negative numeral.coefficient numeral.exponent)

/-- A column of integers is compared with the value of a numeral, whatever words it holds. -/
structure IsKept (numeral : Numeral) : Prop where
  bounded : (Decimal.ofNumeral? numeral).isSome = true
  word : ∀ n : ℤ, numeral.value = n → fitsWord n = true
  apart : (∀ n : ℤ, numeral.value ≠ n) → ∀ k : ℤ, (Binary64.ofNumeral numeral).toInt? = some k →
    ∀ n : ℤ, fitsWord n = true → (n : ℚ) ∉ Set.uIcc numeral.value k

variable {numeral : Numeral} {s : String} {n : ℤ} {column : Column}

theorem operand_of_whole
    (h : numeral.value = n) :
    numeral.operand = .int n :=
  Operand.integral_of_toInt? (toInt?_eq_some_iff.mpr h)

theorem operand_of_fraction
    (h : ∀ n : ℤ, numeral.value ≠ n) :
    numeral.operand = .float (Binary64.ofNumeral numeral) := by
  unfold operand Operand.integral
  cases hwhole : (Decimal.finite numeral.negative numeral.coefficient numeral.exponent).toInt? with
  | some n => exact absurd (toInt?_eq_some_iff.mp hwhole) (h n)
  | none => rfl

/-- A fraction is kept when it is rounded to a fraction. -/
theorem isKept_of_fraction
    (hbounded : (Decimal.ofNumeral? numeral).isSome = true)
    (hvalue : (Decimal.finite numeral.negative numeral.coefficient numeral.exponent).toInt? = none)
    (hround : (Binary64.ofNumeral numeral).toInt? = none) :
    numeral.IsKept := by
  refine ⟨hbounded, ?_, ?_⟩
  · intro n hn
    rw [toInt?_eq_some_iff.mpr hn] at hvalue
    cases hvalue
  · intro _ k hk
    rw [hround] at hk
    cases hk

/-- A text that writes a numeral becomes its operand, if the exponents are within bounds. -/
theorem coerce_of_writes
    (htype : column.type = .integer) (hs : numeral.Writes s) :
    Clause.coerce column (.text s) =
      if (Decimal.ofNumeral? numeral).isSome then .ok numeral.operand
      else .error (.operand (.invalid column.key .number)) := by
  have hread : Operand.decimalOf? (.text s) = Decimal.ofNumeral? numeral :=
    Decimal.ofChars?_of_writes hs
  have hkind : column.type.kind = .int := by
    rw [htype]
    rfl
  unfold Clause.coerce
  rw [hkind]
  cases hbounded : Decimal.ofNumeral? numeral with
  | some d =>
      have hd := Decimal.eq_of_ofNumeral? hbounded
      have hnumber : Operand.number column.key (.text s) = .ok d := by
        refine Operand.number_eq_ok (hread.trans hbounded) ?_
        rw [hd]
        rfl
      rw [(Operand.coerce_number hnumber Value.noConfusion).1, hd]
      rfl
  | none =>
      have hnumber : Operand.number column.key (.text s) =
          .error (.invalid column.key .number) := by
        unfold Operand.number
        rw [hread, hbounded]
        rfl
      unfold Operand.coerce
      dsimp only
      rw [hnumber]
      rfl

/-- An operand is a number. -/
theorem operand_eq (numeral : Numeral) :
    (∃ n, numeral.operand = .int n) ∨ ∃ x, numeral.operand = .float x := by
  unfold operand Operand.integral
  cases (Decimal.finite numeral.negative numeral.coefficient numeral.exponent).toInt? with
  | some n => exact .inl ⟨n, rfl⟩
  | none => exact .inr ⟨_, rfl⟩

theorem comparisonTest_operand (numeral : Numeral) (comparison : Comparison) :
    Clause.comparisonTest comparison numeral.operand =
      .ok (.compare comparison numeral.operand) := by
  rcases numeral.operand_eq with ⟨n, hn⟩ | ⟨x, hx⟩
  · rw [hn]
    cases comparison <;> rfl
  · rw [hx]
    cases comparison <;> rfl

theorem bind_operand_of_whole
    (htype : column.type = .integer) (h : numeral.value = n) :
    Binding.bind (column.type.operandType numeral.operand) numeral.operand =
      if fitsWord n then .ok (.int n) else .error .outOfRange := by
  rw [operand_of_whole h, htype]
  rfl

theorem bind_operand_of_fraction
    (htype : column.type = .integer) (h : ∀ n : ℤ, numeral.value ≠ n) :
    Binding.bind (column.type.operandType numeral.operand) numeral.operand =
      .ok (.real (Binary64.ofNumeral numeral)) := by
  have hnumber := Binary64.ofNumeral_ne_nan numeral
  rw [operand_of_fraction h, htype]
  cases hx : Binary64.ofNumeral numeral with
  | nan => exact absurd hx hnumber
  | _ => rfl

/-- An operand is bound unless it is an integer that is no word. -/
theorem exists_bind_operand_iff
    (htype : column.type = .integer) :
    (∃ cell, Binding.bind (column.type.operandType numeral.operand) numeral.operand = .ok cell) ↔
      ∀ n : ℤ, numeral.value = n → fitsWord n = true := by
  by_cases hwhole : ∃ n : ℤ, numeral.value = n
  · rcases hwhole with ⟨n, hn⟩
    rw [bind_operand_of_whole htype hn]
    constructor
    · rintro ⟨cell, hcell⟩ k hk
      rw [hn, Int.cast_inj] at hk
      rw [← hk]
      by_contra hword
      rw [if_neg hword] at hcell
      cases hcell
    · intro hword
      exact ⟨.int n, if_pos (hword n hn)⟩
  · have hfraction : ∀ n : ℤ, numeral.value ≠ n := not_exists.mp hwhole
    rw [bind_operand_of_fraction htype hfraction]
    exact iff_of_true ⟨_, rfl⟩ fun n hn => absurd hn (hfraction n)

/-- The cell that an operand is bound to is compared as it is. -/
theorem comparedCell_operand
    {cell : Cell}
    (htype : column.type = .integer)
    (h : Binding.bind (column.type.operandType numeral.operand) numeral.operand = .ok cell) :
    Storage.comparedCell column numeral.operand = cell.against .numeric := by
  have haffinity : column.type.affinity = .numeric := by
    rw [htype]
    rfl
  have hcell : Test.boundCell (column.type.operandType numeral.operand) numeral.operand = cell := by
    unfold Test.boundCell
    rw [h]
  unfold Storage.comparedCell
  rw [haffinity, ← hcell]
  rcases numeral.operand_eq with ⟨n, hn⟩ | ⟨x, hx⟩
  · rw [hn]
  · rw [hx]

/-- Words are compared with the value of a numeral that is kept. -/
theorem IsKept.compare?_eq
    (h : numeral.IsKept) (htype : column.type = .integer) (hn : fitsWord n = true) :
    (Cell.int n).compare? (Storage.comparedCell column numeral.operand) =
      some (cmp (n : ℚ) numeral.value) := by
  by_cases hwhole : ∃ k : ℤ, numeral.value = k
  · rcases hwhole with ⟨k, hk⟩
    have hbind := bind_operand_of_whole htype hk
    rw [if_pos (h.word k hk)] at hbind
    rw [comparedCell_operand htype hbind, hk, Int.cast_strictMono.cmp_map_eq, cmp_eq_compare]
    rfl
  · have hfraction : ∀ k : ℤ, numeral.value ≠ k := not_exists.mp hwhole
    rw [comparedCell_operand htype (bind_operand_of_fraction htype hfraction)]
    exact Binary64.compareInt?_ofNumeral hn fun k hk => h.apart hfraction k hk n hn

/-- A numeral that is rounded onto a word, or beyond one, is compared as another number. -/
theorem compare?_ne_of_between
    {k : ℤ}
    (htype : column.type = .integer) (hfraction : ∀ n : ℤ, numeral.value ≠ n)
    (hround : (Binary64.ofNumeral numeral).toInt? = some k)
    (hbetween : (n : ℚ) ∈ Set.uIcc numeral.value k) :
    (Cell.int n).compare? (Storage.comparedCell column numeral.operand) = some (cmp n k) ∧
      cmp n k ≠ cmp (n : ℚ) numeral.value := by
  constructor
  · rw [comparedCell_operand htype (bind_operand_of_fraction htype hfraction)]
    cases hx : Binary64.ofNumeral numeral with
    | finite negative rank =>
        rw [hx, Binary64.toInt?_eq_some_iff] at hround
        have hcompare := Binary64.compareInt?_finite n negative rank
        rw [hround, Int.cast_strictMono.cmp_map_eq] at hcompare
        exact hcompare
    | _ =>
        rw [hx] at hround
        cases hround
  · rw [← Int.cast_strictMono.cmp_map_eq (α := ℤ) (β := ℚ) n k]
    rcases Set.mem_uIcc.mp hbetween with ⟨hbelow, habove⟩ | ⟨hbelow, habove⟩
    · have hless := lt_of_le_of_ne hbelow (hfraction n)
      rw [(cmp_eq_gt_iff _ _).mpr hless, Ne, cmp_eq_gt_iff]
      exact not_lt_of_ge habove
    · have hless := lt_of_le_of_ne habove (hfraction n).symm
      rw [(cmp_eq_lt_iff _ _).mpr hless, Ne, cmp_eq_lt_iff]
      exact not_lt_of_ge hbelow

end Numeral

/-! ## Queries -/

theorem Comparison.exists_operator (comparison : Comparison) :
    ∃ op : Operator, op.comparison? = some comparison := by
  cases comparison with
  | eq => exact ⟨.eq, rfl⟩
  | ne => exact ⟨.ne, rfl⟩
  | gt => exact ⟨.gt, rfl⟩
  | gte => exact ⟨.gte, rfl⟩
  | lt => exact ⟨.lt, rfl⟩
  | lte => exact ⟨.lte, rfl⟩

namespace Store

/-- A query that asks for a column of integers by a text lists the rows whose integers are to a
number as a comparison asks. -/
structure ListsBy (store : Store) (field : String) (column : Column) (op : Operator) (s : String)
    (comparison : Comparison) (q : ℚ) : Prop where
  listed : ∀ db : Database, (∀ row ∈ db.rows store.model, row.IsReadable store.model) →
    store.list db (Query.asking field op (.text s)) =
      .ok ⟨store.shownRows none (store.selected db (Query.asking field op (.text s))),
        (store.selected db (Query.asking field op (.text s))).length⟩
  selected : ∀ (db : Database), ∀ row ∈ db.rows store.model, ∀ n : ℤ,
    row.cell column.key = .int n → fitsWord n = true →
      (row ∈ store.selected db (Query.asking field op (.text s)) ↔ comparison.Holds n q)

variable {store : Store} {field s : String} {column : Column} {op : Operator}
  {comparison : Comparison} {numeral : Numeral}

/-- A query for a text that writes a numeral compares the column with the operand. -/
theorem testOf_of_writes
    (htype : column.type = .integer) (hop : op.comparison? = some comparison)
    (hs : numeral.Writes s) (hbounded : (Decimal.ofNumeral? numeral).isSome = true) :
    Clause.testOf store.model store.name column op (.text s) =
      .ok (.compare comparison numeral.operand) := by
  rw [Clause.testOf_of_comparison? hop, Numeral.coerce_of_writes htype hs, if_pos hbounded]
  exact Numeral.comparisonTest_operand numeral comparison

theorem exists_cell_of_word
    (htype : column.type = .integer) (hword : ∀ n : ℤ, numeral.value = n → fitsWord n = true) :
    ∀ binding ∈ (Test.compare comparison numeral.operand).bindings column,
      ∃ cell, binding = .ok cell :=
  List.forall_mem_singleton.mpr ((Numeral.exists_bind_operand_iff htype).mpr hword)

theorem compare_truth? (column : Column) (comparison : Comparison) (numeral : Numeral) (row : Row) :
    ((Test.compare comparison numeral.operand).bound column).truth? column row =
      some (comparison.truth (row.cell column.key) (Storage.comparedCell column numeral.operand)) :=
  Storage.comparisonTest_truth? column row (Storage.integral_ne_null _)
    (Numeral.comparisonTest_operand numeral comparison)

/-- The rows are selected whose cells are to the operand as asked. -/
theorem mem_selected_of_writes
    {db : Database} {row : Row} {n : ℤ} {o : Ordering}
    (hcolumn : store.model.column? field = some column) (htype : column.type = .integer)
    (hop : op.comparison? = some comparison) (hs : numeral.Writes s)
    (hbounded : (Decimal.ofNumeral? numeral).isSome = true)
    (hword : ∀ n : ℤ, numeral.value = n → fitsWord n = true)
    (hrow : row ∈ db.rows store.model) (hcell : row.cell column.key = .int n)
    (ho : (Cell.int n).compare? (Storage.comparedCell column numeral.operand) = some o) :
    row ∈ store.selected db (Query.asking field op (.text s)) ↔ comparison.accepts o = true := by
  rw [mem_selected_asking hcolumn (testOf_of_writes htype hop hs hbounded)
    (exists_cell_of_word htype hword) (compare_truth? column comparison numeral row) hrow, hcell,
    Comparison.truth_eq_yes_iff ho]

theorem listsBy_of_isKept
    (hcolumn : store.model.column? field = some column) (htype : column.type = .integer)
    (hop : op.comparison? = some comparison) (hs : numeral.Writes s) (h : numeral.IsKept) :
    store.ListsBy field column op s comparison numeral.value := by
  constructor
  · intro db hreadable
    have htold := compare_truth? column comparison numeral
    have hruns : ∃ selection, store.Runs db (Query.asking field op (.text s)) selection [] :=
      runs_asking hcolumn (testOf_of_writes htype hop hs h.bounded) rfl
        (exists_cell_of_word htype h.word) fun row _ => ⟨_, htold row⟩
    rcases hruns with ⟨selection, hruns⟩
    exact list_asking hruns hreadable
  · intro db row hrow n hcell hn
    rw [mem_selected_of_writes hcolumn htype hop hs h.bounded h.word hrow hcell
      (h.compare?_eq htype hn), Comparison.accepts_cmp_iff]

/-- A list that succeeds has taken the numeral, and has bound it. -/
theorem ListsBy.bounded_and_word
    {q : ℚ}
    (h : store.ListsBy field column op s comparison q)
    (hcolumn : store.model.column? field = some column) (htype : column.type = .integer)
    (hop : op.comparison? = some comparison) (hs : numeral.Writes s) :
    (Decimal.ofNumeral? numeral).isSome = true ∧
      ∀ n : ℤ, numeral.value = n → fitsWord n = true := by
  have hlist := h.listed .empty fun row hrow => absurd hrow List.not_mem_nil
  rcases (list_eq_ok_iff.mp hlist).1 with ⟨selection, keys, hruns⟩
  rcases exists_test_of_runs hcolumn hruns with ⟨test, htest, hbound⟩
  have hbounded : (Decimal.ofNumeral? numeral).isSome = true := by
    by_contra hnone
    rw [Clause.testOf_of_comparison? hop, Numeral.coerce_of_writes htype hs, if_neg hnone] at htest
    cases htest
  rw [testOf_of_writes htype hop hs hbounded] at htest
  cases htest
  exact ⟨hbounded, (Numeral.exists_bind_operand_iff htype).mp (hbound _ List.mem_cons_self)⟩

/-- A table of one row tells a numeral from the number that it is rounded to. -/
theorem isKept_of_listsBy
    (hcolumn : store.model.column? field = some column) (htype : column.type = .integer)
    (hs : numeral.Writes s)
    (h : ∀ op comparison, op.comparison? = some comparison →
      store.ListsBy field column op s comparison numeral.value) :
    numeral.IsKept := by
  rcases (h .eq .eq rfl).bounded_and_word hcolumn htype rfl hs with ⟨hbounded, hword⟩
  refine ⟨hbounded, hword, ?_⟩
  intro hfraction k hk n hn hbetween
  rcases Numeral.compare?_ne_of_between htype hfraction hk hbetween with ⟨hcompare, hne⟩
  apply hne
  apply Comparison.eq_of_accepts
  intro comparison
  rcases comparison.exists_operator with ⟨op, hop⟩
  let row : Row := [(column.key, .int n)]
  have hrow : row ∈ (Database.empty.withRows store.model [row]).rows store.model := by
    rw [Database.rows_withRows]
    exact List.mem_cons_self
  have hcell : row.cell column.key = .int n := by
    simp [row, Row.cell, Assoc.get?]
  rw [Bool.eq_iff_iff, Comparison.accepts_cmp_iff,
    ← (h op comparison hop).selected _ row hrow n hcell hn,
    mem_selected_of_writes hcolumn htype hop hs hbounded hword hrow hcell hcompare]

/-- A column of integers is asked for by a text that writes a numeral.  For each of the six
comparisons the list succeeds and has the rows whose integers are to the value of the numeral as
asked, exactly when the numeral is kept. -/
theorem listsBy_numeral_iff
    (hcolumn : store.model.column? field = some column) (htype : column.type = .integer)
    (hs : numeral.Writes s) :
    (∀ op comparison, op.comparison? = some comparison →
      store.ListsBy field column op s comparison numeral.value) ↔ numeral.IsKept :=
  ⟨isKept_of_listsBy hcolumn htype hs,
    fun h _ _ hop => listsBy_of_isKept hcolumn htype hop hs h⟩

end Store

namespace Sample

/-- An item of which there are ten. -/
def item06 : Row := rowOf items (itemRows.getD 5 [])

/-- A fraction on a column of integers, which is asked for by each of the six comparisons. -/
theorem listsBy_numeral_qty :
    let numeral : Numeral := ⟨false, 175, -1⟩
    items.column? "qty" = some (optional "qty" .integer) ∧ numeral.Writes "17.5" ∧
      numeral.IsKept ∧
      ∀ op comparison, op.comparison? = some comparison →
        itemStore.ListsBy "qty" (optional "qty" .integer) op "17.5" comparison numeral.value := by
  have hcolumn : itemStore.model.column? "qty" = some (optional "qty" .integer) := by rfl
  have hwrites : Numeral.Writes "17.5" ⟨false, 175, -1⟩ := by
    have hplain : Numeral.plainChars "17.5" = ['1', '7'] ++ '.' :: ['5'] := by decide
    exact Numeral.writes_of_point hplain (.inl (by decide)) (List.all_eq_true.mp rfl)
      (List.all_eq_true.mp rfl)
  have hkept : Numeral.IsKept ⟨false, 175, -1⟩ :=
    Numeral.isKept_of_fraction (by decide) (by decide) (by decide +kernel)
  exact ⟨hcolumn, hwrites, hkept,
    (Store.listsBy_numeral_iff hcolumn rfl hwrites).mpr hkept⟩

/-- A numeral just below ten is rounded to ten, and equals it.  A numeral beyond the words makes
the database fail. -/
theorem rounded_numeral_equals_ten :
    let numeral : Numeral := ⟨false, 999999999999999999999, -20⟩
    numeral.Writes "9.99999999999999999999" ∧ ¬ Comparison.eq.Holds (10 : ℤ) numeral.value ∧
      item06 ∈ database.rows items ∧ item06.cell "qty" = .int 10 ∧
      item06 ∈ itemStore.selected database
        (Query.asking "qty" .eq (.text "9.99999999999999999999")) ∧
      (itemStore.list database (Query.asking "qty" .lt (.text "9223372036854775808"))).map
        (fun _ => ()) = .error .outOfRange := by
  have hwrites : Numeral.Writes "9.99999999999999999999" ⟨false, 999999999999999999999, -20⟩ := by
    have hplain : Numeral.plainChars "9.99999999999999999999" =
        ['9'] ++ '.' :: List.replicate 20 '9' := by
      decide
    exact Numeral.writes_of_point hplain (.inl (by decide)) (List.all_eq_true.mp rfl)
      (List.all_eq_true.mp rfl)
  have hvalue : ¬ Comparison.eq.Holds (10 : ℤ)
      (Numeral.value ⟨false, 999999999999999999999, -20⟩) := by
    intro hten
    have hwhole := Numeral.toInt?_eq_some_iff.mpr (Eq.symm hten)
    revert hwhole
    decide
  exact ⟨hwrites, hvalue, by decide +kernel, by rfl, by decide +kernel, by decide +kernel⟩

end Sample
end RecordApi
