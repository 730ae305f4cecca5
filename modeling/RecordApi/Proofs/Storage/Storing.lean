import RecordApi.Proofs.Number.Rounding
import RecordApi.Proofs.Storage.Finding

/-!
# Stored cells and compared cells

What is bound to a column is changed once when it is stored and once when the column is compared
with it.  Both leave the point that it stands for as it is, so that a value which a column holds
equals itself as an operand.
-/

namespace RecordApi

open Steps

namespace Cell

/-- A binary number that is an integer stands for the same as the integer. -/
theorem point?_of_toInt?
    {x : Binary64} {n : Int}
    (h : x.toInt? = some n) :
    (Cell.real x).point? = (Cell.int n).point? := by
  cases x with
  | finite negative rank =>
      exact congrArg (fun units => some (Point.number units)) (Binary64.signedUnits_of_toInt? h)
  | _ => cases h

theorem point?_integral (x : Binary64) : (integral x).point? = (Cell.real x).point? := by
  unfold integral
  cases hint : x.toInt? with
  | none => rfl
  | some n =>
      dsimp only
      split
      · exact (point?_of_toInt? hint).symm
      · rfl

/-- The number that a text writes has a place. -/
theorem number?_eq_some
    {s : String} {cell : Cell}
    (h : number? s = some cell) :
    (∃ n, cell = .int n) ∨ ∃ x, cell = .real x ∧ x ≠ .nan := by
  unfold number? at h
  dsimp only at h
  rcases Option.map_eq_some_iff.mp h with ⟨numeral, _, hcell⟩
  split at hcell
  · split at hcell
    · exact Or.inl ⟨_, hcell.symm⟩
    · exact Or.inr ⟨_, hcell.symm, Binary64.ofNumeral_ne_nan numeral⟩
  · split at hcell
    · exact Or.inl ⟨_, hcell.symm⟩
    · exact Or.inr ⟨_, hcell.symm, Binary64.ofNumeral_ne_nan numeral⟩

/-- A cell has a point exactly when it has a place. -/
theorem exists_point? {cell : Cell} (h : cell.isUnplaced = false) : ∃ p, cell.point? = some p := by
  cases cell with
  | null => cases h
  | real x =>
      cases x with
      | nan => cases h
      | _ => exact ⟨_, rfl⟩
  | _ => exact ⟨_, rfl⟩

/-- A column stores a cell as the point that it is compared with, if a column of binary numbers
gets a binary number. -/
theorem sameKey_stored
    {affinity : Affinity} {cell : Cell}
    (hplaced : cell.isUnplaced = false) (hreal : affinity = .real → ∃ x, cell = .real x) :
    (cell.stored affinity).sameKey (cell.against affinity) = true := by
  have hpoint : (cell.stored affinity).point? = (cell.against affinity).point? ∧
      (cell.against affinity).isUnplaced = false := by
    cases affinity with
    | real =>
        rcases hreal rfl with ⟨x, rfl⟩
        exact ⟨rfl, hplaced⟩
    | text =>
        cases cell with
        | null => cases hplaced
        | _ => exact ⟨rfl, rfl⟩
    | free =>
        have hkept : cell.stored .free = cell ∧ cell.against .free = cell := by
          cases cell <;> exact ⟨rfl, rfl⟩
        rw [hkept.1, hkept.2]
        exact ⟨rfl, hplaced⟩
    | numeric =>
        cases cell with
        | null => cases hplaced
        | int n => exact ⟨rfl, rfl⟩
        | real x => exact ⟨point?_integral x, hplaced⟩
        | text s =>
            unfold stored against
            dsimp only
            cases hnumber : number? s with
            | none => exact ⟨rfl, rfl⟩
            | some number =>
                rcases number?_eq_some hnumber with ⟨n, rfl⟩ | ⟨x, rfl, hne⟩
                · exact ⟨rfl, rfl⟩
                · refine ⟨point?_integral x, ?_⟩
                  cases x with
                  | nan => exact absurd rfl hne
                  | _ => rfl
  rcases exists_point? hpoint.2 with ⟨p, hp⟩
  rw [sameKey_iff]
  exact ⟨p, hp, hpoint.1.trans hp⟩

end Cell

/-! ## Values of columns -/

/-- A column holds a value: it is of the kind of the column, and a number is one. -/
inductive ColumnType.Holds : ColumnType → Value → Prop
  | int (n : Int) : Holds .integer (.int n)
  | text {length : Option Nat} (s : String) : Holds (.varchar length) (.text s)
  | name {names : List String} (s : String) : Holds (.enumeration names) (.text s)
  | bool (b : Bool) : Holds .boolean (.bool b)
  | date (d : Date) : Holds .date (.date d)
  | timestamp (t : Timestamp) : Holds .timestamp (.timestamp t)
  | float {x : Binary64} (number : x ≠ .nan) : Holds .float (.float x)
  | decimal {precision scale : Nat} {d : Decimal} (finite : d.isFinite = true) :
      Holds (.numeric precision scale) (.decimal d)
  | uuid (u : Uuid) : Holds .uuid (.uuid u)
  | plain {v : Value}
      (scalar : (∃ b, v = .bool b) ∨ (∃ n, v = .int n) ∨ (∃ s, v = .text s) ∨
        ∃ x, v = .float x ∧ x ≠ .nan) : Holds .untyped v

namespace Storage

theorem boundCell_of_bind
    {type : ColumnType} {w : Value} {cell : Cell}
    (h : Binding.bind type w = .ok cell) :
    Test.boundCell type w = cell := by
  unfold Test.boundCell
  rw [h]

theorem toCell_float {x : Binary64} (hx : x ≠ .nan) : Binding.toCell (.float x) = .ok (.real x) := by
  cases x with
  | nan => exact absurd rfl hx
  | _ => rfl

theorem isUnplaced_real {x : Binary64} (hx : x ≠ .nan) : (Cell.real x).isUnplaced = false := by
  cases x with
  | nan => exact absurd rfl hx
  | _ => rfl

theorem bind_untyped (w : Value) : Binding.bind .untyped w = Binding.toCell w := by
  cases w <;> rfl

/-- The cell of an operand beside a column. -/
def operandCell (type : ColumnType) : Value → Cell
  | .bool b => .int (if b then 1 else 0)
  | v => Test.boundCell (type.operandType v) v

/-- What a column holds is bound beside the column as it is bound to it. -/
theorem operandCell_of_holds
    {type : ColumnType} {w : Value}
    (h : type.Holds w) :
    operandCell type w = Test.boundCell type w := by
  cases h with
  | bool b => cases b <;> rfl
  | plain hv =>
      unfold Test.boundCell
      rw [bind_untyped]
      rcases hv with ⟨b, rfl⟩ | ⟨n, rfl⟩ | ⟨s, rfl⟩ | ⟨x, rfl, _⟩
      · cases b <;> rfl
      all_goals rfl
  | _ => rfl

theorem isUnplaced_of_plain
    {w : Value} {cell : Cell}
    (hw : (∃ b, w = .bool b) ∨ (∃ n, w = .int n) ∨ (∃ s, w = .text s) ∨
      ∃ x, w = .float x ∧ x ≠ .nan)
    (h : Binding.toCell w = .ok cell) :
    cell.isUnplaced = false := by
  rcases hw with ⟨b, rfl⟩ | ⟨n, rfl⟩ | ⟨s, rfl⟩ | ⟨x, rfl, hx⟩
  · cases h
    rfl
  · change (if fitsWord n then _ else _ : Except BindError Cell) = _ at h
    split at h
    · cases h
      rfl
    · cases h
  · cases h
    rfl
  · rw [toCell_float hx] at h
    cases h
    exact isUnplaced_real hx

/-- What a column holds is bound with a place, and as a binary number where the column has them. -/
theorem bind_of_holds
    {type : ColumnType} {w : Value} {cell : Cell}
    (h : type.Holds w) (hbind : Binding.bind type w = .ok cell) :
    cell.isUnplaced = false ∧ (type.affinity = .real → ∃ x, cell = .real x) := by
  cases h with
  | int n =>
      change (if fitsWord n then _ else _ : Except BindError Cell) = _ at hbind
      split at hbind
      · cases hbind
        exact ⟨rfl, Affinity.noConfusion⟩
      · cases hbind
  | text _ | name _ | date _ | timestamp _ | uuid _ =>
      cases hbind
      exact ⟨rfl, Affinity.noConfusion⟩
  | bool b =>
      cases b with
      | true =>
          cases hbind
          exact ⟨rfl, Affinity.noConfusion⟩
      | false =>
          cases hbind
          exact ⟨rfl, Affinity.noConfusion⟩
  | @float x hx =>
      change Binding.toCell (.float x) = _ at hbind
      rw [toCell_float hx] at hbind
      cases hbind
      exact ⟨isUnplaced_real hx, fun _ => ⟨x, rfl⟩⟩
  | @decimal precision scale d hd =>
      have hx : d.toBinary64 ≠ .nan := by
        cases d with
        | finite negative coefficient exponent => exact Binary64.ofNumeral_ne_nan _
        | _ => cases hd
      change Binding.toCell (.float d.toBinary64) = _ at hbind
      rw [toCell_float hx] at hbind
      cases hbind
      exact ⟨isUnplaced_real hx, Affinity.noConfusion⟩
  | plain hv =>
      rw [bind_untyped] at hbind
      exact ⟨isUnplaced_of_plain hv hbind, Affinity.noConfusion⟩

/-- A value that a column holds equals itself: the cell that is stored is compared as equal to the
cell of the operand. -/
theorem sameKey_storedCell
    {column : Column} {w : Value} {cell : Cell}
    (h : column.type.Holds w) (hbind : Binding.bind column.type w = .ok cell) :
    (storedCell column w).sameKey (comparedCell column w) = true := by
  rcases bind_of_holds h hbind with ⟨hplaced, hreal⟩
  have hcompared : comparedCell column w = (operandCell column.type w).against column.type.affinity := by
    cases w <;> rfl
  unfold storedCell
  rw [hcompared, operandCell_of_holds h, boundCell_of_bind hbind]
  exact Cell.sameKey_stored hplaced hreal

/-! ## The cells of a new row -/

variable {model : Model} {payload : Assoc Value} {column : Column}

theorem cell_newRow
    (rows : List Row)
    (hcolumn : model.column? column.key = some column) :
    (newRow model payload rows).cell column.key =
      if model.countsUp column && (storedCell column (newValue payload column)).isNull then
        .int (nextKey column.key rows)
      else storedCell column (newValue payload column) := by
  unfold Model.column? at hcolumn
  unfold Row.cell Assoc.get? newRow
  rw [List.find?_map]
  change (Option.map _ (Option.map _ (model.columns.find? fun other =>
    other.key == column.key))).getD _ = _
  rw [hcolumn]
  rfl

theorem newValue_of_get?
    {w : Value}
    (hgiven : Assoc.get? payload column.key = some w) (hw : w ≠ .null) :
    newValue payload column = w := by
  unfold newValue
  rw [hgiven]
  cases w with
  | null => exact absurd rfl hw
  | _ => rfl

theorem Holds.ne_null
    {type : ColumnType} {w : Value}
    (h : type.Holds w) :
    w ≠ .null := by
  rintro rfl
  cases h with
  | plain hv => rcases hv with ⟨_, h⟩ | ⟨_, h⟩ | ⟨_, h⟩ | ⟨_, h, _⟩ <;> cases h

end Storage

namespace Store

open Storage

variable {store : Store} {db : Database} {payload : Assoc Value} {column : Column} {row : Row}

theorem bind_of_insert
    (hinsert : store.insert db payload = .ok row) (hcolumn : column ∈ store.model.columns) :
    ∃ cell, Binding.bind column.type (newValue payload column) = .ok cell := by
  unfold insert at hinsert
  rcases bind_eq_ok.mp hinsert with ⟨_, hprepare, _⟩
  have hbound := Binding.firstError?_eq_none_iff.mp (prepare_eq_ok.mp hprepare).2
  exact hbound _ (List.mem_map_of_mem hcolumn)

/-- The new row holds a given value in such a way that it equals the value as an operand. -/
theorem sameKey_of_insert
    {w : Value}
    (hinsert : store.insert db payload = .ok row)
    (hcolumn : store.model.column? column.key = some column)
    (hgiven : Assoc.get? payload column.key = some w) (hholds : column.type.Holds w) :
    (row.cell column.key).sameKey (comparedCell column w) = true := by
  have hvalue := newValue_of_get? hgiven (Holds.ne_null hholds)
  rcases bind_of_insert hinsert (Model.mem_of_column? hcolumn) with ⟨cell, hbind⟩
  rw [hvalue] at hbind
  have hsame := sameKey_storedCell hholds hbind
  have hnull : (storedCell column w).isNull = false := by
    revert hsame
    cases storedCell column w with
    | null =>
        intro hsame
        cases hsame
    | _ => exact fun _ => rfl
  rw [(insert_eq_ok hinsert).1, cell_newRow _ hcolumn, hvalue, hnull, Bool.and_false]
  exact hsame

/-- The new row keeps a null where nothing else is put in its place. -/
theorem cell_of_insert_null
    (hinsert : store.insert db payload = .ok row)
    (hcolumn : store.model.column? column.key = some column)
    (hgiven : Assoc.get? payload column.key = some .null)
    (hdefault : column.default = none) (hcounts : store.model.countsUp column = false) :
    row.cell column.key = .null := by
  have hvalue : newValue payload column = .null := by
    unfold newValue
    rw [hgiven, hdefault]
    rfl
  rw [(insert_eq_ok hinsert).1, cell_newRow _ hcolumn, hvalue, hcounts]
  rfl

end Store
end RecordApi
