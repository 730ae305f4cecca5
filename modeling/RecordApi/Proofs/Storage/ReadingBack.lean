import RecordApi.Proofs.Storage.Finding

/-!
# Keys that read back

A row that was written is found again by what its key shows.  This works where the value that
a cell reads as, taken as an operand, is compared as the same cell.  An integer is, within a word.
-/

namespace RecordApi
namespace Storage

/-- Only a null cell reads as null. -/
theorem read?_ne_null
    {type : ColumnType} {cell : Cell} {v : Value}
    (hcell : cell ≠ .null)
    (h : Binding.read? type cell = some v) :
    v ≠ .null := by
  intro hv
  rw [hv] at h
  cases cell with
  | null => exact hcell rfl
  | int n => cases type <;> cases h
  | real x => cases type <;> cases h
  | text s =>
      cases type with
      | enumeration names =>
          unfold Binding.read? at h
          dsimp only at h
          split at h
          · cases h
          · cases h
      | date =>
          rcases Option.map_eq_some_iff.mp h with ⟨_, _, hdate⟩
          cases hdate
      | timestamp =>
          rcases Option.map_eq_some_iff.mp h with ⟨_, _, htimestamp⟩
          cases htimestamp
      | uuid =>
          rcases Option.map_eq_some_iff.mp h with ⟨_, _, huuid⟩
          cases huuid
      | _ => cases h

/-- The key of a row reads back: what the first key field shows, taken as an operand, is
compared as the cell of the row. -/
def ReadsBack (model : Model) (row : Row) : Prop :=
  ∃ column v operand, model.column? model.keyField = some column ∧
    Binding.read? column.type (row.cell model.keyField) = some v ∧
    Clause.coerce column v = .ok operand ∧
    (row.cell model.keyField).sameKey (comparedCell column operand) = true

/-! ## Integers -/

theorem toInt?_ofInt (n : Int) : (Decimal.ofInt n).toInt? = some n := by
  have hmagnitude : ((n.natAbs * tenTo 0 : Nat) : Int) = n.natAbs := by
    change ((n.natAbs * 1 : Nat) : Int) = n.natAbs
    rw [Nat.mul_one]
  change some (if decide (n < 0) then -((n.natAbs * tenTo 0 : Nat) : Int)
    else ((n.natAbs * tenTo 0 : Nat) : Int)) = some n
  rw [hmagnitude]
  by_cases hnegative : n < 0
  · rw [if_pos (decide_eq_true hnegative)]
    congr 1
    omega
  · rw [decide_eq_false hnegative]
    have hnatural : (n.natAbs : Int) = n := by omega
    exact congrArg some hnatural

theorem coerce_int
    {column : Column} (n : Int)
    (htype : column.type = .integer) :
    Clause.coerce column (.int n) = .ok (.int n) := by
  have hintegral : Operand.integral (Decimal.ofInt n) = .int n := by
    unfold Operand.integral
    rw [toInt?_ofInt]
  unfold Clause.coerce
  rw [htype]
  change Except.ok (Operand.integral (Decimal.ofInt n)) = _
  rw [hintegral]

theorem comparedCell_int
    {column : Column} (n : Int)
    (htype : column.type = .integer) :
    comparedCell column (.int n) = if fitsWord n then .int n else .null := by
  have hbind : Binding.bind .integer (.int n) =
      if fitsWord n then .ok (.int n) else .error .outOfRange := rfl
  have hbound : Test.boundCell .integer (.int n) = if fitsWord n then .int n else .null := by
    unfold Test.boundCell
    rw [hbind]
    cases fitsWord n with
    | true => rfl
    | false => rfl
  unfold comparedCell
  rw [htype]
  change Cell.against .numeric (Test.boundCell .integer (.int n)) = _
  rw [hbound]
  cases fitsWord n with
  | true => rfl
  | false => rfl

/-- Beyond a word an integer is compared as no cell. -/
theorem fitsWord_of_sameKey
    {column : Column} {cell : Cell} {n : Int}
    (htype : column.type = .integer)
    (h : cell.sameKey (comparedCell column (.int n)) = true) :
    fitsWord n = true := by
  rw [comparedCell_int n htype] at h
  by_cases hfits : fitsWord n = true
  · exact hfits
  · rw [if_neg hfits, Cell.sameKey_iff] at h
    rcases h with ⟨_, hpoint, _⟩
    cases hpoint

end Storage
end RecordApi
