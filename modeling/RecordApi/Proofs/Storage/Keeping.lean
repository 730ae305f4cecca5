import RecordApi.Proofs.Conversion.Settling
import RecordApi.Proofs.Storage.Readable

/-!
# Cells that keep a value

A column keeps a value in a cell that reads as the value, if the value as an operand is compared as
the cell.  An infinite number is not kept, since it is refused as an operand, and a number of fixed
places only where it has no others.
-/

namespace RecordApi

open Steps

/-! ## Texts that are no numbers -/

namespace Cell

theorem isAsciiBlank_of_isDigit {c : Char} (h : c.isDigit = true) : isAsciiBlank c = false := by
  have hall : ∀ n < 128, (Char.ofNat n).isDigit = true → isAsciiBlank (Char.ofNat n) = false := by
    decide
  exact Text.forall_ascii (p := fun c => c.isDigit = true → isAsciiBlank c = false) hall
    (Text.lt_of_isDigit h) h

/-- A text with a hyphen behind its first digits writes no number. -/
theorem number?_of_hyphen
    {s : String} {digits rest : List Char} {last : Char}
    (hs : s.toList = digits ++ '-' :: rest) (hne : digits ≠ [])
    (hdigits : ∀ c ∈ digits, c.isDigit = true)
    (hback : s.toList.getLast? = some last) (hlast : last.isDigit = true) :
    number? s = none := by
  have hmark : ∀ c ∈ ('-' :: rest).head?, c.isDigit = false ∧ c ≠ '.' := by
    intro c hc
    cases hc
    decide
  cases digits with
  | nil => exact absurd rfl hne
  | cons first others =>
      have hfirst : first.isDigit = true := hdigits first List.mem_cons_self
      have htrim : ((s.toList.dropWhile isAsciiBlank).reverse.dropWhile isAsciiBlank).reverse =
          s.toList := by
        apply Text.dropWhile_ends
        · rw [hs]
          rintro c ⟨⟩
          exact isAsciiBlank_of_isDigit hfirst
        · rw [hback]
          rintro c ⟨⟩
          exact isAsciiBlank_of_isDigit hlast
      unfold number?
      dsimp only
      rw [htrim, hs, List.cons_append, Numeral.splitSign_digit hfirst]
      dsimp only
      rw [← List.cons_append, Numeral.unsigned?_whole false hne hdigits hmark]
      rfl

end Cell

namespace Moment

open Iso

/-- The last character is a digit. -/
def EndsInDigit (cs : List Char) : Prop :=
  ∃ last, cs.getLast? = some last ∧ last.isDigit = true

theorem EndsInDigit.append
    {cs : List Char}
    (h : EndsInDigit cs) (lead : List Char) :
    EndsInDigit (lead ++ cs) := by
  rcases h with ⟨last, hback, hlast⟩
  refine ⟨last, ?_, hlast⟩
  rw [List.getLast?_append, hback]
  rfl

theorem EndsInDigit.cons
    {cs : List Char}
    (h : EndsInDigit cs) (c : Char) :
    EndsInDigit (c :: cs) :=
  h.append [c]

theorem endsInDigit_of_isDigits
    {count : Nat} {ds : List Char}
    (h : IsDigits (count + 1) ds) :
    EndsInDigit ds := by
  have hne : ds ≠ [] := by
    rintro rfl
    cases h.1
  exact ⟨ds.getLast hne, List.getLast?_eq_some_getLast hne, h.2 _ (List.getLast_mem hne)⟩

theorem CivilForm.endsInDigit
    {front : List Char} {date : Date}
    (h : CivilForm front date) :
    EndsInDigit front := by
  cases h with
  | intro _ _ day => exact ((((endsInDigit_of_isDigits day).cons _).append _).cons _).append _

/-- What starts with a date and ends in a digit writes no number. -/
theorem CivilForm.number?_eq_none
    {s : String} {front tail : List Char} {date : Date}
    (h : CivilForm front date) (hs : s.toList = front ++ tail) (hends : EndsInDigit s.toList) :
    Cell.number? s = none := by
  rcases hends with ⟨_, hback, hlast⟩
  cases h with
  | intro year _ _ _ =>
      rw [List.append_assoc, List.cons_append] at hs
      refine Cell.number?_of_hyphen hs ?_ year.2 hback hlast
      rintro rfl
      cases year.1

theorem number?_text (date : Date) : Cell.number? date.text = none := by
  have hchars : date.text.toList = date.chars := by
    unfold Date.text
    rw [String.toList_ofList]
  have hform := civilForm_chars date
  have hends := hform.endsInDigit
  rw [← hchars] at hends
  exact hform.number?_eq_none (hchars.trans (List.append_nil _).symm) hends

theorem number?_storedText (t : Timestamp) : Cell.number? t.storedText = none := by
  have hchars := toList_storedText t
  have hclock : EndsInDigit (storedClock t) :=
    ((((((endsInDigit_of_isDigits (isDigits_clock t).2.2.2).cons _).append _).cons _).append
      _).cons _).append _
  refine (civilForm_chars t.date).number?_eq_none hchars ?_
  rw [hchars, List.append_nil]
  exact (hclock.cons _).append _

end Moment

/-! ## Cells of typed columns -/

/-- A column of a type keeps a value in a cell. -/
inductive ColumnType.Keeps : ColumnType → Cell → Value → Prop
  | int {n : Int} (word : fitsWord n = true) : Keeps .integer (.int n) (.int n)
  | text {length : Option Nat} (s : String) : Keeps (.varchar length) (.text s) (.text s)
  | name {names : List String} {s : String} (known : s ∈ names) :
      Keeps (.enumeration names) (.text s) (.text s)
  | bool (b : Bool) : Keeps .boolean (.int (if b then 1 else 0)) (.bool b)
  | float {x : Binary64} (finite : x.isFinite = true) : Keeps .float (.real x) (.float x)
  | places {precision scale : Nat} {x : Binary64}
      (exact_places : (Binding.fixed scale x).toBinary64 = x) (finite : x.isFinite = true) :
      Keeps (.numeric precision scale) (.real x) (.decimal (Binding.fixed scale x))
  | wholePlaces {precision scale : Nat} {n : Int}
      (exact_places : (Binding.fixed scale (Binary64.ofInt n)).toBinary64.toInt? = some n) :
      Keeps (.numeric precision scale) (.int n)
        (.decimal (Binding.fixed scale (Binary64.ofInt n)))
  | date (d : Date) : Keeps .date (.text d.text) (.date d)
  | timestamp {t : Timestamp} (plain : t.offset = none) :
      Keeps .timestamp (.text t.storedText) (.timestamp t)
  | uuid (u : Uuid) : Keeps .uuid (.text u.compactText) (.uuid u)
  | plainInt {n : Int} (word : fitsWord n = true) : Keeps .untyped (.int n) (.int n)
  | plainFloat {x : Binary64} (number : x ≠ .nan) : Keeps .untyped (.real x) (.float x)
  | plainText (s : String) : Keeps .untyped (.text s) (.text s)

namespace ColumnType.Keeps

open Storage

variable {type : ColumnType} {cell : Cell} {v : Value}

theorem read? (h : type.Keeps cell v) : Binding.read? type cell = some v := by
  cases h with
  | name known =>
      unfold Binding.read?
      dsimp only
      rw [List.contains_iff_mem.mpr known]
      rfl
  | bool b => cases b <;> rfl
  | date d => exact Storage.read?_date d
  | @timestamp t plain => rw [Storage.read?_timestamp, ← plain]
  | uuid u => exact Storage.read?_uuid u
  | _ => rfl

theorem isFinite_fixed
    {x : Binary64} (scale : Nat)
    (h : x.isFinite = true) :
    (Binding.fixed scale x).isFinite = true := by
  cases x with
  | finite negative rank => rfl
  | _ => cases h

/-- A value that is kept is taken for itself as an operand. -/
theorem coerce {column : Column} (h : column.type.Keeps cell v) : Clause.coerce column v = .ok v := by
  unfold Clause.coerce
  generalize column.type = type at h
  suffices hself : Operand.coerce column.key type.kind v = .ok v by
    rw [hself]
    rfl
  have hdecimal {d : Decimal} (hd : d.isFinite = true) :
      Operand.coerce column.key .decimal (.decimal d) = .ok (.decimal d) :=
    (Operand.coerce_number (Operand.number_eq_ok rfl hd) Value.noConfusion).2.2
  cases h with
  | @int n _ => exact Operand.coerce_int_int _ n
  | @float x finite =>
      exact (Operand.coerce_float_float _ x).trans (if_neg (by rw [finite]; exact Bool.noConfusion))
  | places _ finite => exact hdecimal (isFinite_fixed _ finite)
  | @wholePlaces _ scale n exact_places =>
      apply hdecimal
      cases hx : Binary64.ofInt n with
      | finite negative rank => rfl
      | _ =>
          rw [hx] at exact_places
          cases exact_places
  | _ => rfl

/-- A value that is kept is compared as its cell. -/
theorem sameKey
    {column : Column} (h : column.type.Keeps cell v) :
    cell.sameKey (comparedCell column v) = true := by
  have hself {other : Cell} (hplaced : cell.isUnplaced = false) (hsame : other = cell) :
      cell.sameKey other = true := by
    rcases Cell.exists_point? hplaced with ⟨p, hp⟩
    rw [hsame]
    exact (Cell.sameKey_iff _ _).mpr ⟨p, hp, hp⟩
  have hword {n : Int} (word : fitsWord n = true) :
      Test.boundCell .integer (.int n) = .int n :=
    boundCell_of_bind (if_pos word)
  have hreal {x : Binary64} (hx : x ≠ .nan) : Test.boundCell .float (.float x) = .real x := by
    apply boundCell_of_bind
    exact toCell_float hx
  have hplaces {precision scale : Nat} {d : Decimal} (hd : d.toBinary64 ≠ .nan) :
      Test.boundCell (.numeric precision scale) (.decimal d) = .real d.toBinary64 := by
    apply boundCell_of_bind
    exact toCell_float hd
  unfold comparedCell
  generalize column.type = type at h
  cases h with
  | int word => exact hself rfl (congrArg (Cell.against .numeric) (hword word))
  | plainInt word => exact hself rfl (congrArg (Cell.against .free) (hword word))
  | bool b => exact hself rfl rfl
  | float finite =>
      have hx := Conversion.ne_nan_of_isFinite finite
      exact hself (isUnplaced_real hx) (congrArg (Cell.against .real) (hreal hx))
  | plainFloat number =>
      exact hself (isUnplaced_real number) (congrArg (Cell.against .free) (hreal number))
  | @places precision scale x exact_places finite =>
      have hx := Conversion.ne_nan_of_isFinite finite
      have hbound : Test.boundCell (.numeric precision scale) (.decimal (Binding.fixed scale x)) =
          .real (Binding.fixed scale x).toBinary64 := by
        apply hplaces
        rwa [exact_places]
      rw [exact_places] at hbound
      exact hself (isUnplaced_real hx) (congrArg (Cell.against .numeric) hbound)
  | @wholePlaces precision scale n exact_places =>
      have hbound : Test.boundCell (.numeric precision scale)
          (.decimal (Binding.fixed scale (Binary64.ofInt n))) =
          .real (Binding.fixed scale (Binary64.ofInt n)).toBinary64 := by
        apply hplaces
        intro hnan
        rw [hnan] at exact_places
        cases exact_places
      change (Cell.int n).sameKey ((Test.boundCell (.numeric precision scale)
        (.decimal (Binding.fixed scale (Binary64.ofInt n)))).against .numeric) = true
      rw [hbound, Cell.sameKey_iff]
      exact ⟨_, Cell.point?_of_toInt? exact_places, rfl⟩
  | date d =>
      refine hself rfl ?_
      change (Cell.number? d.text).getD (.text d.text) = _
      rw [Moment.number?_text, Option.getD_none]
  | @timestamp t _ =>
      refine hself rfl ?_
      change (Cell.number? t.storedText).getD (.text t.storedText) = _
      rw [Moment.number?_storedText, Option.getD_none]
  | _ => exact hself rfl rfl

/-- The key of a row reads back from a cell that keeps a value. -/
theorem readsBack
    {model : Model} {row : Row} {column : Column}
    (hcolumn : model.column? model.keyField = some column)
    (h : column.type.Keeps (row.cell model.keyField) v) :
    ReadsBack model row :=
  ⟨column, v, v, hcolumn, h.read?, h.coerce, h.sameKey⟩

end ColumnType.Keeps
end RecordApi
