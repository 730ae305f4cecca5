import RecordApi.Proofs.Conversion.Moments
import RecordApi.Proofs.Conversion.Words
import RecordApi.Proofs.Storage.Storing

/-!
# Reading what a column stores

Dates, timestamps and identifiers are stored as texts, and these texts are read as the same
values again.  Any other kind of column shows every cell, so that the only value a column stores
and cannot read is a name outside an enumeration.
-/

namespace RecordApi

/-! ## Digits of a fixed width -/

namespace Moment

open Iso

variable {count n : Nat}

theorem isDigits_padded
    (hcount : 0 < count) (hn : n < 10 ^ count) :
    IsDigits count (Date.padded count n) := by
  have hlength : (Nat.toDigits 10 n).length ≤ count :=
    (Nat.length_toDigits_le_iff (by decide) hcount).mpr hn
  unfold Date.padded
  constructor
  · rw [List.length_append, List.length_replicate]
    omega
  · intro c hc
    rcases List.mem_append.mp hc with hzero | hdigit
    · rw [List.eq_of_mem_replicate hzero]
      rfl
    · exact Numeral.isDigit_of_mem_toDigits hdigit

theorem natOfAscii_padded (count n : Nat) : Numeral.natOfAscii (Date.padded count n) = n := by
  unfold Date.padded
  rw [Numeral.natOfAscii_zeros_append, Numeral.natOfAscii_toDigits]

/-! ## Dates and timestamps -/

theorem daysInMonth_le (year month : Nat) : Calendar.daysInMonth year month ≤ 31 := by
  unfold Calendar.daysInMonth
  split
  · split <;> decide
  all_goals decide

theorem civilForm_chars (date : Date) : CivilForm date.chars date := by
  rcases date with ⟨year, month, day, hday⟩
  have hbounds := hday
  rcases hbounds with ⟨_, hyear, _, hmonth, _, hlast⟩
  have hmost := daysInMonth_le year month
  have hfound : Date.ofCivil? (Numeral.natOfAscii (Date.padded 4 year))
      (Numeral.natOfAscii (Date.padded 2 month)) (Numeral.natOfAscii (Date.padded 2 day)) =
        some ⟨year, month, day, hday⟩ := by
    rw [natOfAscii_padded, natOfAscii_padded, natOfAscii_padded]
    exact dif_pos hday
  have hform := CivilForm.intro (isDigits_padded (by decide) (by omega))
    (isDigits_padded (by decide) (by omega)) (isDigits_padded (by decide) (by omega)) hfound
  unfold Date.chars
  rwa [List.append_assoc, List.cons_append]

/-- The time of day as it is stored, with all six digits of a second. -/
def storedClock (t : Timestamp) : List Char :=
  Date.padded 2 t.hour ++ ':' :: (Date.padded 2 t.minute ++ ':' :: (Date.padded 2 t.second ++
    '.' :: Date.padded 6 t.microsecond))

theorem clockOf?_eq (t : Timestamp) :
    Timestamp.clockOf? t.hour t.minute t.second t.microsecond = some t.clock := by
  rcases t with ⟨date, ⟨clock, hclock⟩, offset⟩
  unfold dayMicros at hclock
  have hparts : ((clock / 3600000000 * 60 + clock / 60000000 % 60) * 60 +
      clock / 1000000 % 60) * 1000000 + clock % 1000000 = clock := by omega
  have hbounds : clock / 3600000000 < 24 ∧ clock / 60000000 % 60 < 60 ∧
      clock / 1000000 % 60 < 60 ∧ clock % 1000000 < 1000000 := by omega
  unfold Timestamp.clockOf? Timestamp.hour Timestamp.minute Timestamp.second
    Timestamp.microsecond
  dsimp only
  rw [if_pos hbounds]
  simp only [hparts]
  exact dif_pos hclock

theorem isDigits_clock (t : Timestamp) :
    IsDigits 2 (Date.padded 2 t.hour) ∧ IsDigits 2 (Date.padded 2 t.minute) ∧
      IsDigits 2 (Date.padded 2 t.second) ∧ IsDigits 6 (Date.padded 6 t.microsecond) := by
  have hclock : t.clock.val < 86400000000 := t.clock.isLt
  have hhour : t.hour < 10 ^ 2 := by
    unfold Timestamp.hour
    omega
  have hminute : t.minute < 10 ^ 2 := by
    unfold Timestamp.minute
    omega
  have hsecond : t.second < 10 ^ 2 := by
    unfold Timestamp.second
    omega
  have hmicro : t.microsecond < 10 ^ 6 := by
    unfold Timestamp.microsecond
    omega
  exact ⟨isDigits_padded (by decide) hhour, isDigits_padded (by decide) hminute,
    isDigits_padded (by decide) hsecond, isDigits_padded (by decide) hmicro⟩

theorem clockForm_storedClock (t : Timestamp) :
    ClockForm (storedClock t) t.hour t.minute t.second t.microsecond := by
  rcases isDigits_clock t with ⟨hhour, hminute, hsecond, hmicro⟩
  have hsome : Date.padded 6 t.microsecond ≠ [] := by
    intro hnil
    have hlength := hmicro.1
    rw [hnil] at hlength
    cases hlength
  have hform := ClockForm.fraction hhour hminute hsecond (.inl rfl) hsome hmicro.2
  have htake : (Date.padded 6 t.microsecond).take 6 = Date.padded 6 t.microsecond :=
    List.take_of_length_le (Nat.le_of_eq hmicro.1)
  rw [htake, hmicro.1, natOfAscii_padded, natOfAscii_padded, natOfAscii_padded,
    natOfAscii_padded] at hform
  have hone : tenTo (6 - 6) = 1 := rfl
  rwa [hone, Nat.mul_one] at hform

theorem toList_storedText (t : Timestamp) :
    t.storedText.toList = t.date.chars ++ ' ' :: (storedClock t ++ []) := by
  unfold Timestamp.storedText storedClock
  simp

theorem date?_text (date : Date) : Iso.date? date.text.toList = some date := by
  unfold Date.text
  rw [String.toList_ofList]
  exact (civilForm_chars date).date?_eq

/-- A stored timestamp is read again without its offset, which is not stored. -/
theorem timestamp?_storedText (t : Timestamp) :
    Iso.timestamp? t.storedText.toList = some { t with offset := none } := by
  have hform : WrittenForm t.storedText.toList { t with offset := none } := by
    rw [toList_storedText]
    exact .intro (civilForm_chars t.date) rfl (clockForm_storedClock t) (clockOf?_eq t) .none
  have hplain : 'Z' ∉ t.storedText.toList := by
    rw [toList_storedText]
    simp only [List.append_nil, List.mem_append, List.mem_cons, not_or]
    refine ⟨fun hmem => ?_, by decide, fun hmem => ?_⟩
    · exact absurd ((civilForm_chars t.date).isDigit_or_eq _ hmem) (by decide)
    · rcases (clockForm_storedClock t).isClockMark _ hmem with hdigit | hmark
      · cases hdigit
      · exact absurd hmark (by decide)
  have hread := hform.timestamp?_eq
  rwa [expandZulu_eq_self hplain] at hread

end Moment

/-! ## Identifiers -/

namespace Uuid

/-- The digits of an identifier, which are written with small letters. -/
theorem digitChar_spec {d : Nat} (hd : d < 16) :
    hexValue? d.digitChar = some d ∧ d.digitChar.toNat < 128 ∧
      isNumberBlank d.digitChar = false ∧ d.digitChar ∉ ['-', '+', '_', 'x', 'X'] := by
  revert d
  decide

theorem exists_of_mem_toDigits
    {n : Nat} {c : Char}
    (h : c ∈ Nat.toDigits 16 n) :
    ∃ d < 16, c = d.digitChar := by
  induction n using Nat.strongRecOn with
  | ind n ih =>
      rw [Nat.toDigits_eq_if (by decide)] at h
      split at h
      · rename_i hsmall
        exact ⟨n, hsmall, List.mem_singleton.mp h⟩
      · rcases List.mem_append.mp h with hfront | hlast
        · exact ih (n / 16) (by omega) hfront
        · exact ⟨n % 16, by omega, List.mem_singleton.mp hlast⟩

/-- One more digit of a hexadecimal number. -/
def digitStep (total : Nat) (c : Char) : Option Nat :=
  (hexValue? c).map (16 * total + ·)

theorem hexDigits?_eq_foldlM
    {cs : List Char} (total : Nat)
    (hsome : cs ≠ []) (hplain : '_' ∉ cs) :
    hexDigits? total cs = cs.foldlM digitStep total := by
  fun_induction hexDigits? total cs with
  | case1 => exact absurd rfl hsome
  | case2 total c =>
      rw [List.foldlM_cons]
      simp [digitStep]
  | case3 total c rest => simp at hplain
  | case4 total c rest hrest _ ih =>
      have hplain' : '_' ∉ rest := fun hmem => hplain (List.mem_cons_of_mem c hmem)
      rw [List.foldlM_cons]
      unfold digitStep
      cases hexValue? c with
      | none => rfl
      | some d => exact ih d hrest hplain'

theorem foldlM_zeros (count : Nat) :
    (List.replicate count '0').foldlM digitStep 0 = some 0 := by
  induction count with
  | zero => rfl
  | succ count ih =>
      rw [List.replicate_succ, List.foldlM_cons]
      exact ih

theorem foldlM_toDigits (n : Nat) : (Nat.toDigits 16 n).foldlM digitStep 0 = some n := by
  induction n using Nat.strongRecOn with
  | ind n ih =>
      have hlast {total d : Nat} (hd : d < 16) :
          [d.digitChar].foldlM digitStep total = some (16 * total + d) := by
        rw [List.foldlM_cons]
        unfold digitStep
        rw [(digitChar_spec hd).1]
        rfl
      rw [Nat.toDigits_eq_if (by decide)]
      split
      · rename_i hsmall
        rw [hlast hsmall, Nat.mul_zero, Nat.zero_add]
      · have hwhole : 16 * (n / 16) + n % 16 = n := Nat.div_add_mod n 16
        rw [List.foldlM_append, ih (n / 16) (by omega)]
        exact (hlast (by omega)).trans (congrArg some hwhole)

theorem mem_digits
    {u : Uuid} {c : Char}
    (h : c ∈ u.digits) :
    ∃ d < 16, c = d.digitChar := by
  unfold digits Text.hexDigits at h
  rcases List.mem_append.mp h with hzero | hdigit
  · exact ⟨0, by decide, List.eq_of_mem_replicate hzero⟩
  · exact exists_of_mem_toDigits hdigit

theorem length_digits (u : Uuid) : u.digits.length = 32 := by
  have hlength : (Nat.toDigits 16 u.number.val).length ≤ 32 :=
    (Nat.length_toDigits_le_iff (by decide) (by decide)).mpr u.number.isLt
  unfold digits Text.hexDigits
  rw [List.length_append, List.length_replicate]
  omega

theorem hexNumber?_digits (u : Uuid) : hexNumber? u.digits = some (u.number.val : Int) := by
  have hspec : ∀ c ∈ u.digits, c.toNat < 128 ∧ isNumberBlank c = false ∧
      c ∉ ['-', '+', '_', 'x', 'X'] := by
    intro c hc
    rcases mem_digits hc with ⟨d, hd, rfl⟩
    exact (digitChar_spec hd).2
  have hnone : ∀ c ∈ ([] : List Char), isNumberBlank c = true := by simp
  have htrim := Text.dropWhile_around hnone hnone fun c hc => (hspec c hc).2.1
  rw [List.nil_append, List.append_nil] at htrim
  have hsign : Numeral.splitSign u.digits = (false, u.digits) := by
    unfold Numeral.splitSign
    split
    · rename_i rest heq
      exact absurd (hspec '-' (heq ▸ List.mem_cons_self)).2.2 (by decide)
    · rename_i rest heq
      exact absurd (hspec '+' (heq ▸ List.mem_cons_self)).2.2 (by decide)
    · rfl
  have hplain : '_' ∉ u.digits := fun hmem => absurd (hspec '_' hmem).2.2 (by decide)
  have hsome : u.digits ≠ [] := by
    intro hnil
    have hlength := length_digits u
    rw [hnil] at hlength
    cases hlength
  have hdigits : hexDigits? 0 u.digits = some u.number.val := by
    rw [hexDigits?_eq_foldlM 0 hsome hplain]
    unfold digits Text.hexDigits
    rw [List.foldlM_append, foldlM_zeros]
    exact foldlM_toDigits u.number.val
  have hmark : ∀ x rest, u.digits = '0' :: x :: rest → ¬ (x = 'x' ∨ x = 'X') := by
    intro x rest heq hx
    have hmem : x ∈ u.digits := heq ▸ List.mem_cons_of_mem _ List.mem_cons_self
    rcases hx with rfl | rfl
    · exact absurd (hspec _ hmem).2.2 (by decide)
    · exact absurd (hspec _ hmem).2.2 (by decide)
  unfold hexNumber?
  dsimp only
  rw [htrim, Numeral.asciiDigits_eq_self fun c hc => (hspec c hc).1, hsign]
  simp only [Bool.false_eq_true, if_false]
  split
  · rename_i x rest heq
    rw [if_neg (hmark x _ heq), hdigits]
    rfl
  · rename_i x rest _ heq
    rw [if_neg (hmark x _ heq), hdigits]
    rfl
  · rw [hdigits]
    rfl

/-- An identifier is read again from its digits. -/
theorem ofChars?_compactText (u : Uuid) : ofChars? u.compactText.toList = some u := by
  have hhex : ∀ c ∈ u.digits, IsHex c ∧ c ≠ '-' := by
    intro c hc
    rcases mem_digits hc with ⟨d, hd, rfl⟩
    rcases digitChar_spec hd with ⟨hvalue, _, _, hmarks⟩
    refine ⟨?_, fun heq => hmarks (heq ▸ List.mem_cons_self)⟩
    unfold IsHex
    rw [hvalue]
    rfl
  have hkept : kept u.digits = u.digits := by
    rw [kept_eq_filter fun c hc => (hhex c hc).1, List.filter_eq_self]
    exact fun c hc => decide_eq_true (hhex c hc).2
  have htext : u.compactText.toList = u.digits := String.toList_ofList
  rw [htext]
  unfold ofChars?
  change (if (kept u.digits).length = 32 then (hexNumber? (kept u.digits)).bind _ else none) = _
  have hbound : 0 ≤ (u.number.val : Int) ∧
      (u.number.val : Int) < 0x100000000000000000000000000000000 := by omega
  rw [hkept, if_pos (length_digits u), hexNumber?_digits, Option.bind_some, dif_pos hbound]
  rfl

end Uuid

/-! ## Cells -/

/-- A column of names is given a text that is none of them. -/
def Column.Misnames (column : Column) (v : Value) : Prop :=
  ∃ names s, column.type = .enumeration names ∧ v = .text s ∧ s ∉ names

namespace Storage

/-- A cell that is no text is read by every column. -/
theorem exists_read?_of_ne_text
    (type : ColumnType) {cell : Cell}
    (h : ∀ s, cell ≠ .text s) :
    ∃ w, Binding.read? type cell = some w := by
  cases cell with
  | text s => exact absurd rfl (h s)
  | null => exact ⟨.null, rfl⟩
  | int n => cases type <;> exact ⟨_, rfl⟩
  | real x => cases type <;> exact ⟨_, rfl⟩

/-- A text that a column of numbers makes a number of is read as well as the text itself. -/
theorem exists_read?_stored
    {type : ColumnType} {s : String}
    (h : ∃ w, Binding.read? type (.text s) = some w) :
    ∃ w, Binding.read? type ((Cell.text s).stored .numeric) = some w := by
  unfold Cell.stored
  dsimp only
  cases hnumber : Cell.number? s with
  | none => exact h
  | some number =>
      apply exists_read?_of_ne_text
      intro t
      rcases Cell.number?_eq_some hnumber with ⟨n, rfl⟩ | ⟨x, rfl, _⟩
      · exact Cell.noConfusion
      · dsimp only
        unfold Cell.integral
        split
        · split <;> exact Cell.noConfusion
        · exact Cell.noConfusion

theorem read?_date (d : Date) : Binding.read? .date (.text d.text) = some (.date d) := by
  unfold Binding.read?
  dsimp only
  rw [Moment.date?_text, Option.map_some]

/-- A stored timestamp has lost its offset. -/
theorem read?_timestamp (t : Timestamp) :
    Binding.read? .timestamp (.text t.storedText) = some (.timestamp { t with offset := none }) := by
  unfold Binding.read?
  dsimp only
  rw [Moment.timestamp?_storedText, Option.map_some]

theorem read?_uuid (u : Uuid) : Binding.read? .uuid (.text u.compactText) = some (.uuid u) := by
  unfold Binding.read?
  dsimp only
  rw [Uuid.ofChars?_compactText, Option.map_some]

/-- Dates, timestamps and identifiers are bound to texts that are read as such again. -/
theorem null_or_text_of_bind
    {type : ColumnType} {v : Value} {cell : Cell}
    (htype : type = .date ∨ type = .timestamp ∨ type = .uuid)
    (hbind : Binding.bind type v = .ok cell) :
    cell = .null ∨ ∃ s, cell = .text s ∧ ∃ w, Binding.read? type (.text s) = some w := by
  rcases htype with rfl | rfl | rfl
  · cases v with
    | null => exact Or.inl (Except.ok.inj hbind).symm
    | date d => exact Or.inr ⟨_, (Except.ok.inj hbind).symm, _, read?_date d⟩
    | timestamp t => exact Or.inr ⟨_, (Except.ok.inj hbind).symm, _, read?_date t.date⟩
    | _ => cases hbind
  · cases v with
    | null => exact Or.inl (Except.ok.inj hbind).symm
    | date d => exact Or.inr ⟨_, (Except.ok.inj hbind).symm, _, read?_timestamp (.midnight d)⟩
    | timestamp t => exact Or.inr ⟨_, (Except.ok.inj hbind).symm, _, read?_timestamp t⟩
    | _ => cases hbind
  · cases v with
    | null => exact Or.inl (Except.ok.inj hbind).symm
    | uuid u => exact Or.inr ⟨_, (Except.ok.inj hbind).symm, _, read?_uuid u⟩
    | _ => cases hbind

/-- A stored cell is read by the type that stored it, but for a name outside an enumeration. -/
theorem exists_read?_stored_iff
    {type : ColumnType} {v : Value} {cell : Cell}
    (hbind : Binding.bind type v = .ok cell) :
    (∃ w, Binding.read? type (cell.stored type.affinity) = some w) ↔
      ∀ names s, type = .enumeration names → v = .text s → s ∈ names := by
  cases type with
  | enumeration names =>
      cases v with
      | null =>
          cases hbind
          exact iff_of_true ⟨.null, rfl⟩ (fun _ _ _ h => by cases h)
      | text s =>
          cases hbind
          unfold Binding.read?
          by_cases hs : s ∈ names <;> simp [hs, Cell.stored, ColumnType.affinity]
      | _ => cases hbind
  | date =>
      refine iff_of_true ?_ fun _ _ h => by cases h
      rcases null_or_text_of_bind (.inl rfl) hbind with rfl | ⟨s, rfl, hread⟩
      · exact ⟨.null, rfl⟩
      · exact exists_read?_stored hread
  | timestamp =>
      refine iff_of_true ?_ fun _ _ h => by cases h
      rcases null_or_text_of_bind (.inr (.inl rfl)) hbind with rfl | ⟨s, rfl, hread⟩
      · exact ⟨.null, rfl⟩
      · exact exists_read?_stored hread
  | uuid =>
      refine iff_of_true ?_ fun _ _ h => by cases h
      rcases null_or_text_of_bind (.inr (.inr rfl)) hbind with rfl | ⟨s, rfl, hread⟩
      · exact ⟨.null, rfl⟩
      · exact hread
  | _ =>
      refine iff_of_true ?_ fun _ _ h => by cases h
      generalize cell.stored _ = stored
      cases stored <;> exact ⟨_, rfl⟩

/-- What a column stores it can read, unless it was misnamed. -/
theorem exists_read?_iff
    {column : Column} {v : Value} {cell : Cell}
    (hbind : Binding.bind column.type v = .ok cell) :
    (∃ w, Binding.read? column.type (storedCell column v) = some w) ↔ ¬ column.Misnames v := by
  unfold storedCell
  rw [boundCell_of_bind hbind, exists_read?_stored_iff hbind]
  unfold Column.Misnames
  constructor
  · rintro h ⟨names, s, htype, hv, hs⟩
    exact hs (h names s htype hv)
  · intro h names s htype hv
    by_contra hs
    exact h ⟨names, s, htype, hv, hs⟩

end Storage

end RecordApi
