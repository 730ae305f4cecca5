import RecordApi.Calendar.Timestamp
import RecordApi.Proofs.Calendar.Days

/-!
# Instants and universal time

The microseconds of the calendar are those from the start of the first date to the end of the last.
A clock shows each of them once, and later ones later.  A timestamp is moved to universal time
unless its instant lies outside of the calendar, and the moved timestamp shows the same instant.
-/

namespace RecordApi
namespace Timestamp

variable {t u : Timestamp} {micros : Int} {offset : Option Int}

/-- The microseconds of the years 1 to 9999. -/
def InCalendar (micros : Int) : Prop :=
  Date.first.ordinal * dayMicros ≤ micros ∧ micros < (Date.last.ordinal + 1) * dayMicros

instance (micros : Int) : Decidable (InCalendar micros) :=
  inferInstanceAs (Decidable (_ ∧ _))

/-- The date and the time of day that a clock shows; the date decides first. -/
def reading (t : Timestamp) : (ℕ ×ₗ ℕ ×ₗ ℕ) ×ₗ ℕ :=
  toLex (t.date.civil, t.clock.val)

/-! ## Clocks -/

theorem localMicros_ediv (t : Timestamp) : t.localMicros / dayMicros = t.date.ordinal := by
  have hclock : (t.clock.val : Int) < dayMicros := by exact_mod_cast t.clock.isLt
  unfold localMicros
  unfold dayMicros at *
  omega

theorem localMicros_emod (t : Timestamp) : t.localMicros % dayMicros = t.clock.val := by
  have hclock : (t.clock.val : Int) < dayMicros := by exact_mod_cast t.clock.isLt
  unfold localMicros
  unfold dayMicros at *
  omega

theorem inCalendar_localMicros (t : Timestamp) : InCalendar t.localMicros := by
  have hday := t.localMicros_ediv
  have hbounds := t.date.ordinal_bounds
  unfold InCalendar
  unfold dayMicros at *
  omega

/-- The timestamp that shows given microseconds is found, and no other. -/
theorem ofLocalMicros?_eq_some_iff :
    ofLocalMicros? micros offset = some t ↔ t.localMicros = micros ∧ t.offset = offset := by
  unfold ofLocalMicros?
  constructor
  · intro h
    rcases Option.map_eq_some_iff.mp h with ⟨date, hdate, rfl⟩
    have hordinal := Date.ofOrdinal?_eq_some_iff.mp hdate
    refine ⟨?_, rfl⟩
    unfold localMicros
    dsimp only
    rw [hordinal]
    unfold dayMicros
    omega
  · rintro ⟨rfl, rfl⟩
    rw [localMicros_ediv, Date.ofOrdinal?_eq_some_iff.mpr rfl, Option.map_some]
    rcases t with ⟨date, clock, offset⟩
    congr
    exact congrArg Int.toNat (localMicros_emod ⟨date, clock, offset⟩)

theorem ofLocalMicros?_eq_none_iff :
    ofLocalMicros? micros offset = none ↔ ¬ InCalendar micros := by
  unfold ofLocalMicros? InCalendar
  rw [Option.map_eq_none_iff, Date.ofOrdinal?_eq_none_iff]
  unfold dayMicros
  omega

/-- A later clock shows more microseconds. -/
theorem reading_lt_iff : t.reading < u.reading ↔ t.localMicros < u.localMicros := by
  have hday := t.localMicros_ediv
  have hclock := t.localMicros_emod
  have hday' := u.localMicros_ediv
  have hclock' := u.localMicros_emod
  unfold reading
  -- the date and the time of day are the digits of the microseconds, the date being the leading one
  rw [Prod.Lex.toLex_lt_toLex, ← Date.ordinal_lt_iff, Date.civil_injective.eq_iff,
    ← Date.ordinal_injective.eq_iff]
  unfold dayMicros at *
  omega

theorem eq_of_localMicros
    (hmicros : t.localMicros = u.localMicros) (hoffset : t.offset = u.offset) :
    t = u := by
  have hu : ofLocalMicros? u.localMicros u.offset = some u :=
    ofLocalMicros?_eq_some_iff.mpr ⟨rfl, rfl⟩
  rw [ofLocalMicros?_eq_some_iff.mpr ⟨hmicros, hoffset⟩] at hu
  exact Option.some.inj hu

/-! ## Universal time -/

theorem instant_of_none (h : t.offset = none) : t.instant = t.localMicros := by
  unfold instant
  rw [h]
  exact Int.sub_zero _

theorem instant_of_zero (h : t.offset = some 0) : t.instant = t.localMicros := by
  unfold instant
  rw [h]
  exact Int.sub_zero _

theorem toUniversal?_of_none (h : t.offset = none) : t.toUniversal? = some t := by
  unfold toUniversal?
  rw [h]

/-- A timestamp with an offset is moved to the one of universal time that shows its instant. -/
theorem toUniversal?_eq_some_iff
    (h : t.offset ≠ none) :
    t.toUniversal? = some u ↔ u.localMicros = t.instant ∧ u.offset = some 0 := by
  unfold toUniversal?
  split
  · rename_i hnone
    exact absurd hnone h
  · rename_i hzero
    rw [instant_of_zero hzero, Option.some_inj]
    constructor
    · rintro rfl
      exact ⟨rfl, hzero⟩
    · rintro ⟨hmicros, hoffset⟩
      exact eq_of_localMicros hmicros.symm (hzero.trans hoffset.symm)
  · exact ofLocalMicros?_eq_some_iff

theorem toUniversal?_eq_none_iff (t : Timestamp) :
    t.toUniversal? = none ↔ ¬ InCalendar t.instant := by
  unfold toUniversal?
  split
  · rename_i hnone
    rw [instant_of_none hnone]
    exact iff_of_false (Option.some_ne_none t) (not_not_intro t.inCalendar_localMicros)
  · rename_i hzero
    rw [instant_of_zero hzero]
    exact iff_of_false (Option.some_ne_none t) (not_not_intro t.inCalendar_localMicros)
  · exact ofLocalMicros?_eq_none_iff

end Timestamp
end RecordApi
