import Mathlib.Algebra.BigOperators.Group.List.Basic
import Mathlib.Data.Prod.Lex
import Mathlib.Order.Monotone.Basic
import RecordApi.Calendar.Date

/-!
# The days of the calendar

The ordinals of the dates are the numbers from 1 to 3652059, in the order of the dates, and each
date is found again from its ordinal.
-/

namespace RecordApi

namespace Calendar

variable {year month fuel rest : Nat}

/-! ## Years -/

def daysInYear (year : Nat) : Nat :=
  if isLeap year then 366 else 365

theorem isLeap_iff (year : Nat) :
    isLeap year = true ↔ 4 ∣ year ∧ (¬ 100 ∣ year ∨ 400 ∣ year) := by
  unfold isLeap
  simp only [Bool.and_eq_true, Bool.or_eq_true, beq_iff_eq, bne_iff_ne, Nat.dvd_iff_mod_eq_zero,
    ne_eq]

theorem daysBeforeYear_succ
    (h : 1 ≤ year) :
    daysBeforeYear (year + 1) = daysBeforeYear year + daysInYear year := by
  rcases Nat.exists_eq_add_of_le' h with ⟨past, rfl⟩
  have hfewer : past / 100 ≤ past / 4 := Nat.div_le_div_left (by decide) (by decide)
  have hcentury : 100 ∣ past + 1 → 4 ∣ past + 1 := Nat.dvd_trans (by decide)
  have hcycle : 400 ∣ past + 1 → 100 ∣ past + 1 := Nat.dvd_trans (by decide)
  unfold daysBeforeYear daysInYear
  -- each quotient grows by one exactly when the year is a multiple
  simp only [isLeap_iff, Nat.add_sub_cancel, Nat.succ_div]
  generalize past / 4 = fours at *
  generalize past / 100 = centuries at *
  generalize past / 400 = cycles
  by_cases h4 : 4 ∣ past + 1
  · by_cases h100 : 100 ∣ past + 1
    · by_cases h400 : 400 ∣ past + 1
      · simp only [h4, h100, h400, not_true_eq_false, or_true, and_self, if_true]
        omega
      · simp only [h4, h100, h400, not_true_eq_false, or_false, and_false, if_true, if_false]
        omega
    · have h400 : ¬ 400 ∣ past + 1 := fun hdvd => h100 (hcycle hdvd)
      simp only [h4, h100, h400, not_false_eq_true, or_false, and_self, if_true, if_false]
      omega
  · have h100 : ¬ 100 ∣ past + 1 := fun hdvd => h4 (hcentury hdvd)
    have h400 : ¬ 400 ∣ past + 1 := fun hdvd => h100 (hcycle hdvd)
    simp only [h4, h100, h400, false_and, if_false]
    omega

theorem daysBeforeYear_mono : Monotone daysBeforeYear :=
  monotone_nat_of_le_succ fun year => by
    cases year with
    | zero => exact Nat.le_refl _
    | succ past =>
        rw [daysBeforeYear_succ (Nat.le_add_left 1 past)]
        exact Nat.le_add_right _ _

/-- The days before a year, counted in the cycles of the calendar: four centuries, centuries, four
years and years. -/
theorem daysBeforeYear_cycles
    {cycles centuries leaps years : Nat}
    (hcenturies : centuries ≤ 3) (hleaps : leaps ≤ 24) (hyears : years ≤ 3) :
    daysBeforeYear (400 * cycles + 100 * centuries + 4 * leaps + years + 1) =
      146097 * cycles + 36524 * centuries + 1461 * leaps + 365 * years := by
  unfold daysBeforeYear
  dsimp only
  omega

/-- A day falls into the year that is found for it. -/
theorem yearOfDay_spec (n : Nat) :
    1 ≤ Date.yearOfDay n ∧ daysBeforeYear (Date.yearOfDay n) ≤ n ∧
      n < daysBeforeYear (Date.yearOfDay n + 1) := by
  unfold Date.yearOfDay
  dsimp only
  generalize hcycles : n / 146097 = cycles
  generalize hcenturies : min (n % 146097 / 36524) 3 = centuries
  generalize hleaps : (n % 146097 - centuries * 36524) / 1461 = leaps
  generalize hyears : min ((n % 146097 - centuries * 36524) % 1461 / 365) 3 = years
  have hcount := @daysBeforeYear_cycles cycles centuries leaps years (by omega) (by omega)
    (by omega)
  refine ⟨by omega, by omega, ?_⟩
  rw [daysBeforeYear_succ (by omega), hcount]
  unfold daysInYear
  split
  · omega
  · -- the last day of four years or four centuries would be a day too many in a common year
    rename_i hleap
    rw [isLeap_iff] at hleap
    omega

/-! ## Months -/

theorem daysBeforeMonth_succ
    (h : 1 ≤ month) :
    daysBeforeMonth year (month + 1) = daysBeforeMonth year month + daysInMonth year month := by
  have hsum (m : Nat) :
      daysBeforeMonth year m = ((List.range (m - 1)).map fun k => daysInMonth year (k + 1)).sum := by
    unfold daysBeforeMonth
    rw [List.sum_eq_foldr, List.foldr_map]
  rcases Nat.exists_eq_add_of_le' h with ⟨past, rfl⟩
  rw [hsum, hsum, Nat.add_sub_cancel, Nat.add_sub_cancel, List.range_succ, List.map_append,
    List.sum_append, List.map_singleton, List.sum_singleton]

theorem daysBeforeMonth_mono (year : Nat) : Monotone (daysBeforeMonth year) :=
  monotone_nat_of_le_succ fun month => by
    cases month with
    | zero => exact Nat.le_refl _
    | succ past =>
        rw [daysBeforeMonth_succ (Nat.le_add_left 1 past)]
        exact Nat.le_add_right _ _

/-- Twelve months make a year. -/
theorem daysBeforeMonth_end (year : Nat) : daysBeforeMonth year 13 = daysInYear year := by
  have hsum : daysBeforeMonth year 13 =
      31 + ((if isLeap year then 29 else 28) + (31 + (30 + (31 + (30 + (31 + (31 + (30 + (31 +
        (30 + (31 + 0))))))))))) := rfl
  rw [hsum]
  unfold daysInYear
  split <;> rfl

/-- The month and the day are found by induction on the months that are left. -/
theorem monthAndDay_spec
    (hmonth : 1 ≤ month) (hfuel : month + fuel = 12)
    (hrest : daysBeforeMonth year month + rest < daysInYear year) :
    ∃ m day, Date.monthAndDay year fuel month rest = (m, day) ∧ month ≤ m ∧ m ≤ 12 ∧
      1 ≤ day ∧ day ≤ daysInMonth year m ∧
      daysBeforeMonth year m + day = daysBeforeMonth year month + rest + 1 := by
  induction fuel generalizing month rest with
  | zero =>
      have hlast : month = 12 := by omega
      subst hlast
      rw [← daysBeforeMonth_end, daysBeforeMonth_succ hmonth] at hrest
      exact ⟨12, rest + 1, rfl, by omega, by omega, by omega, by omega, by omega⟩
  | succ fuel ih =>
      unfold Date.monthAndDay
      dsimp only
      split
      · exact ⟨month, rest + 1, rfl, by omega, by omega, by omega, by omega, by omega⟩
      · have hnext : daysBeforeMonth year (month + 1) + (rest - daysInMonth year month) =
            daysBeforeMonth year month + rest := by
          rw [daysBeforeMonth_succ hmonth]
          omega
        rcases @ih (month + 1) (rest - daysInMonth year month) (by omega) (by omega) (by omega) with
          ⟨m, day, hfound, hm, hm', hday, hday', hcount⟩
        exact ⟨m, day, hfound, by omega, hm', hday, hday', by omega⟩

end Calendar

open Calendar

namespace Date

variable {date other : Date} {n : Int}

/-! ## The order of the dates -/

/-- The first and the last date of the calendar. -/
def first : Date := ⟨1, 1, 1, by decide⟩

def last : Date := ⟨9999, 12, 31, by decide⟩

/-- The year, the month and the day, of which the first that differs decides. -/
def civil (date : Date) : ℕ ×ₗ ℕ ×ₗ ℕ :=
  toLex (date.year, toLex (date.month, date.day))

theorem civil_injective : Function.Injective civil := by
  rintro ⟨year, month, day, _⟩ ⟨year', month', day', _⟩ heq
  cases heq
  rfl

theorem civil_lt_iff :
    date.civil < other.civil ↔ date.year < other.year ∨
      date.year = other.year ∧ (date.month < other.month ∨
        date.month = other.month ∧ date.day < other.day) := by
  unfold civil
  rw [Prod.Lex.toLex_lt_toLex, Prod.Lex.toLex_lt_toLex]

/-- A date falls into its year. -/
theorem ordinal_le (date : Date) : date.ordinal ≤ daysBeforeYear (date.year + 1) := by
  rcases date with ⟨year, month, day, hyear, _, hmonth, hmonth', _, hday⟩
  have hend := daysBeforeMonth_mono year (show month + 1 ≤ 13 by omega)
  rw [daysBeforeMonth_end, daysBeforeMonth_succ hmonth] at hend
  rw [daysBeforeYear_succ hyear]
  unfold ordinal
  dsimp only
  omega

theorem ordinal_lt_of_civil_lt
    (h : date.civil < other.civil) :
    date.ordinal < other.ordinal := by
  have hday := other.exists_day.2.2.2.2.1
  rcases civil_lt_iff.mp h with hyear | ⟨hyear, hmonth | ⟨hmonth, hday⟩⟩
  · have hbefore : daysBeforeYear (date.year + 1) ≤ daysBeforeYear other.year :=
      daysBeforeYear_mono hyear
    have hle := date.ordinal_le
    have hother : daysBeforeYear other.year < other.ordinal := by
      unfold ordinal
      omega
    omega
  · have hend := date.exists_day.2.2.2.2.2
    have hbefore :
        daysBeforeMonth date.year (date.month + 1) ≤ daysBeforeMonth date.year other.month :=
      daysBeforeMonth_mono date.year hmonth
    rw [daysBeforeMonth_succ date.exists_day.2.2.1] at hbefore
    unfold ordinal
    rw [← hyear]
    omega
  · unfold ordinal
    rw [hyear, hmonth]
    omega

theorem ordinal_lt_iff : date.ordinal < other.ordinal ↔ date.civil < other.civil := by
  refine ⟨fun h => ?_, ordinal_lt_of_civil_lt⟩
  by_contra hnot
  rcases (not_lt.mp hnot).eq_or_lt with heq | hlt
  · rw [civil_injective heq] at h
    exact Nat.lt_irrefl _ h
  · exact Nat.lt_asymm h (ordinal_lt_of_civil_lt hlt)

theorem ordinal_injective : Function.Injective ordinal := by
  intro date other heq
  apply civil_injective
  apply le_antisymm
  · exact not_lt.mp fun hlt => (ordinal_lt_of_civil_lt hlt).ne heq.symm
  · exact not_lt.mp fun hlt => (ordinal_lt_of_civil_lt hlt).ne heq

theorem daysBeforeYear_end : daysBeforeYear 10000 = last.ordinal := by decide

theorem ordinal_bounds (date : Date) :
    first.ordinal ≤ date.ordinal ∧ date.ordinal ≤ last.ordinal := by
  have hday := date.exists_day.2.2.2.2.1
  constructor
  · show 1 ≤ date.ordinal
    unfold ordinal
    omega
  · have hyear : daysBeforeYear (date.year + 1) ≤ daysBeforeYear 10000 :=
      daysBeforeYear_mono (Nat.succ_le_succ date.exists_day.2.1)
    rw [daysBeforeYear_end] at hyear
    exact Nat.le_trans date.ordinal_le hyear

/-! ## Dates from ordinals -/

/-- A positive ordinal is counted out to a year, a month and a day.  The year may lie behind the
calendar. -/
theorem ofOrdinal?_eq_ofCivil?
    (h : 1 ≤ n) :
    ∃ year month day, ofOrdinal? n = ofCivil? year month day ∧ 1 ≤ year ∧ 1 ≤ month ∧ month ≤ 12 ∧
      1 ≤ day ∧ day ≤ daysInMonth year month ∧
      (daysBeforeYear year + daysBeforeMonth year month + day : Nat) = n := by
  rcases yearOfDay_spec (n.toNat - 1) with ⟨hyear, hbefore, hbehind⟩
  generalize hfound : yearOfDay (n.toNat - 1) = year at hyear hbefore hbehind
  have hnone : daysBeforeMonth year 1 = 0 := rfl
  rw [daysBeforeYear_succ hyear] at hbehind
  rcases @monthAndDay_spec year 1 11 (n.toNat - 1 - daysBeforeYear year) (by omega) (by omega)
      (by omega) with
    ⟨month, day, hmonthAndDay, hmonth, hmonth', hday, hday', hcount⟩
  refine ⟨year, month, day, ?_, hyear, hmonth, hmonth', hday, hday', by omega⟩
  unfold ofOrdinal?
  rw [if_neg (by omega)]
  dsimp only
  rw [hfound, hmonthAndDay]

theorem ordinal_of_ofOrdinal?
    (h : ofOrdinal? n = some date) :
    (date.ordinal : Int) = n := by
  have hpos : 1 ≤ n := by
    by_contra hnot
    unfold ofOrdinal? at h
    rw [if_pos (by omega)] at h
    cases h
  rcases ofOrdinal?_eq_ofCivil? hpos with ⟨year, month, day, heq, _, _, _, _, _, hcount⟩
  rw [heq] at h
  unfold ofCivil? at h
  split at h
  · cases h
    exact hcount
  · cases h

theorem exists_of_ordinal
    (hfirst : first.ordinal ≤ n) (hlast : n ≤ last.ordinal) :
    ∃ date, ofOrdinal? n = some date := by
  have hone : first.ordinal = 1 := rfl
  rcases ofOrdinal?_eq_ofCivil? (n := n) (by omega) with
    ⟨year, month, day, heq, hyear, hmonth, hmonth', hday, hday', hcount⟩
  have hyear' : year ≤ 9999 := by
    by_contra hnot
    have hbefore : daysBeforeYear 10000 ≤ daysBeforeYear year := daysBeforeYear_mono (by omega)
    rw [daysBeforeYear_end] at hbefore
    omega
  have hexists : Calendar.Exists year month day := ⟨hyear, hyear', hmonth, hmonth', hday, hday'⟩
  exact ⟨⟨year, month, day, hexists⟩, heq.trans (dif_pos hexists)⟩

/-- The date with a given ordinal is found, and no other. -/
theorem ofOrdinal?_eq_some_iff : ofOrdinal? n = some date ↔ (date.ordinal : Int) = n := by
  refine ⟨ordinal_of_ofOrdinal?, fun h => ?_⟩
  have hbounds := date.ordinal_bounds
  rcases exists_of_ordinal (n := n) (by omega) (by omega) with ⟨found, hfound⟩
  have hsame := ordinal_of_ofOrdinal? hfound
  rw [← h, Int.natCast_inj] at hsame
  rw [hfound, ordinal_injective hsame]

theorem ofOrdinal?_eq_none_iff :
    ofOrdinal? n = none ↔ n < first.ordinal ∨ last.ordinal < n := by
  constructor
  · intro hnone
    by_contra hnot
    rcases exists_of_ordinal (n := n) (by omega) (by omega) with ⟨date, hdate⟩
    rw [hnone] at hdate
    cases hdate
  · intro hout
    rw [Option.eq_none_iff_forall_ne_some]
    intro date hdate
    have hbounds := date.ordinal_bounds
    have hordinal := ordinal_of_ofOrdinal? hdate
    omega

end Date
end RecordApi
