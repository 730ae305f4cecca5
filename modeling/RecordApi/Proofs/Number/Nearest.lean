import RecordApi.Proofs.Number.Values

/-!
# The nearest magnitude

The interval of a rank holds the numbers to which no other magnitude is nearer.  Where two
magnitudes are equally near, the number belongs to the interval of the even rank.
-/

namespace RecordApi
namespace Binary64

variable {n d rank r s : ℕ} {q v w : ℚ}

/-- No magnitude is nearer to a number than that of a rank, which is even if another is as near. -/
structure IsNearest (q : ℚ) (rank : ℕ) : Prop where
  nearest : ∀ r, |q - rankValue rank| ≤ |q - rankValue r|
  even_of_tie : ∀ r, r ≠ rank → |q - rankValue r| = |q - rankValue rank| → rank % 2 = 0

theorem rankValue_strictMono : StrictMono rankValue := by
  intro r s hlt
  unfold rankValue
  exact div_lt_div_of_pos_right (Nat.cast_lt.mpr (units_strictMono hlt)) cast_unitsPerOne_pos

/-! ## Beside the middle of two magnitudes -/

theorem middle_le_iff
    (hd : 0 < d) :
    rankValue r + rankValue s ≤ 2 * ((n : ℚ) / d) ↔
      (units r + units s) * d ≤ 2 * (n * unitsPerOne) := by
  have hpos : (0 : ℚ) < d := Nat.cast_pos.mpr hd
  unfold rankValue
  rw [← add_div, ← mul_div_assoc, div_le_div_iff₀ cast_unitsPerOne_pos hpos, ← Nat.cast_add,
    mul_assoc]
  exact_mod_cast Iff.rfl

theorem le_middle_iff
    (hd : 0 < d) :
    2 * ((n : ℚ) / d) ≤ rankValue r + rankValue s ↔
      2 * (n * unitsPerOne) ≤ (units r + units s) * d := by
  have hpos : (0 : ℚ) < d := Nat.cast_pos.mpr hd
  unfold rankValue
  rw [← add_div, ← mul_div_assoc, div_le_div_iff₀ hpos cast_unitsPerOne_pos, ← Nat.cast_add,
    mul_assoc]
  exact_mod_cast Iff.rfl

/-- Above the middle of two numbers, the upper one is the nearer. -/
theorem abs_sub_of_middle_le
    (hle : v ≤ w) (hmiddle : v + w ≤ 2 * q) :
    |q - w| ≤ |q - v| ∧ (v < w → v + w < 2 * q → |q - w| < |q - v|) := by
  rw [abs_of_nonneg (show 0 ≤ q - v by linarith)]
  refine ⟨abs_le.mpr ⟨by linarith, by linarith⟩, fun hlt hless => ?_⟩
  exact abs_lt.mpr ⟨by linarith, by linarith⟩

/-- Below the middle of two numbers, the lower one is the nearer. -/
theorem abs_sub_of_le_middle
    (hle : v ≤ w) (hmiddle : 2 * q ≤ v + w) :
    |q - v| ≤ |q - w| ∧ (v < w → 2 * q < v + w → |q - v| < |q - w|) := by
  rw [abs_sub_comm q w, abs_of_nonneg (show 0 ≤ w - q by linarith)]
  refine ⟨abs_le.mpr ⟨by linarith, by linarith⟩, fun hlt hless => ?_⟩
  exact abs_lt.mpr ⟨by linarith, by linarith⟩

/-! ## Intervals of ranks -/

/-- The other rank is farther, or as far where the rank is even. -/
theorem Nearest.abs_sub_le
    (h : Nearest (n * unitsPerOne) d rank) (hd : 0 < d) (hne : r ≠ rank) :
    |(n : ℚ) / d - rankValue rank| ≤ |(n : ℚ) / d - rankValue r| ∧
      (rank % 2 = 1 → |(n : ℚ) / d - rankValue rank| < |(n : ℚ) / d - rankValue r|) := by
  -- a rank that is no neighbour is farther than the neighbour on its side
  rcases Nat.lt_or_gt_of_ne hne with hbelow | habove
  · have hprevious : rankValue r ≤ rankValue (rank - 1) :=
      rankValue_strictMono.monotone (Nat.le_sub_one_of_lt hbelow)
    have hmiddle := (middle_le_iff hd).mpr h.above
    rcases abs_sub_of_middle_le (rankValue_strictMono hbelow).le
      (show rankValue r + rankValue rank ≤ 2 * ((n : ℚ) / d) by linarith) with ⟨hle, hlt⟩
    refine ⟨hle, fun hodd => hlt (rankValue_strictMono hbelow) ?_⟩
    have hstrict := mt (le_middle_iff hd).mp (Nat.not_le_of_lt (h.strict hodd).1)
    linarith
  · have hnext : rankValue (rank + 1) ≤ rankValue r := rankValue_strictMono.monotone habove
    have hmiddle := (le_middle_iff hd).mpr h.below
    rcases abs_sub_of_le_middle (rankValue_strictMono habove).le
      (show 2 * ((n : ℚ) / d) ≤ rankValue rank + rankValue r by linarith) with ⟨hle, hlt⟩
    refine ⟨hle, fun hodd => hlt (rankValue_strictMono habove) ?_⟩
    have hstrict := mt (middle_le_iff hd).mp (Nat.not_le_of_lt (h.strict hodd).2)
    linarith

theorem Nearest.isNearest
    (h : Nearest (n * unitsPerOne) d rank) (hd : 0 < d) :
    IsNearest ((n : ℚ) / d) rank where
  nearest r := by
    by_cases hr : r = rank
    · rw [hr]
    · exact (h.abs_sub_le hd hr).1
  even_of_tie r hr htie := by
    by_contra hodd
    exact ((h.abs_sub_le hd hr).2 (by omega)).ne htie.symm

end Binary64
end RecordApi
