import RecordApi.Number.Decimal
import RecordApi.Proofs.Number.Numerals

/-!
# Shortest digits read back

A decimal number that lies in the interval of a rank is rounded to this rank.  The search for the
shortest digits only stops at such a number, and it does stop: seventeen digits are finer than the
distance between two neighbours.
-/

namespace RecordApi
namespace Binary64

/-! ## Numbers of an interval -/

/-- The number `coefficient · 10 ^ exponent` lies in the interval of a rank. -/
def Stands (coefficient : Nat) (exponent : Int) (rank : Nat) : Prop :=
  Nearest (coefficient * tenTo exponent.toNat * unitsPerOne) (tenTo (-exponent).toNat) rank

/-- The two powers of ten of neighbouring exponents. -/
theorem tenTo_next (exponent : Int) :
    tenTo (exponent + 1).toNat * tenTo (-exponent).toNat =
      10 * tenTo exponent.toNat * tenTo (-(exponent + 1)).toNat := by
  rw [Nat.mul_comm 10, ← tenTo_succ, ← tenTo_add, ← tenTo_add]
  congr 1
  omega

theorem stands_succ_iff {c : Nat} {e : Int} {rank : Nat} :
    Stands c (e + 1) rank ↔ Stands (10 * c) e rank := by
  have hnext := tenTo_next e
  unfold Stands
  rw [← roundUnits_eq_iff (tenTo_pos _), ← roundUnits_eq_iff (tenTo_pos _)]
  have hsame : c * tenTo (e + 1).toNat * unitsPerOne * tenTo (-e).toNat =
      10 * c * tenTo e.toNat * unitsPerOne * tenTo (-(e + 1)).toNat := by
    calc c * tenTo (e + 1).toNat * unitsPerOne * tenTo (-e).toNat
        = c * unitsPerOne * (tenTo (e + 1).toNat * tenTo (-e).toNat) := by ring
      _ = c * unitsPerOne * (10 * tenTo e.toNat * tenTo (-(e + 1)).toNat) := by rw [hnext]
      _ = 10 * c * tenTo e.toNat * unitsPerOne * tenTo (-(e + 1)).toNat := by ring
  rw [roundUnits_congr hsame (tenTo_pos _) (tenTo_pos _)]

/-- Numerals of one value stand for the same ranks. -/
theorem stands_iff_of_value
    {c k : Nat} {e : Int} {rank : Nat}
    (h : c * tenTo e.toNat = k * tenTo (-e).toNat) :
    Stands c e rank ↔ Stands k 0 rank := by
  have hsame : c * tenTo e.toNat * unitsPerOne * tenTo (-0 : Int).toNat =
      k * tenTo (0 : Int).toNat * unitsPerOne * tenTo (-e).toNat := by
    have hone : tenTo (0 : Int).toNat = 1 := rfl
    rw [h, Int.neg_zero, hone]
    ring
  unfold Stands
  rw [← roundUnits_eq_iff (tenTo_pos _), ← roundUnits_eq_iff (tenTo_pos _),
    roundUnits_congr hsame (tenTo_pos _) (tenTo_pos _)]

theorem stands_whole_iff
    {c : Nat} {e : Int} {rank : Nat}
    (he : 0 ≤ e) :
    Stands c e rank ↔ Stands (c * tenTo e.toNat) 0 rank := by
  have hzero : (-e).toNat = 0 := by omega
  apply stands_iff_of_value
  rw [hzero]
  exact (Nat.mul_one _).symm

theorem Stands.pos
    {c : Nat} {e : Int} {rank : Nat}
    (h : Stands c e rank) (hrank : 0 < rank) :
    0 < c := by
  rcases Nat.eq_zero_or_pos c with hzero | hpos
  · have habove := h.above
    have hunits : 0 < units rank := units_strictMono hrank
    rw [hzero, Nat.zero_mul, Nat.zero_mul, Nat.mul_zero] at habove
    have := Nat.mul_pos (Nat.add_pos_right (units (rank - 1)) hunits) (tenTo_pos (-e).toNat)
    omega
  · exact hpos

/-- Numerals of finite numbers have few digits before the point. -/
theorem Stands.digits_le
    {c : Nat} {e : Int} {rank : Nat}
    (h : Stands c e rank) (hlimit : rank < rankLimit) (hc : 0 < c) :
    (Numeral.digitCount c : Int) + e ≤ 310 := by
  by_contra hlong
  generalize hcount : Numeral.digitCount c = count at hlong
  have hone : 1 ≤ count := by
    rw [← hcount]
    exact Numeral.digitCount_pos hc
  have hdigits : tenTo (count - 1) ≤ c := by
    by_contra hless
    have := Numeral.digitCount_le_iff.mpr (Nat.lt_of_not_le hless)
    omega
  have hbound : units rank + units (rank + 1) ≤ 2 * units rankLimit := by
    have hfirst := units_strictMono.monotone (Nat.le_of_lt hlimit)
    have hnext := units_strictMono.monotone (Nat.succ_le_of_lt hlimit)
    rw [Nat.succ_eq_add_one] at hnext
    omega
  have hpower : units rankLimit < tenTo 310 * unitsPerOne := by decide +kernel
  have hlarge : tenTo 310 * tenTo (-e).toNat ≤ c * tenTo e.toNat := by
    calc tenTo 310 * tenTo (-e).toNat = tenTo (310 + (-e).toNat) := (tenTo_add _ _).symm
      _ ≤ tenTo (count - 1 + e.toNat) := tenTo_mono (by omega)
      _ = tenTo (count - 1) * tenTo e.toNat := tenTo_add _ _
      _ ≤ c * tenTo e.toNat := Nat.mul_le_mul_right _ hdigits
  have hbelow := h.below
  have hscaled := Nat.mul_le_mul_right unitsPerOne hlarge
  have hupper := Nat.mul_le_mul_right (tenTo (-e).toNat) hbound
  have hless := Nat.mul_lt_mul_of_pos_right hpower (tenTo_pos (-e).toNat)
  have hleft : 2 * units rankLimit * tenTo (-e).toNat =
      2 * (units rankLimit * tenTo (-e).toNat) := Nat.mul_assoc _ _ _
  have hright : tenTo 310 * unitsPerOne * tenTo (-e).toNat =
      tenTo 310 * tenTo (-e).toNat * unitsPerOne := by ring
  omega

/-- Numerals of positive numbers have few zeros behind the point. -/
theorem Stands.le_digits
    {c : Nat} {e : Int} {rank : Nat}
    (h : Stands c e rank) (hrank : 0 < rank) :
    -330 ≤ (Numeral.digitCount c : Int) + e := by
  by_contra hshort
  have hdigits : c < tenTo (Numeral.digitCount c) := Numeral.digitCount_le_iff.mp (Nat.le_refl _)
  generalize Numeral.digitCount c = count at hshort hdigits
  have hunits : 1 ≤ units (rank - 1) + units rank :=
    Nat.le_add_left_of_le (units_strictMono hrank)
  have habove := h.above
  have hscaled := Nat.mul_le_mul_right (tenTo (-e).toNat) hunits
  have hpower : 2 * unitsPerOne < tenTo 330 := by decide +kernel
  have hsmall : c * tenTo e.toNat * tenTo 330 < tenTo (-e).toNat := by
    calc c * tenTo e.toNat * tenTo 330
        < tenTo count * tenTo e.toNat * tenTo 330 :=
          Nat.mul_lt_mul_of_pos_right (Nat.mul_lt_mul_of_pos_right hdigits (tenTo_pos _))
            (tenTo_pos _)
      _ = tenTo (count + e.toNat + 330) := by rw [tenTo_add, tenTo_add]
      _ ≤ tenTo (-e).toNat := tenTo_mono (by omega)
  have hless := Nat.mul_le_mul_left (c * tenTo e.toNat) (Nat.le_of_lt hpower)
  have hmiddle : c * tenTo e.toNat * (2 * unitsPerOne) = 2 * (c * tenTo e.toNat * unitsPerOne) := by
    ring
  omega

/-- A numeral in the interval of a rank is read as the number of the rank.  Numerals that are decided
by their number of digits are no exception. -/
theorem ofNumeral_of_stands
    {c : Nat} {e : Int} {rank : Nat} (negative : Bool)
    (h : Stands c e rank) :
    ofNumeral ⟨negative, c, e⟩ = ofRank negative rank := by
  have hround : roundUnits (c * tenTo e.toNat * unitsPerOne) (tenTo (-e).toNat) = rank :=
    (roundUnits_eq_iff (tenTo_pos _)).mpr h
  have hone : tenTo 0 = 1 := rfl
  unfold ofNumeral
  dsimp only
  split
  · rename_i hzero
    have hnone : rank = 0 := by
      by_contra hrank
      exact Nat.lt_irrefl 0 (hzero ▸ h.pos (Nat.pos_of_ne_zero hrank))
    rw [hnone]
    rfl
  · rename_i hc
    split
    · rename_i hlong
      have hbeyond : ¬ rank < rankLimit := fun hlimit => by
        have := h.digits_le hlimit (Nat.pos_of_ne_zero hc)
        omega
      unfold ofRank
      rw [dif_neg hbeyond]
    · split
      · rename_i hshort
        have hnone : rank = 0 := by
          by_contra hrank
          have := h.le_digits (Nat.pos_of_ne_zero hrank)
          omega
        rw [hnone]
        rfl
      · rw [← hround]
        split
        · have hzero : (-e).toNat = 0 := by omega
          rw [ofRatio_eq, hzero, hone]
        · have hzero : e.toNat = 0 := by omega
          rw [ofRatio_eq, hzero, hone, Nat.mul_one]

/-- A whole number is read alike as a numeral. -/
theorem ofNumeral_whole (negative : Bool) (k : Nat) :
    ofNumeral ⟨negative, k, 0⟩ = ofRatio negative k 1 := by
  have hstands : Stands k 0 (roundUnits (k * 1 * unitsPerOne) 1) :=
    nearest_roundUnits (k * 1 * unitsPerOne) Nat.one_pos
  rw [ofNumeral_of_stands negative hstands, ofRatio_eq, Nat.mul_one]

theorem ofRank_of_lt (negative : Bool) (rank : Fin rankLimit) :
    ofRank negative rank = .finite negative rank := by
  unfold ofRank
  rw [dif_pos rank.isLt]

/-! ## Grid points -/

theorem shiftLeft_twice_unit (n : Nat) : n <<< 1075 = n * (2 * unitsPerOne) := by
  have hshift (places : Nat) : n <<< places = n * 1 <<< places := by
    rw [Nat.shiftLeft_eq, Nat.one_shiftLeft]
  have hunit : 1 <<< 1075 = 2 * unitsPerOne := by decide
  rw [hshift, hunit]

/-- The greatest point of a grid that is not above the number of a rank. -/
def gridBelow (rank : Nat) (e : Int) : Nat :=
  2 * units rank * tenTo (-e).toNat / (tenTo e.toNat * (2 * unitsPerOne))

theorem inside_iff {rank c : Nat} {e : Int} :
    (if rank % 2 = 0 then
        decide ((units rank + units (rank - 1)) * tenTo (-e).toNat ≤
            c * (tenTo e.toNat * (2 * unitsPerOne))) &&
          decide (c * (tenTo e.toNat * (2 * unitsPerOne)) ≤
            (units rank + units (rank + 1)) * tenTo (-e).toNat)
      else
        decide ((units rank + units (rank - 1)) * tenTo (-e).toNat <
            c * (tenTo e.toNat * (2 * unitsPerOne))) &&
          decide (c * (tenTo e.toNat * (2 * unitsPerOne)) <
            (units rank + units (rank + 1)) * tenTo (-e).toNat)) = true ↔ Stands c e rank := by
  have hpoint : c * (tenTo e.toNat * (2 * unitsPerOne)) = 2 * (c * tenTo e.toNat * unitsPerOne) := by
    ring
  rw [hpoint, Nat.add_comm (units rank) (units (rank - 1))]
  split
  · rename_i heven
    simp only [Bool.and_eq_true, decide_eq_true_eq]
    constructor
    · rintro ⟨habove, hbelow⟩
      exact ⟨habove, hbelow, fun hodd => by omega⟩
    · exact fun h => ⟨h.above, h.below⟩
  · rename_i hodd
    simp only [Bool.and_eq_true, decide_eq_true_eq]
    constructor
    · rintro ⟨habove, hbelow⟩
      exact ⟨Nat.le_of_lt habove, Nat.le_of_lt hbelow, fun _ => ⟨habove, hbelow⟩⟩
    · exact fun h => h.strict (by omega)

theorem stands_of_gridPoint?
    {rank c : Nat} {e : Int}
    (h : gridPoint? rank e = some c) :
    Stands c e rank := by
  unfold gridPoint? at h
  rw [shiftLeft_twice_unit] at h
  dsimp only at h
  split at h
  · cases h
  · rename_i hbelow _
    cases h
    exact inside_iff.mp hbelow
  · rename_i _ habove
    cases h
    exact inside_iff.mp habove
  · rename_i hbelow habove
    split at h
    · cases h
      exact inside_iff.mp hbelow
    · cases h
      exact inside_iff.mp habove

theorem not_stands_of_gridPoint?
    {rank : Nat} {e : Int}
    (h : gridPoint? rank e = none) :
    ¬ Stands (gridBelow rank e) e rank ∧ ¬ Stands (gridBelow rank e + 1) e rank := by
  unfold gridPoint? at h
  rw [shiftLeft_twice_unit] at h
  dsimp only at h
  split at h
  · rename_i hbelow habove
    rw [← inside_iff, ← inside_iff, Bool.not_eq_true, Bool.not_eq_true]
    exact ⟨hbelow, habove⟩
  · cases h
  · cases h
  · split at h <;> cases h

/-- A number that is a point of the grid is the point that is found. -/
theorem gridPoint?_of_exact
    {rank c : Nat} {e : Int}
    (h : 2 * units rank * tenTo (-e).toNat = c * (tenTo e.toNat * (2 * unitsPerOne))) :
    gridPoint? rank e = some c := by
  have hpos : 0 < tenTo e.toNat * (2 * unitsPerOne) :=
    Nat.mul_pos (tenTo_pos _) (Nat.mul_pos (by decide) unitsPerOne_pos)
  have hstands : Stands c e rank := by
    have hround := roundUnits_units rank (tenTo_pos (-e).toNat)
    have hpoint : units rank * tenTo (-e).toNat = c * tenTo e.toNat * unitsPerOne := by
      have htwice : 2 * (units rank * tenTo (-e).toNat) = 2 * (c * tenTo e.toNat * unitsPerOne) := by
        rw [← Nat.mul_assoc, h]
        ring
      omega
    rwa [hpoint, roundUnits_eq_iff (tenTo_pos _)] at hround
  unfold gridPoint?
  rw [shiftLeft_twice_unit]
  dsimp only
  rw [h, Nat.mul_div_cancel _ hpos]
  rw [inside_iff.mpr hstands]
  split
  · rename_i hnone _
    cases hnone
  · rfl
  · rename_i hnone _
    cases hnone
  · rw [if_pos]
    simp only [Bool.or_eq_true, decide_eq_true_eq]
    left
    rw [Nat.add_mul]
    omega

/-! ## Seventeen digits -/

theorem step_mono {r r' : Nat} (h : r ≤ r') : step r ≤ step r' :=
  Nat.pow_le_pow_right (by decide) (Nat.sub_le_sub_right (Nat.div_le_div_right h) 1)

theorem units_succ_le (rank : Nat) : units (rank + 1) ≤ 2 * binade * step rank := by
  rcases exists_coefficient rank with ⟨m, shift, hrank, hlt, hnormal, hstep⟩
  have hnext : rank + 1 = (m + 1) + shift * binade := by omega
  rw [hnext, hstep, units_add_mul (by omega) (by omega)]
  exact Nat.mul_le_mul_right _ hlt

/-- Where both neighbours on the grid miss the interval, the grid is at least as wide as it. -/
theorem width_le_of_gridPoint?
    {rank : Nat} {e : Int}
    (hpoint : gridPoint? (rank + 1) e = none) :
    (step rank + step (rank + 1)) * tenTo (-e).toNat ≤ tenTo e.toNat * (2 * unitsPerOne) := by
  rcases not_stands_of_gridPoint? hpoint with ⟨hbelow, habove⟩
  rw [← inside_iff] at hbelow habove
  have hdiv := Nat.div_add_mod (2 * units (rank + 1) * tenTo (-e).toNat)
    (tenTo e.toNat * (2 * unitsPerOne))
  have hmod := Nat.mod_lt (2 * units (rank + 1) * tenTo (-e).toNat)
    (Nat.mul_pos (tenTo_pos e.toNat) (Nat.mul_pos (by decide : 0 < 2) unitsPerOne_pos))
  unfold gridBelow at hbelow habove
  rw [Nat.mul_comm] at hdiv
  generalize 2 * units (rank + 1) * tenTo (-e).toNat /
    (tenTo e.toNat * (2 * unitsPerOne)) = below at *
  have hvalue : 2 * units (rank + 1) * tenTo (-e).toNat =
      2 * (units (rank + 1) * tenTo (-e).toNat) := Nat.mul_assoc _ _ _
  have hgrid : tenTo e.toNat * (2 * unitsPerOne) = 2 * (tenTo e.toNat * unitsPerOne) := by ring
  have hlow : (units (rank + 1) + units rank) * tenTo (-e).toNat + step rank * tenTo (-e).toNat =
      2 * (units (rank + 1) * tenTo (-e).toNat) := by
    rw [units_succ]
    ring
  have hhigh : (units (rank + 1) + units (rank + 1 + 1)) * tenTo (-e).toNat =
      2 * (units (rank + 1) * tenTo (-e).toNat) + step (rank + 1) * tenTo (-e).toNat := by
    rw [units_succ (rank + 1)]
    ring
  have hnext : (below + 1) * (tenTo e.toNat * (2 * unitsPerOne)) =
      below * (tenTo e.toNat * (2 * unitsPerOne)) + tenTo e.toNat * (2 * unitsPerOne) := by
    ring
  have hstep := Nat.mul_pos (step_pos (rank + 1)) (tenTo_pos (-e).toNat)
  rw [Nat.add_sub_cancel, hnext, hhigh] at habove
  rw [Nat.add_sub_cancel, hhigh] at hbelow
  rw [Nat.add_mul]
  generalize below * (tenTo e.toNat * (2 * unitsPerOne)) = point at *
  generalize (units (rank + 1) + units rank) * tenTo (-e).toNat = low at *
  split at hbelow
  · rename_i heven
    rw [if_pos heven] at habove
    simp only [Bool.and_eq_true, decide_eq_true_eq] at hbelow habove
    omega
  · rename_i hodd
    rw [if_neg hodd] at habove
    simp only [Bool.and_eq_true, decide_eq_true_eq] at hbelow habove
    omega

/-- One of two neighbours on a grid lies in the interval of a rank, when the grid has sixteen
digits behind the leading one of the number. -/
theorem exists_gridPoint
    {rank : Nat} {e : Int}
    (hfine : tenTo e.toNat * unitsPerOne * tenTo 16 ≤ units (rank + 1) * tenTo (-e).toNat) :
    ∃ c, gridPoint? (rank + 1) e = some c := by
  cases hpoint : gridPoint? (rank + 1) e with
  | some c => exact ⟨c, rfl⟩
  | none =>
      exfalso
      have hwide := width_le_of_gridPoint? hpoint
      have hgrid : tenTo e.toNat * (2 * unitsPerOne) = 2 * (tenTo e.toNat * unitsPerOne) := by ring
      have hsteps : 2 * step rank ≤ step rank + step (rank + 1) := by
        have := step_mono (Nat.le_succ rank)
        rw [Nat.succ_eq_add_one] at this
        omega
      have hcoarse := units_succ_le rank
      have hdigits : 2 * binade < tenTo 16 := by decide
      have hchain : step rank * tenTo (-e).toNat * tenTo 16 ≤
          2 * binade * step rank * tenTo (-e).toNat := by
        have hscaled := Nat.mul_le_mul_right (tenTo (-e).toNat) hsteps
        have htwice : 2 * step rank * tenTo (-e).toNat = 2 * (step rank * tenTo (-e).toNat) :=
          Nat.mul_assoc _ _ _
        have hhalf : step rank * tenTo (-e).toNat ≤ tenTo e.toNat * unitsPerOne := by omega
        calc step rank * tenTo (-e).toNat * tenTo 16
            ≤ tenTo e.toNat * unitsPerOne * tenTo 16 := Nat.mul_le_mul_right _ hhalf
          _ ≤ units (rank + 1) * tenTo (-e).toNat := hfine
          _ ≤ 2 * binade * step rank * tenTo (-e).toNat := Nat.mul_le_mul_right _ hcoarse
      have hstrict := Nat.mul_lt_mul_of_pos_left hdigits
        (Nat.mul_pos (step_pos rank) (tenTo_pos (-e).toNat))
      have hswap : 2 * binade * step rank * tenTo (-e).toNat =
          step rank * tenTo (-e).toNat * (2 * binade) := by ring
      omega

/-! ## The search -/

theorem stands_stripZeros
    {c : Nat} {e : Int} {rank : Nat} (fuel : Nat)
    (h : Stands c e rank) :
    Stands (stripZeros fuel c e).coefficient (stripZeros fuel c e).exponent rank := by
  induction fuel generalizing c e with
  | zero => exact h
  | succ fuel ih =>
      unfold stripZeros
      split
      · rename_i hzero
        apply ih
        rw [stands_succ_iff]
        have hten : 10 * (c / 10) = c := by omega
        rwa [hten]
      · exact h

theorem le_exponent_stripZeros (fuel c : Nat) (e : Int) :
    e ≤ (stripZeros fuel c e).exponent := by
  induction fuel generalizing c e with
  | zero => exact Int.le_refl e
  | succ fuel ih =>
      unfold stripZeros
      split
      · have := ih (c / 10) (e + 1)
        omega
      · exact Int.le_refl e

/-- The search stops at the first grid with a point, and at the latest at a grid known to have
one. -/
theorem searchDigits_of_gridPoint?
    {rank : Nat} {leading : Int} {fuel count k c : Nat}
    (hk : k < fuel)
    (h : gridPoint? rank (leading - (count + k : Nat) + 1) = some c) :
    ∃ j ≤ k, ∃ c, gridPoint? rank (leading - (count + j : Nat) + 1) = some c ∧
      searchDigits rank leading fuel count =
        stripZeros 20 c (leading - (count + j : Nat) + 1) := by
  induction fuel generalizing count k with
  | zero => exact absurd hk (Nat.not_lt_zero k)
  | succ fuel ih =>
      unfold searchDigits
      dsimp only
      split
      · rename_i first hfirst
        exact ⟨0, Nat.zero_le k, first, hfirst, rfl⟩
      · rename_i hnone
        cases k with
        | zero =>
            rw [Nat.add_zero] at h
            rw [hnone] at h
            cases h
        | succ k =>
            have hshift (j : Nat) : count + 1 + j = count + (j + 1) := by omega
            rw [← hshift] at h
            rcases ih (Nat.lt_of_succ_lt_succ hk) h with ⟨j, hj, point, hpoint, hsearch⟩
            rw [hshift] at hpoint hsearch
            exact ⟨j + 1, Nat.succ_le_succ hj, point, hpoint, hsearch⟩

/-! ## The leading digit -/

/-- A power of ten is not above a ratio. -/
def Leads (n d : Nat) (p : Int) : Prop :=
  d * tenTo p.toNat ≤ n * tenTo (-p).toNat

theorem le_raiseMagnitude_self (n d fuel : Nat) (p : Int) : p ≤ raiseMagnitude n d fuel p := by
  induction fuel generalizing p with
  | zero => exact Int.le_refl p
  | succ fuel ih =>
      unfold raiseMagnitude
      dsimp only
      split
      · have := ih (p + 1)
        omega
      · exact Int.le_refl p

theorem leads_raiseMagnitude
    {n d : Nat} {p : Int} (fuel : Nat)
    (h : Leads n d p) :
    Leads n d (raiseMagnitude n d fuel p) := by
  induction fuel generalizing p with
  | zero => exact h
  | succ fuel ih =>
      unfold raiseMagnitude
      dsimp only
      split
      · rename_i hnext
        exact ih hnext
      · exact h

/-- A guess is raised up to where powers of ten lead. -/
theorem le_raiseMagnitude
    {n d : Nat} {p q : Int} (fuel : Nat)
    (hfuel : q ≤ p + fuel) (h : ∀ m ≤ q, Leads n d m) :
    q ≤ raiseMagnitude n d fuel p := by
  induction fuel generalizing p with
  | zero => simpa [raiseMagnitude] using hfuel
  | succ fuel ih =>
      by_cases hlast : q ≤ p
      · exact Int.le_trans hlast (le_raiseMagnitude_self _ _ _ _)
      · have hnext : d * tenTo (p + 1).toNat ≤ n * tenTo (-(p + 1)).toNat := h (p + 1) (by omega)
        unfold raiseMagnitude
        dsimp only
        rw [if_pos hnext]
        exact ih (by omega)

/-- The guess at the leading digit of a number whose first binary digit is known. -/
def guess (log : Nat) : Int :=
  (((log : Int) - unitsPerOne.log2) * 30103).fdiv 100000 - 2

theorem magnitude_eq (n : Nat) :
    magnitude n unitsPerOne = raiseMagnitude n unitsPerOne 5 (guess n.log2) := by
  rfl

/-- The guess is low enough for every finite number. -/
theorem guess_le :
    ∀ log < 2098, unitsPerOne * tenTo (guess log).toNat ≤ 2 ^ log * tenTo (-(guess log)).toNat ∧
      -400 ≤ guess log := by
  have hall : ((List.range 2098).all fun log => decide (
      unitsPerOne * tenTo (guess log).toNat ≤ 2 ^ log * tenTo (-(guess log)).toNat ∧
        -400 ≤ guess log)) = true := by decide +kernel
  intro log hlog
  exact of_decide_eq_true (List.all_eq_true.mp hall log (List.mem_range.mpr hlog))

theorem leads_magnitude
    {rank : Nat}
    (hpos : 0 < rank) (hlimit : rank < rankLimit) :
    Leads (units rank) unitsPerOne (magnitude (units rank) unitsPerOne) ∧
      -400 ≤ magnitude (units rank) unitsPerOne := by
  have hne : units rank ≠ 0 := Nat.ne_of_gt (units_strictMono hpos)
  have hlog : (units rank).log2 < 2098 := by
    have hless (places : Nat) (h : units rankLimit = 1 <<< places) : (units rank).log2 < places := by
      rw [Nat.log2_lt hne, ← Nat.one_shiftLeft, ← h]
      exact units_strictMono hlimit
    exact hless 2098 (by decide)
  rcases guess_le _ hlog with ⟨hguess, hleast⟩
  have hleads : Leads (units rank) unitsPerOne (guess (units rank).log2) :=
    Nat.le_trans hguess (Nat.mul_le_mul_right _ (Nat.log2_self_le hne))
  rw [magnitude_eq]
  exact ⟨leads_raiseMagnitude 5 hleads, Int.le_trans hleast (le_raiseMagnitude_self _ _ _ _)⟩

/-! ## The digits that are found -/

/-- The search ends at a grid of at most seventeen digits. -/
theorem exists_gridPoint_of_leads
    {rank : Nat} {p : Int}
    (hpos : 0 < rank) (hleads : Leads (units rank) unitsPerOne p) :
    ∃ c, gridPoint? rank (p - (1 + 16 : Nat) + 1) = some c := by
  have hexponent : p - (1 + 16 : Nat) + 1 = p - 16 := by omega
  have hfine : tenTo (p - 16).toNat * unitsPerOne * tenTo 16 ≤
      units rank * tenTo (-(p - 16)).toNat := by
    have hpowers : tenTo (p - 16).toNat * tenTo 16 * tenTo (-p).toNat =
        tenTo p.toNat * tenTo (-(p - 16)).toNat := by
      rw [← tenTo_add, ← tenTo_add, ← tenTo_add]
      congr 1
      omega
    apply Nat.le_of_mul_le_mul_right _ (tenTo_pos (-p).toNat)
    calc tenTo (p - 16).toNat * unitsPerOne * tenTo 16 * tenTo (-p).toNat
        = unitsPerOne * (tenTo (p - 16).toNat * tenTo 16 * tenTo (-p).toNat) := by ring
      _ = unitsPerOne * tenTo p.toNat * tenTo (-(p - 16)).toNat := by rw [hpowers, Nat.mul_assoc]
      _ ≤ units rank * tenTo (-p).toNat * tenTo (-(p - 16)).toNat := Nat.mul_le_mul_right _ hleads
      _ = units rank * tenTo (-(p - 16)).toNat * tenTo (-p).toNat := by ring
  rw [hexponent]
  cases rank with
  | zero => exact absurd hpos (Nat.lt_irrefl 0)
  | succ rank => exact exists_gridPoint hfine

/-- The digits that are found stand for their number. -/
theorem stands_shortest
    {rank : Nat}
    (hpos : 0 < rank) (hlimit : rank < rankLimit) :
    Stands (shortest rank).coefficient (shortest rank).exponent rank ∧
      -420 ≤ (shortest rank).exponent := by
  rcases leads_magnitude hpos hlimit with ⟨hleads, hleast⟩
  unfold shortest
  rw [if_neg (Nat.ne_of_gt hpos)]
  generalize magnitude (units rank) unitsPerOne = p at hleads hleast
  rcases exists_gridPoint_of_leads hpos hleads with ⟨c, hpoint⟩
  have hfuel : 16 < 17 := by decide
  rcases searchDigits_of_gridPoint? hfuel hpoint with ⟨j, hj, point, hfirst, hsearch⟩
  rw [hsearch]
  have hstripped := le_exponent_stripZeros 20 point (p - (1 + j : Nat) + 1)
  exact ⟨stands_stripZeros 20 (stands_of_gridPoint? hfirst), by omega⟩

/-! ## Whole numbers -/

theorem value_stripZeros
    (fuel c : Nat) {e : Int}
    (he : 0 ≤ e) :
    (stripZeros fuel c e).coefficient * tenTo (stripZeros fuel c e).exponent.toNat =
      c * tenTo e.toNat := by
  induction fuel generalizing c e with
  | zero => rfl
  | succ fuel ih =>
      unfold stripZeros
      split
      · rename_i hzero
        have hnext : (e + 1).toNat = e.toNat + 1 := by omega
        have hten : c / 10 * 10 = c := by omega
        rw [ih (c / 10) (by omega), hnext, tenTo_succ, Nat.mul_comm (tenTo _), ← Nat.mul_assoc, hten]
      · rfl

/-- Up to 53 binary digits before the point, neighbours are less than two apart. -/
theorem step_lt
    {rank : Nat}
    (h : units rank < 2 * binade * unitsPerOne) :
    step rank < 2 * unitsPerOne := by
  have hunit := unitsPerOne_pos
  by_cases hsubnormal : rank < binade
  · rw [step_of_lt hsubnormal]
    omega
  · apply Nat.lt_of_mul_lt_mul_right (a := binade)
    calc step rank * binade ≤ units rank := step_mul_binade_le (Nat.le_of_not_lt hsubnormal)
      _ < 2 * binade * unitsPerOne := h
      _ = 2 * unitsPerOne * binade := by ring

theorem step_le
    {rank : Nat}
    (h : units rank ≤ 2 * binade * unitsPerOne) :
    step rank ≤ 2 * unitsPerOne := by
  have hunit := unitsPerOne_pos
  by_cases hsubnormal : rank < binade
  · rw [step_of_lt hsubnormal]
    omega
  · apply Nat.le_of_mul_le_mul_right _ (by decide : 0 < binade)
    calc step rank * binade ≤ units rank := step_mul_binade_le (Nat.le_of_not_lt hsubnormal)
      _ ≤ 2 * binade * unitsPerOne := h
      _ = 2 * unitsPerOne * binade := by ring

/-- A whole number in the interval of another one is close to it. -/
theorem whole_of_stands
    {rank n k : Nat}
    (hunits : units rank = n * unitsPerOne) (hpos : 0 < n) (hn : n ≤ 2 * binade)
    (h : Stands k 0 rank) :
    n ≤ k ∧ k ≤ n + 1 ∧ (n < 2 * binade → k = n) := by
  have hunit := unitsPerOne_pos
  have hone : tenTo 0 = 1 := rfl
  have hrank : 0 < rank := by
    rcases Nat.eq_zero_or_pos rank with hzero | hpositive
    · rw [hzero, units_zero] at hunits
      have := Nat.mul_pos hpos hunit
      omega
    · exact hpositive
  have hlimit : units rank ≤ 2 * binade * unitsPerOne := by
    rw [hunits]
    exact Nat.mul_le_mul_right _ hn
  have hbefore : units rank = units (rank - 1) + step (rank - 1) := by
    rw [← units_succ, Nat.sub_add_cancel hrank]
  have hprevious : step (rank - 1) < 2 * unitsPerOne :=
    step_lt (Nat.lt_of_lt_of_le (units_strictMono (Nat.sub_lt hrank Nat.one_pos)) hlimit)
  have habove := h.above
  have hbelow := h.below
  change (units (rank - 1) + units rank) * tenTo 0 ≤ 2 * (k * tenTo 0 * unitsPerOne) at habove
  change 2 * (k * tenTo 0 * unitsPerOne) ≤ (units rank + units (rank + 1)) * tenTo 0 at hbelow
  rw [hone, Nat.mul_one, Nat.mul_one] at habove hbelow
  rw [units_succ] at hbelow
  have hle : n ≤ k := by
    by_contra hless
    have := Nat.mul_le_mul_right unitsPerOne (Nat.succ_le_of_lt (Nat.lt_of_not_le hless))
    rw [Nat.succ_eq_add_one, Nat.add_mul, Nat.one_mul] at this
    omega
  refine ⟨hle, ?_, ?_⟩
  · have hstep := step_le hlimit
    by_contra hmore
    have := Nat.mul_le_mul_right unitsPerOne (Nat.succ_le_of_lt (Nat.lt_of_not_le hmore))
    rw [Nat.succ_eq_add_one, Nat.add_mul, Nat.add_mul, Nat.one_mul] at this
    omega
  · intro hstrict
    have hstep : step rank < 2 * unitsPerOne := by
      apply step_lt
      rw [hunits]
      exact Nat.mul_lt_mul_of_pos_right hstrict hunit
    by_contra hne
    have := Nat.mul_le_mul_right unitsPerOne (Nat.succ_le_of_lt (Nat.lt_of_le_of_ne hle (Ne.symm hne)))
    rw [Nat.succ_eq_add_one, Nat.add_mul, Nat.one_mul] at this
    omega

/-- The leading digit of a whole number stands before the point. -/
theorem magnitude_nonneg
    {rank n : Nat}
    (hunits : units rank = n * unitsPerOne) (hpos : 0 < n) :
    0 ≤ magnitude (units rank) unitsPerOne := by
  have hunit := unitsPerOne_pos
  have hlog : unitsPerOne.log2 ≤ (units rank).log2 := by
    have hne : units rank ≠ 0 := by
      rw [hunits]
      exact Nat.ne_of_gt (Nat.mul_pos hpos hunit)
    rw [Nat.le_log2 hne, hunits]
    exact Nat.le_trans (Nat.log2_self_le (Nat.ne_of_gt hunit)) (Nat.le_mul_of_pos_left _ hpos)
  rw [magnitude_eq]
  apply le_raiseMagnitude 5
  · unfold guess
    rw [Int.fdiv_eq_ediv_of_nonneg _ (by decide)]
    omega
  · intro m hm
    have hzero : m.toNat = 0 := by omega
    unfold Leads
    rw [hzero, hunits]
    calc unitsPerOne * tenTo 0 = 1 * unitsPerOne * 1 := by rw [Nat.one_mul]; rfl
      _ ≤ n * unitsPerOne * tenTo (-m).toNat :=
        Nat.mul_le_mul (Nat.mul_le_mul_right _ hpos) (tenTo_pos _)

/-- The leading digit of a whole number of at most 53 binary digits is one of the seventeen before
the point. -/
theorem magnitude_whole
    {rank n : Nat}
    (hunits : units rank = n * unitsPerOne) (hpos : 0 < n) (hn : n ≤ 2 * binade)
    (hrank : 0 < rank) (hlimit : rank < rankLimit) :
    0 ≤ magnitude (units rank) unitsPerOne ∧ magnitude (units rank) unitsPerOne < 17 := by
  refine ⟨magnitude_nonneg hunits hpos, ?_⟩
  have hleads := (leads_magnitude hrank hlimit).1
  by_contra hlarge
  generalize magnitude (units rank) unitsPerOne = p at hleads hlarge
  have hzero : (-p).toNat = 0 := by omega
  have hone : tenTo 0 = 1 := rfl
  unfold Leads at hleads
  rw [hzero, hone, hunits, Nat.mul_one, Nat.mul_comm] at hleads
  have hle := Nat.le_of_mul_le_mul_right hleads unitsPerOne_pos
  have hpower : tenTo 17 ≤ tenTo p.toNat := tenTo_mono (by omega)
  have hdigits : 2 * binade < tenTo 17 := by decide
  omega

/-- A whole number of at most 53 binary digits is written exactly. -/
theorem shortest_whole
    {rank n : Nat}
    (hunits : units rank = n * unitsPerOne) (hpos : 0 < n) (hn : n ≤ 2 * binade)
    (hrank : 0 < rank) (hlimit : rank < rankLimit) :
    0 ≤ (shortest rank).exponent ∧
      (shortest rank).coefficient * tenTo (shortest rank).exponent.toNat = n := by
  have hleading := magnitude_whole hunits hpos hn hrank hlimit
  unfold shortest
  rw [if_neg (Nat.ne_of_gt hrank)]
  generalize magnitude (units rank) unitsPerOne = p at hleading
  have hexact : gridPoint? rank 0 = some n := by
    apply gridPoint?_of_exact
    change 2 * units rank * 1 = n * (1 * (2 * unitsPerOne))
    rw [hunits]
    ring
  have hpoint : gridPoint? rank (p - (1 + p.toNat : Nat) + 1) = some n := by
    have hzero : p - (1 + p.toNat : Nat) + 1 = 0 := by omega
    rw [hzero, hexact]
  have hfuel : p.toNat < 17 := by omega
  rcases searchDigits_of_gridPoint? hfuel hpoint with ⟨j, hj, c, hfirst, hsearch⟩
  rw [hsearch]
  have he : 0 ≤ p - (1 + j : Nat) + 1 := by omega
  refine ⟨Int.le_trans he (le_exponent_stripZeros _ _ _), ?_⟩
  rw [value_stripZeros 20 c he]
  by_cases hlast : p - (1 + j : Nat) + 1 = 0
  · rw [hlast, hexact] at hfirst
    cases hfirst
    rw [hlast]
    exact Nat.mul_one n
  · -- a point of a coarser grid is a multiple of ten
    have hstands := stands_of_gridPoint? hfirst
    generalize p - (1 + j : Nat) + 1 = e at he hlast hstands
    have hsucc : e.toNat = (e - 1).toNat + 1 := by omega
    rcases whole_of_stands hunits hpos hn ((stands_whole_iff he).mp hstands) with
      ⟨hle, hge, hstrict⟩
    rw [hsucc, tenTo_succ, ← Nat.mul_assoc] at hle hge hstrict ⊢
    have hbinade : binade = 4503599627370496 := by decide
    omega

/-- A whole number is written without digits behind the point. -/
theorem exponent_nonneg_of_whole
    {rank n : Nat}
    (hunits : units rank = n * unitsPerOne) (hpos : 0 < n)
    (hrank : 0 < rank) (hlimit : rank < rankLimit) :
    0 ≤ (shortest rank).exponent := by
  have hleading := magnitude_nonneg hunits hpos
  have hleads := (leads_magnitude hrank hlimit).1
  unfold shortest
  rw [if_neg (Nat.ne_of_gt hrank)]
  generalize magnitude (units rank) unitsPerOne = p at hleading hleads
  -- the number itself is on the grid of whole numbers, unless a coarser grid comes last
  have hpoint : ∃ k : Nat, k < 17 ∧ k ≤ p ∧
      ∃ c, gridPoint? rank (p - (1 + k : Nat) + 1) = some c := by
    by_cases hsmall : p.toNat < 17
    · have hexact : gridPoint? rank 0 = some n := by
        apply gridPoint?_of_exact
        change 2 * units rank * 1 = n * (1 * (2 * unitsPerOne))
        rw [hunits]
        ring
      have hzero : p - (1 + p.toNat : Nat) + 1 = 0 := by omega
      refine ⟨p.toNat, hsmall, by omega, n, ?_⟩
      rw [hzero, hexact]
    · exact ⟨16, by decide, by omega, exists_gridPoint_of_leads hrank hleads⟩
  rcases hpoint with ⟨k, hk, hkp, c, hpoint⟩
  rcases searchDigits_of_gridPoint? hk hpoint with ⟨j, hj, first, _, hsearch⟩
  rw [hsearch]
  have he : 0 ≤ p - (1 + j : Nat) + 1 := by omega
  exact Int.le_trans he (le_exponent_stripZeros _ _ _)

/-- A whole number is rounded to a whole number: a small one to itself, and a large one to one of
the magnitudes that are all whole. -/
theorem dvd_units_of_stands
    {k rank : Nat}
    (h : Stands k 0 rank) :
    unitsPerOne ∣ units rank := by
  have hround : roundUnits (k * unitsPerOne) 1 = rank := by
    have hnearest : Nearest (k * 1 * unitsPerOne) 1 rank := h
    rwa [Nat.mul_one, ← roundUnits_eq_iff Nat.one_pos] at hnearest
  by_cases hk : k ≤ 2 * binade
  · rcases exists_rank_of_whole hk with ⟨exact_rank, _, hunits⟩
    have hsame := roundUnits_units exact_rank Nat.one_pos
    rw [hunits, Nat.mul_one, hround] at hsame
    rw [hsame, hunits]
    exact Nat.dvd_mul_left _ _
  · rcases exists_rank_of_whole (Nat.le_refl (2 * binade)) with ⟨limit, _, hlimit⟩
    have hle : limit ≤ rank := by
      rw [← roundUnits_units limit Nat.one_pos, ← hround]
      refine roundUnits_mono ?_ Nat.one_pos Nat.one_pos
      rw [hlimit, Nat.mul_one, Nat.mul_one, Nat.mul_one]
      exact Nat.mul_le_mul_right _ (by omega)
    apply dvd_units_of_le
    refine Nat.le_trans ?_ (units_strictMono.monotone hle)
    rw [hlimit]
    exact Nat.mul_le_mul_right _ (by omega)

end Binary64
end RecordApi
