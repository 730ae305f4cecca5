import Mathlib.Order.Monotone.Basic
import Mathlib.Tactic.Ring
import RecordApi.Number.Binary64

/-!
# Rounding to the nearest rank

The magnitudes of successive ranks differ by a power of two, so they increase.  Rounding a ratio
gives the one rank whose interval holds it: the interval reaches half way to both neighbours, and
holds its ends where the rank is even.  Everything else about rounding follows from this.
-/

namespace RecordApi
namespace Binary64

/-! ## The magnitudes of ranks -/

theorem binade_eq : binade = 2 ^ 52 := by decide

/-- The distance from the magnitude of a rank to the next. -/
def step (rank : Nat) : Nat := 2 ^ (rank / binade - 1)

theorem step_pos (rank : Nat) : 0 < step rank := Nat.two_pow_pos _

/-- A coefficient of at most 53 digits, shifted, is the magnitude of a rank. -/
theorem units_add_mul
    {m shift : Nat}
    (hle : m ≤ 2 * binade) (hnormal : shift = 0 ∨ binade ≤ m) :
    units (m + shift * binade) = m * 2 ^ shift := by
  have hpos : 0 < binade := by decide
  unfold units
  split
  · rename_i hlow
    have hshift : shift = 0 := by
      rcases hnormal with hzero | hbinade
      · exact hzero
      · omega
    rw [hshift, Nat.zero_mul, Nat.add_zero, Nat.pow_zero, Nat.mul_one]
  · rename_i hhigh
    rw [Nat.shiftLeft_eq]
    have hbinade : binade ≤ m := by
      rcases hnormal with hzero | hbinade
      · rw [hzero] at hhigh
        omega
      · exact hbinade
    by_cases htop : m = 2 * binade
    · have hmul : m + shift * binade = (shift + 2) * binade := by
        rw [htop, Nat.add_mul]
        omega
      rw [hmul, Nat.mul_mod_left, Nat.mul_div_cancel _ hpos, htop, Nat.add_zero,
        Nat.add_sub_assoc (by decide), Nat.pow_add, Nat.pow_one, Nat.mul_comm 2 binade,
        Nat.mul_assoc, Nat.mul_comm 2]
    · have hrest : m - binade < binade := by omega
      have hsplit : m + shift * binade = (m - binade) + (shift + 1) * binade := by
        rw [Nat.add_mul]
        omega
      have hcoefficient : binade + (m - binade) = m := by omega
      rw [hsplit, Nat.add_mul_mod_self_right, Nat.add_mul_div_right _ _ hpos,
        Nat.mod_eq_of_lt hrest, Nat.div_eq_of_lt hrest, hcoefficient, Nat.zero_add,
        Nat.add_sub_cancel]

/-- Every rank has a coefficient of at most 53 digits. -/
theorem exists_coefficient (rank : Nat) :
    ∃ m shift, rank = m + shift * binade ∧ m < 2 * binade ∧ (shift = 0 ∨ binade ≤ m) ∧
      step rank = 2 ^ shift := by
  have hpos : 0 < binade := by decide
  have hmod := Nat.mod_lt rank hpos
  have hdiv := Nat.div_add_mod rank binade
  by_cases hlow : rank < binade
  · refine ⟨rank, 0, by omega, by omega, Or.inl rfl, ?_⟩
    unfold step
    rw [Nat.div_eq_of_lt hlow]
  · have hone : 1 ≤ rank / binade := (Nat.le_div_iff_mul_le hpos).mpr (by omega)
    refine ⟨rank % binade + binade, rank / binade - 1, ?_, by omega, Or.inr (by omega), rfl⟩
    rw [Nat.sub_mul, Nat.one_mul, Nat.mul_comm]
    have hle : binade ≤ binade * (rank / binade) := Nat.le_mul_of_pos_right _ hone
    omega

theorem units_succ (rank : Nat) : units (rank + 1) = units rank + step rank := by
  rcases exists_coefficient rank with ⟨m, shift, hrank, hlt, hnormal, hstep⟩
  have hnext : rank + 1 = (m + 1) + shift * binade := by omega
  rw [hnext, hstep, hrank, units_add_mul (by omega) hnormal, units_add_mul (by omega) (by omega),
    Nat.add_mul, Nat.one_mul]

/-- Beyond the subnormal numbers a rank has at least `binade` steps. -/
theorem step_mul_binade_le
    {rank : Nat}
    (h : binade ≤ rank) :
    step rank * binade ≤ units rank := by
  unfold units step
  rw [if_neg (by omega), Nat.shiftLeft_eq, Nat.mul_comm]
  exact Nat.mul_le_mul_right _ (Nat.le_add_right _ _)

theorem step_of_lt
    {rank : Nat}
    (h : rank < binade) :
    step rank = 1 := by
  unfold step
  rw [Nat.div_eq_of_lt h]
  rfl

theorem units_strictMono : StrictMono units :=
  strictMono_nat_of_lt_succ fun rank => by
    rw [units_succ]
    exact Nat.lt_add_of_pos_right (step_pos rank)

theorem units_zero : units 0 = 0 := rfl

/-- Every number of at most 53 binary digits, shifted, is the magnitude of a rank.  By induction
on the shift: a short coefficient takes one more digit. -/
theorem exists_rank
    {m : Nat} (shift : Nat)
    (hle : m ≤ 2 * binade) :
    ∃ rank, units rank = m * 2 ^ shift := by
  induction shift generalizing m with
  | zero => exact ⟨m + 0 * binade, units_add_mul hle (Or.inl rfl)⟩
  | succ shift ih =>
      by_cases hshort : m ≤ binade
      · rcases ih (m := 2 * m) (by omega) with ⟨rank, hrank⟩
        refine ⟨rank, ?_⟩
        rw [hrank, Nat.pow_succ, Nat.mul_comm 2 m, Nat.mul_assoc, Nat.mul_comm 2]
      · exact ⟨_, units_add_mul hle (Or.inr (by omega))⟩

/-! ## The nearest rank -/

/-- A ratio lies in the interval of a rank. -/
structure Nearest (numerator denominator rank : Nat) : Prop where
  above : (units (rank - 1) + units rank) * denominator ≤ 2 * numerator
  below : 2 * numerator ≤ (units rank + units (rank + 1)) * denominator
  strict : rank % 2 = 1 →
    (units (rank - 1) + units rank) * denominator < 2 * numerator ∧
      2 * numerator < (units rank + units (rank + 1)) * denominator

variable {n d n' d' r r' : Nat}

/-- The leading 53 binary digits of a number. -/
theorem leading_digits (whole : Nat) :
    whole / 2 ^ (whole.log2 - 52) < 2 * binade ∧
      (whole.log2 - 52 = 0 ∨ binade ≤ whole / 2 ^ (whole.log2 - 52)) := by
  have hpower : 2 * binade = 2 ^ 53 := by decide
  have hupper := Nat.lt_log2_self (n := whole)
  constructor
  · rw [Nat.div_lt_iff_lt_mul (Nat.two_pow_pos _), hpower, ← Nat.pow_add]
    exact Nat.lt_of_lt_of_le hupper (Nat.pow_le_pow_right (by decide) (by omega))
  · by_cases hshort : whole.log2 ≤ 52
    · exact Or.inl (by omega)
    · right
      have hne : whole ≠ 0 := by
        intro hzero
        rw [hzero] at hshort
        exact hshort (by decide)
      rw [Nat.le_div_iff_mul_le (Nat.two_pow_pos _), binade_eq, ← Nat.pow_add]
      refine Nat.le_trans ?_ (Nat.log2_self_le hne)
      exact Nat.pow_le_pow_right (by decide) (by omega)

/-- Rounding starts at the greatest rank whose magnitude is not above the ratio. -/
theorem exists_floor (n : Nat) (hd : 0 < d) :
    ∃ rank, roundUnits n d =
        (if step rank * d < 2 * (n - units rank * d) ∨
            (2 * (n - units rank * d) = step rank * d ∧ rank % 2 = 1) then rank + 1 else rank) ∧
      units rank * d ≤ n ∧ n < units (rank + 1) * d := by
  rcases leading_digits (n / d) with ⟨hlt, hnormal⟩
  generalize hshift : (n / d).log2 - 52 = shift at hlt hnormal
  generalize hm : n / d / 2 ^ shift = m at hlt hnormal
  have hunits : units (m + shift * binade) = m * 2 ^ shift := units_add_mul (by omega) hnormal
  have hnext : units (m + shift * binade + 1) = (m + 1) * 2 ^ shift := by
    rw [Nat.add_right_comm]
    exact units_add_mul (by omega) (by omega)
  have hstep : step (m + shift * binade) = 2 ^ shift := by
    have hsucc := units_succ (m + shift * binade)
    rw [hnext, hunits, Nat.add_mul, Nat.one_mul] at hsucc
    exact (Nat.add_left_cancel hsucc).symm
  refine ⟨m + shift * binade, ?_, ?_, ?_⟩
  · unfold roundUnits
    dsimp only
    rw [hshift, Nat.shiftRight_eq_div_pow, hm, Nat.shiftLeft_eq, hstep, Nat.mul_comm d]
    simp only [Bool.or_eq_true, Bool.and_eq_true, decide_eq_true_eq, beq_iff_eq]
  · rw [hunits, ← Nat.le_div_iff_mul_le hd, ← hm]
    exact Nat.div_mul_le_self _ _
  · rw [hnext, ← Nat.div_lt_iff_lt_mul hd, ← Nat.div_lt_iff_lt_mul (Nat.two_pow_pos _), hm]
    exact Nat.lt_succ_self m

theorem nearest_roundUnits (n : Nat) (hd : 0 < d) : Nearest n d (roundUnits n d) := by
  rcases exists_floor n hd with ⟨rank, hround, hle, hlt⟩
  have hsucc : units (rank + 1) * d = units rank * d + step rank * d := by
    rw [units_succ, Nat.add_mul]
  have hbefore : units (rank - 1) * d ≤ units rank * d :=
    Nat.mul_le_mul_right _ (units_strictMono.monotone (Nat.sub_le rank 1))
  have hbehind : units (rank + 1) * d < units (rank + 1 + 1) * d :=
    Nat.mul_lt_mul_of_pos_right (units_strictMono (Nat.lt_succ_self (rank + 1))) hd
  rw [hround]
  split
  · refine ⟨?_, ?_, ?_⟩
    · rw [Nat.add_sub_cancel, Nat.add_mul]
      omega
    · rw [Nat.add_mul]
      omega
    · intro hodd
      rw [Nat.add_sub_cancel, Nat.add_mul, Nat.add_mul]
      omega
  · refine ⟨?_, ?_, ?_⟩
    · rw [Nat.add_mul]
      omega
    · rw [Nat.add_mul]
      omega
    · intro hodd
      have hless : units (rank - 1) * d < units rank * d :=
        Nat.mul_lt_mul_of_pos_right (units_strictMono (Nat.sub_lt (by omega) Nat.one_pos)) hd
      rw [Nat.add_mul, Nat.add_mul]
      omega

/-- The intervals of ranks lie in the order of the ratios that they hold. -/
theorem Nearest.le
    (h : Nearest n d r) (h' : Nearest n' d' r')
    (hle : n * d' ≤ n' * d) (hd : 0 < d) (hd' : 0 < d') :
    r ≤ r' := by
  by_contra hlt
  have hbefore : units r' ≤ units (r - 1) := units_strictMono.monotone (by omega)
  have hbehind : units (r' + 1) ≤ units r := units_strictMono.monotone (by omega)
  have hpos : 0 < d * d' := Nat.mul_pos hd hd'
  -- the ratios are equal, and lie where two intervals of neighbours meet
  have hupper : (units (r - 1) + units r) * (d * d') ≤ 2 * (n * d') := by
    rw [← Nat.mul_assoc, ← Nat.mul_assoc]
    exact Nat.mul_le_mul_right _ h.above
  have hlower : 2 * (n' * d) ≤ (units r' + units (r' + 1)) * (d * d') := by
    rw [Nat.mul_comm d d', ← Nat.mul_assoc, ← Nat.mul_assoc]
    exact Nat.mul_le_mul_right _ h'.below
  have hsum : units (r - 1) + units r ≤ units r' + units (r' + 1) :=
    Nat.le_of_mul_le_mul_right (by omega) hpos
  have hsame : r - 1 = r' := units_strictMono.injective (by omega)
  have hmeet : (units r' + units (r' + 1)) * (d * d') = 2 * (n' * d) := by
    rw [← hsame, Nat.sub_add_cancel (by omega)] at hlower ⊢
    omega
  by_cases hodd : r' % 2 = 1
  · have hstrict := Nat.mul_lt_mul_of_pos_right (h'.strict hodd).2 hd
    rw [Nat.mul_assoc, Nat.mul_assoc, Nat.mul_comm d' d, hmeet] at hstrict
    exact Nat.lt_irrefl _ hstrict
  · have hstrict := Nat.mul_lt_mul_of_pos_right (h.strict (by omega)).1 hd'
    rw [hsame, Nat.mul_assoc, Nat.mul_assoc] at hstrict
    have hnext : r = r' + 1 := by omega
    rw [hnext, hmeet] at hstrict
    omega

theorem roundUnits_eq_iff
    (hd : 0 < d) :
    roundUnits n d = r ↔ Nearest n d r := by
  have hround := nearest_roundUnits n hd
  constructor
  · intro h
    rw [← h]
    exact hround
  · intro h
    exact Nat.le_antisymm (hround.le h (Nat.le_refl _) hd hd) (h.le hround (Nat.le_refl _) hd hd)

theorem roundUnits_mono
    (hle : n * d' ≤ n' * d) (hd : 0 < d) (hd' : 0 < d') :
    roundUnits n d ≤ roundUnits n' d' :=
  (nearest_roundUnits n hd).le (nearest_roundUnits n' hd') hle hd hd'

/-- A magnitude is rounded to its own rank. -/
theorem roundUnits_units (r : Nat) (hd : 0 < d) : roundUnits (units r * d) d = r := by
  have hbefore : units (r - 1) ≤ units r := units_strictMono.monotone (Nat.sub_le r 1)
  have hbehind : units r < units (r + 1) := units_strictMono (Nat.lt_succ_self r)
  rw [roundUnits_eq_iff hd]
  refine ⟨?_, ?_, ?_⟩
  · rw [← Nat.mul_assoc]
    exact Nat.mul_le_mul_right _ (by omega)
  · rw [← Nat.mul_assoc]
    exact Nat.mul_le_mul_right _ (by omega)
  · intro hodd
    have hless : units (r - 1) < units r :=
      units_strictMono (Nat.sub_lt (by omega) Nat.one_pos)
    rw [← Nat.mul_assoc]
    exact ⟨Nat.mul_lt_mul_of_pos_right (by omega) hd, Nat.mul_lt_mul_of_pos_right (by omega) hd⟩

/-- Equal ratios are rounded alike. -/
theorem roundUnits_congr
    (heq : n * d' = n' * d) (hd : 0 < d) (hd' : 0 < d') :
    roundUnits n d = roundUnits n' d' :=
  Nat.le_antisymm (roundUnits_mono heq.le hd hd') (roundUnits_mono heq.ge hd' hd)

/-! ## Whole numbers -/

theorem unitsPerOne_eq : unitsPerOne = 2 ^ 1074 := by decide +kernel

theorem unitsPerOne_pos : 0 < unitsPerOne := by decide

/-- The finite magnitudes are those below the first power of two that is none. -/
theorem lt_rankLimit_iff (rank : Nat) : rank < rankLimit ↔ units rank < binade * 2 ^ 2046 := by
  have hlimit : rankLimit = binade + 2046 * binade := by decide
  have hunits : units rankLimit = binade * 2 ^ 2046 := by
    rw [hlimit]
    exact units_add_mul (by omega) (Or.inr (Nat.le_refl _))
  rw [← hunits, units_strictMono.lt_iff_lt]

/-- A whole number of at most 53 binary digits is a finite magnitude. -/
theorem exists_rank_of_whole
    {k : Nat}
    (hk : k ≤ 2 * binade) :
    ∃ rank, rank < rankLimit ∧ units rank = k * unitsPerOne := by
  rcases exists_rank 1074 hk with ⟨rank, hrank⟩
  rw [← unitsPerOne_eq] at hrank
  refine ⟨rank, ?_, hrank⟩
  have hlimit : 2 * binade * unitsPerOne < binade * 2 ^ 2046 := by decide +kernel
  rw [lt_rankLimit_iff, hrank]
  exact Nat.lt_of_le_of_lt (Nat.mul_le_mul_right _ hk) hlimit

/-- Large magnitudes are whole numbers. -/
theorem dvd_units_of_le
    {rank : Nat}
    (h : binade * unitsPerOne ≤ units rank) :
    unitsPerOne ∣ units rank := by
  rcases exists_coefficient rank with ⟨m, shift, rfl, hlt, hnormal, _⟩
  rw [units_add_mul (Nat.le_of_lt hlt) hnormal] at h ⊢
  have hshift : 1074 ≤ shift := by
    by_contra hsmall
    have hpower : 2 ^ (shift + 1) ≤ unitsPerOne :=
      Nat.le_trans (Nat.pow_le_pow_right (by decide) (by omega)) unitsPerOne_eq.ge
    have hless : m * 2 ^ shift < binade * 2 ^ (shift + 1) := by
      calc m * 2 ^ shift < 2 * binade * 2 ^ shift :=
            Nat.mul_lt_mul_of_pos_right hlt (Nat.two_pow_pos _)
        _ = binade * 2 ^ (shift + 1) := by ring
    exact Nat.not_lt_of_le (Nat.le_trans (Nat.mul_le_mul_left binade hpower) h) hless
  have hdvd : 2 ^ 1074 ∣ 2 ^ shift := pow_dvd_pow 2 hshift
  rw [← unitsPerOne_eq] at hdvd
  exact Nat.dvd_mul_left_of_dvd hdvd m

/-- A magnitude without the places behind its point is a magnitude. -/
theorem exists_rank_of_floor (rank : Fin rankLimit) :
    ∃ whole : Fin rankLimit, units whole = units rank / unitsPerOne * unitsPerOne := by
  by_cases hlarge : binade * unitsPerOne ≤ units rank
  · exact ⟨rank, (Nat.div_mul_cancel (dvd_units_of_le hlarge)).symm⟩
  · have hless := (Nat.div_lt_iff_lt_mul unitsPerOne_pos).mpr (Nat.lt_of_not_le hlarge)
    rcases exists_rank_of_whole (k := units rank / unitsPerOne) (by omega) with
      ⟨whole, hlt, hunits⟩
    exact ⟨⟨whole, hlt⟩, hunits⟩

/-- The ratio of two whole numbers is the ratio of as many units. -/
theorem ofRatio_eq (negative : Bool) (n d : Nat) :
    ofRatio negative n d = ofRank negative (roundUnits (n * unitsPerOne) d) := by
  have hshift (places : Nat) : n <<< places = n * 1 <<< places := by
    rw [Nat.shiftLeft_eq, Nat.one_shiftLeft]
  unfold ofRatio unitsPerOne
  rw [hshift]

/-- A whole number that is a magnitude is rounded to itself. -/
theorem ofRatio_of_units
    (negative : Bool) {k : Nat} {rank : Fin rankLimit}
    (h : units rank = k * unitsPerOne) :
    ofRatio negative k 1 = .finite negative rank := by
  have hround := roundUnits_units rank Nat.one_pos
  rw [h, Nat.mul_one] at hround
  rw [ofRatio_eq, hround]
  unfold ofRank
  rw [dif_pos rank.isLt]

theorem finite_of_units_le
    (negative : Bool) {rank k : Nat}
    (hunits : units rank ≤ k * unitsPerOne) (hk : k ≤ 2 * binade) :
    ∃ h : rank < rankLimit, ofRank negative rank = .finite negative ⟨rank, h⟩ := by
  rcases exists_rank_of_whole hk with ⟨limit, hlt, hlimit⟩
  rw [← hlimit, units_strictMono.le_iff_le] at hunits
  refine ⟨Nat.lt_of_le_of_lt hunits hlt, ?_⟩
  unfold ofRank
  rw [dif_pos]

/-- The nearest magnitude of a quotient up to 53 binary digits lies between the same two whole
numbers as the quotient itself. -/
theorem units_roundUnits_between
    {total size k : Nat}
    (htotal : total ≤ 2 * binade) (hsize : 0 < size) (hbound : size < 2 * unitsPerOne)
    (hbelow : k * size < total) (habove : total ≤ (k + 1) * size) :
    k * unitsPerOne < units (roundUnits (total * unitsPerOne) size) ∧
      units (roundUnits (total * unitsPerOne) size) ≤ (k + 1) * unitsPerOne := by
  have hk : k < 2 * binade := by
    have hmul := Nat.le_mul_of_pos_right k hsize
    omega
  rcases exists_rank_of_whole (k := k) (by omega) with ⟨low, _, hlow⟩
  rcases exists_rank_of_whole (k := k + 1) (by omega) with ⟨high, _, hhigh⟩
  constructor
  · rw [← hlow]
    apply units_strictMono
    by_contra hle
    -- to be rounded down to the whole number, the quotient may exceed it by half a step only
    have hround := (nearest_roundUnits (total * unitsPerOne) hsize).below
    have hsteps : units (roundUnits (total * unitsPerOne) size) +
        units (roundUnits (total * unitsPerOne) size + 1) ≤ 2 * (k * unitsPerOne) + step low := by
      have hfirst := units_strictMono.monotone (Nat.le_of_not_lt hle)
      have hnext := units_strictMono.monotone (Nat.succ_le_succ (Nat.le_of_not_lt hle))
      rw [Nat.succ_eq_add_one, Nat.succ_eq_add_one, units_succ low] at hnext
      omega
    have hexcess : 2 * unitsPerOne ≤ step low * size := by
      have hmore := Nat.mul_le_mul_right unitsPerOne (Nat.succ_le_of_lt hbelow)
      have hscaled := Nat.le_trans hround (Nat.mul_le_mul_right size hsteps)
      have hsplit : (2 * (k * unitsPerOne) + step low) * size =
          2 * (k * size * unitsPerOne) + step low * size := by ring
      rw [Nat.succ_eq_add_one, Nat.add_mul, Nat.one_mul] at hmore
      omega
    by_cases hsubnormal : low < binade
    · rw [step_of_lt hsubnormal] at hexcess
      omega
    · have hstep := step_mul_binade_le (Nat.le_of_not_lt hsubnormal)
      rw [hlow] at hstep
      have hwhole : step low * binade * size ≤ k * size * unitsPerOne := by
        calc step low * binade * size ≤ k * unitsPerOne * size := Nat.mul_le_mul_right _ hstep
          _ = k * size * unitsPerOne := by ring
      have hless : k * size * unitsPerOne < 2 * binade * unitsPerOne :=
        Nat.mul_lt_mul_of_pos_right (by omega) unitsPerOne_pos
      have hscaled := Nat.mul_le_mul_right binade hexcess
      have hleft : 2 * unitsPerOne * binade = 2 * binade * unitsPerOne := by ring
      have hright : step low * size * binade = step low * binade * size := by ring
      omega
  · rw [← hhigh]
    apply units_strictMono.monotone
    rw [← roundUnits_units high hsize]
    apply roundUnits_mono _ hsize hsize
    rw [hhigh]
    have hscaled := Nat.mul_le_mul_right (unitsPerOne * size) habove
    calc total * unitsPerOne * size = total * (unitsPerOne * size) := Nat.mul_assoc _ _ _
      _ ≤ (k + 1) * size * (unitsPerOne * size) := hscaled
      _ = (k + 1) * unitsPerOne * size * size := by ring

/-! ## Numbers and not-a-number -/

/-- A number that equals an integer stands for the same multiple of the unit. -/
theorem signedUnits_of_toInt?
    {negative : Bool} {rank : Fin rankLimit} {n : Int}
    (h : toInt? (.finite negative rank) = some n) :
    signedUnits negative rank = n * unitsPerOne := by
  unfold toInt? at h
  dsimp only at h
  split at h
  · rename_i hwhole
    cases h
    exact (Int.ediv_mul_cancel (Int.dvd_of_emod_eq_zero hwhole)).symm
  · cases h

theorem isSome_toInt?_iff
    {negative : Bool} {rank : Fin rankLimit} :
    (finite negative rank).toInt?.isSome = true ↔ unitsPerOne ∣ units rank := by
  have hsigned : (unitsPerOne : Int) ∣ signedUnits negative rank ↔ unitsPerOne ∣ units rank := by
    unfold signedUnits
    split
    · rw [Int.dvd_neg, Int.natCast_dvd_natCast]
    · rw [Int.natCast_dvd_natCast]
  unfold toInt?
  dsimp only
  rw [← hsigned, Int.dvd_iff_emod_eq_zero]
  split
  · rename_i hzero
    exact iff_of_true rfl hzero
  · rename_i hzero
    exact iff_of_false Bool.false_ne_true hzero

theorem ofRatio_ne_nan (negative : Bool) (n d : Nat) : ofRatio negative n d ≠ .nan := by
  unfold ofRatio ofRank
  split
  · exact Binary64.noConfusion
  · exact Binary64.noConfusion

/-- A numeral is a number, if a large one. -/
theorem ofNumeral_ne_nan (numeral : Numeral) : ofNumeral numeral ≠ .nan := by
  unfold ofNumeral
  dsimp only
  split
  · exact Binary64.noConfusion
  · split
    · exact Binary64.noConfusion
    · split
      · exact Binary64.noConfusion
      · split
        · exact ofRatio_ne_nan _ _ _
        · exact ofRatio_ne_nan _ _ _

end Binary64
end RecordApi
