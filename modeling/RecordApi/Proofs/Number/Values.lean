import Mathlib.Algebra.Order.Field.Rat
import Mathlib.Data.Rat.Cast.Order
import Mathlib.Tactic.Linarith
import RecordApi.Proofs.Number.Texts

/-!
# Exact values and rounded ones

A numeral has an exact rational value, and so does a finite binary number.  Rounding a numeral to
the nearest binary number never takes it to the other side of a whole number that is a binary number
itself.  So a numeral that is not rounded to a whole number stays between the same integers, and an
integer is compared with the rounded number as with the numeral.
-/

namespace RecordApi

/-! ## The value of a numeral -/

namespace Numeral

/-- The number that a numeral writes, without its sign. -/
def magnitude (numeral : Numeral) : ℚ :=
  numeral.coefficient * 10 ^ numeral.exponent

/-- The number that a numeral writes. -/
def value (numeral : Numeral) : ℚ :=
  if numeral.negative then -numeral.magnitude else numeral.magnitude

variable {numeral : Numeral} {k : ℕ} {n : ℤ}

theorem cast_tenTo (places : ℕ) : ((tenTo places : ℕ) : ℚ) = 10 ^ places := by
  unfold tenTo
  exact Nat.cast_pow 10 places

theorem cast_tenTo_pos (places : ℕ) : (0 : ℚ) < (tenTo places : ℕ) :=
  Nat.cast_pos.mpr (tenTo_pos places)

theorem magnitude_eq (numeral : Numeral) :
    numeral.magnitude = (numeral.coefficient * tenTo numeral.exponent.toNat : ℕ) /
      (tenTo (-numeral.exponent).toNat : ℕ) := by
  have hsplit : numeral.exponent =
      (numeral.exponent.toNat : ℤ) - ((-numeral.exponent).toNat : ℤ) := by
    omega
  have hten : (10 : ℚ) ≠ 0 := by norm_num
  have hpower : (10 : ℚ) ^ numeral.exponent =
      10 ^ numeral.exponent.toNat / 10 ^ (-numeral.exponent).toNat := by
    conv_lhs => rw [hsplit]
    rw [zpow_sub₀ hten, zpow_natCast, zpow_natCast]
  unfold magnitude
  rw [hpower, Nat.cast_mul, cast_tenTo, cast_tenTo, mul_div_assoc]

theorem magnitude_nonneg (numeral : Numeral) : 0 ≤ numeral.magnitude := by
  exact mul_nonneg (Nat.cast_nonneg _) (zpow_nonneg (by norm_num) _)

theorem le_magnitude_iff :
    (k : ℚ) ≤ numeral.magnitude ↔
      k * tenTo (-numeral.exponent).toNat ≤ numeral.coefficient * tenTo numeral.exponent.toNat := by
  rw [magnitude_eq, le_div_iff₀ (cast_tenTo_pos _), ← Nat.cast_mul, Nat.cast_le]

theorem magnitude_le_iff :
    numeral.magnitude ≤ k ↔
      numeral.coefficient * tenTo numeral.exponent.toNat ≤ k * tenTo (-numeral.exponent).toNat := by
  rw [magnitude_eq, div_le_iff₀ (cast_tenTo_pos _), ← Nat.cast_mul, Nat.cast_le]

theorem magnitude_eq_iff :
    numeral.magnitude = k ↔
      numeral.coefficient * tenTo numeral.exponent.toNat = k * tenTo (-numeral.exponent).toNat := by
  rw [le_antisymm_iff, magnitude_le_iff, le_magnitude_iff, ← le_antisymm_iff]

/-- A decimal equals an integer when its numeral does. -/
theorem toInt?_eq_some_iff :
    (Decimal.finite numeral.negative numeral.coefficient numeral.exponent).toInt? = some n ↔
      numeral.value = n := by
  rw [Decimal.toInt?_eq_some_iff]
  unfold value
  constructor
  · rintro ⟨k, hk, rfl⟩
    rw [magnitude_eq_iff.mpr hk]
    cases numeral.negative with
    | true => exact (Int.cast_neg _).symm
    | false => rfl
  · intro hvalue
    have hmagnitude : numeral.magnitude = n.natAbs := by
      have hnonneg := numeral.magnitude_nonneg
      rw [← abs_of_nonneg hnonneg, Nat.cast_natAbs, Int.cast_abs, ← hvalue]
      split
      · rw [abs_neg]
      · rfl
    refine ⟨n.natAbs, magnitude_eq_iff.mp hmagnitude, ?_⟩
    rw [hmagnitude] at hvalue
    split at hvalue
    · rename_i hnegative
      rw [if_pos hnegative]
      exact_mod_cast hvalue.symm
    · rename_i hpositive
      rw [if_neg hpositive]
      rw [← Int.cast_natCast] at hvalue
      exact (Int.cast_injective hvalue).symm

end Numeral

/-! ## The values of ranks -/

namespace Binary64

open Numeral

/-- The magnitude of a rank. -/
def rankValue (rank : ℕ) : ℚ :=
  units rank / unitsPerOne

variable {numeral : Numeral} {rank k : ℕ}

theorem cast_unitsPerOne_pos : (0 : ℚ) < (unitsPerOne : ℕ) :=
  Nat.cast_pos.mpr unitsPerOne_pos

theorem le_rankValue_iff : (k : ℚ) ≤ rankValue rank ↔ k * unitsPerOne ≤ units rank := by
  unfold rankValue
  rw [le_div_iff₀ cast_unitsPerOne_pos, ← Nat.cast_mul, Nat.cast_le]

theorem rankValue_le_iff : rankValue rank ≤ k ↔ units rank ≤ k * unitsPerOne := by
  unfold rankValue
  rw [div_le_iff₀ cast_unitsPerOne_pos, ← Nat.cast_mul, Nat.cast_le]

theorem rankValue_eq_iff : rankValue rank = k ↔ units rank = k * unitsPerOne := by
  rw [le_antisymm_iff, rankValue_le_iff, le_rankValue_iff, ← le_antisymm_iff]

/-! ## Rounding and whole numbers -/

/-- Rounding keeps the side of a whole number that is a binary number. -/
theorem rounded_of_whole
    {whole : ℕ}
    (h : Stands numeral.coefficient numeral.exponent rank)
    (hwhole : units whole = k * unitsPerOne) :
    ((k : ℚ) ≤ numeral.magnitude → (k : ℚ) ≤ rankValue rank) ∧
      (numeral.magnitude ≤ k → rankValue rank ≤ k) := by
  have hround := (roundUnits_eq_iff (tenTo_pos _)).mpr h
  have hsame := roundUnits_units whole Nat.one_pos
  rw [le_rankValue_iff, rankValue_le_iff, le_magnitude_iff, magnitude_le_iff, ← hwhole,
    units_strictMono.le_iff_le, units_strictMono.le_iff_le]
  constructor
  · intro hle
    rw [← hsame, ← hround]
    refine roundUnits_mono ?_ Nat.one_pos (tenTo_pos _)
    rw [hwhole, Nat.mul_one, Nat.mul_one, Nat.mul_right_comm]
    exact Nat.mul_le_mul_right _ hle
  · intro hle
    rw [← hsame, ← hround]
    refine roundUnits_mono ?_ (tenTo_pos _) Nat.one_pos
    rw [hwhole, Nat.mul_one, Nat.mul_one, Nat.mul_right_comm k]
    exact Nat.mul_le_mul_right _ hle

/-- Two numbers lie on the same side of a third one. -/
def SameSide (n q v : ℚ) : Prop :=
  (n < q ↔ n < v) ∧ (q < n ↔ v < n)

theorem sameSide_of_le
    {n q v : ℚ}
    (hv : v ≠ n) (hbelow : n ≤ q → n ≤ v) (habove : q ≤ n → v ≤ n) :
    SameSide n q v := by
  constructor
  · constructor
    · exact fun h => lt_of_le_of_ne (hbelow h.le) hv.symm
    · exact fun h => lt_of_not_ge fun hle => absurd h (not_lt_of_ge (habove hle))
  · constructor
    · exact fun h => lt_of_le_of_ne (habove h.le) hv
    · exact fun h => lt_of_not_ge fun hle => absurd h (not_lt_of_ge (hbelow hle))

theorem sameSide_of_notMem_uIcc
    {n q v : ℚ}
    (h : n ∉ Set.uIcc q v) :
    SameSide n q v := by
  rw [Set.mem_uIcc, not_or, not_and, not_and, not_le, not_le] at h
  constructor
  · constructor
    · exact fun hless => lt_of_not_ge fun hle => absurd (h.2 hle) (not_lt_of_gt hless)
    · exact fun hless => lt_of_not_ge fun hle => absurd (h.1 hle) (not_lt_of_gt hless)
  · exact ⟨fun hless => h.1 hless.le, fun hless => h.2 hless.le⟩

/-- A numeral that is not rounded to a whole number stays between the same whole numbers. -/
theorem sameSide_of_not_dvd
    (h : Stands numeral.coefficient numeral.exponent rank)
    (hrank : ¬ unitsPerOne ∣ units rank) (k : ℕ) :
    SameSide k numeral.magnitude (rankValue rank) := by
  have hsmall : rankValue rank < (binade : ℕ) := by
    rw [lt_iff_not_ge, le_rankValue_iff]
    exact fun hle => hrank (dvd_units_of_le hle)
  have hv : rankValue rank ≠ k := by
    rw [Ne, rankValue_eq_iff]
    intro hwhole
    exact hrank ⟨k, by rw [hwhole, Nat.mul_comm]⟩
  by_cases hk : k ≤ 2 * binade
  · rcases exists_rank_of_whole hk with ⟨whole, _, hwhole⟩
    rcases rounded_of_whole h hwhole with ⟨hbelow, habove⟩
    exact sameSide_of_le hv hbelow habove
  · -- the numeral is far below such a number, as what it is rounded to
    have hless : (binade : ℚ) ≤ k := by exact_mod_cast (by omega : binade ≤ k)
    refine sameSide_of_le hv (fun hle => ?_) fun _ => (hsmall.trans_le hless).le
    rcases exists_rank_of_whole (k := binade) (by omega) with ⟨whole, _, hwhole⟩
    have hbinade := (rounded_of_whole h hwhole).1 (hless.trans hle)
    exact absurd hbinade (not_le_of_gt hsmall)

/-! ## Signs -/

/-- The value of a finite number. -/
def value (negative : Bool) (rank : ℕ) : ℚ :=
  if negative then -rankValue rank else rankValue rank

theorem rankValue_nonneg (rank : ℕ) : 0 ≤ rankValue rank :=
  div_nonneg (Nat.cast_nonneg _) (Nat.cast_nonneg _)

/-- Numbers that lie on the same side of each whole number do so with a sign as well. -/
theorem sameSide_signed
    {a b : ℚ}
    (ha : 0 ≤ a) (hb : 0 ≤ b) (h : ∀ k : ℕ, SameSide k a b) (negative : Bool) (n : ℤ) :
    SameSide n (if negative then -a else a) (if negative then -b else b) := by
  -- a negative number lies below both, and a whole number is one of those told
  have hpositive : ∀ n : ℤ, SameSide n a b := by
    intro n
    rcases Int.eq_nat_or_neg n with ⟨k, rfl | rfl⟩
    · exact h k
    · rcases Nat.eq_zero_or_pos k with rfl | hk
      · exact h 0
      · have hneg : (((-(k : ℤ) : ℤ)) : ℚ) < 0 := by exact_mod_cast (by omega : -(k : ℤ) < 0)
        exact ⟨iff_of_true (hneg.trans_le ha) (hneg.trans_le hb),
          iff_of_false (not_lt_of_ge (hneg.le.trans ha)) (not_lt_of_ge (hneg.le.trans hb))⟩
  cases negative with
  | false => exact hpositive n
  | true =>
      rcases hpositive (-n) with ⟨hbelow, habove⟩
      rw [Int.cast_neg] at hbelow habove
      constructor
      · change (n : ℚ) < -a ↔ (n : ℚ) < -b
        rw [lt_neg, lt_neg (b := b)]
        exact habove
      · change -a < (n : ℚ) ↔ -b < (n : ℚ)
        rw [neg_lt, neg_lt (a := b)]
        exact hbelow

theorem value_eq (negative : Bool) (rank : ℕ) :
    value negative rank = (signedUnits negative rank : ℚ) / (unitsPerOne : ℕ) := by
  unfold value signedUnits rankValue
  split
  · rw [Int.cast_neg, Int.cast_natCast, neg_div]
  · rw [Int.cast_natCast]

/-- A finite number equals an integer when its value does. -/
theorem toInt?_eq_some_iff
    {negative : Bool} {rank : Fin rankLimit} {n : ℤ} :
    (finite negative rank).toInt? = some n ↔ value negative rank = n := by
  rw [value_eq, div_eq_iff cast_unitsPerOne_pos.ne', ← Int.cast_natCast, ← Int.cast_mul,
    Int.cast_inj]
  constructor
  · exact signedUnits_of_toInt?
  · intro hunits
    unfold toInt?
    dsimp only
    rw [hunits, if_pos (Int.mul_emod_left n _),
      Int.mul_ediv_cancel n (Int.natCast_ne_zero.mpr unitsPerOne_pos.ne')]

/-! ## Integers beside rounded numerals -/

theorem SameSide.cmp_eq
    {n q v : ℚ}
    (h : SameSide n q v) :
    cmp n q = cmp n v := by
  unfold cmp cmpUsing
  simp only [h.1, h.2]

/-- An integer is compared with the value of a finite number. -/
theorem compareInt?_finite (n : ℤ) (negative : Bool) (rank : Fin rankLimit) :
    compareInt? n (.finite negative rank) = some (cmp (n : ℚ) (value negative rank)) := by
  have hscale : StrictMono fun units : ℤ => (units : ℚ) / (unitsPerOne : ℕ) := by
    intro a b hless
    exact div_lt_div_of_pos_right (Int.cast_lt.mpr hless) cast_unitsPerOne_pos
  have hmap := hscale.cmp_map_eq (n * unitsPerOne) (signedUnits negative rank)
  have hn : ((n * unitsPerOne : ℤ) : ℚ) / (unitsPerOne : ℕ) = n := by
    rw [Int.cast_mul, Int.cast_natCast, mul_div_cancel_right₀ _ cast_unitsPerOne_pos.ne']
  rw [hn, ← value_eq, cmp_eq_compare (n * unitsPerOne : ℤ)] at hmap
  exact congrArg some hmap.symm

/-- The first number behind the words is a binary number. -/
theorem exists_rank_wordLimit :
    ∃ whole, whole < rankLimit ∧ units whole = wordLimit.toNat * unitsPerOne := by
  rcases exists_rank (m := binade) (11 + 1074) (by decide) with ⟨whole, hwhole⟩
  have hlimit : binade * 2 ^ (11 + 1074) = wordLimit.toNat * unitsPerOne := by decide +kernel
  refine ⟨whole, ?_, hwhole.trans hlimit⟩
  rw [lt_rankLimit_iff, hwhole]
  decide +kernel

/-- What is rounded to infinity lies behind all words. -/
theorem wordLimit_lt_magnitude
    (h : Stands numeral.coefficient numeral.exponent rank) (hrank : rankLimit ≤ rank) :
    (wordLimit : ℚ) < numeral.magnitude := by
  rcases exists_rank_wordLimit with ⟨whole, hfinite, hwhole⟩
  by_contra hle
  have hrounded : rankValue rank ≤ (wordLimit.toNat : ℕ) :=
    (rounded_of_whole h hwhole).2 (not_lt.mp hle)
  rw [rankValue_le_iff, ← hwhole, units_strictMono.le_iff_le] at hrounded
  omega

theorem compareInt?_infinite
    {n : ℤ} {q : ℚ}
    (hn : fitsWord n = true) (hq : (wordLimit : ℚ) < q) (negative : Bool) :
    compareInt? n (.infinite negative) = some (cmp (n : ℚ) (if negative then -q else q)) := by
  unfold fitsWord at hn
  rw [Bool.and_eq_true, decide_eq_true_eq, decide_eq_true_eq] at hn
  unfold compareInt?
  rw [Option.some.injEq]
  cases negative with
  | false =>
      have hless : (n : ℚ) < q := (Int.cast_lt.mpr hn.2).trans hq
      exact (cmp_eq_lt_iff _ _).mpr hless |>.symm
  | true =>
      have hlow : -(wordLimit : ℚ) ≤ n := by exact_mod_cast hn.1
      have hless : -q < n := (neg_lt_neg hq).trans_le hlow
      exact (cmp_eq_gt_iff _ _).mpr hless |>.symm

/-- A word is compared with the value of a numeral, unless it lies between the value and a whole
number that the numeral is rounded to. -/
theorem compareInt?_ofNumeral
    {n : ℤ}
    (hn : fitsWord n = true)
    (hbetween : ∀ k : ℤ, (ofNumeral numeral).toInt? = some k →
      (n : ℚ) ∉ Set.uIcc numeral.value k) :
    compareInt? n (ofNumeral numeral) = some (cmp (n : ℚ) numeral.value) := by
  have hstands : Stands numeral.coefficient numeral.exponent _ := nearest_roundUnits _ (tenTo_pos _)
  generalize roundUnits _ _ = rank at hstands
  have hround : ofNumeral numeral = ofRank numeral.negative rank :=
    ofNumeral_of_stands numeral.negative hstands
  rw [hround] at hbetween ⊢
  by_cases hfinite : rank < rankLimit
  · rw [ofRank_of_lt numeral.negative ⟨rank, hfinite⟩] at hbetween ⊢
    rw [compareInt?_finite, Option.some.injEq]
    refine (SameSide.cmp_eq ?_).symm
    cases hwhole : (finite numeral.negative ⟨rank, hfinite⟩).toInt? with
    | some k =>
        have hapart := hbetween k hwhole
        rw [toInt?_eq_some_iff] at hwhole
        rw [hwhole]
        exact sameSide_of_notMem_uIcc hapart
    | none =>
        have hdvd : ¬ unitsPerOne ∣ units rank := by
          intro hdvd
          have hsome : (finite numeral.negative ⟨rank, hfinite⟩).toInt?.isSome = true :=
            isSome_toInt?_iff.mpr hdvd
          rw [hwhole] at hsome
          cases hsome
        exact sameSide_signed numeral.magnitude_nonneg (rankValue_nonneg rank)
          (sameSide_of_not_dvd hstands hdvd) numeral.negative n
  · unfold ofRank
    rw [dif_neg hfinite]
    exact compareInt?_infinite hn (wordLimit_lt_magnitude hstands (not_lt.mp hfinite)) _

end Binary64
end RecordApi
