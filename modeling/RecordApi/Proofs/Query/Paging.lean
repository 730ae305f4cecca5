import Mathlib.Data.Rat.Floor
import RecordApi.Proofs.Number.Values
import RecordApi.Query.Page

/-!
# The arithmetic of pages

A page of whole numbers is taken as it is given, and the pages of a result are counted exactly:
the quotient is rounded before it is rounded up, but not past a whole number.
-/

namespace RecordApi

open Binary64

namespace Page

theorem parameter?_of_units
    {k : Nat} {rank : Fin rankLimit}
    (hpos : 1 ≤ k) (hunits : units rank = k * unitsPerOne) :
    parameter? (.int k) = some (k : Int) := by
  have hread : ofChars? (Value.trimmedChars (.int k)) = some (.finite false rank) := by
    show ofChars? (Text.trimChars (toString (k : Int)).toList) = _
    have hsign : decide ((k : Int) < 0) = false := decide_eq_false (by omega)
    rw [Numeral.trimChars_toString, ofChars?_toString, hsign, Int.natAbs_natCast,
      ofNumeral_whole false k, ofRatio_of_units false hunits]
  have hfloor : floor? (.finite false rank) = some (k : Int) := by
    show some ((units rank : Int).fdiv unitsPerOne) = some (k : Int)
    rw [hunits, Int.natCast_mul, Int.mul_fdiv_cancel _ (by exact_mod_cast unitsPerOne_pos.ne')]
  unfold parameter?
  dsimp only
  rw [hread, Option.bind_some, hfloor]
  dsimp only
  rw [if_pos (by exact_mod_cast hpos)]

theorem parameter?_int
    {k : Nat}
    (hpos : 1 ≤ k) (hk : k ≤ 2 * binade) :
    parameter? (.int k) = some (k : Int) := by
  rcases exists_rank_of_whole hk with ⟨rank, hlt, hunits⟩
  exact @parameter?_of_units k ⟨rank, hlt⟩ hpos hunits

/-- A page of whole numbers is the page that they name. -/
theorem compute_int
    {number size : Nat} (defaultNumber defaultSize : Int)
    (hnumber : 1 ≤ number) (hnumber' : number ≤ 2 * binade)
    (hsize : 1 ≤ size) (hsize' : size ≤ 2 * binade) :
    compute (.int number) (.int size) defaultNumber defaultSize =
      ⟨number, size, size, (number - 1) * size⟩ := by
  unfold compute
  rw [parameter?_int hnumber hnumber', parameter?_int hsize hsize']
  rfl

theorem limit_compute
    (number : Value) {size : Nat} (defaultNumber defaultSize : Int)
    (hsize : 1 ≤ size) (hsize' : size ≤ 2 * binade) :
    (compute number (.int size) defaultNumber defaultSize).limit = size ∧
      (compute number (.int size) defaultNumber defaultSize).offset =
        ((compute number (.int size) defaultNumber defaultSize).number - 1) * size := by
  unfold compute
  rw [parameter?_int hsize hsize']
  exact ⟨rfl, rfl⟩

/-! ## The number of pages -/

theorem ceil_rankValue (rank : ℕ) :
    ⌈rankValue rank⌉ = -((-(units rank : ℤ)).fdiv unitsPerOne) := by
  have hceil := Rat.ceil_intCast_div_natCast (units rank) unitsPerOne
  rw [Int.cast_natCast] at hceil
  rw [Int.fdiv_eq_ediv_of_nonneg _ (Int.natCast_nonneg _)]
  exact hceil

theorem count_of_ratio
    {total size : ℕ} {rank : Fin rankLimit}
    (hsize : 0 < size) (hratio : ofRatio false total size = .finite false rank) :
    count total size = .ok ⌈rankValue rank⌉ := by
  have hsign : decide (((total : Int) < 0) ≠ ((size : Int) < 0)) = false := by
    have htotal' : ¬ (total : Int) < 0 := by omega
    have hsize' : ¬ (size : Int) < 0 := by omega
    simp [htotal', hsize']
  unfold count
  rw [if_neg (by omega)]
  dsimp only
  rw [hsign, Int.natAbs_natCast, Int.natAbs_natCast, hratio]
  dsimp only
  rw [ceil_rankValue]
  rfl

/-- The quotient is rounded, but its ceiling is kept. -/
theorem exists_rank_of_ratio
    {total size : Nat}
    (htotal : total ≤ 2 * binade) (hsize : 0 < size) (hbound : size < 2 * unitsPerOne) :
    ∃ rank : Fin rankLimit, ofRatio false total size = .finite false rank ∧
      Nearest (total * unitsPerOne) size rank ∧
      ⌈rankValue rank⌉ = ((total + size - 1) / size : Nat) := by
  have hround := nearest_roundUnits (total * unitsPerOne) hsize
  have hbelow : (total + size - 1) / size * size ≤ total + size - 1 := Nat.div_mul_le_self _ _
  have habove := Nat.lt_div_mul_add hsize (a := total + size - 1)
  rw [ofRatio_eq]
  generalize (total + size - 1) / size = pages at hbelow habove
  cases pages with
  | zero =>
      have hzero : total = 0 := by omega
      have hrank : roundUnits (total * unitsPerOne) size = 0 := by
        have hunits := roundUnits_units 0 hsize
        rw [units_zero, Nat.zero_mul] at hunits
        rw [hzero, Nat.zero_mul, hunits]
      have hvalue : rankValue 0 = (0 : ℕ) := rankValue_eq_iff.mpr (Nat.zero_mul _).symm
      rw [hrank] at hround ⊢
      refine ⟨⟨0, by decide⟩, ofRank_of_lt false ⟨0, by decide⟩, hround, ?_⟩
      rw [hvalue, Int.ceil_natCast]
  | succ k =>
      -- the quotient lies above `k` by more than rounding can take away
      rw [Nat.succ_mul] at hbelow habove
      rcases units_roundUnits_between htotal hsize hbound (k := k) (by omega)
        (by rw [Nat.succ_mul]; omega) with ⟨hmore, hmost⟩
      have hk : k + 1 ≤ 2 * binade := by
        have hmul := Nat.le_mul_of_pos_right k hsize
        omega
      rcases finite_of_units_le false hmost hk with ⟨hlt, hfinite⟩
      refine ⟨⟨_, hlt⟩, hfinite, hround, ?_⟩
      have hmore' := mt rankValue_le_iff.mp (Nat.not_le_of_lt hmore)
      rw [Int.ceil_eq_iff]
      refine ⟨?_, ?_⟩
      · push_cast
        rw [add_sub_cancel_right]
        exact not_le.mp hmore'
      · exact_mod_cast rankValue_le_iff.mpr hmost

/-- The pages of a result are counted exactly. -/
theorem count_eq
    {total size : Nat}
    (htotal : total ≤ 2 * binade) (hsize : 0 < size) (hbound : size < 2 * unitsPerOne) :
    count total size = .ok (((total + size - 1) / size : Nat) : Int) := by
  rcases exists_rank_of_ratio htotal hsize hbound with ⟨rank, hratio, _, hceil⟩
  rw [count_of_ratio hsize hratio, hceil]

end Page
end RecordApi
