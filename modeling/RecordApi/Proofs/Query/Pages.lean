import RecordApi.Proofs.Number.Nearest
import RecordApi.Proofs.Query.Paging

/-!
# Pages in range

The quotient of a total and a page size is rounded to the nearest binary number, which has the same
ceiling: the number of pages.  A page parameter is rounded down to a whole number that is a binary
number again, so that its decimal text is read as the same page.
-/

namespace RecordApi

open Binary64

namespace Page

variable {total size n : ℤ} {v : Value}

/-! ## The number of pages -/

theorem ceil_div_eq
    {total size : ℕ}
    (hsize : 0 < size) :
    ⌈(total : ℚ) / size⌉ = ((total + size - 1) / size : ℕ) := by
  have hpos : (0 : ℚ) < size := Nat.cast_pos.mpr hsize
  have hbelow : (total + size - 1) / size * size ≤ total + size - 1 := Nat.div_mul_le_self _ _
  have habove := Nat.lt_div_mul_add hsize (a := total + size - 1)
  rw [Int.ceil_eq_iff, lt_div_iff₀ hpos, div_le_iff₀ hpos]
  generalize (total + size - 1) / size = pages at *
  constructor
  · have hless : pages * size < total + size := by omega
    have hcast : (pages : ℚ) * size < total + size := by exact_mod_cast hless
    push_cast
    linarith
  · have hmost : total ≤ pages * size := by omega
    exact_mod_cast hmost

/-- The pages of a result are counted exactly: the nearest binary number has the ceiling of the
quotient.  All pages but the last are full, and the last one is not empty. -/
theorem count_exact
    (htotal : 0 ≤ total) (htotal' : total ≤ 2 ^ 53) (hsize : 1 ≤ size) (hsize' : size < 2 ^ 1024) :
    (∃ rank : Fin rankLimit, IsNearest ((total : ℚ) / size) rank ∧
      count total size = .ok ⌈rankValue rank⌉ ∧ ⌈rankValue rank⌉ = ⌈(total : ℚ) / size⌉) ∧
      (0 < total → size * (⌈(total : ℚ) / size⌉ - 1) < total ∧
        total ≤ size * ⌈(total : ℚ) / size⌉) := by
  lift total to ℕ using htotal
  lift size to ℕ using by omega
  have hpos : 0 < size := by omega
  have hmost : total ≤ 2 * binade := by
    have hbinade : 2 * binade = 2 ^ 53 := by decide
    rw [hbinade]
    exact_mod_cast htotal'
  have hbound : size < 2 * unitsPerOne := by
    have hpower : 2 ^ 1024 ≤ 2 * unitsPerOne := by decide +kernel
    exact Nat.lt_of_lt_of_le (by exact_mod_cast hsize') hpower
  constructor
  · rcases exists_rank_of_ratio hmost hpos hbound with ⟨rank, hratio, hnearest, hceil⟩
    exact ⟨rank, hnearest.isNearest hpos, count_of_ratio hpos hratio,
      hceil.trans (ceil_div_eq hpos).symm⟩
  · intro _
    have hcast : (0 : ℚ) < size := Nat.cast_pos.mpr hpos
    have hbelow := Int.ceil_lt_add_one ((total : ℚ) / size)
    have habove := Int.le_ceil ((total : ℚ) / size)
    rw [Int.cast_natCast, Int.cast_natCast]
    generalize ⌈(total : ℚ) / size⌉ = pages at *
    rw [← sub_lt_iff_lt_add, lt_div_iff₀ hcast] at hbelow
    rw [div_le_iff₀ hcast] at habove
    rw [Int.mul_comm, Int.mul_comm (size : ℤ)]
    exact ⟨by exact_mod_cast hbelow, by exact_mod_cast habove⟩

/-! ## Pages of a page -/

/-- A whole number from one on that is a finite binary number. -/
def IsWhole (n : ℤ) : Prop :=
  ∃ (k : ℕ) (rank : Fin rankLimit), n = k ∧ 1 ≤ k ∧ units rank = k * unitsPerOne

theorem isWhole_of_le
    (hpos : 1 ≤ n) (hle : n ≤ 2 ^ 53) :
    IsWhole n := by
  lift n to ℕ using by omega
  have hbinade : 2 * binade = 2 ^ 53 := by decide
  have hmost : n ≤ 2 * binade := by
    rw [hbinade]
    exact_mod_cast hle
  rcases exists_rank_of_whole hmost with ⟨rank, hlt, hunits⟩
  exact ⟨n, ⟨rank, hlt⟩, rfl, by exact_mod_cast hpos, hunits⟩

/-- A number that is rounded down to one or more is a whole binary number afterwards. -/
theorem isWhole_of_floor
    {x : Binary64}
    (h : x.floor? = some n) (hpos : 1 ≤ n) :
    IsWhole n := by
  cases x with
  | finite negative rank =>
      have hfloor : (signedUnits negative rank).fdiv unitsPerOne = n := Option.some.inj h
      rw [Int.fdiv_eq_ediv_of_nonneg _ (Int.natCast_nonneg _)] at hfloor
      cases negative with
      | true =>
          -- rounding down keeps a number that is not positive from being a page
          have hneg : signedUnits true rank ≤ 0 := Int.neg_nonpos_of_nonneg (Int.natCast_nonneg _)
          have hmost := Int.ediv_le_ediv (Int.natCast_pos.mpr unitsPerOne_pos) hneg
          rw [hfloor, Int.zero_ediv] at hmost
          omega
      | false =>
          have hcast : ((units rank / unitsPerOne : ℕ) : ℤ) = n := hfloor
          rcases exists_rank_of_floor rank with ⟨whole, hwhole⟩
          exact ⟨units rank / unitsPerOne, whole, hcast.symm, by omega, hwhole⟩
  | nan => cases h
  | infinite => cases h

theorem isWhole_of_parameter?
    (h : parameter? v = some n) :
    IsWhole n := by
  unfold parameter? at h
  split at h
  · cases h
  · cases h
  · split at h
    · rename_i m hfloor
      split at h
      · rename_i hpos
        cases h
        rcases Option.bind_eq_some_iff.mp hfloor with ⟨x, _, hx⟩
        exact isWhole_of_floor hx hpos
      · cases h
    · cases h

/-- A parameter gives a whole number if the default is one. -/
theorem isWhole_getD
    (v : Value) (hdefault : IsWhole n) :
    IsWhole ((parameter? v).getD n) := by
  cases h : parameter? v with
  | none => exact hdefault
  | some m => exact isWhole_of_parameter? h

theorem IsWhole.one_le (h : IsWhole n) : 1 ≤ n := by
  rcases h with ⟨k, _, rfl, hpos, _⟩
  exact_mod_cast hpos

theorem IsWhole.parameter?_eq (h : IsWhole n) : parameter? (.int n) = some n := by
  rcases h with ⟨k, rank, rfl, hpos, hunits⟩
  exact parameter?_of_units hpos hunits

/-- Whatever the parameters are, a page and its size are positive, its limit and its offset are
those of its number and size, and the page is the page of its own number and size. -/
theorem compute_compute
    {defaultNumber defaultSize : ℤ} (number size : Value)
    (hnumber : 1 ≤ defaultNumber) (hnumber' : defaultNumber ≤ 2 ^ 53)
    (hsize : 1 ≤ defaultSize) (hsize' : defaultSize ≤ 2 ^ 53) :
    let page := compute number size defaultNumber defaultSize
    1 ≤ page.number ∧ 1 ≤ page.size ∧ page.limit = page.size ∧
      page.offset = (page.number - 1) * page.size ∧ 0 ≤ page.offset ∧
      compute (.int page.number) (.int page.size) defaultNumber defaultSize = page := by
  have hpage := isWhole_getD number (isWhole_of_le hnumber hnumber')
  have hcount := isWhole_getD size (isWhole_of_le hsize hsize')
  unfold compute
  dsimp only
  refine ⟨hpage.one_le, hcount.one_le, rfl, rfl, ?_, ?_⟩
  · exact Int.mul_nonneg (Int.sub_nonneg_of_le hpage.one_le) (Int.le_of_lt hcount.one_le)
  · rw [hpage.parameter?_eq, hcount.parameter?_eq]
    rfl

end Page

namespace Sample

open Page

/-- A quotient so little above one that it lies between one and the next binary number. -/
theorem count_exact_nearly_one :
    (0 : ℤ) ≤ 2 ^ 53 ∧ (2 : ℤ) ^ 53 ≤ 2 ^ 53 ∧ (1 : ℤ) ≤ 2 ^ 53 - 1 ∧
      (2 : ℤ) ^ 53 - 1 < 2 ^ 1024 ∧ count (2 ^ 53) (2 ^ 53 - 1) = .ok 2 := by
  have hsize : (2 : ℤ) ^ 53 - 1 < 2 ^ 1024 := by decide +kernel
  rcases @count_exact (2 ^ 53) (2 ^ 53 - 1) (by norm_num) le_rfl (by norm_num) hsize
    with ⟨⟨rank, _, hcount, hceil⟩, _⟩
  have htwo : ⌈((2 ^ 53 : ℤ) : ℚ) / ((2 ^ 53 - 1 : ℤ) : ℚ)⌉ = 2 := by
    rw [Int.ceil_eq_iff]
    norm_num
  refine ⟨by norm_num, le_rfl, by norm_num, hsize, ?_⟩
  rw [hcount, hceil, htwo]

/-- The page `1e23` is a number just below, and the page of that number is the same. -/
theorem compute_compute_large :
    (1 : ℤ) ≤ 1 ∧ (1 : ℤ) ≤ 2 ^ 53 ∧ (1 : ℤ) ≤ 10 ∧ (10 : ℤ) ≤ 2 ^ 53 ∧
      (compute (.text "1e23") (.text " 25.9 ") 1 10).number = 99999999999999991611392 ∧
      (compute (.text "1e23") (.text " 25.9 ") 1 10).size = 25 ∧
      compute (.int 99999999999999991611392) (.int 25) 1 10 =
        compute (.text "1e23") (.text " 25.9 ") 1 10 := by
  have hnumber : (compute (.text "1e23") (.text " 25.9 ") 1 10).number =
      99999999999999991611392 := by
    decide +kernel
  have hsize : (compute (.text "1e23") (.text " 25.9 ") 1 10).size = 25 := by decide +kernel
  have hagain := compute_compute (.text "1e23") (.text " 25.9 ") (show (1 : ℤ) ≤ 1 by decide)
    (by decide) (show (1 : ℤ) ≤ 10 by decide) (by decide)
  rcases hagain with ⟨_, _, _, _, _, hsame⟩
  rw [hnumber, hsize] at hsame
  exact ⟨by decide, by decide, by decide, by decide, hnumber, hsize, hsame⟩

end Sample
end RecordApi
