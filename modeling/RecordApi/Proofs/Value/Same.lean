import RecordApi.Value.Same

/-!
# Exact numbers

An exact number is a coefficient without trailing zeros, so numbers that were written to one
exponent are equal only where their coefficients are, and their signs but for zero.
-/

namespace RecordApi
namespace ExactNumber

/-- The zeros that are stripped are counted by the exponent. -/
theorem exists_stripZeros (fuel c : Nat) (e : Int) :
    ∃ zeros : Nat, c = (stripZeros fuel c e).1 * tenTo zeros ∧
      (stripZeros fuel c e).2 = e + zeros := by
  induction fuel generalizing c e with
  | zero => exact ⟨0, (Nat.mul_one c).symm, (Int.add_zero e).symm⟩
  | succ fuel ih =>
      unfold stripZeros
      split
      · rename_i hzero
        rcases ih (c / 10) (e + 1) with ⟨zeros, hcoefficient, hexponent⟩
        refine ⟨zeros + 1, ?_, ?_⟩
        · rw [tenTo_succ, ← Nat.mul_assoc, ← hcoefficient]
          omega
        · rw [hexponent]
          omega
      · exact ⟨0, (Nat.mul_one c).symm, (Int.add_zero e).symm⟩

theorem coefficient_make_ne_zero
    {c : Nat} (negative : Bool) (e : Int)
    (h : c ≠ 0) :
    (make negative c e).coefficient ≠ 0 := by
  unfold make
  rw [if_neg h]
  dsimp only
  rcases exists_stripZeros (Nat.toDigits 10 c).length c e with ⟨zeros, hcoefficient, _⟩
  intro hzero
  rw [hzero, Nat.zero_mul] at hcoefficient
  exact h hcoefficient

theorem coefficient_make_zero (negative : Bool) (e : Int) :
    (make negative 0 e).coefficient = 0 := rfl

/-- Two numbers with one exponent are the same only where they are written alike. -/
theorem eq_of_make_eq
    {a b : Bool} {c d : Nat} {e : Int}
    (h : make a c e = make b d e) :
    c = d ∧ (c = 0 ∨ a = b) := by
  by_cases hc : c = 0
  · refine ⟨?_, Or.inl hc⟩
    apply Decidable.byContradiction
    intro hd
    have hne := coefficient_make_ne_zero b e fun hzero => hd (hc.trans hzero.symm)
    rw [← h, hc] at hne
    exact hne (coefficient_make_zero a e)
  · have hd : d ≠ 0 := by
      intro hzero
      have hne := coefficient_make_ne_zero a e hc
      rw [h, hzero] at hne
      exact hne (coefficient_make_zero b e)
    unfold make at h
    rw [if_neg hc, if_neg hd] at h
    dsimp only at h
    rcases exists_stripZeros (Nat.toDigits 10 c).length c e with ⟨zeros, hcoefficient, hexponent⟩
    rcases exists_stripZeros (Nat.toDigits 10 d).length d e with ⟨zeros', hcoefficient', hexponent'⟩
    rcases ExactNumber.mk.inj h with ⟨hnegative, hsame, hplaces⟩
    have hzeros : zeros = zeros' := by
      rw [hexponent, hexponent'] at hplaces
      omega
    refine ⟨?_, Or.inr hnegative⟩
    rw [hcoefficient, hcoefficient', hsame, hzeros]

theorem ofInt_inj {n m : Int} (h : ofInt n = ofInt m) : n = m := by
  rcases eq_of_make_eq h with ⟨hmagnitude, hsign⟩
  rw [decide_eq_decide] at hsign
  omega

theorem signedUnits_of_make_eq
    {a b : Bool} {r s n : Nat} {e : Int}
    (h : make a (Binary64.units r * Nat.pow 5 n) e = make b (Binary64.units s * Nat.pow 5 n) e) :
    Binary64.signedUnits a r = Binary64.signedUnits b s := by
  have hpower : 0 < Nat.pow 5 n := Nat.pow_pos (Nat.succ_pos 4)
  rcases eq_of_make_eq h with ⟨hproduct, hsign⟩
  have hunits := Nat.eq_of_mul_eq_mul_right hpower hproduct
  unfold Binary64.signedUnits
  rcases hsign with hzero | hnegative
  · have hnone := (Nat.mul_eq_zero.mp hzero).resolve_right (Nat.ne_of_gt hpower)
    rw [← hunits, hnone]
    cases a <;> cases b <;> rfl
  · rw [hunits, hnegative]

/-- Finite binary numbers that are the same are the same multiple of the smallest one. -/
theorem ofRank_inj
    {a b : Bool} {r s : Nat}
    (h : ofRank a r = ofRank b s) :
    Binary64.signedUnits a r = Binary64.signedUnits b s :=
  signedUnits_of_make_eq h

end ExactNumber
end RecordApi
