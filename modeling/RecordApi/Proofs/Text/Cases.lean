import RecordApi.Proofs.Number.Numerals

/-!
# Texts up to letter case

Two texts are the same up to case when they differ at most in the case of ASCII letters: they have
as many characters, and at every place the same small letter.  Characters that are no letters of
ASCII have no case, so a text splits where the other one does.
-/

namespace RecordApi
namespace Text

/-- Two texts differ at most in the case of ASCII letters. -/
def SameButCase (s t : List Char) : Prop :=
  s.map Char.toLower = t.map Char.toLower

instance (s t : List Char) : Decidable (SameButCase s t) :=
  inferInstanceAs (Decidable (_ = _))

variable {s t : List Char} {c d : Char}

theorem SameButCase.refl (s : List Char) : SameButCase s s := rfl

theorem SameButCase.symm (h : SameButCase s t) : SameButCase t s := Eq.symm h

theorem sameButCase_cons_iff :
    SameButCase (c :: s) (d :: t) ↔ c.toLower = d.toLower ∧ SameButCase s t := by
  unfold SameButCase
  rw [List.map_cons, List.map_cons, List.cons.injEq]

theorem SameButCase.length_eq (h : SameButCase s t) : s.length = t.length := by
  have hlength := congrArg List.length h
  rwa [List.length_map, List.length_map] at hlength

theorem SameButCase.exists_append
    {before after : List Char}
    (h : SameButCase s (before ++ after)) :
    ∃ before' after', s = before' ++ after' ∧
      SameButCase before' before ∧ SameButCase after' after := by
  unfold SameButCase at h
  rw [List.map_append] at h
  exact List.map_eq_append_iff.mp h

theorem SameButCase.cons_inv
    (h : SameButCase (c :: s) t) :
    ∃ d rest, t = d :: rest ∧ c.toLower = d.toLower ∧ SameButCase s rest := by
  cases t with
  | nil => cases h.length_eq
  | cons d rest => exact ⟨d, rest, rfl, sameButCase_cons_iff.mp h⟩

theorem SameButCase.take (h : SameButCase s t) (n : Nat) :
    SameButCase (s.take n) (t.take n) := by
  unfold SameButCase at *
  rw [List.map_take, List.map_take, h]

/-! ## Characters without case -/

theorem toLower_of_not_ascii {c : Char} (h : ¬ c.toNat < 128) : c.toLower = c := by
  have hle : ¬ c.val ≤ 'Z'.val := by
    intro hle
    have hnat : c.toNat ≤ 90 := hle
    omega
  unfold Char.toLower
  rw [dif_neg fun hrange => hle hrange.2]

theorem toLower_toLower (c : Char) : c.toLower.toLower = c.toLower := by
  by_cases hascii : c.toNat < 128
  · have hall : ∀ n < 128, (Char.ofNat n).toLower.toLower = (Char.ofNat n).toLower := by decide
    exact forall_ascii (p := fun c => c.toLower.toLower = c.toLower) hall hascii
  · rw [toLower_of_not_ascii hascii, toLower_of_not_ascii hascii]

theorem toUpper_toLower (c : Char) : c.toLower.toUpper = c.toUpper := by
  by_cases hascii : c.toNat < 128
  · have hall : ∀ n < 128, (Char.ofNat n).toLower.toUpper = (Char.ofNat n).toUpper := by decide
    exact forall_ascii (p := fun c => c.toLower.toUpper = c.toUpper) hall hascii
  · rw [toLower_of_not_ascii hascii]

theorem eq_toLower_or_eq_toUpper (c : Char) : c = c.toLower ∨ c = c.toUpper := by
  by_cases hascii : c.toNat < 128
  · have hall : ∀ n < 128, Char.ofNat n = (Char.ofNat n).toLower ∨
        Char.ofNat n = (Char.ofNat n).toUpper := by decide
    exact forall_ascii (p := fun c => c = c.toLower ∨ c = c.toUpper) hall hascii
  · exact .inl (toLower_of_not_ascii hascii).symm

/-- What has a small form that is no letter of ASCII is its own small form. -/
theorem toLower_of_not_isAlpha
    (h : c.toLower.isAlpha = false) :
    c.toLower = c := by
  by_cases hascii : c.toNat < 128
  · have hall : ∀ n < 128, (Char.ofNat n).toLower.isAlpha = false →
        (Char.ofNat n).toLower = Char.ofNat n := by decide
    exact forall_ascii (p := fun c => c.toLower.isAlpha = false → c.toLower = c) hall hascii h
  · exact toLower_of_not_ascii hascii

theorem isAlpha_toLower (c : Char) : c.toLower.isAlpha = c.isAlpha := by
  by_cases hascii : c.toNat < 128
  · have hall : ∀ n < 128, (Char.ofNat n).toLower.isAlpha = (Char.ofNat n).isAlpha := by decide
    exact forall_ascii (p := fun c => c.toLower.isAlpha = c.isAlpha) hall hascii
  · rw [toLower_of_not_ascii hascii]

/-- A character that is no letter of ASCII is the same as itself alone. -/
theorem toLower_eq_iff
    (hd : d.isAlpha = false) :
    c.toLower = d.toLower ↔ c = d := by
  rw [← isAlpha_toLower] at hd
  constructor
  · intro h
    have hc : c.toLower.isAlpha = false := by rw [h, hd]
    rw [← toLower_of_not_isAlpha hc, h, toLower_of_not_isAlpha hd]
  · intro h
    rw [h]

/-- By induction on the texts, which meet the character at the same place. -/
theorem SameButCase.takeWhile_ne
    (h : SameButCase s t) (hd : d.isAlpha = false) :
    SameButCase (s.takeWhile (· ≠ d)) (t.takeWhile (· ≠ d)) := by
  induction s generalizing t with
  | nil =>
      rw [List.eq_nil_of_length_eq_zero h.length_eq.symm]
      exact SameButCase.refl _
  | cons c rest ih =>
      cases t with
      | nil => cases h.length_eq
      | cons c' rest' =>
          rcases sameButCase_cons_iff.mp h with ⟨hc, hrest⟩
          have hmeets : c = d ↔ c' = d := by
            rw [← toLower_eq_iff hd, ← toLower_eq_iff hd, hc]
          by_cases hcd : c = d
          · rw [List.takeWhile_cons_of_neg (by simpa using hcd),
              List.takeWhile_cons_of_neg (by simpa using hmeets.mp hcd)]
            exact SameButCase.refl _
          · rw [List.takeWhile_cons_of_pos (by simpa using hcd),
              List.takeWhile_cons_of_pos (by simpa using fun h => hcd (hmeets.mpr h))]
            exact sameButCase_cons_iff.mpr ⟨hc, ih hrest⟩

end Text
end RecordApi
