import RecordApi.Proofs.Number.Shortest

/-!
# Texts of binary numbers

The text of a binary number writes the exact decimal that stands for it.  This decimal is rounded to
the number, and it is the number itself where that is whole and not too large.
-/

namespace RecordApi

open Binary64

namespace Binary64

/-! ## The text of digits -/

/-- The numeral that a text of digits writes: it has one place behind the point when it would
otherwise have none. -/
def Digits.numeral (negative : Bool) (digits : Digits) : Numeral :=
  if digits.exponent < 0 ∨
      ((Nat.toDigits 10 digits.coefficient).length : Int) + digits.exponent > 16 then
    ⟨negative, digits.coefficient, digits.exponent⟩
  else ⟨negative, digits.coefficient * tenTo (digits.exponent.toNat + 1), -1⟩

/-- The power of ten behind a mantissa, in at least two digits. -/
theorem exponentPart?_power (power : Int) :
    Numeral.exponentPart? ('e' :: (if power < 0 then '-' else '+') ::
      (if (Nat.toDigits 10 power.natAbs).length < 2 then '0' :: Nat.toDigits 10 power.natAbs
        else Nat.toDigits 10 power.natAbs)) = some power := by
  generalize hpadded : (if (Nat.toDigits 10 power.natAbs).length < 2 then
    '0' :: Nat.toDigits 10 power.natAbs else Nat.toDigits 10 power.natAbs) = padded
  have hdigits : ∀ c ∈ padded, c.isDigit = true := by
    intro c hc
    rw [← hpadded] at hc
    split at hc
    · rcases List.mem_cons.mp hc with rfl | hmem
      · decide
      · exact Numeral.isDigit_of_mem_toDigits hmem
    · exact Numeral.isDigit_of_mem_toDigits hc
  have hvalue : Numeral.natOfAscii padded = power.natAbs := by
    rw [← hpadded]
    split
    · exact (Numeral.natOfAscii_zeros_append 1 _).trans (Numeral.natOfAscii_toDigits _)
    · exact Numeral.natOfAscii_toDigits _
  have hne : padded ≠ [] := by
    rw [← hpadded]
    split
    · exact List.cons_ne_nil _ _
    · exact Nat.toDigits_ne_nil
  by_cases hneg : power < 0
  · have hsign : Numeral.splitSign ('-' :: padded) = (true, padded) := rfl
    rw [if_pos hneg, Numeral.exponentPart?_eq_some (.inl rfl) hsign hne hdigits, hvalue, if_pos rfl]
    congr 1
    omega
  · have hsign : Numeral.splitSign ('+' :: padded) = (false, padded) := rfl
    rw [if_neg hneg, Numeral.exponentPart?_eq_some (.inl rfl) hsign hne hdigits, hvalue, if_neg (by decide)]
    congr 1
    omega

theorem isDigit_of_mem_zeros {places : Nat} {c : Char} (h : c ∈ List.replicate places '0') :
    c.isDigit = true := by
  rw [List.eq_of_mem_replicate h]
  rfl

section Layouts

variable {ds : List Char} (negative : Bool)

/-- A point without a power of ten. -/
theorem unsigned?_places
    {whole fraction : List Char}
    (hne : whole ≠ []) (hwhole : ∀ c ∈ whole, c.isDigit = true)
    (hfraction : ∀ c ∈ fraction, c.isDigit = true) :
    Numeral.unsigned? negative (whole ++ '.' :: fraction) =
      some ⟨negative, Numeral.natOfAscii (whole ++ fraction), -(fraction.length : Int)⟩ := by
  have hnil : ∀ c ∈ ([] : List Char).head?, c.isDigit = false := by simp
  have hread := Numeral.unsigned?_point negative (.inl hne) hwhole hfraction hnil
  rw [List.append_nil] at hread
  refine hread.trans ?_
  change some (Numeral.mk negative _ (0 - _)) = _
  rw [Int.zero_sub]

/-- All digits stand behind the point. -/
theorem unsigned?_behind (hdigits : ∀ c ∈ ds, c.isDigit = true) (places : Nat) :
    Numeral.unsigned? negative (['0'] ++ '.' :: (List.replicate places '0' ++ ds)) =
      some ⟨negative, Numeral.natOfAscii ds, -((places + ds.length : Nat) : Int)⟩ := by
  have hfraction : ∀ c ∈ List.replicate places '0' ++ ds, c.isDigit = true := by
    intro c hc
    rcases List.mem_append.mp hc with hzeros | hmem
    · exact isDigit_of_mem_zeros hzeros
    · exact hdigits c hmem
  have hcoefficient : Numeral.natOfAscii (['0'] ++ (List.replicate places '0' ++ ds)) =
      Numeral.natOfAscii ds :=
    (Numeral.natOfAscii_zeros_append 1 _).trans (Numeral.natOfAscii_zeros_append places ds)
  rw [unsigned?_places negative (List.cons_ne_nil _ _) (List.all_eq_true.mp rfl) hfraction,
    hcoefficient, List.length_append, List.length_replicate]

/-- All digits stand before the point. -/
theorem unsigned?_before
    (hne : ds ≠ []) (hdigits : ∀ c ∈ ds, c.isDigit = true) (places : Nat) :
    Numeral.unsigned? negative (ds ++ List.replicate places '0' ++ '.' :: ['0']) =
      some ⟨negative, Numeral.natOfAscii ds * tenTo (places + 1), -1⟩ := by
  have hwhole : ∀ c ∈ ds ++ List.replicate places '0', c.isDigit = true := by
    intro c hc
    rcases List.mem_append.mp hc with hmem | hzeros
    · exact hdigits c hmem
    · exact isDigit_of_mem_zeros hzeros
  have hcoefficient : Numeral.natOfAscii (ds ++ List.replicate places '0' ++ ['0']) =
      Numeral.natOfAscii ds * tenTo (places + 1) := by
    rw [List.append_assoc, ← List.replicate_succ', Numeral.natOfAscii_append_zeros]
  rw [unsigned?_places negative (List.append_ne_nil_of_left_ne_nil hne _) hwhole
    (List.all_eq_true.mp rfl), hcoefficient]
  rfl

/-- The point stands among the digits. -/
theorem unsigned?_among
    (hdigits : ∀ c ∈ ds, c.isDigit = true) {places : Nat} (hsome : ds.take places ≠ []) :
    Numeral.unsigned? negative (ds.take places ++ '.' :: ds.drop places) =
      some ⟨negative, Numeral.natOfAscii ds, -((ds.length - places : Nat) : Int)⟩ := by
  rw [unsigned?_places negative hsome (fun c hc => hdigits c (List.mem_of_mem_take hc))
    (fun c hc => hdigits c (List.mem_of_mem_drop hc)), List.take_append_drop, List.length_drop]

/-- The first digit stands before the point, and a power of ten is behind the last. -/
theorem unsigned?_mantissa
    {tail : List Char} {power : Int}
    (hpower : Numeral.exponentPart? ('e' :: tail) = some power) :
    ds ≠ [] → (∀ c ∈ ds, c.isDigit = true) →
      Numeral.unsigned? negative ((match ds with
          | [] => []
          | [d] => [d]
          | d :: rest => d :: '.' :: rest) ++ 'e' :: tail) =
        some ⟨negative, Numeral.natOfAscii ds, power - ((ds.length : Int) - 1)⟩ := by
  intro hne hdigits
  have hhead (c : Char) (hc : c ∈ ('e' :: tail).head?) : c.isDigit = false ∧ c ≠ '.' := by
    cases hc
    decide
  cases ds with
  | nil => exact absurd rfl hne
  | cons d rest =>
      cases rest with
      | nil =>
          have hread := Numeral.unsigned?_whole negative hne hdigits hhead
          rw [hpower] at hread
          refine hread.trans ?_
          change some (Numeral.mk negative _ power) = some (Numeral.mk negative _ (power - (1 - 1)))
          rw [Int.sub_self, Int.sub_zero]
      | cons d' rest =>
          have hwhole : ∀ c ∈ [d], c.isDigit = true := by
            intro c hc
            rw [List.mem_singleton.mp hc]
            exact hdigits d List.mem_cons_self
          have hfraction : ∀ c ∈ d' :: rest, c.isDigit = true :=
            fun c hc => hdigits c (List.mem_cons_of_mem d hc)
          have hread := Numeral.unsigned?_point negative (.inl (List.cons_ne_nil d [])) hwhole
            hfraction fun c hc => (hhead c hc).1
          have hlength : ((d :: d' :: rest).length : Int) - 1 = ((d' :: rest).length : Int) := by
            rw [List.length_cons]
            omega
          rw [hpower] at hread
          rw [hlength]
          exact hread

end Layouts

/-- The text of digits is read as the numeral that it writes. -/
theorem unsigned?_text (negative : Bool) (digits : Digits) :
    Numeral.unsigned? negative digits.text.toList = some (digits.numeral negative) := by
  have hvalue := Numeral.natOfAscii_toDigits digits.coefficient
  have hdigits (c : Char) (hc : c ∈ Nat.toDigits 10 digits.coefficient) : c.isDigit = true :=
    Numeral.isDigit_of_mem_toDigits hc
  have hne : Nat.toDigits 10 digits.coefficient ≠ [] := Nat.toDigits_ne_nil
  have hpos := List.length_pos_iff.mpr hne
  unfold Digits.text Digits.numeral
  dsimp only
  generalize Nat.toDigits 10 digits.coefficient = ds at hvalue hdigits hne hpos ⊢
  rw [← hvalue]
  split
  · split
    · generalize hplaces : (-((ds.length : Int) + digits.exponent)).toNat = places
      have hexponent : -((places + ds.length : Nat) : Int) = digits.exponent := by omega
      have hread := unsigned?_behind negative hdigits places
      rw [if_pos (by omega), String.toList_ofList, List.append_assoc]
      rwa [hexponent] at hread
    · split
      · generalize hplaces : ((ds.length : Int) + digits.exponent).toNat - ds.length = places
        have hsame : places = digits.exponent.toNat := by omega
        rw [if_neg (by omega), String.toList_ofList, ← hsame]
        exact unsigned?_before negative hne hdigits places
      · generalize hplaces : ((ds.length : Int) + digits.exponent).toNat = places
        have hexponent : -((ds.length - places : Nat) : Int) = digits.exponent := by omega
        have hsome : ds.take places ≠ [] := by
          rw [Ne, List.take_eq_nil_iff]
          rintro (hnone | hnone)
          · omega
          · exact hne hnone
        rw [if_pos (by omega), String.toList_ofList, unsigned?_among negative hdigits hsome,
          hexponent]
  · have hoverflow : digits.exponent < 0 ∨ (ds.length : Int) + digits.exponent > 16 := by omega
    have hread := unsigned?_mantissa negative
      (exponentPart?_power ((ds.length : Int) + digits.exponent - 1)) hne hdigits
    have hexponent : (ds.length : Int) + digits.exponent - 1 - ((ds.length : Int) - 1) =
        digits.exponent := by omega
    rw [hexponent] at hread
    rw [if_pos hoverflow, String.toList_ofList]
    exact hread

/-! ## The decimal of a number -/

variable {negative : Bool} {rank : Fin rankLimit}

/-- The numeral of a number stands for it, and its digits are few. -/
theorem stands_numeral (negative : Bool) (hrank : 0 < rank.val) :
    Stands ((shortest rank).numeral negative).coefficient
        ((shortest rank).numeral negative).exponent rank ∧
      -420 ≤ ((shortest rank).numeral negative).exponent := by
  rcases stands_shortest hrank rank.isLt with ⟨hstands, hleast⟩
  unfold Digits.numeral
  split
  · exact ⟨hstands, hleast⟩
  · rename_i hwhole
    have he : 0 ≤ (shortest rank).exponent := by omega
    have hwhole := (stands_whole_iff he).mp hstands
    have hzero : (0 : Int) = -1 + 1 := rfl
    rw [hzero, stands_succ_iff] at hwhole
    constructor
    · dsimp only
      rw [tenTo_succ, ← Nat.mul_assoc, Nat.mul_comm _ 10]
      exact hwhole
    · show (-420 : Int) ≤ -1
      decide

end Binary64

namespace Decimal

variable {negative : Bool} {rank : Fin rankLimit}

theorem ofBinary64_of_pos (negative : Bool) (hrank : 0 < rank.val) :
    ofBinary64 (.finite negative rank) =
      .finite negative ((shortest rank).numeral negative).coefficient
        ((shortest rank).numeral negative).exponent := by
  unfold ofBinary64 Digits.numeral
  dsimp only
  rw [if_neg (Nat.ne_of_gt hrank)]
  split <;> rfl

/-- The exact decimal of a number is rounded to the number. -/
theorem toBinary64_ofBinary64
    {x : Binary64}
    (hx : x.isFinite = true) :
    (ofBinary64 x).toBinary64 = x := by
  cases x with
  | finite negative rank =>
      rcases Nat.eq_zero_or_pos rank.val with hzero | hpos
      · have hrank : rank = ⟨0, by decide⟩ := Fin.ext hzero
        rw [hrank]
        rfl
      · rw [ofBinary64_of_pos negative hpos]
        exact (ofNumeral_of_stands negative (stands_numeral negative hpos).1).trans
          (ofRank_of_lt negative rank)
  | _ => cases hx

theorem toInt?_of_nonneg (negative : Bool) (c : Nat) {e : Int} (he : 0 ≤ e) :
    (finite negative c e).toInt? =
      some (if negative then -((c * tenTo e.toNat : Nat) : Int) else (c * tenTo e.toNat : Nat)) := by
  unfold toInt?
  dsimp only
  rw [if_pos he]

/-- A whole number with zeros behind its point. -/
theorem toInt?_of_places (negative : Bool) (c places : Nat) :
    (finite negative (c * tenTo places) (-(places : Int))).toInt? =
      some (if negative then -(c : Int) else c) := by
  cases places with
  | zero =>
      rw [toInt?_of_nonneg negative _ (by decide)]
      change some (if negative then -((c * 1 * 1 : Nat) : Int) else (c * 1 * 1 : Nat)) = _
      rw [Nat.mul_one, Nat.mul_one]
  | succ places =>
      have hplaces : (-(-((places + 1 : Nat) : Int))).toNat = places + 1 := by omega
      have hpos := tenTo_pos (places + 1)
      unfold toInt?
      dsimp only
      rw [if_neg (by omega), hplaces]
      rcases Nat.eq_zero_or_pos c with hzero | hc
      · rw [hzero, Nat.zero_mul, if_pos rfl]
        cases negative <;> rfl
      · have hcount : ¬ Numeral.digitCount (c * tenTo (places + 1)) ≤ places + 1 := by
          rw [Numeral.digitCount_le_iff]
          exact Nat.not_lt.mpr (Nat.le_mul_of_pos_left _ hc)
        rw [if_neg (Nat.ne_of_gt (Nat.mul_pos hc hpos)), if_neg hcount,
          if_pos (Nat.mul_mod_left _ _), Nat.mul_div_cancel _ hpos]

/-- A decimal equals an integer when its coefficient, moved to the point, is that many. -/
theorem toInt?_eq_some_iff
    {negative : Bool} {c : Nat} {e n : Int} :
    (finite negative c e).toInt? = some n ↔
      ∃ k : Nat, c * tenTo e.toNat = k * tenTo (-e).toNat ∧ n = if negative then -(k : Int) else k := by
  have hone : tenTo 0 = 1 := rfl
  by_cases he : 0 ≤ e
  · have hzero : (-e).toNat = 0 := by omega
    rw [toInt?_of_nonneg negative c he, hzero, hone, Option.some.injEq]
    constructor
    · intro h
      exact ⟨_, (Nat.mul_one _).symm, h.symm⟩
    · rintro ⟨k, hk, rfl⟩
      rw [hk, Nat.mul_one]
  · have hzero : e.toNat = 0 := by omega
    rw [hzero, hone, Nat.mul_one]
    constructor
    · intro h
      unfold toInt? at h
      dsimp only at h
      rw [if_neg he] at h
      split at h
      · rename_i hc
        cases h
        refine ⟨0, by rw [hc, Nat.zero_mul], ?_⟩
        cases negative <;> rfl
      · split at h
        · cases h
        · split at h
          · rename_i hmod
            exact ⟨_, (Nat.div_mul_cancel (Nat.dvd_of_mod_eq_zero hmod)).symm,
              (Option.some.inj h).symm⟩
          · cases h
    · rintro ⟨k, rfl, rfl⟩
      have hplaces := toInt?_of_places negative k (-e).toNat
      have hexponent : -((-e).toNat : Int) = e := by omega
      rwa [hexponent] at hplaces

/-- A whole number of at most 53 binary digits is the same as an exact decimal. -/
theorem toInt?_ofBinary64
    {x : Binary64} {n : Int}
    (hx : x.toInt? = some n) (hn : n.natAbs ≤ 2 * binade) :
    (ofBinary64 x).toInt? = some n := by
  cases x with
  | finite negative rank =>
      have hunit := unitsPerOne_pos
      have hunits := congrArg Int.natAbs (signedUnits_of_toInt? hx)
      rw [Int.natAbs_mul, Int.natAbs_natCast] at hunits
      have hmagnitude : units rank = n.natAbs * unitsPerOne := by
        rw [← hunits]
        unfold signedUnits
        split
        · rw [Int.natAbs_neg, Int.natAbs_natCast]
        · rw [Int.natAbs_natCast]
      have hsigned : n = if negative then -(n.natAbs : Int) else n.natAbs := by
        have hscaled := signedUnits_of_toInt? hx
        have hne : (unitsPerOne : Int) ≠ 0 := Int.natCast_ne_zero.mpr (Nat.ne_of_gt hunit)
        unfold signedUnits at hscaled
        rw [hmagnitude, Int.natCast_mul] at hscaled
        apply Int.eq_of_mul_eq_mul_right hne
        rw [← hscaled]
        split
        · rw [Int.neg_mul]
        · rfl
      rcases Nat.eq_zero_or_pos rank.val with hzero | hpos
      · rw [hzero, units_zero] at hmagnitude
        have hnone : n.natAbs = 0 := by
          rcases Nat.mul_eq_zero.mp hmagnitude.symm with h | h
          · exact h
          · omega
        have hrank : rank = ⟨0, by decide⟩ := Fin.ext hzero
        rw [hrank, Int.natAbs_eq_zero.mp hnone]
        rfl
      · have hwhole : 0 < n.natAbs := by
          apply Nat.pos_of_mul_pos_right (b := unitsPerOne)
          rw [← hmagnitude]
          exact units_strictMono hpos
        rcases shortest_whole hmagnitude hwhole hn hpos rank.isLt with ⟨he, hvalue⟩
        unfold ofBinary64
        dsimp only
        rw [if_neg (Nat.ne_of_gt hpos), hsigned]
        split
        · rw [toInt?_of_nonneg negative _ he, hvalue]
        · have hplaces := toInt?_of_places negative n.natAbs 1
          rw [tenTo_succ, ← Nat.mul_assoc, hvalue]
          exact hplaces
  | _ => cases hx

/-- The exact decimal of a number is an integer when the number is. -/
theorem isSome_toInt?_ofBinary64 (x : Binary64) :
    (ofBinary64 x).toInt?.isSome = x.toInt?.isSome := by
  cases x with
  | finite negative rank =>
      rcases Nat.eq_zero_or_pos rank.val with hzero | hpos
      · have hrank : rank = ⟨0, by decide⟩ := Fin.ext hzero
        rw [hrank]
        cases negative <;> rfl
      · rw [Bool.eq_iff_iff, isSome_toInt?_iff]
        constructor
        · intro h
          rcases Option.isSome_iff_exists.mp h with ⟨n, hn⟩
          rw [ofBinary64_of_pos negative hpos] at hn
          rcases toInt?_eq_some_iff.mp hn with ⟨k, hk, _⟩
          have hstands := (stands_numeral negative hpos).1
          exact dvd_units_of_stands ((stands_iff_of_value hk).mp hstands)
        · rintro ⟨n, hn⟩
          rw [Nat.mul_comm] at hn
          have hwhole : 0 < n := by
            apply Nat.pos_of_mul_pos_right (b := unitsPerOne)
            rw [← hn]
            exact units_strictMono hpos
          have he := exponent_nonneg_of_whole hn hwhole hpos rank.isLt
          unfold ofBinary64
          dsimp only
          rw [if_neg (Nat.ne_of_gt hpos)]
          split
          · rw [toInt?_of_nonneg negative _ he]
            rfl
          · have hplaces := toInt?_of_places negative
              ((shortest rank).coefficient * tenTo (shortest rank).exponent.toNat) 1
            rw [Nat.mul_assoc] at hplaces
            rw [tenTo_succ]
            exact Option.isSome_iff_exists.mpr ⟨_, hplaces⟩
  | _ => rfl

/-- A numeral of a number is within the bounds of decimals. -/
theorem ofNumeral?_numeral (negative : Bool) (hrank : 0 < rank.val) :
    ofNumeral? ((shortest rank).numeral negative) = some (ofBinary64 (.finite negative rank)) := by
  rcases stands_numeral negative hrank with ⟨hstands, hleast⟩
  have hpos := hstands.pos hrank
  have hdigits := hstands.digits_le rank.isLt hpos
  have hbound : exponentBound = 999999999999999999 := rfl
  have hsign : ((shortest rank).numeral negative).negative = negative := by
    unfold Digits.numeral
    split <;> rfl
  have hone : 1 ≤ Numeral.digitCount ((shortest rank).numeral negative).coefficient :=
    Numeral.digitCount_pos hpos
  rw [ofNumeral?_eq_some (by omega) (by omega) (by omega), hsign, ofBinary64_of_pos negative hrank]

/-- The text of a number is read as its exact decimal. -/
theorem ofChars?_text (x : Binary64) : ofChars? x.text.toList = some (ofBinary64 x) := by
  cases x with
  | nan => decide
  | infinite negative => cases negative <;> decide
  | finite negative rank =>
      rcases Nat.eq_zero_or_pos rank.val with hzero | hpos
      · have hrank : rank = ⟨0, by decide⟩ := Fin.ext hzero
        rw [hrank]
        cases negative with
        | true => decide
        | false => decide
      · have hread := unsigned?_text negative (shortest rank)
        have hmarks := Numeral.isMark_of_unsigned? hread
        have htext : (Binary64.finite negative rank).text =
            if negative then "-" ++ (shortest rank).text else (shortest rank).text := by
          unfold Binary64.text
          dsimp only
          rw [if_neg (Nat.ne_of_gt hpos)]
        rw [htext]
        cases negative with
        | true =>
            have hsplit : Numeral.splitSign ('-' :: (shortest rank).text.toList) =
                (true, (shortest rank).text.toList) := rfl
            rw [if_pos rfl, String.toList_append]
            change ofChars? ('-' :: (shortest rank).text.toList) = _
            rw [ofChars?_of_isMark, ofPlainChars?_of_unsigned? hsplit hread,
              ofNumeral?_numeral true hpos]
            rw [List.forall_mem_cons]
            exact ⟨Or.inr (by decide), hmarks⟩
        | false =>
            rw [if_neg (by decide), ofChars?_of_isMark hmarks,
              ofPlainChars?_of_unsigned? (Numeral.splitSign_of_unsigned? hread) hread,
              ofNumeral?_numeral false hpos]

end Decimal
end RecordApi
