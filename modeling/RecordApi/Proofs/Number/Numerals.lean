import Mathlib.Data.Nat.Digits.Defs
import RecordApi.Number.Decimal
import RecordApi.Proofs.Number.Rounding
import RecordApi.Proofs.Params.Indices
import RecordApi.Proofs.Text.Pieces

/-!
# Reading numerals back

The digits of a number read as the number again.  A numeral of digits, a point and a power is
taken apart at the point and at the power, and no numeral is one of the words that floating-point
text allows.
-/

namespace RecordApi
namespace Text

/-! ## Plain characters -/

/-- A fact about the characters of ASCII is checked on the numbers of one byte. -/
theorem forall_ascii
    {p : Char → Prop} (h : ∀ n < 128, p (Char.ofNat n))
    {c : Char} (hc : c.toNat < 128) :
    p c := by
  have hchar := h c.toNat hc
  rwa [Char.ofNat_toNat] at hchar

theorem lt_of_isDigit {c : Char} (h : c.isDigit = true) : c.toNat < 128 := by
  simp only [Char.isDigit, ge_iff_le, Bool.and_eq_true, decide_eq_true_eq] at h
  have hle : c.toNat ≤ 57 := h.2
  omega

theorem utf8Size_of_ascii {c : Char} (h : c.toNat < 128) : c.utf8Size = 1 := by
  have hnat : c.toNat ≤ 127 := Nat.le_of_lt_succ h
  have hle : c.val ≤ 127 := hnat
  unfold Char.utf8Size
  exact if_pos hle

theorem isBlank_of_isDigit {c : Char} (h : c.isDigit = true) : isBlank c = false := by
  have hall : ∀ n < 128, (Char.ofNat n).isDigit = true → isBlank (Char.ofNat n) = false := by
    decide
  exact forall_ascii (p := fun c => c.isDigit = true → isBlank c = false) hall (lt_of_isDigit h) h

end Text

namespace Numeral

/-! ## Digits of ASCII -/

theorem asciiDigits_eq_self
    {cs : List Char} (h : ∀ c ∈ cs, c.toNat < 128) :
    asciiDigits cs = cs := by
  have hall : ∀ n < 128, ((Text.digitValue? (Char.ofNat n)).map Nat.digitChar).getD (Char.ofNat n) =
      Char.ofNat n := by decide
  have hkeep (c : Char) (hc : c.toNat < 128) :
      ((Text.digitValue? c).map Nat.digitChar).getD c = c :=
    Text.forall_ascii (p := fun c => ((Text.digitValue? c).map Nat.digitChar).getD c = c) hall hc
  unfold asciiDigits
  rw [List.map_congr_left (g := id) fun c hc => hkeep c (h c hc), List.map_id]

/-! ## The digits of a number -/

theorem natOfAscii_toDigits (n : Nat) : natOfAscii (Nat.toDigits 10 n) = n :=
  Nat.ofDigitChars_ten_toDigits

theorem natOfAscii_append_zeros (cs : List Char) (places : Nat) :
    natOfAscii (cs ++ List.replicate places '0') = natOfAscii cs * tenTo places := by
  rw [Nat.mul_comm]
  exact Nat.ofDigitChars_append 0 |>.trans Nat.ofDigitChars_replicate_zero

theorem natOfAscii_zeros_append (places : Nat) (cs : List Char) :
    natOfAscii (List.replicate places '0' ++ cs) = natOfAscii cs := by
  have hzeros : Nat.ofDigitChars 10 (List.replicate places '0') 0 = 0 :=
    Nat.ofDigitChars_replicate_zero
  have happend : natOfAscii (List.replicate places '0' ++ cs) =
      Nat.ofDigitChars 10 cs (Nat.ofDigitChars 10 (List.replicate places '0') 0) :=
    Nat.ofDigitChars_append 0
  rw [happend, hzeros]
  rfl

theorem digitCount_le_iff {n places : Nat} : digitCount n ≤ places ↔ n < tenTo places := by
  unfold digitCount
  split
  · rename_i hzero
    simp [hzero, tenTo_pos]
  · rename_i hne
    cases places with
    | zero =>
        have hlength := Nat.length_toDigits_pos (b := 10) (n := n)
        have hone : tenTo 0 = 1 := rfl
        omega
    | succ places => exact Nat.length_toDigits_le_iff (by decide) (Nat.succ_pos places)

theorem digitCount_pos {n : Nat} (h : 0 < n) : 1 ≤ digitCount n := by
  by_contra hnone
  have hsmall : n < tenTo 0 := digitCount_le_iff.mp (by omega)
  have hone : tenTo 0 = 1 := rfl
  omega

/-- As many digits as a list has are enough for the number that it writes. -/
theorem natOfAscii_lt
    {cs : List Char}
    (h : ∀ c ∈ cs, c.isDigit = true) :
    natOfAscii cs < tenTo cs.length := by
  induction cs with
  | nil => exact Nat.one_pos
  | cons c rest ih =>
      rw [List.forall_mem_cons] at h
      have hdigit : c.toNat - '0'.toNat ≤ 9 := by
        have hc := h.1
        simp only [Char.isDigit, ge_iff_le, Bool.and_eq_true, decide_eq_true_eq] at hc
        have hle : c.toNat ≤ 57 := hc.2
        have hzero : '0'.toNat = 48 := rfl
        omega
      have hfirst : natOfAscii (c :: rest) =
          tenTo rest.length * (c.toNat - '0'.toNat) + natOfAscii rest := by
        have hcons : natOfAscii (c :: rest) =
            Nat.ofDigitChars 10 rest (10 * 0 + (c.toNat - '0'.toNat)) := rfl
        rw [hcons, Nat.mul_zero, Nat.zero_add, Nat.ofDigitChars_eq_ofDigitChars_zero]
        rfl
      rw [hfirst, List.length_cons, tenTo_succ]
      calc tenTo rest.length * (c.toNat - '0'.toNat) + natOfAscii rest
          < tenTo rest.length * (c.toNat - '0'.toNat) + tenTo rest.length :=
            Nat.add_lt_add_left (ih h.2) _
        _ = tenTo rest.length * (c.toNat - '0'.toNat + 1) := (Nat.mul_succ _ _).symm
        _ ≤ tenTo rest.length * 10 := Nat.mul_le_mul_left _ (by omega)

theorem isDigit_of_mem_toDigits {n : Nat} {c : Char} (h : c ∈ Nat.toDigits 10 n) :
    c.isDigit = true :=
  Nat.isDigit_of_mem_toDigits (by decide) (by decide) h

theorem ungroup?_eq_some
    {cs : List Char} (h : '_' ∉ cs) :
    ungroup? cs = some cs := by
  fun_induction ungroup? cs with
  | case1 => rfl
  | case2 rest => exact absurd List.mem_cons_self h
  | case3 c d rest _ _ => simp at h
  | case4 c d rest _ => simp at h
  | case5 c rest _ _ ih =>
      rw [ih fun hmem => h (List.mem_cons_of_mem c hmem)]
      rfl

theorem splitSign_digit {c : Char} (h : c.isDigit = true) (rest : List Char) :
    splitSign (c :: rest) = (false, c :: rest) := by
  unfold splitSign
  split
  · rename_i heq
    cases heq
    exact absurd h (by decide)
  · rename_i heq
    cases heq
    exact absurd h (by decide)
  · rfl

/-! ## Numerals -/

/-- Leading digits end where something else follows. -/
theorem span_digits
    {digits tail : List Char}
    (hdigits : ∀ c ∈ digits, c.isDigit = true) (htail : ∀ c ∈ tail.head?, c.isDigit = false) :
    (digits ++ tail).takeWhile Char.isDigit = digits ∧
      (digits ++ tail).dropWhile Char.isDigit = tail := by
  rw [List.takeWhile_append_of_pos hdigits, List.dropWhile_append_of_pos hdigits]
  cases tail with
  | nil => simp
  | cons c rest => simp [htail c rfl]

theorem exponentPart?_eq_some
    {mark : Char} {rest digits : List Char} {negative : Bool}
    (hmark : mark = 'e' ∨ mark = 'E') (hsign : splitSign rest = (negative, digits))
    (hne : digits ≠ []) (hdigits : ∀ c ∈ digits, c.isDigit = true) :
    exponentPart? (mark :: rest) =
      some (if negative then -(natOfAscii digits : Int) else natOfAscii digits) := by
  have hall : digits.all Char.isDigit = true := List.all_eq_true.mpr hdigits
  have hempty : digits.isEmpty = false := List.isEmpty_eq_false_iff.mpr hne
  unfold exponentPart?
  dsimp only
  rw [if_pos hmark, hsign]
  dsimp only
  rw [hall, hempty]
  rfl

/-- Digits without a point, before what is neither. -/
theorem unsigned?_whole
    (negative : Bool) {whole tail : List Char}
    (hne : whole ≠ []) (hwhole : ∀ c ∈ whole, c.isDigit = true)
    (htail : ∀ c ∈ tail.head?, c.isDigit = false ∧ c ≠ '.') :
    unsigned? negative (whole ++ tail) =
      (exponentPart? tail).map fun power => ⟨negative, natOfAscii whole, power⟩ := by
  rcases span_digits hwhole fun c hc => (htail c hc).1 with ⟨htake, hdrop⟩
  unfold unsigned?
  rw [htake, hdrop]
  dsimp only
  split
  · exact absurd rfl (htail '.' rfl).2
  · simp [hne]

/-- Digits with a point, before what is no digit. -/
theorem unsigned?_point
    (negative : Bool) {whole fraction tail : List Char}
    (hne : whole ≠ [] ∨ fraction ≠ []) (hwhole : ∀ c ∈ whole, c.isDigit = true)
    (hfraction : ∀ c ∈ fraction, c.isDigit = true)
    (htail : ∀ c ∈ tail.head?, c.isDigit = false) :
    unsigned? negative (whole ++ '.' :: (fraction ++ tail)) =
      (exponentPart? tail).map fun power =>
        ⟨negative, natOfAscii (whole ++ fraction), power - fraction.length⟩ := by
  have hpoint : ∀ c ∈ ('.' :: (fraction ++ tail)).head?, c.isDigit = false := by
    intro c hc
    cases hc
    rfl
  rcases span_digits hwhole hpoint with ⟨htake, hdrop⟩
  rcases span_digits hfraction htail with ⟨htake', hdrop'⟩
  have hempty : ¬ (whole = [] ∧ fraction = []) := not_and_or.mpr hne
  unfold unsigned?
  rw [htake, hdrop]
  simp [htake', hdrop', hempty]

/-- A character of numerals. -/
def IsMark (c : Char) : Prop :=
  c.isDigit = true ∨ c ∈ ['.', 'e', 'E', '+', '-']

theorem IsMark.lt {c : Char} (h : IsMark c) : c.toNat < 128 := by
  rcases h with hdigit | hmem
  · exact Text.lt_of_isDigit hdigit
  · have hall : (['.', 'e', 'E', '+', '-'].all fun d => d.toNat < 128) = true := by decide
    exact of_decide_eq_true (List.all_eq_true.mp hall c hmem)

theorem IsMark.isBlank {c : Char} (h : IsMark c) : Text.isBlank c = false := by
  rcases h with hdigit | hmem
  · exact Text.isBlank_of_isDigit hdigit
  · have hall : (['.', 'e', 'E', '+', '-'].all fun d => !Text.isBlank d) = true := by decide
    exact (Bool.not_eq_true' _).mp (List.all_eq_true.mp hall c hmem)

theorem IsMark.ne_underscore {c : Char} (h : IsMark c) : c ≠ '_' := by
  rintro rfl
  rcases h with hdigit | hmem
  · exact absurd hdigit (by decide)
  · exact absurd hmem (by decide)

theorem mem_splitSign
    {cs : List Char} {c : Char}
    (h : c ∈ cs) :
    IsMark c ∨ c ∈ (splitSign cs).2 := by
  unfold splitSign
  split
  · rcases List.mem_cons.mp h with rfl | hmem
    · exact Or.inl (Or.inr (by decide))
    · exact Or.inr hmem
  · rcases List.mem_cons.mp h with rfl | hmem
    · exact Or.inl (Or.inr (by decide))
    · exact Or.inr hmem
  · exact Or.inr h

theorem mem_of_mem_splitSign
    {cs : List Char} {c : Char}
    (h : c ∈ (splitSign cs).2) :
    c ∈ cs := by
  unfold splitSign at h
  split at h
  · exact List.mem_cons_of_mem _ h
  · exact List.mem_cons_of_mem _ h
  · exact h

theorem isMark_of_exponentPart?
    {cs : List Char} {power : Int}
    (h : exponentPart? cs = some power) :
    ∀ c ∈ cs, IsMark c := by
  cases cs with
  | nil => exact fun c hc => absurd hc List.not_mem_nil
  | cons first rest =>
      unfold exponentPart? at h
      dsimp only at h
      split at h
      · rename_i hfirst
        split at h
        · cases h
        · rename_i hdigits
          rw [List.forall_mem_cons]
          constructor
          · right
            rcases hfirst with rfl | rfl <;> decide
          · intro c hc
            rcases mem_splitSign hc with hmark | hmem
            · exact hmark
            · rw [Bool.or_eq_true, not_or, Bool.not_eq_true', Bool.not_eq_false] at hdigits
              exact Or.inl (List.all_eq_true.mp hdigits.2 c hmem)
      · cases h

theorem isMark_of_unsigned?
    {negative : Bool} {cs : List Char} {numeral : Numeral}
    (h : unsigned? negative cs = some numeral) :
    ∀ c ∈ cs, IsMark c := by
  have hdigits {ds : List Char} (c : Char) (hc : c ∈ ds.takeWhile Char.isDigit) : IsMark c :=
    Or.inl (List.mem_takeWhile_imp hc)
  intro c hc
  rw [← List.takeWhile_append_dropWhile (p := Char.isDigit) (l := cs), List.mem_append] at hc
  rcases hc with hwhole | hrest
  · exact hdigits c hwhole
  · unfold unsigned? at h
    dsimp only at h
    split at h
    · rename_i tail heq
      rw [heq, List.mem_cons] at hrest
      dsimp only at h
      split at h
      · cases h
      · rcases Option.map_eq_some_iff.mp h with ⟨power, hpower, _⟩
        rcases hrest with rfl | htail
        · exact Or.inr (by decide)
        · rw [← List.takeWhile_append_dropWhile (p := Char.isDigit) (l := tail),
            List.mem_append] at htail
          rcases htail with hfraction | hbehind
          · exact hdigits c hfraction
          · exact isMark_of_exponentPart? hpower c hbehind
    · dsimp only at h
      split at h
      · cases h
      · rcases Option.map_eq_some_iff.mp h with ⟨power, hpower, _⟩
        exact isMark_of_exponentPart? hpower c hrest

/-- A numeral starts with a digit or a point. -/
theorem head_of_unsigned?
    {negative : Bool} {cs : List Char} {numeral : Numeral}
    (h : unsigned? negative cs = some numeral) :
    ∃ c rest, cs = c :: rest ∧ (c.isDigit = true ∨ c = '.') := by
  cases cs with
  | nil => cases h
  | cons c rest =>
      refine ⟨c, rest, rfl, ?_⟩
      by_contra hnone
      rw [not_or, Bool.not_eq_true] at hnone
      unfold unsigned? at h
      rw [List.takeWhile_cons_of_neg (by simp [hnone.1]),
        List.dropWhile_cons_of_neg (by simp [hnone.1])] at h
      dsimp only at h
      split at h
      · rename_i heq
        cases heq
        exact hnone.2 rfl
      · cases h

theorem splitSign_of_unsigned?
    {negative : Bool} {cs : List Char} {numeral : Numeral}
    (h : unsigned? negative cs = some numeral) :
    splitSign cs = (false, cs) := by
  rcases head_of_unsigned? h with ⟨c, rest, rfl, hdigit | rfl⟩
  · exact splitSign_digit hdigit rest
  · rfl

theorem toLower_eq_self
    {c : Char} (h : c.isDigit = true ∨ c = '.') :
    c.toLower = c := by
  have hlt : c.toNat < 128 := by
    rcases h with hdigit | rfl
    · exact Text.lt_of_isDigit hdigit
    · decide
  have hall : ∀ n < 128, ((Char.ofNat n).isDigit = true ∨ Char.ofNat n = '.') →
      (Char.ofNat n).toLower = Char.ofNat n := by decide
  exact Text.forall_ascii (p := fun c => (c.isDigit = true ∨ c = '.') → c.toLower = c) hall hlt h

/-- Removing underscores keeps the first character. -/
theorem head?_of_ungroup?
    {cs plain : List Char}
    (h : ungroup? cs = some plain) :
    plain.head? = cs.head? := by
  unfold ungroup? at h
  split at h
  · cases h
    rfl
  · cases h
  · split at h
    · rcases Option.map_eq_some_iff.mp h with ⟨others, _, heq⟩
      rw [← heq]
      rfl
    · cases h
  · rcases Option.map_eq_some_iff.mp h with ⟨others, _, heq⟩
    rw [← heq]
    rfl

end Numeral

namespace Binary64

/-- A numeral is none of the words. -/
theorem ofChars?_of_unsigned?
    {cs rest plain : List Char} {negative : Bool} {numeral : Numeral}
    (hsign : Numeral.splitSign (Numeral.asciiDigits cs) = (negative, rest))
    (hplain : Numeral.ungroup? rest = some plain)
    (hread : Numeral.unsigned? negative plain = some numeral) :
    ofChars? cs = some (ofNumeral numeral) := by
  rcases Numeral.head_of_unsigned? hread with ⟨c, tail, rfl, hc⟩
  have hhead := Numeral.head?_of_ungroup? hplain
  cases rest with
  | nil => cases hhead
  | cons d others =>
      cases hhead
      have hword {w : String} (heq : String.ofList ((c :: others).map Char.toLower) = w) :
          w.toList.head? = some c := by
        rw [← heq, String.toList_ofList, List.map_cons, Numeral.toLower_eq_self hc, List.head?_cons]
      have hnone (x : Char) (hx : x.isDigit = false ∧ x ≠ '.') : some x ≠ some c := by
        rintro heq
        cases heq
        simp [hx] at hc
      unfold ofChars?
      rw [hsign]
      dsimp only
      split
      · rename_i heq
        exact absurd (hword heq) (hnone 'n' (by decide))
      · rename_i heq
        exact absurd (hword heq) (hnone 'i' (by decide))
      · rename_i heq
        exact absurd (hword heq) (hnone 'i' (by decide))
      · rw [hplain, Option.bind_some, hread, Option.map_some]

end Binary64

namespace Decimal

/-- A numeral is none of the words. -/
theorem ofPlainChars?_of_unsigned?
    {cs rest : List Char} {negative : Bool} {numeral : Numeral}
    (hsign : Numeral.splitSign cs = (negative, rest))
    (hread : Numeral.unsigned? negative rest = some numeral) :
    ofPlainChars? cs = ofNumeral? numeral := by
  rcases Numeral.head_of_unsigned? hread with ⟨c, others, rfl, hc⟩
  have hnone (x : Char) (hx : x.isDigit = false ∧ x ≠ '.') : c ≠ x := by
    rintro rfl
    simp [hx] at hc
  unfold ofPlainChars?
  rw [hsign]
  dsimp only
  rw [List.map_cons, Numeral.toLower_eq_self hc]
  split
  · rename_i heq
    exact absurd (List.head_eq_of_cons_eq heq) (hnone 'i' (by decide))
  · rename_i heq
    exact absurd (List.head_eq_of_cons_eq heq) (hnone 'i' (by decide))
  · rename_i heq
    exact absurd (List.head_eq_of_cons_eq heq) (hnone 'n' (by decide))
  · rename_i heq
    exact absurd (List.head_eq_of_cons_eq heq) (hnone 's' (by decide))
  · rw [hread, Option.bind_some]

theorem eq_of_ofNumeral?
    {numeral : Numeral} {d : Decimal}
    (h : ofNumeral? numeral = some d) :
    d = .finite numeral.negative numeral.coefficient numeral.exponent := by
  unfold ofNumeral? at h
  dsimp only at h
  split at h
  · cases h
  · split at h
    · rename_i hzero
      split at h
      · cases h
      · cases h
        rw [hzero]
    · split at h
      · cases h
      · cases h
        rfl

/-- A numeral within the bounds is taken as it is. -/
theorem ofNumeral?_eq_some
    {numeral : Numeral}
    (hleast : -2 * exponentBound + 1 ≤ numeral.exponent) (hmost : numeral.exponent ≤ exponentBound)
    (hleading : numeral.exponent + Numeral.digitCount numeral.coefficient - 1 ≤ exponentBound) :
    ofNumeral? numeral = some (.finite numeral.negative numeral.coefficient numeral.exponent) := by
  unfold ofNumeral?
  dsimp only
  rw [if_neg (Int.not_lt.mpr hleast)]
  split
  · rename_i hzero
    rw [if_neg (Int.not_lt.mpr hmost), hzero]
  · rw [if_neg (Int.not_lt.mpr hleading)]

/-- The characters of a numeral are read as they are. -/
theorem ofChars?_of_isMark
    {cs : List Char}
    (h : ∀ c ∈ cs, Numeral.IsMark c) :
    ofChars? cs = ofPlainChars? cs := by
  have htrim : Text.trimChars cs = cs := Text.trimChars_eq_self fun c hc => (h c hc).isBlank
  have hplain : cs.filter (fun c => decide (c ≠ '_')) = cs :=
    List.filter_eq_self.mpr fun c hc => decide_eq_true (h c hc).ne_underscore
  unfold ofChars?
  rw [htrim, hplain, Numeral.asciiDigits_eq_self fun c hc => (h c hc).lt]

end Decimal

/-! ## Integers -/

namespace Numeral

theorem toList_toString (n : Int) :
    (toString n).toList = (if n < 0 then ['-'] else []) ++ Nat.toDigits 10 n.natAbs := by
  cases n with
  | ofNat k =>
      have hnot : ¬ Int.ofNat k < 0 := by simp
      rw [if_neg hnot]
      show (toString k).toList = Nat.toDigits 10 k
      rw [Nat.toString_eq_ofList_toDigits, String.toList_ofList]
  | negSucc k =>
      rw [if_pos (Int.negSucc_lt_zero k)]
      show ("-" ++ toString (k + 1)).toList = '-' :: Nat.toDigits 10 (k + 1)
      rw [Nat.toString_eq_ofList_toDigits, String.toList_append]
      exact congrArg ('-' :: ·) String.toList_ofList

theorem splitSign_toString (n : Int) :
    splitSign (toString n).toList = (decide (n < 0), Nat.toDigits 10 n.natAbs) := by
  rw [toList_toString]
  by_cases hneg : n < 0
  · simp [hneg, splitSign]
  · rw [if_neg hneg, List.nil_append]
    cases hdigits : Nat.toDigits 10 n.natAbs with
    | nil => simp [Nat.toDigits_ne_nil] at hdigits
    | cons c rest =>
        have hc : c.isDigit = true := isDigit_of_mem_toDigits (n := n.natAbs) (by simp [hdigits])
        rw [splitSign_digit hc]
        simp [hneg]

theorem mem_toString {n : Int} {c : Char} (h : c ∈ (toString n).toList) :
    c = '-' ∨ c.isDigit = true := by
  rw [toList_toString, List.mem_append] at h
  rcases h with hsign | hdigit
  · left
    split at hsign
    · simpa using hsign
    · simp at hsign
  · exact Or.inr (isDigit_of_mem_toDigits hdigit)

theorem asciiDigits_toString (n : Int) :
    asciiDigits (toString n).toList = (toString n).toList := by
  apply asciiDigits_eq_self
  intro c hc
  rcases mem_toString hc with rfl | hdigit
  · decide
  · exact Text.lt_of_isDigit hdigit

theorem trimChars_toString (n : Int) :
    Text.trimChars (toString n).toList = (toString n).toList := by
  apply Text.trimChars_eq_self
  intro c hc
  rcases mem_toString hc with rfl | hdigit
  · decide
  · exact Text.isBlank_of_isDigit hdigit

theorem unsigned?_toDigits (negative : Bool) (n : Nat) :
    unsigned? negative (Nat.toDigits 10 n) = some ⟨negative, n, 0⟩ := by
  have hnone : ∀ c ∈ ([] : List Char).head?, c.isDigit = false ∧ c ≠ '.' := by simp
  have hread := unsigned?_whole negative (Nat.toDigits_ne_nil (n := n) (b := 10))
    (fun c => isDigit_of_mem_toDigits) hnone
  rw [List.append_nil, natOfAscii_toDigits] at hread
  exact hread

end Numeral

namespace Binary64

theorem ofChars?_toString (n : Int) :
    ofChars? (toString n).toList = some (ofNumeral ⟨decide (n < 0), n.natAbs, 0⟩) := by
  have hsign := Numeral.splitSign_toString n
  rw [← Numeral.asciiDigits_toString] at hsign
  apply ofChars?_of_unsigned? hsign _ (Numeral.unsigned?_toDigits _ _)
  apply Numeral.ungroup?_eq_some
  intro hunder
  exact absurd (Numeral.isDigit_of_mem_toDigits hunder) (by decide)

end Binary64

namespace Decimal

/-- The text of a word writes its integer. -/
theorem ofChars?_toString
    {n : Int}
    (h : fitsWord n = true) :
    ofChars? (toString n).toList = some (ofInt n) := by
  have hsign := Numeral.splitSign_toString n
  have hmarks : ∀ c ∈ (toString n).toList, Numeral.IsMark c := by
    intro c hc
    rcases Numeral.mem_toString hc with rfl | hdigit
    · exact Or.inr (by decide)
    · exact Or.inl hdigit
  have hword : n.natAbs < tenTo 19 := by
    have hlimit : wordLimit < (tenTo 19 : Nat) := by decide
    unfold fitsWord at h
    simp only [Bool.and_eq_true, decide_eq_true_eq] at h
    omega
  have hcount := Numeral.digitCount_le_iff.mpr hword
  have hbound : exponentBound = 999999999999999999 := rfl
  rw [ofChars?_of_isMark hmarks,
    ofPlainChars?_of_unsigned? hsign (Numeral.unsigned?_toDigits _ _)]
  exact ofNumeral?_eq_some (by dsimp only; omega) (by dsimp only; omega) (by dsimp only; omega)

end Decimal
end RecordApi
