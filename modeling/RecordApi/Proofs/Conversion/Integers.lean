import RecordApi.Proofs.Conversion.Numbers

/-!
# Integers in texts

A body takes an integer from a text with needless zeros, with underscores and with a point before
nothing but zeros.  What is dropped there does not change the decimal that the text writes, so a
filter takes the same integer.
-/

namespace RecordApi

/-! ## Whole decimals -/

namespace Decimal

/-- A sign, digits, and possibly a point with zeros behind it are read as a whole decimal. -/
theorem ofPlainChars?_whole
    {cs digits tail : List Char} {negative : Bool} {places : Nat}
    (hsign : Numeral.splitSign cs = (negative, digits ++ tail))
    (hne : digits ≠ []) (hdigits : ∀ c ∈ digits, c.isDigit = true)
    (htail : tail = [] ∧ places = 0 ∨ tail = '.' :: List.replicate places '0')
    (hshort : (digits.length + places : Int) < exponentBound) :
    ofPlainChars? cs =
      some (.finite negative (Numeral.natOfAscii digits * tenTo places) (-(places : Int))) := by
  have hread : Numeral.unsigned? negative (digits ++ tail) =
      some ⟨negative, Numeral.natOfAscii digits * tenTo places, -(places : Int)⟩ := by
    rcases htail with ⟨rfl, rfl⟩ | rfl
    · have hnone : ∀ c ∈ ([] : List Char).head?, c.isDigit = false ∧ c ≠ '.' := by simp
      rw [Numeral.unsigned?_whole negative hne hdigits hnone]
      change some (Numeral.mk negative _ 0) = some (Numeral.mk negative (_ * 1) 0)
      rw [Nat.mul_one]
    · have hzeros : ∀ c ∈ List.replicate places '0', c.isDigit = true :=
        fun c hc => Binary64.isDigit_of_mem_zeros hc
      have hnone : ∀ c ∈ ([] : List Char).head?, c.isDigit = false := by simp
      have hpoint := Numeral.unsigned?_point negative (.inl hne) hdigits hzeros hnone
      rw [List.append_nil, Numeral.natOfAscii_append_zeros, List.length_replicate] at hpoint
      refine hpoint.trans ?_
      change some (Numeral.mk negative _ (0 - (places : Int))) = _
      rw [Int.zero_sub]
  have hcount : Numeral.digitCount (Numeral.natOfAscii digits * tenTo places) ≤
      digits.length + places := by
    rw [Numeral.digitCount_le_iff, tenTo_add]
    exact Nat.mul_lt_mul_of_pos_right (Numeral.natOfAscii_lt hdigits) (tenTo_pos places)
  have hbound : exponentBound = 999999999999999999 := rfl
  rw [ofPlainChars?_of_unsigned? hsign hread]
  exact ofNumeral?_eq_some (by dsimp only; omega) (by dsimp only; omega) (by dsimp only; omega)

end Decimal

namespace Conversion

/-! ## What is dropped from a text -/

theorem plainInteger?_eq_some
    {cs : List Char} {n : Int}
    (h : plainInteger? cs = some n) :
    ∃ (negative : Bool) (digits : List Char), cs = (if negative then ['-'] else []) ++ digits ∧
      digits ≠ [] ∧ (∀ c ∈ digits, c.isDigit = true) ∧
      n = if negative then -(Numeral.natOfAscii digits : Int) else Numeral.natOfAscii digits := by
  have hread (negative : Bool) (digits : List Char)
      (hdigits : (if digits.isEmpty || !digits.all Char.isDigit ||
          (digits.head? == some '0' && 1 < digits.length) then none
        else some (if negative then -(Numeral.natOfAscii digits : Int)
          else Numeral.natOfAscii digits)) = some n) :
      digits ≠ [] ∧ (∀ c ∈ digits, c.isDigit = true) ∧
        n = if negative then -(Numeral.natOfAscii digits : Int) else Numeral.natOfAscii digits := by
    split at hdigits
    · cases hdigits
    · rename_i hplain
      simp only [Bool.or_eq_true, not_or, Bool.not_eq_true, Bool.not_eq_false',
        List.isEmpty_eq_false_iff, List.all_eq_true] at hplain
      exact ⟨hplain.1.1, hplain.1.2, (Option.some.inj hdigits).symm⟩
  unfold plainInteger? at h
  split at h
  rename_i x negative digits hsplit
  refine ⟨negative, digits, ?_, hread negative digits h⟩
  split at hsplit
  · cases hsplit
    rfl
  · cases hsplit
    rfl

/-- Only zeros behind a point are dropped, with the point. -/
theorem exists_places (cs : List Char) :
    ∃ tail places, cs = withoutPlaces cs ++ tail ∧
      (tail = [] ∧ places = 0 ∨ tail = '.' :: List.replicate places '0') := by
  unfold withoutPlaces
  dsimp only
  split
  · rename_i hzeros
    have hsplit := List.takeWhile_append_dropWhile (p := fun c => decide (c ≠ '.')) (l := cs)
    cases hrest : cs.dropWhile (fun c => decide (c ≠ '.')) with
    | nil => exact ⟨[], 0, by rw [← hrest, hsplit], Or.inl ⟨rfl, rfl⟩⟩
    | cons c rest =>
        have hpoint := List.head?_dropWhile_not (fun c => decide (c ≠ '.')) cs
        rw [hrest] at hsplit hpoint
        have hc : c = '.' := by simpa using hpoint
        generalize cs.takeWhile (fun c => decide (c ≠ '.')) = whole at hzeros hsplit ⊢
        rw [← hsplit, ← List.drop_drop, List.drop_left, List.all_eq_true] at hzeros
        refine ⟨c :: rest, rest.length, hsplit.symm, Or.inr ?_⟩
        rw [hc]
        congr 1
        exact List.eq_replicate_iff.mpr ⟨rfl, fun d hd => beq_iff_eq.mp (hzeros d hd)⟩
  · exact ⟨[], 0, (List.append_nil cs).symm, Or.inl ⟨rfl, rfl⟩⟩

/-- The last of some zeros stays behind. -/
theorem zeros_split
    {zeros : List Char}
    (hzeros : ∀ c ∈ '0' :: zeros, c = '0' ∨ c = '_') :
    ('0' :: zeros).dropLast ++ [zeros.getLastD '0'] = '0' :: zeros ∧
      (zeros.getLastD '0' = '0' ∨ zeros.getLastD '0' = '_') ∧
      ∀ c ∈ ('0' :: zeros).dropLast, c = '0' ∨ c = '_' := by
  rw [← List.getLast_eq_getLastD (List.cons_ne_nil '0' zeros)]
  exact ⟨List.dropLast_concat_getLast _, hzeros _ (List.getLast_mem _),
    fun c hc => hzeros c ((List.dropLast_sublist _).subset hc)⟩

/-- Only zeros are dropped from the start, with underscores, and never before a minus sign. -/
theorem withoutZeros?_eq_some
    {cs rest : List Char}
    (h : withoutZeros? cs = some rest) :
    ∃ lead, cs = lead ++ rest ∧ (∀ c ∈ lead, c = '0' ∨ c = '_') ∧
      (lead = [] ∨ rest.head? ≠ some '-') := by
  unfold withoutZeros? at h
  split at h
  · cases h
  · rename_i tail
    dsimp only at h
    have hlead : ∀ c ∈ '0' :: tail.takeWhile (fun c => c == '0' || c == '_'), c = '0' ∨ c = '_' := by
      intro c hc
      rcases List.mem_cons.mp hc with rfl | hmem
      · exact Or.inl rfl
      · simpa using List.mem_takeWhile_imp hmem
    have hsplit := List.takeWhile_append_dropWhile (p := fun c => c == '0' || c == '_') (l := tail)
    generalize tail.takeWhile (fun c => c == '0' || c == '_') = zeros at h hlead hsplit
    rcases zeros_split hlead with ⟨hlast, hends, hahead⟩
    generalize zeros.getLastD '0' = last at h hlast hends
    split at h
    · rename_i hnone
      cases h
      refine ⟨_, ?_, hahead, Or.inr ?_⟩
      · rw [hlast, ← hsplit, hnone, List.append_nil]
      · rcases hends with rfl | rfl <;> decide
    · rename_i c others hnext
      rw [hnext] at hsplit
      split at h
      · rename_i hdigit
        cases h
        refine ⟨'0' :: zeros, ?_, hlead, Or.inr ?_⟩
        · rw [List.cons_append, hsplit]
        · intro heq
          cases heq
          exact absurd hdigit (by decide)
      · split at h
        · rename_i hpoint
          cases h
          refine ⟨_, ?_, hahead, Or.inr ?_⟩
          · calc '0' :: tail = '0' :: zeros ++ c :: others := by rw [List.cons_append, hsplit]
              _ = ('0' :: zeros).dropLast ++ [last] ++ c :: others := by rw [hlast]
              _ = ('0' :: zeros).dropLast ++ last :: c :: others := List.append_assoc _ _ _
          · rcases hends with rfl | rfl <;> simp
        · cases h
  · split at h
    · cases h
      exact ⟨[], rfl, by simp, Or.inl rfl⟩
    · cases h

/-- What is left of a text around its integer. -/
theorem cleaned?_eq_some
    {cs kept : List Char}
    (h : cleaned? cs = some kept) :
    ∃ plus lead tail places rest, trimmed cs = plus ++ (lead ++ (rest ++ tail)) ∧
      (plus = [] ∨ plus = ['+'] ∧ (lead ++ (rest ++ tail)).head? ≠ some '-') ∧
      (∀ c ∈ lead, c = '0' ∨ c = '_') ∧
      (lead = [] ∨ (rest ++ tail).head? ≠ some '-') ∧
      (tail = [] ∧ places = 0 ∨ tail = '.' :: List.replicate places '0') ∧
      kept = rest.filter (· ≠ '_') ∧ kept.head? = rest.head? := by
  have hplus : ∃ plus body, trimmed cs = plus ++ body ∧
      (plus = [] ∨ plus = ['+'] ∧ body.head? ≠ some '-') ∧
      (withoutZeros? body).bind (fun others => withoutUnderscores? (withoutPlaces others)) =
        some kept := by
    unfold cleaned? at h
    dsimp only at h
    split at h
    · cases h
    · rename_i body hnominus heq
      refine ⟨['+'], body, heq, Or.inr ⟨rfl, ?_⟩, h⟩
      intro hminus
      rcases List.head?_eq_some_iff.mp hminus with ⟨behind, hbehind⟩
      exact hnominus behind hbehind
    · exact ⟨[], _, rfl, Or.inl rfl, h⟩
  rcases hplus with ⟨plus, body, hcs, hplus, hbody⟩
  rcases Option.bind_eq_some_iff.mp hbody with ⟨others, hzeros, hplain⟩
  rcases withoutZeros?_eq_some hzeros with ⟨lead, hlead, hleading, hsign⟩
  rcases exists_places others with ⟨tail, places, htail, hplaces⟩
  rw [hlead, htail] at hcs hplus
  rw [htail] at hsign
  exact ⟨plus, lead, tail, places, withoutPlaces others, hcs, hplus, hleading, hsign, hplaces,
    withoutUnderscores?_eq_some hplain, head?_of_withoutUnderscores? hplain⟩

/-- The text of an integer without its underscores: a sign, digits, and possibly a point with
zeros behind it. -/
structure Plain (cs front digits tail : List Char) (negative : Bool) (places : Nat) : Prop where
  filtered : (trimmed cs).filter (· ≠ '_') = front ++ (digits ++ tail)
  marks : ∀ c ∈ front, Numeral.IsMark c
  sign : Numeral.splitSign (front ++ (digits ++ tail)) = (negative, digits ++ tail)
  some_digit : digits ≠ []
  all_digits : ∀ c ∈ digits, c.isDigit = true
  zeros : tail = [] ∧ places = 0 ∨ tail = '.' :: List.replicate places '0'

/-- A sign stands before all digits, the zeros in front of an integer among them. -/
theorem exists_front
    {plus lead zeros rest kept tail digits : List Char} {negative : Bool}
    (hplus : plus = [] ∨ plus = ['+'] ∧ (lead ++ (rest ++ tail)).head? ≠ some '-')
    (hsign : lead = [] ∨ (rest ++ tail).head? ≠ some '-') (hzeros : lead = [] → zeros = [])
    (hhead : kept.head? = rest.head?) (hkept : kept = (if negative then ['-'] else []) ++ digits)
    (hall : ∀ c ∈ zeros ++ digits, c.isDigit = true) (hsome : zeros ++ digits ≠ []) :
    ∃ front, plus ++ (zeros ++ (kept ++ tail)) = front ++ (zeros ++ digits ++ tail) ∧
      (∀ c ∈ front, Numeral.IsMark c) ∧
      Numeral.splitSign (front ++ (zeros ++ digits ++ tail)) = (negative, zeros ++ digits ++ tail) := by
  cases negative with
  | true =>
      have hminus : kept = '-' :: digits := hkept
      rw [hminus, List.head?_cons] at hhead
      rcases List.head?_eq_some_iff.mp hhead.symm with ⟨behind, hbehind⟩
      rw [hbehind] at hsign hplus
      have hlead : lead = [] := by
        rcases hsign with hnil | hother
        · exact hnil
        · exact absurd rfl hother
      have hbare : plus = [] := by
        rcases hplus with hnil | ⟨_, hother⟩
        · exact hnil
        · rw [hlead] at hother
          exact absurd rfl hother
      refine ⟨['-'], ?_, by simp [Numeral.IsMark], rfl⟩
      rw [hbare, hzeros hlead, hminus]
      rfl
  | false =>
      have hplain : kept = digits := hkept
      refine ⟨plus, by rw [hplain, List.append_assoc], ?_, ?_⟩
      · rcases hplus with rfl | ⟨rfl, _⟩ <;> simp [Numeral.IsMark]
      · rcases hplus with rfl | ⟨rfl, _⟩
        · cases hdigit : zeros ++ digits with
          | nil => exact absurd hdigit hsome
          | cons c others =>
              rw [hdigit, List.forall_mem_cons] at hall
              exact Numeral.splitSign_digit hall.1 _
        · rfl

theorem exists_plain
    {cs kept : List Char} {n : Int}
    (hkept : cleaned? cs = some kept) (hinteger : plainInteger? kept = some n) :
    ∃ front digits tail negative places, Plain cs front digits tail negative places ∧
      n = if negative then -(Numeral.natOfAscii digits : Int) else Numeral.natOfAscii digits := by
  rcases cleaned?_eq_some hkept with
    ⟨plus, lead, tail, places, rest, hinner, hplus, hlead, hleadSign, htail, hrest, hhead⟩
  rcases plainInteger?_eq_some hinteger with ⟨negative, digits, hsplit, hne, hdigits, hvalue⟩
  have hzeros : lead.filter (· ≠ '_') = List.replicate (lead.filter (· ≠ '_')).length '0' := by
    apply List.eq_replicate_iff.mpr ⟨rfl, ?_⟩
    intro c hc
    rcases List.mem_filter.mp hc with ⟨hmem, hunder⟩
    rcases hlead c hmem with rfl | rfl
    · rfl
    · exact absurd hunder (by decide)
  have hfilter : (trimmed cs).filter (· ≠ '_') =
      plus ++ (lead.filter (· ≠ '_') ++ (kept ++ tail)) := by
    have hplain : plus.filter (· ≠ '_') = plus := by
      rcases hplus with rfl | ⟨rfl, _⟩ <;> rfl
    have hends : tail.filter (· ≠ '_') = tail := by
      rcases htail with ⟨rfl, _⟩ | rfl
      · rfl
      · simp
    rw [hinner, List.filter_append, List.filter_append, List.filter_append, hplain, hends, hrest]
  generalize (lead.filter (· ≠ '_')).length = count at hzeros
  rw [hzeros] at hfilter
  have hnone : lead = [] → List.replicate count '0' = [] := by
    rintro rfl
    exact hzeros.symm
  have hall : ∀ c ∈ List.replicate count '0' ++ digits, c.isDigit = true := by
    intro c hc
    rcases List.mem_append.mp hc with hzero | hdigit
    · exact Binary64.isDigit_of_mem_zeros hzero
    · exact hdigits c hdigit
  have hsome : List.replicate count '0' ++ digits ≠ [] := List.append_ne_nil_of_right_ne_nil _ hne
  rcases exists_front hplus hleadSign hnone hhead hsplit hall hsome with
    ⟨front, hfront, hmarks, hsign⟩
  rw [hfront] at hfilter
  refine ⟨front, _, tail, negative, places, ⟨hfilter, hmarks, hsign, hsome, hall, htail⟩, ?_⟩
  rw [hvalue, Numeral.natOfAscii_zeros_append]

namespace Plain

variable {cs front digits tail : List Char} {negative : Bool} {places : Nat}

theorem isMark (h : Plain cs front digits tail negative places) :
    ∀ c ∈ (trimmed cs).filter (· ≠ '_'), Numeral.IsMark c := by
  intro c hc
  rw [h.filtered, List.mem_append, List.mem_append] at hc
  rcases hc with hmark | hdigit | hplace
  · exact h.marks c hmark
  · exact Or.inl (h.all_digits c hdigit)
  · rcases h.zeros with ⟨rfl, _⟩ | rfl
    · exact absurd hplace List.not_mem_nil
    · rcases List.mem_cons.mp hplace with rfl | hzero
      · exact Or.inr (by decide)
      · exact Or.inl (Binary64.isDigit_of_mem_zeros hzero)

theorem isBlank (h : Plain cs front digits tail negative places) :
    ∀ c ∈ trimmed cs, Text.isBlank c = false := by
  intro c hc
  by_cases hunder : c = '_'
  · rw [hunder]
    decide
  · exact (h.isMark c (List.mem_filter.mpr ⟨hc, decide_eq_true hunder⟩)).isBlank

theorem trimChars_eq (h : Plain cs front digits tail negative places) :
    Text.trimChars cs = trimmed cs := by
  rcases exists_trimmed cs with ⟨lead, trail, hsplit, hlead, htrail⟩
  have haround := Text.trimChars_around hlead htrail h.isBlank
  rwa [← hsplit] at haround

theorem length_le (h : Plain cs front digits tail negative places) :
    digits.length + places ≤ cs.length := by
  have hkept := List.length_filter_le (fun c => decide (c ≠ '_')) (trimmed cs)
  have hcut := Text.length_trimChars_le cs
  have hplaces : places ≤ tail.length := by
    rcases h.zeros with ⟨rfl, rfl⟩ | rfl
    · exact Nat.le_refl 0
    · simp
  rw [h.trimChars_eq] at hcut
  rw [h.filtered, List.length_append, List.length_append] at hkept
  omega

theorem ofChars?_eq
    (h : Plain cs front digits tail negative places)
    (hshort : (cs.length : Int) < Decimal.exponentBound) :
    Decimal.ofChars? (Text.trimChars cs) =
      some (.finite negative (Numeral.natOfAscii digits * tenTo places) (-(places : Int))) := by
  have hlength := h.length_le
  unfold Decimal.ofChars?
  rw [h.trimChars_eq, Text.trimChars_eq_self h.isBlank,
    Numeral.asciiDigits_eq_self fun c hc => (h.isMark c hc).lt, h.filtered]
  exact Decimal.ofPlainChars?_whole h.sign h.some_digit h.all_digits h.zeros (by omega)

end Plain

/-- A text of an integer writes a decimal that equals the integer. -/
theorem ofChars?_of_integerOfText
    {s : String} {n : Int}
    (h : integerOfText s = .ok n) (hshort : (s.toList.length : Int) < Decimal.exponentBound) :
    ∃ d, Decimal.ofChars? (Text.trimChars s.toList) = some d ∧ d.isFinite = true ∧
      d.toInt? = some n := by
  have hkept : ∃ kept, cleaned? s.toList = some kept ∧ plainInteger? kept = some n := by
    unfold integerOfText at h
    dsimp only at h
    split at h
    · cases h
    · split at h
      · rename_i kept hkept
        split at h
        · rename_i m hm
          split at h
          · cases h
          · cases h
            exact ⟨kept, hkept, hm⟩
        · cases h
      · cases h
  rcases hkept with ⟨kept, hkept, hinteger⟩
  rcases exists_plain hkept hinteger with ⟨_, digits, _, negative, places, hplain, hvalue⟩
  refine ⟨_, hplain.ofChars?_eq hshort, rfl, ?_⟩
  rw [Decimal.toInt?_of_places, hvalue]

end Conversion
end RecordApi
