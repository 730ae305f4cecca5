import RecordApi.Conversion.Field
import RecordApi.Proofs.Number.Texts
import RecordApi.Proofs.Steps
import RecordApi.Schema.Operand

/-!
# Numbers in bodies and in filters

A body is converted to the kind of its column, and an operand is first read as an exact decimal.
Both take the same number from what they both accept.
-/

namespace RecordApi

open Binary64 Steps

namespace Operand

variable {field : String} {v : Value} {d : Decimal}

theorem number_eq_ok
    (hread : decimalOf? v = some d) (hfinite : d.isFinite = true) :
    number field v = .ok d := by
  unfold number
  rw [hread]
  simp [Option.filter, hfinite]

end Operand

namespace Conversion

variable {field : String}

/-- An integer is rounded to the same binary number in a body and in a filter. -/
theorem float_int
    {n : Int} {x : Binary64}
    (h : float (.int n) = .ok x) :
    (Decimal.ofInt n).toBinary64 = x := by
  unfold float at h
  dsimp only at h
  split at h
  · rename_i hfinite
    rw [← Except.ok.inj h]
    exact ofNumeral_whole _ _
  · cases h

/-- A whole binary number is the same integer in a body and in a filter. -/
theorem integer_float
    {x : Binary64} {n : Int}
    (h : integer (.float x) = .ok n) (hn : n.natAbs ≤ 2 * binade) :
    (Decimal.ofBinary64 x).toInt? = some n := by
  change integerOfFloat x = _ at h
  unfold integerOfFloat at h
  split at h
  · cases h
  · split at h
    · cases h
    · rename_i m hm
      split at h
      · cases h
        exact Decimal.toInt?_ofBinary64 hm hn
      · cases h

theorem decimal_float
    {x : Binary64} {d : Decimal}
    (h : decimal (.float x) = .ok d) :
    d = Decimal.ofBinary64 x ∧ d.isFinite = true := by
  unfold decimal at h
  dsimp only at h
  rw [Decimal.ofChars?_text] at h
  dsimp only at h
  split at h
  · rename_i hfinite
    rw [← Except.ok.inj h]
    exact ⟨rfl, hfinite⟩
  · cases h

/-! ## Binary numbers in texts -/

/-- Removing underscores between characters removes all of them, and none stands at an end. -/
theorem withoutUnderscores?_eq_some
    {cs plain : List Char}
    (h : withoutUnderscores? cs = some plain) :
    plain = cs.filter (· ≠ '_') := by
  fun_induction withoutUnderscores? cs generalizing plain with
  | case1 =>
      cases h
      rfl
  | case2 rest => cases h
  | case3 c hc =>
      cases h
      rw [List.filter_cons_of_pos (by simpa using hc)]
      rfl
  | case4 c rest hc => cases h
  | case5 c d rest hc hd ih =>
      have hne : c ≠ '_' := hc
      rcases Option.map_eq_some_iff.mp h with ⟨others, hothers, rfl⟩
      rw [ih hothers]
      simp [hne]
  | case6 c rest hc _ _ ih =>
      have hne : c ≠ '_' := hc
      rcases Option.map_eq_some_iff.mp h with ⟨others, hothers, rfl⟩
      rw [ih hothers]
      simp [hne]

/-- Removing underscores keeps the first character. -/
theorem head?_of_withoutUnderscores?
    {cs plain : List Char}
    (h : withoutUnderscores? cs = some plain) :
    plain.head? = cs.head? := by
  unfold withoutUnderscores? at h
  split at h
  · cases h
    rfl
  · cases h
  · cases h
    rfl
  · split at h
    · cases h
    · rcases Option.map_eq_some_iff.mp h with ⟨others, _, rfl⟩
      rfl
  · rcases Option.map_eq_some_iff.mp h with ⟨others, _, rfl⟩
    rfl

theorem isBlank_of_isNumberBlank {c : Char} (h : Uuid.isNumberBlank c = true) :
    Text.isBlank c = true := by
  unfold Uuid.isNumberBlank at h
  rw [Bool.and_eq_true] at h
  exact h.1

theorem exists_trimmed (cs : List Char) :
    ∃ lead trail, cs = lead ++ (trimmed cs ++ trail) ∧
      (∀ c ∈ lead, Text.isBlank c = true) ∧ ∀ c ∈ trail, Text.isBlank c = true := by
  rcases Text.exists_around Uuid.isNumberBlank cs with ⟨lead, trail, hsplit, hlead, htrail⟩
  exact ⟨lead, trail, hsplit, fun c hc => isBlank_of_isNumberBlank (hlead c hc),
    fun c hc => isBlank_of_isNumberBlank (htrail c hc)⟩

/-- A text of a binary number is blanks around a numeral or a word, possibly with underscores. -/
theorem floatOfText?_spec
    {s : String} {x : Binary64}
    (h : floatOfText? s = some x) :
    ∃ lead trail inner, s.toList = lead ++ (inner ++ trail) ∧
      (∀ c ∈ lead, Text.isBlank c = true) ∧ (∀ c ∈ trail, Text.isBlank c = true) ∧
      (∀ c ∈ inner.filter (· ≠ '_'), c.toNat < 128) ∧
      Binary64.ofChars? (inner.filter (· ≠ '_')) = some x := by
  have hread (cs : List Char)
      (hcs : (if cs.all fun c => c.toNat < 0x80 && c != '_' then Binary64.ofChars? cs else none) =
        some x) :
      (∀ c ∈ cs, c.toNat < 128 ∧ c ≠ '_') ∧ Binary64.ofChars? cs = some x := by
    split at hcs
    · rename_i hall
      refine ⟨?_, hcs⟩
      simpa using hall
    · cases hcs
  unfold floatOfText? at h
  dsimp only at h
  rcases Option.or_eq_some_iff.mp h with htrimmed | ⟨_, hplain⟩
  · rcases hread _ htrimmed with ⟨hchars, hvalue⟩
    rcases exists_trimmed s.toList with ⟨lead, trail, hsplit, hlead, htrail⟩
    have hfilter : (trimmed s.toList).filter (· ≠ '_') = trimmed s.toList :=
      List.filter_eq_self.mpr fun c hc => decide_eq_true (hchars c hc).2
    refine ⟨lead, trail, trimmed s.toList, hsplit, hlead, htrail, ?_, ?_⟩
    · rw [hfilter]
      exact fun c hc => (hchars c hc).1
    · rw [hfilter]
      exact hvalue
  · rcases Option.bind_eq_some_iff.mp hplain with ⟨plain, hplain, hvalue⟩
    rcases hread _ hvalue with ⟨hchars, hvalue⟩
    rw [withoutUnderscores?_eq_some hplain] at hchars hvalue
    refine ⟨[], [], s.toList, (List.append_nil _).symm, ?_, ?_, fun c hc => (hchars c hc).1, hvalue⟩
    · exact fun c hc => absurd hc List.not_mem_nil
    · exact fun c hc => absurd hc List.not_mem_nil

end Conversion

/-- A plain text of a binary number is a numeral, or one of the words that no finite decimal is
written with. -/
theorem Binary64.ofChars?_cases
    {cs : List Char} {x : Binary64}
    (hascii : ∀ c ∈ cs, c.toNat < 128) (hplain : '_' ∉ cs)
    (h : Binary64.ofChars? cs = some x) :
    (∃ negative rest numeral, Numeral.splitSign cs = (negative, rest) ∧
      Numeral.unsigned? negative rest = some numeral ∧ x = ofNumeral numeral) ∨
    (Numeral.splitSign cs).2.map Char.toLower ∈
      ["nan".toList, "inf".toList, "infinity".toList] := by
  unfold Binary64.ofChars? at h
  rw [Numeral.asciiDigits_eq_self hascii] at h
  cases hsign : Numeral.splitSign cs with
  | mk negative rest =>
      have hrest : ∀ c ∈ rest, c ∈ cs := by
        intro c hc
        have hsecond : rest = (Numeral.splitSign cs).2 := by rw [hsign]
        rw [hsecond] at hc
        exact Numeral.mem_of_mem_splitSign hc
      have hword {word : String} (heq : String.ofList (rest.map Char.toLower) = word) :
          rest.map Char.toLower = word.toList := by
        rw [← heq, String.toList_ofList]
      rw [hsign] at h
      dsimp only at h
      split at h
      · rename_i heq
        exact Or.inr (by simp [hword heq])
      · rename_i heq
        exact Or.inr (by simp [hword heq])
      · rename_i heq
        exact Or.inr (by simp [hword heq])
      · rw [Numeral.ungroup?_eq_some fun hc => hplain (hrest _ hc), Option.bind_some] at h
        rcases Option.map_eq_some_iff.mp h with ⟨numeral, hnumeral, hx⟩
        exact Or.inl ⟨negative, rest, numeral, rfl, hnumeral, hx.symm⟩

/-- A word is no finite decimal, and has no blanks. -/
theorem Decimal.isFinite_of_word
    {cs : List Char} {d : Decimal}
    (hword : (Numeral.splitSign cs).2.map Char.toLower ∈
      ["nan".toList, "inf".toList, "infinity".toList])
    (h : ofPlainChars? cs = some d) :
    d.isFinite = false := by
  unfold ofPlainChars? at h
  simp only [List.mem_cons, List.not_mem_nil, or_false] at hword
  rcases hword with hword | hword | hword
  all_goals
    dsimp only at h
    rw [hword] at h
    cases h
    rfl

theorem Numeral.isBlank_of_word
    {cs : List Char}
    (hascii : ∀ c ∈ cs, c.toNat < 128)
    (hword : (splitSign cs).2.map Char.toLower ∈ ["nan".toList, "inf".toList, "infinity".toList]) :
    ∀ c ∈ cs, Text.isBlank c = false := by
  have hletters (word : List Char) (hmem : word ∈ ["nan".toList, "inf".toList, "infinity".toList]) :
      ∀ c ∈ word, c ∈ ['a', 'f', 'i', 'n', 't', 'y'] := by
    have hwords : (["nan".toList, "inf".toList, "infinity".toList].all fun word =>
        word.all fun c => ['a', 'f', 'i', 'n', 't', 'y'].contains c) = true := by decide
    intro c hc
    exact List.contains_iff_mem.mp (List.all_eq_true.mp (List.all_eq_true.mp hwords word hmem) c hc)
  have hall : ∀ n < 128, (Char.ofNat n).toLower ∈ ['a', 'f', 'i', 'n', 't', 'y'] →
      Text.isBlank (Char.ofNat n) = false := by decide
  intro c hc
  rcases mem_splitSign hc with hmark | hmem
  · exact hmark.isBlank
  · apply Text.forall_ascii (p := fun c => c.toLower ∈ ['a', 'f', 'i', 'n', 't', 'y'] →
      Text.isBlank c = false) hall (hascii c hc)
    exact hletters _ hword _ (List.mem_map_of_mem hmem)

namespace Conversion

/-- What a body and a filter read from a text of a finite number is the same binary number. -/
theorem float_text
    {s : String} {x : Binary64} {d : Decimal}
    (h : float (.text s) = .ok x)
    (hread : Decimal.ofChars? (Text.trimChars s.toList) = some d) (hfinite : d.isFinite = true) :
    d.toBinary64 = x := by
  have htext : floatOfText? s = some x := by
    unfold float at h
    dsimp only at h
    split at h
    · rename_i y hy
      rw [hy, Except.ok.inj h]
    · cases h
  rcases floatOfText?_spec htext with ⟨lead, trail, inner, hsplit, hlead, htrail, hascii, hvalue⟩
  have hplain : '_' ∉ inner.filter (· ≠ '_') := by simp
  have hcases := Binary64.ofChars?_cases hascii hplain hvalue
  have hblank : ∀ c ∈ inner.filter (· ≠ '_'), Text.isBlank c = false := by
    rcases hcases with ⟨negative, rest, numeral, hsign, hnumeral, _⟩ | hword
    · intro c hc
      rcases Numeral.mem_splitSign hc with hmark | hmem
      · exact hmark.isBlank
      · rw [hsign] at hmem
        exact (Numeral.isMark_of_unsigned? hnumeral c hmem).isBlank
    · exact Numeral.isBlank_of_word hascii hword
  have hinner : ∀ c ∈ inner, Text.isBlank c = false := by
    intro c hc
    by_cases hunder : c = '_'
    · rw [hunder]
      decide
    · exact hblank c (List.mem_filter.mpr ⟨hc, decide_eq_true hunder⟩)
  rw [hsplit, Text.trimChars_around hlead htrail hinner] at hread
  unfold Decimal.ofChars? at hread
  rw [Text.trimChars_eq_self hinner, Numeral.asciiDigits_eq_self hascii] at hread
  rcases hcases with ⟨negative, rest, numeral, hsign, hnumeral, hx⟩ | hword
  · rw [Decimal.ofPlainChars?_of_unsigned? hsign hnumeral] at hread
    rw [Decimal.eq_of_ofNumeral? hread, hx]
    rfl
  · rw [Decimal.isFinite_of_word hword hread] at hfinite
    cases hfinite

end Conversion
end RecordApi
