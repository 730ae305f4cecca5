import Mathlib.Data.List.Find
import Mathlib.Data.List.TakeDrop
import RecordApi.Proofs.Json.Strings

/-!
# Reading a number or a word

A number ends where its digits, its fraction or its power end, and no blank is part of it.
-/

namespace RecordApi
namespace Json

variable {blanks : List Char}

/-! ## Numbers and words -/

theorem leadingDigits_append (hblanks : AllBlank blanks) (cs : List Char) :
    leadingDigits (cs ++ blanks) = leadingDigits cs := by
  unfold leadingDigits
  induction cs with
  | nil => cases blanks, hblanks using AllBlank.cases <;> rfl
  | cons c rest ih => rw [List.cons_append, List.takeWhile_cons, List.takeWhile_cons, ih]

theorem length_leadingDigits_le (cs : List Char) : (leadingDigits cs).length ≤ cs.length :=
  (List.takeWhile_prefix _).length_le

theorem wholeOf_append (hblanks : AllBlank blanks) (cs : List Char) :
    wholeOf (cs ++ blanks) = wholeOf cs := by
  cases cs with
  | nil => cases blanks, hblanks using AllBlank.cases <;> rfl
  | cons c rest =>
      simp only [List.cons_append, wholeOf]
      rw [← List.cons_append, leadingDigits_append hblanks]

theorem length_wholeOf_le (cs : List Char) : (wholeOf cs).length ≤ cs.length := by
  cases cs with
  | nil => exact Nat.le_refl 0
  | cons c rest =>
      simp only [wholeOf]
      split
      · exact Nat.succ_le_succ (Nat.zero_le _)
      · exact length_leadingDigits_le _

theorem fractionOf_append (hblanks : AllBlank blanks) (cs : List Char) :
    fractionOf (cs ++ blanks) = fractionOf cs := by
  cases cs with
  | nil => cases blanks, hblanks using AllBlank.cases <;> rfl
  | cons c rest => simp only [List.cons_append, fractionOf, leadingDigits_append hblanks]

theorem fractionLength_append (hblanks : AllBlank blanks) (cs : List Char) :
    fractionLength (cs ++ blanks) = fractionLength cs := by
  unfold fractionLength
  rw [fractionOf_append hblanks]

theorem fractionLength_le (cs : List Char) : fractionLength cs ≤ cs.length := by
  unfold fractionLength
  split
  · exact Nat.zero_le _
  · next hne =>
    cases cs with
    | nil => exact absurd rfl hne
    | cons c rest =>
        simp only [fractionOf] at hne ⊢
        split at hne
        · next hpoint =>
          rw [if_pos hpoint]
          exact Nat.succ_le_succ (length_leadingDigits_le _)
        · exact absurd rfl hne

theorem signLength_append (hblanks : AllBlank blanks) (cs : List Char) :
    signLength (cs ++ blanks) = signLength cs := by
  cases cs with
  | nil => cases blanks, hblanks using AllBlank.cases <;> rfl
  | cons c rest => rfl

theorem signLength_le (cs : List Char) : signLength cs ≤ cs.length := by
  cases cs with
  | nil => exact Nat.le_refl 0
  | cons c rest =>
      simp only [signLength, List.length_cons]
      split <;> omega

theorem powerLength_append (hblanks : AllBlank blanks) (cs : List Char) :
    powerLength (cs ++ blanks) = powerLength cs := by
  cases cs with
  | nil => cases blanks, hblanks using AllBlank.cases <;> rfl
  | cons c rest =>
      simp only [List.cons_append, powerLength, signLength_append hblanks,
        List.drop_append_of_le_length (signLength_le _), leadingDigits_append hblanks]

theorem powerLength_le (cs : List Char) : powerLength cs ≤ cs.length := by
  cases cs with
  | nil => exact Nat.le_refl 0
  | cons c rest =>
      have hdigits := length_leadingDigits_le (rest.drop (signLength rest))
      have hsign := signLength_le rest
      rw [List.length_drop] at hdigits
      simp only [powerLength, List.length_cons]
      split
      · split <;> omega
      · exact Nat.zero_le _

theorem unsigned_append (hblanks : AllBlank blanks) (negative : Bool) (cs : List Char) :
    unsigned negative (cs ++ blanks) = (unsigned negative cs).map (before blanks) := by
  unfold unsigned behindPower behindFraction behindWhole
  simp only [wholeOf_append hblanks, List.drop_append_of_le_length (length_wholeOf_le _),
    fractionOf_append hblanks, fractionLength_append hblanks,
    List.drop_append_of_le_length (fractionLength_le _), powerLength_append hblanks,
    List.drop_append_of_le_length (powerLength_le _),
    List.take_append_of_le_length (powerLength_le _)]
  split
  · rfl
  · split
    · split <;> rfl
    · rfl

theorem number_append (hblanks : AllBlank blanks) (cs : List Char) :
    number (cs ++ blanks) = (number cs).map (before blanks) := by
  cases cs with
  | nil => cases blanks, hblanks using AllBlank.cases <;> rfl
  | cons c rest =>
      simp only [List.cons_append, number]
      rw [← List.cons_append, unsigned_append hblanks, unsigned_append hblanks]
      split <;> rfl

theorem isPrefixOf_append
    (hblanks : AllBlank blanks) {word : List Char} (hword : ∀ c ∈ word, isBlank c = false)
    (cs : List Char) :
    word.isPrefixOf (cs ++ blanks) = word.isPrefixOf cs := by
  induction word generalizing cs with
  | nil => rw [List.isPrefixOf_nil_left, List.isPrefixOf_nil_left]
  | cons c rest ih =>
      rw [List.forall_mem_cons] at hword
      cases cs with
      | cons d others =>
          rw [List.cons_append, List.isPrefixOf_cons_cons, List.isPrefixOf_cons_cons, ih hword.2]
      | nil =>
          cases blanks with
          | nil => rfl
          | cons d others =>
              have hne : c ≠ d := by
                rintro rfl
                exact Bool.false_ne_true (hword.1.symm.trans (hblanks c List.mem_cons_self))
              rw [List.nil_append, List.isPrefixOf_cons_cons, beq_eq_false_iff_ne.mpr hne]
              rfl

theorem prefix_of_find?
    {cs : List Char} {word : String × Value}
    (h : (words.find? fun word => word.1.toList.isPrefixOf cs) = some word) :
    word.1.toList <+: cs := by
  have hfound := List.find?_some h
  exact List.isPrefixOf_iff_prefix.mp hfound

theorem isBlank_of_word :
    ∀ word ∈ words, ∀ c ∈ word.1.toList, isBlank c = false := by
  have hall : (words.all fun word => word.1.toList.all (!isBlank ·)) = true := rfl
  intro word hword c hc
  have hplain := List.all_eq_true.mp hall word hword
  simpa using List.all_eq_true.mp hplain c hc

theorem word?_append (hblanks : AllBlank blanks) (cs : List Char) :
    word? (cs ++ blanks) = (word? cs).map (before blanks) := by
  have hfind : (words.find? fun word => word.1.toList.isPrefixOf (cs ++ blanks)) =
      words.find? fun word => word.1.toList.isPrefixOf cs :=
    List.find?_congr fun word hword => isPrefixOf_append hblanks (isBlank_of_word word hword) cs
  unfold word?
  rw [hfind, Option.map_map]
  refine Option.map_congr fun word hword => ?_
  rw [Function.comp_apply, List.drop_append_of_le_length (prefix_of_find? hword).length_le]
  rfl

theorem scalar_append (hblanks : AllBlank blanks) (cs : List Char) :
    scalar (cs ++ blanks) = (scalar cs).map (before blanks) := by
  unfold scalar
  rw [word?_append hblanks, number_append hblanks]
  cases word? cs <;> rfl

/-! ## What a number leaves -/

theorem leaves_drop {cs : List Char} {n : Nat} (hpos : 0 < n) (hle : n ≤ cs.length) :
    Leaves (cs.drop n) cs := by
  refine ⟨List.drop_suffix n cs, ?_⟩
  rw [List.length_drop]
  omega

theorem leaves_of_unsigned
    {negative : Bool} {cs rest : List Char} {v : Value}
    (h : unsigned negative cs = .ok (v, rest)) :
    Leaves rest cs := by
  unfold unsigned at h
  dsimp only at h
  split at h
  · cases h
  · next hwhole =>
    have hpos : 0 < (wholeOf cs).length := by
      rw [List.length_pos_iff]
      simpa using hwhole
    have hread : Leaves (behindPower cs) cs :=
      leaves_of_suffix ((List.drop_suffix _ _).trans (List.drop_suffix _ _))
        (leaves_drop hpos (length_wholeOf_le cs))
    split at h
    · split at h
      · cases h
      · cases h
        exact hread
    · cases h
      exact hread

theorem leaves_of_number
    {cs rest : List Char} {v : Value} (h : number cs = .ok (v, rest)) :
    Leaves rest cs := by
  unfold number at h
  split at h
  · cases h
  · split at h
    · exact leaves_of_suffix (leaves_of_unsigned h).1 (leaves_cons _ _)
    · exact leaves_of_unsigned h

theorem leaves_of_word?
    {cs rest : List Char} {v : Value} (h : word? cs = some (v, rest)) :
    Leaves rest cs := by
  have hwords : ∀ word ∈ words, 0 < word.1.toList.length := by decide
  rcases Option.map_eq_some_iff.mp h with ⟨word, hfind, heq⟩
  cases heq
  exact leaves_drop (hwords word (List.mem_of_find?_eq_some hfind))
    (prefix_of_find? hfind).length_le

theorem leaves_of_scalar
    {cs rest : List Char} {v : Value} (h : scalar cs = .ok (v, rest)) :
    Leaves rest cs := by
  unfold scalar at h
  split at h
  · next hword =>
    cases h
    exact leaves_of_word? hword
  · exact leaves_of_number h

end Json
end RecordApi
