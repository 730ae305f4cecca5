import RecordApi.Json.Reader

/-!
# Reading a string

The string at the start of a text ends at its closing quote.  Blanks behind the text change
nothing but what is left of it.
-/

namespace RecordApi
namespace Json

/-! ## Blanks behind a text -/

def AllBlank (blanks : List Char) : Prop :=
  ∀ c ∈ blanks, isBlank c = true

/-- What a reader has found when there are further blanks behind the text. -/
def before {α : Type} (blanks : List Char) (found : α × List Char) : α × List Char :=
  (found.1, found.2 ++ blanks)

variable {blanks : List Char}

theorem isBlank_iff {c : Char} :
    isBlank c = true ↔ c = ' ' ∨ c = '\t' ∨ c = '\n' ∨ c = '\r' := by
  simp [isBlank, or_assoc]

/-- Blanks are none, or one of four comes first. -/
@[elab_as_elim]
theorem AllBlank.cases
    {motive : (blanks : List Char) → AllBlank blanks → Prop}
    (nil : ∀ h, motive [] h)
    (space : ∀ rest h, motive (' ' :: rest) h) (tab : ∀ rest h, motive ('\t' :: rest) h)
    (feed : ∀ rest h, motive ('\n' :: rest) h) (carriage : ∀ rest h, motive ('\r' :: rest) h)
    (blanks : List Char) (hblanks : AllBlank blanks) :
    motive blanks hblanks := by
  cases blanks with
  | nil => exact nil hblanks
  | cons c rest =>
      rcases isBlank_iff.mp (hblanks c List.mem_cons_self) with rfl | rfl | rfl | rfl
      · exact space rest hblanks
      · exact tab rest hblanks
      · exact feed rest hblanks
      · exact carriage rest hblanks

theorem hexDigits?_append (hblanks : AllBlank blanks) (count total : Nat) (cs : List Char) :
    hexDigits? count total (cs ++ blanks) = (hexDigits? count total cs).map (before blanks) := by
  induction count generalizing total cs with
  | zero => rfl
  | succ count ih =>
      cases cs with
      | nil => cases blanks, hblanks using AllBlank.cases <;> rfl
      | cons c rest =>
          simp only [List.cons_append, hexDigits?]
          cases Uuid.hexValue? c with
          | none => rfl
          | some digit => exact ih _ rest

theorem unit?_append (hblanks : AllBlank blanks) (cs : List Char) :
    unit? (cs ++ blanks) = (unit? cs).map (before blanks) := by
  match cs with
  | [] =>
      cases blanks, hblanks using AllBlank.cases with
      | nil => rfl
      | _ rest => cases rest <;> rfl
  | [c] =>
      cases blanks, hblanks using AllBlank.cases with
      | nil => rfl
      | _ rest => exact if_neg fun hmark => absurd hmark.2 (by decide)
  | c :: mark :: rest =>
      simp only [List.cons_append, unit?]
      split
      · exact hexDigits?_append hblanks 4 0 rest
      · rfl

theorem unitCharacter?_append (hblanks : AllBlank blanks) (cs : List Char) :
    unitCharacter? (cs ++ blanks) = (unitCharacter? cs).map (before blanks) := by
  unfold unitCharacter?
  rw [unit?_append hblanks, Option.map_map, Option.map_map]
  refine Option.map_congr fun found _ => ?_
  have hlow : (unit? (found.2 ++ blanks)).filter
        (fun low => isHighSurrogate found.1 && isLowSurrogate low.1) =
      ((unit? found.2).filter fun low =>
        isHighSurrogate found.1 && isLowSurrogate low.1).map (before blanks) := by
    rw [unit?_append hblanks, Option.filter_map]
    rfl
  simp only [Function.comp_apply, before, hlow]
  cases (unit? found.2).filter fun low => isHighSurrogate found.1 && isLowSurrogate low.1 with
  | none => rfl
  | some low => simp only [Option.map_some, before]

theorem letter?_append (hblanks : AllBlank blanks) {cs : List Char} (hne : cs ≠ []) :
    letter? (cs ++ blanks) = (letter? cs).map (before blanks) := by
  rcases List.exists_cons_of_ne_nil hne with ⟨c, rest, rfl⟩
  simp only [List.cons_append, letter?]
  by_cases hc : c = '\\'
  · rw [if_pos hc, if_pos hc]
    cases rest with
    | cons d rest =>
        simp only [List.cons_append]
        cases escapes.lookup d <;> rfl
    | nil => cases blanks, hblanks using AllBlank.cases <;> rfl
  · rw [if_neg hc, if_neg hc]
    split <;> rfl

theorem character?_append (hblanks : AllBlank blanks) {cs : List Char} (hne : cs ≠ []) :
    character? (cs ++ blanks) = (character? cs).map (before blanks) := by
  unfold character?
  rw [unitCharacter?_append hblanks, letter?_append hblanks hne, Option.map_or]

theorem character?_of_ne {c : Char} (h : c ≠ '\\') (rest : List Char) :
    character? (c :: rest) = if c.toNat < 0x20 then none else some (c, rest) := by
  have hunit : unit? (c :: rest) = none := by
    cases rest with
    | nil => rfl
    | cons mark rest => exact if_neg fun hmark => h hmark.1
  simp only [character?, unitCharacter?, hunit, Option.map_none, Option.none_or, letter?, if_neg h]

theorem stringRest?_of_ne {cs : List Char} (h : ∀ rest, cs ≠ '"' :: rest) :
    stringRest? cs = (character? cs).bind fun found =>
      (stringRest? found.2).map fun read => (found.1 :: read.1, read.2) := by
  rw [stringRest?.eq_2 cs h]
  split
  · next heq => rw [heq]; rfl
  · next heq => rw [heq]; rfl

/-- Blanks alone hold no closing quote. -/
theorem stringRest?_blank (hblanks : AllBlank blanks) : stringRest? blanks = none := by
  induction blanks with
  | nil =>
      rw [stringRest?_of_ne (by simp)]
      rfl
  | cons c rest ih =>
      have hrest := ih fun d hd => hblanks d (List.mem_cons_of_mem _ hd)
      have hquote : ∀ after, c :: rest ≠ '"' :: after := by
        intro after heq
        cases heq
        exact absurd (hblanks _ List.mem_cons_self) (by decide)
      have hplain : c ≠ '\\' := by
        rintro rfl
        exact absurd (hblanks _ List.mem_cons_self) (by decide)
      rw [stringRest?_of_ne hquote, character?_of_ne hplain]
      split
      · rfl
      · rw [Option.bind_some, hrest]
        rfl

theorem ne_quote_append
    {cs : List Char} (hne : cs ≠ []) (hquote : ∀ rest, cs ≠ '"' :: rest) (rest : List Char) :
    cs ++ blanks ≠ '"' :: rest := by
  rcases List.exists_cons_of_ne_nil hne with ⟨c, tail, rfl⟩
  intro heq
  cases heq
  exact hquote tail rfl

theorem stringRest?_append (hblanks : AllBlank blanks) (cs : List Char) :
    stringRest? (cs ++ blanks) = (stringRest? cs).map (before blanks) := by
  induction cs using stringRest?.induct with
  | case1 rest =>
      rw [List.cons_append, stringRest?.eq_1, stringRest?.eq_1]
      rfl
  | case2 cs hquote hnone =>
      rw [stringRest?_of_ne hquote, hnone]
      cases cs with
      | nil => exact stringRest?_blank hblanks
      | cons c rest =>
          rw [stringRest?_of_ne (ne_quote_append (List.cons_ne_nil c rest) hquote),
            character?_append hblanks (List.cons_ne_nil c rest), hnone]
          rfl
  | case3 cs hquote c rest hcharacter ih =>
      have hne : cs ≠ [] := by
        rintro rfl
        cases hcharacter
      rw [stringRest?_of_ne hquote, stringRest?_of_ne (ne_quote_append hne hquote),
        character?_append hblanks hne, hcharacter]
      simp only [Option.map_some, Option.bind_some, before]
      rw [ih, Option.map_map, Option.map_map]
      rfl

/-! ## What a string leaves -/

theorem leaves_of_stringRest?
    {cs s rest : List Char} (h : stringRest? cs = some (s, rest)) :
    Leaves rest cs := by
  induction cs using stringRest?.induct generalizing s with
  | case1 inner =>
      rw [stringRest?.eq_1] at h
      cases h
      exact leaves_cons _ _
  | case2 cs hquote hnone =>
      rw [stringRest?_of_ne hquote, hnone] at h
      cases h
  | case3 cs hquote c after hcharacter ih =>
      rw [stringRest?_of_ne hquote, hcharacter, Option.bind_some] at h
      rcases Option.map_eq_some_iff.mp h with ⟨found, hfound, heq⟩
      cases heq
      exact leaves_of_suffix (ih hfound).1 (leaves_of_character? hcharacter)

theorem trims_string
    (hblanks : AllBlank blanks) {core s rest : List Char}
    (h : stringRest? (core ++ blanks) = some (s, rest)) :
    ∃ r, rest = r ++ blanks ∧ r.length < core.length ∧ stringRest? core = some (s, r) := by
  rw [stringRest?_append hblanks] at h
  rcases Option.map_eq_some_iff.mp h with ⟨found, hfound, heq⟩
  cases heq
  exact ⟨found.2, rfl, (leaves_of_stringRest? hfound).2, hfound⟩

end Json
end RecordApi
