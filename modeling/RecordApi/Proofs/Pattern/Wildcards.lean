import RecordApi.Proofs.Text.Cases
import RecordApi.Storage.Evaluation

/-!
# Texts that wildcard patterns match

A wildcard for any text matches by a split of the text, and letters match a part that is the same up
to case.  An escaped text is read back as its letters, whatever wildcards and escape marks it holds,
so that between wildcards for any text it matches where it is a prefix, a suffix or a part.  Nothing
in a pattern tells letters of one case from those of the other.
-/

namespace RecordApi

open Text

namespace Wildcard

variable {parts : List Wildcard} {s t : List Char} {c : Char}

theorem sameLetter_iff {a b : Char} : sameLetter a b = true ↔ a.toLower = b.toLower := by
  unfold sameLetter
  rw [beq_iff_eq]

/-! ## Matching -/

theorem mem_suffixes {s rest : List Char} :
    rest ∈ suffixes s ↔ ∃ before, s = before ++ rest := by
  induction s with
  | nil => simp [suffixes]
  | cons c tail ih =>
      rw [suffixes, List.mem_cons, ih]
      constructor
      · rintro (rfl | ⟨before, rfl⟩)
        · exact ⟨[], rfl⟩
        · exact ⟨c :: before, rfl⟩
      · rintro ⟨before, h⟩
        cases before with
        | nil => exact .inl h.symm
        | cons d before =>
            rw [List.cons_append] at h
            exact .inr ⟨before, (List.cons.inj h).2⟩

/-- A wildcard for any text matches what stands before the rest of the pattern. -/
theorem isMatch_anyText :
    isMatch (.anyText :: parts) s = true ↔
      ∃ before rest, s = before ++ rest ∧ isMatch parts rest = true := by
  rw [isMatch, List.any_eq_true]
  constructor
  · rintro ⟨rest, hrest, hmatch⟩
    rcases mem_suffixes.mp hrest with ⟨before, hs⟩
    exact ⟨before, rest, hs, hmatch⟩
  · rintro ⟨before, rest, hs, hmatch⟩
    exact ⟨rest, mem_suffixes.mpr ⟨before, hs⟩, hmatch⟩

theorem isMatch_letter :
    isMatch (.letter c :: parts) s = true ↔
      ∃ d rest, s = d :: rest ∧ d.toLower = c.toLower ∧ isMatch parts rest = true := by
  cases s with
  | nil => simp [isMatch]
  | cons d rest =>
      rw [isMatch, Bool.and_eq_true, sameLetter_iff]
      constructor
      · rintro ⟨hsame, hmatch⟩
        exact ⟨d, rest, rfl, hsame.symm, hmatch⟩
      · rintro ⟨d', rest', heq, hsame, hmatch⟩
        cases heq
        exact ⟨hsame.symm, hmatch⟩

/-- The letters of a text match a part that is the same up to case.  By induction on the text. -/
theorem isMatch_letters
    {text : List Char} :
    isMatch (text.map .letter ++ parts) s = true ↔
      ∃ part rest, s = part ++ rest ∧ SameButCase part text ∧ isMatch parts rest = true := by
  induction text generalizing s with
  | nil =>
      constructor
      · intro h
        exact ⟨[], s, rfl, SameButCase.refl [], h⟩
      · rintro ⟨part, rest, rfl, hsame, hmatch⟩
        rw [List.eq_nil_of_length_eq_zero hsame.length_eq]
        exact hmatch
  | cons c text ih =>
      rw [List.map_cons, List.cons_append, isMatch_letter]
      constructor
      · rintro ⟨d, tail, rfl, hd, hmatch⟩
        rcases ih.mp hmatch with ⟨part, rest, rfl, hsame, hmatch⟩
        exact ⟨d :: part, rest, rfl, sameButCase_cons_iff.mpr ⟨hd, hsame⟩, hmatch⟩
      · rintro ⟨part, rest, rfl, hsame, hmatch⟩
        cases part with
        | nil => cases hsame.length_eq
        | cons d part =>
            rcases sameButCase_cons_iff.mp hsame with ⟨hd, hsame⟩
            exact ⟨d, part ++ rest, rfl, hd, ih.mpr ⟨part, rest, rfl, hsame, hmatch⟩⟩

/-- A pattern does not tell texts apart that differ in case alone.  By induction on the pattern: a
split of one text is a split of the other. -/
theorem isMatch_congr
    (parts : List Wildcard)
    (h : SameButCase s t) :
    isMatch parts s = isMatch parts t := by
  have hhalf : ∀ (parts : List Wildcard) (s t : List Char), SameButCase s t →
      isMatch parts s = true → isMatch parts t = true := by
    intro parts
    induction parts with
    | nil =>
        intro s t h hs
        rw [isMatch, List.isEmpty_iff] at hs ⊢
        exact List.eq_nil_of_length_eq_zero (h.length_eq.symm.trans (by rw [hs]; rfl))
    | cons part parts ih =>
        intro s t h hs
        cases part with
        | anyText =>
            rcases isMatch_anyText.mp hs with ⟨before, rest, rfl, hmatch⟩
            rcases h.symm.exists_append with ⟨before', rest', rfl, _, hrest⟩
            exact isMatch_anyText.mpr ⟨before', rest', rfl, ih _ _ hrest.symm hmatch⟩
        | anyChar =>
            cases s with
            | nil => cases hs
            | cons d rest =>
                cases t with
                | nil => cases h.length_eq
                | cons d' rest' => exact ih _ _ (sameButCase_cons_iff.mp h).2 hs
        | letter c =>
            rcases isMatch_letter.mp hs with ⟨d, rest, rfl, hd, hmatch⟩
            cases t with
            | nil => cases h.length_eq
            | cons d' rest' =>
                rcases sameButCase_cons_iff.mp h with ⟨hsame, hrest⟩
                exact isMatch_letter.mpr ⟨d', rest', rfl, hsame.symm.trans hd, ih _ _ hrest hmatch⟩
  rw [Bool.eq_iff_iff]
  exact ⟨hhalf parts s t h, hhalf parts t s h.symm⟩

/-! ## Escaped texts -/

theorem ofEscaped?_cons
    (hc : c ≠ escapeMark) (rest : List Char) :
    ofEscaped? (c :: rest) = (ofEscaped? rest).map (ofChar c :: ·) := by
  cases rest with
  | nil =>
      change (if c = escapeMark then none else some [ofChar c]) = _
      rw [if_neg hc]
      rfl
  | cons d rest => rw [ofEscaped?, if_neg hc]

/-- An escaped text is read as its letters.  By induction on the text: a wildcard or an escape mark
is read behind an escape mark. -/
theorem ofEscaped?_escape_append (text tail : List Char) :
    ofEscaped? (escape text ++ tail) = (ofEscaped? tail).map (text.map .letter ++ ·) := by
  induction text with
  | nil =>
      change ofEscaped? tail = (ofEscaped? tail).map id
      rw [Option.map_id_fun, id]
  | cons c text ih =>
      have hjoin : (ofEscaped? (escape text ++ tail)).map (Wildcard.letter c :: ·) =
          (ofEscaped? tail).map ((c :: text).map .letter ++ ·) := by
        rw [ih, Option.map_map]
        rfl
      unfold escape at hjoin ⊢
      rw [List.flatMap_cons, List.append_assoc]
      by_cases hspecial : c = escapeMark ∨ c = '%' ∨ c = '_'
      · rw [if_pos hspecial, ← hjoin, List.cons_append, List.cons_append, List.nil_append,
          ofEscaped?, if_pos rfl]
      · rw [if_neg hspecial, List.cons_append, List.nil_append]
        rw [not_or, not_or] at hspecial
        have hletter : ofChar c = .letter c := by
          unfold ofChar
          rw [if_neg hspecial.2.1, if_neg hspecial.2.2]
        rw [ofEscaped?_cons hspecial.1, hletter, hjoin]

theorem mem_of_mem_escape
    {text : List Char}
    (h : c ∈ escape text) :
    c = escapeMark ∨ c ∈ text := by
  rcases List.mem_flatMap.mp h with ⟨d, hd, hc⟩
  split at hc
  · rw [List.mem_cons, List.mem_singleton] at hc
    rcases hc with rfl | rfl
    · exact .inl rfl
    · exact .inr hd
  · rw [List.mem_singleton] at hc
    rw [hc]
    exact .inr hd

/-! ## Characters in sight -/

theorem visible_eq_self
    {s : String}
    (h : '\x00' ∉ s.toList) :
    visible s = s.toList := by
  unfold visible
  rw [List.takeWhile_eq_self_iff]
  intro c hc
  rw [decide_eq_true_iff]
  rintro rfl
  exact h hc

theorem SameButCase.visible
    {s t : String}
    (h : SameButCase s.toList t.toList) :
    SameButCase (Wildcard.visible s) (Wildcard.visible t) :=
  h.takeWhile_ne rfl

end Wildcard

/-! ## Texts in a place -/

namespace Placement

/-- A text has another one in a place. -/
def Has : Placement → List Char → List Char → Prop
  | .atStart, s, part => part <+: s
  | .atEnd, s, part => part <:+ s
  | .anywhere, s, part => part <:+: s

/-- A text has another one in a place, up to the case of ASCII letters. -/
def Holds (placement : Placement) (s text : List Char) : Prop :=
  ∃ part, placement.Has s part ∧ SameButCase part text

end Placement

namespace Test

open Wildcard

/-- The pattern of a text in a place is read as the letters of the text between wildcards. -/
theorem ofEscaped?_placementPattern (placement : Placement) (text : String) :
    ofEscaped? (placementPattern placement text) =
      some (match placement with
        | .atStart => text.toList.map .letter ++ [.anyText]
        | .atEnd => .anyText :: text.toList.map .letter
        | .anywhere => .anyText :: (text.toList.map .letter ++ [.anyText])) := by
  have hpercent : '%' ≠ escapeMark := by decide
  cases placement with
  | atStart => exact ofEscaped?_escape_append _ _
  | atEnd =>
      have hread := ofEscaped?_escape_append text.toList []
      rw [List.append_nil] at hread
      unfold placementPattern
      dsimp only
      rw [ofEscaped?_cons hpercent, hread]
      change some (Wildcard.anyText :: (text.toList.map .letter ++ [])) = _
      rw [List.append_nil]
  | anywhere =>
      unfold placementPattern
      dsimp only
      rw [List.cons_append, ofEscaped?_cons hpercent, ofEscaped?_escape_append]
      rfl

theorem takeWhile_placementPattern
    (placement : Placement) {text : String}
    (h : '\x00' ∉ text.toList) :
    (placementPattern placement text).takeWhile (· ≠ '\x00') = placementPattern placement text := by
  have hescape : '\x00' ∉ escape text.toList := fun hmem =>
    (mem_of_mem_escape hmem).elim (by decide) h
  rw [List.takeWhile_eq_self_iff]
  intro c hc
  rw [decide_eq_true_iff]
  rintro rfl
  cases placement with
  | atStart => simp [placementPattern, hescape] at hc
  | atEnd => simp [placementPattern, hescape] at hc
  | anywhere => simp [placementPattern, hescape] at hc

/-- The pattern of a text in a place matches exactly the texts that hold it there. -/
theorem matchesEscaped_iff
    (placement : Placement) {text : String} (s : String)
    (h : '\x00' ∉ text.toList) :
    matchesEscaped (placementPattern placement text) s = true ↔
      placement.Holds (visible s) text.toList := by
  unfold matchesEscaped
  rw [takeWhile_placementPattern placement h, ofEscaped?_placementPattern]
  generalize visible s = seen
  have hrest (rest : List Char) : isMatch [.anyText] rest = true :=
    isMatch_anyText.mpr ⟨rest, [], (List.append_nil rest).symm, rfl⟩
  unfold Placement.Holds
  cases placement with
  | atStart =>
      dsimp only
      rw [isMatch_letters]
      constructor
      · rintro ⟨part, rest, rfl, hsame, _⟩
        exact ⟨part, List.prefix_append part rest, hsame⟩
      · rintro ⟨part, ⟨rest, rfl⟩, hsame⟩
        exact ⟨part, rest, rfl, hsame, hrest rest⟩
  | atEnd =>
      have hend (rest : List Char) :
          isMatch (text.toList.map .letter) rest = true ↔ SameButCase rest text.toList := by
        rw [← List.append_nil (List.map _ _), isMatch_letters]
        constructor
        · rintro ⟨part, rest, rfl, hsame, hnil⟩
          rw [isMatch, List.isEmpty_iff] at hnil
          rwa [hnil, List.append_nil]
        · intro hsame
          exact ⟨rest, [], (List.append_nil rest).symm, hsame, rfl⟩
      dsimp only
      rw [isMatch_anyText]
      constructor
      · rintro ⟨before, rest, rfl, hmatch⟩
        exact ⟨rest, List.suffix_append before rest, (hend rest).mp hmatch⟩
      · rintro ⟨part, ⟨before, rfl⟩, hsame⟩
        exact ⟨before, part, rfl, (hend part).mpr hsame⟩
  | anywhere =>
      dsimp only
      rw [isMatch_anyText]
      constructor
      · rintro ⟨before, rest, rfl, hmatch⟩
        rcases isMatch_letters.mp hmatch with ⟨part, after, rfl, hsame, _⟩
        exact ⟨part, ⟨before, after, List.append_assoc _ _ _⟩, hsame⟩
      · rintro ⟨part, ⟨before, after, rfl⟩, hsame⟩
        exact ⟨before, part ++ after, List.append_assoc _ _ _,
          isMatch_letters.mpr ⟨part, after, rfl, hsame, hrest after⟩⟩

end Test
end RecordApi
