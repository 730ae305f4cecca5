import Mathlib.Data.List.Basic
import Mathlib.Data.List.DropRight
import Mathlib.Data.List.TakeWhile
import RecordApi.Text.Blank

/-!
# Trimmed texts and their pieces

Trimming takes the blanks off both ends and nothing else.  Texts without a comma can be told
apart again when they are put together with commas.
-/

namespace RecordApi
namespace Text

/-! ## Trimming -/

theorem dropWhile_eq_self
    {p : Char → Bool} {cs : List Char} (h : ∀ c ∈ cs.head?, p c = false) :
    cs.dropWhile p = cs := by
  cases cs with
  | nil => rfl
  | cons c rest => exact List.dropWhile_cons_of_neg (by simp [h c rfl])

/-- What starts and ends with a character that is none has no blanks to lose. -/
theorem dropWhile_ends
    {p : Char → Bool} {cs : List Char}
    (hfirst : ∀ c ∈ cs.head?, p c = false) (hlast : ∀ c ∈ cs.getLast?, p c = false) :
    ((cs.dropWhile p).reverse.dropWhile p).reverse = cs := by
  rw [← List.head?_reverse] at hlast
  rw [dropWhile_eq_self hfirst, dropWhile_eq_self hlast, List.reverse_reverse]

/-- Blanks are taken off up to the first and the last character that are none. -/
theorem dropWhile_between
    {p : Char → Bool} {lead trail piece : List Char}
    (hlead : ∀ c ∈ lead, p c = true) (htrail : ∀ c ∈ trail, p c = true)
    (hfirst : ∀ c ∈ piece.head?, p c = false) (hlast : ∀ c ∈ piece.getLast?, p c = false) :
    (((lead ++ (piece ++ trail)).dropWhile p).reverse.dropWhile p).reverse = piece := by
  have hends := dropWhile_ends hfirst hlast
  rw [dropWhile_eq_self hfirst] at hends
  rw [List.dropWhile_append_of_pos hlead]
  cases piece with
  | nil =>
      have hnone : trail.dropWhile p = [] := List.dropWhile_eq_nil_iff.mpr htrail
      rw [List.nil_append, hnone]
      rfl
  | cons first others =>
      have hback : ∀ c ∈ trail.reverse, p c = true :=
        fun c hc => htrail c (List.mem_reverse.mp hc)
      have hfront : ((first :: others) ++ trail).dropWhile p = (first :: others) ++ trail :=
        dropWhile_eq_self hfirst
      rw [hfront, List.reverse_append, List.dropWhile_append_of_pos hback, hends]

theorem trimChars_between
    {lead trail piece : List Char}
    (hlead : ∀ c ∈ lead, isBlank c = true) (htrail : ∀ c ∈ trail, isBlank c = true)
    (hfirst : ∀ c ∈ piece.head?, isBlank c = false)
    (hlast : ∀ c ∈ piece.getLast?, isBlank c = false) :
    trimChars (lead ++ (piece ++ trail)) = piece :=
  dropWhile_between hlead htrail hfirst hlast

/-- Trimming by any kind of blanks takes them off both ends. -/
theorem exists_around (p : Char → Bool) (cs : List Char) :
    ∃ lead trail, cs = lead ++ (((cs.dropWhile p).reverse.dropWhile p).reverse ++ trail) ∧
      (∀ c ∈ lead, p c = true) ∧ ∀ c ∈ trail, p c = true := by
  refine ⟨cs.takeWhile p, ((cs.dropWhile p).reverse.takeWhile p).reverse, ?_, ?_, ?_⟩
  · rw [← List.reverse_append, List.takeWhile_append_dropWhile, List.reverse_reverse,
      List.takeWhile_append_dropWhile]
  · exact fun c hc => List.mem_takeWhile_imp hc
  · exact fun c hc => List.mem_takeWhile_imp (List.mem_reverse.mp hc)

theorem dropWhile_around
    {p : Char → Bool} {lead trail inner : List Char}
    (hlead : ∀ c ∈ lead, p c = true) (htrail : ∀ c ∈ trail, p c = true)
    (hinner : ∀ c ∈ inner, p c = false) :
    (((lead ++ (inner ++ trail)).dropWhile p).reverse.dropWhile p).reverse = inner :=
  dropWhile_between hlead htrail (fun c hc => hinner c (List.mem_of_mem_head? hc))
    fun c hc => hinner c (List.mem_of_mem_getLast? hc)

theorem trimChars_around
    {lead trail inner : List Char}
    (hlead : ∀ c ∈ lead, isBlank c = true) (htrail : ∀ c ∈ trail, isBlank c = true)
    (hinner : ∀ c ∈ inner, isBlank c = false) :
    trimChars (lead ++ (inner ++ trail)) = inner :=
  dropWhile_around hlead htrail hinner

theorem trimChars_ends
    {cs : List Char}
    (hfirst : ∀ c ∈ cs.head?, isBlank c = false) (hlast : ∀ c ∈ cs.getLast?, isBlank c = false) :
    trimChars cs = cs :=
  dropWhile_ends hfirst hlast

theorem trimChars_eq_self
    {cs : List Char} (h : ∀ c ∈ cs, isBlank c = false) :
    trimChars cs = cs :=
  trimChars_ends (fun c hc => h c (List.mem_of_mem_head? hc))
    fun c hc => h c (List.mem_of_mem_getLast? hc)

theorem trimChars_cons {c : Char} (hc : isBlank c = false) (rest : List Char) :
    ∃ tail, trimChars (c :: rest) = c :: tail := by
  have hfront : (c :: rest).dropWhile isBlank = c :: rest :=
    List.dropWhile_cons_of_neg (by simp [hc])
  unfold trimChars
  rw [hfront, List.reverse_cons, List.dropWhile_append]
  split
  · rw [List.dropWhile_cons_of_neg (by simp [hc])]
    exact ⟨[], rfl⟩
  · rw [List.reverse_append]
    exact ⟨_, rfl⟩

theorem trimChars_within (cs : List Char) : trimChars cs <:+: cs := by
  have hback := (List.dropWhile_suffix isBlank (l := (cs.dropWhile isBlank).reverse)).reverse
  rw [List.reverse_reverse] at hback
  exact hback.isInfix.trans (List.dropWhile_suffix _).isInfix

/-- What is trimmed has no blanks to lose. -/
theorem trimChars_trimChars (cs : List Char) : trimChars (trimChars cs) = trimChars cs := by
  have hinitial : trimChars cs <+: cs.dropWhile isBlank := by
    have hback := (List.dropWhile_suffix isBlank (l := (cs.dropWhile isBlank).reverse)).reverse
    rwa [List.reverse_reverse] at hback
  have hfront : (trimChars cs).dropWhile isBlank = trimChars cs := by
    rw [List.dropWhile_eq_self_iff]
    intro hpos
    rw [hinitial.getElem hpos]
    exact List.dropWhile_get_zero_not _ _ _
  have hback : (trimChars cs).reverse.dropWhile isBlank = (trimChars cs).reverse := by
    unfold trimChars
    rw [List.reverse_reverse, List.dropWhile_idempotent]
  have hunfold : trimChars (trimChars cs) =
      (((trimChars cs).dropWhile isBlank).reverse.dropWhile isBlank).reverse := rfl
  rw [hunfold, hfront, hback, List.reverse_reverse]

theorem length_trimChars_le (cs : List Char) : (trimChars cs).length ≤ cs.length :=
  (trimChars_within cs).length_le

theorem isBlank_of_trimChars_eq
    {c : Char} {rest : List Char} (h : trimChars (c :: rest) = c :: rest) : isBlank c = false := by
  cases hc : isBlank c with
  | false => rfl
  | true =>
      have hdrop : trimChars (c :: rest) = trimChars rest := by
        unfold trimChars
        rw [List.dropWhile_cons_of_pos hc]
      have hle := length_trimChars_le rest
      rw [← hdrop, h, List.length_cons] at hle
      exact absurd hle (Nat.not_succ_le_self _)

/-! ## Pieces between separators -/

theorem piecesOf_cons_of_ne
    {separator c : Char} (hc : c ≠ separator) {cs piece : List Char} {pieces : List (List Char)}
    (h : piecesOf separator cs = piece :: pieces) :
    piecesOf separator (c :: cs) = (c :: piece) :: pieces := by
  rw [piecesOf, if_neg hc, h]

theorem piecesOf_of_notMem
    {separator : Char} {piece : List Char} (h : separator ∉ piece) :
    piecesOf separator piece = [piece] := by
  induction piece with
  | nil => rfl
  | cons c rest ih =>
      rw [List.mem_cons, not_or] at h
      exact piecesOf_cons_of_ne (Ne.symm h.1) (ih h.2)

theorem piecesOf_append
    {separator : Char} {piece : List Char} (h : separator ∉ piece) (rest : List Char) :
    piecesOf separator (piece ++ separator :: rest) = piece :: piecesOf separator rest := by
  induction piece with
  | nil => rw [List.nil_append, piecesOf, if_pos rfl]
  | cons c others ih =>
      rw [List.mem_cons, not_or] at h
      exact piecesOf_cons_of_ne (Ne.symm h.1) (ih h.2)

theorem piecesOf_intercalate
    {separator : Char} {pieces : List (List Char)} (hne : pieces ≠ [])
    (h : ∀ piece ∈ pieces, separator ∉ piece) :
    piecesOf separator ([separator].intercalate pieces) = pieces := by
  induction pieces with
  | nil => exact absurd rfl hne
  | cons piece rest ih =>
      rw [List.forall_mem_cons] at h
      cases rest with
      | nil =>
          rw [List.intercalate_singleton]
          exact piecesOf_of_notMem h.1
      | cons next others =>
          rw [List.intercalate_cons_cons, List.append_assoc, List.singleton_append,
            piecesOf_append h.1, ih (List.cons_ne_nil next others) h.2]

theorem intercalate_piecesOf (separator : Char) (cs : List Char) :
    [separator].intercalate (piecesOf separator cs) = cs ∧
      piecesOf separator cs ≠ [] ∧ ∀ piece ∈ piecesOf separator cs, separator ∉ piece := by
  induction cs with
  | nil => simp [piecesOf]
  | cons c rest ih =>
      rcases ih with ⟨hjoined, hne, hplain⟩
      rcases List.exists_cons_of_ne_nil hne with ⟨piece, pieces, hpieces⟩
      rw [hpieces] at hjoined hplain
      by_cases hc : c = separator
      · rw [piecesOf, if_pos hc, hpieces]
        refine ⟨?_, List.cons_ne_nil _ _, List.forall_mem_cons.mpr ⟨List.not_mem_nil, hplain⟩⟩
        rw [List.intercalate_cons_cons, hjoined, hc]
        rfl
      · rw [List.forall_mem_cons] at hplain
        rw [piecesOf_cons_of_ne hc hpieces]
        refine ⟨?_, List.cons_ne_nil _ _, List.forall_mem_cons.mpr ⟨?_, hplain.2⟩⟩
        · cases pieces with
          | nil =>
              rw [List.intercalate_singleton] at hjoined ⊢
              rw [hjoined]
          | cons next others =>
              rw [List.intercalate_cons_cons] at hjoined ⊢
              rw [← hjoined]
              rfl
        · rw [List.mem_cons, not_or]
          exact ⟨Ne.symm hc, hplain.1⟩

/-! ## Pieces between commas -/

/-- A text without the blanks around it. -/
def trim (s : String) : String :=
  String.ofList (trimChars s.toList)

theorem filterMap_trimChars (pieces : List String) :
    ((pieces.map String.toList).map trimChars).filterMap
        (fun piece => if piece.isEmpty then none else some (String.ofList piece)) =
      (pieces.map trim).filter (· ≠ "") := by
  induction pieces with
  | nil => rfl
  | cons s rest ih =>
      simp only [List.map_cons, List.filterMap_cons, List.filter_cons, ih]
      by_cases hempty : trimChars s.toList = [] <;> simp [trim, hempty]

/-- Between commas, pieces are read trimmed and without the empty ones. -/
theorem commaList_of_pieces
    {pieces : List String}
    (h : ∀ piece ∈ pieces, ',' ∉ piece.toList) :
    commaList (",".intercalate pieces) = (pieces.map trim).filter (· ≠ "") := by
  by_cases hne : pieces = []
  · rw [hne]
    rfl
  · have hplain : ∀ piece ∈ pieces.map String.toList, ',' ∉ piece := by
      intro piece hpiece
      rcases List.mem_map.mp hpiece with ⟨s, hs, rfl⟩
      exact h s hs
    unfold commaList
    rw [String.toList_intercalate]
    change List.filterMap _ ((piecesOf ',' ([','].intercalate _)).map trimChars) = _
    rw [piecesOf_intercalate (by simpa using hne) hplain]
    exact filterMap_trimChars pieces

/-- Every text is made of pieces between commas. -/
theorem exists_pieces (s : String) :
    ∃ pieces : List String, (∀ piece ∈ pieces, ',' ∉ piece.toList) ∧ ",".intercalate pieces = s := by
  rcases intercalate_piecesOf ',' s.toList with ⟨hjoined, _, hplain⟩
  refine ⟨(piecesOf ',' s.toList).map String.ofList, ?_, ?_⟩
  · intro piece hpiece
    rcases List.mem_map.mp hpiece with ⟨cs, hcs, rfl⟩
    rw [String.toList_ofList]
    exact hplain cs hcs
  · apply String.toList_injective
    rw [String.toList_intercalate, List.map_map]
    have hsame : (String.toList ∘ String.ofList) = id := by
      funext cs
      exact String.toList_ofList
    rw [hsame, List.map_id]
    exact hjoined

/-- Names that are trimmed, not empty and without commas are read from between commas. -/
theorem commaList_intercalate
    {names : List String}
    (h : ∀ name ∈ names, name ≠ "" ∧ ',' ∉ name.toList ∧ trimChars name.toList = name.toList) :
    commaList (",".intercalate names) = names := by
  have htrim : names.map trim = names := by
    rw [List.map_congr_left (g := id), List.map_id]
    intro name hname
    exact (congrArg String.ofList (h name hname).2.2).trans String.ofList_toList
  rw [commaList_of_pieces fun name hname => (h name hname).2.1, htrim, List.filter_eq_self]
  intro name hname
  exact decide_eq_true (h name hname).1

end Text
end RecordApi
