import RecordApi.Console.Logger

/-!
# Texts that can be printed

A text is printed unless one of its closing tags has nothing to close.  A stretch of markup
renders as a text when it may stand before any other text and adds just this to it: ordinary
characters do, and so does such a stretch between the tags of a style.  The lead of a log entry
renders as its blanks and its sign, so that an entry is printed exactly when its message is, behind
them.
-/

namespace RecordApi
namespace Markup

/-- A character that starts no tag and escapes none. -/
def IsOrdinary (c : Char) : Prop := c ≠ '[' ∧ c ≠ '\\'

instance (c : Char) : Decidable (IsOrdinary c) :=
  inferInstanceAs (Decidable (c ≠ '[' ∧ c ≠ '\\'))

theorem ordinary_of_all
    {cs : List Char}
    (h : cs.all (fun c => decide (IsOrdinary c)) = true) :
    ∀ c ∈ cs, IsOrdinary c := by
  intro c hc
  exact of_decide_eq_true (List.all_eq_true.mp h c hc)

/-- A text is printed inside some open styles. -/
def IsPrintable (opened : List (List String)) (cs : List Char) : Prop :=
  (textOf? opened (pieces cs)).isSome = true

/-- What may stand before any text and adds a text of its own to it. -/
def Renders (cs shown : List Char) : Prop :=
  ∀ opened rest, textOf? opened (pieces (cs ++ rest)) =
    (textOf? opened (pieces rest)).map (shown ++ ·)

/-! ## Pieces -/

theorem pieces_cons_of_ordinary
    {c : Char} (rest : List Char)
    (hc : IsOrdinary c) :
    pieces (c :: rest) = .text [c] :: pieces rest := by
  have hslashes : ((c :: rest).takeWhile (· == '\\')).length = 0 := by
    rw [List.takeWhile_cons_of_neg (by simpa using hc.2)]
    rfl
  rw [pieces]
  dsimp only
  split
  · rename_i hdrop
    rw [hslashes] at hdrop
    cases hdrop
  · rename_i d tail hdrop
    rw [hslashes] at hdrop ⊢
    cases hdrop
    rw [if_neg hc.1]
    rfl

/-- A tag starts with one of its marks and holds no bracket. -/
def IsTag (body : List Char) : Prop :=
  (∃ c name, body = c :: name ∧ startsTag c = true) ∧ ∀ c ∈ body, c ≠ '[' ∧ c ≠ ']'

theorem tagBody?_of_tag
    {body : List Char} (rest : List Char)
    (hbody : IsTag body) :
    tagBody? (body ++ ']' :: rest) = some (body, rest) := by
  rcases hbody with ⟨⟨c, name, hcons, hstart⟩, hplain⟩
  have htake : (body ++ ']' :: rest).takeWhile (fun d => d != ']' && d != '[') = body := by
    rw [List.takeWhile_append_of_pos, List.takeWhile_cons_of_neg (by decide), List.append_nil]
    intro d hd
    have hd' := hplain d hd
    simp [hd'.1, hd'.2]
  unfold tagBody?
  rw [htake]
  dsimp only
  rw [List.drop_left]
  rw [hcons]
  exact if_pos hstart

theorem pieces_tag
    {body : List Char} (rest : List Char)
    (hbody : IsTag body) :
    pieces ('[' :: (body ++ ']' :: rest)) = .text [] :: .tag body :: pieces rest := by
  have hslashes :
      (('[' :: (body ++ ']' :: rest)).takeWhile (· == '\\')).length = 0 := by
    rw [List.takeWhile_cons_of_neg (by decide)]
    rfl
  rw [pieces]
  dsimp only
  split
  · rename_i hdrop
    rw [hslashes] at hdrop
    cases hdrop
  · rename_i d tail hdrop
    rw [hslashes] at hdrop ⊢
    cases hdrop
    rw [if_pos rfl]
    split
    · rename_i body' rest' htag
      rw [tagBody?_of_tag rest hbody] at htag
      cases htag
      rfl
    · rename_i htag
      rw [tagBody?_of_tag rest hbody] at htag
      cases htag

/-! ## Markup that renders -/

theorem isPrintable_text (opened : List (List String)) (cs : List Char) (rest : List Piece) :
    (textOf? opened (.text cs :: rest)).isSome = (textOf? opened rest).isSome := by
  rw [textOf?, Option.isSome_map]

theorem textOf?_text_nil (opened : List (List String)) (rest : List Piece) :
    textOf? opened (.text [] :: rest) = textOf? opened rest := by
  rw [textOf?]
  exact Option.map_id'

theorem Renders.isPrintable_iff
    {cs shown : List Char} (opened : List (List String)) (rest : List Char)
    (h : Renders cs shown) :
    IsPrintable opened (cs ++ rest) ↔ IsPrintable opened rest := by
  unfold IsPrintable
  rw [h, Option.isSome_map]

theorem renders_nil : Renders [] [] := by
  intro opened rest
  exact Option.map_id'.symm

theorem Renders.append
    {cs ds shown after : List Char}
    (hcs : Renders cs shown) (hds : Renders ds after) :
    Renders (cs ++ ds) (shown ++ after) := by
  intro opened rest
  rw [List.append_assoc, hcs, hds, Option.map_map]
  simp only [Function.comp_def, List.append_assoc]

/-- Ordinary characters are shown as they are, but for those that the console leaves out. -/
theorem renders_of_ordinary
    {cs : List Char}
    (h : ∀ c ∈ cs, IsOrdinary c) :
    Renders cs (cs.filter (!isSilent ·)) := by
  induction cs with
  | nil => exact renders_nil
  | cons c rest ih =>
      have hfirst : Renders [c] ([c].filter (!isSilent ·)) := by
        intro opened after
        rw [List.singleton_append, pieces_cons_of_ordinary _ (h c List.mem_cons_self), textOf?]
      have hrest := hfirst.append (ih fun d hd => h d (List.mem_cons_of_mem c hd))
      rwa [← List.filter_append, List.singleton_append] at hrest

/-- The name of a style, as it may stand in a tag that opens it. -/
structure IsStyle (style : List Char) : Prop where
  isTag : IsTag style
  name : nameOf style = style
  head : style.head? ≠ some '/'
  trimmed : Text.trimChars style = style

theorem IsStyle.closes
    {style : List Char}
    (hstyle : IsStyle style) :
    IsTag ('/' :: style) := by
  refine ⟨⟨'/', style, rfl, by decide⟩, ?_⟩
  intro c hc
  cases hc with
  | head => exact ⟨by decide, by decide⟩
  | tail _ hmem => exact hstyle.isTag.2 c hmem

theorem textOf?_open
    {style : List Char} (opened : List (List String)) (rest : List Piece)
    (hstyle : IsStyle style) :
    textOf? opened (.tag style :: rest) = textOf? (normalForm style :: opened) rest := by
  have hhead := hstyle.head
  rw [textOf?, hstyle.name]
  split
  · exact absurd rfl hhead
  · rfl

/-- A tag closes the style that was opened last. -/
theorem textOf?_close
    {style : List Char} (opened : List (List String)) (rest : List Piece)
    (hstyle : IsStyle style) :
    textOf? (normalForm style :: opened) (.tag ('/' :: style) :: rest) =
      textOf? opened rest := by
  have hname : nameOf ('/' :: style) = '/' :: style := by
    change '/' :: nameOf style = _
    rw [hstyle.name]
  have hnonempty : style ≠ [] := by
    rcases hstyle.isTag.1 with ⟨c, name, hcons, _⟩
    rw [hcons]
    exact List.cons_ne_nil c name
  rw [textOf?, hname]
  split
  · rename_i name hcons
    rw [← (List.cons.inj hcons).2, hstyle.trimmed]
    cases style with
    | nil => exact absurd rfl hnonempty
    | cons c rest => simp
  · rename_i hother
    exact absurd rfl (hother style)

/-- The two tags of a style are not shown: the second closes what the first opens. -/
theorem renders_styled
    {style cs shown : List Char}
    (hstyle : IsStyle style)
    (hcs : Renders cs shown) :
    Renders ('[' :: (style ++ ']' :: (cs ++ '[' :: ('/' :: style ++ [']'])))) shown := by
  intro opened rest
  have hinside := hcs (normalForm style :: opened) ('[' :: ('/' :: style ++ ']' :: rest))
  have hsplit : '[' :: (style ++ ']' :: (cs ++ '[' :: ('/' :: style ++ [']']))) ++ rest =
      '[' :: (style ++ ']' :: (cs ++ '[' :: ('/' :: style ++ ']' :: rest))) := by
    simp
  rw [hsplit, pieces_tag _ hstyle.isTag, textOf?_text_nil, textOf?_open _ _ hstyle, hinside,
    pieces_tag _ hstyle.closes, textOf?_text_nil, textOf?_close _ _ hstyle]

/-! ## Texts without tags -/

theorem mem_of_drop
    {n : Nat} {d c : Char} {cs rest : List Char}
    (hdrop : cs.drop n = c :: rest)
    (hmem : d ∈ c :: rest) :
    d ∈ cs := by
  rw [← hdrop] at hmem
  exact List.mem_of_mem_drop hmem

/-- By induction on the pieces: without an opening bracket none of them is a tag. -/
theorem isPrintable_of_no_bracket
    {cs : List Char} (opened : List (List String))
    (h : '[' ∉ cs) :
    IsPrintable opened cs := by
  unfold IsPrintable
  fun_induction pieces cs with
  | case1 => rfl
  | case2 => rfl
  | case3 _ _ _ _ _ _ _ _ hdrop => exact absurd (mem_of_drop hdrop List.mem_cons_self) h
  | case4 _ _ _ _ hdrop => exact absurd (mem_of_drop hdrop List.mem_cons_self) h
  | case5 _ _ c rest hdrop _ ih =>
      rw [isPrintable_text]
      apply ih
      intro hmem
      exact h (mem_of_drop hdrop (List.mem_cons_of_mem c hmem))

end Markup

/-! ## The entries of a log -/

namespace Console

open Markup

namespace Mark

def style : Mark → String
  | .debug => "dim"
  | .info => "blue"
  | .success => "green"
  | .warn => "yellow"
  | .error => "bold red"

def sign : Mark → Char
  | .debug => '·'
  | .info => '•'
  | .success => '✓'
  | .warn => '!'
  | .error => '✗'

theorem toList_markup (mark : Mark) :
    mark.markup.toList = '[' :: (mark.style.toList ++ ']' ::
      ([mark.sign] ++ '[' :: ('/' :: mark.style.toList ++ [']']))) := by
  cases mark <;> decide

theorem isTag_style (mark : Mark) : IsTag mark.style.toList := by
  have hplain : mark.style.toList.all (fun c => c != '[' && c != ']') = true := by
    cases mark <;> decide
  constructor
  · cases mark with
    | debug => exact ⟨'d', ['i', 'm'], by decide, by decide⟩
    | info => exact ⟨'b', ['l', 'u', 'e'], by decide, by decide⟩
    | success => exact ⟨'g', ['r', 'e', 'e', 'n'], by decide, by decide⟩
    | warn => exact ⟨'y', ['e', 'l', 'l', 'o', 'w'], by decide, by decide⟩
    | error => exact ⟨'b', ['o', 'l', 'd', ' ', 'r', 'e', 'd'], by decide, by decide⟩
  · intro c hc
    simpa using List.all_eq_true.mp hplain c hc

theorem isStyle_style (mark : Mark) : IsStyle mark.style.toList where
  isTag := mark.isTag_style
  name := by cases mark <;> decide
  head := by cases mark <;> decide
  trimmed := by cases mark <;> decide

end Mark

theorem renders_blanks (n : Nat) : Renders (blanks n) (blanks n) := by
  have hordinary : ∀ c ∈ blanks n, IsOrdinary c := by
    intro c hc
    rw [List.eq_of_mem_replicate hc]
    decide
  have hshown := renders_of_ordinary hordinary
  rwa [blanks, List.filter_replicate_of_pos (by decide)] at hshown

/-- In front of a message stand its blanks and its sign. -/
theorem renders_lead (indent : Nat) (mark : Mark) :
    Renders (blanks (2 * indent) ++ mark.markup.toList ++ [' '])
      (blanks (2 * indent) ++ [mark.sign] ++ [' ']) := by
  have hsign : Renders [mark.sign] [mark.sign] := by
    cases mark <;> exact renders_of_ordinary (ordinary_of_all (by decide))
  have hblank : Renders [' '] [' '] := renders_of_ordinary (ordinary_of_all (by decide))
  rw [mark.toList_markup]
  exact ((renders_blanks _).append (renders_styled mark.isStyle_style hsign)).append hblank

/-- A message is printed behind the blanks of its indentation and its sign. -/
theorem plain?_messageMarkup (indent : Nat) (mark : Mark) (text : String) :
    plain? (Entry.messageMarkup indent mark text) =
      (plain? text).map (blanks (2 * indent) ++ mark.sign :: ' ' :: ·) := by
  have hsplit : (Entry.messageMarkup indent mark text).toList =
      blanks (2 * indent) ++ mark.markup.toList ++ [' '] ++ text.toList := by
    unfold Entry.messageMarkup
    simp
  unfold plain?
  rw [hsplit, renders_lead]
  simp only [List.append_assoc, List.cons_append, List.nil_append]

/-- An error entry whose text starts with ordinary characters is printed exactly when the
rest of its text is, or when errors are not shown. -/
theorem message_completed_iff
    (logger : Logger) (lead text : String)
    (hlead : ∀ c ∈ lead.toList, IsOrdinary c) :
    (logger.message .error (lead ++ text)).2 = .completed ↔
      (logger.shows .error = true → (plain? text).isSome = true) := by
  have hprinted : (plain? (Entry.messageMarkup logger.indent .error (lead ++ text))).isSome =
      true ↔ (plain? text).isSome = true := by
    rw [plain?_messageMarkup, Option.isSome_map]
    unfold plain?
    rw [String.toList_append]
    exact (renders_of_ordinary hlead).isPrintable_iff [] text.toList
  change (if logger.shows .error then
    logger.print (.message logger.indent .error (lead ++ text)) else (logger, .completed)).2 =
      .completed ↔ _
  cases hshows : logger.shows .error with
  | false => simp
  | true =>
      rw [if_pos rfl, ← hprinted]
      unfold Logger.print Entry.lines?
      dsimp only
      cases plain? (Entry.messageMarkup logger.indent .error (lead ++ text)) with
      | none => simp
      | some cs => simp

end Console
end RecordApi
