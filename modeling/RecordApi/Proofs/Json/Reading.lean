import RecordApi.Proofs.Json.Numbers
import RecordApi.Proofs.Text.Pieces
import RecordApi.Proofs.Steps

/-!
# Reading JSON in its place

Blanks behind a text change nothing but the rest that a reader leaves, and the steps that a
reader takes are bounded by what it reads.  So the blanks around a list or a map may be taken
off before it is read.
-/

namespace RecordApi

/-- A value that holds other values. -/
def Value.isNested : Value → Bool
  | .list _ | .map _ => true
  | _ => false

namespace Json

open Steps

variable {blanks : List Char}

/-! ## One step of a reader -/

/-- How a value is read with some fuel left for what is inside it. -/
inductive ReadsValue (fuel : Nat) : List Char → Value → List Char → Prop
  | text {inner s rest : List Char} (closed : stringRest? inner = some (s, rest)) :
      ReadsValue fuel ('"' :: inner) (.text (String.ofList s)) rest
  | emptyList {inner rest : List Char} (closed : skipBlanks inner = ']' :: rest) :
      ReadsValue fuel ('[' :: inner) (.list []) rest
  | list {inner rest : List Char} {items : List Value}
      (opened : ∀ after, skipBlanks inner ≠ ']' :: after)
      (read : elements fuel (skipBlanks inner) = .ok (items, rest)) :
      ReadsValue fuel ('[' :: inner) (.list items) rest
  | emptyMap {inner rest : List Char} (closed : skipBlanks inner = '\x7d' :: rest) :
      ReadsValue fuel ('\x7b' :: inner) (.map []) rest
  | map {inner rest : List Char} {pairs : List (String × Value)}
      (opened : ∀ after, skipBlanks inner ≠ '\x7d' :: after)
      (read : members fuel (skipBlanks inner) = .ok (pairs, rest)) :
      ReadsValue fuel ('\x7b' :: inner) (.map (Assoc.ofPairs pairs)) rest
  | scalar {cs rest : List Char} {v : Value}
      (quote : ∀ inner, cs ≠ '"' :: inner) (bracket : ∀ inner, cs ≠ '[' :: inner)
      (brace : ∀ inner, cs ≠ '\x7b' :: inner)
      (read : scalar cs = .ok (v, rest)) :
      ReadsValue fuel cs v rest

inductive ReadsElements (fuel : Nat) : List Char → List Value → List Char → Prop
  | last {cs behind rest : List Char} {item : Value}
      (first : value fuel cs = .ok (item, behind)) (closed : skipBlanks behind = ']' :: rest) :
      ReadsElements fuel cs [item] rest
  | next {cs behind after rest : List Char} {item : Value} {items : List Value}
      (first : value fuel cs = .ok (item, behind)) (comma : skipBlanks behind = ',' :: after)
      (others : elements fuel (skipBlanks after) = .ok (items, rest)) :
      ReadsElements fuel cs (item :: items) rest

inductive ReadsMembers (fuel : Nat) : List Char → List (String × Value) → List Char → Prop
  | last {inner key afterKey afterColon behind rest : List Char} {item : Value}
      (quoted : stringRest? inner = some (key, afterKey))
      (colon : skipBlanks afterKey = ':' :: afterColon)
      (first : value fuel (skipBlanks afterColon) = .ok (item, behind))
      (closed : skipBlanks behind = '\x7d' :: rest) :
      ReadsMembers fuel ('"' :: inner) [(String.ofList key, item)] rest
  | next {inner key afterKey afterColon behind after rest : List Char} {item : Value}
      {pairs : List (String × Value)}
      (quoted : stringRest? inner = some (key, afterKey))
      (colon : skipBlanks afterKey = ':' :: afterColon)
      (first : value fuel (skipBlanks afterColon) = .ok (item, behind))
      (comma : skipBlanks behind = ',' :: after)
      (others : members fuel (skipBlanks after) = .ok (pairs, rest)) :
      ReadsMembers fuel ('"' :: inner) ((String.ofList key, item) :: pairs) rest

variable {fuel : Nat} {cs rest : List Char}

theorem value_eq_ok {v : Value} :
    value (fuel + 1) cs = .ok (v, rest) ↔ ReadsValue fuel cs v rest := by
  constructor
  · intro h
    unfold value at h
    split at h
    · split at h
      · next hclosed =>
        cases h
        exact ReadsValue.text hclosed
      · cases h
    · split at h
      · next hclosed =>
        cases h
        exact ReadsValue.emptyList hclosed
      · next hopened =>
        rcases map_eq_ok.mp h with ⟨found, hread, heq⟩
        cases heq
        exact ReadsValue.list hopened hread
    · split at h
      · next hclosed =>
        cases h
        exact ReadsValue.emptyMap hclosed
      · next hopened =>
        rcases map_eq_ok.mp h with ⟨found, hread, heq⟩
        cases heq
        exact ReadsValue.map hopened hread
    · next hquote hbracket hbrace => exact ReadsValue.scalar hquote hbracket hbrace h
  · intro h
    cases h with
    | text closed => rw [value, closed]
    | emptyList closed =>
        rw [value]
        simp only [closed]
    | list opened read =>
        rw [value]
        split
        · next hclosed => exact absurd hclosed (opened _)
        · exact map_eq_ok.mpr ⟨_, read, rfl⟩
    | emptyMap closed =>
        rw [value]
        simp only [closed]
    | map opened read =>
        rw [value]
        split
        · next hclosed => exact absurd hclosed (opened _)
        · exact map_eq_ok.mpr ⟨_, read, rfl⟩
    | scalar quote bracket brace read =>
        unfold value
        split
        · exact absurd rfl (quote _)
        · exact absurd rfl (bracket _)
        · exact absurd rfl (brace _)
        · exact read

theorem elements_eq_ok {items : List Value} :
    elements (fuel + 1) cs = .ok (items, rest) ↔ ReadsElements fuel cs items rest := by
  rw [elements, bind_eq_ok]
  constructor
  · rintro ⟨⟨item, behind⟩, hfirst, h⟩
    dsimp only at h
    split at h
    · next hclosed =>
      cases h
      exact ReadsElements.last hfirst hclosed
    · next hcomma =>
      rcases bind_eq_ok.mp h with ⟨⟨items, rest⟩, hothers, heq⟩
      cases heq
      exact ReadsElements.next hfirst hcomma hothers
    · cases h
  · intro h
    cases h with
    | last first closed =>
        refine ⟨_, first, ?_⟩
        simp only [closed]
        rfl
    | next first comma others =>
        refine ⟨_, first, ?_⟩
        simp only [comma]
        exact bind_eq_ok.mpr ⟨_, others, rfl⟩

theorem members_eq_ok {pairs : List (String × Value)} :
    members (fuel + 1) cs = .ok (pairs, rest) ↔ ReadsMembers fuel cs pairs rest := by
  constructor
  · intro h
    unfold members at h
    split at h
    · split at h
      · cases h
      · next hquoted =>
        split at h
        · next hcolon =>
          rcases bind_eq_ok.mp h with ⟨⟨item, behind⟩, hfirst, h⟩
          dsimp only at h
          split at h
          · next hclosed =>
            cases h
            exact ReadsMembers.last hquoted hcolon hfirst hclosed
          · next hcomma =>
            rcases bind_eq_ok.mp h with ⟨⟨pairs, rest⟩, hothers, heq⟩
            cases heq
            exact ReadsMembers.next hquoted hcolon hfirst hcomma hothers
          · cases h
        · cases h
    · cases h
  · intro h
    unfold members
    cases h with
    | last quoted colon first closed =>
        simp only [quoted, colon]
        refine bind_eq_ok.mpr ⟨_, first, ?_⟩
        simp only [closed]
        rfl
    | next quoted colon first comma others =>
        simp only [quoted, colon]
        refine bind_eq_ok.mpr ⟨_, first, ?_⟩
        simp only [comma]
        exact bind_eq_ok.mpr ⟨_, others, rfl⟩

/-! ## Lists and maps -/

theorem skipBlanks_suffix (cs : List Char) : skipBlanks cs <:+ cs :=
  List.dropWhile_suffix _

theorem suffix_of_skipBlanks
    {c : Char} {cs after rest : List Char}
    (h : skipBlanks cs = c :: after) (hrest : rest <:+ after) :
    rest <:+ cs :=
  (hrest.trans (List.suffix_cons c after)).trans (h ▸ skipBlanks_suffix cs)

/-- Elements and members are read up to their closing bracket.  By induction on the fuel, for
values, elements and members at once. -/
theorem suffix_of_read (fuel : Nat) :
    (∀ cs v rest, value fuel cs = .ok (v, rest) → rest <:+ cs) ∧
    (∀ cs items rest, elements fuel cs = .ok (items, rest) → ']' :: rest <:+ cs) ∧
    (∀ cs pairs rest, members fuel cs = .ok (pairs, rest) → '\x7d' :: rest <:+ cs) := by
  induction fuel with
  | zero =>
      refine ⟨fun cs v rest h => ?_, fun cs items rest h => ?_, fun cs pairs rest h => ?_⟩
      · rw [value] at h
        cases h
      · rw [elements] at h
        cases h
      · rw [members] at h
        cases h
  | succ fuel ih =>
      rcases ih with ⟨hvalue, helements, hmembers⟩
      refine ⟨fun cs v rest h => ?_, fun cs items rest h => ?_, fun cs pairs rest h => ?_⟩
      · cases value_eq_ok.mp h with
        | text closed => exact (leaves_of_stringRest? closed).1.trans (List.suffix_cons _ _)
        | emptyList closed =>
            exact (suffix_of_skipBlanks closed (List.suffix_refl _)).trans (List.suffix_cons _ _)
        | list opened read =>
            have hrest := (helements _ _ _ read).trans (skipBlanks_suffix _)
            exact ((List.suffix_cons _ _).trans hrest).trans (List.suffix_cons _ _)
        | emptyMap closed =>
            exact (suffix_of_skipBlanks closed (List.suffix_refl _)).trans (List.suffix_cons _ _)
        | map opened read =>
            have hrest := (hmembers _ _ _ read).trans (skipBlanks_suffix _)
            exact ((List.suffix_cons _ _).trans hrest).trans (List.suffix_cons _ _)
        | scalar quote bracket brace read => exact (leaves_of_scalar read).1
      · cases elements_eq_ok.mp h with
        | last first closed => exact (closed ▸ skipBlanks_suffix _).trans (hvalue _ _ _ first)
        | next first comma others =>
            have hrest := (helements _ _ _ others).trans (skipBlanks_suffix _)
            exact (suffix_of_skipBlanks comma hrest).trans (hvalue _ _ _ first)
      · cases members_eq_ok.mp h with
        | last quoted colon first closed =>
            have hitem := (closed ▸ skipBlanks_suffix _ : _ <:+ _).trans
              ((hvalue _ _ _ first).trans (skipBlanks_suffix _))
            exact ((suffix_of_skipBlanks colon hitem).trans (leaves_of_stringRest? quoted).1).trans
              (List.suffix_cons _ _)
        | next quoted colon first comma others =>
            have hrest := (hmembers _ _ _ others).trans (skipBlanks_suffix _)
            have hitem := (suffix_of_skipBlanks comma hrest).trans
              ((hvalue _ _ _ first).trans (skipBlanks_suffix _))
            exact ((suffix_of_skipBlanks colon hitem).trans (leaves_of_stringRest? quoted).1).trans
              (List.suffix_cons _ _)

/-! ## Fewer blanks and fewer steps -/

theorem cons_of_append
    (hblanks : AllBlank blanks) {c : Char} (hc : isBlank c = false)
    {core inner : List Char} (h : core ++ blanks = c :: inner) :
    ∃ tail, core = c :: tail ∧ inner = tail ++ blanks := by
  cases core with
  | nil =>
      rw [List.nil_append] at h
      exact absurd ((hblanks c (h ▸ List.mem_cons_self)).symm.trans hc) Bool.noConfusion
  | cons d tail =>
      cases h
      exact ⟨tail, rfl, rfl⟩

/-- What stands behind blanks is followed by further blanks, unless there is nothing. -/
theorem skipBlanks_append
    (hblanks : AllBlank blanks) {cs : List Char} (hne : skipBlanks (cs ++ blanks) ≠ []) :
    skipBlanks (cs ++ blanks) = skipBlanks cs ++ blanks := by
  unfold skipBlanks at hne ⊢
  rw [List.dropWhile_append] at hne ⊢
  split
  · next hall =>
    rw [if_pos hall, List.dropWhile_eq_nil_iff.mpr hblanks] at hne
    exact absurd rfl hne
  · rfl

theorem cons_of_skipBlanks
    (hblanks : AllBlank blanks) {c : Char} (hc : isBlank c = false)
    {cs after : List Char} (h : skipBlanks (cs ++ blanks) = c :: after) :
    ∃ tail, skipBlanks cs = c :: tail ∧ after = tail ++ blanks := by
  rw [skipBlanks_append hblanks (h ▸ List.cons_ne_nil c after)] at h
  exact cons_of_append hblanks hc h

theorem length_lt_of_skipBlanks
    {c : Char} {cs rest : List Char} (h : skipBlanks cs = c :: rest) : rest.length < cs.length := by
  have hle := (skipBlanks_suffix cs).length_le
  rw [h, List.length_cons] at hle
  exact hle

/-- A reader does the same without blanks behind the text, as long as it has fuel for what it
reads. -/
def Trims {α : Type} (read : Nat → List Char → Except ReadError (α × List Char))
    (fuel : Nat) : Prop :=
  ∀ blanks core found rest, AllBlank blanks → read fuel (core ++ blanks) = .ok (found, rest) →
    ∃ r, rest = r ++ blanks ∧ r.length < core.length ∧
      ∀ other, core.length ≤ r.length + other → read other core = .ok (found, r)

theorem Trims.skip
    {α : Type} {read : Nat → List Char → Except ReadError (α × List Char)} {fuel : Nat}
    (htrims : Trims read fuel) (hblanks : AllBlank blanks)
    {core rest : List Char} {found : α}
    (h : read fuel (skipBlanks (core ++ blanks)) = .ok (found, rest)) :
    ∃ r, rest = r ++ blanks ∧ r.length < core.length ∧
      (∀ c after, skipBlanks core = c :: after →
        skipBlanks (core ++ blanks) = c :: (after ++ blanks)) ∧
      ∀ other, core.length ≤ r.length + other → read other (skipBlanks core) = .ok (found, r) := by
  have hne : skipBlanks (core ++ blanks) ≠ [] := by
    intro hnil
    rw [hnil] at h
    rcases htrims [] [] _ _ (fun _ hc => absurd hc List.not_mem_nil) h with ⟨r, _, hlt, _⟩
    exact Nat.not_lt_zero _ hlt
  have hskip := skipBlanks_append hblanks hne
  rw [hskip] at h
  have hle := (skipBlanks_suffix core).length_le
  rcases htrims _ _ _ _ hblanks h with ⟨r, hrest, hlt, hread⟩
  refine ⟨r, hrest, Nat.lt_of_lt_of_le hlt hle, fun c after hcore => ?_, fun other hother => ?_⟩
  · rw [hskip, hcore]
    rfl
  · exact hread other (Nat.le_trans hle hother)

/-- A reader that reads anything at all takes a step for it. -/
theorem read_of_succ
    {α : Type} {read : Nat → List Char → Except ReadError (α × List Char)}
    {core r : List Char} {found : α} (hlt : r.length < core.length)
    (h : ∀ other, core.length ≤ r.length + other + 1 → read (other + 1) core = .ok (found, r)) :
    ∀ other, core.length ≤ r.length + other → read other core = .ok (found, r) := by
  intro other hother
  cases other with
  | zero => omega
  | succ other => exact h other hother

theorem trims_elements
    {fuel : Nat} (hvalue : Trims value fuel) (helements : Trims elements fuel) :
    Trims elements (fuel + 1) := by
  intro blanks core items rest hblanks h
  cases elements_eq_ok.mp h with
  | last first closed =>
      rcases hvalue _ _ _ _ hblanks first with ⟨b, rfl, hitem, hb⟩
      rcases cons_of_skipBlanks hblanks (by decide) closed with ⟨r, hclosed, rfl⟩
      have hrest := length_lt_of_skipBlanks hclosed
      have hlt : r.length < core.length := by omega
      refine ⟨r, rfl, hlt, read_of_succ hlt ?_⟩
      intro other hother
      exact elements_eq_ok.mpr (ReadsElements.last (hb other (by omega)) hclosed)
  | next first comma others =>
      rcases hvalue _ _ _ _ hblanks first with ⟨b, rfl, hitem, hb⟩
      rcases cons_of_skipBlanks hblanks (by decide) comma with ⟨a, hcomma, rfl⟩
      rcases helements.skip hblanks others with ⟨r, rfl, hrest, _, hr⟩
      have hafter := length_lt_of_skipBlanks hcomma
      have hlt : r.length < core.length := by omega
      refine ⟨r, rfl, hlt, read_of_succ hlt ?_⟩
      intro other hother
      have hfirst := hb other (by omega)
      have hothers := hr other (by omega)
      exact elements_eq_ok.mpr (ReadsElements.next hfirst hcomma hothers)

theorem trims_members
    {fuel : Nat} (hvalue : Trims value fuel) (hmembers : Trims members fuel) :
    Trims members (fuel + 1) := by
  intro blanks core pairs rest hblanks h
  generalize hcs : core ++ blanks = cs at h
  cases members_eq_ok.mp h with
  | last quoted colon first closed =>
      rcases cons_of_append hblanks (by decide) hcs with ⟨inner, rfl, rfl⟩
      rcases trims_string hblanks quoted with ⟨k, rfl, hkey, hquoted⟩
      rcases cons_of_skipBlanks hblanks (by decide) colon with ⟨a, hcolon, rfl⟩
      rcases hvalue.skip hblanks first with ⟨b, rfl, hitem, _, hb⟩
      rcases cons_of_skipBlanks hblanks (by decide) closed with ⟨r, hclosed, rfl⟩
      have hafter := length_lt_of_skipBlanks hcolon
      have hrest := length_lt_of_skipBlanks hclosed
      have hlt : r.length < inner.length := by omega
      refine ⟨r, rfl, Nat.lt_succ_of_lt hlt, read_of_succ (Nat.lt_succ_of_lt hlt) ?_⟩
      intro other hother
      rw [List.length_cons] at hother
      have hfirst := hb other (by omega)
      exact members_eq_ok.mpr (ReadsMembers.last hquoted hcolon hfirst hclosed)
  | next quoted colon first comma others =>
      rcases cons_of_append hblanks (by decide) hcs with ⟨inner, rfl, rfl⟩
      rcases trims_string hblanks quoted with ⟨k, rfl, hkey, hquoted⟩
      rcases cons_of_skipBlanks hblanks (by decide) colon with ⟨a, hcolon, rfl⟩
      rcases hvalue.skip hblanks first with ⟨b, rfl, hitem, _, hb⟩
      rcases cons_of_skipBlanks hblanks (by decide) comma with ⟨d, hcomma, rfl⟩
      rcases hmembers.skip hblanks others with ⟨r, rfl, hrest, _, hr⟩
      have hafter := length_lt_of_skipBlanks hcolon
      have hnext := length_lt_of_skipBlanks hcomma
      have hlt : r.length < inner.length := by omega
      refine ⟨r, rfl, Nat.lt_succ_of_lt hlt, read_of_succ (Nat.lt_succ_of_lt hlt) ?_⟩
      intro other hother
      rw [List.length_cons] at hother
      have hfirst := hb other (by omega)
      have hothers := hr other (by omega)
      exact members_eq_ok.mpr (ReadsMembers.next hquoted hcolon hfirst hcomma hothers)

theorem trims_value
    {fuel : Nat} (helements : Trims elements fuel) (hmembers : Trims members fuel) :
    Trims value (fuel + 1) := by
  intro blanks core v rest hblanks h
  generalize hcs : core ++ blanks = cs at h
  cases value_eq_ok.mp h with
  | text closed =>
      rcases cons_of_append hblanks (by decide) hcs with ⟨inner, rfl, rfl⟩
      rcases trims_string hblanks closed with ⟨r, rfl, hrest, hclosed⟩
      refine ⟨r, rfl, Nat.lt_succ_of_lt hrest, read_of_succ (Nat.lt_succ_of_lt hrest) ?_⟩
      intro other _
      exact value_eq_ok.mpr (ReadsValue.text hclosed)
  | emptyList closed =>
      rcases cons_of_append hblanks (by decide) hcs with ⟨inner, rfl, rfl⟩
      rcases cons_of_skipBlanks hblanks (by decide) closed with ⟨r, hclosed, rfl⟩
      have hlt := Nat.lt_succ_of_lt (length_lt_of_skipBlanks hclosed)
      refine ⟨r, rfl, hlt, read_of_succ hlt ?_⟩
      intro other _
      exact value_eq_ok.mpr (ReadsValue.emptyList hclosed)
  | list opened read =>
      rcases cons_of_append hblanks (by decide) hcs with ⟨inner, rfl, rfl⟩
      rcases helements.skip hblanks read with ⟨r, rfl, hrest, hskip, hr⟩
      refine ⟨r, rfl, Nat.lt_succ_of_lt hrest, read_of_succ (Nat.lt_succ_of_lt hrest) ?_⟩
      intro other hother
      have hopened : ∀ after, skipBlanks inner ≠ ']' :: after :=
        fun after hafter => opened _ (hskip _ after hafter)
      exact value_eq_ok.mpr (ReadsValue.list hopened (hr other (Nat.le_of_succ_le_succ hother)))
  | emptyMap closed =>
      rcases cons_of_append hblanks (by decide) hcs with ⟨inner, rfl, rfl⟩
      rcases cons_of_skipBlanks hblanks (by decide) closed with ⟨r, hclosed, rfl⟩
      have hlt := Nat.lt_succ_of_lt (length_lt_of_skipBlanks hclosed)
      refine ⟨r, rfl, hlt, read_of_succ hlt ?_⟩
      intro other _
      exact value_eq_ok.mpr (ReadsValue.emptyMap hclosed)
  | map opened read =>
      rcases cons_of_append hblanks (by decide) hcs with ⟨inner, rfl, rfl⟩
      rcases hmembers.skip hblanks read with ⟨r, rfl, hrest, hskip, hr⟩
      refine ⟨r, rfl, Nat.lt_succ_of_lt hrest, read_of_succ (Nat.lt_succ_of_lt hrest) ?_⟩
      intro other hother
      have hopened : ∀ after, skipBlanks inner ≠ '\x7d' :: after :=
        fun after hafter => opened _ (hskip _ after hafter)
      exact value_eq_ok.mpr (ReadsValue.map hopened (hr other (Nat.le_of_succ_le_succ hother)))
  | scalar quote bracket brace read =>
      rw [← hcs, scalar_append hblanks] at read
      rcases map_eq_ok.mp read with ⟨found, hfound, heq⟩
      cases heq
      have hhead : ∀ c, (∀ inner, cs ≠ c :: inner) → ∀ inner, core ≠ c :: inner := by
        rintro c hne inner rfl
        exact hne _ hcs.symm
      have hlt := (leaves_of_scalar hfound).2
      refine ⟨found.2, rfl, hlt, read_of_succ hlt ?_⟩
      intro other _
      exact value_eq_ok.mpr
        (ReadsValue.scalar (hhead _ quote) (hhead _ bracket) (hhead _ brace) hfound)

theorem trims_read (fuel : Nat) :
    Trims value fuel ∧ Trims elements fuel ∧ Trims members fuel := by
  induction fuel with
  | zero =>
      refine ⟨?_, ?_, ?_⟩ <;> intro blanks core found rest hblanks h
      · rw [value] at h
        cases h
      · rw [elements] at h
        cases h
      · rw [members] at h
        cases h
  | succ fuel ih =>
      rcases ih with ⟨hvalue, helements, hmembers⟩
      exact ⟨trims_value helements hmembers, trims_elements hvalue helements,
        trims_members hvalue hmembers⟩

/-! ## Lists and maps without the blanks around them -/

theorem isNested_of_scalar
    {cs rest : List Char} {v : Value} (h : scalar cs = .ok (v, rest)) :
    v.isNested = false := by
  have hwords : ∀ word ∈ words, word.2.isNested = false := by decide
  have hunsigned : ∀ negative after, unsigned negative after = .ok (v, rest) →
      v.isNested = false := by
    intro negative after hread
    unfold unsigned at hread
    dsimp only at hread
    split at hread
    · cases hread
    · split at hread
      · split at hread
        · cases hread
        · cases hread
          rfl
      · cases hread
        rfl
  unfold scalar at h
  split at h
  · next hword =>
    cases h
    rcases Option.map_eq_some_iff.mp hword with ⟨word, hfind, heq⟩
    rw [← (Prod.mk.inj heq).1]
    exact hwords word (List.mem_of_find?_eq_some hfind)
  · unfold number at h
    split at h
    · cases h
    · split at h
      · exact hunsigned _ _ h
      · exact hunsigned _ _ h

/-- A list or a map is read from its opening bracket up to its closing one. -/
theorem brackets_of_value
    {fuel : Nat} {cs rest : List Char} {v : Value}
    (h : value fuel cs = .ok (v, rest)) (hnested : v.isNested = true) :
    ∃ first last inner, cs = first :: inner ++ last :: rest ∧
      (first = '\x7b' ∨ first = '[') ∧ (last = '\x7d' ∨ last = ']') := by
  cases fuel with
  | zero =>
      rw [value] at h
      cases h
  | succ fuel =>
      cases value_eq_ok.mp h with
      | text closed => cases hnested
      | emptyList closed =>
          rcases (closed ▸ skipBlanks_suffix _ : _ <:+ _) with ⟨inner, rfl⟩
          exact ⟨'[', ']', inner, rfl, Or.inr rfl, Or.inr rfl⟩
      | list opened read =>
          have hsuffix := (suffix_of_read fuel).2.1 _ _ _ read
          rcases hsuffix.trans (skipBlanks_suffix _) with ⟨inner, rfl⟩
          exact ⟨'[', ']', inner, rfl, Or.inr rfl, Or.inr rfl⟩
      | emptyMap closed =>
          rcases (closed ▸ skipBlanks_suffix _ : _ <:+ _) with ⟨inner, rfl⟩
          exact ⟨'\x7b', '\x7d', inner, rfl, Or.inl rfl, Or.inl rfl⟩
      | map opened read =>
          have hsuffix := (suffix_of_read fuel).2.2 _ _ _ read
          rcases hsuffix.trans (skipBlanks_suffix _) with ⟨inner, rfl⟩
          exact ⟨'\x7b', '\x7d', inner, rfl, Or.inl rfl, Or.inl rfl⟩
      | scalar quote bracket brace read =>
          rw [isNested_of_scalar read] at hnested
          cases hnested

theorem textBlank_of_isBlank {c : Char} (h : isBlank c = true) : Text.isBlank c = true := by
  rcases isBlank_iff.mp h with rfl | rfl | rfl | rfl <;> decide

/-- A text of a list or a map begins with its bracket once it is trimmed, and is read as
before. -/
theorem read_trimChars
    {cs : List Char} {v : Value} (h : read cs = .ok v) (hnested : v.isNested = true) :
    ∃ first rest, Text.trimChars cs = first :: rest ∧ (first = '\x7b' ∨ first = '[') ∧
      read (first :: rest) = .ok v := by
  rcases bind_eq_ok.mp h with ⟨⟨found, blanks⟩, hvalue, h⟩
  dsimp only at h
  split at h
  · next hend =>
    cases h
    rcases brackets_of_value hvalue hnested with ⟨first, last, inner, hbody, hfirst, hlast⟩
    have hblanks : AllBlank blanks := by
      have hnil : skipBlanks blanks = [] := by simpa using hend
      exact List.dropWhile_eq_nil_iff.mp hnil
    have hlead : AllBlank (cs.takeWhile isBlank) := fun c hc => List.mem_takeWhile_imp hc
    have hcs : cs = cs.takeWhile isBlank ++ (first :: (inner ++ [last]) ++ blanks) := by
      rw [List.cons_append, List.append_assoc, List.singleton_append, ← List.cons_append, ← hbody]
      exact (List.takeWhile_append_dropWhile).symm
    have htrim : Text.trimChars cs = first :: (inner ++ [last]) := by
      rw [hcs]
      apply Text.trimChars_between
      · exact fun c hc => textBlank_of_isBlank (hlead c hc)
      · exact fun c hc => textBlank_of_isBlank (hblanks c hc)
      · rintro c ⟨⟩
        rcases hfirst with rfl | rfl <;> decide
      · rw [← List.cons_append, List.getLast?_concat]
        rintro c ⟨⟩
        rcases hlast with rfl | rfl <;> decide
    refine ⟨first, inner ++ [last], htrim, hfirst, ?_⟩
    have hread : value (cs.length + 1) (first :: (inner ++ [last]) ++ blanks) =
        .ok (v, blanks) := by
      rw [← hvalue, hbody]
      simp
    rcases (trims_read _).1 _ _ _ _ hblanks hread with ⟨r, hr, _, hother⟩
    have hnil : r = [] := List.self_eq_append_left.mp hr
    have hskip : skipBlanks (first :: (inner ++ [last])) = first :: (inner ++ [last]) := by
      apply List.dropWhile_cons_of_neg
      rcases hfirst with rfl | rfl <;> decide
    have hcore := hother ((first :: (inner ++ [last])).length + 1)
      (Nat.le_trans (Nat.le_succ _) (Nat.le_add_left _ _))
    unfold read
    rw [hskip, hcore, hnil]
    rfl
  · cases h

end Json
end RecordApi
