import Mathlib.Data.List.Forall2
import RecordApi.Pattern.Matcher
import RecordApi.Pattern.Reader
import RecordApi.Proofs.Text.Cases

/-!
# Regular expressions that ignore case

An expression ignores case when each of its sets holds both cases of a letter or neither, and its
references are told to ignore case.  From places that are alike up to case it goes to places that
are alike up to case, so it matches in a text exactly when it matches in a text of other case.
-/

namespace RecordApi

open Text

namespace Pattern

/-! ## Sets and anchors -/

namespace CharSet

/-- A set is told to ignore case, or holds both cases of a letter of ASCII or neither. -/
def ignoresCase (set : CharSet) : Bool :=
  set.caseless ||
    (List.range 128).all fun n =>
      set.hasExactly (Char.ofNat n).toLower == set.hasExactly (Char.ofNat n)

variable {set : CharSet} {c d : Char}

theorem has_toLower (h : set.ignoresCase = true) (c : Char) : set.has c.toLower = set.has c := by
  unfold ignoresCase at h
  unfold has
  cases hcaseless : set.caseless with
  | true =>
      rw [toLower_toLower, toUpper_toLower]
      rcases eq_toLower_or_eq_toUpper c with hc | hc
      · rw [← hc]
      · rw [← hc]
        cases set.hasExactly c <;> cases set.hasExactly c.toLower <;> rfl
  | false =>
      rw [hcaseless, Bool.false_or, List.all_eq_true] at h
      have hexact : set.hasExactly c.toLower = set.hasExactly c := by
        by_cases hascii : c.toNat < 128
        · refine forall_ascii (p := fun c => set.hasExactly c.toLower = set.hasExactly c) ?_ hascii
          intro n hn
          exact beq_iff_eq.mp (h n (List.mem_range.mpr hn))
        · rw [toLower_of_not_ascii hascii]
      rw [hexact, Bool.false_and, Bool.false_and]

theorem has_congr
    (h : set.ignoresCase = true) (hsame : c.toLower = d.toLower) :
    set.has c = set.has d := by
  rw [← has_toLower h, hsame, has_toLower h]

end CharSet

theorem has_word_toLower (ascii : Bool) (c : Char) :
    Category.word.has ascii c.toLower = Category.word.has ascii c := by
  by_cases hascii : c.toNat < 128
  · -- only the capitals are looked up
    have hall : ∀ ascii, ∀ n < 128, (Char.ofNat n).toLower = Char.ofNat n ∨
        Category.word.has ascii (Char.ofNat n).toLower = Category.word.has ascii (Char.ofNat n) := by
      decide
    rcases forall_ascii (p := fun c => c.toLower = c ∨
      Category.word.has ascii c.toLower = Category.word.has ascii c) (hall ascii) hascii with h | h
    · rw [h]
    · exact h
  · rw [toLower_of_not_ascii hascii]

theorem isEmpty_congr
    {s t : List Char}
    (h : SameButCase s t) :
    s.isEmpty = t.isEmpty := by
  rw [← List.isEmpty_map, h, List.isEmpty_map]

theorem word_head?_congr
    {s t : List Char} (ascii : Bool)
    (h : SameButCase s t) :
    (s.head?.map (Category.has .word ascii)).getD false =
      (t.head?.map (Category.has .word ascii)).getD false := by
  cases s with
  | nil => rw [List.eq_nil_of_length_eq_zero h.length_eq.symm]
  | cons c s =>
      rcases h.cons_inv with ⟨d, t, rfl, hsame, _⟩
      change Category.has .word ascii c = Category.has .word ascii d
      rw [← has_word_toLower, hsame, has_word_toLower]

theorem head?_beq_congr
    {s t : List Char} {d : Char}
    (hd : d.isAlpha = false) (h : SameButCase s t) :
    (s.head? == some d) = (t.head? == some d) := by
  cases s with
  | nil => rw [List.eq_nil_of_length_eq_zero h.length_eq.symm]
  | cons c s =>
      rcases h.cons_inv with ⟨c', t, rfl, hsame, _⟩
      rw [Bool.eq_iff_iff, beq_iff_eq, beq_iff_eq, List.head?_cons, List.head?_cons,
        Option.some.injEq, Option.some.injEq, ← toLower_eq_iff hd, hsame, toLower_eq_iff hd]

theorem beq_singleton_congr
    {s t : List Char} {d : Char}
    (hd : d.isAlpha = false) (h : SameButCase s t) :
    (s == [d]) = (t == [d]) := by
  have hsingle : ∀ s : List Char, (s == [d]) = true ↔ SameButCase s [d] := by
    intro s
    rw [beq_iff_eq]
    constructor
    · rintro rfl
      exact SameButCase.refl _
    · intro hsame
      rcases hsame.symm.cons_inv with ⟨c, rest, rfl, hc, hrest⟩
      rw [(toLower_eq_iff hd).mp hc.symm, List.eq_nil_of_length_eq_zero hrest.length_eq.symm]
  rw [Bool.eq_iff_iff, hsingle, hsingle]
  exact ⟨h.symm.trans, h.trans⟩

/-! ## Places -/

namespace Place

/-- Two places are at the same character of texts that are the same up to case, and the same groups
have captured the same up to case. -/
structure Alike (p q : Place) : Prop where
  before : SameButCase p.before q.before
  after : SameButCase p.after q.after
  captured : List.Forall₂ (fun a b => a.1 = b.1 ∧ SameButCase a.2 b.2) p.captured q.captured

variable {p q : Place}

theorem Alike.position_eq (h : Alike p q) : p.position = q.position :=
  h.before.length_eq

theorem Alike.step?
    (h : Alike p q) :
    Option.Rel (fun a b => a.1.toLower = b.1.toLower ∧ Alike a.2 b.2) p.step? q.step? := by
  unfold Place.step?
  cases hafter : p.after with
  | nil =>
      have hsame := h.after
      rw [hafter] at hsame
      rw [List.eq_nil_of_length_eq_zero hsame.length_eq.symm]
      exact .none
  | cons c rest =>
      have hsame := h.after
      rw [hafter] at hsame
      rcases hsame.cons_inv with ⟨d, rest', hd, hlower, hrest⟩
      rw [hd]
      exact .some ⟨hlower, sameButCase_cons_iff.mpr ⟨hlower, h.before⟩, hrest, h.captured⟩

theorem Alike.advance
    (n : Nat) (h : Alike p q) :
    Alike (p.advance n) (q.advance n) := by
  induction n generalizing p q with
  | zero => exact h
  | succ n ih =>
      unfold Place.advance
      have hstep := h.step?
      revert hstep
      generalize p.step? = a
      generalize q.step? = b
      rintro (⟨_, hstep⟩ | _)
      · exact ih hstep
      · exact h

theorem Alike.retreat?
    (n : Nat) (h : Alike p q) :
    Option.Rel Alike (p.retreat? n) (q.retreat? n) := by
  induction n generalizing p q with
  | zero => exact .some h
  | succ n ih =>
      unfold Place.retreat?
      cases hbefore : p.before with
      | nil =>
          have hsame := h.before
          rw [hbefore] at hsame
          rw [List.eq_nil_of_length_eq_zero hsame.length_eq.symm]
          exact .none
      | cons c rest =>
          have hsame := h.before
          rw [hbefore] at hsame
          rcases hsame.cons_inv with ⟨d, rest', hd, hlower, hrest⟩
          rw [hd]
          exact ih ⟨hrest, sameButCase_cons_iff.mpr ⟨hlower, h.after⟩, h.captured⟩

theorem Alike.captured?
    (index : Nat) (h : Alike p q) :
    Option.Rel SameButCase (p.captured? index) (q.captured? index) := by
  have hfind : ∀ {as bs : List (Nat × List Char)},
      List.Forall₂ (fun a b => a.1 = b.1 ∧ SameButCase a.2 b.2) as bs →
        Option.Rel SameButCase ((as.find? fun entry => entry.1 == index).map (·.2))
          ((bs.find? fun entry => entry.1 == index).map (·.2)) := by
    intro as bs hall
    induction hall with
    | nil => exact .none
    | @cons a b as bs hfirst _ ih =>
        rw [List.find?_cons, List.find?_cons, hfirst.1]
        cases b.1 == index with
        | true => exact .some hfirst.2
        | false => exact ih
  exact hfind h.captured

theorem Alike.capture
    {start start' : Place} (index : Nat)
    (hstart : Alike start start') (hstop : Alike p q) :
    Alike (Place.capture index start p) (Place.capture index start' q) := by
  refine ⟨hstop.before, hstop.after, ?_⟩
  unfold Place.capture
  rw [hstart.position_eq, hstop.position_eq]
  refine List.Forall₂.cons ⟨rfl, hstart.after.take _⟩ ?_
  refine List.rel_filter ?_ hstop.captured
  intro a b hsame
  dsimp only
  rw [hsame.1]

end Place

theorem Anchor.holds_congr
    {p q : Place} (anchor : Anchor)
    (h : Place.Alike p q) :
    anchor.holds p = anchor.holds q := by
  have hbreak : '\n'.isAlpha = false := by decide
  cases anchor with
  | textStart => exact isEmpty_congr h.before
  | lineStart =>
      unfold holds
      rw [isEmpty_congr h.before, head?_beq_congr hbreak h.before]
  | textEnd => exact isEmpty_congr h.after
  | lastLineEnd =>
      unfold holds
      rw [isEmpty_congr h.after, beq_singleton_congr hbreak h.after]
  | lineEnd =>
      unfold holds
      rw [isEmpty_congr h.after, head?_beq_congr hbreak h.after]
  | wordEdge negated ascii =>
      unfold holds Place.isWordEdge
      dsimp only
      rw [isEmpty_congr h.before, isEmpty_congr h.after, word_head?_congr ascii h.before,
        word_head?_congr ascii h.after]

theorem sameText_congr
    {s s' t t' : List Char}
    (hs : SameButCase s s') (ht : SameButCase t t') :
    sameText true s t = sameText true s' t' := by
  unfold sameText SameButCase at *
  rw [if_pos rfl, if_pos rfl, hs, ht]

/-! ## Running -/

/-- All sets of an expression hold both cases of a letter or neither, and all its references are
told to ignore case. -/
def Node.ignoresCase : Node → Bool
  | .empty | .fail | .anchor _ => true
  | .char set => set.ignoresCase
  | .sequence a b | .choice a b | .ifCaptured _ a b => a.ignoresCase && b.ignoresCase
  | .loop _ _ _ body | .capture _ body | .atomic body | .lookahead _ body
  | .lookbehind _ _ body => body.ignoresCase
  | .reference _ _ _ caseless => caseless

/-- Two ways to go on lead from alike places to alike places, or to none. -/
def GoesAlike (f g : Place → Option Place) : Prop :=
  ∀ p q, Place.Alike p q → Option.Rel Place.Alike (f p) (g q)

theorem goesAlike_some : GoesAlike some some :=
  fun _ _ h => .some h

theorem rel_bind
    {a b : Option Place} {f g : Place → Option Place}
    (h : Option.Rel Place.Alike a b) (hnext : GoesAlike f g) :
    Option.Rel Place.Alike (a.bind f) (b.bind g) := by
  cases h with
  | some h => exact hnext _ _ h
  | none => exact .none

theorem rel_orElse
    {a b c d : Option Place}
    (h : Option.Rel Place.Alike a b) (h' : Option.Rel Place.Alike c d) :
    Option.Rel Place.Alike (a <|> c) (b <|> d) := by
  cases h with
  | some h => exact .some h
  | none => exact h'

/-- What comes of a look ahead or behind, which keeps the place and may capture groups. -/
def lookedAt (negated : Bool) (place : Place) (next : Place → Option Place) :
    Option Place → Option Place
  | some inside => if negated then none else next { place with captured := inside.captured }
  | none => if negated then next place else none

theorem rel_lookedAt
    {a b : Option Place} {p q : Place} {next next' : Place → Option Place} (negated : Bool)
    (h : Place.Alike p q) (hnext : GoesAlike next next') (hinside : Option.Rel Place.Alike a b) :
    Option.Rel Place.Alike (lookedAt negated p next a) (lookedAt negated q next' b) := by
  cases hinside with
  | some hinside =>
      cases negated with
      | true => exact .none
      | false => exact hnext _ _ ⟨h.before, h.after, hinside.captured⟩
  | none =>
      cases negated with
      | true => exact hnext _ _ h
      | false => exact .none

/-- Running an expression with some fuel goes on alike from alike places. -/
def RunsAlike (fuel : Nat) (node : Node) : Prop :=
  ∀ next next', GoesAlike next next' →
    GoesAlike (fun p => run fuel node p next) (fun q => run fuel node q next')

/-- A repetition runs alike when its body and shorter runs of it do. -/
theorem runsAlike_loop
    {fuel : Nat} {body : Node}
    (hbody : RunsAlike fuel body)
    (hloop : ∀ least most greed, RunsAlike fuel (.loop least most greed body))
    (least : Nat) (most : Option Nat) (greed : Greed) :
    RunsAlike (fuel + 1) (.loop least most greed body) := by
  intro next next' hnext p q h
  cases least with
  | succ least =>
      cases greed with
      | possessive => exact rel_bind (hloop _ _ _ _ _ goesAlike_some p q h) hnext
      | greedy => exact hbody _ _ (hloop _ _ _ _ _ hnext) p q h
      | lazy => exact hbody _ _ (hloop _ _ _ _ _ hnext) p q h
  | zero =>
      have honward : GoesAlike
          (fun middle => if middle.position = p.position then next middle
            else run fuel (.loop 0 (most.map (· - 1)) greed body) middle next)
          (fun middle => if middle.position = q.position then next' middle
            else run fuel (.loop 0 (most.map (· - 1)) greed body) middle next') := by
        intro m n hmiddle
        dsimp only
        rw [hmiddle.position_eq, h.position_eq]
        split
        · exact hnext m n hmiddle
        · exact hloop _ _ _ _ _ hnext m n hmiddle
      have hbodies := hbody _ _ honward p q h
      rcases most with _ | _ | most
      case some.zero => exact hnext p q h
      all_goals
        cases greed with
        | greedy => exact rel_orElse hbodies (hnext p q h)
        | lazy => exact rel_orElse (hnext p q h) hbodies
        | possessive => exact rel_bind (hloop _ _ _ _ _ goesAlike_some p q h) hnext

/-- By induction on the fuel: an expression that ignores case runs alike. -/
theorem runsAlike
    (fuel : Nat) {node : Node}
    (hnode : node.ignoresCase = true) :
    RunsAlike fuel node := by
  induction fuel generalizing node with
  | zero => exact fun _ _ _ _ _ _ => .none
  | succ fuel ih =>
      intro next next' hnext p q h
      cases node with
      | empty => exact hnext p q h
      | fail => exact .none
      | char set =>
          have hstep := h.step?
          dsimp only
          rw [run, run]
          revert hstep
          generalize p.step? = a
          generalize q.step? = b
          rintro (⟨hlower, hafter⟩ | _)
          · dsimp only
            rw [CharSet.has_congr hnode hlower]
            split
            · exact hnext _ _ hafter
            · exact .none
          · exact .none
      | anchor anchor =>
          dsimp only
          rw [run, run, anchor.holds_congr h]
          split
          · exact hnext p q h
          · exact .none
      | sequence a b =>
          rw [Node.ignoresCase, Bool.and_eq_true] at hnode
          exact ih hnode.1 _ _ (ih hnode.2 _ _ hnext) p q h
      | choice a b =>
          rw [Node.ignoresCase, Bool.and_eq_true] at hnode
          exact rel_orElse (ih hnode.1 _ _ hnext p q h) (ih hnode.2 _ _ hnext p q h)
      | loop least most greed body =>
          have hbody : RunsAlike fuel body := ih hnode
          have hloop : ∀ least most greed, RunsAlike fuel (.loop least most greed body) :=
            fun _ _ _ => ih hnode
          exact runsAlike_loop hbody hloop least most greed _ _ hnext p q h
      | capture index body =>
          have hbody : RunsAlike fuel body := ih hnode
          exact hbody _ _ (fun m n hstop => hnext _ _ (h.capture index hstop)) p q h
      | atomic body =>
          have hbody : RunsAlike fuel body := ih hnode
          exact rel_bind (hbody _ _ goesAlike_some p q h) hnext
      | reference index least most caseless =>
          rw [Node.ignoresCase] at hnode
          have hcaptured := h.captured? index
          dsimp only
          rw [run, run, hnode]
          revert hcaptured
          generalize p.captured? index = a
          generalize q.captured? index = b
          rintro (htext | _)
          · dsimp only
            rw [htext.length_eq, sameText_congr htext (h.after.take _)]
            split
            · exact hnext _ _ (h.advance _)
            · exact .none
          · exact .none
      | lookahead negated body =>
          have hbody : RunsAlike fuel body := ih hnode
          exact rel_lookedAt negated h hnext (hbody _ _ goesAlike_some p q h)
      | lookbehind negated width body =>
          have hbody : RunsAlike fuel body := ih hnode
          exact rel_lookedAt negated h hnext
            (rel_bind (h.retreat? width) (hbody _ _ goesAlike_some))
      | ifCaptured index yes no =>
          rw [Node.ignoresCase, Bool.and_eq_true] at hnode
          have hcaptured := h.captured? index
          dsimp only
          rw [run, run]
          revert hcaptured
          generalize p.captured? index = a
          generalize q.captured? index = b
          rintro (_ | _)
          · exact ih hnode.1 _ _ hnext p q h
          · exact ih hnode.2 _ _ hnext p q h

/-! ## Searching -/

theorem searchFrom_congr
    {fuel : Nat} {node : Node} {before before' s t : List Char}
    (hnode : node.ignoresCase = true)
    (hbefore : SameButCase before before') (h : SameButCase s t) :
    searchFrom fuel node before s = searchFrom fuel node before' t := by
  have hfound : ∀ {before before' s t}, SameButCase before before' → SameButCase s t →
      (run fuel node ⟨before, s, []⟩ some).isSome =
        (run fuel node ⟨before', t, []⟩ some).isSome := by
    intro before before' s t hbefore h
    have hrun := runsAlike fuel hnode _ _ goesAlike_some ⟨before, s, []⟩ ⟨before', t, []⟩
      ⟨hbefore, h, .nil⟩
    revert hrun
    dsimp only
    generalize run fuel node ⟨before, s, []⟩ some = a
    generalize run fuel node ⟨before', t, []⟩ some = b
    rintro (_ | _) <;> rfl
  induction s generalizing before before' t with
  | nil =>
      rw [List.eq_nil_of_length_eq_zero h.length_eq.symm]
      exact hfound hbefore (SameButCase.refl [])
  | cons c s ih =>
      rcases h.cons_inv with ⟨d, t, rfl, hlower, hrest⟩
      rw [searchFrom, searchFrom, hfound hbefore h,
        ih (sameButCase_cons_iff.mpr ⟨hlower, hbefore⟩) hrest]

/-- An expression that ignores case matches in texts that are the same up to case alike. -/
theorem search_congr
    {node : Node} {s t : List Char}
    (hnode : node.ignoresCase = true) (h : SameButCase s t) :
    search node s = search node t := by
  unfold search
  rw [h.length_eq]
  exact searchFrom_congr hnode (SameButCase.refl []) h

end Pattern
end RecordApi
