import Mathlib.Data.List.TakeWhile
import RecordApi.Params.Brackets

/-!
# Reading keys

A key that was written from a name and further segments is read as just these.
-/

namespace RecordApi
namespace Key

/-- The segments behind the root of a key, each in its brackets. -/
def wrapped (segments : List (List Char)) : List Char :=
  segments.flatMap fun segment => '[' :: segment ++ [']']

def IsPlain (cs : List Char) : Prop :=
  ∀ c ∈ cs, (!isBracket c) = true

theorem bracketed?_of_plain
    {segment : List Char} (hplain : IsPlain segment) (after : List Char) :
    bracketed? ('[' :: segment ++ ']' :: after) = some (segment, after) := by
  have htake : (segment ++ ']' :: after).takeWhile (!isBracket ·) = segment := by
    rw [List.takeWhile_append_of_pos hplain]
    exact List.append_nil segment
  have hdrop : (segment ++ ']' :: after).dropWhile (!isBracket ·) = ']' :: after :=
    List.dropWhile_append_of_pos hplain
  simp only [List.cons_append, bracketed?, hdrop, htake]

/-- What may stand behind the last bracket of a key: nothing, or one line break. -/
def IsTail (tail : List Char) : Prop := tail = [] ∨ tail = ['\n']

/-- By induction on the segments: each of them is in brackets of its own. -/
theorem segments?_wrapped
    {segments : List (List Char)} (hplain : ∀ segment ∈ segments, IsPlain segment)
    (hne : segments ≠ []) {tail : List Char} (htail : IsTail tail)
    {fuel : Nat} (hfuel : segments.length ≤ fuel) :
    segments? fuel (wrapped segments ++ tail) = some segments := by
  induction segments generalizing fuel with
  | nil => exact absurd rfl hne
  | cons segment rest ih =>
      rw [List.forall_mem_cons] at hplain
      cases fuel with
      | zero => exact absurd hfuel (Nat.not_succ_le_zero _)
      | succ fuel =>
          have hfirst : wrapped (segment :: rest) ++ tail =
              '[' :: segment ++ ']' :: (wrapped rest ++ tail) := by
            simp [wrapped]
          unfold segments?
          rw [hfirst, bracketed?_of_plain hplain.1]
          cases rest with
          | nil => rcases htail with rfl | rfl <;> rfl
          | cons next others =>
              have hrest := ih hplain.2 (List.cons_ne_nil next others)
                (Nat.le_of_succ_le_succ hfuel)
              exact congrArg (Option.map (segment :: ·)) hrest

theorem splitChars_wrapped
    {root : List Char} {segments : List (List Char)} {tail : List Char}
    (hne : root ≠ []) (hroot : IsPlain root) (hplain : ∀ segment ∈ segments, IsPlain segment)
    (hsegments : segments ≠ []) (htail : IsTail tail) :
    splitChars (root ++ (wrapped segments ++ tail)) = root :: segments := by
  rcases List.exists_cons_of_ne_nil hsegments with ⟨segment, rest, rfl⟩
  have htake : (root ++ (wrapped (segment :: rest) ++ tail)).takeWhile (!isBracket ·) = root := by
    rw [List.takeWhile_append_of_pos hroot]
    exact List.append_nil root
  have hdrop : (root ++ (wrapped (segment :: rest) ++ tail)).dropWhile (!isBracket ·) =
      wrapped (segment :: rest) ++ tail :=
    List.dropWhile_append_of_pos hroot
  have hlong : ∀ ss : List (List Char), ss.length ≤ (wrapped ss).length := by
    intro ss
    induction ss with
    | nil => exact Nat.le_refl 0
    | cons s others ih => simp [wrapped] at ih ⊢; omega
  unfold splitChars
  dsimp only
  rw [htake, hdrop, if_neg (by simpa using hne), segments?_wrapped hplain hsegments htail]
  refine Nat.le_trans (hlong _) ?_
  rw [List.length_append, List.length_append]
  omega

theorem splitChars_joinChars
    {root : List Char} {segments : List (List Char)}
    (hne : root ≠ []) (hroot : IsPlain root) (hplain : ∀ segment ∈ segments, IsPlain segment) :
    splitChars (joinChars (root :: segments)) = root :: segments := by
  change splitChars (root ++ wrapped segments) = root :: segments
  cases segments with
  | nil =>
      have htake : root.takeWhile (!isBracket ·) = root := List.takeWhile_eq_self_iff.mpr hroot
      have hdrop : root.dropWhile (!isBracket ·) = [] := List.dropWhile_eq_nil_iff.mpr hroot
      rw [show wrapped [] = [] from rfl, List.append_nil]
      unfold splitChars
      dsimp only
      rw [htake, hdrop, if_neg (by simpa using hne)]
      cases root <;> rfl
  | cons segment rest =>
      rw [← List.append_nil (wrapped (segment :: rest))]
      exact splitChars_wrapped hne hroot hplain (List.cons_ne_nil segment rest) (.inl rfl)

theorem plain_of_isName {name : String} (h : isName name = true) : IsPlain name.toList := by
  unfold isName at h
  rw [Bool.and_eq_true, List.all_eq_true] at h
  exact h.2

theorem ne_empty_of_isName {name : String} (h : isName name = true) : name ≠ "" := by
  rintro rfl
  exact absurd h (by decide)

/-- A segment of a key may be empty, but its root may not. -/
theorem split_join
    {root : String} {segments : List String}
    (hroot : isName root = true)
    (hsegments : ∀ segment ∈ segments, IsPlain segment.toList) :
    split (join (root :: segments)) = root :: segments := by
  have hne : root.toList ≠ [] := by simpa using ne_empty_of_isName hroot
  unfold split join
  rw [String.toList_ofList, List.map_cons, splitChars_joinChars hne (plain_of_isName hroot)]
  · simp [Function.comp_def]
  · intro segment hsegment
    rcases List.mem_map.mp hsegment with ⟨s, hs, rfl⟩
    exact hsegments s hs

/-- A name with a further segment is in bracket notation, so no bracket is in the name. -/
theorem isName_of_split
    {key name segment : String} {rest : List String}
    (h : split key = name :: segment :: rest) :
    isName name = true := by
  unfold split splitChars at h
  dsimp only at h
  split at h
  · cases h
  · rename_i hne
    split at h
    · rename_i segments _
      have hroot := (List.cons.inj h).1
      rw [← hroot]
      unfold isName
      rw [String.toList_ofList, Bool.and_eq_true, List.all_eq_true]
      refine ⟨?_, fun c hc => (List.mem_takeWhile_imp hc :)⟩
      simpa using hne
    · cases h

end Key
end RecordApi
