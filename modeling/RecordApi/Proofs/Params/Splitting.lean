import RecordApi.Proofs.Params.Keys

/-!
# Keys and their segments

A key is told by its segments: written in brackets behind the first of them, they are the key
again.  The one exception is a key in bracket notation with a line break behind it, which is
dropped, so that such a key has the segments of the key before the break.
-/

namespace RecordApi
namespace Key

variable {cs : List Char} {key other : String}

/-- A root and further segments in brackets. -/
structure IsBracketed (cs root : List Char) (segments : List (List Char)) : Prop where
  ne_nil : root ≠ []
  plain_root : IsPlain root
  plain : ∀ segment ∈ segments, IsPlain segment
  some_segment : segments ≠ []
  joined : cs = joinChars (root :: segments)

/-- A key in bracket notation with a line break behind its last bracket. -/
def HidesBreak (key : String) : Prop :=
  ∃ cs root segments, IsBracketed cs root segments ∧ key.toList = cs ++ ['\n']

/-! ## Reading segments -/

theorem bracketed?_eq_some
    {segment after : List Char}
    (h : bracketed? cs = some (segment, after)) :
    IsPlain segment ∧ cs = '[' :: segment ++ ']' :: after := by
  unfold bracketed? at h
  split at h
  · rename_i rest
    split at h
    · rename_i rest' hdrop
      cases h
      constructor
      · exact fun c hc => (List.mem_takeWhile_imp hc :)
      · have hrest := List.takeWhile_append_dropWhile (p := (!isBracket ·)) (l := rest)
        rw [hdrop] at hrest
        rw [List.cons_append, hrest]
    · cases h
  · cases h

/-- By induction on the fuel: each segment is read from its own brackets, and only a line break may
stand behind the last one. -/
theorem segments?_eq_some
    {fuel : Nat} {segments : List (List Char)}
    (h : segments? fuel cs = some segments) :
    segments ≠ [] ∧ (∀ segment ∈ segments, IsPlain segment) ∧
      ∃ tail, IsTail tail ∧ cs = wrapped segments ++ tail := by
  induction fuel generalizing cs segments with
  | zero => cases h
  | succ fuel ih =>
      have hlast {segment tail : List Char}
          (hread : bracketed? cs = some (segment, tail)) (htail : IsTail tail) :
          [segment] ≠ [] ∧ (∀ other ∈ [segment], IsPlain other) ∧
            ∃ tail, IsTail tail ∧ cs = wrapped [segment] ++ tail := by
        rcases bracketed?_eq_some hread with ⟨hplain, hcs⟩
        refine ⟨List.cons_ne_nil _ _, List.forall_mem_singleton.mpr hplain, tail, htail, ?_⟩
        rw [hcs]
        simp [wrapped]
      unfold segments? at h
      split at h
      · cases h
      · rename_i hread
        cases h
        exact hlast hread (.inl rfl)
      · rename_i hread
        cases h
        exact hlast hread (.inr rfl)
      · rename_i segment after _ _ hread
        rcases Option.map_eq_some_iff.mp h with ⟨rest, hrest, rfl⟩
        rcases bracketed?_eq_some hread with ⟨hplain, hcs⟩
        rcases ih hrest with ⟨_, hothers, tail, htail, hafter⟩
        refine ⟨List.cons_ne_nil _ _, List.forall_mem_cons.mpr ⟨hplain, hothers⟩, tail, htail, ?_⟩
        rw [hcs, hafter]
        simp [wrapped]

/-- A key is kept as a whole, or it is in bracket notation, perhaps with a line break. -/
theorem splitChars_cases (cs : List Char) :
    splitChars cs = [cs] ∨
      ∃ before root segments tail, IsBracketed before root segments ∧ IsTail tail ∧
        cs = before ++ tail ∧ splitChars cs = root :: segments := by
  unfold splitChars
  dsimp only
  split
  · exact .inl rfl
  · rename_i hroot
    split
    · rename_i segments hsegments
      rcases segments?_eq_some hsegments with ⟨hne, hplain, tail, htail, hrest⟩
      refine .inr ⟨_, _, segments, tail, ⟨by simpa using hroot, ?_, hplain, hne, rfl⟩, htail, ?_, rfl⟩
      · exact fun c hc => (List.mem_takeWhile_imp hc :)
      · have hcs := List.takeWhile_append_dropWhile (p := (!isBracket ·)) (l := cs)
        rw [hrest, ← List.append_assoc] at hcs
        exact hcs.symm
    · exact .inl rfl

theorem IsBracketed.splitChars_eq
    {root tail : List Char} {segments : List (List Char)}
    (h : IsBracketed cs root segments) (htail : IsTail tail) :
    splitChars (cs ++ tail) = root :: segments := by
  rw [h.joined]
  change splitChars (root ++ wrapped segments ++ tail) = _
  rw [List.append_assoc]
  exact splitChars_wrapped h.ne_nil h.plain_root h.plain h.some_segment htail

/-! ## Segments written as a key -/

theorem joinChars_splitChars (cs : List Char) :
    joinChars (splitChars cs) = cs ∨
      ∃ before root segments, IsBracketed before root segments ∧ cs = before ++ ['\n'] := by
  rcases splitChars_cases cs with hwhole | ⟨before, root, segments, tail, hkey, htail, hcs, hsplit⟩
  · rw [hwhole]
    exact .inl (List.append_nil cs)
  · rw [hsplit, ← hkey.joined]
    rcases htail with rfl | rfl
    · exact .inl (hcs.trans (List.append_nil before)).symm
    · exact .inr ⟨before, root, segments, hkey, hcs⟩

theorem toList_join_split (key : String) :
    (join (split key)).toList = joinChars (splitChars key.toList) := by
  unfold join split
  rw [String.toList_ofList]
  simp [Function.comp_def]

/-- A break behind a key in bracket notation is all that is lost. -/
theorem HidesBreak.append_break
    (h : HidesBreak key) :
    join (split key) ++ "\n" = key ∧ split (join (split key)) = split key := by
  rcases h with ⟨cs, root, segments, hkey, htoList⟩
  have hsplit : splitChars key.toList = root :: segments := by
    rw [htoList]
    exact hkey.splitChars_eq (.inr rfl)
  have hjoin : (join (split key)).toList = cs := by
    rw [toList_join_split, hsplit, hkey.joined]
  have hagain : splitChars (join (split key)).toList = splitChars key.toList := by
    rw [hjoin, hsplit, ← List.append_nil cs]
    exact hkey.splitChars_eq (.inl rfl)
  constructor
  · rw [← String.toList_inj, String.toList_append, hjoin, htoList]
    rfl
  · exact congrArg (List.map String.ofList) hagain

theorem HidesBreak.join_split_ne
    (h : HidesBreak key) :
    join (split key) ≠ key := by
  intro hsame
  have hlength := congrArg String.length h.append_break.1
  rw [hsame, String.length_append] at hlength
  exact absurd hlength (by simp)

/-- The key before the break has the same segments. -/
theorem HidesBreak.split_eq
    (h : HidesBreak key) (hbefore : key = other ++ "\n") :
    split key = split other := by
  rcases h.append_break with ⟨hbreak, hsplit⟩
  rw [hbefore, String.append_left_inj, ← hbefore] at hbreak
  rw [← hsplit, hbreak]

theorem join_split_or_hidesBreak (key : String) :
    join (split key) = key ∨ HidesBreak key := by
  rcases joinChars_splitChars key.toList with hsame | ⟨before, root, segments, hkey, hcs⟩
  · rw [← toList_join_split, String.toList_inj] at hsame
    exact .inl hsame
  · exact .inr ⟨before, root, segments, hkey, hcs⟩

/-- The segments of a key, written in brackets behind the first of them, are the key again, exactly
unless a line break stands behind a key in bracket notation.  Only the break is lost then; so two
keys have the same segments exactly if they are the same or differ by such a break alone. -/
theorem join_split_iff (key : String) :
    (join (split key) = key ↔ ¬ HidesBreak key) ∧
      (HidesBreak key → join (split key) ++ "\n" = key) ∧
      ∀ other, split key = split other ↔
        key = other ∨ HidesBreak key ∧ key = other ++ "\n" ∨
          HidesBreak other ∧ other = key ++ "\n" := by
  refine ⟨⟨fun hsame h => h.join_split_ne hsame, (join_split_or_hidesBreak key).resolve_right⟩,
    fun h => h.append_break.1, fun other => ⟨?_, ?_⟩⟩
  · intro hsplit
    -- both keys are told by their segments, up to a break
    rcases join_split_or_hidesBreak key with hkey | hkey
    · rcases join_split_or_hidesBreak other with hother | hother
      · rw [hsplit, hother] at hkey
        exact .inl hkey.symm
      · have hbreak := hother.append_break.1
        rw [← hsplit, hkey] at hbreak
        exact .inr (.inr ⟨hother, hbreak.symm⟩)
    · have hbreak := hkey.append_break.1
      rcases join_split_or_hidesBreak other with hother | hother
      · rw [hsplit, hother] at hbreak
        exact .inr (.inl ⟨hkey, hbreak.symm⟩)
      · rw [hsplit, hother.append_break.1] at hbreak
        exact .inl hbreak.symm
  · rintro (rfl | ⟨h, hbefore⟩ | ⟨h, hbefore⟩)
    · rfl
    · exact h.split_eq hbefore
    · exact (h.split_eq hbefore).symm

end Key

namespace Sample

open Key

/-- A key with a line break behind its bracket has the segments of the key without it. -/
theorem line_break_merges_keys :
    split "a[b]\n" = split "a[b]" ∧ join (split "a[b]\n") ≠ "a[b]\n" := by
  decide

end Sample
end RecordApi
