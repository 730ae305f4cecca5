import Mathlib
import RecordApi.Proofs.Params.Clashes
import RecordApi.Proofs.Params.Reading
import RecordApi.Proofs.Params.Roots

/-!
# Requests that stray

A request that cannot be decoded is refused with an error of the query, but for three flaws: a
list whose indices write no numbers, parameters without names, and an integer too long.  Each of
them escapes as a failure from outside.
-/

namespace RecordApi
namespace Params

open Steps

variable {items : List (String × String)} {e : Error}

/-- The items of a request make its decoding fail in a way of its own. -/
inductive Strays (items : List (String × String)) : Prop
  /-- A map is to become a list, but one of its keys writes no number. -/
  | index {entries : Assoc Tree} (taken : items.foldlM assignItem [] = .ok entries)
      (misnumbered : Misnumbered (leavesOf entries)) : Strays items
  | unnamed {value : Value} (folded : fold items = .ok value) (unnamed : Unnamed items) :
      Strays items
  /-- What is read before the integer can be read. -/
  | integer {values : Assoc Value} {before after : List Reading} {reading : Reading}
      (folded : fold items = .ok (.map values))
      (given : readings values = before ++ reading :: after)
      (read : ∀ earlier ∈ before, earlier.run = .ok ()) (long : IsLong reading.value) :
      Strays items

theorem fold_eq_indexNotDecimal :
    fold items = .error .indexNotDecimal ↔
      ∃ entries, items.foldlM assignItem [] = .ok entries ∧ Misnumbered (leavesOf entries) := by
  rw [fold_eq_branch]
  constructor
  · intro h
    rcases bind_eq_error.mp h with htaken | ⟨entries, htaken, hfails⟩
    · exact absurd (label_of_foldlM_error htaken) (by decide)
    · refine ⟨entries, htaken, ?_⟩
      by_contra hnumbered
      rcases (areGrown_of_foldlM areGrown_nil htaken).exists_fold_iff.mpr hnumbered with
        ⟨value, hvalue⟩
      rw [hvalue] at hfails
      cases hfails
  · rintro ⟨entries, htaken, hmisnumbered⟩
    refine bind_eq_error.mpr (Or.inr ⟨entries, htaken, ?_⟩)
    cases hfold : (Tree.branch entries).fold with
    | error e => rw [Tree.eq_of_fold_error hfold]
    | ok value =>
        exact absurd hmisnumbered
          ((areGrown_of_foldlM areGrown_nil htaken).exists_fold_iff.mp ⟨value, hfold⟩)

theorem isTyped_of_fold_error (h : fold items = .error e) (hindex : e ≠ .indexNotDecimal) :
    e.IsTyped := by
  rw [fold_eq_branch] at h
  rcases bind_eq_error.mp h with htaken | ⟨entries, -, hfails⟩
  · unfold Error.IsTyped
    rw [label_of_foldlM_error htaken]
    exact List.mem_cons_self
  · exact absurd (Tree.eq_of_fold_error hfails) hindex

theorem Strays.not_isTyped (h : Strays items) : ∃ e, decode items = .error e ∧ ¬ e.IsTyped := by
  cases h with
  | index taken misnumbered =>
      have hfold := fold_eq_indexNotDecimal.mpr ⟨_, taken, misnumbered⟩
      exact ⟨_, decode_of_error hfold, by decide⟩
  | unnamed folded unnamed => exact ⟨_, decode_of_unnamed folded unnamed, by decide⟩
  | integer folded given read long =>
      have hlong := ofEntries_eq_error.mpr ⟨_, _, _, given, read, Reading.run_of_isLong long⟩
      exact ⟨_, (decode_of_map folded).trans hlong, by decide⟩

theorem isTyped_of_not_strays (h : decode items = .error e) (hstrays : ¬ Strays items) :
    e.IsTyped := by
  cases hfold : fold items with
  | error reason =>
      rw [decode_of_error hfold] at h
      cases h
      refine isTyped_of_fold_error hfold ?_
      rintro rfl
      rcases fold_eq_indexNotDecimal.mp hfold with ⟨entries, htaken, hmisnumbered⟩
      exact hstrays (.index htaken hmisnumbered)
  | ok value =>
      have hnamed : ¬ Unnamed items := fun hunnamed => hstrays (.unnamed hfold hunnamed)
      rcases (exists_map_iff_of_fold hfold).mpr hnamed with ⟨values, rfl⟩
      rw [decode_of_map hfold] at h
      rcases ofEntries_eq_error.mp h with ⟨before, reading, after, hgiven, hread, hrun⟩
      rcases Reading.run_eq_error hrun with htyped | ⟨-, hlong⟩
      · exact htyped
      · exact absurd (.integer hfold hgiven hread hlong) hstrays

/-- Exactly the requests that do not stray are decoded or refused with an error of the query. -/
theorem decoded_or_isTyped_iff_not_strays (items : List (String × String)) :
    ((∃ query, decode items = .ok query) ∨ ∃ e, decode items = .error e ∧ e.IsTyped) ↔
      ¬ Strays items := by
  constructor
  · intro h hstrays
    rcases hstrays.not_isTyped with ⟨e, he, hforeign⟩
    rcases h with ⟨query, hquery⟩ | ⟨typed, htyped, hown⟩
    · rw [he] at hquery
      cases hquery
    · rw [he] at htyped
      cases htyped
      exact hforeign hown
  · intro hstrays
    cases hdecode : decode items with
    | ok query => exact Or.inl ⟨query, rfl⟩
    | error e => exact Or.inr ⟨e, rfl, isTyped_of_not_strays hdecode hstrays⟩

end Params

namespace Sample

/-- The index is a digit, but no decimal one. -/
def superscriptIndex : List (String × String) :=
  [("a[\u00b2]", "x")]

set_option maxRecDepth 4000 in
theorem superscript_index_escapes :
    Params.decode superscriptIndex = .error .indexNotDecimal ∧
      ¬ ((∃ query, Params.decode superscriptIndex = .ok query) ∨
        ∃ e, Params.decode superscriptIndex = .error e ∧ e.IsTyped) := by
  have hescapes : Params.decode superscriptIndex = .error .indexNotDecimal := by
    cbv
  refine ⟨hescapes, ?_⟩
  rw [hescapes]
  rintro (⟨query, ⟨⟩⟩ | ⟨e, ⟨⟩, htyped⟩)
  exact absurd htyped (by decide)

-- items without a name fold to a list
set_option maxRecDepth 4000 in
example : Params.decode [("0", "x")] = .error .unnamedParameters := by
  cbv

end Sample
end RecordApi
