import Mathlib
import RecordApi.Proofs.Params.Brackets
import RecordApi.Proofs.Params.Leaves

/-!
# Folding keeps every text

Whatever keys they are given under, the values of the items are the texts of the value that they
fold to.  Maps become lists by their indices, but no text gets lost, doubled or changed.
-/

namespace RecordApi

open Leaf

namespace Value

variable {entries : List (String × Value)}

def texts (value : Value) : List String :=
  value.leaves.map Leaf.text

theorem map_text_under (name : String) (leaves : List Leaf) :
    (leaves.map (under name)).map Leaf.text = leaves.map Leaf.text :=
  List.map_map

theorem map_text_entryLeaves (entries : List (String × Value)) :
    (entryLeaves entries).map Leaf.text = (entries.map Prod.snd).flatMap texts := by
  simp only [entryLeaves_eq_flatMap, List.map_flatMap, List.flatMap_map, map_text_under, texts]

theorem texts_map (entries : List (String × Value)) :
    texts (.map entries) = (entries.map Prod.snd).flatMap texts := by
  unfold texts
  rw [leaves]
  exact map_text_entryLeaves entries

theorem texts_list (items : List Value) : texts (.list items) = items.flatMap texts := by
  have hitems : (Params.indexed 0 items).map Prod.snd = items := by
    unfold Params.indexed
    rw [List.map_map]
    exact List.zipIdx_map_fst 0 items
  unfold texts
  rw [leaves_list, map_text_entryLeaves, hitems]
  rfl

end Value

namespace Params

open Steps Leaf Value

variable {entries values : Assoc Value} {trees : Assoc Tree} {value : Value}

/-- The items of a list are the values of the map that it stands for. -/
theorem perm_of_inIndexOrder
    {items : List Value} (h : inIndexOrder entries = .ok items) :
    items.Perm (entries.map Prod.snd) := by
  rw [inIndexOrder_eq] at h
  rcases map_eq_ok.mp h with ⟨pairs, hpairs, rfl⟩
  have hvalues : pairs.map Prod.snd = entries.map Prod.snd := by
    rw [eq_comm, ← List.forall₂_eq_eq_eq, List.forall₂_map_left_iff, List.forall₂_map_right_iff]
    exact (forall₂_of_mapM hpairs).imp fun _ _ hpair => (readIndex_eq_ok.mp hpair).2
  rw [← hvalues]
  exact (List.mergeSort_perm pairs _).map Prod.snd

theorem perm_texts_of_foldMap (h : foldMap entries = .ok value) :
    value.texts.Perm ((entries.map Prod.snd).flatMap texts) := by
  unfold foldMap at h
  split at h
  · rcases map_eq_ok.mp h with ⟨items, hitems, rfl⟩
    rw [texts_list]
    exact (perm_of_inIndexOrder hitems).flatMap_right texts
  · cases h
    rw [texts_map]

theorem map_text_leavesOf_cons (key : String) (tree : Tree) (rest : List (String × Tree)) :
    (leavesOf ((key, tree) :: rest)).map Leaf.text =
      tree.leaves.map Leaf.text ++ (leavesOf rest).map Leaf.text := by
  rw [leavesOf, List.map_append, map_text_under]

mutual

theorem perm_texts_of_foldTree :
    ∀ {tree : Tree} {value : Value}, tree.fold = .ok value →
      value.texts.Perm (tree.leaves.map Leaf.text)
  | .plain s, value, h => by
      rw [Tree.fold] at h
      cases h
      rw [texts, leaves, Tree.leaves]
  | .repeated texts, value, h => by
      rw [Tree.fold] at h
      cases h
      rw [ofTexts, texts_list, Tree.leaves, List.map_map, List.flatMap_map]
      simp [Function.comp_def, Value.texts, leaves]
  | .branch entries, value, h => by
      rw [Tree.fold] at h
      rcases bind_eq_ok.mp h with ⟨values, hvalues, hvalue⟩
      rw [Tree.leaves]
      exact (perm_texts_of_foldMap hvalue).trans (perm_texts_of_foldEntries hvalues)

theorem perm_texts_of_foldEntries :
    ∀ {trees : List (String × Tree)} {values : List (String × Value)},
      foldEntries trees = .ok values →
        ((values.map Prod.snd).flatMap texts).Perm ((leavesOf trees).map Leaf.text)
  | [], values, h => by
      rw [foldEntries] at h
      cases h
      rw [leavesOf]
      exact List.Perm.refl _
  | (key, tree) :: rest, values, h => by
      rw [foldEntries] at h
      rcases bind_eq_ok.mp h with ⟨value, hvalue, h⟩
      rcases bind_eq_ok.mp h with ⟨others, hothers, h⟩
      rw [← pure_eq_ok.mp h, map_text_leavesOf_cons]
      exact (perm_texts_of_foldTree hvalue).append (perm_texts_of_foldEntries hothers)

end

/-- The texts of what some items fold to are the values of the items, each as often as it is
given. -/
theorem perm_texts_of_fold
    {items : List (String × String)} (h : fold items = .ok value) :
    value.texts.Perm (items.map Prod.snd) := by
  rw [fold_eq_branch] at h
  rcases bind_eq_ok.mp h with ⟨trees, htrees, hvalue⟩
  rcases exists_leaves_of_foldlM htrees with ⟨places, hfills, hleaves⟩
  have htexts : places.map Leaf.text = items.map Prod.snd :=
    (map_text_of_fills hfills).trans List.map_map
  have hbranch := perm_texts_of_foldTree hvalue
  rw [Tree.leaves] at hbranch
  rw [leavesOf, List.append_nil] at hleaves
  rw [← htexts]
  exact hbranch.trans (hleaves.map Leaf.text)

end Params

namespace Sample

/-- Items under indices that are sparse, padded, of another script, left out or repeated, and
under keys that are nested, repeated or empty. -/
def manyKeys : List (String × String) :=
  [("a[7]", "p"), ("a[]", "q"), ("a[01]", "r"), ("a[\u0661]", "s"), ("a[1]", "t"), ("b[c][]", "u"),
    ("b[c][][d]", "v"), ("e", "w"), ("e", "w"), ("", "x")]

set_option maxRecDepth 4000 in
theorem fold_manyKeys :
    Params.fold manyKeys = .ok (.map [
      ("a", .list [.ofTexts ["q", "t"], .text "r", .text "s", .text "p"]),
      ("b", .map [("c", .list [.text "u", .map [("d", .text "v")]])]),
      ("e", .ofTexts ["w", "w"]), ("0", .text "x")]) := by
  cbv

theorem perm_texts_of_fold_manyKeys :
    ∃ value, Params.fold manyKeys = .ok value ∧
      value.texts.Perm ["p", "q", "r", "s", "t", "u", "v", "w", "w", "x"] :=
  ⟨_, fold_manyKeys, Params.perm_texts_of_fold fold_manyKeys⟩

end Sample
end RecordApi
