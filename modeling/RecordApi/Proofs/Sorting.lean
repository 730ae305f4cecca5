import Mathlib.Data.List.Basic

/-!
# Stable sorting

A stable sort is told by where its members go.  The first one goes behind all that are strictly
less, the last one behind all that are not greater, and members that are left out make no
difference for the others.
-/

namespace RecordApi

variable {α : Type}

/-! ## Cuts of a list -/

variable {test : α → Bool} {xs : List α}

theorem filter_of_pass (h : ∀ x ∈ xs, test x = true) :
    xs.filter test = xs ∧ xs.filter (!test ·) = [] := by
  refine ⟨List.filter_eq_self.mpr h, List.filter_eq_nil_iff.mpr ?_⟩
  intro x hx
  rw [h x hx]
  exact Bool.false_ne_true

theorem filter_of_fail (h : ∀ x ∈ xs, test x = false) :
    xs.filter test = [] ∧ xs.filter (!test ·) = xs := by
  refine ⟨List.filter_eq_nil_iff.mpr ?_, List.filter_eq_self.mpr ?_⟩
  · intro x hx
    rw [h x hx]
    exact Bool.false_ne_true
  · intro x hx
    rw [h x hx]
    rfl

/-- A list is cut in one way only into a part that passes a test and one that fails it. -/
theorem cut_unique
    {front back ahead behind : List α}
    (h : front ++ back = ahead ++ behind)
    (hfront : ∀ x ∈ front, test x = true) (hback : ∀ x ∈ back, test x = false)
    (hahead : ∀ x ∈ ahead, test x = true) (hbehind : ∀ x ∈ behind, test x = false) :
    front = ahead ∧ back = behind := by
  have hcut := congrArg (List.filter test) h
  rw [List.filter_append, List.filter_append, (filter_of_pass hfront).1, (filter_of_fail hback).1,
    (filter_of_pass hahead).1, (filter_of_fail hbehind).1, List.append_nil, List.append_nil]
    at hcut
  rw [hcut] at h
  exact ⟨hcut, List.append_cancel_left h⟩

/-! ## Members of a sorted list -/

variable {le : α → α → Bool}

theorem le_behind
    (htrans : ∀ a b c, le a b = true → le b c = true → le a c = true)
    (htotal : ∀ a b, (le a b || le b a) = true)
    {a : α} {xs ahead behind : List α}
    (h : (a :: xs).mergeSort le = ahead ++ a :: behind) :
    ∀ b ∈ behind, (!le a b) = false := by
  have hsorted := List.pairwise_mergeSort htrans htotal (a :: xs)
  rw [h, List.pairwise_append] at hsorted
  intro b hb
  rw [List.rel_of_pairwise_cons hsorted.2.1 hb]
  rfl

/-- A stable sort by a total order may be done before or behind leaving members out.  By
induction on the list: its first member is put behind all that are strictly less. -/
theorem filter_mergeSort
    (htrans : ∀ a b c, le a b = true → le b c = true → le a c = true)
    (htotal : ∀ a b, (le a b || le b a) = true)
    (keep : α → Bool) (xs : List α) :
    (xs.mergeSort le).filter keep = (xs.filter keep).mergeSort le := by
  induction xs with
  | nil => simp
  | cons a rest ih =>
      rcases List.mergeSort_cons htrans htotal a rest with ⟨ahead, behind, hall, hrest, hahead⟩
      rw [hrest, List.filter_append] at ih
      rw [hall, List.filter_append, List.filter_cons, List.filter_cons]
      cases hkeep : keep a with
      | false => simpa using ih
      | true =>
          rw [if_pos rfl, if_pos rfl]
          rcases List.mergeSort_cons htrans htotal a (rest.filter keep) with
            ⟨front, back, hkept, hcut, hfront⟩
          have hparts := cut_unique (hcut.symm.trans ih.symm) hfront
            (le_behind htrans htotal hkept)
            (fun b hb => hahead b (List.mem_filter.mp hb).1)
            (fun b hb => le_behind htrans htotal hall b (List.mem_filter.mp hb).1)
          rw [hkept, hparts.1, hparts.2]

/-- The last member is put behind all that are not greater.  By induction on the list: its first
member parts the sorted list, and the last one goes to either side. -/
theorem mergeSort_concat
    (htrans : ∀ a b c, le a b = true → le b c = true → le a c = true)
    (htotal : ∀ a b, (le a b || le b a) = true)
    (xs : List α) (x : α) :
    (xs ++ [x]).mergeSort le =
      (xs.mergeSort le).filter (le · x) ++ x :: (xs.mergeSort le).filter (!le · x) := by
  induction xs with
  | nil => simp
  | cons a rest ih =>
      rcases List.mergeSort_cons htrans htotal a rest with ⟨ahead, behind, hall, hrest, hahead⟩
      rcases List.mergeSort_cons htrans htotal a (rest ++ [x]) with
        ⟨front, back, hmore, hcut, hfront⟩
      have hback := le_behind htrans htotal hmore
      have hbehind := le_behind htrans htotal hall
      rw [hrest, hcut, List.filter_append, List.filter_append] at ih
      rw [List.cons_append, hmore, hall, List.filter_append, List.filter_append, List.filter_cons,
        List.filter_cons]
      cases hle : le a x with
      | true =>
          -- all that stands before the first member is not greater than the last one
          have hless : ∀ b ∈ ahead, le b x = true := by
            intro b hb
            have hab := hahead b hb
            have hba := htotal a b
            rw [Bool.not_eq_true'] at hab
            rw [hab, Bool.false_or] at hba
            exact htrans b a x hba hle
          rcases filter_of_pass hless with ⟨hall, hnone⟩
          rw [hall, hnone, List.nil_append, List.append_assoc] at ih
          have hparts := cut_unique ih hfront hback hahead ?_
          · simp [hall, hnone, hparts.1, hparts.2]
          · rw [List.forall_mem_append, List.forall_mem_cons, hle]
            exact ⟨fun b hb => hbehind b (List.mem_filter.mp hb).1, rfl,
              fun b hb => hbehind b (List.mem_filter.mp hb).1⟩
      | false =>
          -- nothing behind the first member is less than or equal to the last one
          have hmore : ∀ b ∈ behind, le b x = false := by
            intro b hb
            have hab := hbehind b hb
            rw [Bool.not_eq_false'] at hab
            rw [Bool.eq_false_iff]
            intro hbx
            rw [htrans a b x hab hbx] at hle
            cases hle
          rcases filter_of_fail hmore with ⟨hnone, hall⟩
          rw [hnone, hall, List.append_nil, ← List.cons_append, ← List.append_assoc] at ih
          have hparts := cut_unique ih hfront hback ?_ hbehind
          · simp [hnone, hall, hparts.1, hparts.2]
          · rw [List.forall_mem_append, List.forall_mem_cons, hle]
            exact ⟨fun b hb => hahead b (List.mem_filter.mp hb).1, rfl,
              fun b hb => hahead b (List.mem_filter.mp hb).1⟩

end RecordApi
