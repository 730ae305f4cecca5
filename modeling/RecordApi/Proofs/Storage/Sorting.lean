import RecordApi.Proofs.Sorting
import RecordApi.Proofs.Storage.Keys

/-!
# Sorting rows

Cells are sorted by their class, then as numbers, then as texts, so that any two rows can be
placed and the sort is stable: leaving rows out before it or behind it makes no difference.
-/

namespace RecordApi

open Std

namespace Cell

/-! ## The place of a cell -/

/-- Cells without a place, below all numbers, numbers, above all numbers, texts. -/
def rank : Cell → Nat
  | .null | .real .nan => 0
  | .real (.infinite true) => 1
  | .int _ | .real (.finite _ _) => 2
  | .real (.infinite false) => 3
  | .text _ => 4

/-- The number of a cell as a multiple of `2 ^ -1074`. -/
def magnitude : Cell → Int
  | .int n => n * Binary64.unitsPerOne
  | .real (.finite negative r) => Binary64.signedUnits negative r
  | _ => 0

def letters : Cell → String
  | .text s => s
  | _ => ""

def place : Cell → Cell → Ordering :=
  compareLex (compareOn rank) (compareLex (compareOn magnitude) (compareOn letters))

instance : TransCmp place :=
  inferInstanceAs (TransCmp
    (compareLex (compareOn rank) (compareLex (compareOn magnitude) (compareOn letters))))

theorem compare_units (n m : Int) :
    compare (n * (Binary64.unitsPerOne : Int)) (m * Binary64.unitsPerOne) = compare n m := by
  have hpos : (0 : Int) < Binary64.unitsPerOne := by decide
  rcases Int.lt_trichotomy n m with hlt | heq | hgt
  · rw [Int.compare_eq_lt.mpr hlt, Int.compare_eq_lt]
    exact Int.mul_lt_mul_of_pos_right hlt hpos
  · rw [heq, Int.compare_eq_eq.mpr rfl, Int.compare_eq_eq.mpr rfl]
  · rw [Int.compare_eq_gt.mpr hgt, Int.compare_eq_gt]
    exact Int.mul_lt_mul_of_pos_right hgt hpos

theorem place_of_numbers
    (a b : Cell)
    (ha : a.rank = 2) (hb : b.rank = 2) (hletters : a.letters = b.letters) :
    place a b = compare a.magnitude b.magnitude := by
  change (compare a.rank b.rank).then
    ((compare a.magnitude b.magnitude).then (compare a.letters b.letters)) = _
  rw [ha, hb, hletters, compare_self, compare_self, Ordering.then_eq]
  rfl

/-- The order of cells is that of their places. -/
theorem order_eq_place (a b : Cell) : order a b = place a b := by
  cases a with
  | null =>
      cases b with
      | real y =>
          cases y with
          | infinite negative => cases negative <;> rfl
          | _ => rfl
      | _ => rfl
  | int n =>
      cases b with
      | int m =>
          rw [place_of_numbers (.int n) (.int m) rfl rfl rfl]
          exact (compare_units n m).symm
      | real y =>
          cases y with
          | infinite negative => cases negative <;> rfl
          | finite negative r =>
              rw [place_of_numbers (.int n) (.real (.finite negative r)) rfl rfl rfl]
              rfl
          | nan => rfl
      | _ => rfl
  | real x =>
      cases x with
      | nan =>
          cases b with
          | real y =>
              cases y with
              | infinite negative => cases negative <;> rfl
              | _ => rfl
          | _ => rfl
      | infinite negative =>
          cases b with
          | real y =>
              cases y with
              | infinite other => cases negative <;> cases other <;> rfl
              | _ => cases negative <;> rfl
          | _ => cases negative <;> rfl
      | finite negative r =>
          cases b with
          | int m =>
              rw [place_of_numbers (.real (.finite negative r)) (.int m) rfl rfl rfl,
                OrientedOrd.eq_swap]
              rfl
          | real y =>
              cases y with
              | infinite other => cases other <;> rfl
              | finite other q =>
                  rw [place_of_numbers (.real (.finite negative r)) (.real (.finite other q))
                    rfl rfl rfl]
                  rfl
              | nan => rfl
          | _ => rfl
  | text s =>
      cases b with
      | real y =>
          cases y with
          | infinite negative => cases negative <;> rfl
          | _ => rfl
      | _ => rfl

end Cell

namespace Storage

/-! ## The order of rows -/

def keyOrder (key : SortKey) (a b : Row) : Ordering :=
  let order := Cell.order (a.cell key.column.key) (b.cell key.column.key)
  if key.direction = some true then order.swap else order

theorem transCmp_keyOrder (key : SortKey) : TransCmp (keyOrder key) := by
  have hforward : TransCmp fun a b : Row =>
      Cell.order (a.cell key.column.key) (b.cell key.column.key) := by
    refine { eq_swap := Cell.order_swap _ _, isLE_trans := ?_ }
    intro a b c hab hbc
    rw [Cell.order_eq_place] at *
    exact TransCmp.isLE_trans hab hbc
  unfold keyOrder
  by_cases hdown : key.direction = some true
  · have hswap : (fun a b : Row => (Cell.order (a.cell key.column.key)
        (b.cell key.column.key)).swap) =
        fun a b => Cell.order (b.cell key.column.key) (a.cell key.column.key) := by
      funext a b
      exact (Cell.order_swap _ _).symm
    simp only [hdown, if_true]
    rw [hswap]
    exact TransCmp.opposite
  · simp only [hdown, if_false]
    exact hforward

/-- By induction on the sort keys: each of them places rows by one cell and leaves the rows
that share it to the next. -/
theorem transCmp_rowOrder (keys : List SortKey) : TransCmp (rowOrder keys) := by
  induction keys with
  | nil => exact { eq_swap := rfl, isLE_trans := fun _ _ => rfl }
  | cons key rest ih =>
      have hkey := transCmp_keyOrder key
      exact inferInstanceAs (TransCmp (compareLex (keyOrder key) (rowOrder rest)))

/-! ## Sorted rows -/

theorem rowOrder_self (keys : List SortKey) (row : Row) : rowOrder keys row row ≠ .gt := by
  have horder := transCmp_rowOrder keys
  have hself : rowOrder keys row row = .eq := ReflCmp.compare_self
  rw [hself]
  exact Ordering.noConfusion

theorem rowOrder_isLE (keys : List SortKey) (a b : Row) :
    (rowOrder keys a b != .gt) = (rowOrder keys a b).isLE := by
  cases rowOrder keys a b <;> rfl

theorem rowOrder_trans
    (keys : List SortKey) (a b c : Row)
    (hab : (rowOrder keys a b != .gt) = true) (hbc : (rowOrder keys b c != .gt) = true) :
    (rowOrder keys a c != .gt) = true := by
  have horder := transCmp_rowOrder keys
  rw [rowOrder_isLE] at *
  exact TransCmp.isLE_trans hab hbc

theorem rowOrder_total (keys : List SortKey) (a b : Row) :
    ((rowOrder keys a b != .gt) || (rowOrder keys b a != .gt)) = true := by
  have horder := transCmp_rowOrder keys
  have hswap : rowOrder keys b a = (rowOrder keys a b).swap := horder.eq_swap
  rw [rowOrder_isLE, rowOrder_isLE, hswap]
  cases rowOrder keys a b <;> rfl

theorem filter_sortRows (keys : List SortKey) (keep : Row → Bool) (rows : List Row) :
    (sortRows keys rows).filter keep = sortRows keys (rows.filter keep) := by
  unfold sortRows
  split
  · rfl
  · exact filter_mergeSort (rowOrder_trans keys) (rowOrder_total keys) keep rows

/-- No row comes behind one that it is placed before. -/
theorem sorted_sortRows (keys : List SortKey) (rows : List Row) :
    (sortRows keys rows).Pairwise fun a b => rowOrder keys a b ≠ .gt := by
  unfold sortRows
  split
  · rw [List.pairwise_iff_forall_sublist]
    intro a b _ hgt
    cases hgt
  · have hsorted := List.pairwise_mergeSort (rowOrder_trans keys) (rowOrder_total keys) rows
    exact hsorted.imp fun hle => bne_iff_ne.mp hle

theorem perm_sortRows (keys : List SortKey) (rows : List Row) :
    (sortRows keys rows).Perm rows := by
  unfold sortRows
  split
  · exact List.Perm.refl rows
  · exact List.mergeSort_perm rows _

end Storage
end RecordApi
