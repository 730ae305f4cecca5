import Mathlib.Data.List.Pairwise
import RecordApi.Storage.Writing

/-!
# Keys

Two cells are one key when they stand for the same point: a number, an infinity or a text.
The order of keys is blind to which of two rows comes first, and a row that is put into its
place in a table leaves the other rows as they are.
-/

namespace RecordApi
namespace Binary64

theorem compare?_swap (x y : Binary64) :
    compare? x y = (compare? y x).map Ordering.swap := by
  cases x with
  | nan => cases y <;> rfl
  | infinite a =>
      cases y with
      | nan => rfl
      | infinite b => cases a <;> cases b <;> rfl
      | finite b s => cases a <;> rfl
  | finite a r =>
      cases y with
      | nan => rfl
      | infinite b => cases b <;> rfl
      | finite b s =>
          simp only [compare?, Option.map_some]
          rw [Std.OrientedOrd.eq_swap (a := signedUnits a r)]

end Binary64

namespace Cell

/-! ## The order of cells -/

theorem compare?_swap (a b : Cell) :
    compare? a b = (compare? b a).map Ordering.swap := by
  cases a with
  | null => cases b <;> rfl
  | int n =>
      cases b with
      | int m =>
          simp only [compare?, Option.map_some]
          rw [Std.OrientedOrd.eq_swap (a := n)]
      | real y =>
          simp only [compare?, Option.map_map]
          cases Binary64.compareInt? n y with
          | none => rfl
          | some o => cases o <;> rfl
      | _ => rfl
  | real x =>
      cases b with
      | real y => exact Binary64.compare?_swap x y
      | _ => rfl
  | text s =>
      cases b with
      | text t =>
          simp only [compare?, Option.map_some]
          rw [Std.OrientedOrd.eq_swap (a := s)]
      | _ => rfl

theorem order_swap (a b : Cell) : order a b = (order b a).swap := by
  unfold order
  rw [compare?_swap a b]
  cases a.isUnplaced with
  | true => cases b.isUnplaced <;> rfl
  | false =>
      cases b.isUnplaced with
      | true => rfl
      | false => cases compare? b a <;> rfl

/-- A cell without a place is compared with texts only, and comes before them. -/
theorem compare?_of_isUnplaced
    {a b : Cell} {o : Ordering}
    (ha : a.isUnplaced = true) (h : compare? a b = some o) :
    b.isUnplaced = false ∧ o = .lt := by
  unfold isUnplaced at ha
  split at ha
  · cases h
  · cases b with
    | text s =>
        cases h
        exact ⟨rfl, rfl⟩
    | _ => cases h
  · cases ha

theorem order_of_compare?
    {a b : Cell} {o : Ordering}
    (h : compare? a b = some o) :
    order a b = o := by
  have hswap : compare? b a = some o.swap := by
    rw [compare?_swap, h]
    rfl
  unfold order
  cases ha : a.isUnplaced with
  | true =>
      rcases compare?_of_isUnplaced ha h with ⟨hb, ho⟩
      rw [hb, ho]
  | false =>
      cases hb : b.isUnplaced with
      | true =>
          have ho := (compare?_of_isUnplaced hb hswap).2
          rw [← Ordering.swap_swap (o := o), ho]
          rfl
      | false =>
          rw [h]
          rfl

/-- Cells with a place can be compared. -/
theorem exists_compare?
    {a b : Cell}
    (ha : a.isUnplaced = false) (hb : b.isUnplaced = false) :
    ∃ o, compare? a b = some o := by
  have hreal : ∀ x : Binary64, (Cell.real x).isUnplaced = false → x ≠ .nan := by
    rintro x hx rfl
    cases hx
  have hint : ∀ (n : Int) (x : Binary64), x ≠ .nan → ∃ o, Binary64.compareInt? n x = some o := by
    intro n x hx
    cases x with
    | nan => exact absurd rfl hx
    | infinite negative => exact ⟨_, rfl⟩
    | finite negative rank => exact ⟨_, rfl⟩
  cases a with
  | null => cases ha
  | int n =>
      cases b with
      | null => cases hb
      | int m => exact ⟨_, rfl⟩
      | real y => exact hint n y (hreal y hb)
      | text t => exact ⟨_, rfl⟩
  | real x =>
      cases b with
      | null => cases hb
      | int m =>
          rcases hint m x (hreal x ha) with ⟨o, ho⟩
          exact ⟨o.swap, Option.map_eq_some_iff.mpr ⟨o, ho, rfl⟩⟩
      | real y =>
          cases x with
          | nan => exact absurd rfl (hreal _ ha)
          | infinite negative =>
              cases y with
              | nan => exact absurd rfl (hreal _ hb)
              | infinite negative' => cases negative <;> cases negative' <;> exact ⟨_, rfl⟩
              | finite negative' rank => exact ⟨_, rfl⟩
          | finite negative rank =>
              cases y with
              | nan => exact absurd rfl (hreal _ hb)
              | infinite negative' => exact ⟨_, rfl⟩
              | finite negative' rank' => exact ⟨_, rfl⟩
      | text t => exact ⟨_, rfl⟩
  | text s =>
      cases b with
      | null => cases hb
      | int m => exact ⟨_, rfl⟩
      | real y => exact ⟨_, rfl⟩
      | text t => exact ⟨_, rfl⟩

/-- Beside a cell that has a place, the order tells whether two cells are one key. -/
theorem sameKey_of_order
    {a b : Cell}
    (hb : b.isUnplaced = false) (h : order a b = .eq) :
    a.sameKey b = true := by
  unfold order at h
  rw [hb] at h
  cases ha : a.isUnplaced with
  | true =>
      rw [ha] at h
      cases h
  | false =>
      rcases exists_compare? ha hb with ⟨o, ho⟩
      rw [ha, ho] at h
      cases h
      exact beq_iff_eq.mpr ho

/-! ## Points -/

/-- What a cell stands for in comparisons.  Numbers are multiples of `2 ^ -1074`. -/
inductive Point where
  | number (units : Int)
  | infinite (negative : Bool)
  | text (s : String)

/-- The point of a cell; nothing and what is no number have none. -/
def point? : Cell → Option Point
  | .null => none
  | .int n => some (.number (n * Binary64.unitsPerOne))
  | .real .nan => none
  | .real (.infinite negative) => some (.infinite negative)
  | .real (.finite negative rank) => some (.number (Binary64.signedUnits negative rank))
  | .text s => some (.text s)

theorem unitsPerOne_ne_zero : (Binary64.unitsPerOne : Int) ≠ 0 := by
  decide

theorem compare?_eq_iff (a b : Cell) :
    compare? a b = some .eq ↔ ∃ p, b.point? = some p ∧ a.point? = some p := by
  cases a with
  | null => simp [compare?, point?]
  | int n =>
      cases b with
      | null => simp [compare?, point?]
      | int m =>
          simp only [compare?, point?, Option.some.injEq, Std.compare_eq_iff_eq,
            exists_eq_left', Point.number.injEq]
          constructor
          · intro h
            rw [h]
          · intro h
            exact Int.eq_of_mul_eq_mul_right unitsPerOne_ne_zero h
      | real y =>
          cases y with
          | nan => simp [compare?, Binary64.compareInt?, point?]
          | infinite negative => cases negative <;> simp [compare?, Binary64.compareInt?, point?]
          | finite negative rank =>
              simp [compare?, Binary64.compareInt?, point?]
      | text t => simp [compare?, point?]
  | real x =>
      cases x with
      | nan =>
          cases b with
          | real y => simp [compare?, Binary64.compare?, point?]
          | _ => simp [compare?, Binary64.compareInt?, point?]
      | infinite a =>
          cases b with
          | real y =>
              cases y with
              | infinite b => cases a <;> cases b <;> simp [compare?, Binary64.compare?, point?]
              | _ => cases a <;> simp [compare?, Binary64.compare?, point?]
          | int m => cases a <;> simp [compare?, Binary64.compareInt?, point?]
          | _ => simp [compare?, point?]
      | finite a r =>
          cases b with
          | real y =>
              cases y with
              | infinite b => cases b <;> simp [compare?, Binary64.compare?, point?]
              | _ => simp [compare?, Binary64.compare?, point?]
          | int m =>
              simp only [compare?, Binary64.compareInt?, point?, Option.map_some,
                Option.some.injEq, exists_eq_left', Point.number.injEq]
              rw [Ordering.swap_eq_eq, Std.compare_eq_iff_eq]
              exact eq_comm
          | _ => simp [compare?, point?]
  | text s =>
      cases b with
      | text t => simp [compare?, point?]
      | real y => cases y <;> simp [compare?, point?]
      | _ => simp [compare?, point?]

theorem sameKey_iff (a b : Cell) :
    a.sameKey b ↔ ∃ p, b.point? = some p ∧ a.point? = some p := by
  unfold sameKey
  rw [beq_iff_eq]
  exact compare?_eq_iff a b

theorem sameKey_symm
    {a b : Cell}
    (h : a.sameKey b) :
    b.sameKey a := by
  rcases (sameKey_iff a b).mp h with ⟨p, hb, ha⟩
  exact (sameKey_iff b a).mpr ⟨p, ha, hb⟩

theorem sameKey_trans
    {a b c : Cell}
    (hab : a.sameKey b) (hbc : b.sameKey c) :
    a.sameKey c := by
  rcases (sameKey_iff a b).mp hab with ⟨p, hb, ha⟩
  rcases (sameKey_iff b c).mp hbc with ⟨q, hc, hb'⟩
  have hpq : p = q := by
    rw [hb] at hb'
    exact Option.some.inj hb'
  rw [← hpq] at hc
  exact (sameKey_iff a c).mpr ⟨p, hc, ha⟩

/-- Whether a cell is the same key does not depend on the cell that writes the key. -/
theorem sameKey_congr
    {a b : Cell}
    (h : a.sameKey b) (c : Cell) :
    c.sameKey a = c.sameKey b := by
  rw [Bool.eq_iff_iff]
  constructor
  · intro hca
    exact sameKey_trans hca h
  · intro hcb
    exact sameKey_trans hcb (sameKey_symm h)

end Cell

namespace Row

/-! ## The keys of rows -/

theorem keyOrder_swap (as bs : List Cell) : keyOrder as bs = (keyOrder bs as).swap := by
  induction as generalizing bs with
  | nil => cases bs <;> rfl
  | cons a as ih =>
      cases bs with
      | nil => rfl
      | cons b bs =>
          unfold keyOrder
          rw [Cell.order_swap a b, ih bs]
          cases Cell.order b a <;> rfl

theorem sameKey_comm (model : Model) (a b : Row) : sameKey model a b = sameKey model b a := by
  unfold sameKey
  rw [keyOrder_swap (a.key model)]
  cases keyOrder (b.key model) (a.key model) <;> rfl

theorem sameKey_self (model : Model) (row : Row) : sameKey model row row = true := by
  have hswap := keyOrder_swap (row.key model) (row.key model)
  unfold sameKey
  revert hswap
  cases keyOrder (row.key model) (row.key model) <;> intro hswap
  · cases hswap
  · rfl
  · cases hswap

/-- Where the key is a single field, rows with the same cell there have the same key. -/
theorem sameKey_of_single
    {model : Model} {field : String} {a b : Row}
    (hkey : model.primaryKey = [field])
    (h : (a.cell field).sameKey (b.cell field)) :
    sameKey model a b = true := by
  have horder : Cell.order (a.cell field) (b.cell field) = .eq :=
    Cell.order_of_compare? (beq_iff_eq.mp h)
  unfold sameKey key
  rw [hkey, List.map_cons, List.map_cons]
  unfold keyOrder
  rw [horder]
  rfl

/-- Where the key is a single field, rows with the same key have there what a third cell tells. -/
theorem cell_sameKey_of_single
    {model : Model} {field : String} {a b : Row} {cell : Cell}
    (hkey : model.primaryKey = [field]) (h : sameKey model a b = true)
    (hb : (b.cell field).sameKey cell = true) :
    (a.cell field).sameKey cell = true := by
  have hplaced : (b.cell field).isUnplaced = false := by
    rcases (Cell.sameKey_iff _ _).mp hb with ⟨p, _, hp⟩
    cases hcell : b.cell field with
    | null =>
        rw [hcell] at hp
        cases hp
    | real x =>
        cases x with
        | nan =>
            rw [hcell] at hp
            cases hp
        | _ => rfl
    | _ => rfl
  have horder : Cell.order (a.cell field) (b.cell field) = .eq := by
    unfold sameKey key at h
    rw [hkey, List.map_singleton, List.map_singleton] at h
    change ((Cell.order (a.cell field) (b.cell field)).then .eq == .eq) = true at h
    rwa [Ordering.then_eq, beq_iff_eq] at h
  exact Cell.sameKey_trans (Cell.sameKey_of_order hplaced horder) hb

/-- Where keys are distinct, rows with the same key field are one row. -/
theorem eq_of_sameKey
    {model : Model} {field : String} {rows : List Row} {a b : Row}
    (hkey : model.primaryKey = [field])
    (hdistinct : rows.Pairwise fun a b => sameKey model a b = false)
    (ha : a ∈ rows) (hb : b ∈ rows) (h : (a.cell field).sameKey (b.cell field) = true) :
    a = b := by
  have hsymm : Std.Symm fun a b => sameKey model a b = false :=
    ⟨fun a b hab => (sameKey_comm model b a).trans hab⟩
  by_contra hne
  have hkeys := hdistinct.forall ha hb hne
  rw [sameKey_of_single hkey h] at hkeys
  cases hkeys

theorem nodup_of_distinct
    {model : Model} {rows : List Row}
    (hdistinct : rows.Pairwise fun a b => sameKey model a b = false) :
    rows.Nodup := by
  refine hdistinct.imp ?_
  intro a b hab heq
  rw [heq, sameKey_self] at hab
  cases hab

/-! ## Putting a row into its place -/

theorem insertInOrder_split (model : Model) (row : Row) (rows : List Row) :
    ∃ ahead behind, rows = ahead ++ behind ∧
      insertInOrder model row rows = ahead ++ row :: behind := by
  induction rows with
  | nil => exact ⟨[], [], rfl, rfl⟩
  | cons other rest ih =>
      unfold insertInOrder
      split
      · exact ⟨[], other :: rest, rfl, rfl⟩
      · rcases ih with ⟨ahead, behind, hrest, hinsert⟩
        refine ⟨other :: ahead, behind, ?_, ?_⟩
        · rw [hrest]
          rfl
        · rw [hinsert]
          rfl

theorem perm_insertInOrder (model : Model) (row : Row) (rows : List Row) :
    (insertInOrder model row rows).Perm (row :: rows) := by
  rcases insertInOrder_split model row rows with ⟨ahead, behind, hrows, hinsert⟩
  rw [hinsert, hrows]
  exact List.perm_middle

end Row
end RecordApi
