import Mathlib.Data.Set.Finite.List
import RecordApi.Proofs.Storage.Negation
import RecordApi.Proofs.Text.Pieces

/-!
# Ranges and lists by comparisons

A range asks for two comparisons with its bounds, and a list for the equality with one of its
members.  The members of a list are all bound by the type of the first one, though: a list asks
for the same as the equalities exactly when its members stand for the same points as each of them
does by its own type.  A text of pieces between commas asks for the list of its pieces.
-/

namespace RecordApi

open Steps Storage

/-! ## Lists of cells -/

namespace Comparison

/-- Equality with a cell is told by the point of the cell. -/
theorem eq_truth_congr
    {b c : Cell} (a : Cell)
    (hb : b ≠ .real .nan) (hc : c ≠ .real .nan) (h : b.point? = c.point?) :
    eq.truth a b = eq.truth a c := by
  have htold : ∀ cell : Cell, eq.truth a cell =
      if a.sameKey cell = true then .yes
      else if (a.compare? cell).isNone then .unknown else .no := by
    intro cell
    unfold truth Cell.sameKey
    cases a.compare? cell with
    | none => rfl
    | some o => cases o <;> rfl
  have hsame : a.sameKey b = a.sameKey c := by
    rw [Bool.eq_iff_iff, Cell.sameKey_iff, Cell.sameKey_iff, h]
  rw [htold, htold, hsame, Cell.isNone_compare? a hb, Cell.isNone_compare? a hc, h]

/-- Equality with an integer is unknown for what has no place. -/
theorem int_truth_eq_unknown_iff
    {b : Cell} (n : Int)
    (hb : b ≠ .real .nan) :
    eq.truth (.int n) b = .unknown ↔ b.point? = none := by
  rw [truth_eq_unknown_iff, Cell.isNone_compare? _ hb]
  cases b.point? <;> simp

/-- An integer that is none of some cells. -/
theorem exists_sameKey_false (cells : List Cell) :
    ∃ n : Int, ∀ cell ∈ cells, (Cell.int n).sameKey cell = false := by
  have hinjective : Function.Injective fun n : Int => (Cell.int n).point? := by
    intro n m h
    exact Int.eq_of_mul_eq_mul_right Cell.unitsPerOne_ne_zero
      (Cell.Point.number.inj (Option.some.inj h))
  rcases (Set.infinite_range_of_injective hinjective).exists_notMem_finite
    (cells.map Cell.point?).finite_toSet with ⟨_, ⟨n, rfl⟩, hfresh⟩
  refine ⟨n, fun cell hcell => ?_⟩
  rw [Bool.eq_false_iff]
  intro hsame
  rcases (Cell.sameKey_iff _ _).mp hsame with ⟨p, hp, hn⟩
  exact hfresh (List.mem_map.mpr ⟨cell, hcell, hp.trans hn.symm⟩)

variable {bs cs : List Cell}

theorem mem_truths_of_points
    (hbs : ∀ b ∈ bs, b ≠ .real .nan) (hcs : ∀ c ∈ cs, c ≠ .real .nan)
    (h : ∀ p ∈ bs.map Cell.point?, p ∈ cs.map Cell.point?) (a : Cell) :
    ∀ t ∈ bs.map (eq.truth a), t ∈ cs.map (eq.truth a) := by
  intro t ht
  rcases List.mem_map.mp ht with ⟨b, hb, rfl⟩
  rcases List.mem_map.mp (h b.point? (List.mem_map_of_mem hb)) with ⟨c, hc, hpoint⟩
  exact List.mem_map.mpr ⟨c, hc, eq_truth_congr a (hcs c hc) (hbs b hb) hpoint⟩

theorem mem_points_of_truths
    (hbs : ∀ b ∈ bs, b ≠ .real .nan) (hcs : ∀ c ∈ cs, c ≠ .real .nan)
    (h : ∀ a, Combinator.or.truth (bs.map (eq.truth a)) =
      Combinator.or.truth (cs.map (eq.truth a))) :
    ∀ p ∈ bs.map Cell.point?, p ∈ cs.map Cell.point? := by
  intro p hp
  rcases List.mem_map.mp hp with ⟨b, hb, rfl⟩
  cases hpoint : b.point? with
  | some q =>
      -- the cell itself is one of the cells
      have hself : .yes ∈ bs.map (eq.truth b) := by
        refine List.mem_map.mpr ⟨b, hb, ?_⟩
        rw [← beq_iff_eq, truth_eq_yes, Cell.sameKey_iff]
        exact ⟨q, hpoint, hpoint⟩
      have hyes := h b
      rw [Combinator.truth_eq_deciding_iff.mpr hself] at hyes
      rcases List.mem_map.mp (Combinator.truth_eq_deciding_iff.mp hyes.symm) with ⟨c, hc, hsame⟩
      rw [Combinator.deciding, ← beq_iff_eq, truth_eq_yes, Cell.sameKey_iff] at hsame
      rcases hsame with ⟨q', hc', hb'⟩
      rw [hpoint] at hb'
      cases hb'
      exact List.mem_map.mpr ⟨c, hc, hc'⟩
  | none =>
      -- no member is told to be a new integer, and this one is not told to be another
      rcases exists_sameKey_false bs with ⟨n, hn⟩
      have hunknown : Combinator.or.truth (bs.map (eq.truth (.int n))) = .unknown := by
        refine Combinator.truth_eq_unknown_iff.mpr
          ⟨?_, List.mem_map.mpr ⟨b, hb, (int_truth_eq_unknown_iff n (hbs b hb)).mpr hpoint⟩⟩
        intro hyes
        rcases List.mem_map.mp hyes with ⟨other, hother, hsame⟩
        rw [Combinator.deciding, ← beq_iff_eq, truth_eq_yes, hn other hother] at hsame
        cases hsame
      rw [h] at hunknown
      rcases List.mem_map.mp (Combinator.truth_eq_unknown_iff.mp hunknown).2 with ⟨c, hc, hapart⟩
      exact List.mem_map.mpr ⟨c, hc, (int_truth_eq_unknown_iff n (hcs c hc)).mp hapart⟩

/-- Whatever a cell is, it is one of some cells as far as it is one of others, exactly when both
stand for the same points. -/
theorem or_truth_eq_iff
    (hbs : ∀ b ∈ bs, b ≠ .real .nan) (hcs : ∀ c ∈ cs, c ≠ .real .nan) :
    (∀ a, Combinator.or.truth (bs.map (eq.truth a)) =
        Combinator.or.truth (cs.map (eq.truth a))) ↔
      ∀ p, p ∈ bs.map Cell.point? ↔ p ∈ cs.map Cell.point? := by
  constructor
  · intro h p
    exact ⟨mem_points_of_truths hbs hcs h p,
      mem_points_of_truths hcs hbs (fun a => (h a).symm) p⟩
  · intro h a
    apply Combinator.truth_congr
    intro t
    exact ⟨mem_truths_of_points hbs hcs (fun p => (h p).mp) a t,
      mem_truths_of_points hcs hbs (fun p => (h p).mpr) a t⟩

end Comparison

/-! ## Comparisons with operands -/

/-- The comparison that an operator makes with its operand. -/
def Operator.comparison? : Operator → Option Comparison
  | .eq => some .eq
  | .ne => some .ne
  | .gt => some .gt
  | .gte => some .gte
  | .lt => some .lt
  | .lte => some .lte
  | _ => none

theorem Clause.testOf_of_comparison?
    {op : Operator} {comparison : Comparison}
    (hop : op.comparison? = some comparison) (model : Model) (name : String) (column : Column)
    (operand : Value) :
    testOf model name column op operand =
      (do comparisonTest comparison (← coerce column operand)) := by
  cases op <;> cases hop <;> rfl

namespace Storage

/-- The cell with which a column is compared for a member of a list that starts with some
member. -/
def listedCell (column : Column) (first v : Value) : Cell :=
  (Test.boundCell (column.type.operandType first) v).against column.type.affinity

theorem boundCell_ne_nan (type : ColumnType) (v : Value) :
    Test.boundCell type v ≠ .real .nan := by
  unfold Test.boundCell
  split
  · exact Binding.bind_ne_nan ‹_›
  · exact Cell.noConfusion

theorem listedCell_ne_nan (column : Column) (first v : Value) :
    listedCell column first v ≠ .real .nan :=
  Cell.against_ne_nan (boundCell_ne_nan _ _) _

theorem comparedCell_ne_nan (column : Column) (v : Value) : comparedCell column v ≠ .real .nan := by
  apply Cell.against_ne_nan
  split
  · exact Cell.noConfusion
  · exact boundCell_ne_nan _ _

end Storage

/-- Null and truth values are only equal or not. -/
theorem Test.eq_compare_of_comparisonTest
    {comparison : Comparison} {v : Value} {test : Test Value}
    (heq : comparison ≠ .eq) (hne : comparison ≠ .ne)
    (h : Clause.comparisonTest comparison v = .ok test) :
    test = .compare comparison v := by
  cases comparison with
  | eq => exact absurd rfl heq
  | ne => exact absurd rfl hne
  | _ => cases v <;> cases h <;> rfl

namespace Predicate

/-- Two predicates have the same truth on every row on which both have one. -/
def Agrees (model : Model) (name : String) (p q : Predicate) : Prop :=
  ∀ row t u, p.HasTruth model name row t → q.HasTruth model name row u → t = u

variable {model : Model} {name field : String} {column : Column} {row : Row} {t : Truth}

/-! ## Ranges -/

theorem hasTruth_pair_iff
    {combinator : Combinator} {p q : Predicate} :
    (group combinator [p, q]).HasTruth model name row t ↔
      ∃ x y, p.HasTruth model name row x ∧ q.HasTruth model name row y ∧
        combinator.connect x y = t := by
  rw [hasTruth_group_iff]
  constructor
  · rintro ⟨ts, hts, rfl⟩
    rcases List.forall₂_cons_left_iff.mp hts with ⟨x, rest, hx, hrest, rfl⟩
    rcases List.forall₂_cons_left_iff.mp hrest with ⟨y, others, hy, hothers, rfl⟩
    rw [List.forall₂_nil_left_iff] at hothers
    rw [hothers, Combinator.truth_cons, Combinator.truth_singleton]
    exact ⟨x, y, hx, hy, rfl⟩
  · rintro ⟨x, y, hx, hy, rfl⟩
    refine ⟨[x, y], List.Forall₂.cons hx (List.Forall₂.cons hy List.Forall₂.nil), ?_⟩
    rw [Combinator.truth_cons, Combinator.truth_singleton]

/-- A comparison by order has its truth for the operand as the column takes it. -/
theorem truth_of_ordered
    {op : Operator} {comparison : Comparison} {operand v : Value}
    (hcolumn : model.column? field = some column) (hop : op.comparison? = some comparison)
    (heq : comparison ≠ .eq) (hne : comparison ≠ .ne) (hv : Clause.coerce column operand = .ok v)
    (h : (asks field op operand).HasTruth model name row t) :
    t = comparison.truth (row.cell column.key) (listedCell column v v) := by
  rcases (hasTruth_asks_iff hcolumn).mp h with ⟨test, htest, _, htruth⟩
  rw [Clause.testOf_of_comparison? hop] at htest
  rcases bind_eq_ok.mp htest with ⟨w, hw, htest⟩
  rw [hv] at hw
  cases hw
  rw [Test.eq_compare_of_comparisonTest heq hne htest] at htruth
  exact (Option.some.inj htruth).symm

/-- A range has the truth that both of its bounds are kept. -/
theorem truth_of_range
    {op : Operator} {negated : Bool} {low high : Value}
    (hcolumn : model.column? field = some column)
    (hop : ∀ operand, Clause.testOf model name column op operand =
      Clause.pairTest negated column operand)
    (h : (asks field op (.list [low, high])).HasTruth model name row t) :
    ∃ v w, Clause.coerce column low = .ok v ∧ Clause.coerce column high = .ok w ∧
      t = Test.negateIf negated (Combinator.and.connect
        (Comparison.gte.truth (row.cell column.key) (listedCell column v v))
        (Comparison.lte.truth (row.cell column.key) (listedCell column w w))) := by
  rcases (hasTruth_asks_iff hcolumn).mp h with ⟨test, htest, _, htruth⟩
  rw [hop] at htest
  rcases bind_eq_ok.mp htest with ⟨v, hv, htest⟩
  rcases bind_eq_ok.mp htest with ⟨w, hw, htest⟩
  cases htest
  exact ⟨v, w, hv, hw, (Option.some.inj htruth).symm⟩

/-- A range asks for both comparisons. -/
theorem between_agrees
    (hcolumn : model.column? field = some column) (low high : Value) :
    (asks field .between (.list [low, high])).Agrees model name
      (group .and [asks field .gte low, asks field .lte high]) := by
  intro row t u ht hu
  rcases truth_of_range hcolumn (fun _ => rfl) ht with ⟨v, w, hv, hw, rfl⟩
  rcases hasTruth_pair_iff.mp hu with ⟨x, y, hx, hy, rfl⟩
  rw [truth_of_ordered hcolumn rfl (by decide) (by decide) hv hx,
    truth_of_ordered hcolumn rfl (by decide) (by decide) hw hy]
  rfl

/-- A negated range asks for one of the opposite comparisons. -/
theorem notBetween_agrees
    (hcolumn : model.column? field = some column) (low high : Value) :
    (asks field .notBetween (.list [low, high])).Agrees model name
      (group .or [asks field .lt low, asks field .gt high]) := by
  intro row t u ht hu
  rcases truth_of_range hcolumn (fun _ => rfl) ht with ⟨v, w, hv, hw, rfl⟩
  rcases hasTruth_pair_iff.mp hu with ⟨x, y, hx, hy, rfl⟩
  rw [truth_of_ordered hcolumn rfl (by decide) (by decide) hv hx,
    truth_of_ordered hcolumn rfl (by decide) (by decide) hw hy]
  have hlow := Comparison.truth_not (c := .gte) (d := .lt) (row.cell column.key)
    (listedCell column v v) fun o => by cases o <;> rfl
  have hhigh := Comparison.truth_not (c := .lte) (d := .gt) (row.cell column.key)
    (listedCell column w w) fun o => by cases o <;> rfl
  rw [hlow, hhigh]
  exact Combinator.not_and_connect _ _

/-! ## Lists -/

/-- A list asks for one of its members, each bound by the type of the first one. -/
theorem hasTruth_listed
    {op : Operator} {items vs : List Value} (negated : Bool)
    (hcolumn : model.column? field = some column)
    (hop : ∀ operand, Clause.testOf model name column op operand =
      ((Clause.operandItems operand).mapM (Clause.coerce column)).map (.among negated))
    (hvs : items.mapM (Clause.coerce column) = .ok vs)
    (h : (asks field op (.list items)).IsTold model name row) (other : Row) :
    (asks field op (.list items)).HasTruth model name other
      (Test.negateIf negated (Combinator.or.truth ((vs.map (listedCell column (vs.headD .null))).map
        (Comparison.eq.truth (other.cell column.key))))) := by
  rcases h with ⟨t, ht⟩
  rcases (hasTruth_asks_iff hcolumn).mp ht with ⟨test, htest, hbound, _⟩
  refine (hasTruth_asks_iff hcolumn).mpr ⟨test, htest, hbound, ?_⟩
  rw [hop] at htest
  rcases map_eq_ok.mp htest with ⟨ws, hws, rfl⟩
  change items.mapM (Clause.coerce column) = .ok ws at hws
  rw [hvs] at hws
  cases hws
  change some (Test.negateIf negated (Truth.disjunction _)) = _
  rw [List.map_map, List.map_map]
  rfl

/-- A comparison with anything but null is told on all rows alike, by the operand as the column
takes it. -/
theorem hasTruth_comparison
    {op : Operator} {comparison : Comparison} {item v : Value}
    (hcolumn : model.column? field = some column) (hop : op.comparison? = some comparison)
    (hitem : item ≠ .null) (hv : Clause.coerce column item = .ok v)
    (h : (asks field op item).IsTold model name row) (other : Row) :
    (asks field op item).HasTruth model name other
      (comparison.truth (other.cell column.key) (comparedCell column v)) := by
  rcases h with ⟨t, ht⟩
  rcases (hasTruth_asks_iff hcolumn).mp ht with ⟨test, htest, hbound, _⟩
  refine (hasTruth_asks_iff hcolumn).mpr ⟨test, htest, hbound, ?_⟩
  rw [Clause.testOf_of_comparison? hop] at htest
  rcases bind_eq_ok.mp htest with ⟨w, hw, htest⟩
  rw [hv] at hw
  cases hw
  exact comparisonTest_truth? column other (coerce_ne_null hitem hv) htest

/-- The comparisons with the members of a list are told member by member. -/
theorem forall₂_hasTruth_each
    {op : Operator} {comparison : Comparison} {items vs : List Value} {ts : List Truth}
    (hcolumn : model.column? field = some column) (hop : op.comparison? = some comparison)
    (hnull : .null ∉ items) (hvs : items.mapM (Clause.coerce column) = .ok vs)
    (h : List.Forall₂ (HasTruth model name row) (items.map (asks field op)) ts) (other : Row) :
    List.Forall₂ (HasTruth model name other) (items.map (asks field op))
      (vs.map fun v => comparison.truth (other.cell column.key) (comparedCell column v)) := by
  induction items generalizing vs ts with
  | nil =>
      cases hvs
      exact List.Forall₂.nil
  | cons item rest ih =>
      rw [List.mem_cons, not_or] at hnull
      rw [List.mapM_cons] at hvs
      rcases bind_eq_ok.mp hvs with ⟨v, hv, hvs⟩
      rcases bind_eq_ok.mp hvs with ⟨ws, hws, hvs⟩
      cases pure_eq_ok.mp hvs
      rcases List.forall₂_cons_left_iff.mp h with ⟨t, us, ht, hus, rfl⟩
      exact List.Forall₂.cons
        (hasTruth_comparison hcolumn hop (Ne.symm hnull.1) hv ⟨t, ht⟩ other)
        (ih hnull.2 hws hus)

theorem hasTruth_each
    {combinator : Combinator} {op : Operator} {comparison : Comparison} {items vs : List Value}
    (hcolumn : model.column? field = some column) (hop : op.comparison? = some comparison)
    (hnull : .null ∉ items) (hvs : items.mapM (Clause.coerce column) = .ok vs)
    (h : (group combinator (items.map (asks field op))).IsTold model name row) (other : Row) :
    (group combinator (items.map (asks field op))).HasTruth model name other
      (combinator.truth ((vs.map (comparedCell column)).map
        (comparison.truth (other.cell column.key)))) := by
  rcases h with ⟨t, ht⟩
  rcases hasTruth_group_iff.mp ht with ⟨ts, hts, _⟩
  rw [List.map_map]
  exact hasTruth_group_iff.mpr
    ⟨_, forall₂_hasTruth_each hcolumn hop hnull hvs hts other, rfl⟩

theorem agrees_iff_of_hasTruth
    {p q : Predicate} {f g : Row → Truth}
    (hp : ∀ row, p.HasTruth model name row (f row))
    (hq : ∀ row, q.HasTruth model name row (g row)) :
    p.Agrees model name q ↔ ∀ row, f row = g row := by
  constructor
  · intro h row
    exact h row _ _ (hp row) (hq row)
  · intro h row t u ht hu
    rw [ht.unique (hp row), hu.unique (hq row), h row]

end Predicate

namespace Storage

/-- Bound by the type of the first one, the members of a list stand for the same points as each
of them does by its own type. -/
def BoundAlike (column : Column) (vs : List Value) : Prop :=
  ∀ p, p ∈ (vs.map (listedCell column (vs.headD .null))).map Cell.point? ↔
    p ∈ (vs.map (comparedCell column)).map Cell.point?

/-- On every row, a list bound alike asks for the equality with one of its members. -/
theorem boundAlike_iff {column : Column} {vs : List Value} :
    BoundAlike column vs ↔ ∀ row : Row,
      Combinator.or.truth ((vs.map (listedCell column (vs.headD .null))).map
          (Comparison.eq.truth (row.cell column.key))) =
        Combinator.or.truth ((vs.map (comparedCell column)).map
          (Comparison.eq.truth (row.cell column.key))) := by
  have hlisted : ∀ c ∈ vs.map (listedCell column (vs.headD .null)), c ≠ .real .nan := by
    intro c hc
    rcases List.mem_map.mp hc with ⟨v, _, rfl⟩
    exact listedCell_ne_nan _ _ _
  have hcompared : ∀ c ∈ vs.map (comparedCell column), c ≠ .real .nan := by
    intro c hc
    rcases List.mem_map.mp hc with ⟨v, _, rfl⟩
    exact comparedCell_ne_nan _ _
  unfold BoundAlike
  rw [← Comparison.or_truth_eq_iff hlisted hcompared]
  constructor
  · exact fun h row => h _
  · intro h cell
    have hrow : Row.cell [(column.key, cell)] column.key = cell := by
      simp [Row.cell, Assoc.get?]
    rw [← hrow]
    exact h _

theorem comparedCell_eq_listedCell (column : Column) (v : Value) :
    comparedCell column v = listedCell column v v := by
  cases v with
  | bool b =>
      rcases column with ⟨key, name, type, nullable, default, reference⟩
      cases type <;> cases b <;> rfl
  | _ => rfl

theorem boundAlike_of_listedCell
    {column : Column} {vs : List Value}
    (h : ∀ v ∈ vs, listedCell column (vs.headD .null) v = listedCell column v v) :
    BoundAlike column vs := by
  have hsame : vs.map (listedCell column (vs.headD .null)) = vs.map (comparedCell column) := by
    refine List.map_congr_left fun v hv => ?_
    rw [h v hv, comparedCell_eq_listedCell]
  intro p
  rw [hsame]

/-- A column of truth values, dates, times, identifiers or numbers that are not integers takes
operands of one type only. -/
theorem operandType_of_coerce
    {column : Column} {item v : Value}
    (hkind : column.type.kind ∉ [.int, .text, .bytes, .untyped])
    (h : Clause.coerce column item = .ok v) :
    column.type.operandType v = column.type := by
  unfold Clause.coerce Operand.coerce at h
  rw [mapError_eq_ok] at h
  split at h
  · cases h
    rfl
  rcases column with ⟨key, name, type, nullable, default, reference⟩
  cases type with
  | integer | varchar _ | enumeration _ | blob | untyped => exact absurd (by simp [ColumnType.kind]) hkind
  | float | numeric _ _ | boolean | date | timestamp | uuid =>
      rcases map_eq_ok.mp h with ⟨_, _, rfl⟩
      rfl

theorem boundAlike_of_kind
    {column : Column} {items vs : List Value}
    (hkind : column.type.kind ∉ [.int, .text, .bytes, .untyped])
    (hvs : items.mapM (Clause.coerce column) = .ok vs) :
    BoundAlike column vs := by
  have htype : ∀ v ∈ vs, column.type.operandType v = column.type := by
    intro v hv
    rcases exists_of_mapM hvs v hv with ⟨item, _, hitem⟩
    exact operandType_of_coerce hkind hitem
  apply boundAlike_of_listedCell
  intro v hv
  cases vs with
  | nil => cases hv
  | cons first rest =>
      unfold listedCell
      rw [List.headD_cons, htype v hv, htype first List.mem_cons_self]

/-- A list for a column of integers that starts with an integer is bound without rounding. -/
theorem boundAlike_of_int
    {column : Column} {n : Int} {items rest : List Value}
    (htype : column.type = .integer)
    (hvs : items.mapM (Clause.coerce column) = .ok (.int n :: rest)) :
    BoundAlike column (.int n :: rest) := by
  apply boundAlike_of_listedCell
  intro v hv
  rcases exists_of_mapM hvs v hv with ⟨item, _, hitem⟩
  unfold listedCell
  rw [htype]
  unfold Clause.coerce Operand.coerce at hitem
  rw [mapError_eq_ok, htype] at hitem
  split at hitem
  · cases hitem
    rfl
  · rcases map_eq_ok.mp hitem with ⟨d, _, rfl⟩
    unfold Operand.integral
    cases d.toInt? with
    | some m => rfl
    | none => rfl

end Storage

namespace Predicate

variable {model : Model} {name field : String} {column : Column} {row : Row}
  {items vs : List Value}

theorem in_agrees_iff
    (hcolumn : model.column? field = some column)
    (hnull : .null ∉ items) (hvs : items.mapM (Clause.coerce column) = .ok vs)
    (hlist : (asks field .isIn (.list items)).IsTold model name row)
    (heach : (group .or (items.map (asks field .eq))).IsTold model name row) :
    (asks field .isIn (.list items)).Agrees model name
      (group .or (items.map (asks field .eq))) ↔ BoundAlike column vs := by
  rw [boundAlike_iff]
  exact agrees_iff_of_hasTruth (hasTruth_listed false hcolumn (fun _ => rfl) hvs hlist)
    (hasTruth_each hcolumn rfl hnull hvs heach)

theorem notIn_agrees_iff
    (hcolumn : model.column? field = some column)
    (hnull : .null ∉ items) (hvs : items.mapM (Clause.coerce column) = .ok vs)
    (hlist : (asks field .notIn (.list items)).IsTold model name row)
    (heach : (group .and (items.map (asks field .ne))).IsTold model name row) :
    (asks field .notIn (.list items)).Agrees model name
      (group .and (items.map (asks field .ne))) ↔ BoundAlike column vs := by
  rw [boundAlike_iff, agrees_iff_of_hasTruth
    (hasTruth_listed true hcolumn (fun _ => rfl) hvs hlist) (hasTruth_each hcolumn rfl hnull hvs heach)]
  refine forall_congr' fun other => ?_
  have hne : Comparison.ne.truth (other.cell column.key) =
      Truth.not ∘ Comparison.eq.truth (other.cell column.key) :=
    funext fun c => Comparison.ne_truth _ c
  rw [hne, ← List.map_map, ← Combinator.not_or_truth]
  constructor
  · intro h
    exact Truth.not_injective h
  · exact congrArg Truth.not

/-! ## Texts of pieces -/

/-- An operator that takes a pair or a list asks for the items of its operand. -/
theorem testOf_of_items
    {op : Operator} {operand other : Value}
    (hop : op.takesPair = true ∨ op.takesList = true)
    (h : Clause.operandItems operand = Clause.operandItems other) :
    Clause.testOf model name column op operand = Clause.testOf model name column op other := by
  have hpair : ∀ negated, Clause.pairTest negated column operand =
      Clause.pairTest negated column other := by
    intro negated
    unfold Clause.pairTest
    rw [h]
  have hlist : ∀ test : List Value → Test Value,
      ((Clause.operandItems operand).mapM (Clause.coerce column)).map test =
        ((Clause.operandItems other).mapM (Clause.coerce column)).map test := by
    intro test
    rw [h]
  cases op with
  | between | notBetween => exact hpair _
  | isIn | notIn | all | any => exact hlist _
  | _ => rcases hop with hop | hop <;> cases hop

/-- A text of pieces between commas is taken for the list of the pieces, trimmed and without the
empty ones. -/
theorem ofPredicate_asks_pieces
    {op : Operator} {pieces : List String}
    (hcolumn : model.column? field = some column)
    (hop : op.takesPair = true ∨ op.takesList = true)
    (hpieces : ∀ piece ∈ pieces, ',' ∉ piece.toList) :
    Clause.ofPredicate model name (asks field op (.text (",".intercalate pieces))) =
      Clause.ofPredicate model name (asks field op
        (.list (((pieces.map Text.trim).filter (· ≠ "")).map .text))) := by
  rw [ofPredicate_asks name op _ hcolumn, ofPredicate_asks name op _ hcolumn]
  refine congrArg (Except.map _) (testOf_of_items hop ?_)
  exact congrArg (List.map Value.text) (Text.commaList_of_pieces hpieces)

/-- Ranges and lists by comparisons.  A range has the truth of two comparisons with its bounds.  A
list has the truth of the equalities with its members, or of their negations, exactly when its
members are bound alike.  A text is taken for the list of its pieces. -/
theorem range_and_list_agree
    (name : String)
    (hcolumn : model.column? field = some column) :
    (∀ low high,
      (asks field .between (.list [low, high])).Agrees model name
          (group .and [asks field .gte low, asks field .lte high]) ∧
        (asks field .notBetween (.list [low, high])).Agrees model name
          (group .or [asks field .lt low, asks field .gt high])) ∧
      (∀ items vs row, .null ∉ items → items.mapM (Clause.coerce column) = .ok vs →
        ((asks field .isIn (.list items)).IsTold model name row →
          (group .or (items.map (asks field .eq))).IsTold model name row →
          ((asks field .isIn (.list items)).Agrees model name
            (group .or (items.map (asks field .eq))) ↔ BoundAlike column vs)) ∧
        ((asks field .notIn (.list items)).IsTold model name row →
          (group .and (items.map (asks field .ne))).IsTold model name row →
          ((asks field .notIn (.list items)).Agrees model name
            (group .and (items.map (asks field .ne))) ↔ BoundAlike column vs))) ∧
      ∀ (op : Operator) (text : String), op.takesPair = true ∨ op.takesList = true →
        ∃ pieces : List String, (∀ piece ∈ pieces, ',' ∉ piece.toList) ∧
          ",".intercalate pieces = text ∧
          Clause.ofPredicate model name (asks field op (.text text)) =
            Clause.ofPredicate model name (asks field op
              (.list (((pieces.map Text.trim).filter (· ≠ "")).map .text))) := by
  refine ⟨fun low high => ⟨between_agrees hcolumn low high, notBetween_agrees hcolumn low high⟩,
    ?_, ?_⟩
  · intro items vs row hnull hvs
    exact ⟨in_agrees_iff hcolumn hnull hvs, notIn_agrees_iff hcolumn hnull hvs⟩
  · intro op text hop
    rcases Text.exists_pieces text with ⟨pieces, hpieces, rfl⟩
    exact ⟨pieces, hpieces, rfl, ofPredicate_asks_pieces hcolumn hop hpieces⟩

end Predicate

namespace Sample

/-- The item of which there are 2 ^ 53 + 1. -/
def item05 : Row := rowOf items (itemRows.getD 4 [])

/-- Two integers, the second of 54 bits. -/
def quantities : List Value := [.int 10, .int 9007199254740993]

theorem range_and_list_agree_items :
    (Predicate.asks "qty" .isIn (.list quantities)).HasTruth items "items" item05 .yes ∧
      (Predicate.asks "qty" .isIn (.list quantities)).Agrees items "items"
        (.group .or (quantities.map (Predicate.asks "qty" .eq))) := by
  have hcolumn : items.column? "qty" = some (optional "qty" .integer) := by rfl
  have hlist : (Predicate.asks "qty" .isIn (.list quantities)).HasTruth items "items" item05
      .yes := by
    decide
  have heach : (Predicate.group .or (quantities.map (Predicate.asks "qty" .eq))).HasTruth items
      "items" item05 .yes := by
    decide
  have hvs : quantities.mapM (Clause.coerce (optional "qty" .integer)) = .ok quantities := by
    rfl
  have hnull : .null ∉ quantities := by simp [quantities]
  have hboth := (Predicate.range_and_list_agree "items" hcolumn).2.1 quantities quantities item05
    hnull hvs
  exact ⟨hlist, (hboth.1 ⟨_, hlist⟩ ⟨_, heach⟩).mpr (boundAlike_of_int rfl hvs)⟩

/-- A number with a fraction in front of an integer of 54 bits, which is rounded behind it. -/
theorem list_apart_from_equalities :
    item05 ∈ database.rows items ∧
      (Predicate.asks "qty" .isIn
        (.list [weightOf false 5 2, .int 9007199254740993])).HasTruth items "items" item05 .no ∧
      (Predicate.group .or [.asks "qty" .eq (weightOf false 5 2),
        .asks "qty" .eq (.int 9007199254740993)]).HasTruth items "items" item05 .yes := by
  decide +kernel

end Sample
end RecordApi
