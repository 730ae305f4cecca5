import RecordApi.Proofs.Conversion.Sharing
import RecordApi.Proofs.Storage.Placing
import RecordApi.Proofs.Storage.Straying
import RecordApi.Proofs.Storage.Truths
import RecordApi.Sample.Service

/-!
# Negated operators

Eight operators come with one that asks the opposite.  The two never hold together, and where
neither the column nor an operand is without a place, one of them does.  Null in a column or as an
operand leaves both unknown, and so does NaN, which is bound as null where no number is asked for.
-/

namespace RecordApi

open Steps Storage

/-- The operator that asks the opposite. -/
def Operator.negation? : Operator → Option Operator
  | .eq => some .ne
  | .is => some .isNot
  | .between => some .notBetween
  | .isIn => some .notIn
  | .like => some .notLike
  | .iLike => some .notILike
  | .regexp => some .notRegexp
  | .iRegexp => some .notIRegexp
  | _ => none

/-! ## Truth of opposite tests -/

theorem Truth.ofBool_bne (b negated : Bool) :
    ofBool (b != !negated) = (ofBool (b != negated)).not := by
  cases b <;> cases negated <;> rfl

theorem Truth.ofBool_ne_unknown (b : Bool) : ofBool b ≠ .unknown := by
  cases b <;> decide

theorem Combinator.connect_ne_unknown
    (c : Combinator) {a b : Truth}
    (ha : a ≠ .unknown) (hb : b ≠ .unknown) :
    c.connect a b ≠ .unknown := by
  revert ha hb
  cases c <;> cases a <;> cases b <;> decide

/-- A group of decided members is decided. -/
theorem Combinator.truth_ne_unknown
    (c : Combinator) {ts : List Truth}
    (h : ∀ t ∈ ts, t ≠ .unknown) :
    c.truth ts ≠ .unknown :=
  fun hunknown => h .unknown (truth_eq_unknown_iff.mp hunknown).2 rfl

/-- A comparison that accepts what another one does not has the opposite truth. -/
theorem Comparison.truth_not
    {c d : Comparison} (a b : Cell)
    (h : ∀ o, d.accepts o = !c.accepts o) :
    d.truth a b = (c.truth a b).not := by
  unfold truth
  cases a.compare? b with
  | none => rfl
  | some o =>
      dsimp only
      rw [h]
      cases c.accepts o <;> rfl

theorem Comparison.ne_truth (a b : Cell) : ne.truth a b = (eq.truth a b).not :=
  truth_not a b fun o => by cases o <;> rfl

theorem Comparison.truth_eq_unknown_iff
    {comparison : Comparison} {a b : Cell} :
    comparison.truth a b = .unknown ↔ (a.compare? b).isNone = true := by
  unfold truth
  cases a.compare? b with
  | none => simp
  | some o => simp [Truth.ofBool_ne_unknown]

/-- Cells with a place are compared. -/
theorem Comparison.truth_ne_unknown
    {a b : Cell} (comparison : Comparison)
    (ha : a.isUnplaced = false) (hb : b.isUnplaced = false) :
    comparison.truth a b ≠ .unknown := by
  rcases Cell.exists_compare? ha hb with ⟨o, ho⟩
  intro hunknown
  rw [truth_eq_unknown_iff, ho] at hunknown
  cases hunknown

namespace Test

variable {α : Type} {column : Column} {row : Row}

/-- The test that asks the opposite. -/
def opposite? : Test α → Option (Test α)
  | .isNull negated => some (.isNull !negated)
  | .isTruth negated value => some (.isTruth (!negated) value)
  | .equalsTruth negated value => some (.equalsTruth (!negated) value)
  | .compare .eq operand => some (.compare .ne operand)
  | .between negated low high => some (.between (!negated) low high)
  | .among negated operands => some (.among (!negated) operands)
  | .wildcard negated caseless pattern => some (.wildcard (!negated) caseless pattern)
  | .regexp negated caseless pattern => some (.regexp (!negated) caseless pattern)
  | _ => none

theorem opposite?_bound (column : Column) (test : Test Value) :
    (test.bound column).opposite? = test.opposite?.map (Test.bound column) := by
  cases test with
  | compare comparison operand => cases comparison <;> rfl
  | _ => rfl

theorem negateIf_not (negated : Bool) (t : Truth) :
    negateIf (!negated) t = (negateIf negated t).not := by
  cases negated <;> cases t <;> rfl

theorem ofText_not (negated : Bool) (cell : Cell) (check : String → Bool) :
    ofText (!negated) cell check = (ofText negated cell check).not := by
  unfold ofText
  cases cell.text? with
  | none => rfl
  | some s => exact Truth.ofBool_bne (check s) negated

/-- Opposite tests have opposite truths. -/
theorem truth?_opposite
    {test other : Test Cell}
    (h : test.opposite? = some other) :
    other.truth? column row = (test.truth? column row).map Truth.not := by
  cases test with
  | isNull negated =>
      cases h
      exact congrArg some (Truth.ofBool_bne _ negated)
  | isTruth negated value =>
      cases h
      exact congrArg some (Truth.ofBool_bne _ negated)
  | equalsTruth negated value =>
      cases h
      cases negated with
      | false => exact congrArg some (Comparison.ne_truth _ _)
      | true =>
          have hne := Comparison.ne_truth (row.cell column.key)
            ((Cell.int (if value then 1 else 0)).against column.type.affinity)
          change some (Comparison.eq.truth _ _) = some (Comparison.ne.truth _ _).not
          rw [hne]
          cases Comparison.eq.truth _ _ <;> rfl
  | compare comparison operand =>
      cases comparison with
      | eq =>
          cases h
          exact congrArg some (Comparison.ne_truth _ _)
      | _ => cases h
  | between negated low high =>
      cases h
      exact congrArg some (negateIf_not negated _)
  | among negated operands =>
      cases h
      exact congrArg some (negateIf_not negated _)
  | wildcard negated caseless pattern =>
      cases h
      exact congrArg some (ofText_not negated _ _)
  | regexp negated caseless pattern =>
      cases h
      unfold truth?
      dsimp only
      cases row.cell column.key with
      | null => rfl
      | text s =>
          dsimp only
          rw [Option.map_map]
          apply congrArg (Option.map · _)
          funext node
          exact Truth.ofBool_bne _ negated
      | _ => rfl
  | compareColumn _ | quantified _ _ | holdsText _ _ | words _ => cases h

theorem negateIf_ne_unknown
    {t : Truth} (negated : Bool)
    (h : t ≠ .unknown) :
    negateIf negated t ≠ .unknown := by
  cases negated with
  | false => exact h
  | true =>
      cases t with
      | unknown => exact absurd rfl h
      | _ => decide

/-- A test with an opposite is decided where the column and its operands have a place. -/
theorem truth?_ne_unknown
    {test other : Test Cell} {t : Truth}
    (hopposite : test.opposite? = some other) (h : test.truth? column row = some t)
    (hcell : (row.cell column.key).isUnplaced = false)
    (hoperands : ∀ operand ∈ test.operands, operand.isUnplaced = false) :
    t ≠ .unknown := by
  have hcompared : ∀ comparison : Comparison, ∀ operand : Cell, operand.isUnplaced = false →
      comparison.truth (row.cell column.key) (operand.against column.type.affinity) ≠ .unknown :=
    fun comparison operand hoperand =>
      comparison.truth_ne_unknown hcell (Cell.isUnplaced_against hoperand _)
  cases test with
  | isNull negated =>
      cases h
      exact Truth.ofBool_ne_unknown _
  | isTruth negated value =>
      cases h
      exact Truth.ofBool_ne_unknown _
  | equalsTruth negated value =>
      cases h
      exact hcompared _ _ rfl
  | compare comparison operand =>
      cases h
      exact hcompared _ _ (hoperands operand List.mem_cons_self)
  | between negated low high =>
      cases h
      have hlow := hcompared .gte low (hoperands low List.mem_cons_self)
      have hhigh := hcompared .lte high (hoperands high (List.mem_cons_of_mem _ List.mem_cons_self))
      exact negateIf_ne_unknown negated (Combinator.and.connect_ne_unknown hlow hhigh)
  | among negated operands =>
      cases h
      refine negateIf_ne_unknown negated (Combinator.or.truth_ne_unknown ?_)
      intro t ht
      rcases List.mem_map.mp ht with ⟨operand, hoperand, rfl⟩
      exact hcompared .eq operand (hoperands operand hoperand)
  | wildcard negated caseless pattern =>
      cases h
      unfold ofText
      cases htext : (row.cell column.key).text? with
      | none =>
          cases hkind : row.cell column.key with
          | null =>
              rw [hkind] at hcell
              cases hcell
          | _ =>
              rw [hkind] at htext
              cases htext
      | some s => exact Truth.ofBool_ne_unknown _
  | regexp negated caseless pattern =>
      unfold truth? at h
      dsimp only at h
      cases hkind : row.cell column.key with
      | null =>
          rw [hkind] at hcell
          cases hcell
      | text s =>
          rw [hkind] at h
          rcases Option.map_eq_some_iff.mp h with ⟨node, _, rfl⟩
          exact Truth.ofBool_ne_unknown _
      | _ =>
          rw [hkind] at h
          cases h
  | compareColumn _ | quantified _ _ | holdsText _ _ | words _ => cases hopposite

/-- A test by a word or null is decided on every row. -/
theorem isTest_ne_unknown
    {truth : Option Bool} {negated : Bool} {t : Truth}
    (h : ((Clause.isTest negated truth).bound column).truth? column row = some t) :
    t ≠ .unknown := by
  cases truth with
  | none =>
      cases h
      exact Truth.ofBool_ne_unknown _
  | some b =>
      cases h
      exact Truth.ofBool_ne_unknown _

theorem mem_bindings_of_operand
    {test : Test Value} {cell : Cell}
    (hbound : ∀ binding ∈ test.bindings column, ∃ cell, binding = .ok cell)
    (hcell : cell ∈ (test.bound column).operands) :
    .ok cell ∈ test.bindings column := by
  have hsame : ∀ {type v}, Binding.bind type v ∈ test.bindings column →
      Binding.bind type v = .ok (boundCell type v) := by
    intro type v hmem
    rcases hbound _ hmem with ⟨bound, hbind⟩
    rw [hbind, boundCell_of_bind hbind]
  cases test with
  | compare comparison operand =>
      rw [List.mem_singleton.mp hcell, ← hsame List.mem_cons_self]
      exact List.mem_cons_self
  | between negated low high =>
      rcases List.mem_cons.mp hcell with rfl | hhigh
      · rw [← hsame List.mem_cons_self]
        exact List.mem_cons_self
      · have hmem := List.mem_cons_of_mem (Binding.bind (column.type.operandType low) low)
          (List.mem_singleton_self (Binding.bind (column.type.operandType high) high))
        rw [List.mem_singleton.mp hhigh, ← hsame hmem]
        exact hmem
  | among negated operands =>
      rcases List.mem_map.mp hcell with ⟨v, hv, rfl⟩
      have hmem := List.mem_map_of_mem
        (f := Binding.bind (column.type.operandType (operands.headD .null))) hv
      rw [← hsame hmem]
      exact hmem
  | _ => cases hcell

end Test

/-! ## Conditions with opposite operators -/

/-- An operator and its negation ask opposite tests. -/
theorem Clause.opposite_of_testOf
    {model : Model} {name : String} {column : Column} {op neg : Operator} {operand : Value}
    {test other : Test Value}
    (hneg : op.negation? = some neg)
    (h : testOf model name column op operand = .ok test)
    (hother : testOf model name column neg operand = .ok other) :
    test.opposite? = some other := by
  cases op with
  | eq =>
      cases hneg
      rcases bind_eq_ok.mp h with ⟨v, hv, htest⟩
      rcases bind_eq_ok.mp hother with ⟨w, hw, hother⟩
      rw [hv] at hw
      cases hw
      cases v <;> cases htest <;> cases hother <;> rfl
  | is =>
      cases hneg
      rcases map_eq_ok.mp h with ⟨truth, htruth, rfl⟩
      rcases map_eq_ok.mp hother with ⟨truth', htruth', rfl⟩
      rw [htruth] at htruth'
      cases htruth'
      cases truth <;> rfl
  | between =>
      cases hneg
      change pairTest false column operand = _ at h
      change pairTest true column operand = _ at hother
      unfold pairTest at h hother
      split at h
      · rename_i low high hitems
        rw [hitems] at hother
        rcases bind_eq_ok.mp h with ⟨v, hv, h⟩
        rcases bind_eq_ok.mp h with ⟨w, hw, h⟩
        rcases bind_eq_ok.mp hother with ⟨v', hv', hother⟩
        rcases bind_eq_ok.mp hother with ⟨w', hw', hother⟩
        rw [hv] at hv'
        rw [hw] at hw'
        cases hv'
        cases hw'
        cases h
        cases hother
        rfl
      · cases h
  | isIn =>
      cases hneg
      rcases map_eq_ok.mp h with ⟨vs, hvs, rfl⟩
      rcases map_eq_ok.mp hother with ⟨ws, hws, rfl⟩
      rw [hvs] at hws
      cases hws
      rfl
  | like | iLike | regexp | iRegexp =>
      cases hneg
      cases h
      cases hother
      rfl
  | _ => cases hneg

namespace Operator

/-- A column of a kind without numbers takes its operands as they are, and one of them is NaN: by
itself, or as a text behind a first member that is a number. -/
def MeetsNaN (op : Operator) (column : Column) (operand : Value) : Prop :=
  column.type.kind ∈ [.text, .bytes, .untyped] ∧
    ∃ item ∈ op.compared operand, Binding.number? item = some .nan ∧
      ((∃ s, item = .text s) → op.takesList = true ∧ ∃ first rest,
        op.compared operand = first :: rest ∧ ColumnType.ofValue? first = some .float)

end Operator

/-! ## Operands that are bound as null -/

namespace Binding

theorem ofInt_ne_nan (n : Int) : Binary64.ofInt n ≠ .nan :=
  Binary64.ofRatio_ne_nan _ _ _

theorem bounded?_ne_nan {x : Binary64} (hx : x ≠ .nan) : bounded? x ≠ some .nan := by
  cases x with
  | nan => exact absurd rfl hx
  | infinite negative => exact nofun
  | finite negative rank => exact nofun

/-- What is bound as null is null or no number; a text is read as a number only for a column of
numbers. -/
theorem number?_of_bind_null
    {type : ColumnType} {v : Value}
    (hv : v ≠ .null) (h : bind type v = .ok .null) :
    number? v = some .nan ∧ ((∃ s, v = .text s) → type.family = .number) := by
  rcases bind_eq_ok.mp h with ⟨w, hw, hcell⟩
  have hplain : w = .null ∨ w = .float .nan := by
    cases w with
    | null => exact Or.inl rfl
    | int n =>
        rw [toCell] at hcell
        split at hcell <;> cases hcell
    | float x =>
        cases x with
        | nan => exact Or.inr rfl
        | _ => cases hcell
    | _ => cases hcell
  unfold prepare at hw
  split at hw
  · exact absurd rfl hv
  dsimp only at hw
  have hself : w = v → number? v = some .nan ∧ ((∃ s, v = .text s) → type.family = .number) := by
    rintro rfl
    rcases hplain with rfl | rfl
    · exact absurd rfl hv
    · refine ⟨rfl, ?_⟩
      rintro ⟨s, hs⟩
      cases hs
  cases type with
  | integer | varchar _ | untyped => exact hself (Except.ok.inj hw).symm
  | boolean =>
      dsimp only at hw
      cases htruth : truth? v with
      | none =>
          rw [htruth] at hw
          cases hw
      | some b =>
          rw [htruth] at hw
          cases hw
          rcases hplain with h | h <;> cases h
  | float | numeric _ _ =>
      dsimp only at hw
      cases hnumber : number? v with
      | none =>
          rw [hnumber] at hw
          cases hw
      | some x =>
          rw [hnumber] at hw
          cases hw
          rcases hplain with h | h
          · cases h
          · cases h
            exact ⟨rfl, fun _ => rfl⟩
  | date | timestamp | uuid | enumeration _ | blob =>
      dsimp only at hw
      split at hw <;> cases hw <;> rcases hplain with h | h <;> cases h

end Binding

/-- A column of a kind without numbers takes operands as they are. -/
theorem Clause.eq_of_coerce
    {column : Column} {item v : Value}
    (hkind : column.type.kind ∈ [.text, .bytes, .untyped]) (h : coerce column item = .ok v) :
    v = item := by
  unfold coerce Operand.coerce at h
  rw [mapError_eq_ok] at h
  split at h
  · exact (Except.ok.inj h).symm
  split at h
  case h_8 | h_9 | h_10 => exact (Except.ok.inj h).symm
  all_goals
    rename_i heq
    rw [heq] at hkind
    simp at hkind

/-- What a column makes of an operand is a number where the column has numbers. -/
theorem Clause.number?_of_coerce
    {column : Column} {item v : Value}
    (hitem : item ≠ .null) (h : coerce column item = .ok v)
    (hnan : Binding.number? v = some .nan) :
    column.type.kind ∈ [.text, .bytes, .untyped] ∧ v = item := by
  have hfinite : ∀ {d}, Operand.number column.key item = .ok d → d.toBinary64 ≠ .nan := by
    intro d hd
    unfold Operand.number at hd
    split at hd
    · rename_i found hfound
      cases hd
      exact Conversion.float_ne_nan (Option.filter_eq_some_iff.mp hfound).2
    · cases hd
  unfold coerce Operand.coerce at h
  rw [mapError_eq_ok] at h
  split at h
  · exact absurd rfl hitem
  cases hkind : column.type.kind with
  | text | bytes | untyped =>
      rw [hkind] at h
      cases h
      exact ⟨by decide, rfl⟩
  | int =>
      rw [hkind] at h
      rcases map_eq_ok.mp h with ⟨d, hd, rfl⟩
      unfold Operand.integral at hnan
      split at hnan
      · rw [Binding.number?] at hnan
        exact absurd hnan (Binding.bounded?_ne_nan (Binding.ofInt_ne_nan _))
      · exact absurd (Option.some.inj hnan) (hfinite hd)
  | float | decimal =>
      rw [hkind] at h
      rcases map_eq_ok.mp h with ⟨d, hd, rfl⟩
      exact absurd (Option.some.inj hnan) (hfinite hd)
  | bool =>
      rw [hkind] at h
      rcases map_eq_ok.mp h with ⟨b, _, rfl⟩
      rw [Binding.number?] at hnan
      exact absurd (Option.some.inj hnan) (Binding.ofInt_ne_nan _)
  | date | timestamp | uuid =>
      rw [hkind] at h
      rcases map_eq_ok.mp h with ⟨_, _, rfl⟩
      cases hnan

/-- Beside a column without numbers, only numbers are bound as numbers. -/
theorem ColumnType.ofValue?_of_family
    {type : ColumnType} {w : Value}
    (hkind : type.kind ∈ [.text, .bytes, .untyped])
    (h : (type.operandType w).family = .number) :
    ofValue? w = some .float := by
  have hcolumn : type.family ≠ .number := by
    cases type with
    | float | numeric _ _ => simp [kind] at hkind
    | _ => exact TypeFamily.noConfusion
  unfold operandType at h
  cases htype : ofValue? w with
  | none =>
      rw [htype] at h
      exact absurd h hcolumn
  | some own =>
      rw [htype] at h
      dsimp only at h
      split at h
      · exact absurd h hcolumn
      · cases w <;> cases htype <;> first | rfl | cases h

namespace Operator

variable {model : Model} {name : String} {column : Column} {op : Operator} {operand : Value}
  {test : Test Value}

/-- The operator of a list asks for the members of the list, each as the column takes it. -/
theorem mapM_of_among
    {negated : Bool} {vs : List Value}
    (h : Clause.testOf model name column op operand = .ok (.among negated vs)) :
    op.takesList = true ∧ (op.compared operand).mapM (Clause.coerce column) = .ok vs := by
  have hcompare : ∀ {comparison},
      (do Clause.comparisonTest comparison (← Clause.coerce column operand)) ≠
        .ok (.among negated vs) := by
    intro comparison h
    rcases bind_eq_ok.mp h with ⟨v, _, htest⟩
    unfold Clause.comparisonTest at htest
    split at htest <;> cases htest
  have hpair : ∀ {own}, Clause.pairTest own column operand ≠ .ok (.among negated vs) := by
    intro own h
    unfold Clause.pairTest at h
    split at h
    · rcases bind_eq_ok.mp h with ⟨_, _, h⟩
      rcases bind_eq_ok.mp h with ⟨_, _, h⟩
      cases h
    · cases h
  cases op with
  | isIn | notIn =>
      rcases map_eq_ok.mp h with ⟨ws, hws, hsame⟩
      cases hsame
      exact ⟨rfl, hws⟩
  | eq | ne | gt | gte | lt | lte => exact absurd h hcompare
  | between | notBetween => exact absurd h hpair
  | is | isNot =>
      rcases map_eq_ok.mp h with ⟨truth, _, hsame⟩
      cases truth <;> cases hsame
  | col | all | any =>
      rcases map_eq_ok.mp h with ⟨_, _, hsame⟩
      cases hsame
  | _ => cases h

/-- Without a null in the operand, NaN is all that is bound as null. -/
theorem meetsNaN_of_bindings
    (htest : Clause.testOf model name column op operand = .ok test)
    (hnull : .null ∉ op.compared operand) (hbinding : .ok .null ∈ test.bindings column) :
    op.MeetsNaN column operand := by
  rcases exists_of_mem_bindings hbinding (by exact nofun) with ⟨v, hv, w, hbind, hw⟩
  rcases Clause.operands_of_testOf htest hv with ⟨item, hitem, hcoerce⟩
  have hne : item ≠ .null := fun hsame => hnull (hsame ▸ hitem)
  rcases Binding.number?_of_bind_null (coerce_ne_null hne hcoerce) hbind.symm with
    ⟨hnan, htext⟩
  rcases Clause.number?_of_coerce hne hcoerce hnan with ⟨hkind, rfl⟩
  refine ⟨hkind, v, hitem, hnan, ?_⟩
  rintro ⟨s, rfl⟩
  have hfloat := ColumnType.ofValue?_of_family hkind (htext ⟨s, rfl⟩)
  rcases hw with rfl | ⟨negated, rest, rfl⟩
  · cases hfloat
  rcases mapM_of_among htest with ⟨hlist, hmembers⟩
  refine ⟨hlist, ?_⟩
  cases hcompared : op.compared operand with
  | nil =>
      rw [hcompared] at hitem
      cases hitem
  | cons first others =>
      -- the first member is taken as it is
      rw [hcompared] at hmembers hnull
      rw [List.mapM_cons] at hmembers
      rcases bind_eq_ok.mp hmembers with ⟨w', hw', hmembers⟩
      rcases bind_eq_ok.mp hmembers with ⟨_, _, hmembers⟩
      cases pure_eq_ok.mp hmembers
      have hfirst := Clause.eq_of_coerce hkind hw'
      exact ⟨first, others, rfl, hfirst ▸ hfloat⟩

end Operator

/-! ## Rows with opposite conditions -/

namespace Predicate

variable {model : Model} {name field : String} {column : Column} {row : Row}
  {op neg : Operator} {operand : Value} {test : Test Value} {t u : Truth}

/-- An operator and its negation are rendered as opposite tests. -/
theorem opposite_of_hasTruth
    (hneg : op.negation? = some neg) (hcolumn : model.column? field = some column)
    (ht : (asks field op operand).HasTruth model name row t)
    (hu : (asks field neg operand).HasTruth model name row u) :
    ∃ test, Clause.testOf model name column op operand = .ok test ∧
      (∀ binding ∈ test.bindings column, ∃ cell, binding = .ok cell) ∧
      (test.bound column).truth? column row = some t ∧
      (∃ other, (test.bound column).opposite? = some other) ∧ u = t.not := by
  rcases (hasTruth_asks_iff hcolumn).mp ht with ⟨test, htest, hbound, htruth⟩
  rcases (hasTruth_asks_iff hcolumn).mp hu with ⟨other, hother, _, htruth'⟩
  have hopposite : (test.bound column).opposite? = some (other.bound column) := by
    rw [Test.opposite?_bound, Clause.opposite_of_testOf hneg htest hother]
    rfl
  rw [Test.truth?_opposite hopposite, htruth] at htruth'
  exact ⟨test, htest, hbound, htruth, ⟨_, hopposite⟩, (Option.some.inj htruth').symm⟩

/-- Such a test is decided where the column has a place and no operand is bound as null. -/
theorem ne_unknown_of_placed
    (htest : Clause.testOf model name column op operand = .ok test)
    (hbound : ∀ binding ∈ test.bindings column, ∃ cell, binding = .ok cell)
    (htruth : (test.bound column).truth? column row = some t)
    (hopposite : ∃ other, (test.bound column).opposite? = some other)
    (hplaced : (row.cell column.key).isUnplaced = false)
    (hnull : .null ∉ op.compared operand) (hnan : ¬ op.MeetsNaN column operand) :
    t ≠ .unknown := by
  rcases hopposite with ⟨other, hopposite⟩
  refine Test.truth?_ne_unknown hopposite htruth hplaced ?_
  intro cell hoperand
  have hmem := Test.mem_bindings_of_operand hbound hoperand
  rw [Cell.isUnplaced_eq_false_iff]
  constructor
  · rintro rfl
    exact hnan (Operator.meetsNaN_of_bindings htest hnull hmem)
  · rcases exists_of_mem_bindings hmem (by exact nofun) with ⟨v, _, w, hbind, _⟩
    exact Binding.bind_ne_nan hbind.symm

end Predicate

namespace Store

/-- Of an operator and its negation, at most one selects a row on which both can be told, and of
`is` and its negation always one does.  Of the others one does where the column is not null, the
operand holds no null, and no NaN in a place where it is bound as null. -/
theorem selects_negation
    {store : Store} {db : Database} {row : Row} {field : String} {op neg : Operator}
    {operand : Value}
    (hneg : op.negation? = some neg) (hdb : db.IsStored) (hrow : row ∈ db.rows store.model)
    (htold : (Predicate.asks field op operand).IsTold store.model store.name row)
    (htold' : (Predicate.asks field neg operand).IsTold store.model store.name row) :
    let selects (op : Operator) :=
      store.Selects db { filter := some (.asks field op operand) } row
    ¬ (selects op ∧ selects neg) ∧ (op = .is → (selects op ↔ ¬ selects neg)) ∧
      (row.cell field ≠ .null → .null ∉ op.compared operand →
        (∀ column, store.model.column? field = some column → ¬ op.MeetsNaN column operand) →
        (selects op ↔ ¬ selects neg)) := by
  intro selects
  rcases Predicate.exists_column_of_isTold htold with ⟨column, hcolumn⟩
  rcases htold with ⟨t, ht⟩
  rcases htold' with ⟨u, hu⟩
  have hselects : selects op ↔ t = .yes := selects_iff_of_hasTruth db ht
  have hselects' : selects neg ↔ u = .yes := selects_iff_of_hasTruth db hu
  rcases Predicate.opposite_of_hasTruth hneg hcolumn ht hu with
    ⟨test, htest, hbound, htruth, hopposite, hsame⟩
  -- one of the two holds as soon as they are decided
  have hdecided : t ≠ .unknown → (selects op ↔ ¬ selects neg) := by
    intro hne
    rw [hselects, hselects', hsame]
    cases t with
    | unknown => exact absurd rfl hne
    | _ => decide
  refine ⟨?_, ?_, ?_⟩
  · rw [hselects, hselects', hsame]
    cases t <;> decide
  · rintro rfl
    apply hdecided
    rcases map_eq_ok.mp htest with ⟨truth, _, rfl⟩
    exact Test.isTest_ne_unknown htruth
  · intro hcell hnull hnan
    apply hdecided
    have hplaced : (row.cell column.key).isUnplaced = false := by
      rw [Model.key_of_column? hcolumn, Cell.isUnplaced_eq_false_iff]
      exact ⟨hcell, (hdb.of_mem_rows hrow).cell_ne_nan field⟩
    exact Predicate.ne_unknown_of_placed htest hbound htruth hopposite hplaced hnull
      (hnan column hcolumn)

end Store

namespace Sample

/-- An author of twenty-five years. -/
def author07 : Row := rowOf authors [.int 7, .text "author07", .int 25]

/-- The authors with an age from twenty to forty, or those outside these bounds. -/
def ranged (op : Operator) : Predicate := .asks "age" op (.text "20, 40")

theorem selects_negation_authors :
    (resource authors).store.Selects database { filter := some (ranged .between) } author07 ↔
      ¬ (resource authors).store.Selects database { filter := some (ranged .notBetween) }
        author07 := by
  have hbetween : (ranged .between).HasTruth authors "authors" author07 .yes := by
    decide +kernel
  have hnotBetween : (ranged .notBetween).HasTruth authors "authors" author07 .no := by
    decide +kernel
  have hneg : Operator.between.negation? = some .notBetween := rfl
  have hdb : database.IsStored := by decide +kernel
  have hrow : author07 ∈ database.rows (resource authors).store.model := by decide
  have hcolumn : authors.column? "age" = some (required "age" .integer) := by rfl
  refine (Store.selects_negation hneg hdb hrow ⟨_, hbetween⟩ ⟨_, hnotBetween⟩).2.2
    (by decide) ?_ ?_
  · have hitems : Operator.between.compared (.text "20, 40") = [.text "20", .text "40"] := by
      rfl
    rw [hitems]
    simp
  · intro column hage hnan
    cases hcolumn.symm.trans hage
    exact absurd hnan.1 (by decide)

/-- What is no number is bound as null beside a column of texts. -/
theorem negation_of_nan_undecided :
    let named (op : Operator) := Predicate.asks "nick" op (.float .nan)
    let row := rowOf reviewers [.int 1, .text "ann"]
    row ∈ database.rows reviewers ∧ row.cell "nick" ≠ .null ∧
      .null ∉ Operator.eq.compared (.float .nan) ∧
      (named .eq).IsTold reviewers "reviewers" row ∧
      (named .ne).IsTold reviewers "reviewers" row ∧
      ¬ (resource reviewers).store.Selects database { filter := some (named .eq) } row ∧
      ¬ (resource reviewers).store.Selects database { filter := some (named .ne) } row := by
  intro named row
  have heq : (named .eq).HasTruth reviewers "reviewers" row .unknown := by decide
  have hne : (named .ne).HasTruth reviewers "reviewers" row .unknown := by decide
  refine ⟨by decide, by decide, by simp [Operator.compared], ⟨_, heq⟩,
    ⟨_, hne⟩, ?_, ?_⟩
  · intro h
    exact absurd ((Store.selects_iff_of_hasTruth database heq).mp h) (by decide)
  · intro h
    exact absurd ((Store.selects_iff_of_hasTruth database hne).mp h) (by decide)

end Sample
end RecordApi
