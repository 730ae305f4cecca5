import RecordApi.Api.Failure
import RecordApi.Proofs.Conversion.Refusals
import RecordApi.Proofs.Storage.Conditions

/-!
# Conditions that stray

A condition that is refused is refused with an error of the store, but for two: null and truth
values have no order, and an instant may leave the calendar in universal time.  A condition that
is rendered may still hold an integer that no statement can bind.
-/

namespace RecordApi

open Steps Storage

namespace StoreError

/-- The classes of a store's own errors. -/
def classes : List String :=
  ["StorageError", "UnknownFieldError", "UnknownRelationError", "UnsupportedOperatorError",
    "InvalidValueError", "UnsupportedSortDirectionError"]

/-- A failure is told by an error of the store. -/
def IsTyped (error : StoreError) : Prop :=
  Failure.storeLabel error ∈ classes

instance (error : StoreError) : Decidable error.IsTyped :=
  inferInstanceAs (Decidable (Failure.storeLabel error ∈ classes))

theorem isTyped_iff (error : StoreError) :
    error.IsTyped ↔
      error ∉ [comparison, outOfRange, unreadable, operand .beyondCalendar] := by
  unfold IsTyped
  cases error with
  | operand e => cases e <;> simp [Failure.storeLabel, Failure.operandLabel, classes]
  | _ => simp [Failure.storeLabel, classes]

end StoreError

open StoreError

/-- A condition on the rows of a model makes a store fail in a way of its own. -/
inductive Condition.Strays (model : Model) (c : Condition) : StoreError → Prop
  /-- Null and truth values have no order. -/
  | comparison {column : Column} {op : Operator} {v : Value}
      (hcolumn : model.column? c.field = some column) (hop : c.operator = .known op)
      (horder : op ∈ [.gt, .gte, .lt, .lte]) (hv : Clause.coerce column c.operand = .ok v)
      (hnull : v = .null ∨ ∃ b, v = .bool b) :
      Strays model c .comparison
  /-- In universal time the instant lies outside the years 1 to 9999. -/
  | beyondCalendar {column : Column} {op : Operator} {item : Value}
      (hcolumn : model.column? c.field = some column) (hop : c.operator = .known op)
      (hitem : item ∈ op.compared c.operand) (htype : column.type = .timestamp)
      (hinstant : Operand.timestamp column.key item = .error .beyondCalendar) :
      Strays model c (.operand .beyondCalendar)
  | outOfRange {column : Column} {op : Operator} {item : Value} {n : Int}
      (hcolumn : model.column? c.field = some column) (hop : c.operator = .known op)
      (hitem : item ∈ op.compared c.operand) (hn : Clause.coerce column item = .ok (.int n))
      (hword : fitsWord n = false) :
      Strays model c .outOfRange

theorem Condition.Strays.not_isTyped
    {model : Model} {c : Condition} {error : StoreError}
    (h : c.Strays model error) :
    ¬ error.IsTyped := by
  cases h <;> decide

/-! ## Operands -/

theorem beyondCalendar_of_coerce
    {field : String} {kind : Kind} {v : Value}
    (h : Operand.coerce field kind v = .error .beyondCalendar) :
    kind = .timestamp ∧ Operand.timestamp field v = .error .beyondCalendar := by
  rcases Operand.coerce_eq_error h with ⟨_, _, hinvalid⟩ | ⟨_, hleaves⟩
  · cases hinvalid
  · exact Operand.timestamp_of_leavesCalendar field hleaves

namespace Clause

variable {model : Model} {name : String} {column : Column} {operand : Value} {error : StoreError}

theorem coerce_eq_error
    (h : coerce column operand = .error error) :
    error.IsTyped ∨ error = .operand .beyondCalendar ∧ column.type = .timestamp ∧
      Operand.timestamp column.key operand = .error .beyondCalendar := by
  rcases mapError_eq_error.mp h with ⟨e, he, rfl⟩
  cases e with
  | invalid field expected => exact Or.inl (by simp [isTyped_iff])
  | beyondCalendar =>
      rcases beyondCalendar_of_coerce he with ⟨hkind, hinstant⟩
      refine Or.inr ⟨rfl, ?_, hinstant⟩
      revert hkind
      cases column.type <;> simp [ColumnType.kind]

theorem comparisonTest_eq_error_iff
    {comparison : Comparison} {v : Value} :
    comparisonTest comparison v = .error error ↔
      error = .comparison ∧ comparison ∉ [.eq, .ne] ∧ (v = .null ∨ ∃ b, v = .bool b) := by
  cases comparison <;> cases v <;> simp [comparisonTest, eq_comm]

/-- An operator whose comparison is refused orders its column with null or a truth value. -/
theorem strays_of_comparison
    {c : Condition} {op : Operator} {comparison : Comparison}
    (hcolumn : model.column? c.field = some column) (hop : c.operator = .known op)
    (hcompared : op.compared c.operand = [c.operand])
    (horder : comparison ∉ [.eq, .ne] → op ∈ [.gt, .gte, .lt, .lte])
    (h : (do comparisonTest comparison (← coerce column c.operand)) = .error error) :
    error.IsTyped ∨ c.Strays model error := by
  rcases bind_eq_error.mp h with hcoerce | ⟨v, hv, htest⟩
  · rcases coerce_eq_error hcoerce with htyped | ⟨rfl, htype, hinstant⟩
    · exact Or.inl htyped
    · refine Or.inr (.beyondCalendar hcolumn hop ?_ htype hinstant)
      rw [hcompared]
      exact List.mem_singleton_self _
  · rcases comparisonTest_eq_error_iff.mp htest with ⟨rfl, hcomparison, hnull⟩
    exact Or.inr (.comparison hcolumn hop (horder hcomparison) hv hnull)

theorem strays_of_item
    {c : Condition} {op : Operator} {item : Value}
    (hcolumn : model.column? c.field = some column) (hop : c.operator = .known op)
    (hitem : item ∈ op.compared c.operand)
    (h : coerce column item = .error error) :
    error.IsTyped ∨ c.Strays model error := by
  rcases coerce_eq_error h with htyped | ⟨rfl, htype, hinstant⟩
  · exact Or.inl htyped
  · exact Or.inr (.beyondCalendar hcolumn hop hitem htype hinstant)

theorem strays_of_pair
    {c : Condition} {op : Operator} {negated : Bool}
    (hcolumn : model.column? c.field = some column) (hop : c.operator = .known op)
    (hcompared : op.compared c.operand = operandItems c.operand)
    (h : pairTest negated column c.operand = .error error) :
    error.IsTyped ∨ c.Strays model error := by
  unfold pairTest at h
  split at h
  · rename_i low high hitems
    rw [hitems] at hcompared
    rcases bind_eq_error.mp h with hlow | ⟨_, _, h⟩
    · exact strays_of_item hcolumn hop (by simp [hcompared]) hlow
    rcases bind_eq_error.mp h with hhigh | ⟨_, _, h⟩
    · exact strays_of_item hcolumn hop (by simp [hcompared]) hhigh
    · cases h
  · cases h
    exact Or.inl (by simp [isTyped_iff])

theorem strays_of_list
    {c : Condition} {op : Operator} {ask : List Value → Test Value}
    (hcolumn : model.column? c.field = some column) (hop : c.operator = .known op)
    (hcompared : op.compared c.operand = operandItems c.operand)
    (h : ((operandItems c.operand).mapM (coerce column)).map ask = .error error) :
    error.IsTyped ∨ c.Strays model error := by
  rcases exists_error_of_mapM (map_eq_error.mp h) with ⟨item, hitem, hfails⟩
  rw [← hcompared] at hitem
  exact strays_of_item hcolumn hop hitem hfails

theorem isTyped_of_nullOrTruth
    {field : String} {ask : Option Bool → Test Value}
    (h : (nullOrTruth field operand).map ask = .error error) :
    error.IsTyped := by
  have hfails := map_eq_error.mp h
  unfold nullOrTruth at hfails
  split at hfails
  · cases hfails
  · cases hfails
  · split at hfails
    · cases hfails
    · cases hfails
    · cases hfails
    · cases hfails
      simp [isTyped_iff]

theorem isTyped_of_column
    {field : String}
    (h : Clause.column model name field = .error error) :
    error.IsTyped := by
  unfold Clause.column at h
  split at h
  · cases h
  · cases h
    simp [isTyped_iff]

/-- A condition is refused with an error of the store, or strays. -/
theorem strays_of_ofCondition
    {c : Condition}
    (h : ofCondition model name c = .error error) :
    error.IsTyped ∨ c.Strays model error := by
  unfold ofCondition at h
  rcases bind_eq_error.mp h with hfield | ⟨column, hfield, h⟩
  · exact Or.inl (isTyped_of_column hfield)
  have hcolumn := column_eq_ok.mp hfield
  cases hop : c.operator with
  | unknown operator =>
      rw [hop] at h
      cases h
      exact Or.inl (by simp [isTyped_iff])
  | known op =>
      rw [hop] at h
      rcases bind_eq_error.mp h with htest | ⟨_, _, h⟩
      · cases op with
        | eq => exact strays_of_comparison hcolumn hop rfl (by simp) htest
        | ne => exact strays_of_comparison hcolumn hop rfl (by simp) htest
        | gt => exact strays_of_comparison hcolumn hop rfl (by simp) htest
        | gte => exact strays_of_comparison hcolumn hop rfl (by simp) htest
        | lt => exact strays_of_comparison hcolumn hop rfl (by simp) htest
        | lte => exact strays_of_comparison hcolumn hop rfl (by simp) htest
        | between => exact strays_of_pair hcolumn hop rfl htest
        | notBetween => exact strays_of_pair hcolumn hop rfl htest
        | isIn => exact strays_of_list hcolumn hop rfl htest
        | notIn => exact strays_of_list hcolumn hop rfl htest
        | all => exact strays_of_list hcolumn hop rfl htest
        | any => exact strays_of_list hcolumn hop rfl htest
        | is => exact Or.inl (isTyped_of_nullOrTruth htest)
        | isNot => exact Or.inl (isTyped_of_nullOrTruth htest)
        | col => exact Or.inl (isTyped_of_column (map_eq_error.mp htest))
        | _ => cases htest
      · cases h

/-- An order comparison with null or a truth value is always refused. -/
theorem ofCondition_eq_comparison_iff
    {c : Condition} :
    ofCondition model name c = .error .comparison ↔ c.Strays model .comparison := by
  constructor
  · intro h
    rcases strays_of_ofCondition h with htyped | hstrays
    · exact absurd htyped (by decide)
    · exact hstrays
  · intro hstrays
    cases hstrays with
    | @comparison column op v hcolumn hop horder hv hnull =>
        have hrefused : ∀ comparison, comparison ∉ [.eq, .ne] →
            (do comparisonTest comparison (← coerce column c.operand)) = .error .comparison := by
          intro comparison hcomparison
          rw [hv]
          exact comparisonTest_eq_error_iff.mpr ⟨rfl, hcomparison, hnull⟩
        unfold ofCondition
        rw [column_eq_ok.mpr hcolumn, hop]
        refine bind_eq_error.mpr (Or.inr ⟨column, rfl, bind_eq_error.mpr (Or.inl ?_)⟩)
        simp only [List.mem_cons, List.not_mem_nil, or_false] at horder
        rcases horder with rfl | rfl | rfl | rfl
        · exact hrefused .gt (by decide)
        · exact hrefused .gte (by decide)
        · exact hrefused .lt (by decide)
        · exact hrefused .lte (by decide)

theorem strays_of_ofPredicate?
    {filter : Option Predicate}
    (h : ofPredicate? model name filter = .error error) :
    error.IsTyped ∨ ∃ p, filter = some p ∧ ∃ c ∈ p.conditions, c.Strays model error := by
  cases filter with
  | none => cases h
  | some p =>
      rcases exists_refused (map_eq_error.mp h) with ⟨c, hc, hrefused⟩
      rcases strays_of_ofCondition hrefused with htyped | hstrays
      · exact Or.inl htyped
      · exact Or.inr ⟨p, rfl, c, hc, hstrays⟩

theorem ofPredicate?_eq_some
    {filter : Option Predicate} {clause : Clause Value}
    (h : ofPredicate? model name filter = .ok (some clause)) :
    ∃ p, filter = some p ∧ ofPredicate model name p = .ok clause := by
  cases filter with
  | none => cases h
  | some p =>
      rcases map_eq_ok.mp h with ⟨_, hclause, hsame⟩
      cases hsame
      exact ⟨p, rfl, hclause⟩

end Clause

/-! ## Bound values -/

theorem toCell_eq_outOfRange
    {v : Value}
    (h : Binding.toCell v = .error .outOfRange) :
    ∃ n, v = .int n ∧ fitsWord n = false := by
  cases v with
  | int n =>
      rw [Binding.toCell] at h
      split at h
      · cases h
      · rename_i hfits
        exact ⟨n, rfl, Bool.eq_false_iff.mpr hfits⟩
  | float x => cases x <;> cases h
  | _ => cases h

/-- The type of a column turns nothing but truth values into integers. -/
theorem prepare_int
    {type : ColumnType} {v : Value} {n : Int}
    (h : Binding.prepare type v = .ok (.int n)) :
    v = .int n ∨ fitsWord n = true := by
  unfold Binding.prepare at h
  split at h
  · cases h
  dsimp only at h
  cases type with
  | integer | varchar _ | untyped =>
      cases h
      exact Or.inl rfl
  | boolean =>
      right
      dsimp only at h
      cases htruth : Binding.truth? v with
      | none =>
          rw [htruth] at h
          cases h
      | some b =>
          rw [htruth] at h
          cases h
          cases b <;> decide
  | float | numeric _ _ =>
      dsimp only at h
      cases hnumber : Binding.number? v with
      | none =>
          rw [hnumber] at h
          cases h
      | some x =>
          rw [hnumber] at h
          cases h
  | date | timestamp | uuid | enumeration _ | blob =>
      dsimp only at h
      split at h <;> cases h

theorem prepare_ne_outOfRange (type : ColumnType) (v : Value) :
    Binding.prepare type v ≠ .error .outOfRange := by
  intro h
  unfold Binding.prepare at h
  split at h
  · cases h
  dsimp only at h
  cases type with
  | integer | varchar _ | untyped => cases h
  | boolean | float | numeric _ _ =>
      dsimp only at h
      split at h <;> cases h
  | date | timestamp | uuid | enumeration _ | blob =>
      dsimp only at h
      split at h <;> cases h

/-- Only an integer is out of range. -/
theorem bind_eq_outOfRange
    {type : ColumnType} {v : Value}
    (h : Binding.bind type v = .error .outOfRange) :
    ∃ n, v = .int n ∧ fitsWord n = false := by
  rcases bind_eq_error.mp h with hprepare | ⟨w, hprepare, hcell⟩
  · exact absurd hprepare (prepare_ne_outOfRange type v)
  · rcases toCell_eq_outOfRange hcell with ⟨n, rfl, hword⟩
    rcases prepare_int hprepare with rfl | hfits
    · exact ⟨n, rfl, hword⟩
    · rw [hword] at hfits
      cases hfits

/-- Each operand of a test is bound beside the column by its own type, or by that of the first
operand of a list.  All else that is bound is refused. -/
theorem exists_of_mem_bindings
    {column : Column} {test : Test Value} {binding : Except BindError Cell}
    (h : binding ∈ test.bindings column) (htaken : binding ≠ .error .refused) :
    ∃ v ∈ test.operands, ∃ w, binding = Binding.bind (column.type.operandType w) v ∧
      (w = v ∨ ∃ negated rest, test = .among negated (w :: rest)) := by
  cases test with
  | compare comparison operand =>
      exact ⟨operand, List.mem_cons_self, operand, List.mem_singleton.mp h, Or.inl rfl⟩
  | between negated low high =>
      rcases List.mem_map.mp h with ⟨v, hv, rfl⟩
      exact ⟨v, hv, v, rfl, Or.inl rfl⟩
  | among negated operands =>
      rcases List.mem_map.mp h with ⟨v, hv, rfl⟩
      cases operands with
      | nil => cases hv
      | cons w rest => exact ⟨v, hv, w, rfl, Or.inr ⟨negated, rest, rfl⟩⟩
  | wildcard _ _ _ | holdsText _ _ | regexp _ _ _ | words _ =>
      rw [Test.bindings] at h
      split at h
      · cases h
      · exact absurd (List.mem_singleton.mp h) htaken
  | _ => cases h

/-- An integer that a clause cannot bind is what an operand was converted to. -/
theorem strays_of_bindings
    {model : Model} {name : String} {filter : Option Predicate} {clause : Clause Value}
    (hclause : Clause.ofPredicate? model name filter = .ok (some clause))
    (h : .error .outOfRange ∈ clause.simplified.bindings) :
    ∃ p, filter = some p ∧ ∃ c ∈ p.conditions, c.Strays model .outOfRange := by
  rcases Clause.ofPredicate?_eq_some hclause with ⟨p, hp, hclause⟩
  rw [Clause.bindings_eq_flatMap] at h
  rcases List.mem_flatMap.mp h with ⟨⟨column, test⟩, htest, hbinding⟩
  rcases Clause.exists_condition hclause (Clause.mem_tests_of_simplified clause htest) with
    ⟨c, hc, hrendered⟩
  rcases Clause.ofCondition_eq_ok hrendered with ⟨_, op, _, hcolumn, hop, hasked, hsame⟩
  cases hsame
  rcases exists_of_mem_bindings hbinding (by exact nofun) with ⟨v, hv, _, hbind, _⟩
  rcases bind_eq_outOfRange hbind.symm with ⟨n, rfl, hword⟩
  rcases Clause.operands_of_testOf hasked hv with ⟨item, hitem, hconverted⟩
  exact ⟨p, hp, c, hc, .outOfRange hcolumn hop hitem hconverted hword⟩

theorem mem_of_mem_filterMap
    {bindings : List (Except BindError Cell)} {e : BindError}
    {error? : Except BindError Cell → Option BindError}
    (hnone : ∀ cell, error? (.ok cell) = none) (hsame : ∀ e, error? (.error e) = some e)
    (h : e ∈ bindings.filterMap error?) :
    .error e ∈ bindings := by
  rcases List.mem_filterMap.mp h with ⟨binding, hbinding, hsome⟩
  cases binding with
  | ok cell =>
      rw [hnone] at hsome
      cases hsome
  | error e' =>
      rw [hsame] at hsome
      cases hsome
      exact hbinding

theorem mem_of_firstError?
    {bindings : List (Except BindError Cell)} {e : BindError}
    (h : Binding.firstError? bindings = some e) :
    .error e ∈ bindings := by
  unfold Binding.firstError? at h
  dsimp only at h
  split at h
  · rename_i hrefused
    cases h
    exact mem_of_mem_filterMap (fun _ => rfl) (fun _ => rfl) (List.contains_iff_mem.mp hrefused)
  · exact mem_of_mem_filterMap (fun _ => rfl) (fun _ => rfl) (List.mem_of_head? h)

/-- A statement is refused with an error of the store, or cannot bind an integer. -/
theorem prepare_eq_error
    {action : Action} {name : String} {quantified : Bool}
    {bindings : List (Except BindError Cell)} {error : StoreError}
    (h : prepare action name quantified bindings = .error error) :
    error.IsTyped ∨ error = .outOfRange ∧ .error .outOfRange ∈ bindings := by
  unfold prepare at h
  split at h
  · cases h
    exact Or.inl (by simp [isTyped_iff])
  · split at h
    · rename_i e hfirst
      cases h
      cases e with
      | outOfRange => exact Or.inr ⟨rfl, mem_of_firstError? hfirst⟩
      | refused | unsupported => exact Or.inl (by simp [isTyped_iff, StoreError.ofBind])
    · cases h

/-- The statement of a clause is refused with an error of the store, or a condition strays. -/
theorem strays_of_statement
    {model : Model} {action : Action} {name owner : String} {quantified : Bool}
    {filter : Option Predicate} {clause : Clause Value} {error : StoreError}
    (hclause : Clause.ofPredicate? model name filter = .ok (some clause))
    (h : prepare action owner quantified clause.simplified.bindings = .error error) :
    error.IsTyped ∨ ∃ p, filter = some p ∧ ∃ c ∈ p.conditions, c.Strays model error := by
  rcases prepare_eq_error h with htyped | ⟨rfl, hbinding⟩
  · exact Or.inl htyped
  · exact Or.inr (strays_of_bindings hclause hbinding)

theorem isTyped_of_evaluated
    {β : Type} {action : Action} {name : String} {x : Option β} {error : StoreError}
    (h : evaluated action name x = .error error) :
    error.IsTyped := by
  cases x with
  | none =>
      cases h
      simp [isTyped_iff]
  | some b => cases h

end RecordApi
