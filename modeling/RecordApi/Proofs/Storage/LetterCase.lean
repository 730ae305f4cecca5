import RecordApi.Proofs.Pattern.Caseless
import RecordApi.Proofs.Pattern.Wildcards
import RecordApi.Proofs.Storage.Truths
import RecordApi.Sample.Rows

/-!
# Operators that are to ignore case

Four operators are to ignore the case of letters.  Each of them has the truth of the operator that
does not say so: the wildcard operators never tell rows apart whose texts differ in case alone, and
those with regular expressions do so where the expression matches in one text and not in the other.
An expression that ignores case by itself tells no such rows apart.
-/

namespace RecordApi

open Text

/-- The operator that does not say that case is ignored. -/
def Operator.cased? : Operator → Option Operator
  | .iLike => some .like
  | .notILike => some .notLike
  | .iRegexp => some .regexp
  | .notIRegexp => some .notRegexp
  | _ => none

namespace Predicate

variable {model : Model} {name field : String} {column : Column} {row other : Row}

/-- A predicate gives the same result for two rows. -/
def TellsAlike (model : Model) (name : String) (row other : Row) (p : Predicate) : Prop :=
  ∀ t, p.HasTruth model name row t ↔ p.HasTruth model name other t

/-- The test of an operator with a pattern is made of the text of the operand, and binds nothing but
what the column takes. -/
theorem hasTruth_pattern_iff
    {op : Operator} {operand : Value} {test : Test Value} {t : Truth}
    (hcolumn : model.column? field = some column)
    (htest : Clause.testOf model name column op operand = .ok test)
    (hbindings : test.bindings column = if column.type.takesTexts then [] else [.error .refused]) :
    (asks field op operand).HasTruth model name row t ↔
      column.type.takesTexts = true ∧ (test.bound column).truth? column row = some t := by
  rw [hasTruth_asks_iff hcolumn, htest]
  constructor
  · rintro ⟨_, hsame, hbound, htruth⟩
    cases hsame
    refine ⟨?_, htruth⟩
    by_contra hrefuses
    rw [hbindings, if_neg hrefuses] at hbound
    rcases hbound _ List.mem_cons_self with ⟨_, herror⟩
    cases herror
  · rintro ⟨htakes, htruth⟩
    refine ⟨test, rfl, ?_, htruth⟩
    rw [hbindings, if_pos htakes]
    exact fun _ hmem => absurd hmem List.not_mem_nil

/-- An operator that is to ignore case has the truth of the one that is not. -/
theorem hasTruth_cased_iff
    {op cased : Operator} {t : Truth}
    (hcolumn : model.column? field = some column)
    (hcased : op.cased? = some cased) (operand : Value) :
    (asks field op operand).HasTruth model name row t ↔
      (asks field cased operand).HasTruth model name row t := by
  cases op <;> cases hcased <;>
    rw [hasTruth_pattern_iff hcolumn rfl rfl, hasTruth_pattern_iff hcolumn rfl rfl] <;> rfl

variable {s t : String}

/-- A wildcard pattern is told on every text, and gives the same for texts of other case. -/
theorem tellsAlike_wildcard
    {op : Operator} {operand : Value} {negated caseless : Bool}
    (hcolumn : model.column? field = some column) (htype : column.type.takesTexts = true)
    (htest : Clause.testOf model name column op operand =
      .ok (.wildcard negated caseless operand.plainText))
    (hs : row.cell column.key = .text s) (ht : other.cell column.key = .text t)
    (h : SameButCase s.toList t.toList) :
    (asks field op operand).IsTold model name row ∧
      (asks field op operand).TellsAlike model name row other := by
  constructor
  · exact ⟨_, (hasTruth_pattern_iff hcolumn htest rfl).mpr ⟨htype, rfl⟩⟩
  · intro truth
    rw [hasTruth_pattern_iff hcolumn htest rfl, hasTruth_pattern_iff hcolumn htest rfl]
    unfold Test.bound Test.truth? Test.ofText
    dsimp only
    rw [hs, ht]
    dsimp only [Cell.text?]
    rw [Wildcard.isMatch_congr _ (Wildcard.SameButCase.visible h)]

/-- A regular expression gives the same for two texts when it is found in both or in neither. -/
theorem tellsAlike_regexp_iff
    {op : Operator} {operand : Value} {negated caseless : Bool}
    (hcolumn : model.column? field = some column) (htype : column.type.takesTexts = true)
    (htest : Clause.testOf model name column op operand =
      .ok (.regexp negated caseless operand.plainText))
    (hs : row.cell column.key = .text s) (ht : other.cell column.key = .text t) :
    (asks field op operand).TellsAlike model name row other ↔
      ∀ node, Pattern.read? operand.plainText.toList = some node →
        Pattern.search node s.toList = Pattern.search node t.toList := by
  have htold : ∀ {row : Row} {s : String} {truth : Truth}, row.cell column.key = .text s →
      ((asks field op operand).HasTruth model name row truth ↔
        ∃ node, Pattern.read? operand.plainText.toList = some node ∧
          Truth.ofBool (Pattern.search node s.toList != negated) = truth) := by
    intro row s truth hs
    rw [hasTruth_pattern_iff hcolumn htest rfl, and_iff_right htype]
    unfold Test.bound Test.truth?
    dsimp only
    rw [hs]
    exact Option.map_eq_some_iff
  constructor
  · intro h node hnode
    have hboth := (h _).mp ((htold hs).mpr ⟨node, hnode, rfl⟩)
    rcases (htold ht).mp hboth with ⟨read, hread, htruth⟩
    rw [hnode] at hread
    cases hread
    revert htruth
    cases negated <;> cases Pattern.search node s.toList <;>
      cases Pattern.search node t.toList <;> decide
  · intro h truth
    rw [htold hs, htold ht]
    refine exists_congr fun node => and_congr_right fun hnode => ?_
    rw [h node hnode]

/-- Rows whose texts differ in case alone.  Both wildcard operators that are to ignore case give the
same for them.  Both operators with regular expressions do so exactly when the expression is found
in both texts or in neither, as it is when the expression ignores case by itself.  All four have the
truth of the operator that does not say that case is ignored. -/
theorem caseless_tellsAlike_iff
    (hcolumn : model.column? field = some column) (htype : column.type.takesTexts = true)
    (hs : row.cell column.key = .text s) (ht : other.cell column.key = .text t)
    (h : SameButCase s.toList t.toList) (name : String) (operand : Value) :
    (∀ op, op = .iLike ∨ op = .notILike →
      (asks field op operand).IsTold model name row ∧
        (asks field op operand).TellsAlike model name row other) ∧
    (∀ op, op = .iRegexp ∨ op = .notIRegexp →
      ((asks field op operand).TellsAlike model name row other ↔
        ∀ node, Pattern.read? operand.plainText.toList = some node →
          Pattern.search node s.toList = Pattern.search node t.toList) ∧
      ((∀ node, Pattern.read? operand.plainText.toList = some node → node.ignoresCase = true) →
        (asks field op operand).TellsAlike model name row other)) ∧
    ∀ op cased, op.cased? = some cased → ∀ truth,
      (asks field op operand).HasTruth model name row truth ↔
        (asks field cased operand).HasTruth model name row truth := by
  refine ⟨?_, ?_, fun op cased hcased truth => hasTruth_cased_iff hcolumn hcased operand⟩
  · rintro op (rfl | rfl)
    · exact tellsAlike_wildcard hcolumn htype rfl hs ht h
    · exact tellsAlike_wildcard hcolumn htype rfl hs ht h
  · intro op hop
    have halike : (asks field op operand).TellsAlike model name row other ↔
        ∀ node, Pattern.read? operand.plainText.toList = some node →
          Pattern.search node s.toList = Pattern.search node t.toList := by
      rcases hop with rfl | rfl
      · exact tellsAlike_regexp_iff hcolumn htype rfl hs ht
      · exact tellsAlike_regexp_iff hcolumn htype rfl hs ht
    refine ⟨halike, fun hignores => halike.mpr ?_⟩
    intro node hnode
    exact Pattern.search_congr (hignores node hnode) h

end Predicate

namespace Sample

/-- The item with a note in capitals, and the one with the same note in small letters. -/
def item01 : Row := rowOf items (itemRows.getD 0 [])

def item02 : Row := rowOf items (itemRows.getD 1 [])

/-- An operand with a flag for its letters, which a dot may stand for. -/
def flagged : Value := .text "(?i)b.LT"

theorem flagged_ignoresCase
    {node : Pattern.Node}
    (h : Pattern.read? flagged.plainText.toList = some node) :
    node.ignoresCase = true := by
  have hall : (Pattern.read? flagged.plainText.toList).all Pattern.Node.ignoresCase = true := by
    decide +kernel
  rwa [h] at hall

theorem caseless_tellsAlike_items :
    item01.cell "note" = .text "Bolt" ∧ item02.cell "note" = .text "bolt" ∧
      SameButCase "Bolt".toList "bolt".toList ∧
      (Predicate.asks "note" .iRegexp flagged).HasTruth items "items" item01 .yes ∧
      (Predicate.asks "note" .iRegexp flagged).TellsAlike items "items" item01 item02 := by
  have hcolumn : items.column? "note" = some (optional "note" (.varchar (some 80))) := by rfl
  have hfirst : item01.cell "note" = .text "Bolt" := by rfl
  have hsecond : item02.cell "note" = .text "bolt" := by rfl
  have hsame : SameButCase "Bolt".toList "bolt".toList := by decide
  have hyes : (Predicate.asks "note" .iRegexp flagged).HasTruth items "items" item01 .yes := by
    decide +kernel
  have halike := (Predicate.caseless_tellsAlike_iff hcolumn rfl hfirst hsecond hsame "items"
    flagged).2.1 .iRegexp (.inl rfl)
  exact ⟨hfirst, hsecond, hsame, hyes, halike.2 fun node => flagged_ignoresCase⟩

/-- Without a flag in the expression, the operator tells the two notes apart. -/
theorem caseless_regexp_tells_case :
    item01 ∈ database.rows items ∧ item02 ∈ database.rows items ∧
      item01.cell "note" = .text "Bolt" ∧ item02.cell "note" = .text "bolt" ∧
      SameButCase "Bolt".toList "bolt".toList ∧
      (Predicate.asks "note" .iRegexp (.text "bolt")).HasTruth items "items" item01 .no ∧
      (Predicate.asks "note" .iRegexp (.text "bolt")).HasTruth items "items" item02 .yes := by
  decide +kernel

end Sample
end RecordApi
