import RecordApi.Proofs.Pattern.Wildcards
import RecordApi.Proofs.Storage.Asking
import RecordApi.Proofs.Storage.Ranging

/-!
# Rows that hold a text in a place

Three operators look for a text at the start, at the end or anywhere in the text of a column.  A
query for one of them runs whatever the table holds, and selects the rows that have the text there
up to the case of ASCII letters: wildcards and escape marks in it stand for themselves.
-/

namespace RecordApi

open Wildcard

/-- The place in which an operator looks for its operand. -/
def Operator.placement? : Operator → Option Placement
  | .startsWith => some .atStart
  | .endsWith => some .atEnd
  | .substring => some .anywhere
  | _ => none

theorem Clause.testOf_of_placement?
    {op : Operator} {placement : Placement}
    (hop : op.placement? = some placement) (model : Model) (name : String) (column : Column)
    (operand : Value) :
    testOf model name column op operand = .ok (.holdsText placement operand.plainText) := by
  cases op <;> cases hop <;> rfl

/-- A query for a text in a place of a column that takes texts runs, and selects the rows that have
the text there up to case.  Of a text in the database only what stands before the first NUL is in sight. -/
theorem Store.mem_selected_placed_iff
    {store : Store} {db : Database} {field text : String} {column : Column} {op : Operator}
    {placement : Placement}
    (hcolumn : store.model.column? field = some column)
    (htype : column.type.takesTexts = true) (hop : op.placement? = some placement)
    (htext : '\x00' ∉ text.toList) :
    (∃ selection, store.Runs db (Query.asking field op (.text text)) selection []) ∧
      ∀ row ∈ db.rows store.model, ∀ s, (row.cell column.key).text? = some s →
        (row ∈ store.selected db (Query.asking field op (.text text)) ↔
          placement.Holds (visible s) text.toList) ∧
        ('\x00' ∉ s.toList →
          (row ∈ store.selected db (Query.asking field op (.text text)) ↔
            placement.Holds s.toList text.toList)) := by
  have htest := Clause.testOf_of_placement? hop store.model store.name column (.text text)
  have hbound : ∀ binding ∈ (Test.holdsText placement text).bindings column,
      ∃ cell, binding = .ok cell := by
    intro binding hbinding
    rw [Test.bindings, if_pos htype] at hbinding
    cases hbinding
  refine ⟨runs_asking hcolumn htest rfl hbound fun row _ => ⟨_, rfl⟩, ?_⟩
  intro row hrow s hs
  have hselected : row ∈ store.selected db (Query.asking field op (.text text)) ↔
      placement.Holds (visible s) text.toList := by
    rw [mem_selected_asking hcolumn htest hbound rfl hrow,
      ← Test.matchesEscaped_iff placement s htext]
    unfold Test.ofText
    rw [hs]
    change Truth.ofBool (Test.matchesEscaped _ _ != false) = .yes ↔ _
    rw [Bool.bne_false, Truth.ofBool_eq_yes]
    exact Iff.rfl
  refine ⟨hselected, ?_⟩
  intro hplain
  rw [hselected, visible_eq_self hplain]

namespace Sample

/-- A note is found by a start in which both wildcards stand for themselves. -/
theorem item05_mem_selected_placed :
    item05 ∈ database.rows items ∧ (item05.cell "note").text? = some "a_b%c\\d" ∧
      item05 ∈ itemStore.selected database (Query.asking "note" .startsWith (.text "A_b%C")) := by
  have hrow : item05 ∈ database.rows items := by decide +kernel
  have hnote : (item05.cell "note").text? = some "a_b%c\\d" := by rfl
  have hcolumn : itemStore.model.column? "note" = some (optional "note" (.varchar (some 80))) := by
    rfl
  have hop : Operator.startsWith.placement? = some .atStart := rfl
  have htext : '\x00' ∉ "A_b%C".toList := by decide
  have hstart : Placement.atStart.Holds "a_b%c\\d".toList "A_b%C".toList :=
    ⟨"a_b%c".toList, ⟨"\\d".toList, rfl⟩, rfl⟩
  have hplaced := (Store.mem_selected_placed_iff hcolumn rfl hop htext).2 item05 hrow _ hnote
  exact ⟨hrow, hnote, (hplaced.2 (by decide)).mpr hstart⟩

end Sample
end RecordApi
