import RecordApi.Proofs.Storage.Sorting
import RecordApi.Proofs.Text.Cases
import RecordApi.Query.Order
import RecordApi.Sample.Schema

/-!
# Fields and directions

A sort is two words around a colon.  They may change places exactly when one of them is a direction
and the other is not, or when they are the same.  A field with a direction is then an order by a
column, up or down, unless there is no such column; it is never a direction that a store refuses.
-/

namespace RecordApi

open Text

namespace Direction

variable {word : String} {direction : Direction}

/-- A word is a direction in some letter case. -/
def IsWord (word : String) : Prop :=
  SameButCase word.toList "asc".toList ∨ SameButCase word.toList "desc".toList

instance (word : String) : Decidable (IsWord word) :=
  inferInstanceAs (Decidable (_ ∨ _))

/-- Rows that go up or down by the cells of one column. -/
def Sorts (direction : Direction) (column : Column) (rows : List Row) : Prop :=
  match direction with
  | .ascending => rows.Pairwise fun a b => Cell.order (a.cell column.key) (b.cell column.key) ≠ .gt
  | .descending => rows.Pairwise fun a b => Cell.order (a.cell column.key) (b.cell column.key) ≠ .lt
  | .unrecognised _ => False

/-- A word names a direction up or down, which is written as the word in capitals. -/
structure Names (word : String) (direction : Direction) : Prop where
  text_eq : direction.text = String.ofList (word.toList.map Char.toUpper)
  known : direction = .ascending ∨ direction = .descending

theorem lower_eq_iff
    {name : String}
    (hname : name.toList.map Char.toLower = name.toList) :
    String.ofList (word.toList.map Char.toLower) = name ↔ SameButCase word.toList name.toList := by
  unfold SameButCase
  rw [hname, ← String.toList_inj, String.toList_ofList]

theorem upper_eq
    {name : String}
    (h : SameButCase word.toList name.toList) :
    word.toList.map Char.toUpper = name.toList.map Char.toUpper := by
  have hupper := congrArg (List.map Char.toUpper) h
  simpa only [List.map_map, Function.comp_def, toUpper_toLower] using hupper

theorem ofWord?_of_isWord
    (h : IsWord word) :
    ∃ direction, ofWord? word = some direction ∧ Names word direction := by
  unfold ofWord?
  rcases h with h | h
  · rw [(lower_eq_iff (by decide)).mpr h]
    refine ⟨.ascending, rfl, ?_, .inl rfl⟩
    rw [upper_eq h]
    rfl
  · rw [(lower_eq_iff (by decide)).mpr h]
    refine ⟨.descending, rfl, ?_, .inr rfl⟩
    rw [upper_eq h]
    rfl

theorem ofWord?_of_not_isWord
    (h : ¬ IsWord word) :
    ofWord? word = none := by
  unfold ofWord?
  split
  · rename_i hlower
    exact absurd (.inl ((lower_eq_iff (by decide)).mp hlower)) h
  · rename_i hlower
    exact absurd (.inr ((lower_eq_iff (by decide)).mp hlower)) h
  · rfl

end Direction

/-! ## Orders by one column -/

namespace SortKey

open Storage

variable {model : Model} {name field : String} {direction : Direction}

/-- What a store makes of a field and a direction: an order of rows by the column, or the error that
there is no such column. -/
inductive Orders (model : Model) (name field : String) (direction : Direction) :
    Except StoreError (List SortKey) → Prop
  | sorts {column : Column} {keys : List SortKey} (hcolumn : model.column? field = some column)
      (hperm : ∀ rows, (sortRows keys rows).Perm rows)
      (hsorts : ∀ rows, direction.Sorts column (sortRows keys rows)) :
      Orders model name field direction (.ok keys)
  | unknown (hcolumn : model.column? field = none) :
      Orders model name field direction (.error (.unknownField name field))

theorem rowOrder_singleton (key : SortKey) (a b : Row) : rowOrder [key] a b = keyOrder key a b :=
  Ordering.then_eq

theorem sorts_sortRows
    (column : Column) (descends : Bool) (rows : List Row) :
    (if descends then Direction.descending else .ascending).Sorts column
      (sortRows [⟨column, some descends⟩] rows) := by
  have hsorted := sorted_sortRows [⟨column, some descends⟩] rows
  cases descends with
  | false =>
      refine hsorted.imp fun {a b} hle => ?_
      rwa [rowOrder_singleton] at hle
  | true =>
      refine hsorted.imp fun {a b} hle hlt => hle ?_
      rw [rowOrder_singleton]
      exact congrArg Ordering.swap hlt

theorem orders_of_known
    (model : Model) (name field : String)
    (hknown : direction = .ascending ∨ direction = .descending) :
    Orders model name field direction (ofOrder model name (some [⟨field, some direction⟩])) := by
  unfold ofOrder
  rw [Option.getD_some, List.mapM_cons, List.mapM_nil]
  unfold ofItem Clause.column
  dsimp only
  cases hcolumn : model.column? field with
  | none => exact .unknown hcolumn
  | some column =>
      rcases hknown with rfl | rfl
      · exact .sorts hcolumn (perm_sortRows _) (sorts_sortRows column false)
      · exact .sorts hcolumn (perm_sortRows _) (sorts_sortRows column true)

end SortKey

/-! ## Words that change places -/

namespace SortOrder

open Direction

variable {a b : String}

theorem splitColon_append
    (b : String) (ha : ':' ∉ a.toList) :
    splitColon (a ++ ":" ++ b) = (a, some b) := by
  have hplain : ∀ c ∈ a.toList, (decide (c ≠ ':')) = true := by
    intro c hc
    rw [decide_eq_true_eq]
    rintro rfl
    exact ha hc
  have htoList : (a ++ ":" ++ b).toList = a.toList ++ ':' :: b.toList := by simp
  unfold splitColon
  rw [htoList]
  dsimp only
  rw [List.dropWhile_append_of_pos hplain, List.takeWhile_append_of_pos hplain]
  simp

theorem compile_words
    (b : String) (ha : ':' ∉ a.toList) :
    compile (.text (a ++ ":" ++ b)) = some [itemOfWords a b] := by
  have hsome : (Value.text (a ++ ":" ++ b)).isFalsy = false := by
    unfold Value.isFalsy
    simp
  have hitem : ofText (a ++ ":" ++ b) = itemOfWords a b := by
    unfold ofText
    rw [splitColon_append b ha]
  unfold compile
  rw [hsome]
  exact congrArg (fun item => some [item]) hitem

/-- A direction may stand on either side of its field. -/
theorem itemOfWords_of_isWord
    (ha : ¬ IsWord a) (hb : IsWord b) :
    ∃ direction, Names b direction ∧ itemOfWords a b = ⟨a, some direction⟩ ∧
      itemOfWords b a = ⟨a, some direction⟩ := by
  rcases ofWord?_of_isWord hb with ⟨direction, hword, hnames⟩
  refine ⟨direction, hnames, ?_, ?_⟩ <;>
    (unfold itemOfWords; rw [hword, ofWord?_of_not_isWord ha])

/-- Otherwise the first word is the field. -/
theorem field_itemOfWords
    (h : IsWord a → IsWord b) :
    (itemOfWords a b).field = a := by
  unfold itemOfWords
  by_cases hb : IsWord b
  · rcases ofWord?_of_isWord hb with ⟨direction, hword, _⟩
    rw [hword]
    cases ofWord? a <;> rfl
  · rw [ofWord?_of_not_isWord hb, ofWord?_of_not_isWord fun ha => hb (h ha)]

/-- Two words may change places around a colon exactly when they are the same or one of them alone
is a direction.  The other one is then the field, with the direction in capitals, and the order is
one of rows up or down by the column of that name, unless there is none. -/
theorem compile_comm_iff
    (ha : ':' ∉ a.toList) (hb : ':' ∉ b.toList) :
    (compile (.text (a ++ ":" ++ b)) = compile (.text (b ++ ":" ++ a)) ↔
      a = b ∨ IsWord a ∧ ¬ IsWord b ∨ ¬ IsWord a ∧ IsWord b) ∧
    (¬ IsWord a → IsWord b → ∃ direction,
      direction.text = String.ofList (b.toList.map Char.toUpper) ∧
      compile (.text (a ++ ":" ++ b)) = some [⟨a, some direction⟩] ∧
      compile (.text (b ++ ":" ++ a)) = some [⟨a, some direction⟩] ∧
      ∀ model name, SortKey.Orders model name a direction
        (SortKey.ofOrder model name (some [⟨a, some direction⟩]))) := by
  rw [compile_words b ha, compile_words a hb]
  constructor
  · constructor
    · intro hsame
      have hitem : itemOfWords a b = itemOfWords b a := by simpa using hsame
      by_cases hworda : IsWord a
      · by_cases hwordb : IsWord b
        · have hfield := congrArg OrderItem.field hitem
          rw [field_itemOfWords fun _ => hwordb, field_itemOfWords fun _ => hworda] at hfield
          exact .inl hfield
        · exact .inr (.inl ⟨hworda, hwordb⟩)
      · by_cases hwordb : IsWord b
        · exact .inr (.inr ⟨hworda, hwordb⟩)
        · have hfield := congrArg OrderItem.field hitem
          rw [field_itemOfWords fun h => absurd h hworda,
            field_itemOfWords fun h => absurd h hwordb] at hfield
          exact .inl hfield
    · rintro (rfl | ⟨hworda, hwordb⟩ | ⟨hworda, hwordb⟩)
      · rfl
      · rcases itemOfWords_of_isWord hwordb hworda with ⟨direction, _, hfirst, hsecond⟩
        rw [hfirst, hsecond]
      · rcases itemOfWords_of_isWord hworda hwordb with ⟨direction, _, hfirst, hsecond⟩
        rw [hfirst, hsecond]
  · intro hworda hwordb
    rcases itemOfWords_of_isWord hworda hwordb with ⟨direction, hnames, hfirst, hsecond⟩
    rw [hfirst, hsecond]
    exact ⟨direction, hnames.text_eq, rfl, rfl,
      fun model name => SortKey.orders_of_known model name a hnames.known⟩

end SortOrder

namespace Sample

open SortOrder

/-- A direction in mixed case may stand on either side of a field. -/
theorem compile_comm_name :
    ':' ∉ "name".toList ∧ ':' ∉ "dEsc".toList ∧
      compile (.text "name:dEsc") = compile (.text "dEsc:name") ∧
      compile (.text "dEsc:name") = some [⟨"name", some .descending⟩] ∧
      SortKey.Orders authors "authors" "name" .descending
        (SortKey.ofOrder authors "authors" (some [⟨"name", some .descending⟩])) := by
  have hname : ':' ∉ "name".toList := by decide
  have hword : ':' ∉ "dEsc".toList := by decide
  rcases compile_comm_iff hname hword with ⟨hcomm, hitem⟩
  rcases hitem (by decide) (by decide) with ⟨direction, htext, _, hitem, horders⟩
  have hdirection : direction = .descending := by
    have hcompiled : compile (.text "dEsc:name") = some [⟨"name", some .descending⟩] := by decide
    simpa using hitem.symm.trans hcompiled
  subst hdirection
  exact ⟨hname, hword, hcomm.mpr (.inr (.inr ⟨by decide, by decide⟩)), hitem,
    horders authors "authors"⟩

end Sample
end RecordApi
