import RecordApi.Params.Encoding
import RecordApi.Proofs.Params.Numbering

/-!
# Names of parameters

The items of a query string fold to a map by name, unless all of their names are digits or
empty: such items fold to a list, in which no parameter can be told by its name.
-/

namespace RecordApi
namespace Params

open Steps

variable {entries next result : Assoc Tree} {values : Assoc Value} {value : Value}
variable {item : String × String} {items : List (String × String)} {e : Error}

/-- An item under an index, written or left out, instead of a name. -/
def isNumbered (item : String × String) : Bool :=
  rootOf item == "" || Text.isDigitText (rootOf item)

/-- There are items, but none of them has a name. -/
def Unnamed (items : List (String × String)) : Prop :=
  items ≠ [] ∧ ∀ item ∈ items, isNumbered item = true

instance (items : List (String × String)) : Decidable (Unnamed items) :=
  inferInstanceAs (Decidable (items ≠ [] ∧ ∀ item ∈ items, isNumbered item = true))

theorem isDigitText_resolveSegment (entries : Assoc Tree) (segment : String) :
    Text.isDigitText (resolveSegment entries segment) =
      (segment == "" || Text.isDigitText segment) := by
  by_cases hsegment : segment = ""
  · rw [hsegment]
    exact Text.isDigitText_toString _
  · rw [resolveSegment_of_ne hsegment, beq_false_of_ne hsegment, Bool.false_or]

/-! ## Keys of the items -/

theorem mem_keys_of_assignItem (h : assignItem entries item = .ok next) (key : String) :
    key ∈ Assoc.keys next ↔
      key ∈ Assoc.keys entries ∨ key = resolveSegment entries (rootOf item) := by
  rcases exists_child_of_assignItem h with ⟨segment, rest, child, hsplit, -, rfl⟩
  unfold rootOf
  rw [hsplit]
  exact Assoc.mem_keys_put

theorem ne_nil_of_assignItem (h : assignItem entries item = .ok next) : next ≠ [] := by
  rcases exists_child_of_assignItem h with ⟨segment, rest, child, -, -, rfl⟩
  exact put_ne_nil _ _ _

theorem eq_nil_of_foldlM (h : items.foldlM assignItem entries = .ok result) :
    result = [] ↔ entries = [] ∧ items = [] := by
  induction items generalizing entries with
  | nil =>
      cases h
      exact (and_iff_left rfl).symm
  | cons item rest ih =>
      rw [List.foldlM_cons] at h
      rcases bind_eq_ok.mp h with ⟨next, hnext, hrest⟩
      rw [ih hrest]
      exact iff_of_false (fun hboth => ne_nil_of_assignItem hnext hboth.1)
        fun hboth => List.cons_ne_nil _ _ hboth.2

theorem digits_of_assignItem (h : assignItem entries item = .ok next) :
    (∀ key ∈ Assoc.keys next, Text.isDigitText key = true) ↔
      (∀ key ∈ Assoc.keys entries, Text.isDigitText key = true) ∧ isNumbered item = true := by
  unfold isNumbered
  rw [← isDigitText_resolveSegment entries]
  simp only [mem_keys_of_assignItem h, or_imp, forall_and, forall_eq]

theorem digits_of_foldlM (h : items.foldlM assignItem entries = .ok result) :
    (∀ key ∈ Assoc.keys result, Text.isDigitText key = true) ↔
      (∀ key ∈ Assoc.keys entries, Text.isDigitText key = true) ∧
        ∀ item ∈ items, isNumbered item = true := by
  induction items generalizing entries with
  | nil =>
      cases h
      exact (and_iff_left fun _ hitem => absurd hitem List.not_mem_nil).symm
  | cons item rest ih =>
      rw [List.foldlM_cons] at h
      rcases bind_eq_ok.mp h with ⟨next, hnext, hrest⟩
      rw [ih hrest, digits_of_assignItem hnext, List.forall_mem_cons, and_assoc]

theorem unnamed_iff (h : items.foldlM assignItem [] = .ok result) :
    Unnamed items ↔ result ≠ [] ∧ ∀ key ∈ Assoc.keys result, Text.isDigitText key = true := by
  rw [Ne, eq_nil_of_foldlM h, digits_of_foldlM h]
  simp [Unnamed, Assoc.keys]

/-! ## What the items fold to -/

theorem foldMap_of_named
    (h : ¬ (values ≠ [] ∧ ∀ key ∈ Assoc.keys values, Text.isDigitText key = true)) :
    foldMap values = .ok (.map values) := by
  by_cases hempty : values = []
  · rw [hempty]
    rfl
  · have hother : ¬ ∀ key ∈ Assoc.keys values, Text.isDigitText key = true :=
      fun hdigits => h ⟨hempty, hdigits⟩
    push Not at hother
    rcases hother with ⟨key, hkey, hnondigit⟩
    exact foldMap_of_nondigit hkey (Bool.eq_false_iff.mpr hnondigit)

theorem exists_entries_of_fold (h : fold items = .ok value) :
    ∃ trees values, items.foldlM assignItem [] = .ok trees ∧ foldEntries trees = .ok values ∧
      foldMap values = .ok value := by
  unfold fold at h
  rcases bind_eq_ok.mp h with ⟨trees, htrees, h⟩
  rcases bind_eq_ok.mp h with ⟨values, hvalues, hvalue⟩
  exact ⟨trees, values, htrees, hvalues, hvalue⟩

theorem unnamed_iff_of_foldEntries
    (htrees : items.foldlM assignItem [] = .ok result) (hvalues : foldEntries result = .ok values) :
    Unnamed items ↔ values ≠ [] ∧ ∀ key ∈ Assoc.keys values, Text.isDigitText key = true := by
  have hkeys := keys_of_foldEntries hvalues
  have hempty : values = [] ↔ result = [] :=
    List.map_eq_nil_iff.symm.trans ((Eq.congr_left hkeys).trans List.map_eq_nil_iff)
  rw [unnamed_iff htrees, hkeys, Ne, Ne, hempty]

theorem exists_map_iff_of_fold (h : fold items = .ok value) :
    (∃ values, value = .map values) ↔ ¬ Unnamed items := by
  rcases exists_entries_of_fold h with ⟨trees, values, htrees, hvalues, hvalue⟩
  rw [unnamed_iff_of_foldEntries htrees hvalues]
  -- the two cases are those of `foldMap` itself
  by_cases hlist : values ≠ [] ∧ ∀ key ∈ Assoc.keys values, Text.isDigitText key = true
  · rw [foldMap_of_digits hlist.1 hlist.2] at hvalue
    rcases map_eq_ok.mp hvalue with ⟨list, -, rfl⟩
    exact iff_of_false (by rintro ⟨_, ⟨⟩⟩) (not_not_intro hlist)
  · rw [foldMap_of_named hlist] at hvalue
    exact iff_of_true ⟨values, (Except.ok.inj hvalue).symm⟩ hlist

/-! ## Decoding -/

theorem decode_of_map (h : fold items = .ok (.map values)) : decode items = ofEntries values := by
  unfold decode
  rw [h]
  rfl

theorem decode_of_unnamed (h : fold items = .ok value) (hunnamed : Unnamed items) :
    decode items = .error .unnamedParameters := by
  have hmap : ¬ ∃ values, value = .map values := fun hmap =>
    (exists_map_iff_of_fold h).mp hmap hunnamed
  unfold decode
  rw [h]
  cases value with
  | map values => exact absurd ⟨values, rfl⟩ hmap
  | _ => rfl

theorem decode_of_error (h : fold items = .error e) : decode items = .error e := by
  unfold decode
  rw [h]
  rfl

/-- A request with a name is read from all that its items fold to. -/
theorem decode_of_named (hnamed : ¬ Unnamed items) :
    decode items =
      items.foldlM assignItem [] >>= fun trees => foldEntries trees >>= ofEntries := by
  unfold decode fold
  cases htrees : items.foldlM assignItem [] with
  | error e => rfl
  | ok trees =>
      change (foldEntries trees >>= foldMap >>= _) = foldEntries trees >>= ofEntries
      cases hvalues : foldEntries trees with
      | error e => rfl
      | ok values =>
          rw [unnamed_iff_of_foldEntries htrees hvalues] at hnamed
          change (foldMap values >>= _) = ofEntries values
          rw [foldMap_of_named hnamed]
          rfl

end Params
end RecordApi
