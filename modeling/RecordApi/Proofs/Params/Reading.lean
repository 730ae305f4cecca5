import RecordApi.Api.Failure
import RecordApi.Proofs.Json.Reading
import RecordApi.Proofs.Params.Decoding

/-!
# Readings of a request

A request is read from the values of its parameters, one after the other.  The first value that
cannot be read decides how the request fails.
-/

namespace RecordApi
namespace Params

open Steps

namespace Error

/-- The classes of the errors of a query. -/
def classes : List String :=
  ["MalformedQueryError", "MalformedFilterError"]

/-- A failure is told by an error of the query. -/
def IsTyped (error : Error) : Prop :=
  (Failure.params error).label ∈ classes

instance (error : Error) : Decidable error.IsTyped :=
  inferInstanceAs (Decidable ((Failure.params error).label ∈ classes))

theorem isTyped_iff (error : Error) :
    error.IsTyped ↔ error ∉ [indexNotDecimal, integerTooLong, unnamedParameters] := by
  unfold IsTyped
  cases error <;> simp [Failure.label, Failure.paramsLabel, classes]

end Error

/-- A value that is read for a parameter. -/
inductive Reading where
  | relations (parameter : String) (value : Value)
  | filter (parameter : String) (value : Value)
  | names (parameter : String) (value : Value)

namespace Reading

def value : Reading → Value
  | .relations _ value | .filter _ value | .names _ value => value

def run : Reading → Except Error Unit
  | .relations parameter value => (byRelation parameter value).map fun _ => ()
  | .filter parameter value => (readJson (.filter (.notJson parameter)) value).map fun _ => ()
  | .names parameter value => (nameList parameter value).map fun _ => ()

end Reading

/-- The entries of a parameter by relation. -/
def relationEntries (values : Assoc Value) (parameter : String) : Assoc Value :=
  match byRelation parameter (valueAt values parameter) with
  | .ok (some entries) => entries
  | _ => []

/-- All that a request is read from, in the order in which it is read. -/
def readings (values : Assoc Value) : List Reading :=
  [.relations "relationFields" (valueAt values "relationFields"),
    .relations "relationFilters" (valueAt values "relationFilters"),
    .relations "relationSort" (valueAt values "relationSort"),
    .filter "filters" (valueAt values "filters"),
    .names "fields" (valueAt values "fields"),
    .names "relations" (valueAt values "relations")] ++
  (relationEntries values "relationFields").map
    (fun entry => .names s!"relationFields[{entry.1}]" entry.2) ++
  (relationEntries values "relationFilters").map
    (fun entry => .filter s!"relationFilters[{entry.1}]" entry.2)

/-! ## Reading one after the other -/

theorem relationEntries_of_ok
    {values : Assoc Value} {parameter : String} {entries? : Option (Assoc Value)}
    (h : byRelation parameter (valueAt values parameter) = .ok entries?) :
    relationEntries values parameter = entries?.getD [] := by
  unfold relationEntries
  rw [h]
  cases entries? <;> rfl

theorem readEntries_discard
    {α : Type} (read : String → Value → Except Error α) (entries : Assoc Value) :
    (readEntries read entries).map (fun _ => ()) =
      forM entries fun entry => (read entry.1 entry.2).map fun _ => () := by
  induction entries with
  | nil => rfl
  | cons entry rest ih =>
      rw [List.forM_cons, ← ih, readEntries]
      exact discard_bind fun a _ => discard_bind_pure _

theorem readEntries?_discard
    {α : Type} (read : String → Value → Except Error α) (entries? : Option (Assoc Value)) :
    (readEntries? read entries?).map (fun _ => ()) =
      forM (entries?.getD []) fun entry => (read entry.1 entry.2).map fun _ => () := by
  cases entries? with
  | none => rfl
  | some entries =>
      rw [readEntries?, Option.getD_some, ← readEntries_discard]
      cases readEntries read entries <;> rfl

/-- Reading a request fails as its readings do, one after the other. -/
theorem ofEntries_discard (values : Assoc Value) :
    (ofEntries values).map (fun _ => ()) = forM (readings values) Reading.run := by
  unfold readings ofEntries
  rw [List.forM_append, List.forM_append]
  simp only [List.forM_cons, bind_assoc]
  refine discard_bind fun relationFields hrelationFields => ?_
  refine discard_bind fun relationFilters hrelationFilters => ?_
  refine discard_bind fun relationSort _ => ?_
  refine discard_bind fun filters _ => ?_
  refine discard_bind fun fields _ => ?_
  refine discard_bind fun relations _ => ?_
  rw [relationEntries_of_ok hrelationFields, relationEntries_of_ok hrelationFilters,
    List.forM_map, List.forM_map]
  refine (discard_bind fun fieldsOf _ => discard_bind_pure _).trans ?_
  rw [readEntries?_discard, readEntries?_discard]
  simp only [discard_map]
  rfl

/-! ## Texts that cannot be read -/

/-- A text that starts like JSON has an integer of more digits than are converted. -/
def IsLong (value : Value) : Prop :=
  ∃ s c rest, value = .text s ∧ Text.trimChars s.toList = c :: rest ∧ (c = '\x7b' ∨ c = '[') ∧
    Json.read (c :: rest) = .error .integerTooLong

theorem readJson_of_isLong {value : Value} (h : IsLong value) (malformed : Error) :
    readJson malformed value = .error .integerTooLong := by
  rcases h with ⟨s, c, rest, rfl, htrim, hstart, hlong⟩
  unfold readJson
  dsimp only
  rw [htrim]
  dsimp only
  rw [if_pos hstart, hlong]

theorem readJson_eq_error
    {value : Value} {malformed e : Error} (h : readJson malformed value = .error e) :
    malformed = e ∨ .integerTooLong = e ∧ IsLong value := by
  cases value with
  | text s =>
      unfold readJson at h
      dsimp only at h
      cases htrim : Text.trimChars s.toList with
      | nil =>
          rw [htrim] at h
          cases h
      | cons c rest =>
          rw [htrim] at h
          dsimp only at h
          split at h
          · rename_i hstart
            cases hread : Json.read (c :: rest) with
            | ok value =>
                rw [hread] at h
                cases h
            | error reason =>
                rw [hread] at h
                cases reason with
                | malformed => exact Or.inl (Except.error.inj h)
                | integerTooLong =>
                    exact Or.inr ⟨Except.error.inj h, s, c, rest, rfl, htrim, hstart, hread⟩
          · cases h
  | _ => cases h

namespace Reading

variable {reading : Reading} {e : Error}

theorem run_of_isLong (h : IsLong reading.value) : reading.run = .error .integerTooLong := by
  cases reading with
  | relations parameter value =>
      exact map_eq_error.mpr (bind_eq_error.mpr (Or.inl (readJson_of_isLong h _)))
  | filter parameter value => exact map_eq_error.mpr (readJson_of_isLong h _)
  | names parameter value =>
      exact map_eq_error.mpr (bind_eq_error.mpr (Or.inl (readJson_of_isLong h _)))

/-- What cannot be read is told by an error of the query, but for an integer too long. -/
theorem run_eq_error (h : reading.run = .error e) :
    e.IsTyped ∨ .integerTooLong = e ∧ IsLong reading.value := by
  rw [Error.isTyped_iff]
  cases reading with
  | relations parameter value =>
      rcases bind_eq_error.mp (map_eq_error.mp h) with hread | ⟨read, -, hshape⟩
      · rcases readJson_eq_error hread with rfl | hlong
        · exact Or.inl (by simp)
        · exact Or.inr hlong
      · split at hshape <;> cases hshape
        exact Or.inl (by simp)
  | filter parameter value =>
      rcases readJson_eq_error (map_eq_error.mp h) with rfl | hlong
      · exact Or.inl (by simp)
      · exact Or.inr hlong
  | names parameter value =>
      rcases bind_eq_error.mp (map_eq_error.mp h) with hread | ⟨read, -, hshape⟩
      · rcases readJson_eq_error hread with rfl | hlong
        · exact Or.inl (by simp)
        · exact Or.inr hlong
      · split at hshape <;> cases hshape
        exact Or.inl (by simp)

end Reading

/-- A request whose parameters stand by name fails as the first of its readings that fails. -/
theorem ofEntries_eq_error {values : Assoc Value} {e : Error} :
    ofEntries values = .error e ↔
      ∃ before reading after, readings values = before ++ reading :: after ∧
        (∀ earlier ∈ before, earlier.run = .ok ()) ∧ reading.run = .error e := by
  rw [← forM_eq_error, ← ofEntries_discard, map_eq_error]

end Params
end RecordApi
