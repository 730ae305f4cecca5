import RecordApi.Proofs.Calendar.Instants
import RecordApi.Proofs.Conversion.Moments
import RecordApi.Proofs.Steps

/-!
# Operands that are refused

An operand that cannot be converted is refused with an error that names its field and what it should
have been.  The one exception is a timestamp that is written well, but whose instant lies outside of
the calendar.
-/

namespace RecordApi
namespace Operand

open Steps

variable {field : String} {kind : Kind} {v : Value} {error : Error}

/-- What an operand of a kind should be, if it is converted at all. -/
def Expected.ofKind? : Kind → Option Expected
  | .int | .float | .decimal => some .number
  | .bool => some .boolean
  | .date => some .date
  | .timestamp => some .timestamp
  | .uuid => some .uuid
  | .text | .bytes | .untyped => none

/-! ## The refusals of each conversion -/

theorem bool_eq_error
    (h : bool field v = .error error) :
    error = .invalid field .boolean := by
  unfold bool at h
  split at h
  · cases h
  · split at h
    · cases h
    · split at h
      · cases h
      · cases h
        rfl

theorem number_eq_error
    (h : number field v = .error error) :
    error = .invalid field .number := by
  unfold number at h
  split at h
  · cases h
  · cases h
    rfl

theorem date_eq_error
    (h : date field v = .error error) :
    error = .invalid field .date := by
  unfold date at h
  split at h
  · cases h
  · cases h
  · dsimp only at h
    split at h
    · cases h
    · cases h
      rfl

theorem uuid_eq_error
    (h : uuid field v = .error error) :
    error = .invalid field .uuid := by
  unfold uuid at h
  split at h
  · cases h
  · split at h
    · cases h
    · cases h
      rfl

/-- An operand writes a timestamp whose instant lies outside of the calendar. -/
inductive LeavesCalendar : Kind → Value → Prop
  | intro {v : Value} {t : Timestamp} (plain : ∀ u, v ≠ .timestamp u)
      (written : writtenTimestamp? v = some t) (outside : ¬ Timestamp.InCalendar t.instant) :
      LeavesCalendar .timestamp v

theorem timestamp_eq_error
    (h : timestamp field v = .error error) :
    error = .invalid field .timestamp ∨ error = .beyondCalendar ∧ LeavesCalendar .timestamp v := by
  have hplain : ∀ u, v ≠ .timestamp u := by
    rintro u rfl
    cases h
  rw [timestamp_eq field hplain] at h
  split at h
  · cases h
    exact .inl rfl
  · rename_i t hwritten
    split at h
    · cases h
    · rename_i hnone
      cases h
      exact .inr ⟨rfl, .intro hplain hwritten (t.toUniversal?_eq_none_iff.mp hnone)⟩

/-! ## Refusals by the kind of the column -/

/-- An operand is refused with its field and what was expected, or it leaves the calendar. -/
theorem coerce_eq_error
    (h : coerce field kind v = .error error) :
    (∃ expected, Expected.ofKind? kind = some expected ∧ error = .invalid field expected) ∨
      error = .beyondCalendar ∧ LeavesCalendar kind v := by
  unfold coerce at h
  split at h
  · cases h
  · cases kind with
    | bool => exact .inl ⟨_, rfl, bool_eq_error (map_eq_error.mp h)⟩
    | int | float | decimal => exact .inl ⟨_, rfl, number_eq_error (map_eq_error.mp h)⟩
    | date => exact .inl ⟨_, rfl, date_eq_error (map_eq_error.mp h)⟩
    | uuid => exact .inl ⟨_, rfl, uuid_eq_error (map_eq_error.mp h)⟩
    | timestamp =>
        rcases timestamp_eq_error (map_eq_error.mp h) with hinvalid | hbeyond
        · exact .inl ⟨_, rfl, hinvalid⟩
        · exact .inr hbeyond
    | text | bytes | untyped => cases h

theorem timestamp_of_leavesCalendar
    (field : String) (h : LeavesCalendar kind v) :
    kind = .timestamp ∧ timestamp field v = .error .beyondCalendar := by
  cases h with
  | @intro v t hplain hwritten houtside =>
      rw [timestamp_eq field hplain, hwritten]
      dsimp only
      rw [t.toUniversal?_eq_none_iff.mpr houtside]
      exact ⟨rfl, rfl⟩

theorem coerce_of_leavesCalendar
    (field : String) (h : LeavesCalendar kind v) :
    coerce field kind v = .error .beyondCalendar := by
  rcases timestamp_of_leavesCalendar field h with ⟨rfl, hbeyond⟩
  unfold coerce
  split
  · cases hbeyond
  · dsimp only
    rw [hbeyond]
    rfl

/-- An operand is converted, or refused with its field and what was expected, exactly unless it is a
timestamp that leaves the calendar.  Then it fails without naming the field. -/
theorem coerced_or_invalid_iff (field : String) (kind : Kind) (v : Value) :
    (((∃ w, coerce field kind v = .ok w) ∨ ∃ expected, Expected.ofKind? kind = some expected ∧
        coerce field kind v = .error (.invalid field expected)) ↔ ¬ LeavesCalendar kind v) ∧
      (LeavesCalendar kind v → coerce field kind v = .error .beyondCalendar) := by
  refine ⟨⟨?_, ?_⟩, coerce_of_leavesCalendar field⟩
  · intro h hleaves
    have hbeyond := coerce_of_leavesCalendar field hleaves
    rcases h with ⟨w, hw⟩ | ⟨expected, _, hinvalid⟩
    · rw [hw] at hbeyond
      cases hbeyond
    · rw [hinvalid] at hbeyond
      cases hbeyond
  · intro hstays
    cases hcoerce : coerce field kind v with
    | ok w => exact .inl ⟨w, rfl⟩
    | error e =>
        rcases coerce_eq_error hcoerce with ⟨expected, hexpected, rfl⟩ | ⟨_, hleaves⟩
        · exact .inr ⟨expected, hexpected, rfl⟩
        · exact absurd hleaves hstays

end Operand

namespace Sample

/-- The first hours of the year 1 on a clock that is ahead of universal time lie outside of the
calendar. -/
theorem first_hours_leave_calendar :
    ¬ ((∃ w, Operand.coerce "seen_at" .timestamp (.text "0001-01-01T00:00:00+05:00") = .ok w) ∨
      ∃ expected, Operand.coerce "seen_at" .timestamp (.text "0001-01-01T00:00:00+05:00") =
        .error (.invalid "seen_at" expected)) := by
  have hwritten : Operand.writtenTimestamp? (.text "0001-01-01T00:00:00+05:00") =
      some ⟨Date.first, ⟨0, by decide⟩, some 18000000000⟩ := by
    decide
  have hbeyond := Operand.coerce_of_leavesCalendar "seen_at"
    (.intro (fun _ => Value.noConfusion) hwritten (by decide))
  rw [hbeyond]
  rintro (⟨w, hw⟩ | ⟨expected, hinvalid⟩)
  · cases hw
  · cases hinvalid

end Sample
end RecordApi
