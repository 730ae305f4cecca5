import RecordApi.Proofs.Calendar.Instants
import RecordApi.Proofs.Storage.Readable

/-!
# Timestamps written with an offset

A local time is written with a date, a separator and a time of day, and its offset from universal
time behind.  An operand of a column of timestamps that is written so is converted to the timestamp
of universal time that shows the same instant, so that two such operands are compared as their
instants.  Without an offset the local time itself is what the operand is converted to.
-/

namespace RecordApi

open Moment

/-! ## Written timestamps -/

namespace Timestamp

/-- The time of day, where the places behind the seconds may be left out if they are zeros. -/
inductive WritesClock (t : Timestamp) : List Char → Prop
  | seconds (whole : t.microsecond = 0) :
      WritesClock t (Date.padded 2 t.hour ++ ':' :: (Date.padded 2 t.minute ++
        ':' :: Date.padded 2 t.second))
  | places : WritesClock t (storedClock t)

/-- The offset: nothing where it is not known, the mark of universal time, or a sign with hours and
minutes. -/
inductive WritesOffset : Option Int → List Char → Prop
  | unknown : WritesOffset none []
  | zulu : WritesOffset (some 0) ['Z']
  | signed {minutes : Int} {sign : Char} (less_than_day : minutes.natAbs < 24 * 60)
      (sign_eq : sign = '+' ∧ 0 ≤ minutes ∨ sign = '-' ∧ minutes ≤ 0) :
      WritesOffset (some (minutes * 60000000))
        (sign :: (Date.padded 2 (minutes.natAbs / 60) ++
          ':' :: Date.padded 2 (minutes.natAbs % 60)))

/-- A text writes a timestamp. -/
inductive Writes (t : Timestamp) : String → Prop
  | intro {separator : Char} {clock behind : List Char}
      (separates : separator = 'T' ∨ separator = ' ') (writes_clock : t.WritesClock clock)
      (writes_offset : WritesOffset t.offset behind) :
      Writes t (String.ofList (t.date.chars ++ separator :: (clock ++ behind)))

variable {t u : Timestamp} {s : String}

theorem WritesClock.clockForm
    {clock : List Char}
    (h : t.WritesClock clock) :
    ClockForm clock t.hour t.minute t.second t.microsecond := by
  cases h with
  | seconds whole =>
      rcases isDigits_clock t with ⟨hhour, hminute, hsecond, _⟩
      have hform := ClockForm.seconds hhour hminute hsecond
      rwa [natOfAscii_padded, natOfAscii_padded, natOfAscii_padded, ← whole] at hform
  | places => exact clockForm_storedClock t

theorem WritesOffset.offsetForm
    {offset : Option Int} {behind : List Char}
    (h : WritesOffset offset behind) :
    OffsetForm behind offset := by
  cases h with
  | unknown => exact .none
  | zulu => exact .zulu
  | @signed minutes sign hless hsign =>
      have hhours : minutes.natAbs / 60 < 24 := by omega
      have hminutes : minutes.natAbs % 60 < 60 := by omega
      have hoffset : minutes * 60000000 =
          signedOffset (sign == '-') (minutes.natAbs / 60) (minutes.natAbs % 60) := by
        unfold signedOffset
        rcases hsign with ⟨rfl, hsign⟩ | ⟨rfl, hsign⟩
        · rw [if_neg (by decide)]
          omega
        · rw [if_pos (by decide)]
          omega
      have hform := OffsetForm.signed (hsign.imp And.left And.left)
        (isDigits_padded (by decide) (by omega)) (.inr rfl) (isDigits_padded (by decide) (by omega))
        ((natOfAscii_padded 2 _).trans_lt hhours) ((natOfAscii_padded 2 _).trans_lt hminutes)
      rwa [natOfAscii_padded, natOfAscii_padded, ← hoffset] at hform

theorem Writes.writtenForm
    (h : t.Writes s) :
    WrittenForm s.toList t := by
  cases h with
  | intro hseparates hclock hoffset =>
      rw [String.toList_ofList]
      refine .intro (civilForm_chars t.date) ?_ hclock.clockForm (clockOf?_eq t) hoffset.offsetForm
      rcases hseparates with rfl | rfl <;> rfl

end Timestamp

/-! ## Operands -/

namespace Operand

open Timestamp

variable {field : String} {t t' u u' : Timestamp} {s s' : String}

theorem coerce_of_written
    (field : String) (h : writtenTimestamp? (.text s) = some t) :
    coerce field .timestamp (.text s) =
      match t.toUniversal? with
      | some u => .ok (.timestamp u)
      | none => .error .beyondCalendar := by
  change (timestamp field (.text s)).map Value.timestamp = _
  rw [timestamp_eq field (fun _ => Value.noConfusion), h]
  dsimp only
  cases t.toUniversal? <;> rfl

theorem coerce_of_none
    (field : String) (h : writtenTimestamp? (.text s) = some t) (hnone : t.offset = none) :
    coerce field .timestamp (.text s) = .ok (.timestamp t) := by
  rw [coerce_of_written field h, toUniversal?_of_none hnone]

/-- An operand with an offset is converted to the timestamp of universal time with its instant. -/
theorem coerce_moved_iff
    (h : t.Writes s) (hoffset : t.offset ≠ none) :
    coerce field .timestamp (.text s) = .ok (.timestamp u) ↔
      u.localMicros = t.instant ∧ u.offset = some 0 := by
  rw [coerce_of_written field (writtenTimestamp?_of_writtenForm h.writtenForm),
    ← toUniversal?_eq_some_iff hoffset]
  cases t.toUniversal? with
  | none => exact iff_of_false (fun heq => nomatch heq) (fun heq => nomatch heq)
  | some found => simp only [Except.ok.injEq, Value.timestamp.injEq, Option.some_inj]

theorem exists_moved
    (field : String) (h : t.Writes s) (hoffset : t.offset ≠ none) (hin : InCalendar t.instant) :
    ∃ u, coerce field .timestamp (.text s) = .ok (.timestamp u) := by
  cases huniversal : t.toUniversal? with
  | none => exact absurd hin (t.toUniversal?_eq_none_iff.mp huniversal)
  | some u =>
      have hmoved := (toUniversal?_eq_some_iff hoffset).mp huniversal
      exact ⟨u, (coerce_moved_iff h hoffset).mpr hmoved⟩

/-- A timestamp that is written with an offset keeps its instant, as long as this lies in the
calendar: it is converted to the timestamp of universal time that shows the instant.  Two such
timestamps are the same, or one is before the other, as their instants are.  A timestamp without an
offset is kept as it is, and a date alone is its midnight. -/
theorem coerce_keeps_instant (field : String) :
    (∀ (t : Timestamp) (s : String), t.Writes s → t.offset ≠ none → InCalendar t.instant →
      ∃ u : Timestamp, coerce field .timestamp (.text s) = .ok (.timestamp u) ∧
        u.offset = some 0 ∧ u.instant = t.instant) ∧
    (∀ (t t' u u' : Timestamp) (s s' : String), t.Writes s → t.offset ≠ none →
      t'.Writes s' → t'.offset ≠ none →
      coerce field .timestamp (.text s) = .ok (.timestamp u) →
      coerce field .timestamp (.text s') = .ok (.timestamp u') →
      (u = u' ↔ t.instant = t'.instant) ∧ (u.reading < u'.reading ↔ t.instant < t'.instant)) ∧
    (∀ (t : Timestamp) (s : String), t.Writes s → t.offset = none →
      coerce field .timestamp (.text s) = .ok (.timestamp t)) ∧
    ∀ date : Date, coerce field .timestamp (.text date.text) =
      .ok (.timestamp (.midnight date)) := by
  refine ⟨?_, ?_, ?_, ?_⟩
  · intro t s h hoffset hin
    rcases exists_moved field h hoffset hin with ⟨u, hu⟩
    rcases (coerce_moved_iff h hoffset).mp hu with ⟨hmicros, hzero⟩
    exact ⟨u, hu, hzero, (instant_of_zero hzero).trans hmicros⟩
  · -- both results are on the clock of universal time, which shows the instants themselves
    intro t t' u u' s s' h hoffset h' hoffset' hu hu'
    rcases (coerce_moved_iff h hoffset).mp hu with ⟨hmicros, hzero⟩
    rcases (coerce_moved_iff h' hoffset').mp hu' with ⟨hmicros', hzero'⟩
    rw [reading_lt_iff, ← hmicros, ← hmicros']
    refine ⟨⟨congrArg localMicros, fun heq => ?_⟩, Iff.rfl⟩
    exact eq_of_localMicros heq (hzero.trans hzero'.symm)
  · intro t s h hnone
    exact coerce_of_none field (writtenTimestamp?_of_writtenForm h.writtenForm) hnone
  · intro date
    have hform : CivilForm date.text.toList date := by
      unfold Date.text
      rw [String.toList_ofList]
      exact civilForm_chars date
    exact coerce_of_none field (writtenTimestamp?_of_civilForm hform) rfl

end Operand

namespace Sample

open Timestamp

/-- Half an hour before the end of a leap day, on a clock five hours behind universal time. -/
def leapNight : Timestamp :=
  ⟨⟨2024, 2, 29, by decide⟩, ⟨84600000000, by decide⟩, some (-18000000000)⟩

/-- One microsecond earlier, on a clock one hour ahead. -/
def earlierMorning : Timestamp :=
  ⟨⟨2024, 3, 1, by decide⟩, ⟨19799999999, by decide⟩, some 3600000000⟩

/-- A leap day ends and March begins when the clocks are set to universal time. -/
theorem coerce_keeps_instant_leapNight :
    ∃ u u' : Timestamp,
      Operand.coerce "seen_at" .timestamp (.text "2024-02-29T23:30:00-05:00") =
        .ok (.timestamp u) ∧
      Operand.coerce "seen_at" .timestamp (.text "2024-03-01 05:29:59.999999+01:00") =
        .ok (.timestamp u') ∧
      u = ⟨⟨2024, 3, 1, by decide⟩, ⟨16200000000, by decide⟩, some 0⟩ ∧ u'.reading < u.reading := by
  have hnight : leapNight.Writes "2024-02-29T23:30:00-05:00" := by
    have hbehind := @WritesOffset.signed (-300) '-' (by decide) (.inr ⟨rfl, by decide⟩)
    exact Writes.intro (t := leapNight) (.inl rfl) (.seconds (by decide)) hbehind
  have hmorning : earlierMorning.Writes "2024-03-01 05:29:59.999999+01:00" := by
    have hbehind := @WritesOffset.signed 60 '+' (by decide) (.inl ⟨rfl, by decide⟩)
    exact Writes.intro (t := earlierMorning) (.inr rfl) .places hbehind
  rcases Operand.coerce_keeps_instant "seen_at" with ⟨hmoved, hordered, _⟩
  rcases hmoved _ _ hnight (by decide) (by decide) with ⟨u, hu, hzero, hinstant⟩
  rcases hmoved _ _ hmorning (by decide) (by decide) with ⟨u', hu', _⟩
  refine ⟨u, u', hu, hu', ?_, ?_⟩
  · apply eq_of_localMicros _ hzero
    rw [← instant_of_zero hzero, hinstant]
    decide
  · exact (hordered _ _ _ _ _ _ hmorning (by decide) hnight (by decide) hu' hu).2.mpr (by decide)

end Sample
end RecordApi
