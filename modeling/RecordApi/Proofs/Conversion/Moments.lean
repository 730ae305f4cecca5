import RecordApi.Conversion.Field
import RecordApi.Proofs.Number.Numerals
import RecordApi.Schema.Operand

/-!
# Dates and timestamps in texts

A body reads a date of ten characters and a time of day with colons behind it.  A filter reads many
more forms, and the same from this one.
-/

namespace RecordApi

/-! ## Digits in a fixed number -/

namespace Iso

/-- Some digits, as many as are counted. -/
def IsDigits (count : Nat) (ds : List Char) : Prop :=
  ds.length = count ∧ ∀ c ∈ ds, c.isDigit = true

theorem digits?_append
    {count : Nat} {ds : List Char} (rest : List Char)
    (h : IsDigits count ds) :
    digits? count (ds ++ rest) = some (Numeral.natOfAscii ds, rest) := by
  have htake : (ds ++ rest).take count = ds := by rw [← h.1, List.take_left]
  have hdrop : (ds ++ rest).drop count = rest := by rw [← h.1, List.drop_left]
  unfold digits?
  rw [htake, hdrop, if_pos ⟨h.1, List.all_eq_true.mpr h.2⟩]

theorem digits?_eq_some
    {count n : Nat} {cs rest : List Char}
    (h : digits? count cs = some (n, rest)) :
    ∃ ds, cs = ds ++ rest ∧ IsDigits count ds ∧ n = Numeral.natOfAscii ds := by
  unfold digits? at h
  dsimp only at h
  split at h
  · rename_i hdigits
    cases h
    exact ⟨cs.take count, (List.take_append_drop count cs).symm,
      ⟨hdigits.1, List.all_eq_true.mp hdigits.2⟩, rfl⟩
  · cases h

end Iso

namespace Moment

open Iso

theorem after?_eq_some
    {c : Char} {cs rest : List Char}
    (h : after? c cs = some rest) :
    cs = c :: rest := by
  cases cs with
  | nil => cases h
  | cons d others =>
      unfold after? at h
      dsimp only at h
      split at h
      · rename_i hd
        cases h
        rw [hd]
      · cases h

/-! ## The form of a date -/

/-- The ten characters of a date. -/
inductive CivilForm : List Char → Date → Prop
  | intro {ys ms ds : List Char} {date : Date} (year : IsDigits 4 ys) (month : IsDigits 2 ms)
      (day : IsDigits 2 ds)
      (exists_day : Date.ofCivil? (Numeral.natOfAscii ys) (Numeral.natOfAscii ms)
        (Numeral.natOfAscii ds) = some date) :
      CivilForm (ys ++ '-' :: (ms ++ '-' :: ds)) date

theorem exists_civilForm
    {cs rest : List Char} {date : Date}
    (h : civil? cs = some (date, rest)) :
    ∃ front, cs = front ++ rest ∧ CivilForm front date := by
  unfold civil? at h
  rcases Option.bind_eq_some_iff.mp h with ⟨⟨year, behindYear⟩, hyear, h⟩
  rcases Option.bind_eq_some_iff.mp h with ⟨monthPart, hhyphen, h⟩
  rcases Option.bind_eq_some_iff.mp h with ⟨⟨month, behindMonth⟩, hmonth, h⟩
  rcases Option.bind_eq_some_iff.mp h with ⟨dayPart, hhyphen', h⟩
  rcases Option.bind_eq_some_iff.mp h with ⟨⟨day, behindDay⟩, hday, h⟩
  rcases Option.bind_eq_some_iff.mp h with ⟨found, hfound, h⟩
  cases h
  rcases digits?_eq_some hyear with ⟨ys, hys, hyearDigits, rfl⟩
  rcases digits?_eq_some hmonth with ⟨ms, hms, hmonthDigits, rfl⟩
  rcases digits?_eq_some hday with ⟨ds, hds, hdayDigits, rfl⟩
  refine ⟨_, ?_, .intro hyearDigits hmonthDigits hdayDigits hfound⟩
  rw [hys, after?_eq_some hhyphen, hms, after?_eq_some hhyphen', hds]
  simp

namespace CivilForm

variable {front : List Char} {date : Date}

theorem length_eq (h : CivilForm front date) : front.length = 10 := by
  cases h with
  | intro year month day =>
      simp only [List.length_append, List.length_cons, year.1, month.1, day.1]

theorem isDigit_or_eq
    (h : CivilForm front date) :
    ∀ c ∈ front, c.isDigit = true ∨ c = '-' := by
  intro c hc
  cases h with
  | intro year month day =>
      simp only [List.mem_append, List.mem_cons] at hc
      rcases hc with hc | rfl | hc | rfl | hc
      · exact .inl (year.2 c hc)
      · exact .inr rfl
      · exact .inl (month.2 c hc)
      · exact .inr rfl
      · exact .inl (day.2 c hc)

/-- The date is read from its ten characters, whatever follows them. -/
theorem datePart?_eq
    (h : CivilForm front date) (rest : List Char) :
    datePart? 10 (front ++ rest) = some date := by
  cases h with
  | @intro ys ms ds _ year month day exists_day =>
      have hsplit : ys ++ '-' :: (ms ++ '-' :: ds) ++ rest =
          ys ++ '-' :: (ms ++ '-' :: (ds ++ rest)) := by simp
      unfold datePart?
      rw [hsplit, digits?_append _ year]
      simp only [Option.bind_eq_bind, Option.bind_some]
      split
      · rename_i tail heq
        rcases List.append_eq_cons_iff.mp heq with ⟨hnil, _⟩ | ⟨others, hmonth, _⟩
        · have hlength := month.1
          rw [hnil] at hlength
          cases hlength
        · have hdigit := month.2 'W' (by rw [hmonth]; exact List.mem_cons_self)
          exact absurd hdigit (by decide)
      · rw [digits?_append _ month]
        simp only [Option.bind_some, if_true]
        rw [digits?_append _ day]
        exact exists_day

/-- The character behind the year and the one behind that tell that the date is no week. -/
theorem marks
    (h : CivilForm front date) (rest : List Char) :
    (front ++ rest)[4]? = some '-' ∧ (front ++ rest)[5]? ≠ some 'W' := by
  cases h with
  | @intro ys ms ds _ year month day =>
      have hsplit : ys ++ '-' :: (ms ++ '-' :: ds) ++ rest =
          ys ++ '-' :: (ms ++ '-' :: (ds ++ rest)) := by simp
      rcases List.length_eq_two.mp month.1 with ⟨first, second, rfl⟩
      have hfirst : first.isDigit = true := month.2 first List.mem_cons_self
      rw [hsplit, List.getElem?_append_right (by rw [year.1]),
        List.getElem?_append_right (by rw [year.1]; decide), year.1]
      refine ⟨rfl, fun heq => ?_⟩
      have hw : first = 'W' := Option.some.inj heq
      rw [hw] at hfirst
      cases hfirst

end CivilForm

/-! ## Times of day -/

/-- The characters of a time of day: digits, colons and the point of a fraction. -/
def IsClockMark (c : Char) : Prop :=
  c.isDigit = true ∨ c ∈ [':', '.', ',']

/-- A time of day with minutes, and possibly with seconds and a fraction. -/
inductive ClockForm : List Char → Nat → Nat → Nat → Nat → Prop
  | minutes {hs ms : List Char} (hour : IsDigits 2 hs) (minute : IsDigits 2 ms) :
      ClockForm (hs ++ ':' :: ms) (Numeral.natOfAscii hs) (Numeral.natOfAscii ms) 0 0
  | seconds {hs ms ss : List Char} (hour : IsDigits 2 hs) (minute : IsDigits 2 ms)
      (second : IsDigits 2 ss) :
      ClockForm (hs ++ ':' :: (ms ++ ':' :: ss)) (Numeral.natOfAscii hs) (Numeral.natOfAscii ms)
        (Numeral.natOfAscii ss) 0
  | fraction {hs ms ss fs : List Char} {point : Char} (hour : IsDigits 2 hs)
      (minute : IsDigits 2 ms) (second : IsDigits 2 ss) (point_eq : point = '.' ∨ point = ',')
      (some_digit : fs ≠ []) (digits : ∀ c ∈ fs, c.isDigit = true) :
      ClockForm (hs ++ ':' :: (ms ++ ':' :: (ss ++ point :: fs))) (Numeral.natOfAscii hs)
        (Numeral.natOfAscii ms) (Numeral.natOfAscii ss)
        (Numeral.natOfAscii (fs.take 6) * tenTo (6 - (fs.take 6).length))

theorem fraction?_eq_some
    {cs rest : List Char} {micros : Nat}
    (h : fraction? cs = some (micros, rest)) :
    ∃ fs, cs = fs ++ rest ∧ fs ≠ [] ∧ (∀ c ∈ fs, c.isDigit = true) ∧
      micros = Numeral.natOfAscii (fs.take 6) * tenTo (6 - (fs.take 6).length) := by
  unfold fraction? at h
  dsimp only at h
  split at h
  · cases h
  · rename_i hne
    cases h
    exact ⟨cs.takeWhile Char.isDigit,
      (List.prefix_iff_eq_append.mp (List.takeWhile_prefix _)).symm,
      fun hnil => hne (by rw [hnil]; rfl), fun c hc => List.mem_takeWhile_imp hc, rfl⟩

/-- The places behind the seconds: none, or a point with some digits. -/
inductive Places : List Char → Nat → List Char → Prop
  | none (rest : List Char) : Places rest 0 rest
  | some {point : Char} {fs rest : List Char} (point_eq : point = '.' ∨ point = ',')
      (some_digit : fs ≠ []) (digits : ∀ c ∈ fs, c.isDigit = true) :
      Places (point :: (fs ++ rest))
        (Numeral.natOfAscii (fs.take 6) * tenTo (6 - (fs.take 6).length)) rest

theorem exists_places
    {α : Type} {next : Nat × List Char → Option α} {cs : List Char} {result : α}
    (h : (match cs with
      | '.' :: behind => fraction? behind >>= next
      | ',' :: behind => fraction? behind >>= next
      | behind => some (0, behind) >>= next) = some result) :
    ∃ micros rest, Places cs micros rest ∧ next (micros, rest) = some result := by
  split at h
  · rcases Option.bind_eq_some_iff.mp h with ⟨⟨micros, rest⟩, hfraction, h⟩
    rcases fraction?_eq_some hfraction with ⟨fs, rfl, hne, hdigits, rfl⟩
    exact ⟨_, rest, .some (.inl rfl) hne hdigits, h⟩
  · rcases Option.bind_eq_some_iff.mp h with ⟨⟨micros, rest⟩, hfraction, h⟩
    rcases fraction?_eq_some hfraction with ⟨fs, rfl, hne, hdigits, rfl⟩
    exact ⟨_, rest, .some (.inr rfl) hne hdigits, h⟩
  · exact ⟨0, _, .none _, h⟩

theorem exists_clockForm
    {cs rest : List Char} {clock : Fin dayMicros}
    (h : clock? cs = some (clock, rest)) :
    ∃ front hour minute second micros, cs = front ++ rest ∧
      ClockForm front hour minute second micros ∧
      Timestamp.clockOf? hour minute second micros = some clock := by
  unfold clock? at h
  rcases Option.bind_eq_some_iff.mp h with ⟨⟨hour, behindHour⟩, hhour, h⟩
  rcases Option.bind_eq_some_iff.mp h with ⟨minutePart, hcolon, h⟩
  rcases Option.bind_eq_some_iff.mp h with ⟨⟨minute, behindMinute⟩, hminute, h⟩
  rcases digits?_eq_some hhour with ⟨hs, hhs, hhourDigits, rfl⟩
  rcases digits?_eq_some hminute with ⟨ms, hms, hminuteDigits, rfl⟩
  rw [after?_eq_some hcolon, hms] at hhs
  dsimp only at h
  split at h
  · rename_i behindColon
    rcases Option.bind_eq_some_iff.mp h with ⟨⟨second, behindSecond⟩, hsecond, h⟩
    rcases digits?_eq_some hsecond with ⟨ss, hss, hsecondDigits, rfl⟩
    rw [hss] at hhs
    rcases exists_places h with ⟨micros, behind, hplaces, h⟩
    rcases Option.bind_eq_some_iff.mp h with ⟨found, hfound, h⟩
    cases h
    cases hplaces with
    | none =>
        exact ⟨hs ++ ':' :: (ms ++ ':' :: ss), _, _, _, 0, by rw [hhs]; simp,
          .seconds hhourDigits hminuteDigits hsecondDigits, hfound⟩
    | @some point fs _ hpoint hne hdigits =>
        exact ⟨hs ++ ':' :: (ms ++ ':' :: (ss ++ point :: fs)), _, _, _, _, by rw [hhs]; simp,
          .fraction hhourDigits hminuteDigits hsecondDigits hpoint hne hdigits, hfound⟩
  · rcases Option.bind_eq_some_iff.mp h with ⟨found, hfound, h⟩
    cases h
    exact ⟨hs ++ ':' :: ms, _, _, 0, 0, by rw [hhs]; simp, ClockForm.minutes hhourDigits hminuteDigits,
      hfound⟩

end Moment

/-! ## The same time of day in the wider forms -/

namespace Iso

theorem components?_last
    (follows : Bool) (left : Nat) (separated : Bool) (done : List Nat) {ds : List Char}
    (h : IsDigits 2 ds) :
    components? follows (left + 1) separated done ds =
      some (done ++ [Numeral.natOfAscii ds], 0, if follows then .more else .ended) := by
  have hdigits := digits?_append [] h
  rw [List.append_nil] at hdigits
  unfold components?
  rw [hdigits]
  rfl

theorem components?_colon
    (follows : Bool) (left : Nat) {separated : Bool} {done : List Nat} {ds tail : List Char}
    (h : IsDigits 2 ds) (hseparated : done = [] ∨ separated = true) (hne : tail ≠ []) :
    components? follows (left + 1) separated done (ds ++ ':' :: tail) =
      components? follows left true (done ++ [Numeral.natOfAscii ds]) tail := by
  have hnow : (if (done ++ [Numeral.natOfAscii ds]).length = 1 then true else separated) = true := by
    rcases hseparated with rfl | rfl
    · rfl
    · exact ite_self true
  have hempty : tail.isEmpty = false := List.isEmpty_eq_false_iff.mpr hne
  conv_lhs => unfold components?
  rw [digits?_append _ h]
  simp only [Option.bind_eq_bind, Option.bind_some, beq_self_eq_true, hnow, hempty, Bool.false_and,
    Bool.false_eq_true, if_false, Bool.true_and, if_true]

theorem fraction?_digits
    {fs : List Char}
    (h : ∀ c ∈ fs, c.isDigit = true) :
    fraction? fs =
      some (Numeral.natOfAscii (fs.take 6) * tenTo (6 - (fs.take 6).length), .ended) := by
  have hcounted : IsDigits (min 6 fs.length) (fs.take 6) :=
    ⟨List.length_take, fun c hc => h c (List.mem_of_mem_take hc)⟩
  have hskipped : (fs.drop 6).dropWhile Char.isDigit = [] :=
    List.dropWhile_eq_nil_iff.mpr fun c hc => h c (List.mem_of_mem_drop hc)
  have hdigits := digits?_append (fs.drop 6) hcounted
  rw [List.take_append_drop] at hdigits
  unfold fraction?
  dsimp only
  rw [hdigits, List.length_take]
  simp only [Option.bind_eq_bind, Option.bind_some, hskipped]
  rfl

theorem components?_point
    (follows : Bool) (left : Nat) (separated : Bool) (done : List Nat) {ds fs : List Char}
    {point : Char}
    (h : IsDigits 2 ds) (hpoint : point = '.' ∨ point = ',') (hne : fs ≠ [])
    (hdigits : ∀ c ∈ fs, c.isDigit = true) :
    components? follows (left + 1) separated done (ds ++ point :: fs) =
      some (done ++ [Numeral.natOfAscii ds],
        Numeral.natOfAscii (fs.take 6) * tenTo (6 - (fs.take 6).length), .ended) := by
  have hcolon : (point == ':') = false := by rcases hpoint with rfl | rfl <;> rfl
  have hmark : (point == '.' || point == ',') = true := by rcases hpoint with rfl | rfl <;> rfl
  have hempty : fs.isEmpty = false := List.isEmpty_eq_false_iff.mpr hne
  unfold components?
  rw [digits?_append _ h]
  simp only [Option.bind_eq_bind, Option.bind_some, hcolon, hmark, hempty, Bool.false_and,
    Bool.and_false, Bool.false_eq_true, if_false, if_true, fraction?_digits hdigits,
    Option.map_some]

/-- Two digits behind two others, with no colon between them. -/
theorem components?_joined
    (follows : Bool) (left : Nat) {hs ms : List Char}
    (hhour : IsDigits 2 hs) (hminute : IsDigits 2 ms) :
    components? follows (left + 2) true [] (hs ++ ms) =
      some ([Numeral.natOfAscii hs, Numeral.natOfAscii ms], 0,
        if follows then .more else .ended) := by
  rcases List.length_eq_two.mp hminute.1 with ⟨c, d, rfl⟩
  have hc : c.isDigit = true := hminute.2 c (by simp)
  have hcolon : (c == ':') = false := beq_eq_false_iff_ne.mpr (by rintro rfl; cases hc)
  have hpoint : (c == '.') = false := beq_eq_false_iff_ne.mpr (by rintro rfl; cases hc)
  have hcomma : (c == ',') = false := beq_eq_false_iff_ne.mpr (by rintro rfl; cases hc)
  conv_lhs => unfold components?
  rw [digits?_append _ hhour]
  simp only [Option.bind_eq_bind, Option.bind_some, hcolon, hpoint, hcomma, List.isEmpty_cons,
    List.nil_append, List.length_cons, List.length_nil, Nat.zero_add, if_true, Bool.false_and,
    Bool.false_eq_true, if_false, Bool.or_self, components?_last _ _ _ _ hminute]
  rfl

end Iso

namespace Moment

open Iso

/-- A time of day in one of the forms is read the same by the wider reader. -/
theorem ClockForm.clock?_eq
    {front : List Char} {hour minute second micros : Nat}
    (h : ClockForm front hour minute second micros) (follows : Bool) :
    ∃ rest, Iso.clock? follows front = some (⟨hour, minute, second, micros⟩, rest) ∧
      (follows = false → rest = .ended) := by
  have hsome : ∀ {count : Nat} {ds : List Char}, IsDigits (count + 1) ds → ds ≠ [] := by
    rintro count ds hds rfl
    cases hds.1
  cases h with
  | @minutes hs ms hhour hminute =>
      refine ⟨if follows then .more else .ended, ?_, by rintro rfl; rfl⟩
      unfold Iso.clock?
      rw [components?_colon _ _ hhour (.inl rfl) (hsome hminute), components?_last _ _ _ _ hminute]
      rfl
  | @seconds hs ms ss hhour hminute hsecond =>
      refine ⟨if follows then .more else .ended, ?_, by rintro rfl; rfl⟩
      unfold Iso.clock?
      rw [components?_colon _ _ hhour (.inl rfl) (by simp),
        components?_colon _ _ hminute (.inr rfl) (hsome hsecond), components?_last _ _ _ _ hsecond]
      rfl
  | @fraction hs ms ss fs point hhour hminute hsecond hpoint hne hdigits =>
      refine ⟨.ended, ?_, fun _ => rfl⟩
      unfold Iso.clock?
      rw [components?_colon _ _ hhour (.inl rfl) (by simp),
        components?_colon _ _ hminute (.inr rfl) (by simp),
        components?_point _ _ _ _ hsecond hpoint hne hdigits]
      rfl

theorem ClockForm.isClockMark
    {front : List Char} {hour minute second micros : Nat}
    (h : ClockForm front hour minute second micros) :
    ∀ c ∈ front, IsClockMark c := by
  intro c hc
  cases h with
  | minutes hhour hminute =>
      simp only [List.mem_append, List.mem_cons] at hc
      rcases hc with hc | rfl | hc
      · exact .inl (hhour.2 c hc)
      · exact .inr (by simp)
      · exact .inl (hminute.2 c hc)
  | seconds hhour hminute hsecond =>
      simp only [List.mem_append, List.mem_cons] at hc
      rcases hc with hc | rfl | hc | rfl | hc
      · exact .inl (hhour.2 c hc)
      · exact .inr (by simp)
      · exact .inl (hminute.2 c hc)
      · exact .inr (by simp)
      · exact .inl (hsecond.2 c hc)
  | fraction hhour hminute hsecond hpoint hne hdigits =>
      simp only [List.mem_append, List.mem_cons] at hc
      rcases hc with hc | rfl | hc | rfl | hc | rfl | hc
      · exact .inl (hhour.2 c hc)
      · exact .inr (by simp)
      · exact .inl (hminute.2 c hc)
      · exact .inr (by simp)
      · exact .inl (hsecond.2 c hc)
      · exact .inr (by rcases hpoint with rfl | rfl <;> simp)
      · exact .inl (hdigits c hc)

/-! ## Offsets -/

/-- The microseconds of an offset with its sign. -/
def signedOffset (negative : Bool) (hours minutes : Nat) : Int :=
  let micros : Int := (hours * 60 + minutes) * 60000000
  if negative then -micros else micros

/-- What may stand behind a time of day: nothing, the mark of universal time, or hours and minutes
with a sign. -/
inductive OffsetForm : List Char → Option Int → Prop
  | none : OffsetForm [] none
  | zulu : OffsetForm ['Z'] (some 0)
  | signed {sign : Char} {hs colon ms : List Char} (sign_eq : sign = '+' ∨ sign = '-')
      (hour : IsDigits 2 hs) (colon_eq : colon = [] ∨ colon = [':']) (minute : IsDigits 2 ms)
      (hour_lt : Numeral.natOfAscii hs < 24) (minute_lt : Numeral.natOfAscii ms < 60) :
      OffsetForm (sign :: (hs ++ (colon ++ ms)))
        (some (signedOffset (sign == '-') (Numeral.natOfAscii hs) (Numeral.natOfAscii ms)))

theorem exists_colon (cs : List Char) :
    ∃ colon, (colon = [] ∨ colon = [':']) ∧ cs = colon ++ (after? ':' cs).getD cs := by
  cases hafter : after? ':' cs with
  | none => exact ⟨[], .inl rfl, rfl⟩
  | some rest => exact ⟨[':'], .inr rfl, after?_eq_some hafter⟩

theorem next_of_sign
    {α : Type} {next : Bool → Option α} {sign : Char} {result : α}
    (h : (if sign = '+' then some false >>= next
      else if (decide (sign = '-') || decide (sign = '\u2212')) = true then some true >>= next
      else none >>= next) = some result)
    (hminus : sign ≠ '\u2212') :
    (sign = '+' ∨ sign = '-') ∧ next (sign == '-') = some result := by
  split at h
  · rename_i hplus
    subst hplus
    exact ⟨.inl rfl, h⟩
  · split at h
    · rename_i hother
      have hhyphen : sign = '-' := by
        rcases Bool.or_eq_true_iff.mp hother with heq | heq
        · exact of_decide_eq_true heq
        · exact absurd (of_decide_eq_true heq) hminus
      subst hhyphen
      exact ⟨.inr rfl, h⟩
    · cases h

theorem offsetForm_of_offset?
    {cs : List Char} {offset : Option Int}
    (h : offset? cs = some offset) (hzulu : 'z' ∉ cs) (hminus : '\u2212' ∉ cs) :
    OffsetForm cs offset := by
  unfold offset? at h
  split at h
  · cases h
    exact .none
  · cases h
    exact .zulu
  · exact absurd List.mem_cons_self hzulu
  · rename_i sign rest _ _
    dsimp only at h
    rcases next_of_sign h (by rintro rfl; exact hminus List.mem_cons_self) with ⟨hsign, h⟩
    rcases Option.bind_eq_some_iff.mp h with ⟨⟨hours, behindHours⟩, hhours, h⟩
    rcases Option.bind_eq_some_iff.mp h with ⟨⟨minutes, behindMinutes⟩, hminutes, h⟩
    rcases digits?_eq_some hhours with ⟨hs, rfl, hhour, rfl⟩
    rcases exists_colon behindHours with ⟨colon, hcolon, hbehind⟩
    rcases digits?_eq_some hminutes with ⟨ms, hms, hminute, rfl⟩
    dsimp only at h hms
    split at h
    · rename_i hguard
      simp only [Bool.and_eq_true, decide_eq_true_eq, List.isEmpty_iff] at hguard
      rcases hguard with ⟨⟨rfl, hhourLt⟩, hminuteLt⟩
      cases h
      rw [hms, List.append_nil] at hbehind
      rw [hbehind]
      exact .signed hsign hhour hcolon hminute hhourLt hminuteLt
    · cases h

theorem expandZulu_eq_self
    {cs : List Char}
    (h : 'Z' ∉ cs) :
    Operand.expandZulu cs = cs := by
  induction cs with
  | nil => rfl
  | cons c rest ih =>
      have hc : c ≠ 'Z' := fun hz => h (by rw [hz]; exact List.mem_cons_self)
      unfold Operand.expandZulu at *
      rw [List.flatMap_cons, if_neg hc, ih (fun hmem => h (List.mem_cons_of_mem _ hmem))]
      rfl

theorem expandZulu_append (front cs : List Char) :
    Operand.expandZulu (front ++ cs) = Operand.expandZulu front ++ Operand.expandZulu cs := by
  unfold Operand.expandZulu
  exact List.flatMap_append

theorem OffsetForm.expandZulu
    {cs : List Char} {offset : Option Int}
    (h : OffsetForm cs offset) :
    OffsetForm (Operand.expandZulu cs) offset := by
  cases h with
  | none => exact .none
  | zulu =>
      have hzeros : IsDigits 2 ['0', '0'] := ⟨rfl, List.all_eq_true.mp rfl⟩
      exact .signed (.inl rfl) hzeros (.inr rfl) hzeros (by decide) (by decide)
  | @signed sign hs colon ms hsign hhour hcolon hminute hhourLt hminuteLt =>
      rw [expandZulu_eq_self]
      · exact .signed hsign hhour hcolon hminute hhourLt hminuteLt
      · have hdigit : ∀ {count : Nat} {ds : List Char}, IsDigits count ds → 'Z' ∉ ds :=
          fun hds hmem => absurd (hds.2 _ hmem) (by decide)
        simp only [List.mem_cons, List.mem_append, not_or]
        refine ⟨?_, hdigit hhour, ?_, hdigit hminute⟩
        · rcases hsign with rfl | rfl <;> decide
        · rcases hcolon with rfl | rfl <;> decide

theorem offsetMicros?_eq
    (negative : Bool) {hours minutes : Nat}
    (hhour : hours < 24) (hminute : minutes < 60) :
    Iso.offsetMicros? negative ⟨hours, minutes, 0, 0⟩ =
      some (signedOffset negative hours minutes) := by
  unfold Iso.offsetMicros? signedOffset dayMicros
  dsimp only
  split
  · rename_i hzero
    have : hours = 0 := by omega
    have : minutes = 0 := by omega
    subst hours minutes
    cases negative <;> rfl
  · rw [if_pos (by omega)]
    have heq : ((((hours * 60 + minutes) * 60 + 0) * 1000000 + 0 : Nat) : Int) =
        (hours * 60 + minutes) * 60000000 := by
      omega
    rw [heq]

/-- Hours and minutes of an offset are read with a colon between them or without. -/
theorem clock?_offset
    {hs colon ms : List Char}
    (hhour : IsDigits 2 hs) (hcolon : colon = [] ∨ colon = [':']) (hminute : IsDigits 2 ms) :
    Iso.clock? false (hs ++ (colon ++ ms)) =
      some (⟨Numeral.natOfAscii hs, Numeral.natOfAscii ms, 0, 0⟩, .ended) := by
  rcases hcolon with rfl | rfl
  · unfold Iso.clock?
    rw [List.nil_append, components?_joined _ _ hhour hminute]
    rfl
  · rcases (ClockForm.minutes hhour hminute).clock?_eq false with ⟨rest, hclock, hended⟩
    rw [hended rfl] at hclock
    exact hclock

theorem IsClockMark.starts_eq_false
    {c : Char}
    (h : IsClockMark c) :
    (!(c == '+' || c == '-' || c == 'Z')) = true := by
  rcases h with h | h
  · have hplus : (c == '+') = false := beq_eq_false_iff_ne.mpr (by rintro rfl; cases h)
    have hminus : (c == '-') = false := beq_eq_false_iff_ne.mpr (by rintro rfl; cases h)
    have hzulu : (c == 'Z') = false := beq_eq_false_iff_ne.mpr (by rintro rfl; cases h)
    rw [hplus, hminus, hzulu]
    rfl
  · simp only [List.mem_cons, List.not_mem_nil, or_false] at h
    rcases h with rfl | rfl | rfl <;> rfl

theorem time?_of_forms
    {front cs : List Char} {hour minute second micros : Nat} {offset : Option Int}
    (hclock : ClockForm front hour minute second micros) (hoffset : OffsetForm cs offset) :
    Iso.time? (front ++ cs) = some (⟨hour, minute, second, micros⟩, offset) := by
  have hmarks : ∀ c ∈ front, (!(c == '+' || c == '-' || c == 'Z')) = true :=
    fun c hc => (hclock.isClockMark c hc).starts_eq_false
  rcases hclock.clock?_eq false with ⟨rest, halone, hended⟩
  rcases hclock.clock?_eq true with ⟨rest', hfollowed, _⟩
  unfold Iso.time?
  dsimp only
  rw [List.takeWhile_append_of_pos hmarks, List.dropWhile_append_of_pos hmarks]
  cases hoffset with
  | none =>
      simp only [List.takeWhile_nil, List.append_nil, List.dropWhile_nil, halone, hended rfl,
        Option.bind_eq_bind, Option.bind_some, if_true]
      rfl
  | zulu =>
      simp only [List.takeWhile_cons, List.dropWhile_cons, beq_self_eq_true, Bool.or_true,
        Bool.not_true, Bool.false_eq_true, if_false, List.append_nil, hfollowed,
        Option.bind_eq_bind, Option.bind_some, if_true]
      rfl
  | @signed sign hs colon ms hsign hhour hcolon hminute hhourLt hminuteLt =>
      have hstarts : (!(sign == '+' || sign == '-' || sign == 'Z')) = false := by
        rcases hsign with rfl | rfl <;> rfl
      have hzulu : sign ≠ 'Z' := by rcases hsign with rfl | rfl <;> decide
      simp only [List.takeWhile_cons, List.dropWhile_cons, hstarts, Bool.false_eq_true, if_false,
        List.append_nil, hfollowed, Option.bind_eq_bind, Option.bind_some, hzulu,
        clock?_offset hhour hcolon hminute, if_true, offsetMicros?_eq _ hhourLt hminuteLt]
      rfl

/-! ## Dates with a time of day -/

theorem length_le_octets (cs : List Char) : cs.length ≤ Iso.octets cs := by
  induction cs with
  | nil => exact Nat.le_refl 0
  | cons c rest ih =>
      have hpos := Char.utf8Size_pos c
      unfold Iso.octets at ih ⊢
      rw [List.foldr_cons, List.length_cons]
      omega

theorem octets_eq_length
    {cs : List Char}
    (h : ∀ c ∈ cs, c.utf8Size = 1) :
    Iso.octets cs = cs.length := by
  induction cs with
  | nil => rfl
  | cons c rest ih =>
      have hrest := ih fun d hd => h d (List.mem_cons_of_mem _ hd)
      have hc := h c List.mem_cons_self
      unfold Iso.octets at hrest ⊢
      rw [List.foldr_cons, List.length_cons]
      omega

theorem CivilForm.dateLength_eq
    {front : List Char} {date : Date}
    (h : CivilForm front date) (rest : List Char) :
    Iso.dateLength (front ++ rest) = 10 := by
  have hle := length_le_octets (front ++ rest)
  rw [List.length_append, h.length_eq] at hle
  unfold Iso.dateLength
  dsimp only
  rw [if_neg (by omega), if_pos (h.marks rest).1, if_neg (h.marks rest).2]

/-- A date with a separator, a time of day and possibly an offset. -/
inductive WrittenForm : List Char → Timestamp → Prop
  | intro {front clock cs : List Char} {date : Date} {separator : Char}
      {hour minute second micros : Nat} {micro : Fin dayMicros} {offset : Option Int}
      (civil : CivilForm front date) (separates : isSeparator separator = true)
      (time : ClockForm clock hour minute second micros)
      (exists_time : Timestamp.clockOf? hour minute second micros = some micro)
      (behind : OffsetForm cs offset) :
      WrittenForm (front ++ separator :: (clock ++ cs)) ⟨date, micro, offset⟩

theorem writtenForm_of_written?
    {cs : List Char} {t : Timestamp}
    (h : written? cs = some t) (hzulu : 'z' ∉ cs) (hminus : '\u2212' ∉ cs) :
    WrittenForm cs t := by
  unfold written? at h
  rcases Option.bind_eq_some_iff.mp h with ⟨⟨date, behindDate⟩, hcivil, hread⟩
  rcases exists_civilForm hcivil with ⟨front, rfl, hfront⟩
  dsimp only at hread
  split at hread
  · rename_i separator behind
    split at hread
    · rename_i hseparator
      rcases Option.bind_eq_some_iff.mp hread with ⟨⟨micro, behindClock⟩, hclock, hread⟩
      rcases Option.bind_eq_some_iff.mp hread with ⟨offset, hoffset, hread⟩
      cases hread
      rcases exists_clockForm hclock with ⟨clock, hour, minute, second, micros, rfl, hform, hof⟩
      have hsub : ∀ c ∈ behindClock, c ∈ front ++ separator :: (clock ++ behindClock) := by
        intro c hc
        simp only [List.mem_append, List.mem_cons, hc, or_true]
      exact .intro hfront hseparator hform hof (offsetForm_of_offset? hoffset
        (fun hmem => hzulu (hsub _ hmem)) (fun hmem => hminus (hsub _ hmem)))
    · cases hread
  · cases hread

/-- A date with a time of day is read the same by the wider reader. -/
theorem WrittenForm.timestamp?_eq
    {cs : List Char} {t : Timestamp}
    (h : WrittenForm cs t) :
    Iso.timestamp? (Operand.expandZulu cs) = some t := by
  cases h with
  | @intro front clock cs date separator hour minute second micros micro offset hcivil hseparator
      htime hmicro hoffset =>
      have hplain : 'Z' ∉ front ++ separator :: clock := by
        simp only [List.mem_append, List.mem_cons, not_or]
        refine ⟨fun hmem => ?_, ?_, fun hmem => ?_⟩
        · exact absurd (hcivil.isDigit_or_eq _ hmem) (by decide)
        · rintro rfl
          cases hseparator
        · rcases htime.isClockMark _ hmem with hdigit | hmark
          · cases hdigit
          · exact absurd hmark (by decide)
      have hsplit : Operand.expandZulu (front ++ separator :: (clock ++ cs)) =
          front ++ separator :: (clock ++ Operand.expandZulu cs) := by
        have happend : front ++ separator :: (clock ++ cs) = (front ++ separator :: clock) ++ cs := by
          simp
        rw [happend, expandZulu_append, expandZulu_eq_self hplain]
        simp
      unfold Iso.timestamp?
      rw [hsplit]
      dsimp only
      rw [hcivil.dateLength_eq, hcivil.datePart?_eq, List.drop_left' hcivil.length_eq]
      simp only [Option.bind_eq_bind, Option.bind_some, time?_of_forms htime hoffset.expandZulu,
        hmicro]
      rfl

/-! ## The ends of a text -/

/-- The last character is no blank. -/
def EndsPlain (cs : List Char) : Prop :=
  ∃ front last, cs = front ++ [last] ∧ Text.isBlank last = false

theorem EndsPlain.append
    {cs : List Char}
    (h : EndsPlain cs) (lead : List Char) :
    EndsPlain (lead ++ cs) := by
  rcases h with ⟨front, last, rfl, hlast⟩
  exact ⟨lead ++ front, last, (List.append_assoc _ _ _).symm, hlast⟩

theorem EndsPlain.cons
    {cs : List Char}
    (h : EndsPlain cs) (c : Char) :
    EndsPlain (c :: cs) :=
  h.append [c]

theorem endsPlain_of_digits
    {ds : List Char}
    (hne : ds ≠ []) (h : ∀ c ∈ ds, c.isDigit = true) :
    EndsPlain ds := by
  rcases List.eq_nil_or_concat ds with hnil | ⟨front, last, rfl⟩
  · exact absurd hnil hne
  · exact ⟨front, last, List.concat_eq_append, Text.isBlank_of_isDigit (h last (by simp))⟩

theorem endsPlain_of_isDigits
    {count : Nat} {ds : List Char}
    (h : IsDigits (count + 1) ds) :
    EndsPlain ds := by
  refine endsPlain_of_digits ?_ h.2
  rintro rfl
  cases h.1

theorem ClockForm.endsPlain
    {front : List Char} {hour minute second micros : Nat}
    (h : ClockForm front hour minute second micros) :
    EndsPlain front := by
  cases h with
  | minutes _ hminute => exact ((endsPlain_of_isDigits hminute).cons _).append _
  | seconds _ _ hsecond =>
      exact ((((endsPlain_of_isDigits hsecond).cons _).append _).cons _).append _
  | fraction _ _ _ _ hne hdigits =>
      exact ((((((endsPlain_of_digits hne hdigits).cons _).append _).cons _).append _).cons _).append _

theorem OffsetForm.endsPlain
    {cs : List Char} {offset : Option Int}
    (h : OffsetForm cs offset) {front : List Char} (hfront : EndsPlain front) :
    EndsPlain (front ++ cs) := by
  cases h with
  | none => rwa [List.append_nil]
  | zulu => exact ⟨front, 'Z', rfl, by decide⟩
  | signed _ _ _ hminute _ _ => exact ((((endsPlain_of_isDigits hminute).append _).append _).cons _).append _

theorem CivilForm.isBlank_eq_false
    {front : List Char} {date : Date}
    (h : CivilForm front date) :
    ∀ c ∈ front, Text.isBlank c = false := by
  intro c hc
  rcases h.isDigit_or_eq c hc with hdigit | rfl
  · exact Text.isBlank_of_isDigit hdigit
  · decide

/-- The separator may be a blank, but neither end is one. -/
theorem WrittenForm.trimChars_eq
    {cs : List Char} {t : Timestamp}
    (h : WrittenForm cs t) :
    Text.trimChars cs = cs := by
  cases h with
  | @intro front clock cs date separator _ _ _ _ _ _ hcivil _ htime _ hoffset =>
      rcases hoffset.endsPlain htime.endsPlain with ⟨inner, last, hsplit, hlast⟩
      cases front with
      | nil => exact absurd hcivil.length_eq (by decide)
      | cons first others =>
          have hfirst : Text.isBlank first = false :=
            hcivil.isBlank_eq_false first List.mem_cons_self
          have hback : (first :: others ++ separator :: (clock ++ cs)).getLast? = some last := by
            rw [hsplit, ← List.cons_append, ← List.append_assoc, List.getLast?_concat]
          apply Text.trimChars_ends
          · rintro c ⟨⟩
            exact hfirst
          · rw [hback]
            rintro c ⟨⟩
            exact hlast

theorem WrittenForm.length_ne
    {cs : List Char} {t : Timestamp}
    (h : WrittenForm cs t) :
    cs.length ≠ 10 := by
  cases h with
  | intro hcivil _ _ _ _ =>
      rw [List.length_append, hcivil.length_eq, List.length_cons]
      omega

theorem WrittenForm.hasTime_eq_true
    {cs : List Char} {t : Timestamp}
    (h : WrittenForm cs t) (ht : 't' ∉ cs) (hunderscore : '_' ∉ cs) :
    Operand.hasTime cs = true := by
  cases h with
  | @intro front clock cs _ separator _ _ _ _ _ _ _ hseparator _ _ _ =>
      have hmem : separator ∈ front ++ separator :: (clock ++ cs) := by simp
      unfold Operand.hasTime
      rw [Bool.or_eq_true, List.contains_iff_mem, List.contains_iff_mem]
      unfold isSeparator at hseparator
      simp only [Bool.or_eq_true, beq_iff_eq] at hseparator
      rcases hseparator with ((rfl | rfl) | rfl) | rfl
      · exact .inl hmem
      · exact absurd hmem ht
      · exact .inr hmem
      · exact absurd hmem hunderscore

/-! ## Every form of a text with a hyphen -/

/-- A number in a text has a hyphen at its start only. -/
theorem notMem_tail_of_ofNumberText?
    {cs : List Char} {t : Timestamp}
    (h : ofNumberText? cs = some t) :
    '-' ∉ cs.tail := by
  have htail : ∀ c ∈ cs.tail, c ∈ (Numeral.splitSign cs).2 := by
    intro c hc
    unfold Numeral.splitSign
    split
    · exact hc
    · exact hc
    · exact List.mem_of_mem_tail hc
  intro hmem
  have hbehind := htail _ hmem
  unfold ofNumberText? at h
  dsimp only at h
  generalize (Numeral.splitSign cs).2 = ds at h hbehind
  split at h
  · cases h
  · rw [← List.prefix_iff_eq_append.mp (List.takeWhile_prefix Char.isDigit (l := ds)),
      List.mem_append] at hbehind
    rcases hbehind with hwhole | hrest
    · exact absurd (List.mem_takeWhile_imp hwhole) (by decide)
    · split at h
      · rename_i hnil
        rw [hnil] at hrest
        cases hrest
      · rename_i places hplaces
        rw [hplaces] at hrest
        split at h
        · rename_i hdigits
          rcases List.mem_cons.mp hrest with heq | hmem
          · exact absurd heq (by decide)
          · exact absurd (List.all_eq_true.mp hdigits _ hmem) (by decide)
        · cases h
      · cases h

/-- What a body reads from a text with a hyphen is a date, alone or with a time of day. -/
theorem forms_of_timestamp?
    {cs : List Char} {t : Timestamp}
    (h : timestamp? cs = some t) (hhyphen : '-' ∈ cs.tail) (hzulu : 'z' ∉ cs)
    (hminus : '\u2212' ∉ cs) :
    WrittenForm cs t ∨ ∃ date, CivilForm cs date ∧ t = Timestamp.midnight date := by
  unfold timestamp? at h
  split at h
  · rename_i found hwritten
    rw [← Option.some.inj h]
    exact .inl (writtenForm_of_written? hwritten hzulu hminus)
  · split at h
    · rename_i hnumber
      exact absurd hhyphen (notMem_tail_of_ofNumberText? hnumber)
    · split at h
      · rename_i date hcivil
        rcases exists_civilForm hcivil with ⟨front, hsplit, hfront⟩
        rw [List.append_nil] at hsplit
        rw [hsplit, ← Option.some.inj h]
        exact .inr ⟨date, hfront, rfl⟩
      · cases h

/-- A date alone is read the same by the wider reader. -/
theorem CivilForm.date?_eq
    {cs : List Char} {date : Date}
    (h : CivilForm cs date) :
    Iso.date? cs = some date := by
  have hone : ∀ c ∈ cs, c.utf8Size = 1 := by
    intro c hc
    rcases h.isDigit_or_eq c hc with hdigit | rfl
    · exact Text.utf8Size_of_ascii (Text.lt_of_isDigit hdigit)
    · rfl
  have hlength : Iso.octets cs = 10 := by rw [octets_eq_length hone, h.length_eq]
  have hread := h.datePart?_eq []
  rw [List.append_nil] at hread
  unfold Iso.date?
  dsimp only
  rw [hlength, if_pos (by decide), hread]

theorem CivilForm.hasTime_eq_false
    {cs : List Char} {date : Date}
    (h : CivilForm cs date) :
    Operand.hasTime cs = false := by
  have hnot : ∀ c, (c.isDigit = true ∨ c = '-') ∨ cs.contains c = false := by
    intro c
    cases hc : cs.contains c with
    | false => exact .inr rfl
    | true => exact .inl (h.isDigit_or_eq c (List.contains_iff_mem.mp hc))
  have hletter : cs.contains 'T' = false := (hnot 'T').resolve_left (by decide)
  have hblank : cs.contains ' ' = false := (hnot ' ').resolve_left (by decide)
  unfold Operand.hasTime
  rw [hletter, hblank]
  rfl

end Moment

/-! ## Timestamps of operands -/

theorem Conversion.trimmedChars_text (s : String) :
    Value.trimmedChars (.text s) = Text.trimChars s.toList := rfl

namespace Operand

open Conversion

variable {field : String} {v : Value} {t : Timestamp} {s : String} {date : Date}

/-- The timestamp that an operand writes, before it is moved to universal time. -/
def writtenTimestamp? (v : Value) : Option Timestamp :=
  let cs := v.trimmedChars
  if !hasTime cs && cs.length == 10 then (Iso.date? cs).map Timestamp.midnight
  else Iso.timestamp? (expandZulu cs)

theorem timestamp_eq
    (field : String) (hv : ∀ t, v ≠ .timestamp t) :
    timestamp field v =
      match writtenTimestamp? v with
      | none => .error (.invalid field .timestamp)
      | some t =>
          match t.toUniversal? with
          | some u => .ok u
          | none => .error .beyondCalendar := by
  unfold timestamp
  split
  · exact absurd rfl (hv _)
  · unfold writtenTimestamp?
    rfl

theorem writtenTimestamp?_of_writtenForm
    (h : Moment.WrittenForm s.toList t) :
    writtenTimestamp? (.text s) = some t := by
  have hlong : (s.toList.length == 10) = false := beq_eq_false_iff_ne.mpr h.length_ne
  unfold writtenTimestamp?
  dsimp only
  rw [trimmedChars_text, h.trimChars_eq, hlong, Bool.and_false, if_neg Bool.false_ne_true,
    h.timestamp?_eq]

theorem writtenTimestamp?_of_civilForm
    (h : Moment.CivilForm s.toList date) :
    writtenTimestamp? (.text s) = some (.midnight date) := by
  unfold writtenTimestamp?
  dsimp only
  rw [trimmedChars_text, Text.trimChars_eq_self h.isBlank_eq_false, h.hasTime_eq_false,
    h.length_eq, h.date?_eq]
  rfl

end Operand

/-! ## The same value in a body and in a filter -/

namespace Conversion

variable {field : String}

theorem timestamp_of_text
    {s : String} {t : Timestamp}
    (h : timestamp (.text s) = .ok t) (hhyphen : '-' ∈ s.toList.tail) (hzulu : 'z' ∉ s.toList)
    (hminus : '\u2212' ∉ s.toList) (hoffset : t.offset = none ∨ t.offset = some 0) :
    Operand.timestamp field (.text s) = .ok t := by
  have huniversal : t.toUniversal? = some t := by
    unfold Timestamp.toUniversal?
    rcases hoffset with hoffset | hoffset
    · rw [hoffset]
    · rw [hoffset]
      rfl
  have hread : Moment.timestamp? s.toList = some t := by
    unfold timestamp at h
    dsimp only at h
    split at h
    · rename_i found hfound
      rw [hfound, Except.ok.inj h]
    · cases h
  have hwritten : Operand.writtenTimestamp? (.text s) = some t := by
    rcases Moment.forms_of_timestamp? hread hhyphen hzulu hminus with hform | ⟨date, hform, rfl⟩
    · exact Operand.writtenTimestamp?_of_writtenForm hform
    · exact Operand.writtenTimestamp?_of_civilForm hform
  rw [Operand.timestamp_eq field (fun _ => Value.noConfusion), hwritten]
  simp only [huniversal]

theorem date_of_text
    {s : String} {date : Date}
    (h : Conversion.date (.text s) = .ok date) (hhyphen : '-' ∈ s.toList.tail)
    (hplain : ∀ c ∈ ['z', 't', '_', '\u2212'], c ∉ s.toList) :
    Operand.date field (.text s) = .ok date := by
  have hread : ∃ t, Moment.timestamp? s.toList = some t ∧ t.date = date := by
    unfold Conversion.date dateOfMidnight at h
    dsimp only at h
    split at h
    · rename_i found hfound
      split at h
      · exact ⟨found, hfound, Except.ok.inj h⟩
      · cases h
    · cases h
  rcases hread with ⟨t, hread, hdate⟩
  unfold Operand.date
  dsimp only
  rw [trimmedChars_text]
  rcases Moment.forms_of_timestamp? hread hhyphen (hplain 'z' (by simp)) (hplain '\u2212' (by simp))
    with hform | ⟨found, hform, rfl⟩
  · have htime := hform.hasTime_eq_true (hplain 't' (by simp)) (hplain '_' (by simp))
    rw [hform.trimChars_eq, htime, if_pos rfl, hform.timestamp?_eq]
    simp only [Option.map_some, hdate]
  · rw [Text.trimChars_eq_self hform.isBlank_eq_false, hform.hasTime_eq_false, hform.date?_eq]
    simp only [Bool.false_eq_true, if_false, ← hdate]
    rfl

end Conversion
end RecordApi
