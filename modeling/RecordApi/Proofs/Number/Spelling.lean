import RecordApi.Proofs.Number.Numerals
import RecordApi.Proofs.Text.Pieces

/-!
# How numerals are spelled

A numeral is an optional sign, digits with at most one point among them, and an optional power of
ten behind a mark.  Blanks around a numeral and underscores in it do not count, and the digits of
every script count as those of ASCII.  A text that writes a numeral is read as that numeral, and no
other text is read as a finite decimal.
-/

namespace RecordApi
namespace Numeral

/-! ## The parts of a numeral -/

inductive Sign : List Char → Bool → Prop
  | none : Sign [] false
  | plus : Sign ['+'] false
  | minus : Sign ['-'] true

/-- The power of ten at the end of a numeral. -/
inductive Power : List Char → Int → Prop
  | none : Power [] 0
  | marked {mark : Char} {sign ds : List Char} {negative : Bool}
      (mark_eq : mark = 'e' ∨ mark = 'E') (sign_spells : Sign sign negative)
      (ne_nil : ds ≠ []) (isDigit : ∀ c ∈ ds, c.isDigit = true) :
      Power (mark :: (sign ++ ds)) (if negative then -(natOfAscii ds : Int) else natOfAscii ds)

/-- Characters spell a numeral, without a point or with one. -/
inductive Spells : List Char → Numeral → Prop
  | whole {sign ds tail : List Char} {negative : Bool} {power : Int}
      (sign_spells : Sign sign negative) (ne_nil : ds ≠ [])
      (isDigit : ∀ c ∈ ds, c.isDigit = true) (tail_spells : Power tail power) :
      Spells (sign ++ (ds ++ tail)) ⟨negative, natOfAscii ds, power⟩
  | point {sign ds fraction tail : List Char} {negative : Bool} {power : Int}
      (sign_spells : Sign sign negative) (ne_nil : ds ≠ [] ∨ fraction ≠ [])
      (isDigit : ∀ c ∈ ds, c.isDigit = true) (isDigit_fraction : ∀ c ∈ fraction, c.isDigit = true)
      (tail_spells : Power tail power) :
      Spells (sign ++ (ds ++ '.' :: (fraction ++ tail)))
        ⟨negative, natOfAscii (ds ++ fraction), power - fraction.length⟩

/-- The characters of a text that count in a numeral. -/
def plainChars (s : String) : List Char :=
  asciiDigits ((Text.trimChars s.toList).filter (· ≠ '_'))

/-- A text writes a numeral. -/
def Writes (s : String) (numeral : Numeral) : Prop :=
  Spells (plainChars s) numeral

/-- Digits around a point write a numeral. -/
theorem writes_of_point
    {s : String} {ds fraction : List Char}
    (h : plainChars s = ds ++ '.' :: fraction) (hne : ds ≠ [] ∨ fraction ≠ [])
    (hdigits : ∀ c ∈ ds, c.isDigit = true) (hfraction : ∀ c ∈ fraction, c.isDigit = true) :
    Writes s ⟨false, natOfAscii (ds ++ fraction), -fraction.length⟩ := by
  have hspells := Spells.point .none hne hdigits hfraction .none
  rw [List.append_nil, Int.zero_sub] at hspells
  unfold Writes
  rw [h]
  exact hspells

/-! ## Reading -/

variable {cs rest sign : List Char} {negative : Bool} {numeral : Numeral}

theorem Sign.splitSign_append
    (h : Sign sign negative) (hrest : splitSign rest = (false, rest)) :
    splitSign (sign ++ rest) = (negative, rest) := by
  cases h with
  | none => exact hrest
  | plus => rfl
  | minus => rfl

theorem Power.exponentPart?_eq
    {tail : List Char} {power : Int}
    (h : Power tail power) :
    exponentPart? tail = some power := by
  cases h with
  | none => rfl
  | @marked mark sign ds negative hmark hsign hne hdigits =>
      have hplain : splitSign ds = (false, ds) := by
        cases ds with
        | nil => rfl
        | cons d ds => exact splitSign_digit (hdigits d List.mem_cons_self) ds
      exact exponentPart?_eq_some hmark (hsign.splitSign_append hplain) hne hdigits

theorem Power.head?_tail
    {tail : List Char} {power : Int}
    (h : Power tail power) :
    ∀ c ∈ tail.head?, c.isDigit = false ∧ c ≠ '.' := by
  intro c hc
  cases h with
  | none => cases hc
  | marked hmark _ _ _ =>
      cases hc
      rcases hmark with rfl | rfl <;> decide

/-- A spelled numeral is read behind its sign. -/
theorem Spells.unsigned?_eq
    (h : Spells cs numeral) :
    ∃ rest, splitSign cs = (numeral.negative, rest) ∧
      unsigned? numeral.negative rest = some numeral := by
  cases h with
  | @whole sign ds tail negative power hsign hne hdigits htail =>
      have hread : unsigned? negative (ds ++ tail) = some ⟨negative, natOfAscii ds, power⟩ := by
        rw [unsigned?_whole negative hne hdigits htail.head?_tail, htail.exponentPart?_eq]
        rfl
      exact ⟨_, hsign.splitSign_append (splitSign_of_unsigned? hread), hread⟩
  | @point sign ds fraction tail negative power hsign hne hdigits hfraction htail =>
      have hread : unsigned? negative (ds ++ '.' :: (fraction ++ tail)) =
          some ⟨negative, natOfAscii (ds ++ fraction), power - fraction.length⟩ := by
        rw [unsigned?_point negative hne hdigits hfraction fun c hc => (htail.head?_tail c hc).1,
          htail.exponentPart?_eq]
        rfl
      exact ⟨_, hsign.splitSign_append (splitSign_of_unsigned? hread), hread⟩

/-! ## Nothing else is read -/

/-- What is split off is a sign. -/
theorem exists_sign
    (h : splitSign cs = (negative, rest)) :
    ∃ sign, Sign sign negative ∧ cs = sign ++ rest := by
  unfold splitSign at h
  split at h
  · cases h
    exact ⟨_, .minus, rfl⟩
  · cases h
    exact ⟨_, .plus, rfl⟩
  · cases h
    exact ⟨_, .none, rfl⟩

theorem power_of_exponentPart?
    {power : Int}
    (h : exponentPart? cs = some power) :
    Power cs power := by
  unfold exponentPart? at h
  split at h
  · cases h
    exact .none
  · rename_i mark tail
    split at h
    · rename_i hmark
      dsimp only at h
      split at h
      · cases h
      · rename_i hdigits
        rw [Bool.or_eq_true, not_or, List.isEmpty_iff, Bool.not_eq_true', Bool.not_eq_false,
          List.all_eq_true] at hdigits
        rcases exists_sign (Prod.eta (splitSign tail)).symm with ⟨sign, hsign, htail⟩
        rw [htail, ← Option.some.inj h]
        exact .marked hmark hsign hdigits.1 hdigits.2
    · cases h

/-- An unsigned numeral that is read is spelled, with any sign before it. -/
theorem spells_of_unsigned?
    (hsign : Sign sign negative) (h : unsigned? negative cs = some numeral) :
    Spells (sign ++ cs) numeral := by
  have hdigits {ds : List Char} : ∀ c ∈ ds.takeWhile Char.isDigit, c.isDigit = true :=
    fun c hc => List.mem_takeWhile_imp hc
  unfold unsigned? at h
  dsimp only at h
  split at h
  · rename_i tail hpoint
    dsimp only at h
    split at h
    · cases h
    · rename_i hne
      rw [Bool.and_eq_true, List.isEmpty_iff, List.isEmpty_iff, not_and_or] at hne
      rcases Option.map_eq_some_iff.mp h with ⟨power, hpower, rfl⟩
      have hspells := Spells.point hsign hne hdigits hdigits (power_of_exponentPart? hpower)
      rwa [List.takeWhile_append_dropWhile, ← hpoint, List.takeWhile_append_dropWhile] at hspells
  · dsimp only at h
    split at h
    · cases h
    · rename_i hne
      rw [List.isEmpty_nil, Bool.and_true, List.isEmpty_iff] at hne
      rcases Option.map_eq_some_iff.mp h with ⟨power, hpower, rfl⟩
      have hspells := Spells.whole hsign hne hdigits (power_of_exponentPart? hpower)
      rw [List.takeWhile_append_dropWhile] at hspells
      rwa [List.append_nil, List.length_nil, Int.natCast_zero, Int.sub_zero]

end Numeral

/-- A text that writes a numeral is read as the numeral, if its exponents are within bounds. -/
theorem Decimal.ofChars?_of_writes
    {s : String} {numeral : Numeral}
    (h : numeral.Writes s) :
    ofChars? (Text.trimChars s.toList) = ofNumeral? numeral := by
  rcases Numeral.Spells.unsigned?_eq h with ⟨rest, hsign, hread⟩
  unfold ofChars?
  rw [Text.trimChars_trimChars]
  exact ofPlainChars?_of_unsigned? hsign hread

/-- The finite decimals that are read are those of the numerals that are written. -/
theorem Decimal.ofChars?_eq_some_iff
    {s : String} {d : Decimal}
    (hfinite : d.isFinite = true) :
    ofChars? (Text.trimChars s.toList) = some d ↔
      ∃ numeral : Numeral, numeral.Writes s ∧ ofNumeral? numeral = some d := by
  constructor
  · intro h
    unfold ofChars? at h
    rw [Text.trimChars_trimChars] at h
    change ofPlainChars? (Numeral.plainChars s) = some d at h
    unfold ofPlainChars? at h
    dsimp only at h
    rcases Numeral.exists_sign (Prod.eta (Numeral.splitSign (Numeral.plainChars s))).symm with
      ⟨sign, hsign, hplain⟩
    -- the words stand for no finite decimal
    have hnumeral : (Numeral.unsigned? (Numeral.splitSign (Numeral.plainChars s)).1
        (Numeral.splitSign (Numeral.plainChars s)).2).bind ofNumeral? = some d := by
      split at h
      · cases h
        cases hfinite
      · cases h
        cases hfinite
      · rcases Option.map_eq_some_iff.mp h with ⟨payload, _, rfl⟩
        cases hfinite
      · rcases Option.map_eq_some_iff.mp h with ⟨payload, _, rfl⟩
        cases hfinite
      · exact h
    rcases Option.bind_eq_some_iff.mp hnumeral with ⟨numeral, hread, hd⟩
    refine ⟨numeral, ?_, hd⟩
    unfold Numeral.Writes
    rw [hplain]
    exact Numeral.spells_of_unsigned? hsign hread
  · rintro ⟨numeral, hwrites, hd⟩
    exact (ofChars?_of_writes hwrites).trans hd

end RecordApi
