import RecordApi.Proofs.Conversion.Integers
import RecordApi.Proofs.Conversion.Moments
import RecordApi.Proofs.Conversion.Words
import RecordApi.Proofs.Storage.ReadingBack
import RecordApi.Proofs.Storage.Storing

/-!
# Values that a body and a filter share

A body and a filter convert what they are given by different rules.  For the values told here both
give the same, and the column holds it.
-/

namespace RecordApi

open Steps

/-- A body and a filter convert a value for a column of a type to the same, if they take it. -/
inductive Shared : ColumnType → Value → Prop
  | text {length : Option Nat} (s : String) : Shared (.varchar length) (.text s)
  | name {names : List String} (s : String) : Shared (.enumeration names) (.text s)
  | int (n : Int) : Shared .integer (.int n)
  /-- Up to 2 ^ 53, the shortest digits of a whole binary number are its exact ones. -/
  | whole {x : Binary64} {n : Int} (value : x.toInt? = some n)
      (exact_digits : n.natAbs ≤ 2 * Binary64.binade) : Shared .integer (.float x)
  | intText {s : String} (short : (s.toList.length : Int) < Decimal.exponentBound) :
      Shared .integer (.text s)
  | floatInt (n : Int) : Shared .float (.int n)
  | float {x : Binary64} (finite : x.isFinite = true) : Shared .float (.float x)
  | floatText {s : String} {d : Decimal}
      (number : Decimal.ofChars? (Text.trimChars s.toList) = some d)
      (finite : d.isFinite = true) : Shared .float (.text s)
  | decimalInt {precision scale : Nat} (n : Int) : Shared (.numeric precision scale) (.int n)
  | decimalFloat {precision scale : Nat} (x : Binary64) : Shared (.numeric precision scale) (.float x)
  | decimalText {precision scale : Nat} (s : String) : Shared (.numeric precision scale) (.text s)
  | bool (b : Bool) : Shared .boolean (.bool b)
  | boolInt (n : Int) : Shared .boolean (.int n)
  /-- The words of one letter for yes and no are shared, but not those for true and false. -/
  | boolText {s : String} (ne_t : Conversion.lowerText s ≠ "t")
      (ne_f : Conversion.lowerText s ≠ "f") : Shared .boolean (.text s)
  | date {s : String} (hyphen : '-' ∈ s.toList.tail)
      (plain : ∀ c ∈ ['z', 't', '_', '\u2212'], c ∉ s.toList) : Shared .date (.text s)
  | timestamp {s : String} (hyphen : '-' ∈ s.toList.tail)
      (plain : ∀ c ∈ ['z', '\u2212'], c ∉ s.toList)
      (universal : ∀ t, Conversion.timestamp (.text s) = .ok t →
        t.offset = none ∨ t.offset = some 0) : Shared .timestamp (.text s)
  | uuid (s : String) : Shared .uuid (.text s)
  | plain {v : Value}
      (scalar : (∃ b, v = .bool b) ∨ (∃ n, v = .int n) ∨ (∃ s, v = .text s) ∨
        ∃ x, v = .float x ∧ x ≠ .nan) : Shared .untyped v

namespace Operand

variable {field : String} {v : Value} {d : Decimal}

theorem coerce_number
    (h : number field v = .ok d) (hv : v ≠ .null) :
    coerce field .int v = .ok (integral d) ∧ coerce field .float v = .ok (.float d.toBinary64) ∧
      coerce field .decimal v = .ok (.decimal d) := by
  have hread (kind : Kind) (convert : Decimal → Value)
      (hkind : coerce field kind v = (number field v).map convert) :
      coerce field kind v = .ok (convert d) := by
    rw [hkind, h]
    rfl
  cases v with
  | null => exact absurd rfl hv
  | _ => exact ⟨hread .int integral rfl, hread .float (fun d => .float d.toBinary64) rfl,
      hread .decimal .decimal rfl⟩

theorem integral_of_toInt? {n : Int} (h : d.toInt? = some n) : integral d = .int n := by
  unfold integral
  rw [h]

/-- A whole number is taken as an integer. -/
theorem coerce_integer
    {n : Int}
    (h : number field v = .ok d) (hv : v ≠ .null) (hint : d.toInt? = some n) :
    coerce field .int v = .ok (.int n) := by
  rw [(coerce_number h hv).1, integral_of_toInt? hint]

/-- An integer is taken for itself. -/
theorem coerce_int_int (field : String) (n : Int) : coerce field .int (.int n) = .ok (.int n) :=
  coerce_integer (number_eq_ok rfl rfl) Value.noConfusion (Storage.toInt?_ofInt n)

end Operand

namespace Conversion

variable {field : String}

theorem ne_nan_of_isFinite {x : Binary64} (h : x.isFinite = true) : x ≠ .nan := by
  rintro rfl
  cases h

theorem number_int (field : String) (n : Int) : Operand.number field (.int n) = .ok (Decimal.ofInt n) :=
  Operand.number_eq_ok rfl rfl

theorem isFinite_ofBinary64 {x : Binary64} (h : x.isFinite = true) :
    (Decimal.ofBinary64 x).isFinite = true := by
  cases x with
  | finite negative rank =>
      unfold Decimal.ofBinary64
      dsimp only
      split
      · rfl
      · split <;> rfl
  | _ => cases h

theorem number_float {x : Binary64} (field : String) (h : x.isFinite = true) :
    Operand.number field (.float x) = .ok (Decimal.ofBinary64 x) :=
  Operand.number_eq_ok rfl (isFinite_ofBinary64 h)

theorem toInt?_of_integerOfFloat
    {x : Binary64} {n : Int}
    (h : integerOfFloat x = .ok n) :
    x.isFinite = true ∧ x.toInt? = some n := by
  unfold integerOfFloat at h
  split at h
  · cases h
  · rename_i hfinite
    split at h
    · cases h
    · rename_i m hm
      split at h
      · cases h
        exact ⟨by simpa using hfinite, hm⟩
      · cases h

theorem isFinite_of_float {n : Int} {x : Binary64} (h : float (.int n) = .ok x) :
    x.isFinite = true := by
  unfold float at h
  dsimp only at h
  split at h
  · rename_i hfinite
    rw [← Except.ok.inj h]
    exact hfinite
  · cases h

theorem decimalText_eq_ok
    {s : String} {d : Decimal}
    (h : decimal (.text s) = .ok d) :
    Decimal.ofChars? (Text.trimChars s.toList) = some d ∧ d.isFinite = true := by
  unfold decimal at h
  dsimp only at h
  split at h
  · rename_i found hfound
    split at h
    · rename_i hfinite
      rw [← Except.ok.inj h]
      exact ⟨hfound, hfinite⟩
    · cases h
  · cases h

theorem uuid_of_text
    {s : String} {u : Uuid}
    (h : uuid (.text s) = .ok u) :
    Operand.uuid field (.text s) = .ok u := by
  unfold uuid at h
  dsimp only at h
  split at h
  · rename_i found hfound
    unfold Operand.uuid
    dsimp only
    rw [trimmedChars_text, ofChars?_of_uuidOfText? hfound, ← Except.ok.inj h]
  · cases h

/-- The float of a text is a number when the text writes a finite one. -/
theorem float_ne_nan
    {d : Decimal}
    (h : d.isFinite = true) :
    d.toBinary64 ≠ .nan := by
  cases d with
  | finite negative coefficient exponent => exact Binary64.ofNumeral_ne_nan _
  | _ => cases h

end Conversion

namespace Shared

open Conversion

variable {type : ColumnType} {v w : Value}

/-- A filter takes what a body takes, and the column holds it. -/
theorem coerce_eq
    (h : Shared type v) (field : String) (hbody : ofKind type.kind v = .ok w) :
    Operand.coerce field type.kind v = .ok w ∧ type.Holds w := by
  cases h with
  | text s =>
      cases hbody
      exact ⟨rfl, .text s⟩
  | name s =>
      cases hbody
      exact ⟨rfl, .name s⟩
  | int n =>
      cases hbody
      exact ⟨Operand.coerce_int_int field n, .int n⟩
  | @whole x n hvalue hexact =>
      change (integerOfFloat x).map Value.int = _ at hbody
      rcases map_eq_ok.mp hbody with ⟨m, hm, rfl⟩
      rcases toInt?_of_integerOfFloat hm with ⟨hfinite, hint⟩
      rw [hvalue] at hint
      cases hint
      exact ⟨Operand.coerce_integer (number_float field hfinite) Value.noConfusion
        (integer_float hm hexact), .int n⟩
  | @intText s hshort =>
      change (integerOfText s).map Value.int = _ at hbody
      rcases map_eq_ok.mp hbody with ⟨n, hn, rfl⟩
      rcases ofChars?_of_integerOfText hn hshort with ⟨d, hread, hfinite, hint⟩
      have hnumber : Operand.number field (.text s) = .ok d := Operand.number_eq_ok hread hfinite
      exact ⟨Operand.coerce_integer hnumber Value.noConfusion hint, .int n⟩
  | floatInt n =>
      change (Conversion.float (.int n)).map Value.float = _ at hbody
      rcases map_eq_ok.mp hbody with ⟨x, hx, rfl⟩
      have hcoerce := (Operand.coerce_number (number_int field n) Value.noConfusion).2.1
      rw [float_int hx] at hcoerce
      exact ⟨hcoerce, .float (ne_nan_of_isFinite (isFinite_of_float hx))⟩
  | @float x hfinite =>
      cases hbody
      have hcoerce := (Operand.coerce_number (number_float field hfinite) Value.noConfusion).2.1
      rw [Decimal.toBinary64_ofBinary64 hfinite] at hcoerce
      exact ⟨hcoerce, .float (ne_nan_of_isFinite hfinite)⟩
  | @floatText s d hread hfinite =>
      change (Conversion.float (.text s)).map Value.float = _ at hbody
      rcases map_eq_ok.mp hbody with ⟨x, hx, rfl⟩
      have hnumber : Operand.number field (.text s) = .ok d := Operand.number_eq_ok hread hfinite
      have hcoerce := (Operand.coerce_number hnumber Value.noConfusion).2.1
      have heq := float_text hx hread hfinite
      rw [heq] at hcoerce
      exact ⟨hcoerce, .float (by rw [← heq]; exact float_ne_nan hfinite)⟩
  | decimalInt n =>
      change (decimal (.int n)).map Value.decimal = _ at hbody
      rcases map_eq_ok.mp hbody with ⟨d, hd, rfl⟩
      cases hd
      exact ⟨(Operand.coerce_number (number_int field n) Value.noConfusion).2.2, .decimal rfl⟩
  | decimalFloat x =>
      change (decimal (.float x)).map Value.decimal = _ at hbody
      rcases map_eq_ok.mp hbody with ⟨d, hd, rfl⟩
      rcases decimal_float hd with ⟨rfl, hfinite⟩
      have hnumber : Operand.number field (.float x) = .ok (Decimal.ofBinary64 x) :=
        Operand.number_eq_ok rfl hfinite
      exact ⟨(Operand.coerce_number hnumber Value.noConfusion).2.2, .decimal hfinite⟩
  | decimalText s =>
      change (decimal (.text s)).map Value.decimal = _ at hbody
      rcases map_eq_ok.mp hbody with ⟨d, hd, rfl⟩
      rcases decimalText_eq_ok hd with ⟨hread, hfinite⟩
      have hnumber : Operand.number field (.text s) = .ok d := Operand.number_eq_ok hread hfinite
      exact ⟨(Operand.coerce_number hnumber Value.noConfusion).2.2, .decimal hfinite⟩
  | bool b =>
      cases hbody
      exact ⟨rfl, .bool b⟩
  | boolInt n =>
      change (truth (.int n)).map Value.bool = _ at hbody
      rcases map_eq_ok.mp hbody with ⟨b, hb, rfl⟩
      change (Operand.bool field (.int n)).map Value.bool = _ ∧ _
      rw [bool_of_truth_int hb]
      exact ⟨rfl, .bool b⟩
  | @boolText s hneT hneF =>
      change (truth (.text s)).map Value.bool = _ at hbody
      rcases map_eq_ok.mp hbody with ⟨b, hb, rfl⟩
      change (Operand.bool field (.text s)).map Value.bool = _ ∧ _
      rw [bool_of_truth hb hneT hneF]
      exact ⟨rfl, .bool b⟩
  | @date s hhyphen hplain =>
      change (Conversion.date (.text s)).map Value.date = _ at hbody
      rcases map_eq_ok.mp hbody with ⟨d, hd, rfl⟩
      change (Operand.date field (.text s)).map Value.date = _ ∧ _
      rw [date_of_text hd hhyphen hplain]
      exact ⟨rfl, .date d⟩
  | @timestamp s hhyphen hplain huniversal =>
      change (Conversion.timestamp (.text s)).map Value.timestamp = _ at hbody
      rcases map_eq_ok.mp hbody with ⟨t, ht, rfl⟩
      change (Operand.timestamp field (.text s)).map Value.timestamp = _ ∧ _
      rw [timestamp_of_text ht hhyphen (hplain 'z' (by simp)) (hplain '\u2212' (by simp))
        (huniversal t ht)]
      exact ⟨rfl, .timestamp t⟩
  | uuid s =>
      change (Conversion.uuid (.text s)).map Value.uuid = _ at hbody
      rcases map_eq_ok.mp hbody with ⟨u, hu, rfl⟩
      change (Operand.uuid field (.text s)).map Value.uuid = _ ∧ _
      rw [uuid_of_text hu]
      exact ⟨rfl, .uuid u⟩
  | plain hscalar =>
      have hkeep : ofKind .untyped v = .ok v ∧ Operand.coerce field .untyped v = .ok v := by
        rcases hscalar with ⟨_, rfl⟩ | ⟨_, rfl⟩ | ⟨_, rfl⟩ | ⟨_, rfl, _⟩
        all_goals exact ⟨rfl, rfl⟩
      have hsame : Except.ok v = Except.ok w := hkeep.1.symm.trans hbody
      cases hsame
      exact ⟨hkeep.2, .plain hscalar⟩

end Shared
end RecordApi
