import RecordApi.Proofs.Conversion.Sharing
import RecordApi.Sample.Rows

/-!
# Operands that are converted again

What an operand is converted to is taken for itself when it is converted once more, with two
exceptions.  A number may be rounded to infinity, which is refused as an operand.  And for a column
of integers a number that is none may be rounded to one that is, which becomes an integer then.
-/

namespace RecordApi
namespace Operand

open Steps

variable {field : String} {kind : Kind} {v w : Value} {d : Decimal} {x : Binary64}

/-- A converted value that is something else when it is converted again: an infinite number, or a
whole binary number in the place of an integer. -/
def Drifts : Kind → Value → Prop
  | .int, .float x => x.isFinite = false ∨ x.toInt?.isSome = true
  | .float, .float x => x.isFinite = false
  | _, _ => False

instance (kind : Kind) (w : Value) : Decidable (Drifts kind w) := by
  unfold Drifts
  split <;> infer_instance

/-! ## Numbers -/

theorem isFinite_of_number
    (h : number field v = .ok d) :
    d.isFinite = true := by
  unfold number at h
  split at h
  · rename_i found hfound
    cases h
    exact (Option.filter_eq_some_iff.mp hfound).2
  · cases h

theorem number_float
    (field : String) (hx : x.isFinite = true) :
    number field (.float x) = .ok (Decimal.ofBinary64 x) :=
  number_eq_ok rfl (Conversion.isFinite_ofBinary64 hx)

theorem number_infinite
    (field : String) (hx : x.isFinite = false) :
    number field (.float x) = .error (.invalid field .number) := by
  cases x with
  | finite negative rank => cases hx
  | _ => rfl

/-- A binary number that is no integer stays the number that it is, beside integers as well. -/
theorem integral_ofBinary64
    (hx : x.isFinite = true) (hnone : x.toInt? = none) :
    integral (Decimal.ofBinary64 x) = .float x := by
  have hdecimal : (Decimal.ofBinary64 x).toInt? = none := by
    rw [← Option.not_isSome_iff_eq_none, Decimal.isSome_toInt?_ofBinary64, hnone]
    exact Bool.false_ne_true
  unfold integral
  rw [hdecimal]
  dsimp only
  rw [Decimal.toBinary64_ofBinary64 hx]

/-- A binary number for a column of integers is kept, becomes an integer, or is refused. -/
theorem coerce_int_float (field : String) (x : Binary64) :
    coerce field .int (.float x) =
      if x.isFinite = false then .error (.invalid field .number)
      else (x.toInt?.elim (.ok (.float x)) fun _ => .ok (integral (Decimal.ofBinary64 x))) := by
  change (number field (.float x)).map integral = _
  split
  · rename_i hx
    rw [number_infinite field hx]
    rfl
  · rename_i hx
    rw [Bool.not_eq_false] at hx
    rw [number_float field hx]
    cases hint : x.toInt? with
    | none => exact congrArg Except.ok (integral_ofBinary64 hx hint)
    | some n => rfl

theorem coerce_float_float (field : String) (x : Binary64) :
    coerce field .float (.float x) =
      if x.isFinite = false then .error (.invalid field .number) else .ok (.float x) := by
  change (number field (.float x)).map (fun d => Value.float d.toBinary64) = _
  split
  · rename_i hx
    rw [number_infinite field hx]
    rfl
  · rename_i hx
    rw [Bool.not_eq_false] at hx
    rw [number_float field hx]
    exact congrArg (Except.ok ∘ Value.float) (Decimal.toBinary64_ofBinary64 hx)

/-! ## Converting again -/

/-- A converted value is taken for itself unless it drifts.  By cases on the kind: only columns of
integers and of binary numbers give binary numbers. -/
theorem coerce_again
    (h : coerce field kind v = .ok w) (hdrifts : ¬ Drifts kind w) :
    coerce field kind w = .ok w := by
  unfold coerce at h
  split at h
  · cases h
    rfl
  · cases kind with
    | bool | timestamp | date | uuid =>
        rcases map_eq_ok.mp h with ⟨_, _, rfl⟩
        rfl
    | int =>
        rcases map_eq_ok.mp h with ⟨d, hd, rfl⟩
        unfold integral at hdrifts ⊢
        cases hint : d.toInt? with
        | some n => exact coerce_int_int field n
        | none =>
            rw [hint] at hdrifts
            rcases not_or.mp hdrifts with ⟨hinfinite, hwhole⟩
            dsimp only
            rw [coerce_int_float, if_neg hinfinite, Option.not_isSome_iff_eq_none.mp hwhole]
            rfl
    | float =>
        rcases map_eq_ok.mp h with ⟨d, hd, rfl⟩
        rw [coerce_float_float]
        exact if_neg hdrifts
    | decimal =>
        rcases map_eq_ok.mp h with ⟨d, hd, rfl⟩
        have hfinite := isFinite_of_number hd
        exact (coerce_number (number_eq_ok rfl hfinite) Value.noConfusion).2.2
    | text | bytes | untyped =>
        cases h
        unfold coerce
        split <;> rfl

/-- What drifts is refused, or becomes an integer. -/
theorem coerce_of_drifts
    (h : Drifts kind w) :
    coerce field kind w = .error (.invalid field .number) ∨
      kind = .int ∧ ∃ n, coerce field kind w = .ok (.int n) := by
  unfold Drifts at h
  split at h
  · rename_i x
    rw [coerce_int_float]
    by_cases hinfinite : x.isFinite = false
    · rw [if_pos hinfinite]
      exact .inl rfl
    · rcases Option.isSome_iff_exists.mp (h.resolve_left hinfinite) with ⟨n, hn⟩
      have hdecimal : (Decimal.ofBinary64 x).toInt?.isSome = true := by
        rw [Decimal.isSome_toInt?_ofBinary64, hn]
        rfl
      rcases Option.isSome_iff_exists.mp hdecimal with ⟨m, hm⟩
      rw [if_neg hinfinite, hn, integral_of_toInt? hm]
      exact .inr ⟨rfl, m, rfl⟩
  · rw [coerce_float_float, if_pos h]
    exact .inl rfl
  · exact h.elim

/-- A converted value is taken for itself exactly when it does not drift.  What drifts is refused,
or becomes an integer. -/
theorem coerce_again_iff
    (h : coerce field kind v = .ok w) :
    (coerce field kind w = .ok w ↔ ¬ Drifts kind w) ∧
      (Drifts kind w → coerce field kind w = .error (.invalid field .number) ∨
        kind = .int ∧ ∃ n, coerce field kind w = .ok (.int n)) := by
  refine ⟨⟨?_, coerce_again h⟩, coerce_of_drifts⟩
  intro hagain hdrifts
  have hafter : coerce field kind w = .error (.invalid field .number) ∨
      kind = .int ∧ ∃ n, coerce field kind w = .ok (.int n) :=
    coerce_of_drifts hdrifts
  rcases hafter with hrefused | ⟨rfl, n, hn⟩
  · rw [hrefused] at hagain
    cases hagain
  · rw [hn] at hagain
    cases hagain
    exact hdrifts

end Operand

namespace Sample

theorem coerce_again_tenth :
    Operand.coerce "weight" .float (.text "0.1") = .ok (weightOf false 1 10) ∧
      Operand.coerce "weight" .float (weightOf false 1 10) = .ok (weightOf false 1 10) := by
  have hnumber : Operand.number "weight" (.text "0.1") = .ok (.finite false 1 (-1)) := by
    decide
  have hrounded : (Decimal.finite false 1 (-1)).toBinary64 = Binary64.ofRatio false 1 10 := by
    decide +kernel
  have hstays : ¬ Operand.Drifts .float (weightOf false 1 10) := by decide +kernel
  have hcoerce := (Operand.coerce_number hnumber Value.noConfusion).2.1
  rw [hrounded] at hcoerce
  exact ⟨hcoerce, (Operand.coerce_again_iff hcoerce).1.mpr hstays⟩

/-- A text that is rounded to infinity is taken, and infinity is not.  A text just below one is
rounded to one, which becomes an integer. -/
theorem coerce_again_fails :
    (Operand.coerce "weight" .float (.text "1e400") = .ok (.float (.infinite false)) ∧
      Operand.coerce "weight" .float (.float (.infinite false)) =
        .error (.invalid "weight" .number)) ∧
    Operand.coerce "qty" .int (.text "0.99999999999999999999") = .ok (weightOf false 1 1) ∧
      Operand.coerce "qty" .int (weightOf false 1 1) = .ok (.int 1) := by
  have hlarge : Operand.number "weight" (.text "1e400") = .ok (.finite false 1 400) := by
    decide
  have hnearly : Operand.number "qty" (.text "0.99999999999999999999") =
      .ok (.finite false 99999999999999999999 (-20)) := by
    decide
  have hone : Operand.number "qty" (weightOf false 1 1) = .ok (.finite false 10 (-1)) := by
    decide +kernel
  have hrounded : (Decimal.finite false 99999999999999999999 (-20)).toBinary64 =
      Binary64.ofRatio false 1 1 := by
    decide +kernel
  have hfirst := (Operand.coerce_number hnearly Value.noConfusion).1
  have hsecond := (Operand.coerce_number hone Value.noConfusion).1
  have hintegral : Operand.integral (.finite false 99999999999999999999 (-20)) =
      weightOf false 1 1 := congrArg Value.float hrounded
  rw [hintegral] at hfirst
  exact ⟨⟨(Operand.coerce_number hlarge Value.noConfusion).2.1, rfl⟩, hfirst, hsecond⟩

end Sample
end RecordApi
