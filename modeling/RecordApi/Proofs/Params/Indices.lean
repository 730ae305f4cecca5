import Mathlib.Data.List.Nodup
import RecordApi.Params.Tree
import RecordApi.Proofs.Assoc
import RecordApi.Proofs.Params.Keys
import RecordApi.Proofs.Steps

/-!
# List indices

An index is written in decimal digits and read as the number it writes, so that the entries of
a list can be put in order again.
-/

namespace RecordApi
namespace Text

/-! ## Digits -/

theorem digitValue?_of_isDigit {c : Char} (h : c.isDigit = true) :
    digitValue? c = some (c.toNat - '0'.toNat) := by
  have hrange : (0x30 ≤ c.toNat && c.toNat ≤ 0x30 + 9) = true := by
    simp only [Char.isDigit, ge_iff_le, Bool.and_eq_true, decide_eq_true_eq] at h ⊢
    exact ⟨h.1, h.2⟩
  have hfirst : zeros.find? (fun first => first ≤ c.toNat && c.toNat ≤ first + 9) = some 0x30 :=
    List.find?_cons_of_pos hrange
  unfold digitValue?
  rw [hfirst]
  rfl

theorem natOfDigits?_of_isDigit
    {cs : List Char} (h : ∀ c ∈ cs, c.isDigit = true) :
    natOfDigits? cs = some (Nat.ofDigitChars 10 cs 0) := by
  unfold natOfDigits? Nat.ofDigitChars
  generalize 0 = total
  induction cs generalizing total with
  | nil => rfl
  | cons c rest ih =>
      rw [List.forall_mem_cons] at h
      rw [List.foldl_cons, List.foldl_cons, Option.bind_some, digitValue?_of_isDigit h.1,
        Option.map_some]
      exact ih h.2 _

theorem isDigit_of_mem_toString {n : Nat} {c : Char} (h : c ∈ (toString n).toList) :
    c.isDigit = true := by
  rw [Nat.toString_eq_ofList_toDigits, String.toList_ofList] at h
  exact Nat.isDigit_of_mem_toDigits (by decide) (by decide) h

theorem toString_ne_empty (n : Nat) : (toString n).isEmpty = false := by
  rw [Nat.toString_eq_ofList_toDigits]
  simp

theorem isDigitText_toString (n : Nat) : isDigitText (toString n) = true := by
  unfold isDigitText
  rw [toString_ne_empty, Bool.not_false, Bool.true_and, List.all_eq_true]
  intro c hc
  have hdigit := digitValue?_of_isDigit (isDigit_of_mem_toString hc)
  simp [isDigitLike, isDecimalDigit, hdigit]

theorem natOfDigits?_toString (n : Nat) : natOfDigits? (toString n).toList = some n := by
  rw [natOfDigits?_of_isDigit fun c => isDigit_of_mem_toString, Nat.toString_eq_ofList_toDigits,
    String.toList_ofList, Nat.ofDigitChars_ten_toDigits]

theorem toString_injective : Function.Injective (toString : Nat → String) := by
  intro n m h
  have hn := natOfDigits?_toString n
  rw [h, natOfDigits?_toString] at hn
  exact (Option.some.inj hn).symm

end Text

namespace Key

theorem isName_toString (n : Nat) : isName (toString n) = true := by
  unfold isName
  rw [Text.toString_ne_empty, Bool.not_false, Bool.true_and, List.all_eq_true]
  intro c hc
  have hdigit := Text.isDigit_of_mem_toString hc
  unfold isBracket
  rw [Bool.not_eq_true', Bool.or_eq_false_iff, beq_eq_false_iff_ne, beq_eq_false_iff_ne]
  constructor
  · rintro rfl
    exact absurd hdigit (by decide)
  · rintro rfl
    exact absurd hdigit (by decide)

end Key

namespace Params

open Steps

theorem indexNumber?_toString {n : Nat} (h : (toString n).length ≤ Json.integerDigits) :
    indexNumber? (toString n) = some n := by
  unfold indexNumber?
  rw [if_pos h, Text.natOfDigits?_toString]

/-! ## Entries by index -/

/-- The items of a list as entries under their indices, the first of which is given. -/
def indexed (start : Nat) (items : List Value) : List (String × Value) :=
  (items.zipIdx start).map fun item => (toString item.2, item.1)

theorem indexed_cons (start : Nat) (item : Value) (rest : List Value) :
    indexed start (item :: rest) = (toString start, item) :: indexed (start + 1) rest := rfl

theorem itemLeaves_eq_entryLeaves (start : Nat) (items : List Value) :
    Value.itemLeaves start items = Value.entryLeaves (indexed start items) := by
  induction items generalizing start with
  | nil => rw [indexed, List.zipIdx_nil, List.map_nil, Value.itemLeaves, Value.entryLeaves]
  | cons item rest ih => rw [indexed_cons, Value.itemLeaves, Value.entryLeaves, ih]

theorem keys_indexed (start : Nat) (items : List Value) :
    Assoc.keys (indexed start items) = (List.range' start items.length).map toString := by
  unfold Assoc.keys indexed
  rw [List.map_map, ← List.zipIdx_map_snd, List.map_map]
  rfl

theorem exists_index_of_mem_keys
    {items : List Value} {key : String} (h : key ∈ Assoc.keys (indexed 0 items)) :
    ∃ i : Nat, key = toString i := by
  rw [keys_indexed] at h
  rcases List.mem_map.mp h with ⟨i, _, rfl⟩
  exact ⟨i, rfl⟩

theorem nodup_keys_indexed (start : Nat) (items : List Value) :
    (Assoc.keys (indexed start items)).Nodup := by
  rw [keys_indexed]
  exact (List.nodup_range' 1).map Text.toString_injective

theorem mem_indexed {items : List Value} {entry : String × Value} :
    entry ∈ indexed 0 items ↔ ∃ i : Nat, items[i]? = some entry.2 ∧ entry.1 = toString i := by
  unfold indexed
  rw [List.mem_map]
  constructor
  · rintro ⟨item, hitem, rfl⟩
    exact ⟨item.2, List.mem_zipIdx_iff_getElem?.mp hitem, rfl⟩
  · rintro ⟨i, hi, hkey⟩
    exact ⟨(entry.2, i), List.mem_zipIdx_iff_getElem?.mpr hi, Prod.ext hkey.symm rfl⟩

/-- Entries whose keys are the indices of a list are the entries of another list. -/
theorem exists_perm_indexed
    {values : Assoc Value} {items : List Value}
    (hkeys : (Assoc.keys values).Perm (Assoc.keys (indexed 0 items))) :
    ∃ others : List Value, others.length = items.length ∧ values.Perm (indexed 0 others) := by
  have hdistinct : (Assoc.keys values).Nodup := hkeys.nodup_iff.mpr (nodup_keys_indexed 0 items)
  let others : List Value :=
    (List.range items.length).map fun i => (values.get? (toString i)).getD .null
  have hlength : others.length = items.length := by simp [others]
  refine ⟨others, hlength, Assoc.perm_of_get?_eq hdistinct ?_ ?_⟩
  · rwa [keys_indexed, hlength, ← keys_indexed]
  · intro key hkey
    rcases List.mem_map.mp (hkeys.mem_iff.mp hkey) with ⟨entry, hentry, hequal⟩
    rcases mem_indexed.mp hentry with ⟨i, hi, htext⟩
    have hlt := (List.getElem?_eq_some_iff.mp hi).1
    rcases List.mem_map.mp hkey with ⟨found, hfound, rfl⟩
    have hvalue := (Assoc.get?_eq_some hdistinct).mpr hfound
    have hother : others[i]? = some found.2 := by
      have hread : (values.get? (toString i)).getD .null = found.2 := by
        rw [← htext, hequal, hvalue]
        rfl
      simpa [others, hlt] using hread
    rw [hvalue, eq_comm, Assoc.get?_eq_some (nodup_keys_indexed 0 others), mem_indexed]
    exact ⟨i, hother, hequal.symm.trans htext⟩

/-- The items of a list, each behind its index. -/
def numbered (items : List Value) : List (Nat × Value) :=
  items.zipIdx.map fun item => (item.2, item.1)

theorem mem_numbered {items : List Value} {entry : Nat × Value} :
    entry ∈ numbered items ↔ items[entry.1]? = some entry.2 := by
  unfold numbered
  rw [List.mem_map]
  constructor
  · rintro ⟨item, hitem, rfl⟩
    exact List.mem_zipIdx_iff_getElem?.mp hitem
  · intro hentry
    exact ⟨(entry.2, entry.1), List.mem_zipIdx_iff_getElem?.mpr hentry, rfl⟩

theorem pairwise_numbered (items : List Value) :
    (numbered items).Pairwise fun a b => decide (a.1 ≤ b.1) = true := by
  have hrange := List.pairwise_lt_range' (s := 0) (n := items.length) 1
  rw [← List.zipIdx_map_snd, List.pairwise_map] at hrange
  unfold numbered
  rw [List.pairwise_map]
  exact hrange.imp fun hlt => decide_eq_true (Nat.le_of_lt hlt)

theorem number_trans
    (a b c : Nat × Value)
    (hab : decide (a.1 ≤ b.1) = true) (hbc : decide (b.1 ≤ c.1) = true) :
    decide (a.1 ≤ c.1) = true := by
  rw [decide_eq_true_eq] at *
  exact Nat.le_trans hab hbc

theorem number_total (a b : Nat × Value) :
    (decide (a.1 ≤ b.1) || decide (b.1 ≤ a.1)) = true := by
  rw [Bool.or_eq_true, decide_eq_true_eq, decide_eq_true_eq]
  exact Nat.le_total a.1 b.1

/-- However numbered items stand, sorting puts them in order: no two have one number. -/
theorem mergeSort_of_perm_numbered
    {entries : List (Nat × Value)} {items : List Value}
    (hperm : entries.Perm (numbered items)) :
    (entries.mergeSort fun a b => decide (a.1 ≤ b.1)) = numbered items := by
  have hsorted := List.pairwise_mergeSort number_trans number_total entries
  have hall := (List.mergeSort_perm entries fun a b => decide (a.1 ≤ b.1)).trans hperm
  refine List.Perm.eq_of_pairwise ?_ hsorted (pairwise_numbered items) hall
  intro a b ha hb hab hba
  rw [decide_eq_true_eq] at hab hba
  have hnumber := Nat.le_antisymm hab hba
  have hfirst := mem_numbered.mp (hall.mem_iff.mp ha)
  rw [hnumber, mem_numbered.mp hb] at hfirst
  exact Prod.ext hnumber (Option.some.inj hfirst).symm

/-- Wherever the entries of a list stand, they are put in the order of its items. -/
theorem inIndexOrder_of_perm
    {entries : List (String × Value)} {items : List Value}
    (hcountable : ∀ i < items.length, (toString i).length ≤ Json.integerDigits)
    (hperm : entries.Perm (indexed 0 items)) :
    inIndexOrder entries = .ok items := by
  let number (entry : String × Value) : Nat × Value :=
    ((indexNumber? entry.1).getD 0, entry.2)
  have hindex : ∀ entry ∈ indexed 0 items, ∃ n, indexNumber? entry.1 = some n := by
    intro entry hentry
    rcases mem_indexed.mp hentry with ⟨i, hi, hkey⟩
    have hlt := (List.getElem?_eq_some_iff.mp hi).1
    exact ⟨i, by rw [hkey, indexNumber?_toString (hcountable _ hlt)]⟩
  have hnumber : (indexed 0 items).map number = numbered items := by
    unfold indexed numbered
    rw [List.map_map]
    refine List.map_congr_left fun item hitem => ?_
    have hlt := (List.getElem?_eq_some_iff.mp (List.mem_zipIdx_iff_getElem?.mp hitem)).1
    change ((indexNumber? (toString item.2)).getD 0, item.1) = (item.2, item.1)
    rw [indexNumber?_toString (hcountable _ hlt)]
    rfl
  have hsort := mergeSort_of_perm_numbered (hnumber ▸ hperm.map number)
  unfold inIndexOrder
  rw [mapM_eq_ok (g := number)]
  · change Except.ok (((entries.map number).mergeSort fun a b => decide (a.1 ≤ b.1)).map (·.2)) = _
    rw [hsort]
    unfold numbered
    rw [List.map_map]
    exact congrArg Except.ok (List.zipIdx_map_fst 0 items)
  · intro entry hentry
    rcases hindex entry (hperm.mem_iff.mp hentry) with ⟨n, hn⟩
    simp only [number, hn, Option.getD_some]

/-! ## Keys read as numbers -/

variable {entry : String × Value} {pair : Nat × Value} {e : Error}

/-- A value behind the number that its key writes. -/
def readIndex (entry : String × Value) : Except Error (Nat × Value) :=
  match indexNumber? entry.1 with
  | some n => .ok (n, entry.2)
  | none => .error .indexNotDecimal

theorem inIndexOrder_eq (entries : List (String × Value)) :
    inIndexOrder entries = (entries.mapM readIndex).map fun pairs =>
      (pairs.mergeSort fun a b => a.1 ≤ b.1).map (·.2) := by
  unfold inIndexOrder
  change (entries.mapM readIndex >>= _) = _
  cases entries.mapM readIndex <;> rfl

theorem readIndex_eq_ok :
    readIndex entry = .ok pair ↔ indexNumber? entry.1 = some pair.1 ∧ entry.2 = pair.2 := by
  unfold readIndex
  cases indexNumber? entry.1 with
  | none => simp
  | some n => simp [Prod.ext_iff]

theorem readIndex_eq_error :
    readIndex entry = .error e ↔ indexNumber? entry.1 = none ∧ .indexNotDecimal = e := by
  unfold readIndex
  cases indexNumber? entry.1 with
  | none => simp
  | some n => simp

theorem exists_readIndex_iff :
    (∃ pair, readIndex entry = .ok pair) ↔ indexNumber? entry.1 ≠ none := by
  unfold readIndex
  cases indexNumber? entry.1 <;> simp

end Params
end RecordApi
