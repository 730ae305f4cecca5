import RecordApi.Conversion.Field
import RecordApi.Proofs.Text.Cases
import RecordApi.Schema.Operand

/-!
# Truth values and identifiers in texts

Words for truth values and identifiers are plain characters without blanks.  What a body reads from
them, a filter reads as well, but for two words that only a body takes.
-/

namespace RecordApi

/-! ## Words -/

namespace Text

/-- A character with a letter or a digit for its small form is no blank. -/
theorem isBlank_of_toLower
    {c : Char}
    (h : c.toLower.isLower = true ∨ c.toLower.isDigit = true) :
    isBlank c = false := by
  have hall : ∀ n < 128, ((Char.ofNat n).toLower.isLower = true ∨
      (Char.ofNat n).toLower.isDigit = true) → isBlank (Char.ofNat n) = false := by decide
  by_cases hascii : c.toNat < 128
  · exact forall_ascii (p := fun c => (c.toLower.isLower = true ∨ c.toLower.isDigit = true) →
      isBlank c = false) hall hascii h
  · rw [toLower_of_not_ascii hascii] at h
    rcases h with hlower | hdigit
    · have hrange : (decide (c.val ≥ 'a'.val) && decide (c.val ≤ 'z'.val)) = true := hlower
      rw [Bool.and_eq_true, decide_eq_true_eq, decide_eq_true_eq] at hrange
      have hle : c.toNat ≤ 122 := hrange.2
      omega
    · exact absurd (lt_of_isDigit hdigit) hascii

end Text

namespace Conversion

variable {field : String}

def lowerText (s : String) : String :=
  String.ofList (s.toList.map Char.toLower)

/-- A word is not trimmed. -/
theorem word_of_lowerText
    {s : String}
    (h : ∀ c ∈ (lowerText s).toList, c.isLower = true ∨ c.isDigit = true) :
    Operand.word (.text s) = lowerText s := by
  have hplain : Text.trimChars s.toList = s.toList := by
    apply Text.trimChars_eq_self
    intro c hc
    apply Text.isBlank_of_toLower
    apply h
    unfold lowerText
    rw [String.toList_ofList]
    exact List.mem_map_of_mem hc
  unfold Operand.word Value.trimmedChars Value.plainText
  rw [hplain]
  rfl

/-- A word for a truth value has the same one in a body and in a filter, where a filter takes it. -/
theorem bool_of_truth
    {s : String} {b : Bool}
    (h : truth (.text s) = .ok b) (ht : lowerText s ≠ "t") (hf : lowerText s ≠ "f") :
    Operand.bool field (.text s) = .ok b := by
  have hwords (word : String) (hword : word ∈ trueWords ++ falseWords) :
      ∀ c ∈ word.toList, c.isLower = true ∨ c.isDigit = true := by
    have hall : ((trueWords ++ falseWords).all fun word =>
        word.toList.all fun c => c.isLower || c.isDigit) = true := by decide
    intro c hc
    exact Bool.or_eq_true_iff.mp (List.all_eq_true.mp (List.all_eq_true.mp hall word hword) c hc)
  unfold truth at h
  dsimp only at h
  change (if trueWords.contains (lowerText s) then _ else
    if falseWords.contains (lowerText s) then _ else _) = _ at h
  have hread (hmem : lowerText s ∈ trueWords ++ falseWords) :
      Operand.bool field (.text s) =
        if Operand.trueWords.contains (lowerText s) then .ok true
        else if Operand.falseWords.contains (lowerText s) then .ok false
        else .error (.invalid field .boolean) := by
    rw [← word_of_lowerText (hwords _ hmem)]
    rfl
  generalize lowerText s = word at h ht hf hread
  split at h
  · rename_i htrue
    have hmem := List.contains_iff_mem.mp htrue
    rw [← Except.ok.inj h, hread (List.mem_append_left _ hmem)]
    simp only [trueWords, List.mem_cons, List.not_mem_nil, or_false] at hmem
    rcases hmem with rfl | rfl | rfl | rfl | rfl | rfl
    case inr.inr.inl => exact absurd rfl ht
    all_goals rfl
  · split at h
    · rename_i hfalse
      have hmem := List.contains_iff_mem.mp hfalse
      rw [← Except.ok.inj h, hread (List.mem_append_right _ hmem)]
      simp only [falseWords, List.mem_cons, List.not_mem_nil, or_false] at hmem
      rcases hmem with rfl | rfl | rfl | rfl | rfl | rfl
      case inr.inr.inl => exact absurd rfl hf
      all_goals rfl
    · cases h

/-- Zero and one are the two truth values. -/
theorem bool_of_truth_int
    {n : Int} {b : Bool}
    (h : truth (.int n) = .ok b) :
    Operand.bool field (.int n) = .ok b := by
  have hread : Operand.bool field (.int n) =
      if Operand.trueWords.contains (Operand.word (.int n)) then .ok true
      else if Operand.falseWords.contains (Operand.word (.int n)) then .ok false
      else .error (.invalid field .boolean) := rfl
  have hzero : Operand.word (.int 0) = "0" := by decide
  have hone : Operand.word (.int 1) = "1" := by decide
  unfold truth truthOfInt at h
  dsimp only at h
  rw [hread]
  split at h
  · split at h
    · rename_i hn
      rw [hn, hzero, ← Except.ok.inj h]
      rfl
    · split at h
      · rename_i hn
        rw [hn, hone, ← Except.ok.inj h]
        rfl
      · cases h
  · cases h

end Conversion

/-! ## Identifiers -/

namespace Uuid

/-- A hexadecimal digit or a hyphen. -/
def IsHex (c : Char) : Prop :=
  ((hexValue? c).isSome || c == '-') = true

theorem IsHex.spec {c : Char} (h : IsHex c) :
    Text.isBlank c = false ∧ c ≠ 'u' ∧ c ≠ '\x7b' ∧ c ≠ '\x7d' := by
  have hall : ∀ n < 128, ((hexValue? (Char.ofNat n)).isSome || Char.ofNat n == '-') = true →
      Text.isBlank (Char.ofNat n) = false ∧ Char.ofNat n ≠ 'u' ∧ Char.ofNat n ≠ '\x7b' ∧
        Char.ofNat n ≠ '\x7d' := by decide
  have hascii : c.toNat < 128 := by
    unfold IsHex hexValue? at h
    split at h
    · rename_i hdigit
      exact Text.lt_of_isDigit hdigit
    · split at h
      · rename_i hletter
        have hle : c.toNat ≤ 102 := hletter.2
        omega
      · split at h
        · rename_i hletter
          have hle : c.toNat ≤ 70 := hletter.2
          omega
        · have hhyphen : c = '-' := by simpa using h
          rw [hhyphen]
          decide
  exact Text.forall_ascii (p := fun c => ((hexValue? c).isSome || c == '-') = true →
    Text.isBlank c = false ∧ c ≠ 'u' ∧ c ≠ '\x7b' ∧ c ≠ '\x7d') hall hascii h

theorem removeWord_eq_self
    {first : Char} {word cs : List Char}
    (h : first ∉ cs) :
    removeWord (first :: word) cs = cs := by
  induction cs with
  | nil => rw [removeWord]
  | cons c rest ih =>
      rw [List.mem_cons, not_or] at h
      have hprefix : (first :: word).isPrefixOf (c :: rest) = false := by
        simp [List.isPrefixOf, h.1]
      rw [removeWord, hprefix, if_neg (by decide), ih h.2]

/-- A word at the start is removed. -/
theorem removeWord_append (first : Char) (word cs : List Char) :
    removeWord (first :: word) (first :: word ++ cs) = removeWord (first :: word) cs := by
  have hprefix : (first :: word).isPrefixOf (first :: word ++ cs) = true := by
    rw [List.isPrefixOf_iff_prefix]
    exact List.prefix_append _ _
  rw [List.cons_append] at hprefix ⊢
  rw [removeWord, hprefix, if_pos rfl, List.length_cons, Nat.add_sub_cancel, List.drop_left]

theorem stripBraces_around
    {lead trail inner : List Char}
    (hlead : ∀ c ∈ lead, c = '\x7b') (htrail : ∀ c ∈ trail, c = '\x7d')
    (hinner : ∀ c ∈ inner, IsHex c) :
    stripBraces (lead ++ (inner ++ trail)) = inner := by
  apply Text.dropWhile_around
  · intro c hc
    rw [hlead c hc]
    rfl
  · intro c hc
    rw [htrail c hc]
    rfl
  · intro c hc
    rcases (hinner c hc).spec with ⟨_, _, hopen, hclose⟩
    simp [hopen, hclose]

theorem isHex_filter
    {cs : List Char}
    (h : ∀ c ∈ cs, IsHex c) :
    ∀ c ∈ cs.filter (· ≠ '-'), IsHex c :=
  fun c hc => h c (List.mem_filter.mp hc).1

theorem notMem_of_isHex
    {cs : List Char}
    (h : ∀ c ∈ cs, IsHex c) :
    'u' ∉ cs :=
  fun hmem => (h 'u' hmem).spec.2.1 rfl

/-- What counts of a text of an identifier. -/
def kept (cs : List Char) : List Char :=
  (stripBraces (removeWord "uuid:".toList (removeWord "urn:".toList cs))).filter (· ≠ '-')

theorem ofChars?_of_kept
    {cs ds : List Char}
    (h : kept cs = kept ds) :
    ofChars? cs = ofChars? ds := by
  unfold ofChars?
  change (if (kept cs).length = 32 then (hexNumber? (kept cs)).bind _ else none) = _
  rw [h]
  rfl

/-- Neither the hyphens nor the braces of an identifier count. -/
theorem kept_around
    {lead trail inner : List Char}
    (hlead : ∀ c ∈ lead, c = '\x7b') (htrail : ∀ c ∈ trail, c = '\x7d')
    (hinner : ∀ c ∈ inner, IsHex c) :
    kept (lead ++ (inner ++ trail)) = inner.filter (· ≠ '-') := by
  have hu : 'u' ∉ lead ++ (inner ++ trail) := by
    rw [List.mem_append, List.mem_append]
    rintro (hmem | hmem | hmem)
    · exact absurd (hlead _ hmem) (by decide)
    · exact notMem_of_isHex hinner hmem
    · exact absurd (htrail _ hmem) (by decide)
  have hurn : removeWord "urn:".toList (lead ++ (inner ++ trail)) = lead ++ (inner ++ trail) :=
    removeWord_eq_self hu
  have huuid : removeWord "uuid:".toList (lead ++ (inner ++ trail)) = lead ++ (inner ++ trail) :=
    removeWord_eq_self hu
  unfold kept
  rw [hurn, huuid, stripBraces_around hlead htrail hinner]

theorem kept_eq_filter
    {cs : List Char}
    (h : ∀ c ∈ cs, IsHex c) :
    kept cs = cs.filter (· ≠ '-') := by
  have hopen : ∀ c ∈ ([] : List Char), c = '\x7b' := by simp
  have hclose : ∀ c ∈ ([] : List Char), c = '\x7d' := by simp
  have haround := kept_around hopen hclose h
  rwa [List.nil_append, List.append_nil] at haround

/-- The label of an identifier does not count. -/
theorem kept_label
    {inner : List Char}
    (h : ∀ c ∈ inner, IsHex c) :
    kept ("urn:uuid:".toList ++ inner) = inner.filter (· ≠ '-') := by
  have hu := notMem_of_isHex h
  have hurn : removeWord "urn:".toList ("urn:uuid:".toList ++ inner) = "uuid:".toList ++ inner := by
    have hsplit : "urn:uuid:".toList ++ inner = "urn:".toList ++ ("uuid:".toList ++ inner) := rfl
    have hremove : removeWord "urn:".toList ("urn:".toList ++ ("uuid:".toList ++ inner)) =
        removeWord "urn:".toList ("uuid:".toList ++ inner) := removeWord_append _ _ _
    have hself : removeWord "urn:".toList inner = inner := removeWord_eq_self hu
    rw [hsplit, hremove]
    simp [removeWord, List.isPrefixOf] at hself ⊢
    exact hself
  have huuid : removeWord "uuid:".toList ("uuid:".toList ++ inner) = inner :=
    (removeWord_append _ _ _).trans (removeWord_eq_self hu)
  have hplain := kept_eq_filter h
  have hself : removeWord "urn:".toList inner = inner := removeWord_eq_self hu
  have hself' : removeWord "uuid:".toList inner = inner := removeWord_eq_self hu
  unfold kept at hplain ⊢
  rw [hself, hself'] at hplain
  rw [hurn, huuid, hplain]

theorem ofChars?_of_filter
    {cs inner : List Char}
    (hcs : kept cs = inner.filter (· ≠ '-')) (h : ∀ c ∈ inner, IsHex c) :
    ofChars? cs = ofChars? (inner.filter (· ≠ '-')) := by
  apply ofChars?_of_kept
  rw [hcs, kept_eq_filter (isHex_filter h), List.filter_filter]
  simp only [Bool.and_self]

/-- What counts of a text without blanks is what counts of the trimmed text. -/
theorem ofChars?_trimChars
    {cs inner : List Char} {u : Uuid}
    (hblank : ∀ c ∈ cs, Text.isBlank c = false) (hcs : kept cs = inner.filter (· ≠ '-'))
    (hhex : ∀ c ∈ inner, IsHex c) (h : ofChars? (inner.filter (· ≠ '-')) = some u) :
    ofChars? (Text.trimChars cs) = some u := by
  rw [Text.trimChars_eq_self hblank, ofChars?_of_filter hcs hhex, h]

theorem isBlank_of_isHex
    {cs : List Char}
    (h : ∀ c ∈ cs, IsHex c) :
    ∀ c ∈ cs, Text.isBlank c = false :=
  fun c hc => (h c hc).spec.1

theorem eq_of_braces
    {cs : List Char}
    (hlength : cs.length = 38) (hhead : cs.head? = some '\x7b') (hlast : cs.getLast? = some '\x7d') :
    cs = ['\x7b'] ++ ((cs.drop 1).take 36 ++ ['\x7d']) := by
  rcases List.getLast?_eq_some_iff.mp hlast with ⟨front, rfl⟩
  cases front with
  | nil => cases hlength
  | cons c inner =>
      cases hhead
      rw [List.length_append, List.length_cons, List.length_singleton] at hlength
      have hinner : inner.length = 36 := by omega
      rw [List.cons_append, List.drop_succ_cons, List.drop_zero, ← hinner, List.take_left]
      rfl

theorem ofChars?_of_braces
    {inner : List Char} {u : Uuid}
    (hhex : ∀ c ∈ inner, IsHex c) (h : ofChars? (inner.filter (· ≠ '-')) = some u) :
    ofChars? (Text.trimChars (['\x7b'] ++ (inner ++ ['\x7d']))) = some u := by
  have hopen : ∀ c ∈ ['\x7b'], c = '\x7b' := by simp
  have hclose : ∀ c ∈ ['\x7d'], c = '\x7d' := by simp
  refine ofChars?_trimChars ?_ (kept_around hopen hclose hhex) hhex h
  intro c hc
  rw [List.mem_append, List.mem_append] at hc
  rcases hc with hmem | hmem | hmem
  · rw [hopen c hmem]
    decide
  · exact isBlank_of_isHex hhex c hmem
  · rw [hclose c hmem]
    decide

theorem ofChars?_of_label
    {inner : List Char} {u : Uuid}
    (hhex : ∀ c ∈ inner, IsHex c) (h : ofChars? (inner.filter (· ≠ '-')) = some u) :
    ofChars? (Text.trimChars ("urn:uuid:".toList ++ inner)) = some u := by
  have hletters : ("urn:uuid:".toList.all fun d => !Text.isBlank d) = true := by decide
  refine ofChars?_trimChars ?_ (kept_label hhex) hhex h
  intro c hc
  rcases List.mem_append.mp hc with hmem | hmem
  · exact (Bool.not_eq_true' _).mp (List.all_eq_true.mp hletters c hmem)
  · exact isBlank_of_isHex hhex c hmem

end Uuid

namespace Conversion

/-- An identifier in a text is the same in a body and in a filter. -/
theorem ofChars?_of_uuidOfText?
    {s : String} {u : Uuid}
    (h : uuidOfText? s = some u) :
    Uuid.ofChars? (Text.trimChars s.toList) = some u := by
  have hex {cs : List Char}
      (hcs : (cs.all fun c => (Uuid.hexValue? c).isSome || c == '-') = true) :
      ∀ c ∈ cs, Uuid.IsHex c := List.all_eq_true.mp hcs
  have hhyphens {inner : List Char}
      (hinner : (if inner.length = 36 ∧ [8, 13, 18, 23].all (fun i => inner[i]? == some '-') then
          if (inner.filter (· ≠ '-')).length = 32 then Uuid.ofChars? (inner.filter (· ≠ '-'))
          else none
        else none) = some u) :
      Uuid.ofChars? (inner.filter (· ≠ '-')) = some u := by
    split at hinner
    · split at hinner
      · exact hinner
      · cases hinner
    · cases hinner
  unfold uuidOfText? at h
  dsimp only at h
  generalize s.toList = cs at h ⊢
  split at h
  · -- the digits alone
    split at h
    · rename_i hhex
      rw [Bool.and_eq_true] at hhex
      rw [Text.trimChars_eq_self (Uuid.isBlank_of_isHex (hex hhex.1)), h]
    · cases h
  · split at h
    · -- with hyphens
      split at h
      · rename_i hhex
        exact Uuid.ofChars?_trimChars (Uuid.isBlank_of_isHex (hex hhex))
          (Uuid.kept_eq_filter (hex hhex)) (hex hhex) (hhyphens h)
      · cases h
    · split at h
      · -- in braces
        split at h
        · rename_i hlength hends
          rcases hends with ⟨hhead, hlast, hhex⟩
          rw [Uuid.eq_of_braces hlength hhead hlast]
          exact Uuid.ofChars?_of_braces (hex hhex) (hhyphens h)
        · cases h
      · split at h
        · -- behind the label
          rename_i hlabel
          split at h
          · rename_i hhex
            rcases List.isPrefixOf_iff_prefix.mp hlabel with ⟨inner, rfl⟩
            rw [List.drop_left] at h hhex
            exact Uuid.ofChars?_of_label (hex hhex) (hhyphens h)
          · cases h
        · cases h

end Conversion
end RecordApi
