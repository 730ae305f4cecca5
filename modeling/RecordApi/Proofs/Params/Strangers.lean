import Mathlib
import RecordApi.Proofs.Params.Clashes
import RecordApi.Proofs.Params.Decoding
import RecordApi.Proofs.Params.Roots

/-!
# Parameters that no request knows

All items of a query string are folded together, so an item under an unknown name may be refused
like any other.  Where the unknown items can be folded by themselves, what is decoded is the same
without them, wherever they stand.
-/

namespace RecordApi
namespace Params

open Steps

variable {entries next result : Assoc Tree} {values others : Assoc Value} {value : Value}
variable {p : String → Bool} {e : Error}

/-! ## Names apart from each other -/

/-- All names that an index may be resolved to are on the side of the index left out. -/
def Separates (p : String → Bool) : Prop :=
  ∀ key, Text.isDigitText key = true → p key = p ""

theorem Separates.not (h : Separates p) : Separates fun key => !p key :=
  fun key hkey => congrArg Bool.not (h key hkey)

theorem Separates.resolveSegment (h : Separates p) (entries : Assoc Tree) (segment : String) :
    p (resolveSegment entries segment) = p segment := by
  by_cases hsegment : segment = ""
  · refine (h _ ?_).trans (congrArg p hsegment.symm)
    rw [isDigitText_resolveSegment, hsegment]
    rfl
  · rw [resolveSegment_of_ne hsegment]

/-- An index that is kept counts the same keys. -/
theorem Separates.resolveSegment_keep
    (h : Separates p) {segment : String} (hkept : p segment = true) (entries : Assoc Tree) :
    Params.resolveSegment (entries.keep p) segment = Params.resolveSegment entries segment := by
  by_cases hsegment : segment = ""
  · rw [hsegment] at hkept ⊢
    have hdigits : ∀ entry ∈ entries,
        (Text.isDigitText entry.1 && p entry.1) = Text.isDigitText entry.1 := by
      intro entry _
      cases hdigit : Text.isDigitText entry.1 with
      | false => rfl
      | true => rw [h _ hdigit, hkept]; rfl
    unfold Params.resolveSegment nextIndex Assoc.keep
    rw [List.filter_filter, List.filter_congr hdigits]
  · rw [resolveSegment_of_ne hsegment, resolveSegment_of_ne hsegment]

/-! ## Folding some of the names -/

variable {item : String × String} {items : List (String × String)}

theorem assignItem_keep
    (h : Separates p) (hkept : p (rootOf item) = true) (entries : Assoc Tree) :
    assignItem (entries.keep p) item = (assignItem entries item).map (Assoc.keep p) := by
  rcases Key.exists_split item.1 with ⟨segment, rest, hsplit⟩
  have hsegment : p segment = true := by
    unfold rootOf at hkept
    rwa [hsplit] at hkept
  have hname : p (resolveSegment entries segment) = true :=
    (h.resolveSegment entries segment).trans hsegment
  rw [assignItem_eq hsplit, assignItem_eq hsplit, h.resolveSegment_keep hsegment,
    Assoc.get?_keep hname]
  cases graft item.1 segment item.2 rest (entries.get? (resolveSegment entries segment)) with
  | error e => rfl
  | ok child => exact congrArg Except.ok (Assoc.keep_put_of_pos hname child entries).symm

theorem keep_of_assignItem
    (h : Separates p) (hskipped : p (rootOf item) = false)
    (hstep : assignItem entries item = .ok next) :
    next.keep p = entries.keep p := by
  rcases exists_child_of_assignItem hstep with ⟨segment, rest, child, hsplit, -, rfl⟩
  unfold rootOf at hskipped
  rw [hsplit] at hskipped
  exact Assoc.keep_put_of_neg ((h.resolveSegment entries segment).trans hskipped) child entries

/-- The items under some of the names. -/
def itemsUnder (p : String → Bool) (items : List (String × String)) : List (String × String) :=
  items.filter fun item => p (rootOf item)

theorem itemsUnder_cons_of_pos (hkept : p (rootOf item) = true) (rest : List (String × String)) :
    itemsUnder p (item :: rest) = item :: itemsUnder p rest :=
  List.filter_cons_of_pos hkept

theorem itemsUnder_cons_of_neg (hskipped : p (rootOf item) = false)
    (rest : List (String × String)) : itemsUnder p (item :: rest) = itemsUnder p rest :=
  List.filter_cons_of_neg (Bool.eq_false_iff.mp hskipped)

/-- Where the items that are left out can be put by themselves, leaving them out changes nothing
for the others. -/
theorem foldlM_keep
    (h : Separates p)
    (hothers : ∃ result, (itemsUnder (fun key => !p key) items).foldlM assignItem
      (entries.keep fun key => !p key) = .ok result) :
    (itemsUnder p items).foldlM assignItem (entries.keep p) =
      (items.foldlM assignItem entries).map (Assoc.keep p) := by
  induction items generalizing entries with
  | nil => rfl
  | cons item rest ih =>
      rw [List.foldlM_cons]
      cases hroot : p (rootOf item) with
      | true =>
          have hnot : (!p (rootOf item)) = false := congrArg Bool.not hroot
          -- the item is kept, and leaves the trees of the others as they are
          rw [itemsUnder_cons_of_neg hnot] at hothers
          rw [itemsUnder_cons_of_pos hroot, List.foldlM_cons, assignItem_keep h hroot]
          cases hstep : assignItem entries item with
          | error e => rfl
          | ok next =>
              rw [← keep_of_assignItem h.not hnot hstep] at hothers
              exact ih hothers
      | false =>
          have hnot : (!p (rootOf item)) = true := congrArg Bool.not hroot
          -- the item is left out, and was put without a failure
          rw [itemsUnder_cons_of_pos hnot, List.foldlM_cons, assignItem_keep h.not hnot] at hothers
          rw [itemsUnder_cons_of_neg hroot]
          cases hstep : assignItem entries item with
          | error e =>
              rw [hstep] at hothers
              rcases hothers with ⟨result, hresult⟩
              cases hresult
          | ok next =>
              rw [hstep] at hothers
              rw [← keep_of_assignItem h hroot hstep]
              exact ih hothers

theorem foldlM_itemsUnder
    (h : Separates p) (hitems : items.foldlM assignItem entries = .ok result) :
    (itemsUnder p items).foldlM assignItem (entries.keep p) = .ok (result.keep p) := by
  induction items generalizing entries with
  | nil =>
      cases hitems
      rfl
  | cons item rest ih =>
      rw [List.foldlM_cons] at hitems
      rcases bind_eq_ok.mp hitems with ⟨next, hnext, hrest⟩
      cases hroot : p (rootOf item) with
      | true =>
          rw [itemsUnder_cons_of_pos hroot, List.foldlM_cons, assignItem_keep h hroot, hnext]
          exact ih hrest
      | false =>
          rw [itemsUnder_cons_of_neg hroot, ← keep_of_assignItem h hroot hnext]
          exact ih hrest

/-- Trees that can be folded may be left out before or after. -/
theorem foldEntries_keep
    (hothers : ∀ entry ∈ entries, p entry.1 = false → ∃ value, entry.2.fold = .ok value) :
    foldEntries (entries.keep p) = (foldEntries entries).map (Assoc.keep p) := by
  induction entries with
  | nil =>
      unfold Assoc.keep
      rw [List.filter_nil, foldEntries]
      rfl
  | cons entry rest ih =>
      rcases entry with ⟨key, tree⟩
      rw [List.forall_mem_cons] at hothers
      have hrest := ih hothers.2
      rw [Assoc.keep_cons, foldEntries]
      cases hkey : p key with
      | true =>
          rw [if_pos rfl, foldEntries, hrest]
          cases tree.fold with
          | error e => rfl
          | ok value =>
              cases foldEntries rest with
              | error e => rfl
              | ok values => exact congrArg Except.ok ((Assoc.keep_cons p _ values).trans (if_pos hkey)).symm
      | false =>
          rcases hothers.1 hkey with ⟨value, hvalue⟩
          rw [if_neg Bool.false_ne_true, hrest, hvalue]
          cases foldEntries rest with
          | error e => rfl
          | ok values =>
              have hskip : ¬ p key = true := Bool.eq_false_iff.mp hkey
              exact congrArg Except.ok ((Assoc.keep_cons p _ values).trans (if_neg hskip)).symm

/-! ## Known names -/

def isParameter (name : String) : Bool :=
  decide (name ∈ Contents.parameters)

theorem not_isParameter_of_isDigitText {key : String} (h : Text.isDigitText key = true) :
    isParameter key = false := by
  refine decide_eq_false fun hmem => ?_
  rw [(isName_of_parameter key hmem).2] at h
  exact Bool.false_ne_true h

theorem separates_isParameter : Separates isParameter :=
  fun _ hkey => not_isParameter_of_isDigitText hkey

/-- A request is read from the values of its parameters alone. -/
theorem ofEntries_congr
    (h : ∀ name ∈ Contents.parameters, valueAt values name = valueAt others name) :
    ofEntries values = ofEntries others := by
  have hat : ∀ (entries : Assoc Value) (name : String),
      (entries.get? name).getD .null = valueAt entries name := fun _ _ => rfl
  simp only [Contents.parameters, List.forall_mem_cons] at h
  rcases h with ⟨hfilters, hsort, hpage, hpageSize, hfields, hrelations, hrelationFields,
    hrelationFilters, hrelationSort, -⟩
  unfold ofEntries
  simp only [hat, hfilters, hsort, hpage, hpageSize, hfields, hrelations, hrelationFields,
    hrelationFilters, hrelationSort]

theorem ofEntries_keep (values : Assoc Value) :
    ofEntries (values.keep isParameter) = ofEntries values := by
  refine ofEntries_congr fun name hname => ?_
  unfold valueAt
  rw [Assoc.get?_keep (decide_eq_true hname)]

/-! ## Items of unknown names -/

def strangers (items : List (String × String)) : List (String × String) :=
  itemsUnder (fun name => !isParameter name) items

/-- The unknown items can be folded by themselves, and not all items are without a name. -/
structure Harmless (items : List (String × String)) : Prop where
  folds : ∃ value, fold (strangers items) = .ok value
  named : ¬ Unnamed items

theorem not_unnamed_itemsUnder (items : List (String × String)) :
    ¬ Unnamed (itemsUnder isParameter items) := by
  rintro ⟨hne, hnumbered⟩
  rcases List.exists_mem_of_ne_nil _ hne with ⟨item, hitem⟩
  have hroot := of_decide_eq_true (List.mem_filter.mp hitem).2
  have hname := isName_of_parameter _ hroot
  have hindex := hnumbered item hitem
  unfold isNumbered at hindex
  rw [hname.2, beq_false_of_ne (Key.ne_empty_of_isName hname.1)] at hindex
  exact Bool.false_ne_true hindex

/-- Harmless items decode as the known ones among them do. -/
theorem Harmless.decode_eq (h : Harmless items) :
    decode items = decode (itemsUnder isParameter items) := by
  rcases h.folds with ⟨value, hvalue⟩
  rcases exists_entries_of_fold hvalue with ⟨trees, values, htrees, hvalues, -⟩
  have hothers : ∃ result, (itemsUnder (fun name => !isParameter name) items).foldlM assignItem
      (Assoc.keep (fun name => !isParameter name) []) = .ok result := ⟨trees, htrees⟩
  have hknown : (itemsUnder isParameter items).foldlM assignItem [] =
      (items.foldlM assignItem []).map (Assoc.keep isParameter) :=
    foldlM_keep separates_isParameter hothers
  rw [decode_of_named h.named, decode_of_named (not_unnamed_itemsUnder items), hknown]
  cases hall : items.foldlM assignItem [] with
  | error e => rfl
  | ok entries =>
      have hstrangers := foldlM_itemsUnder separates_isParameter.not hall
      cases htrees.symm.trans hstrangers
      -- an unknown tree folds here as it does among the strangers alone
      have hfold : ∀ entry ∈ entries, isParameter entry.1 = false →
          ∃ value, entry.2.fold = .ok value := by
        intro entry hentry hstranger
        refine exists_foldEntries_iff.mp ⟨values, hvalues⟩ entry ?_
        exact List.mem_filter.mpr ⟨hentry, congrArg Bool.not hstranger⟩
      change foldEntries entries >>= ofEntries =
        foldEntries (entries.keep isParameter) >>= ofEntries
      rw [foldEntries_keep hfold]
      cases foldEntries entries with
      | error e => rfl
      | ok all => exact (ofEntries_keep all).symm

theorem strangers_eq_nil
    (hknown : ∀ item ∈ items, rootOf item ∈ Contents.parameters) : strangers items = [] := by
  unfold strangers itemsUnder
  rw [List.filter_eq_nil_iff]
  intro item hitem
  have hparameter : isParameter (rootOf item) = true := decide_eq_true (hknown item hitem)
  change ¬ (!isParameter (rootOf item)) = true
  rw [hparameter]
  exact Bool.false_ne_true

theorem Harmless.of_known (hknown : ∀ item ∈ items, rootOf item ∈ Contents.parameters) :
    Harmless items where
  folds := by
    rw [strangers_eq_nil hknown]
    exact ⟨.map [], rfl⟩
  named := by
    have hall : itemsUnder isParameter items = items :=
      List.filter_eq_self.mpr fun item hitem => decide_eq_true (hknown item hitem)
    exact hall ▸ not_unnamed_itemsUnder items

/-- Unknown parameters that mix a plain value with bracket notation are refused like known
ones. -/
theorem malformed_of_strangers
    (hfold : fold (strangers items) = .error e)
    (hlabel : (Failure.params e).label = "MalformedQueryError") :
    ∃ reason, decode items = .error reason ∧
      (Failure.params reason).label = "MalformedQueryError" := by
  have hrefused := malformed_fold_iff.mp ⟨e, hfold, hlabel⟩
  cases hall : items.foldlM assignItem [] with
  | ok entries => exact absurd ⟨_, foldlM_itemsUnder separates_isParameter.not hall⟩ hrefused
  | error reason =>
      refine ⟨reason, decode_of_error ?_, label_of_foldlM_error hall⟩
      rw [fold_eq_branch, hall]
      rfl

/-! ## Inserting items -/

/-- Further items, none of them of a parameter, are put in anywhere. -/
inductive Inserts : List (String × String) → List (String × String) → Prop
  | nil : Inserts [] []
  | keep {items others : List (String × String)} (item : String × String)
      (rest : Inserts items others) : Inserts (item :: items) (item :: others)
  | insert {items others : List (String × String)} {item : String × String}
      (unknown : rootOf item ∉ Contents.parameters) (rest : Inserts items others) :
      Inserts items (item :: others)

theorem itemsUnder_of_inserts
    {further : List (String × String)} (h : Inserts items further) :
    itemsUnder isParameter further = itemsUnder isParameter items := by
  induction h with
  | nil => rfl
  | keep item rest ih =>
      unfold itemsUnder at ih ⊢
      rw [List.filter_cons, List.filter_cons, ih]
  | @insert _ _ item unknown rest ih =>
      have hstranger : isParameter (rootOf item) = false := decide_eq_false unknown
      rw [itemsUnder_cons_of_neg hstranger, ih]

/-- Inserting items of unknown parameters changes nothing where they can be folded by themselves.
Where they mix a plain value with bracket notation, the request is malformed. -/
theorem decode_of_inserts
    {further : List (String × String)} (h : Inserts items further) :
    (Harmless items → Harmless further → decode further = decode items) ∧
      ∀ e, fold (strangers further) = .error e →
        (Failure.params e).label = "MalformedQueryError" →
        ∃ reason, decode further = .error reason ∧
          (Failure.params reason).label = "MalformedQueryError" := by
  constructor
  · intro hitems hfurther
    rw [hfurther.decode_eq, itemsUnder_of_inserts h, ← hitems.decode_eq]
  · exact fun e hfold hlabel => malformed_of_strangers hfold hlabel

end Params

namespace Sample

def namesByNumber : List (String × String) :=
  [("sort", "-name"), ("fields[]", "id")]

/-- The same between items of unknown parameters, one of them without a name. -/
def namesAmongStrangers : List (String × String) :=
  [("u[s]", "mail"), ("sort", "-name"), ("u[t][]", "a"), ("0", "x"),
    ("fields[]", "id"), ("u[t][]", "b")]

theorem inserts_namesAmongStrangers : Params.Inserts namesByNumber namesAmongStrangers :=
  .insert (by decide) (.keep _ (.insert (by decide) (.insert (by decide)
    (.keep _ (.insert (by decide) .nil)))))

theorem harmless_namesByNumber : Params.Harmless namesByNumber :=
  Params.Harmless.of_known (by decide)

theorem strangers_namesAmongStrangers :
    Params.strangers namesAmongStrangers =
      [("u[s]", "mail"), ("u[t][]", "a"), ("0", "x"), ("u[t][]", "b")] := by
  decide

set_option maxRecDepth 4000 in
theorem fold_strangers :
    Params.fold (Params.strangers namesAmongStrangers) = .ok (.map [
      ("u", .map [("s", .text "mail"), ("t", .list [.text "a", .text "b"])]),
      ("0", .text "x")]) := by
  rw [strangers_namesAmongStrangers]
  cbv

theorem harmless_namesAmongStrangers : Params.Harmless namesAmongStrangers where
  folds := ⟨_, fold_strangers⟩
  named := by decide

/-- An unknown parameter, once with a plain value and once in bracket notation. -/
def mixedStranger : List (String × String) :=
  [("utm", "1"), ("utm[a]", "2")]

theorem inserts_mixedStranger : Params.Inserts [] mixedStranger :=
  .insert (by decide) (.insert (by decide) .nil)

theorem strangers_mixedStranger : Params.strangers mixedStranger = mixedStranger := by
  decide

set_option maxRecDepth 4000 in
theorem fold_mixedStranger :
    Params.fold (Params.strangers mixedStranger) = .error (.bracketsOverPlain "utm[a]" "utm") := by
  rw [strangers_mixedStranger]
  cbv

theorem decode_of_inserts_namesAmongStrangers :
    Params.Inserts namesByNumber namesAmongStrangers ∧
      Params.Harmless namesByNumber ∧ Params.Harmless namesAmongStrangers ∧
      Params.decode namesAmongStrangers = Params.decode namesByNumber ∧
      Params.Inserts [] mixedStranger ∧
      ∃ reason, Params.decode mixedStranger = .error reason ∧
        (Failure.params reason).label = "MalformedQueryError" :=
  ⟨inserts_namesAmongStrangers, harmless_namesByNumber, harmless_namesAmongStrangers,
    (Params.decode_of_inserts inserts_namesAmongStrangers).1 harmless_namesByNumber
      harmless_namesAmongStrangers,
    inserts_mixedStranger,
    (Params.decode_of_inserts inserts_mixedStranger).2 _ fold_mixedStranger rfl⟩

theorem mixed_stranger_refused :
    Params.Inserts [] mixedStranger ∧
      Params.decode mixedStranger = .error (.bracketsOverPlain "utm[a]" "utm") ∧
      Params.decode mixedStranger ≠ Params.decode [] := by
  have hfold := fold_mixedStranger
  rw [strangers_mixedStranger] at hfold
  have hrefused := Params.decode_of_error hfold
  refine ⟨inserts_mixedStranger, hrefused, ?_⟩
  intro hsame
  rw [hrefused] at hsame
  cases hsame

end Sample
end RecordApi
