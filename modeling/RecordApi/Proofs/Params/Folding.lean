import RecordApi.Proofs.Assoc
import RecordApi.Proofs.Params.Keys
import RecordApi.Params.Tree
import RecordApi.Proofs.Steps

/-!
# Folding leaf by leaf

The tree under a name grows only by the leaves below that name, whatever leaves of other names
are put in between.
-/

namespace RecordApi

namespace Leaf

/-- The leaf below a name, for a leaf whose path starts there. -/
def below? (name : String) (leaf : Leaf) : Option Leaf :=
  match leaf.path with
  | [] => none
  | head :: rest => if head = name then some ⟨rest, leaf.text⟩ else none

def below (name : String) (leaves : List Leaf) : List Leaf :=
  leaves.filterMap (below? name)

def heads (leaves : List Leaf) : List String :=
  leaves.filterMap (·.path.head?)

def ofItem (item : String × String) : Leaf :=
  ⟨Key.split item.1, item.2⟩

/-- The path of a leaf starts with a name. -/
def IsNamed (leaf : Leaf) : Prop :=
  ∃ name rest, leaf.path = name :: rest ∧ name ≠ ""

end Leaf

namespace Params

open Steps Leaf

/-! ## One leaf -/

/-- Puts a value at the end of a path below a tree that may be missing. -/
def graft (key root value : String) : List String → Option Tree → Except Error Tree
  | [], none => .ok (.plain value)
  | [], some (.plain text) => .ok (.repeated [text, value])
  | [], some (.repeated texts) => .ok (.repeated (texts ++ [value]))
  | [], some (.branch _) => .error (.plainOverBrackets key root)
  | segment :: rest, none => (assign key root value (segment :: rest) []).map .branch
  | segment :: rest, some (.branch entries) =>
      (assign key root value (segment :: rest) entries).map .branch
  | _ :: _, some _ => .error (.bracketsOverPlain key root)

theorem assign_cons
    (key root value segment : String) (rest : List String) (entries : Assoc Tree) :
    assign key root value (segment :: rest) entries =
      (graft key root value rest (entries.get? (resolveSegment entries segment))).map
        fun tree => entries.put (resolveSegment entries segment) tree := by
  cases rest with
  | nil =>
      simp only [assign]
      cases hget : entries.get? (resolveSegment entries segment) with
      | none => rfl
      | some tree => cases tree <;> rfl
  | cons next others =>
      simp only [assign]
      cases hget : entries.get? (resolveSegment entries segment) with
      | none =>
          simp only [graft]
          cases assign key root value (next :: others) [] <;> rfl
      | some tree =>
          cases tree with
          | plain text => rfl
          | repeated texts => rfl
          | branch child =>
              simp only [graft]
              cases assign key root value (next :: others) child <;> rfl

theorem resolveSegment_of_ne
    {segment : String} (h : segment ≠ "") (entries : Assoc Tree) :
    resolveSegment entries segment = segment := by
  unfold resolveSegment
  exact if_neg (by simpa using h)

/-! ## Leaves one after the other -/

/-- A tree, which may be missing at first, takes leaves one after the other, under
whatever key they are given. -/
inductive Grows : Option Tree → List Leaf → Option Tree → Prop
  | nil (tree : Option Tree) : Grows tree [] tree
  | cons {tree : Option Tree} {next : Tree} {leaf : Leaf} {rest : List Leaf}
      {result : Option Tree}
      (step : ∀ key root, graft key root leaf.text leaf.path tree = .ok next)
      (others : Grows (some next) rest result) :
      Grows tree (leaf :: rest) result

inductive Gains : Assoc Tree → List Leaf → Assoc Tree → Prop
  | nil (entries : Assoc Tree) : Gains entries [] entries
  | cons {entries next : Assoc Tree} {leaf : Leaf} {rest : List Leaf} {result : Assoc Tree}
      (step : ∀ key root, assign key root leaf.text leaf.path entries = .ok next)
      (others : Gains next rest result) :
      Gains entries (leaf :: rest) result

theorem Grows.eq_of_nil {tree result : Option Tree} (h : Grows tree [] result) :
    result = tree := by
  cases h
  rfl

theorem Grows.of_cons
    {tree result : Option Tree} {leaf : Leaf} {rest : List Leaf}
    (h : Grows tree (leaf :: rest) result) :
    ∃ next, (∀ key root, graft key root leaf.text leaf.path tree = .ok next) ∧
      Grows (some next) rest result := by
  cases h with
  | cons step others => exact ⟨_, step, others⟩

theorem Gains.of_cons
    {entries result : Assoc Tree} {leaf : Leaf} {rest : List Leaf}
    (h : Gains entries (leaf :: rest) result) :
    ∃ next, (∀ key root, assign key root leaf.text leaf.path entries = .ok next) ∧
      Gains next rest result := by
  cases h with
  | cons step others => exact ⟨_, step, others⟩

theorem Gains.foldlM
    {entries result : Assoc Tree} {items : List (String × String)}
    (h : Gains entries (items.map Leaf.ofItem) result) :
    items.foldlM assignItem entries = .ok result := by
  induction items generalizing entries with
  | nil =>
      cases h
      rfl
  | cons item rest ih =>
      cases h with
      | cons step others =>
          rw [List.foldlM_cons]
          exact bind_eq_ok.mpr ⟨_, step _ _, ih others⟩

/-- Entries below a missing tree make it a branch. -/
theorem Grows.of_gains
    {entries result : Assoc Tree} {leaves : List Leaf}
    (h : Gains entries leaves result) (hpath : ∀ leaf ∈ leaves, leaf.path ≠ []) :
    Grows (some (.branch entries)) leaves (some (.branch result)) := by
  induction h with
  | nil entries => exact Grows.nil _
  | cons step _ ih =>
      rw [List.forall_mem_cons] at hpath
      refine Grows.cons (fun key root => ?_) (ih hpath.2)
      rcases List.exists_cons_of_ne_nil hpath.1 with ⟨segment, rest, hsegment⟩
      have hstep := step key root
      rw [hsegment] at hstep ⊢
      simp only [graft]
      rw [hstep]
      rfl

theorem Grows.of_gains_nil
    {result : Assoc Tree} {leaves : List Leaf} (hne : leaves ≠ [])
    (h : Gains [] leaves result) (hpath : ∀ leaf ∈ leaves, leaf.path ≠ []) :
    Grows none leaves (some (.branch result)) := by
  cases h with
  | nil => exact absurd rfl hne
  | cons step others =>
      rw [List.forall_mem_cons] at hpath
      refine Grows.cons (fun key root => ?_) (Grows.of_gains others hpath.2)
      rcases List.exists_cons_of_ne_nil hpath.1 with ⟨segment, rest, hsegment⟩
      have hstep := step key root
      rw [hsegment] at hstep ⊢
      simp only [graft]
      rw [hstep]
      rfl

/-! ## The values of trees -/

/-- Trees that fold one by one fold together, each under its key. -/
theorem foldEntries_eq_ok
    {trees : Assoc Tree} {P : String → Value → Prop}
    (h : ∀ entry ∈ trees, ∃ value, entry.2.fold = .ok value ∧ P entry.1 value) :
    ∃ values, foldEntries trees = .ok values ∧ Assoc.keys values = Assoc.keys trees ∧
      ∀ entry ∈ values, P entry.1 entry.2 := by
  induction trees with
  | nil =>
      rw [foldEntries]
      exact ⟨[], rfl, rfl, fun _ hentry => absurd hentry List.not_mem_nil⟩
  | cons entry rest ih =>
      rcases entry with ⟨key, tree⟩
      rw [List.forall_mem_cons] at h
      rcases h.1 with ⟨value, hvalue, hfirst⟩
      rcases ih h.2 with ⟨values, hvalues, hkeys, hrest⟩
      refine ⟨(key, value) :: values, ?_, congrArg (key :: ·) hkeys, ?_⟩
      · rw [foldEntries, hvalue, hvalues]
        rfl
      · rw [List.forall_mem_cons]
        exact ⟨hfirst, hrest⟩

theorem fold_branch
    {trees : Assoc Tree} {values : Assoc Value} {value : Value}
    (hvalues : foldEntries trees = .ok values) (hvalue : foldMap values = .ok value) :
    (Tree.branch trees).fold = .ok value := by
  rw [Tree.fold, hvalues]
  exact hvalue

theorem foldMap_of_nondigit
    {values : Assoc Value} {key : String} (hkey : key ∈ Assoc.keys values)
    (hnondigit : Text.isDigitText key = false) :
    foldMap values = .ok (.map values) := by
  rcases List.mem_map.mp hkey with ⟨entry, hentry, rfl⟩
  unfold foldMap
  rw [if_neg]
  intro hall
  rw [Bool.and_eq_true, List.all_eq_true] at hall
  exact Bool.false_ne_true (hnondigit.symm.trans (hall.2 entry hentry))

theorem foldMap_of_digits
    {values : Assoc Value} (hne : values ≠ [])
    (hdigits : ∀ key ∈ Assoc.keys values, Text.isDigitText key = true) :
    foldMap values = (inIndexOrder values).map Value.list := by
  unfold foldMap
  rw [if_pos]
  rw [Bool.and_eq_true, List.all_eq_true]
  exact ⟨by simpa using hne, fun entry hentry => hdigits _ (List.mem_map_of_mem hentry)⟩

/-! ## Names apart -/

theorem nodup_eraseDups (names : List String) : names.eraseDups.Nodup := by
  match names with
  | [] => exact List.nodup_nil
  | name :: rest =>
      rw [List.eraseDups_cons, List.nodup_cons, List.mem_eraseDups]
      exact ⟨by simp, nodup_eraseDups _⟩
termination_by names.length
decreasing_by exact Nat.lt_succ_of_le (List.length_filter_le _ _)

theorem filter_notMem_append_singleton
    (keys : List String) (name : String) (names : List String) :
    names.filter (· ∉ keys ++ [name]) =
      (names.filter (· ∉ keys)).filter fun other => !other == name := by
  rw [List.filter_filter]
  refine List.filter_congr fun other _ => ?_
  by_cases hname : other = name <;> simp [hname]

/-- By induction on the leaves, each of which is put below its own name only.  The names come
in the order in which leaves have them first. -/
theorem exists_gains
    (entries : Assoc Tree) {leaves : List Leaf} {trees : String → Option Tree}
    (hnamed : ∀ leaf ∈ leaves, leaf.IsNamed)
    (hgrows : ∀ name, Grows (entries.get? name) (below name leaves) (trees name)) :
    ∃ result, Gains entries leaves result ∧ (∀ name, result.get? name = trees name) ∧
      Assoc.keys result = Assoc.keys entries ++
        ((heads leaves).filter (· ∉ Assoc.keys entries)).eraseDups := by
  induction leaves generalizing entries with
  | nil =>
      refine ⟨entries, Gains.nil entries, fun name => ?_, (List.append_nil _).symm⟩
      exact (hgrows name).eq_of_nil.symm
  | cons leaf rest ih =>
      rw [List.forall_mem_cons] at hnamed
      rcases leaf with ⟨path, text⟩
      rcases hnamed.1 with ⟨name, tail, rfl, hname⟩
      have hbelow : below name (⟨name :: tail, text⟩ :: rest) = ⟨tail, text⟩ :: below name rest := by
        unfold below
        rw [List.filterMap_cons_some]
        exact if_pos rfl
      have hfirst := hgrows name
      rw [hbelow] at hfirst
      rcases hfirst.of_cons with ⟨next, hstep, hnext⟩
      have hassign : ∀ key root,
          assign key root text (name :: tail) entries = .ok (entries.put name next) := by
        intro key root
        rw [assign_cons, resolveSegment_of_ne hname, hstep key root]
        rfl
      -- the leaf changes the tree under its own name and no other
      have hothers : ∀ other, Grows ((entries.put name next).get? other) (below other rest)
          (trees other) := by
        intro other
        by_cases hother : name = other
        · rw [← hother, Assoc.get?_put_self]
          exact hnext
        · have hskip : below other (⟨name :: tail, text⟩ :: rest) = below other rest := by
            unfold below
            rw [List.filterMap_cons_none]
            exact if_neg hother
          rw [Assoc.get?_put_of_ne hother, ← hskip]
          exact hgrows other
      rcases ih _ hnamed.2 hothers with ⟨result, hgains, hget, hkeys⟩
      refine ⟨result, Gains.cons hassign hgains, hget, ?_⟩
      have hheads : heads (⟨name :: tail, text⟩ :: rest) = name :: heads rest := rfl
      rw [hkeys, hheads, Assoc.keys_put]
      by_cases hmem : name ∈ Assoc.keys entries
      · rw [if_pos hmem, List.filter_cons_of_neg (by simpa using hmem)]
      · rw [if_neg hmem, List.filter_cons_of_pos (by simpa using hmem), List.eraseDups_cons,
          filter_notMem_append_singleton, List.append_assoc]
        rfl

/-- The trees below the names of some leaves fold to values under these names. -/
theorem exists_folded
    {leaves : List Leaf} {trees : String → Option Tree} {P : String → Value → Prop}
    (hnamed : ∀ leaf ∈ leaves, leaf.IsNamed)
    (hgrows : ∀ name, Grows none (below name leaves) (trees name))
    (hfold : ∀ name, ∀ tree ∈ trees name, ∃ value, tree.fold = .ok value ∧ P name value) :
    ∃ entries values, Gains [] leaves entries ∧ foldEntries entries = .ok values ∧
      Assoc.keys values = (heads leaves).eraseDups ∧ (∀ entry ∈ values, P entry.1 entry.2) ∧
      ∀ name, name ∉ Assoc.keys values → trees name = none := by
  rcases exists_gains [] hnamed hgrows with ⟨entries, hgains, hget, hkeys⟩
  have hheads : Assoc.keys entries = (heads leaves).eraseDups := by
    rw [hkeys]
    simp [Assoc.keys]
  have hdistinct : (Assoc.keys entries).Nodup := hheads ▸ nodup_eraseDups _
  have hfolds : ∀ entry ∈ entries, ∃ value, entry.2.fold = .ok value ∧ P entry.1 value := by
    intro entry hentry
    have htree := (Assoc.get?_eq_some hdistinct).mpr hentry
    rw [hget] at htree
    exact hfold entry.1 entry.2 htree
  rcases foldEntries_eq_ok hfolds with ⟨values, hvalues, hsame, hread⟩
  refine ⟨entries, values, hgains, hvalues, hsame.trans hheads, hread, ?_⟩
  intro name hname
  rw [hsame, ← Assoc.get?_eq_none, hget] at hname
  exact hname

end Params
end RecordApi
