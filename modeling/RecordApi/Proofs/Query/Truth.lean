import Mathlib.Data.List.Forall2
import RecordApi.Query.Predicate

/-!
# Logic with missing information

Conjunction and disjunction are dual: each has a truth value that changes nothing and one
that decides a group.  The truth of a group does not depend on the order of its members, and
a group inside a group of the same kind may be opened.
-/

namespace RecordApi

theorem Truth.ofBool_eq_yes
    {b : Bool} :
    ofBool b = .yes ↔ b = true := by
  cases b <;> decide

theorem Truth.not_injective : Function.Injective Truth.not := by
  intro a b
  cases a <;> cases b <;> decide

namespace Combinator

/-- The truth of a group of two. -/
def connect : Combinator → Truth → Truth → Truth
  | .and => Truth.and
  | .or => Truth.or

/-- The truth that changes nothing in a group, and the truth of no members. -/
def neutral : Combinator → Truth
  | .and => .yes
  | .or => .no

/-- The truth that decides a group. -/
def deciding : Combinator → Truth
  | .and => .no
  | .or => .yes

theorem connect_comm (c : Combinator) (a b : Truth) : c.connect a b = c.connect b a := by
  cases c <;> cases a <;> cases b <;> rfl

theorem connect_assoc (c : Combinator) (a b d : Truth) :
    c.connect (c.connect a b) d = c.connect a (c.connect b d) := by
  cases c <;> cases a <;> cases b <;> cases d <;> rfl

theorem connect_neutral (c : Combinator) (a : Truth) : c.connect a c.neutral = a := by
  cases c <;> cases a <;> rfl

theorem neutral_connect (c : Combinator) (a : Truth) : c.connect c.neutral a = a := by
  cases c <;> cases a <;> rfl

theorem deciding_connect (c : Combinator) (a : Truth) : c.connect c.deciding a = c.deciding := by
  cases c <;> cases a <;> rfl

/-! ## Groups -/

theorem truth_nil (c : Combinator) : c.truth [] = c.neutral := by
  cases c <;> rfl

theorem truth_cons (c : Combinator) (t : Truth) (ts : List Truth) :
    c.truth (t :: ts) = c.connect t (c.truth ts) := by
  cases c <;> rfl

theorem truth_singleton (c : Combinator) (t : Truth) : c.truth [t] = t := by
  rw [truth_cons, truth_nil, connect_neutral]

theorem truth_append (c : Combinator) (ts us : List Truth) :
    c.truth (ts ++ us) = c.connect (c.truth ts) (c.truth us) := by
  induction ts with
  | nil => rw [List.nil_append, truth_nil, neutral_connect]
  | cons t rest ih => rw [List.cons_append, truth_cons, truth_cons, ih, connect_assoc]

theorem truth_of_mem_deciding
    {c : Combinator} {ts : List Truth}
    (h : c.deciding ∈ ts) :
    c.truth ts = c.deciding := by
  rcases List.mem_iff_append.mp h with ⟨ahead, behind, hsplit⟩
  rw [hsplit, truth_append, truth_cons, deciding_connect, connect_comm, deciding_connect]

theorem truth_perm
    {c : Combinator} {ts us : List Truth}
    (h : ts.Perm us) :
    c.truth ts = c.truth us := by
  induction h with
  | nil => rfl
  | cons t _ ih => rw [truth_cons, truth_cons, ih]
  | swap a b rest =>
      rw [truth_cons, truth_cons, truth_cons, truth_cons, ← connect_assoc, ← connect_assoc,
        connect_comm c b a]
  | trans _ _ ih₁ ih₂ => rw [ih₁, ih₂]

/-- The truth of a group is told by the truths that its members have. -/
theorem truth_eq (c : Combinator) (ts : List Truth) :
    c.truth ts =
      if c.deciding ∈ ts then c.deciding
      else if .unknown ∈ ts then .unknown else c.neutral := by
  induction ts with
  | nil => simp [truth_nil]
  | cons t rest ih =>
      rw [truth_cons, ih]
      by_cases hdeciding : c.deciding ∈ rest <;> by_cases hunknown : Truth.unknown ∈ rest <;>
        simp only [List.mem_cons, hdeciding, hunknown, or_true, or_false, if_true, if_false] <;>
        cases c <;> cases t <;> rfl

theorem truth_eq_deciding_iff
    {c : Combinator} {ts : List Truth} :
    c.truth ts = c.deciding ↔ c.deciding ∈ ts := by
  rw [truth_eq]
  by_cases hdeciding : c.deciding ∈ ts <;> by_cases hunknown : Truth.unknown ∈ ts <;>
    cases c <;> simp_all [deciding, neutral]

theorem truth_eq_unknown_iff
    {c : Combinator} {ts : List Truth} :
    c.truth ts = .unknown ↔ c.deciding ∉ ts ∧ .unknown ∈ ts := by
  rw [truth_eq]
  by_cases hdeciding : c.deciding ∈ ts <;> by_cases hunknown : Truth.unknown ∈ ts <;>
    cases c <;> simp_all [deciding, neutral]

theorem truth_congr
    {c : Combinator} {ts us : List Truth}
    (h : ∀ t, t ∈ ts ↔ t ∈ us) :
    c.truth ts = c.truth us := by
  rw [truth_eq, truth_eq]
  simp only [h]

theorem not_or_connect (a b : Truth) :
    (Combinator.or.connect a b).not = Combinator.and.connect a.not b.not := by
  cases a <;> cases b <;> rfl

theorem not_and_connect (a b : Truth) :
    (Combinator.and.connect a b).not = Combinator.or.connect a.not b.not := by
  cases a <;> cases b <;> rfl

theorem not_or_truth (ts : List Truth) :
    (Combinator.or.truth ts).not = Combinator.and.truth (ts.map Truth.not) := by
  induction ts with
  | nil => rfl
  | cons t rest ih => rw [List.map_cons, truth_cons, truth_cons, not_or_connect, ih]

theorem truth_flatMap {α : Type} (c : Combinator) (f : α → List Truth) (xs : List α) :
    c.truth (xs.flatMap f) = c.truth (xs.map fun x => c.truth (f x)) := by
  induction xs with
  | nil => rfl
  | cons x rest ih => rw [List.flatMap_cons, truth_append, ih, List.map_cons, truth_cons]

/-! ## When a group holds -/

theorem and_truth_cons_beq (t : Truth) (ts : List Truth) :
    (Combinator.and.truth (t :: ts) == .yes) =
      ((t == .yes) && (Combinator.and.truth ts == .yes)) := by
  rw [truth_cons]
  cases t <;> cases Combinator.and.truth ts <;> rfl

theorem or_truth_cons_beq (t : Truth) (ts : List Truth) :
    (Combinator.or.truth (t :: ts) == .yes) =
      ((t == .yes) || (Combinator.or.truth ts == .yes)) := by
  rw [truth_cons]
  cases t <;> cases Combinator.or.truth ts <;> rfl

theorem and_connect_eq_yes {a b : Truth} :
    Combinator.and.connect a b = .yes ↔ a = .yes ∧ b = .yes := by
  cases a <;> cases b <;> decide

theorem or_connect_eq_yes {a b : Truth} :
    Combinator.or.connect a b = .yes ↔ a = .yes ∨ b = .yes := by
  cases a <;> cases b <;> decide

/-- A group keeps holding when each of its members that holds is replaced by one that holds. -/
theorem truth_eq_yes_mono
    {c : Combinator} {ts us : List Truth}
    (h : List.Forall₂ (fun t u => t = .yes → u = .yes) ts us) :
    c.truth ts = .yes → c.truth us = .yes := by
  induction h with
  | nil => exact id
  | cons hfirst _ ih =>
      rw [truth_cons, truth_cons]
      cases c with
      | and =>
          rw [and_connect_eq_yes, and_connect_eq_yes]
          exact And.imp hfirst ih
      | or =>
          rw [or_connect_eq_yes, or_connect_eq_yes]
          exact Or.imp hfirst ih

theorem and_truth_eq_yes {ts : List Truth} :
    Combinator.and.truth ts = .yes ↔ ∀ t ∈ ts, t = .yes := by
  induction ts with
  | nil => simp [truth_nil, neutral]
  | cons t rest ih => rw [truth_cons, and_connect_eq_yes, ih, List.forall_mem_cons]

end Combinator
end RecordApi
