import Mathlib.Data.List.Forall2

/-!
# Steps of a computation

A computation that may fail succeeds exactly when each of its steps does.  The lemmas here
take it apart into these steps.
-/

namespace RecordApi
namespace Steps

variable {ε ε' α β γ : Type}

theorem bind_eq_ok
    {x : Except ε α} {f : α → Except ε β} {b : β} :
    (x >>= f) = .ok b ↔ ∃ a, x = .ok a ∧ f a = .ok b := by
  cases x with
  | error e => simp [bind, Except.bind]
  | ok a => simp [bind, Except.bind]

theorem bind_eq_error
    {x : Except ε α} {f : α → Except ε β} {e : ε} :
    (x >>= f) = .error e ↔ x = .error e ∨ ∃ a, x = .ok a ∧ f a = .error e := by
  cases x with
  | error e => simp [bind, Except.bind]
  | ok a => simp [bind, Except.bind]

theorem map_eq_ok
    {x : Except ε α} {f : α → β} {b : β} :
    x.map f = .ok b ↔ ∃ a, x = .ok a ∧ f a = b := by
  cases x with
  | error e => simp [Except.map]
  | ok a => simp [Except.map]

theorem map_eq_error
    {x : Except ε α} {f : α → β} {e : ε} :
    x.map f = .error e ↔ x = .error e := by
  cases x with
  | error e => simp [Except.map]
  | ok a => simp [Except.map]

theorem mapError_eq_error
    {x : Except ε α} {f : ε → ε'} {e' : ε'} :
    x.mapError f = .error e' ↔ ∃ e, x = .error e ∧ f e = e' := by
  cases x with
  | error e => simp [Except.mapError]
  | ok a => simp [Except.mapError]

theorem mapError_eq_ok
    {x : Except ε α} {f : ε → ε'} {a : α} :
    x.mapError f = .ok a ↔ x = .ok a := by
  cases x with
  | error e => simp [Except.mapError]
  | ok b => simp [Except.mapError]

theorem toOption_eq_some
    {x : Except ε α} {a : α} :
    x.toOption = some a ↔ x = .ok a := by
  cases x with
  | error e => simp [Except.toOption]
  | ok b => simp [Except.toOption]

theorem pure_eq_ok {a b : α} : (pure a : Except ε α) = .ok b ↔ a = b := by
  simp [pure, Except.pure]

/-- What two steps give is known from what is known of each of them. -/
theorem map_steps
    {α' β' γ' : Type} {x : Except ε α} {y : Except ε β} {join : α → β → γ} {f : γ → γ'}
    {g : α → α'} {k : β → β'} {join' : α' → β' → γ'}
    (h : ∀ a b, f (join a b) = join' (g a) (k b)) :
    (do return join (← x) (← y)).map f = (do return join' (← x.map g) (← y.map k)) := by
  cases x with
  | error e => rfl
  | ok a =>
      cases y with
      | error e => rfl
      | ok b => exact congrArg Except.ok (h a b)

/-- Where only the failure counts, a step may be followed by what is known to fail alike. -/
theorem discard_bind
    {x : Except ε α} {f : α → Except ε β} {y : Except ε Unit}
    (h : ∀ a, x = .ok a → (f a).map (fun _ => ()) = y) :
    (x >>= f).map (fun _ => ()) = (x.map fun _ => ()) >>= fun _ => y := by
  cases x with
  | error e => rfl
  | ok a => exact h a rfl

theorem discard_map {x : Except ε α} (f : α → β) :
    (x.map f).map (fun _ => ()) = x.map fun _ => () := by
  cases x <;> rfl

theorem discard_bind_pure {x : Except ε α} (f : α → β) :
    (x >>= fun a => pure (f a)).map (fun _ => ()) = x.map fun _ => () := by
  cases x <;> rfl

/-! ## Steps over a list -/

theorem forall₂_of_mapM
    {f : α → Except ε β} {xs : List α} {ys : List β}
    (h : xs.mapM f = .ok ys) :
    List.Forall₂ (fun x y => f x = .ok y) xs ys := by
  induction xs generalizing ys with
  | nil =>
      cases h
      exact List.Forall₂.nil
  | cons x rest ih =>
      rw [List.mapM_cons] at h
      rcases bind_eq_ok.mp h with ⟨y, hy, h⟩
      rcases bind_eq_ok.mp h with ⟨others, hothers, h⟩
      rw [← pure_eq_ok.mp h]
      exact List.Forall₂.cons hy (ih hothers)

theorem exists_of_mapM
    {f : α → Except ε β} {xs : List α} {ys : List β}
    (h : xs.mapM f = .ok ys) :
    ∀ y ∈ ys, ∃ x ∈ xs, f x = .ok y := by
  have hpairs := forall₂_of_mapM h
  clear h
  induction hpairs with
  | nil => exact fun _ hy => absurd hy List.not_mem_nil
  | @cons x _ _ _ hfirst _ ih =>
      rw [List.forall_mem_cons]
      refine ⟨⟨x, List.mem_cons_self, hfirst⟩, ?_⟩
      intro y hy
      rcases ih y hy with ⟨other, hother, hstep⟩
      exact ⟨other, List.mem_cons_of_mem x hother, hstep⟩

theorem mapM_map (f : α → Except ε β) (g : β → γ) (xs : List α) :
    xs.mapM (fun x => (f x).map g) = (xs.mapM f).map (List.map g) := by
  induction xs with
  | nil => rfl
  | cons x rest ih =>
      rw [List.mapM_cons, List.mapM_cons, ih]
      cases f x with
      | error e => rfl
      | ok y => cases rest.mapM f <;> rfl

theorem mapM_eq_ok
    {f : α → Except ε β} {g : α → β} {xs : List α}
    (h : ∀ x ∈ xs, f x = .ok (g x)) :
    xs.mapM f = .ok (xs.map g) := by
  induction xs with
  | nil => rfl
  | cons x rest ih =>
      rw [List.forall_mem_cons] at h
      rw [List.mapM_cons, h.1, ih h.2]
      rfl

/-- The steps over a list succeed exactly when each of them does. -/
theorem exists_mapM_iff
    {f : α → Except ε β} {xs : List α} :
    (∃ ys, xs.mapM f = .ok ys) ↔ ∀ x ∈ xs, ∃ y, f x = .ok y := by
  induction xs with
  | nil =>
      constructor
      · exact fun _ _ hx => absurd hx List.not_mem_nil
      · exact fun _ => ⟨[], rfl⟩
  | cons x rest ih =>
      rw [List.forall_mem_cons, ← ih, List.mapM_cons]
      constructor
      · rintro ⟨ys, h⟩
        rcases bind_eq_ok.mp h with ⟨y, hy, h⟩
        rcases bind_eq_ok.mp h with ⟨others, hothers, _⟩
        exact ⟨⟨y, hy⟩, others, hothers⟩
      · rintro ⟨⟨y, hy⟩, others, hothers⟩
        rw [hy, hothers]
        exact ⟨y :: others, rfl⟩

/-- Steps that all succeed give what each of them gives. -/
theorem filterMap_of_mapM
    {f : α → Except ε β} {xs : List α} {ys : List β}
    (h : xs.mapM f = .ok ys) :
    xs.filterMap (fun x => (f x).toOption) = ys := by
  have hpairs := forall₂_of_mapM h
  clear h
  induction hpairs with
  | nil => rfl
  | cons hfirst _ ih =>
      rw [← ih]
      exact List.filterMap_cons_some (toOption_eq_some.mpr hfirst)

theorem mapM_congr
    {f g : α → Option β} {xs : List α}
    (h : ∀ x ∈ xs, f x = g x) :
    xs.mapM f = xs.mapM g := by
  induction xs with
  | nil => rfl
  | cons x rest ih =>
      rw [List.forall_mem_cons] at h
      rw [List.mapM_cons, List.mapM_cons, h.1, ih h.2]

theorem exists_mapM_some
    {f : α → Option β} {xs : List α}
    (h : ∀ x ∈ xs, ∃ y, f x = some y) :
    ∃ ys, xs.mapM f = some ys := by
  induction xs with
  | nil => exact ⟨[], rfl⟩
  | cons x rest ih =>
      rw [List.forall_mem_cons] at h
      rcases h with ⟨⟨y, hy⟩, hrest⟩
      rcases ih hrest with ⟨ys, hys⟩
      refine ⟨y :: ys, ?_⟩
      rw [List.mapM_cons, hy, hys]
      rfl

/-- Steps over a list that fail do so with the failure of one of them. -/
theorem exists_error_of_mapM
    {f : α → Except ε β} {xs : List α} {e : ε}
    (h : xs.mapM f = .error e) :
    ∃ x ∈ xs, f x = .error e := by
  induction xs with
  | nil => cases h
  | cons x rest ih =>
      rw [List.mapM_cons] at h
      rcases bind_eq_error.mp h with hfirst | ⟨y, _, h⟩
      · exact ⟨x, List.mem_cons_self, hfirst⟩
      rcases bind_eq_error.mp h with hrest | ⟨others, _, h⟩
      · rcases ih hrest with ⟨other, hother, hfails⟩
        exact ⟨other, List.mem_cons_of_mem x hother, hfails⟩
      · cases h

/-- The first step over a list that fails decides. -/
theorem mapM_eq_error
    {f : α → Except ε β} {before after : List α} {x : α} {e : ε}
    (hbefore : ∀ y ∈ before, ∃ z, f y = .ok z) (hx : f x = .error e) :
    (before ++ x :: after).mapM f = .error e := by
  rcases exists_mapM_iff.mpr hbefore with ⟨ys, hys⟩
  rw [List.mapM_append, hys, List.mapM_cons, hx]
  rfl

/-- Steps that give nothing fail as the first of them that fails. -/
theorem forM_eq_error
    {f : α → Except ε Unit} {xs : List α} {e : ε} :
    forM xs f = .error e ↔
      ∃ before x after, xs = before ++ x :: after ∧ (∀ y ∈ before, f y = .ok ()) ∧
        f x = .error e := by
  constructor
  · intro h
    induction xs with
    | nil => cases h
    | cons x rest ih =>
        rcases bind_eq_error.mp h with hfirst | ⟨⟨⟩, hfirst, hrest⟩
        · exact ⟨[], x, rest, rfl, fun _ hy => absurd hy List.not_mem_nil, hfirst⟩
        · rcases ih hrest with ⟨before, y, after, rfl, hbefore, hy⟩
          exact ⟨x :: before, y, after, rfl, List.forall_mem_cons.mpr ⟨hfirst, hbefore⟩, hy⟩
  · rintro ⟨before, x, after, rfl, hbefore, hx⟩
    induction before with
    | nil => exact bind_eq_error.mpr (Or.inl hx)
    | cons y rest ih =>
        rw [List.forall_mem_cons] at hbefore
        exact bind_eq_error.mpr (Or.inr ⟨(), hbefore.1, ih hbefore.2⟩)

/-- Two related stages over a list make one. -/
theorem forall₂_comp
    {R : α → β → Prop} {S : β → γ → Prop} {T : α → γ → Prop}
    (hcomp : ∀ a b c, R a b → S b c → T a c)
    {xs : List α} {ys : List β} {zs : List γ}
    (hxy : List.Forall₂ R xs ys) (hyz : List.Forall₂ S ys zs) :
    List.Forall₂ T xs zs := by
  induction hxy generalizing zs with
  | nil =>
      cases hyz
      exact List.Forall₂.nil
  | cons hR _ ih =>
      cases hyz with
      | cons hS hrest => exact List.Forall₂.cons (hcomp _ _ _ hR hS) (ih hrest)

/-- What holds of related members alike holds of all of them alike. -/
theorem forall_iff_of_forall₂
    {R : α → β → Prop} {P : α → Prop} {Q : β → Prop} {xs : List α} {ys : List β}
    (h : List.Forall₂ R xs ys)
    (hiff : ∀ x ∈ xs, ∀ y, R x y → (P x ↔ Q y)) :
    (∀ x ∈ xs, P x) ↔ ∀ y ∈ ys, Q y := by
  induction h with
  | nil => simp
  | cons hfirst _ ih =>
      rw [List.forall_mem_cons, List.forall_mem_cons, hiff _ List.mem_cons_self _ hfirst,
        ih fun x hx => hiff x (List.mem_cons_of_mem _ hx)]

end Steps
end RecordApi
