import Mathlib.Data.List.Nodup
import Mathlib.Data.List.Perm.Basic
import RecordApi.Assoc

/-!
# Entries of an association

When its keys are distinct, an association is told by the order of its keys and by what each
of them is mapped to.
-/

namespace RecordApi
namespace Assoc

variable {α : Type}

@[simp] theorem keys_cons (entry : String × α) (rest : Assoc α) :
    keys (entry :: rest) = entry.1 :: keys rest := rfl

theorem get?_cons (entry : String × α) (rest : Assoc α) (key : String) :
    get? (entry :: rest) key = if entry.1 = key then some entry.2 else get? rest key := by
  unfold get?
  by_cases hkey : entry.1 = key
  · rw [List.find?_cons_of_pos (by simpa using hkey), if_pos hkey]
    rfl
  · rw [List.find?_cons_of_neg (by simpa using hkey), if_neg hkey]

theorem get?_eq_none {entries : Assoc α} {key : String} :
    get? entries key = none ↔ key ∉ keys entries := by
  induction entries with
  | nil => simp [get?, keys]
  | cons entry rest ih =>
      rw [get?_cons]
      by_cases hkey : entry.1 = key
      · simp [keys, hkey]
      · rw [if_neg hkey, ih]
        simp [keys, Ne.symm hkey]

theorem get?_eq_some
    {entries : Assoc α} (hdistinct : (keys entries).Nodup)
    {key : String} {value : α} :
    get? entries key = some value ↔ (key, value) ∈ entries := by
  induction entries with
  | nil => simp [get?]
  | cons entry rest ih =>
      have hparts := List.nodup_cons.mp hdistinct
      rw [get?_cons, List.mem_cons]
      by_cases hkey : entry.1 = key
      · have hrest : (key, value) ∉ rest := by
          intro hmem
          apply hparts.1
          change entry.1 ∈ keys rest
          rw [hkey]
          exact List.mem_map_of_mem hmem
        rw [if_pos hkey]
        constructor
        · intro hvalue
          exact Or.inl (Prod.ext hkey.symm (Option.some.inj hvalue).symm)
        · rintro (hentry | hmem)
          · rw [← hentry]
          · exact absurd hmem hrest
      · rw [if_neg hkey, ih hparts.2]
        constructor
        · exact Or.inr
        · rintro (hentry | hmem)
          · exact absurd (congrArg Prod.fst hentry.symm) hkey
          · exact hmem

theorem keys_put (key : String) (value : α) (entries : Assoc α) :
    keys (put key value entries) =
      if key ∈ keys entries then keys entries else keys entries ++ [key] := by
  induction entries with
  | nil => rfl
  | cons entry rest ih =>
      unfold put
      by_cases hkey : entry.1 = key
      · simp [hkey]
      · have hne : key ≠ entry.1 := Ne.symm hkey
        rw [if_neg hkey, keys_cons, keys_cons, ih]
        by_cases hrest : key ∈ keys rest
        · simp [hrest]
        · simp [hrest, hne]

theorem mem_keys_put {key other : String} {value : α} {entries : Assoc α} :
    other ∈ keys (put key value entries) ↔ other ∈ keys entries ∨ other = key := by
  rw [keys_put]
  by_cases hkey : key ∈ keys entries
  · rw [if_pos hkey]
    constructor
    · exact Or.inl
    · rintro (hother | heq)
      · exact hother
      · rw [heq]
        exact hkey
  · rw [if_neg hkey, List.mem_append, List.mem_singleton]

theorem nodup_keys_put
    {entries : Assoc α} (key : String) (value : α)
    (hdistinct : (keys entries).Nodup) :
    (keys (put key value entries)).Nodup := by
  rw [keys_put]
  by_cases hkey : key ∈ keys entries
  · rw [if_pos hkey]
    exact hdistinct
  · rw [if_neg hkey, ← List.concat_eq_append]
    exact hdistinct.concat hkey

theorem mem_of_mem_put
    {key : String} {value : α} {entries : Assoc α} {entry : String × α}
    (h : entry ∈ put key value entries) :
    entry = (key, value) ∨ entry ∈ entries := by
  induction entries with
  | nil => exact Or.inl (List.mem_singleton.mp h)
  | cons first rest ih =>
      unfold put at h
      by_cases hkey : first.1 = key
      · rw [if_pos hkey, List.mem_cons] at h
        exact h.imp_right (List.mem_cons_of_mem first)
      · rw [if_neg hkey, List.mem_cons] at h
        rcases h with rfl | hrest
        · exact Or.inr List.mem_cons_self
        · exact (ih hrest).imp_right (List.mem_cons_of_mem first)

/-- Putting pairs one after the other adds their keys, each of them once. -/
theorem keys_foldl_put
    (pairs : List (String × α)) {entries : Assoc α}
    (hdistinct : (keys entries).Nodup) :
    (keys (pairs.foldl (fun entries pair => put pair.1 pair.2 entries) entries)).Nodup ∧
      ∀ key, key ∈ keys (pairs.foldl (fun entries pair => put pair.1 pair.2 entries) entries) ↔
        key ∈ keys entries ∨ key ∈ pairs.map (·.1) := by
  induction pairs generalizing entries with
  | nil => simp [hdistinct]
  | cons pair rest ih =>
      have hrest := ih (nodup_keys_put pair.1 pair.2 hdistinct)
      refine ⟨hrest.1, ?_⟩
      intro key
      rw [List.foldl_cons, hrest.2 key, mem_keys_put, List.map_cons, List.mem_cons, or_assoc]

theorem get?_foldl_put_of_notMem
    {pairs : List (String × α)} {key : String} (entries : Assoc α) (h : key ∉ pairs.map (·.1)) :
    get? (pairs.foldl (fun entries pair => put pair.1 pair.2 entries) entries) key =
      get? entries key := by
  induction pairs generalizing entries with
  | nil => rfl
  | cons pair rest ih =>
      rw [List.map_cons, List.mem_cons, not_or] at h
      rw [List.foldl_cons, ih _ h.2, get?_put_of_ne (Ne.symm h.1)]

theorem get?_foldl_put_of_mem
    {pairs : List (String × α)} {key : String} {value : α} (entries : Assoc α)
    (hdistinct : (pairs.map (·.1)).Nodup) (h : (key, value) ∈ pairs) :
    get? (pairs.foldl (fun entries pair => put pair.1 pair.2 entries) entries) key =
      some value := by
  induction pairs generalizing entries with
  | nil => cases h
  | cons pair rest ih =>
      rw [List.map_cons, List.nodup_cons] at hdistinct
      rw [List.foldl_cons]
      rcases List.mem_cons.mp h with hpair | hrest
      · have hkey : key ∉ rest.map (·.1) := by
          rw [← hpair] at hdistinct
          exact hdistinct.1
        rw [← hpair, get?_foldl_put_of_notMem _ hkey, get?_put_self]
      · exact ih _ hdistinct.2 hrest

theorem put_of_notMem
    {entries : Assoc α} {key : String} (value : α) (h : key ∉ keys entries) :
    put key value entries = entries ++ [(key, value)] := by
  induction entries with
  | nil => rfl
  | cons entry rest ih =>
      rw [keys_cons, List.mem_cons, not_or] at h
      rw [put, if_neg (Ne.symm h.1), ih h.2, List.cons_append]

theorem put_put (key : String) (value other : α) (entries : Assoc α) :
    put key other (put key value entries) = put key other entries := by
  induction entries with
  | nil => simp [put]
  | cons entry rest ih =>
      by_cases hkey : entry.1 = key
      · simp [put, hkey]
      · simp [put, hkey, ih]

theorem put_of_get?
    {entries : Assoc α} {key : String} {value : α} (h : get? entries key = some value) :
    put key value entries = entries := by
  induction entries with
  | nil => cases h
  | cons entry rest ih =>
      rw [get?_cons] at h
      by_cases hkey : entry.1 = key
      · rw [if_pos hkey] at h
        rw [put, if_pos hkey, ← hkey, ← Option.some.inj h]
      · rw [if_neg hkey] at h
        rw [put, if_neg hkey, ih h]

theorem eq_of_put_eq
    {entries : Assoc α} {key : String} {value other : α}
    (h : put key value entries = put key other entries) :
    value = other := by
  have hget := congrArg (get? · key) h
  rwa [get?_put_self, get?_put_self, Option.some.injEq] at hget

variable {entries others : Assoc α}

theorem perm_of_get?_eq
    (hdistinct : (keys entries).Nodup) (hkeys : (keys entries).Perm (keys others))
    (hget : ∀ key ∈ keys entries, get? entries key = get? others key) :
    entries.Perm others := by
  have hothers := hkeys.nodup_iff.mp hdistinct
  rw [List.perm_ext_iff_of_nodup hdistinct.of_map hothers.of_map]
  rintro ⟨key, value⟩
  rw [← get?_eq_some hdistinct, ← get?_eq_some hothers]
  by_cases hkey : key ∈ keys entries
  · rw [hget key hkey]
  · rw [get?_eq_none.mpr hkey, get?_eq_none.mpr (mt hkeys.mem_iff.mpr hkey)]

theorem eq_of_get?_eq
    (hdistinct : (keys entries).Nodup) (hkeys : keys entries = keys others)
    (hget : ∀ key ∈ keys entries, get? entries key = get? others key) :
    entries = others := by
  induction entries generalizing others with
  | nil =>
      cases others with
      | nil => rfl
      | cons other rest => cases hkeys
  | cons entry rest ih =>
      cases others with
      | nil => cases hkeys
      | cons other others =>
          rw [keys_cons, keys_cons, List.cons.injEq] at hkeys
          rw [keys_cons] at hdistinct hget
          have hparts := List.nodup_cons.mp hdistinct
          rw [List.forall_mem_cons] at hget
          have hfirst : entry = other := by
            have hvalue := hget.1
            rw [get?_cons, get?_cons, if_pos rfl, if_pos hkeys.1.symm] at hvalue
            exact Prod.ext hkeys.1 (Option.some.inj hvalue)
          rw [hfirst, ih hparts.2 hkeys.2]
          intro key hkey
          have hne : entry.1 ≠ key := fun heq => hparts.1 (heq ▸ hkey)
          have hvalue := hget.2 key hkey
          rwa [get?_cons, get?_cons, if_neg hne, if_neg (hkeys.1 ▸ hne)] at hvalue

/-! ## Some of the keys -/

def keep (p : String → Bool) (entries : Assoc α) : Assoc α :=
  entries.filter fun entry => p entry.1

variable {p : String → Bool} {key : String}

theorem keep_cons (p : String → Bool) (entry : String × α) (rest : Assoc α) :
    keep p (entry :: rest) = if p entry.1 = true then entry :: keep p rest else keep p rest :=
  List.filter_cons

theorem put_cons (key : String) (value : α) (entry : String × α) (rest : Assoc α) :
    put key value (entry :: rest) =
      if entry.1 = key then (key, value) :: rest else entry :: put key value rest := rfl

theorem get?_keep (hkey : p key = true) (entries : Assoc α) :
    get? (keep p entries) key = get? entries key := by
  induction entries with
  | nil => rfl
  | cons entry rest ih =>
      rw [keep_cons, get?_cons]
      by_cases hname : entry.1 = key
      · rw [hname, if_pos hkey, get?_cons, if_pos hname, if_pos rfl]
      · rw [if_neg hname, ← ih]
        split
        · rw [get?_cons, if_neg hname]
        · rfl

theorem keep_put_of_pos (hkey : p key = true) (value : α) (entries : Assoc α) :
    keep p (put key value entries) = put key value (keep p entries) := by
  induction entries with
  | nil => exact List.filter_cons_of_pos hkey
  | cons entry rest ih =>
      rw [put_cons, keep_cons]
      by_cases hname : entry.1 = key
      · rw [hname, if_pos rfl, if_pos hkey, keep_cons, if_pos hkey, put_cons, if_pos hname]
      · rw [if_neg hname, keep_cons, ih]
        split
        · rw [put_cons, if_neg hname]
        · rfl

theorem keep_put_of_neg (hkey : p key = false) (value : α) (entries : Assoc α) :
    keep p (put key value entries) = keep p entries := by
  have hskip : ¬ p key = true := Bool.eq_false_iff.mp hkey
  induction entries with
  | nil => exact List.filter_cons_of_neg hskip
  | cons entry rest ih =>
      rw [put_cons, keep_cons]
      by_cases hname : entry.1 = key
      · rw [hname, if_pos rfl, keep_cons, if_neg hskip, if_neg hskip]
      · rw [if_neg hname, keep_cons, ih]

/-! ## Mapped values -/

theorem get?_mapValues {α β : Type} (f : α → β) (entries : Assoc α) (key : String) :
    get? (mapValues f entries) key = (get? entries key).map f := by
  induction entries with
  | nil => rfl
  | cons entry rest ih =>
      rw [mapValues, List.map_cons, get?_cons, get?_cons]
      split
      · rfl
      · exact ih

end Assoc
end RecordApi
