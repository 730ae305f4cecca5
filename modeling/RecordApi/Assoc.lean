/-!
# Ordered associations

A list of key and value pairs in the order in which the keys were first put.  Putting
a key again replaces its value and keeps its place.
-/

namespace RecordApi

/-- Pairs of a key and a value, in order. -/
abbrev Assoc (α : Type) := List (String × α)

namespace Assoc

variable {α β : Type}

def get? (entries : Assoc α) (key : String) : Option α :=
  (entries.find? fun entry => entry.1 == key).map (·.2)

def has (entries : Assoc α) (key : String) : Bool :=
  entries.any fun entry => entry.1 == key

def put (key : String) (value : α) : Assoc α → Assoc α
  | [] => [(key, value)]
  | entry :: rest => if entry.1 = key then (key, value) :: rest else entry :: put key value rest

def keys (entries : Assoc α) : List String :=
  entries.map (·.1)

/-- Puts pairs one after the other into the empty association. -/
def ofPairs (pairs : List (String × α)) : Assoc α :=
  pairs.foldl (fun entries pair => put pair.1 pair.2 entries) []

def mapValues (f : α → β) (entries : Assoc α) : Assoc β :=
  entries.map fun entry => (entry.1, f entry.2)

theorem get?_put_self (key : String) (value : α) (entries : Assoc α) :
    (put key value entries).get? key = some value := by
  induction entries with
  | nil => simp [put, get?]
  | cons entry rest ih =>
      by_cases h : entry.1 = key
      · simp [put, get?, h]
      · simpa [put, get?, h] using ih

theorem get?_put_of_ne {key other : String} (h : key ≠ other) (value : α) (entries : Assoc α) :
    (put key value entries).get? other = entries.get? other := by
  induction entries with
  | nil => simp [put, get?, h]
  | cons entry rest ih =>
      by_cases hk : entry.1 = key
      · simp [put, get?, hk, h]
      · by_cases ho : entry.1 = other
        · subst ho
          simp [put, get?, hk]
        · simpa [put, get?, hk, ho] using ih

end Assoc
end RecordApi
