/-!
# Catalogs

A catalog holds one value per key, in the order in which the keys were first put in. Changing the
value of a key keeps its place; a new key goes to the end. `get?` is the view in which the
operations are stated, and `keys` the order.
-/
namespace Implementors

structure Catalog (κ α : Type) where
  entries : List (κ × α)
  distinct : (entries.map Prod.fst).Nodup

namespace Catalog

variable {κ α β : Type}

@[ext] theorem ext {c d : Catalog κ α} (h : c.entries = d.entries) : c = d := by
  cases c; cases d; cases h; rfl

protected def empty : Catalog κ α := ⟨[], List.nodup_nil⟩

def keys (c : Catalog κ α) : List κ := c.entries.map Prod.fst

def size (c : Catalog κ α) : Nat := c.entries.length

def isEmpty (c : Catalog κ α) : Bool := c.entries.isEmpty

/-- Changes every value and keeps the keys. -/
def map (f : α → β) (c : Catalog κ α) : Catalog κ β :=
  ⟨c.entries.map fun e => (e.1, f e.2), by
    simpa [Function.comp_def] using c.distinct⟩

/-- The number of values in a catalog of lists, over all keys. -/
def count (c : Catalog κ (List α)) : Nat := (c.entries.flatMap (·.2)).length

@[simp] theorem keys_empty : (Catalog.empty : Catalog κ α).keys = [] := rfl

variable [DecidableEq κ]

/-- The value of the first entry for a key. -/
def find? (key : κ) : List (κ × α) → Option α
  | [] => none
  | (k, v) :: rest => if k = key then some v else find? key rest

/-- Replaces the value of a key in its place, or puts the key at the end. -/
def alterEntries (key : κ) (change : Option α → α) : List (κ × α) → List (κ × α)
  | [] => [(key, change none)]
  | (k, v) :: rest =>
    if k = key then (k, change (some v)) :: rest else (k, v) :: alterEntries key change rest

theorem keys_alterEntries (key : κ) (change : Option α → α) (entries : List (κ × α)) :
    (alterEntries key change entries).map Prod.fst =
      if key ∈ entries.map Prod.fst then entries.map Prod.fst
      else entries.map Prod.fst ++ [key] := by
  induction entries with
  | nil => rfl
  | cons e rest ih =>
    obtain ⟨k, v⟩ := e
    by_cases h : k = key
    · simp [alterEntries, h]
    · simp only [alterEntries, h, ↓reduceIte, List.map_cons, ih, List.mem_cons, Ne.symm h, false_or]
      split <;> simp

theorem nodup_alterEntries (key : κ) (change : Option α → α) {entries : List (κ × α)}
    (h : (entries.map Prod.fst).Nodup) :
    ((alterEntries key change entries).map Prod.fst).Nodup := by
  rw [keys_alterEntries]
  split
  · exact h
  · rename_i hk
    refine List.nodup_append.2 ⟨h, by simp, ?_⟩
    intro a ha b hb hab
    rw [List.mem_singleton] at hb
    exact hk (hb ▸ hab ▸ ha)

theorem find?_alterEntries (key : κ) (change : Option α → α) (entries : List (κ × α)) (k : κ) :
    find? k (alterEntries key change entries) =
      if k = key then some (change (find? key entries)) else find? k entries := by
  induction entries with
  | nil => by_cases h : key = k <;> simp [alterEntries, find?, h, eq_comm]
  | cons e rest ih =>
    obtain ⟨j, v⟩ := e
    by_cases h : j = key
    · subst h
      by_cases hk : j = k
      · simp [alterEntries, find?, hk]
      · simp [alterEntries, find?, hk, Ne.symm hk]
    · by_cases hk : k = key
      · subst hk; simp [alterEntries, find?, h, ih]
      · by_cases hj : j = k <;> simp [alterEntries, find?, h, hj, ih, hk]

def get? (c : Catalog κ α) (key : κ) : Option α := find? key c.entries

def contains (c : Catalog κ α) (key : κ) : Bool := (c.get? key).isSome

/-- Gives a key the value that `change` makes of the one it had, if any. -/
def alter (c : Catalog κ α) (key : κ) (change : Option α → α) : Catalog κ α :=
  ⟨alterEntries key change c.entries, nodup_alterEntries key change c.distinct⟩

def insert (c : Catalog κ α) (key : κ) (value : α) : Catalog κ α := c.alter key fun _ => value

instance [DecidableEq α] : DecidableEq (Catalog κ α) := fun c d =>
  decidable_of_iff (c.entries = d.entries) ⟨ext, fun h => h ▸ rfl⟩

@[simp] theorem get?_empty (key : κ) : (Catalog.empty : Catalog κ α).get? key = none := rfl

theorem keys_alter (c : Catalog κ α) (key : κ) (change : Option α → α) :
    (c.alter key change).keys = if key ∈ c.keys then c.keys else c.keys ++ [key] :=
  keys_alterEntries key change c.entries

theorem get?_alter (c : Catalog κ α) (key : κ) (change : Option α → α) (k : κ) :
    (c.alter key change).get? k = if k = key then some (change (c.get? key)) else c.get? k :=
  find?_alterEntries key change c.entries k

theorem get?_insert (c : Catalog κ α) (key : κ) (value : α) (k : κ) :
    (c.insert key value).get? k = if k = key then some value else c.get? k :=
  get?_alter c key (fun _ => value) k

/-- The two hold related values under the same keys, in whatever order. -/
def Agree (related : α → β → Prop) (c : Catalog κ α) (d : Catalog κ β) : Prop :=
  c.size = d.size ∧ ∀ e ∈ c.entries, ∃ v ∈ d.get? e.1, related e.2 v

instance (related : α → β → Prop) [∀ a b, Decidable (related a b)] (c : Catalog κ α)
    (d : Catalog κ β) : Decidable (Agree related c d) := inferInstanceAs (Decidable (_ ∧ _))

/-- Appends to the list of a key, which is empty for a new key. -/
def append (c : Catalog κ (List α)) (key : κ) (values : List α) : Catalog κ (List α) :=
  c.alter key fun old => old.getD [] ++ values

end Catalog

end Implementors
