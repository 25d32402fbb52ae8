/-!
# Stores of recent entries

A `Recent` store holds a bounded number of entries, the most recently used one
first.  Looking an entry up or storing it makes it the most recent; when a new
entry finds the store full, the least recent one leaves.
-/

namespace LivePreview

/-- A bounded store, most recent entry first. -/
structure Recent (κ : Type) (α : Type) where
  capacity : Nat
  entries : List (κ × α)

namespace Recent

variable {κ α : Type} [DecidableEq κ]

/-- A store without entries.  It can hold at least one. -/
def empty (capacity : Nat) : Recent κ α :=
  ⟨max capacity 1, []⟩

def size (store : Recent κ α) : Nat :=
  store.entries.length

/-- The value of a key, and its place in the order of use untouched. -/
def peek? (store : Recent κ α) (key : κ) : Option α :=
  (store.entries.find? fun entry => entry.1 = key).map (·.2)

def others (store : Recent κ α) (key : κ) : List (κ × α) :=
  store.entries.filter fun entry => entry.1 ≠ key

def touch (store : Recent κ α) (key : κ) : Recent κ α :=
  match store.peek? key with
  | some value => { store with entries := (key, value) :: store.others key }
  | none => store

/-- The store with an entry, which replaces one of the same key. -/
def insert (store : Recent κ α) (key : κ) (value : α) : Recent κ α :=
  { store with entries := ((key, value) :: store.others key).take store.capacity }

/-- The store with room for at least so many entries. -/
def grow (store : Recent κ α) (capacity : Nat) : Recent κ α :=
  { store with capacity := max store.capacity capacity }

def clear (store : Recent κ α) : Recent κ α :=
  { store with entries := [] }

end Recent

end LivePreview
