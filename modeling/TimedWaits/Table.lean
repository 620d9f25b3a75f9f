/-!
A total table over the natural numbers: stored entries from zero on, and one fallback value for
every other index. Writing past the stored entries extends them, so that a read after a write
needs no side condition (`Table.get_set`).
-/

set_option autoImplicit false

namespace TimedWaits

/-- A value for every index: the stored entries from zero on, and the fallback elsewhere. -/
structure Table (α : Type) where
  fallback : α
  entries : Array α := #[]

namespace Table

variable {α : Type}

/-- The table of the given entries, with a fallback for every later index. -/
def ofList (fallback : α) (entries : List α) : Table α :=
  { fallback, entries := entries.toArray }

def size (table : Table α) : Nat := table.entries.size

def get (table : Table α) (index : Nat) : α :=
  table.entries[index]?.getD table.fallback

def set (table : Table α) (index : Nat) (value : α) : Table α :=
  if index < table.entries.size then
    { table with entries := table.entries.setIfInBounds index value }
  else
    { table with
      entries :=
        (table.entries ++ Array.replicate (index - table.entries.size) table.fallback).push value }

def modify (table : Table α) (index : Nat) (change : α → α) : Table α :=
  table.set index (change (table.get index))

def toList (table : Table α) : List α := table.entries.toList

@[simp] theorem get_ofList (fallback : α) (entries : List α) (index : Nat) :
    (ofList fallback entries).get index = entries[index]?.getD fallback := by
  simp [ofList, get]

theorem get_set (table : Table α) (index other : Nat) (value : α) :
    (table.set index value).get other = if other = index then value else table.get other := by
  unfold set get
  split
  next within =>
    by_cases same : other = index
    · subst same; simp [within]
    · simp [Ne.symm same, same]
  next beyond =>
    simp only [Array.getElem?_push, Array.size_append, Array.size_replicate,
      Array.getElem?_append, Array.getElem?_replicate]
    have filled : table.entries.size + (index - table.entries.size) = index := by omega
    rw [filled]
    by_cases same : other = index
    · simp [same]
    · simp only [same, if_false]
      by_cases stored : other < table.entries.size
      · simp [stored]
      · have missing : table.entries[other]? = none := by simp; omega
        simp only [stored, if_false, missing, Option.getD_none]
        split <;> rfl

@[simp] theorem get_set_same (table : Table α) (index : Nat) (value : α) :
    (table.set index value).get index = value := by
  simp [get_set]

theorem get_set_of_ne (table : Table α) {index other : Nat} (differ : other ≠ index) (value : α) :
    (table.set index value).get other = table.get other := by
  simp [get_set, differ]

theorem size_set (table : Table α) (index : Nat) (value : α) :
    (table.set index value).size = max table.size (index + 1) := by
  simp only [set, size]
  split
  next within =>
    rw [Array.size_setIfInBounds]
    omega
  next beyond =>
    rw [Array.size_push, Array.size_append, Array.size_replicate]
    omega

theorem get_modify (table : Table α) (index other : Nat) (change : α → α) :
    (table.modify index change).get other =
      if other = index then change (table.get index) else table.get other := by
  simp [modify, get_set]

end Table

end TimedWaits
