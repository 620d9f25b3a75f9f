import Mathlib.Data.List.Basic
import TimedWaits.Ring

/-! The sequence that a ring holds: the cells from the read index on, around the end of the circle, up
to the write index. Each operation gets one lemma that says what it answers and which sequence it
leaves. -/

set_option autoImplicit false

namespace TimedWaits.Ring

variable {α : Type} {ring : Ring α} {elements : List α}

/-- The cell that lies some cells after the read index. -/
def place (ring : Ring α) (offset : Nat) : Nat :=
  if ring.read + offset < ring.size then ring.read + offset
  else ring.read + offset - ring.size

/-- A ring holds a sequence: the sequence leaves a cell free, its elements are in the cells from the
read index on, and the write index comes right after them. -/
structure Holds (ring : Ring α) (elements : List α) : Prop where
  read : ring.read < ring.size
  room : elements.length < ring.size
  write : ring.write = ring.place elements.length
  cells : ∀ offset element, elements[offset]? = some element →
    ring.cells.get (ring.place offset) = some element

theorem place_lt {offset : Nat} (read : ring.read < ring.size) (within : offset ≤ ring.size) :
    ring.place offset < ring.size := by
  unfold place
  split <;> omega

theorem place_zero (read : ring.read < ring.size) : ring.place 0 = ring.read := by
  simp [place, read]

theorem place_ne {offset other : Nat} (less : offset < other) (within : other < ring.size) :
    ring.place offset ≠ ring.place other := by
  unfold place
  split <;> split <;> omega

theorem next_place {offset : Nat} (read : ring.read < ring.size) (within : offset < ring.size) :
    ring.next (ring.place offset) = ring.place (offset + 1) := by
  unfold next place
  split <;> split <;> split <;> omega

/-- Reading on from the next cell, everything lies one cell nearer. -/
private theorem place_next {rest : Ring α} {offset : Nat} (read : ring.read < ring.size)
    (size : rest.size = ring.size) (moved : rest.read = ring.next ring.read)
    (within : offset + 1 < ring.size) : rest.place offset = ring.place (offset + 1) := by
  unfold place
  rw [size, moved, next]
  split <;> split <;> split <;> omega

namespace Holds

theorem write_lt (holds : ring.Holds elements) : ring.write < ring.size := by
  rw [holds.write]
  exact place_lt holds.read (Nat.le_of_lt holds.room)

theorem isEmpty_eq (holds : ring.Holds elements) : ring.isEmpty = elements.isEmpty := by
  have room := holds.room
  have read := holds.read
  cases elements with
  | nil => simp [isEmpty, holds.write, place_zero read]
  | cons first rest =>
      have apart := place_ne (Nat.zero_lt_succ rest.length) room
      rw [place_zero read] at apart
      simp [isEmpty, holds.write, Ne.symm apart]

theorem length_eq (holds : ring.Holds elements) : ring.length = elements.length := by
  have room := holds.room
  have read := holds.read
  rw [length, holds.write, place]
  split <;> split <;> omega

theorem isFull_eq (holds : ring.Holds elements) :
    ring.isFull = (elements.length == ring.capacity) := by
  have room := holds.room
  have read := holds.read
  have wide := ring.two_le_size
  rw [isFull, holds.write, next_place read room, capacity, place]
  split
  · have free : elements.length ≠ ring.size - 1 := by omega
    simp [free]
  · by_cases last : elements.length = ring.size - 1
    · have full : ring.read + (elements.length + 1) - ring.size = ring.read := by omega
      rw [full, last, beq_self_eq_true, beq_self_eq_true]
    · have free : ring.read + (elements.length + 1) - ring.size ≠ ring.read := by omega
      simp [last, free]

/-! ### Storing -/

private theorem storeOne?_full (holds : ring.Holds elements) (element : α)
    (full : elements.length = ring.capacity) : ring.storeOne? element = none := by
  simp [storeOne?, holds.isFull_eq, full]

/-- An element that fits comes last in the sequence. The cell that it is written to held none of the
others. -/
private theorem storeOne? (holds : ring.Holds elements) (element : α)
    (free : elements.length < ring.capacity) :
    ∃ stored, ring.storeOne? element = some stored ∧ stored.Holds (elements ++ [element]) ∧
      stored.size = ring.size ∧ stored.signal = ring.signal := by
  have less : elements.length + 1 < ring.size := by
    rw [capacity] at free
    omega
  let stored : Ring α := { ring with
    cells := ring.cells.set ring.write (some element)
    write := ring.next ring.write }
  have same : ∀ offset, stored.place offset = ring.place offset := fun _ => rfl
  refine ⟨stored, ?_, ?_, rfl, rfl⟩
  · simp [Ring.storeOne?, holds.isFull_eq, Nat.ne_of_lt free, stored]
  · constructor
    case read => exact holds.read
    case room =>
      rw [List.length_append]
      exact less
    case write =>
      change ring.next ring.write = ring.place (elements ++ [element]).length
      rw [holds.write, next_place holds.read holds.room, List.length_append]
      rfl
    case cells =>
      intro offset found lookup
      change (ring.cells.set ring.write (some element)).get (ring.place offset) = some found
      rcases Nat.lt_trichotomy offset elements.length with before | rfl | behind
      · rw [List.getElem?_append_left before] at lookup
        have apart : ring.place offset ≠ ring.write := by
          rw [holds.write]
          exact place_ne before holds.room
        rw [Table.get_set_of_ne _ apart]
        exact holds.cells offset found lookup
      · have last : element = found := by simpa using lookup
        rw [← holds.write, Table.get_set_same, last]
      · have beyond : (elements ++ [element]).length ≤ offset := by
          rw [List.length_append]
          exact behind
        rw [List.getElem?_eq_none beyond] at lookup
        cases lookup

theorem store (holds : ring.Holds elements) (offered : List α) :
    (ring.store offered).1 = (offered.take (ring.capacity - elements.length)).length ∧
      (ring.store offered).2.Holds
        (elements ++ offered.take (ring.capacity - elements.length)) ∧
      (ring.store offered).2.size = ring.size ∧
      (ring.store offered).2.signal = ring.signal := by
  induction offered generalizing ring elements with
  | nil => simpa [Ring.store] using holds
  | cons element rest ih =>
      by_cases full : elements.length = ring.capacity
      · rw [Ring.store, holds.storeOne?_full element full, full, Nat.sub_self]
        simpa using holds
      · have free : elements.length < ring.capacity := by
          have room := holds.room
          rw [capacity] at full ⊢
          omega
        obtain ⟨stored, one, extended, size, signal⟩ := holds.storeOne? element free
        obtain ⟨count, filled, sizeFilled, signalFilled⟩ := ih extended
        have capacity : stored.capacity = ring.capacity := by rw [Ring.capacity, size, Ring.capacity]
        have split : ring.capacity - elements.length =
            ring.capacity - (elements ++ [element]).length + 1 := by
          rw [List.length_append, List.length_singleton]
          omega
        rw [capacity] at count filled
        rw [Ring.store, one, split, List.take_succ_cons]
        refine ⟨congrArg Nat.succ count, ?_, sizeFilled.trans size, signalFilled.trans signal⟩
        rwa [List.append_assoc, List.singleton_append] at filled

/-! ### Fetching -/

private theorem fetchOne?_nil (holds : ring.Holds []) : ring.fetchOne? = none := by
  simp [fetchOne?, holds.isEmpty_eq]

private theorem fetchOne?_cons {first : α} {rest : List α} (holds : ring.Holds (first :: rest)) :
    ∃ drained, ring.fetchOne? = some (first, drained) ∧ drained.Holds rest ∧
      drained.size = ring.size ∧ drained.signal = ring.signal := by
  let drained : Ring α := { ring with read := ring.next ring.read }
  have room := holds.room
  rw [List.length_cons] at room
  have nearer : ∀ {offset}, offset + 1 < ring.size →
      drained.place offset = ring.place (offset + 1) :=
    fun within => place_next holds.read rfl rfl within
  have front := holds.cells 0 first rfl
  rw [place_zero holds.read] at front
  refine ⟨drained, by simp [fetchOne?, holds.isEmpty_eq, front, drained], ?_, rfl, rfl⟩
  constructor
  case read =>
    change ring.next ring.read < ring.size
    rw [← place_zero holds.read, next_place holds.read (by omega)]
    exact place_lt holds.read (by omega)
  case room => exact Nat.lt_of_succ_lt room
  case write =>
    rw [nearer room]
    exact holds.write
  case cells =>
    intro offset element lookup
    have within : offset < rest.length := (List.getElem?_eq_some_iff.mp lookup).1
    rw [nearer (by omega)]
    exact holds.cells (offset + 1) element lookup

theorem fetch (holds : ring.Holds elements) (count : Nat) :
    (ring.fetch count).1 = elements.take count ∧
      (ring.fetch count).2.Holds (elements.drop count) ∧
      (ring.fetch count).2.size = ring.size ∧ (ring.fetch count).2.signal = ring.signal := by
  induction count generalizing ring elements with
  | zero => simpa [Ring.fetch] using holds
  | succ count ih =>
      cases elements with
      | nil =>
          rw [Ring.fetch, holds.fetchOne?_nil]
          simpa using holds
      | cons first rest =>
          obtain ⟨drained, one, left, size, signal⟩ := holds.fetchOne?_cons
          obtain ⟨fetched, remain, sizeLeft, signalLeft⟩ := ih left
          rw [Ring.fetch, one]
          exact ⟨congrArg (first :: ·) fetched, remain, sizeLeft.trans size,
            signalLeft.trans signal⟩

theorem toList_eq (holds : ring.Holds elements) : ring.toList = elements := by
  rw [toList, (holds.fetch ring.length).1, holds.length_eq, List.take_length]

end Holds

theorem holds_nil (read : ring.read = 0) (write : ring.write = 0) : ring.Holds [] where
  read := by
    have wide := ring.two_le_size
    omega
  room := Nat.lt_of_lt_of_le Nat.two_pos ring.two_le_size
  write := by
    have wide := ring.two_le_size
    rw [List.length_nil, place_zero (by omega), read, write]
  cells offset element lookup := by simp at lookup

end TimedWaits.Ring
