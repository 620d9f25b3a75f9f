import TimedWaits.Table

/-!
A bounded queue in a circle of cells. One cell always stays free, so that equal indices mean empty
and a write index just behind the read index means full: a ring of `size` cells holds `size - 1`
elements. Storing into a full ring is refused and never blocks.

`Ring.toList` reads the elements off the circle, oldest first.
-/

set_option autoImplicit false

namespace TimedWaits

/-- A circle of at least two cells with the next cell to write, the next one to read and, if there
is one, the shared signal that is posted when elements arrive. -/
structure Ring (α : Type) where
  size : Nat
  two_le_size : 2 ≤ size := by omega
  cells : Table (Option α) := { fallback := none }
  write : Nat := 0
  read : Nat := 0
  signal : Option Nat := none

namespace Ring

variable {α : Type}

/-- The empty ring of as few cells as possible. -/
def smallest : Ring α := { size := 2, two_le_size := Nat.le_refl 2 }

/-- The cell after a given one, the first cell after the last. -/
def next (ring : Ring α) (index : Nat) : Nat :=
  if index + 1 < ring.size then index + 1 else 0

def isEmpty (ring : Ring α) : Bool := ring.write == ring.read

def isFull (ring : Ring α) : Bool := ring.next ring.write == ring.read

def length (ring : Ring α) : Nat :=
  if ring.read ≤ ring.write then ring.write - ring.read
  else ring.size - ring.read + ring.write

def capacity (ring : Ring α) : Nat := ring.size - 1

def storeOne? (ring : Ring α) (element : α) : Option (Ring α) :=
  if ring.isFull then none
  else some { ring with
    cells := ring.cells.set ring.write (some element)
    write := ring.next ring.write }

/-- Stores leading elements as long as they fit, and says how many did. -/
def store (ring : Ring α) : List α → Nat × Ring α
  | [] => (0, ring)
  | element :: rest =>
    match ring.storeOne? element with
    | none => (0, ring)
    | some stored =>
      let (count, filled) := stored.store rest
      (count + 1, filled)

def fetchOne? (ring : Ring α) : Option (α × Ring α) :=
  if ring.isEmpty then none
  else (ring.cells.get ring.read).map fun element =>
    (element, { ring with read := ring.next ring.read })

/-- Takes the oldest elements out, at most the given number. -/
def fetch (ring : Ring α) : Nat → List α × Ring α
  | 0 => ([], ring)
  | count + 1 =>
    match ring.fetchOne? with
    | none => ([], ring)
    | some (element, rest) =>
      let (elements, drained) := rest.fetch count
      (element :: elements, drained)

def reset (ring : Ring α) : Ring α := { ring with write := 0, read := 0 }

/-- Names the signal to post when elements arrive; refused if one is named already. -/
def associate? (ring : Ring α) (signal : Nat) : Option (Ring α) :=
  match ring.signal with
  | some _ => none
  | none => some { ring with signal := some signal }

/-- Forgets the signal; refused if none is named. -/
def dissociate? (ring : Ring α) : Option (Ring α) :=
  ring.signal.map fun _ => { ring with signal := none }

/-- The elements that wait to be read, oldest first. -/
def toList (ring : Ring α) : List α := (ring.fetch ring.length).1

end Ring

end TimedWaits
