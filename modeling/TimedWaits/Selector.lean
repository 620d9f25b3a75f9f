import TimedWaits.LinkedLists

/-!
The table of a selector: which shared signal each slot watches, and the slots that are ready, in
the order in which they became so. A slot is in the ready list at most once, which is what makes
repeated posts of one signal count once.
-/

set_option autoImplicit false

namespace TimedWaits

/-- The slots of a selector and its ready list. A selector that was dropped is not live. -/
structure Selector where
  slots : List (Option Nat) := []
  ready : LinkedLists := {}
  live : Bool := false

namespace Selector

def readyList : Nat := 0

/-- A live selector that watches nothing. -/
def empty (capacity : Nat) : Selector :=
  { slots := List.replicate capacity none, live := true }

def capacity (selector : Selector) : Nat := selector.slots.length

def count (selector : Selector) : Nat := selector.slots.countP (·.isSome)

def signalAt? (selector : Selector) (slot : Nat) : Option Nat := selector.slots[slot]?.join

def freeSlot? (selector : Selector) : Option Nat := selector.slots.findIdx? (·.isNone)

def slotOf? (selector : Selector) (signal : Nat) : Option Nat :=
  selector.slots.findIdx? (· == some signal)

def fill (selector : Selector) (slot signal : Nat) : Selector :=
  { selector with slots := selector.slots.set slot (some signal) }

/-- Makes a slot watch nothing, and not be ready. -/
def clear (selector : Selector) (slot : Nat) : Selector :=
  { selector with
    slots := selector.slots.set slot none
    ready := (selector.ready.remove? readyList slot).getD selector.ready }

/-- Puts a slot at the back of the ready list; refused if it is ready already. -/
def markReady? (selector : Selector) (slot : Nat) : Option Selector :=
  (selector.ready.pushBack? readyList slot).map fun ready => { selector with ready }

/-- The slots that are ready, oldest first. -/
def readySlots (selector : Selector) : List Nat := selector.ready.members readyList

/-- Takes the first ready slot off the list, and says which signal it watches. The slot is taken
even if it watches nothing any more. -/
def takeReady (selector : Selector) : Option Nat × Selector :=
  match selector.ready.popFront? readyList with
  | none => (none, selector)
  | some (slot, ready) => (selector.signalAt? slot, { selector with ready })

end Selector

end TimedWaits
