import TimedWaits.System.Signals

/-!
Atomic changes to rings. Storing elements and beginning the post of the ring's signal are one
change, so that whatever the post lets run finds the elements in the ring.
-/

set_option autoImplicit false

namespace TimedWaits

/-- How many elements a ring took in, and the observer of its signal that is to be called. -/
structure Stored where
  count : Nat
  attachment : Option Attachment

namespace System

def setRing (system : System) (index : Nat) (ring : Ring Int) : System :=
  { system with rings := system.rings.set index ring }

/-- Stores leading elements as long as they fit. If any did, the ring's signal is posted once; if
elements were offered and none fitted, that is noted. -/
def store (system : System) (index : Nat) (elements : List Int) : Stored × System :=
  let (count, filled) := (system.rings.get index).store elements
  if count = 0 then
    ({ count, attachment := none },
      if elements.isEmpty then system else system.log (.ringFull elements.length))
  else
    let kept := (system.setRing index filled).record (.stored index (elements.take count))
    match filled.signal with
    | none => ({ count, attachment := none }, kept)
    | some signal =>
      let (attachment, posted) := kept.beginPost (.shared signal) none
      ({ count, attachment }, posted)

def fetch (system : System) (index count : Nat) : List Int × System :=
  let (elements, rest) := (system.rings.get index).fetch count
  (elements, (system.setRing index rest).record (.fetched index elements))

def resetRing (system : System) (index : Nat) : System :=
  (system.setRing index (system.rings.get index).reset).record (.discarded index)

/-- Names the signal that a ring posts, unless it has one. -/
def associate (system : System) (index signal : Nat) : Except Refusal Unit × System :=
  match (system.rings.get index).associate? signal with
  | none => (.error .ringHasSignal, system.log .ringAlreadyAssociated)
  | some ring => (.ok (), system.setRing index ring)

/-- Makes a ring forget its signal, and says whether it had one. -/
def dissociate (system : System) (index : Nat) : Bool × System :=
  match (system.rings.get index).dissociate? with
  | none => (false, system)
  | some ring => (true, system.setRing index ring)

end System

end TimedWaits
