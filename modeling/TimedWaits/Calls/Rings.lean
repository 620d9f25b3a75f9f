import TimedWaits.Calls.Alarms

/-!
Calls on rings: storing elements, which posts the ring's signal, and waiting for elements. A wait
blocks on the ring's signal; a post that comes without elements only makes it look again.
-/

set_option autoImplicit false

namespace TimedWaits.Rings

/-- Stores leading elements as long as they fit, and says how many did. The ring's signal is posted
once if any did. -/
def store (ring : Nat) (elements : List Int) : Activity Nat := do
  let stored ← .perform (.store ring elements)
  Attachment.callAny stored.attachment
  return stored.count

def hasElements (ring : Nat) : Activity Bool :=
  .read fun system => !(system.rings.get ring).isEmpty

/-- Blocks on a signal until the ring has elements or the deadline is reached, and says whether the
ring has elements. -/
def waitUntil (bound ring queue signal : Nat) (deadline : Tick) : Nat → Activity Bool
  | 0 => .fail .exhausted
  | rounds + 1 => do
    if ← hasElements ring then
      return true
    else if ← Alarms.waitUntil bound queue (.shared signal) deadline then
      waitUntil bound ring queue signal deadline rounds
    else
      hasElements ring

/-- Blocks until the ring has elements or a timeout passes on a queue's clock, and says whether the
ring has elements. Waiting on an empty ring without a signal halts the call. -/
def waitFor (bound ring queue : Nat) (timeout : Tick) : Activity Bool := do
  if ← hasElements ring then
    return true
  else
    match ← .read fun system => (system.rings.get ring).signal with
    | none => .halt "ring buffer wait without an associated signal"
    | some signal =>
      let now ← .read (·.queueNow queue)
      waitUntil bound ring queue signal (Tick.deadlineAfter now timeout) bound

end TimedWaits.Rings
