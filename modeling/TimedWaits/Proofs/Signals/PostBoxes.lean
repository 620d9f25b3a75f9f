import Mathlib.Logic.Function.Basic
import TimedWaits.Proofs.Runs.Script

/-! Post boxes, which are what users of signals are to think of: a count of posts, and a slot for an observer
that posts go to while it is held. Operations on any number of them run inside one another. While the
holder of a box is called it may carry out any of them, on the same box as well, and so may whoever acts
during a block. -/

set_option autoImplicit false

namespace TimedWaits

/-- A count of posts that stops at a ceiling, and a slot that one observer may hold. -/
structure PostBox where
  count : Nat := 0
  within : count ≤ Signal.ceiling := by decide
  holder : Option Attachment := none

inductive BoxOperation where
  | post
  | raise
  | take
  | wait
  | forward
  | attach (observer : Observer) (token : Nat)
  | detach (observer : Observer)
  | isHeld

/-- How an operation goes on: it ends at once, or the holder is called first, or it blocks until there is
a post to take. -/
inductive BoxTurn where
  | ends (answer : Answer) (box : PostBox)
  | calls (holder : Attachment) (answer : Answer)
  | blocks

namespace PostBox

/-- One more post, unless the count is at the ceiling. -/
def add (box : PostBox) : PostBox :=
  if full : box.count = Signal.ceiling then box
  else { box with
    count := box.count + 1
    within := Nat.lt_of_le_of_ne box.within full }

/-- One post less. -/
def remove (box : PostBox) : PostBox :=
  { box with
    count := box.count - 1
    within := Nat.le_trans (Nat.sub_le _ _) box.within }

def isHeldBy (box : PostBox) (observer : Observer) : Bool :=
  box.holder.any fun holder => holder.observer = observer

def perform : BoxOperation → PostBox → BoxTurn
  | .post, box =>
    match box.holder with
    | some holder => .calls holder .nothing
    | none => .ends .nothing box.add
  | .forward, box =>
    match box.holder with
    | some holder => .calls holder (.flag true)
    | none => .ends (.flag false) box
  | .raise, box => .ends .nothing box.add
  | .take, box => if box.count = 0 then .ends (.flag false) box else .ends (.flag true) box.remove
  | .wait, box => if box.count = 0 then .blocks else .ends .nothing box.remove
  | .attach observer token, box =>
    if box.holder.isSome then .ends (.refused .signalHasObserver) box
    else .ends .done { box with holder := some { observer, token } }
  | .detach observer, box =>
    if box.isHeldBy observer then .ends (.flag true) { box with holder := none }
    else .ends (.flag false) box
  | .isHeld, box => .ends (.flag box.holder.isSome) box

end PostBox

/-- Post boxes by number. -/
abbrev PostBoxes := Nat → PostBox

/-- How operations ended, each with the boxes that it left, the observers of the surroundings that were
called, and the boxes at last. All in the order of time. -/
structure BoxReport where
  endings : List (Outcome × PostBoxes) := []
  calls : List Attachment := []
  boxes : PostBoxes

namespace BoxReport

def andThen (report later : BoxReport) : BoxReport where
  endings := report.endings ++ later.endings
  calls := report.calls ++ later.calls
  boxes := later.boxes

/-- An operation ends after what went on inside it. -/
def close (report : BoxReport) (outcome : Outcome) (boxes : PostBoxes) : BoxReport :=
  { report with endings := report.endings ++ [(outcome, boxes)], boxes }

end BoxReport

namespace PostBoxes

def set (boxes : PostBoxes) (signal : Nat) (box : PostBox) : PostBoxes := Function.update boxes signal box

/-- Carries out an operation, given what the holder does when it is called and what others do as long as
the operation blocks. A holder that is a selector does nothing to any box. -/
def call (boxes : PostBoxes) (signal : Nat) (operation : BoxOperation)
    (reaction supply : Except Failure Unit × BoxReport) : BoxReport :=
  match (boxes signal).perform operation with
  | .ends answer box => { boxes : BoxReport }.close (.ok answer) (boxes.set signal box)
  | .calls { observer := .selector _, .. } answer => { boxes : BoxReport }.close (.ok answer) boxes
  | .calls holder answer =>
    let (outcome, report) := reaction
    { report with calls := holder :: report.calls }.close (outcome.map fun _ => answer) report.boxes
  | .blocks =>
    match supply with
    | (.ok (), report) =>
      report.close (.ok .nothing) (report.boxes.set signal (report.boxes signal).remove)
    | (.error failure, report) => report.close (.error failure) report.boxes

end PostBoxes

namespace Action

/-- The operation on a post box that an operation on a shared signal is. -/
def boxOperation? : Action → Option (Nat × BoxOperation)
  | .post signal => some (signal, .post)
  | .raise signal => some (signal, .raise)
  | .take signal => some (signal, .take)
  | .wait signal => some (signal, .wait)
  | .forward signal => some (signal, .forward)
  | .attach signal observer token => some (signal, .attach observer token)
  | .detach signal observer => some (signal, .detach observer)
  | .hasObserver signal => some (signal, .isHeld)
  | _ => none

end Action

mutual

/-- What operations on signals come to if these are post boxes. -/
def Script.onBoxes : Script → PostBoxes → BoxReport
  | .done, boxes => { boxes }
  | .call action inside rest, boxes =>
    match action.boxOperation? with
    | none => rest.onBoxes boxes
    | some (signal, operation) =>
      let called := boxes.call signal operation (inside.react boxes) (inside.supply signal boxes)
      called.andThen (rest.onBoxes called.boxes)

/-- What the holder of a box does when it is called, and how the call ends. -/
def Interludes.react : Interludes → PostBoxes → Except Failure Unit × BoxReport
  | .none, boxes => (.ok (), { boxes })
  | .next script answer _, boxes => (answer, script.onBoxes boxes)

/-- What others do as long as there is no post to take, and whether there is one in the end. -/
def Interludes.supply (signal : Nat) : Interludes → PostBoxes → Except Failure Unit × BoxReport
  | .none, boxes => (if (boxes signal).count = 0 then .error .stalled else .ok (), { boxes })
  | .next script answer rest, boxes =>
    if (boxes signal).count = 0 then
      let acted := script.onBoxes boxes
      match answer with
      | .error failure => (.error failure, acted)
      | .ok () =>
        let (outcome, later) := rest.supply signal acted.boxes
        (outcome, acted.andThen later)
    else (.ok (), { boxes })

end

end TimedWaits
