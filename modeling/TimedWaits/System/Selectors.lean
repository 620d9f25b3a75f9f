import TimedWaits.System.Signals

/-!
Atomic changes to selectors. Attaching to a signal and filling the slot are one change, and so are
marking a slot ready and raising the selector's own signal, and taking a post of that signal and
the first ready slot.
-/

set_option autoImplicit false

namespace TimedWaits.System

def setSelector (system : System) (index : Nat) (selector : Selector) : System :=
  { system with selectors := system.selectors.set index selector }

/-- Lets a selector watch a signal through its lowest free slot. Having no free slot is refused
before a signal that has an observer is. -/
def watch (system : System) (index signal : Nat) : Except Refusal Unit × System :=
  let selector := system.selectors.get index
  match selector.freeSlot? with
  | none => (.error .selectorFull, system)
  | some slot =>
    match system.attach signal (.selector index) slot with
    | (.error _, refused) => (.error .selectedSignalHasObserver, refused)
    | (.ok (), attached) =>
      (.ok (), ((attached.setSelector index (selector.fill slot signal)).record
        (.watching index slot signal)).log (.slotFilled slot))

/-- Stops watching a signal and forgets that it was ready. Says whether it was watched. -/
def unwatch (system : System) (index signal : Nat) : Bool × System :=
  let selector := system.selectors.get index
  match selector.slotOf? signal with
  | none => (false, system)
  | some slot =>
    let (_, detached) := system.detach signal (.selector index)
    (true, (detached.setSelector index (selector.clear slot)).record
      (.unwatched index slot signal))

/-- What a selector does when it is called as an observer: the slot that the token names becomes
ready unless it is already, and the selector's own signal is raised. A token without a slot is
noted and does nothing. -/
def markReady (system : System) (index token : Nat) : System :=
  let selector := system.selectors.get index
  if token < selector.capacity then
    let marked := match selector.markReady? token with
      | none => system.log (.slotAlreadyReady token)
      | some ready => (system.setSelector index ready).record (.slotReady index token)
    marked.raise (.selector index)
  else system.log (.slotUnknown token)

/-- Takes the first ready slot of a selector and gives the signal that it watches. -/
def takeReady (system : System) (index : Nat) : Option Nat × System :=
  let (signal?, selector) := (system.selectors.get index).takeReady
  let taken := system.setSelector index selector
  (signal?, match signal? with
    | none => taken
    | some signal => taken.record (.selected index signal))

/-- Takes a post of the selector's own signal, and then its first ready slot. -/
def takeWakeup (system : System) (index : Nat) : Option Nat × System :=
  let (_, taken) := system.take (.selector index)
  taken.takeReady index

def detachAll (system : System) (index : Nat) : List (Option Nat) → System
  | [] => system
  | none :: slots => system.detachAll index slots
  | some signal :: slots => (system.detach signal (.selector index)).2.detachAll index slots

/-- Drops a selector: all its signals count their own posts again. -/
def dropSelector (system : System) (index : Nat) : System :=
  let detached := system.detachAll index (system.selectors.get index).slots
  (detached.setSelector index {}).setSignal (.selector index) {}

/-- Makes a selector that watches nothing, with a signal of its own. One that is live in its place
is dropped. -/
def createSelector (system : System) (index capacity : Nat) (backend : Backend) : System :=
  ((system.dropSelector index).setSelector index (.empty capacity)).setSignal (.selector index)
    { backend }

end TimedWaits.System
