import TimedWaits.System.Basic

/-!
Atomic changes to signals. A post is split at the point where other code may run: the change
either raises the count or says which observer is to be called, and the call itself comes after.
-/

set_option autoImplicit false

namespace TimedWaits.System

/-- Raises the count of a signal, past any observer. -/
def raise (system : System) (reference : SignalRef) : System :=
  (system.setSignal reference (system.signal reference).raise).record (.raised reference)

/-- Takes a post if there is one, and says whether there was. -/
def take (system : System) (reference : SignalRef) : Bool × System :=
  match (system.signal reference).take? with
  | none => (false, system)
  | some taken => (true, (system.setSignal reference taken).record (.took reference))

/-- Begins the post of a signal: without an observer its count is raised, and with one the count
stays and the attachment to call is given back. -/
def beginPost (system : System) (reference : SignalRef) (alarm : Option Nat) :
    Option Attachment × System :=
  let posted := system.record (.posted reference alarm)
  match (system.signal reference).attachment with
  | none => (none, posted.raise reference)
  | some attachment => (some attachment, posted)

/-- Attaches an observer to a shared signal, unless it has one. -/
def attach (system : System) (signal : Nat) (observer : Observer) (token : Nat) :
    Except Refusal Unit × System :=
  match (system.signal (.shared signal)).attach? observer token with
  | none => (.error .signalHasObserver, system.log .observerRefused)
  | some attached => (.ok (), system.setSignal (.shared signal) attached)

/-- Detaches an observer from a shared signal, and says whether it was the one attached. -/
def detach (system : System) (signal : Nat) (observer : Observer) : Bool × System :=
  match (system.signal (.shared signal)).detach? observer with
  | none => (false, system)
  | some detached => (true, system.setSignal (.shared signal) detached)

end TimedWaits.System
