import TimedWaits.Table

/-!
Counting signals. A signal counts the posts that nobody has taken yet and has room for one
observer. While an observer is attached a post is handed to it, under the token it was attached
with, and the count stays as it is; only without an observer does a post raise the count.
-/

set_option autoImplicit false

namespace TimedWaits

/-- What may watch a signal: an observer of the surrounding program, or a selector. -/
inductive Observer where
  | custom (index : Nat)
  | selector (index : Nat)
  deriving DecidableEq

/-- An observer together with the token that it is called with. -/
structure Attachment where
  observer : Observer
  token : Nat
  deriving DecidableEq

/-- How a blocked waiter is held: by the operating system or in a busy loop. The count and the
observer behave alike under both. -/
inductive Backend where
  | host
  | spin
  deriving DecidableEq

/-- A count of posts that were not taken yet, and at most one attachment. -/
structure Signal where
  backend : Backend := .host
  pending : Nat := 0
  attachment : Option Attachment := none
  deriving DecidableEq

namespace Signal

/-- The count at which further raises are lost. -/
def ceiling : Nat := 4294967295

/-- One more post to take, up to the ceiling. -/
def raise (signal : Signal) : Signal :=
  { signal with pending := min (signal.pending + 1) ceiling }

/-- Takes one post; refused if there is none. -/
def take? (signal : Signal) : Option Signal :=
  if signal.pending = 0 then none else some { signal with pending := signal.pending - 1 }

/-- Attaches an observer; refused if one is attached already, be it the same one. -/
def attach? (signal : Signal) (observer : Observer) (token : Nat) : Option Signal :=
  match signal.attachment with
  | some _ => none
  | none => some { signal with attachment := some { observer, token } }

/-- Detaches an observer; refused unless it is the one attached. -/
def detach? (signal : Signal) (observer : Observer) : Option Signal :=
  match signal.attachment with
  | none => none
  | some held =>
    if held.observer = observer then some { signal with attachment := none } else none

end Signal

/-- A signal of the system: one shared by its users, or the private one that wakes a selector or a
worker. -/
inductive SignalRef where
  | shared (index : Nat)
  | selector (index : Nat)
  | worker (index : Nat)
  deriving DecidableEq

structure Signals where
  shared : Table Signal := { fallback := {} }
  selector : Table Signal := { fallback := {} }
  worker : Table Signal := { fallback := {} }

namespace Signals

def get (signals : Signals) : SignalRef → Signal
  | .shared index => signals.shared.get index
  | .selector index => signals.selector.get index
  | .worker index => signals.worker.get index

def set (signals : Signals) (reference : SignalRef) (signal : Signal) : Signals :=
  match reference with
  | .shared index => { signals with shared := signals.shared.set index signal }
  | .selector index => { signals with selector := signals.selector.set index signal }
  | .worker index => { signals with worker := signals.worker.set index signal }

theorem get_set (signals : Signals) (reference other : SignalRef) (signal : Signal) :
    (signals.set reference signal).get other =
      if other = reference then signal else signals.get other := by
  cases reference <;> cases other <;> simp [get, set, Table.get_set]

end Signals

end TimedWaits
