import TimedWaits.LinkedLists
import TimedWaits.Signal
import TimedWaits.Ring
import TimedWaits.RearmLog
import TimedWaits.KickClock
import TimedWaits.Selector
import TimedWaits.Notice
import TimedWaits.Outcome

/-!
The state of a system of clocks, signals, alarm queues, selectors, workers, rings and lists, and
the history of what happened in it. Objects of one kind are numbered from zero.
-/

set_option autoImplicit false

namespace TimedWaits

/-- The clock that a queue reads, and the re-arm log that it reports to, if any. -/
structure AlarmQueue where
  clock : Nat := 0
  rearm : Option Nat := none
  deriving DecidableEq

/-- A wake-up that is meant for one queue: post the signal once the deadline is reached. A dropped
alarm is gone for its owner. -/
structure Alarm where
  queue : Nat := 0
  signal : SignalRef := .shared 0
  deadline : Tick := 0
  dropped : Bool := false
  deriving DecidableEq

/-- The queues, the alarms, and for each queue the list of alarms in it. Alarms that have an owner
are numbered again in the order of their creation; an alarm without one serves a single wait. -/
structure Alarms where
  queues : Table AlarmQueue := { fallback := {} }
  alarms : Table Alarm := { fallback := {} }
  lists : LinkedLists := {}
  owned : List Nat := []

/-- A worker runs jobs until it is killed; a dropped one is not live. -/
structure Worker where
  killed : Bool := false
  live : Bool := false
  deriving DecidableEq

/-- The workers, the labels of the jobs, and for each worker the list of its jobs. -/
structure Workers where
  workers : Table Worker := { fallback := {} }
  labels : Table (Option String) := { fallback := none }
  lists : LinkedLists := {}

/-- A member of a plain list: a number to sort by and a tag to tell it by. -/
structure Item where
  key : UInt32 := 0
  tag : String := ""
  deriving DecidableEq

/-- The items, which of the lists are live, and the lists themselves. -/
structure Items where
  items : Table Item := { fallback := {} }
  live : Table Bool := { fallback := false }
  lists : LinkedLists := {}

/-- Something that happened. -/
inductive Occurrence where
  | raised (signal : SignalRef)
  | took (signal : SignalRef)
  /-- A signal was posted, by the firing of an alarm or otherwise. -/
  | posted (signal : SignalRef) (alarm : Option Nat)
  | blocked (signal : SignalRef)
  | slept (clock : Nat) (delay : Tick)
  | rearmed (log : Nat) (delay : Tick)
  | queued (alarm position : Nat)
  | fired (alarm : Nat) (now : Tick)
  | withdrawn (alarm : Nat)
  | dropped (alarm : Nat) (wasQueued : Bool)
  | watching (selector slot signal : Nat)
  | unwatched (selector slot signal : Nat)
  | slotReady (selector slot : Nat)
  | selected (selector signal : Nat)
  | accepted (worker job : Nat)
  /-- A job was taken off the list of a worker to be run. -/
  | started (worker job : Nat)
  | killed (worker : Nat)
  | stored (ring : Nat) (elements : List Int)
  | fetched (ring : Nat) (elements : List Int)
  | discarded (ring : Nat)
  | compared (item member : Nat)
  | examined (member : Nat)
  | observerCalled (observer token : Nat)
  | executed (job : Nat)
  | logged (notice : Notice)
  /-- An operation inside another one ended. -/
  | ended (label : String) (outcome : Outcome)
  /-- An operation ended with operations left that it could have let run. -/
  | unused (count : Nat)
  deriving DecidableEq

/-- The whole state, and the history with the latest occurrence first. -/
structure System where
  clocks : Table Tick := { fallback := 0 }
  kickClocks : Table KickClock := { fallback := {} }
  rearmLogs : Table RearmLog := { fallback := {} }
  signals : Signals := {}
  alarms : Alarms := {}
  selectors : Table Selector := { fallback := {} }
  workers : Workers := {}
  rings : Table (Ring Int) := { fallback := { size := 2 } }
  items : Items := {}
  stopRequested : Bool := false
  history : List Occurrence := []

namespace System

/-- Adds an occurrence to the history. -/
def record (system : System) (occurrence : Occurrence) : System :=
  { system with history := occurrence :: system.history }

def log (system : System) (notice : Notice) : System := system.record (.logged notice)

def recordAll (system : System) (occurrences : List Occurrence) : System :=
  occurrences.foldl record system

def now (system : System) (clock : Nat) : Tick := system.clocks.get clock

def signal (system : System) (reference : SignalRef) : Signal := system.signals.get reference

def setSignal (system : System) (reference : SignalRef) (signal : Signal) : System :=
  { system with signals := system.signals.set reference signal }

end System

end TimedWaits
