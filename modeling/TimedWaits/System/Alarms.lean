import TimedWaits.System.Signals

/-!
Atomic changes to alarms and their queues. Firing takes the alarm off its queue and begins the post
of its signal in one change, so that whatever the post lets run finds the alarm gone.
-/

set_option autoImplicit false

namespace TimedWaits

namespace Alarms

def order (alarms : Alarms) (first second : Nat) : Ordering :=
  Tick.order (alarms.alarms.get first).deadline (alarms.alarms.get second).deadline

/-- The alarms of a queue, nearest deadline first. -/
def members (alarms : Alarms) (queue : Nat) : List Nat := alarms.lists.members queue

def isQueued (alarms : Alarms) (alarm : Nat) : Bool :=
  alarms.lists.contains (alarms.alarms.get alarm).queue alarm

def nextDeadline? (alarms : Alarms) (queue : Nat) : Option Tick :=
  (alarms.lists.front? queue).map fun alarm => (alarms.alarms.get alarm).deadline

end Alarms

/-- An alarm that was fired: its deadline, and the observer of its signal that is to be called. -/
structure FiredAlarm where
  deadline : Tick
  attachment : Option Attachment

namespace System

def queueNow (system : System) (queue : Nat) : Tick :=
  system.now (system.alarms.queues.get queue).clock

/-- Makes an alarm, which is in no queue yet, and gives its number. -/
def createAlarm (system : System) (queue : Nat) (signal : SignalRef) (deadline : Tick)
    (owned : Bool) : Nat × System :=
  let alarms := system.alarms
  let number := alarms.alarms.size
  (number, { system with
    alarms := { alarms with
      alarms := alarms.alarms.set number { queue, signal, deadline }
      owned := if owned then alarms.owned ++ [number] else alarms.owned } })

/-- Puts an alarm into a queue in the order of deadlines, behind those with an equal one, and says
at which position; refused if the alarm is in a queue already. -/
def insertAlarm (system : System) (queue alarm : Nat) : Option Nat × System :=
  let alarms := system.alarms
  match alarms.lists.insertSorted? queue alarm alarms.order with
  | none => (none, system.log .alarmAlreadyQueued)
  | some (position, lists) =>
    (some position,
      { system with alarms := { alarms with lists } }.record (.queued alarm position))

/-- Takes the first alarm off a queue if it is due, and begins the post of its signal. -/
def fireFirst (system : System) (queue : Nat) (now : Tick) : Option FiredAlarm × System :=
  let alarms := system.alarms
  let due := fun alarm => Tick.isDue (alarms.alarms.get alarm).deadline now
  match alarms.lists.popFrontIf? queue due with
  | none => (none, system)
  | some (alarm, lists) =>
    let fired := { system with alarms := { alarms with lists } }.record (.fired alarm now)
    let record := alarms.alarms.get alarm
    let (attachment, posted) := fired.beginPost record.signal (some alarm)
    (some { deadline := record.deadline, attachment }, posted)

/-- Takes an alarm off a queue, and says whether it was in it. -/
def withdrawAlarm (system : System) (queue alarm : Nat) : Bool × System :=
  match system.alarms.lists.remove? queue alarm with
  | none => (false, system)
  | some lists =>
    (true, { system with alarms := { system.alarms with lists } }.record (.withdrawn alarm))

def dropAlarm (system : System) (alarm : Nat) : System :=
  let alarms := system.alarms
  let marked := alarms.alarms.modify alarm ({ · with dropped := true })
  match alarms.lists.remove? (alarms.alarms.get alarm).queue alarm with
  | none =>
    { system with alarms := { alarms with alarms := marked } }.record (.dropped alarm false)
  | some lists =>
    { system with alarms := { alarms with alarms := marked, lists } }.record (.dropped alarm true)

end System

end TimedWaits
