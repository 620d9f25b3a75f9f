import TimedWaits.Calls.Signals
import TimedWaits.LoopPace

/-!
Calls on alarm queues: adding alarms, firing the due ones, timed waits, and the loop that drives a
queue. A timed wait puts an alarm of its own on the queue and drops it however it ends, so that
whether the alarm was still there tells a post from a timeout.
-/

set_option autoImplicit false

namespace TimedWaits.Alarms

/-- Makes an alarm for its owner, and gives its place among the owned ones. -/
def create (queue : Nat) (signal : SignalRef) (deadline : Tick) : Activity Nat := do
  let place ← .read fun system => system.alarms.owned.length
  discard <| .perform (.createAlarm queue signal deadline true)
  return place

/-- Makes an alarm for its owner that is due after a delay. -/
def createAfter (queue : Nat) (signal : SignalRef) (delay : Tick) : Activity Nat := do
  let now ← .read (·.queueNow queue)
  create queue signal (Tick.deadlineAfter now delay)

/-- Adds an alarm to a queue, and says whether it became the first. If it did, the queue's timer is
re-armed to the ticks left until the new deadline. An alarm that is meant for another queue halts
the call; one that is queued already changes nothing. -/
def add (queue alarm : Nat) : Activity Bool := do
  let record ← .read fun system => system.alarms.alarms.get alarm
  if record.queue ≠ queue then
    .halt "event added to a foreign queue"
  else
    match ← .perform (.insertAlarm queue alarm) with
    | some 0 =>
      let delay ← .read fun system => Tick.remaining record.deadline (system.queueNow queue)
      .perform (.log (.nearestAlarmChanged delay))
      match ← .read fun system => (system.alarms.queues.get queue).rearm with
      | none => return true
      | some target =>
        .request (.rearm target delay)
        return true
    | some _ | none => return false

/-- Fires alarms from the front of a queue as long as the first one is due at the given tick. -/
def drain (queue : Nat) (now : Tick) : Nat → Activity Unit
  | 0 => .fail .exhausted
  | bound + 1 => do
    match ← .perform (.fireFirst queue now) with
    | none => return ()
    | some fired =>
      Attachment.callAny fired.attachment
      .perform (.log (.alarmFired fired.deadline now))
      drain queue now bound

/-- Fires every alarm that is due, by one reading of the clock. Gives the ticks from that reading to
the nearest deadline that is left, at least one, or zero if no alarm is left. -/
def check (bound queue : Nat) : Activity Tick := do
  let now ← .read (·.queueNow queue)
  drain queue now bound
  match ← .read fun system => system.alarms.nextDeadline? queue with
  | none => return 0
  | some deadline => return max (Tick.remaining deadline now) 1

/-- Blocks on a signal until it is posted or the deadline is reached, and says whether it was
posted first. A deadline that is due at once leaves the signal alone. -/
def waitUntil (bound queue : Nat) (signal : SignalRef) (deadline : Tick) : Activity Bool := do
  if Tick.isDue deadline (← .read (·.queueNow queue)) then
    return false
  else
    let alarm ← .perform (.createAlarm queue signal deadline false)
    let blocked : Activity Bool := do
      discard <| add queue alarm
      signal.wait bound
      .perform (.withdrawAlarm queue alarm)
    blocked.ensuring (.dropAlarm alarm)

/-- Blocks on a signal for at most a delay, and says whether it was posted in time. With no delay
the signal is left alone. -/
def waitFor (bound queue : Nat) (signal : SignalRef) (delay : Tick) : Activity Bool := do
  if delay = 0 then
    return false
  else
    let now ← .read (·.queueNow queue)
    waitUntil bound queue signal (Tick.deadlineAfter now delay)

/-- One round of a loop: a check, and a sleep of the length that the pace makes of it. -/
def round (bound queue : Nat) (pace : LoopPace) : Activity Unit := do
  let delay ← check bound queue
  let clock ← .read fun system => (system.alarms.queues.get queue).clock
  .request (.sleep clock (pace.sleep delay))

/-- Drives a queue until a stop is requested, which is looked at before each round. -/
def runUntilStopped (bound queue : Nat) (pace : LoopPace) : Nat → Activity Unit
  | 0 => .fail .exhausted
  | rounds + 1 => do
    if ← .read (·.stopRequested) then
      .perform (.log .loopStopped)
    else
      round bound queue pace
      runUntilStopped bound queue pace rounds

/-- Drives a queue for ever at the standard pace. -/
def runForever (bound queue : Nat) : Nat → Activity Unit
  | 0 => .fail .exhausted
  | rounds + 1 => do
    round bound queue {}
    runForever bound queue rounds

end TimedWaits.Alarms
