import TimedWaits.Calls.Alarms

/-!
Calls on selectors: watching signals, and waiting for whichever of them is posted first. A wait
looks for a ready slot before it blocks on the selector's own signal, and again after every post of
that signal, which may be left over from a slot that was taken earlier.
-/

set_option autoImplicit false

namespace TimedWaits.Selector

/-- Watches a signal; a refusal halts the call. -/
def watchOrHalt (selector signal : Nat) : Activity Unit := do
  match ← .perform (.watch selector signal) with
  | .ok () => return ()
  | .error refusal => .halt refusal.message

/-- Takes posts of the selector's own signal until one comes with a ready slot. -/
def awaitReady (bound selector : Nat) : Nat → Activity Nat
  | 0 => .fail .exhausted
  | rounds + 1 => do
    (SignalRef.selector selector).awaitPost bound
    match ← .perform (.takeWakeup selector) with
    | some signal => return signal
    | none => awaitReady bound selector rounds

/-- Blocks until a watched signal is posted, and gives that signal. -/
def wait (bound selector : Nat) : Activity Nat := do
  match ← .perform (.takeReady selector) with
  | some signal => return signal
  | none => awaitReady bound selector bound

/-- As `awaitReady`, but gives up once the given alarm has left its queue. -/
def awaitReadyOrAlarm (bound selector alarm : Nat) : Nat → Activity (Option Nat)
  | 0 => .fail .exhausted
  | rounds + 1 => do
    (SignalRef.selector selector).awaitPost bound
    match ← .perform (.takeWakeup selector) with
    | some signal => return some signal
    | none =>
      if ← .read fun system => system.alarms.isQueued alarm then
        awaitReadyOrAlarm bound selector alarm rounds
      else
        .perform (.log .selectionTimedOut)
        return none

/-- Blocks until a watched signal is posted or a timeout passes on a queue's clock. Without a
timeout only a signal that is ready already is given. -/
def waitFor (bound selector queue : Nat) (timeout : Tick) : Activity (Option Nat) := do
  match ← .perform (.takeReady selector) with
  | some signal => return some signal
  | none =>
    if timeout = 0 then
      return none
    else
      let now ← .read (·.queueNow queue)
      let alarm ← .perform (.createAlarm queue (.selector selector)
        (Tick.deadlineAfter now timeout) false)
      let blocked : Activity (Option Nat) := do
        discard <| Alarms.add queue alarm
        awaitReadyOrAlarm bound selector alarm bound
      blocked.ensuring (.dropAlarm alarm)

end TimedWaits.Selector
