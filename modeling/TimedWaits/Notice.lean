import TimedWaits.Tick

/-!
What the system reports in its log: one constructor for each kind of notice, with one function for
its level and one for its wording.
-/

set_option autoImplicit false

namespace TimedWaits

inductive Level where
  | trace
  | debug
  | info
  | warn
  | error
  deriving DecidableEq

def Level.name : Level → String
  | .trace => "trace"
  | .debug => "debug"
  | .info => "info"
  | .warn => "warn"
  | .error => "error"

inductive Notice where
  | halted (reason : String)
  | observerRefused
  | rearmNotKept (delay : Tick)
  | clockKicked (delay : Tick)
  | nearestAlarmChanged (delay : Tick)
  | alarmAlreadyQueued
  | alarmFired (deadline now : Tick)
  | loopStopped
  | slotFilled (slot : Nat)
  | slotUnknown (token : Nat)
  | slotAlreadyReady (token : Nat)
  | selectionTimedOut
  | jobAlreadyQueued
  | jobStarted (label : String)
  | workerStopped
  | ringFull (offered : Nat)
  | ringAlreadyAssociated
  deriving DecidableEq

namespace Notice

def level : Notice → Level
  | .halted _ => .error
  | .observerRefused | .alarmAlreadyQueued | .slotUnknown _ | .jobAlreadyQueued | .ringFull _
  | .ringAlreadyAssociated => .warn
  | .clockKicked _ | .nearestAlarmChanged _ | .loopStopped | .selectionTimedOut
  | .workerStopped => .debug
  | .rearmNotKept _ | .alarmFired _ _ | .slotFilled _ | .slotAlreadyReady _
  | .jobStarted _ => .trace

def text : Notice → String
  | .halted reason => s!"fatal: {reason}"
  | .observerRefused => "post hook refused: slot occupied"
  | .rearmNotKept delay => s!"reschedule record full, dropping {delay}"
  | .clockKicked delay => s!"host clock rescheduled: {delay} ticks"
  | .nearestAlarmChanged delay => s!"event queue head changed: due in {delay}"
  | .alarmAlreadyQueued => "event already queued"
  | .alarmFired deadline now => s!"event fired: deadline {deadline} at {now}"
  | .loopStopped => "event loop stopped"
  | .slotFilled slot => s!"select slot {slot} attached"
  | .slotUnknown token => s!"select hook called with unknown slot {token}"
  | .slotAlreadyReady token => s!"select slot {token} already ready"
  | .selectionTimedOut => "select timed out"
  | .jobAlreadyQueued => "dispatch: work already queued"
  | .jobStarted label => s!"dispatch: {label}"
  | .workerStopped => "dispatch stopped"
  | .ringFull offered => s!"ring buffer full, {offered} elements rejected"
  | .ringAlreadyAssociated => "ring buffer signal already associated"

end Notice

end TimedWaits
