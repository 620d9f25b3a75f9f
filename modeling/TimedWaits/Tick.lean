/-!
Wrapping tick counts. A tick is a 32-bit count of milliseconds that rolls over to zero, so two
ticks are compared by the sign of their wrapped difference and never by size.
-/

set_option autoImplicit false

namespace TimedWaits

abbrev Tick := UInt32

namespace Tick

def perSecond : Tick := 1000

/-- The longest delay whose end still counts as lying ahead: half the range less one. -/
def farthest : Tick := 0x7fffffff

/-- The signed distance from the second tick to the first. -/
def distance (tick reference : Tick) : Int := (tick - reference).toInt32.toInt

/-- Two ticks in the order of their signed distance. -/
def order (first second : Tick) : Ordering := compare (distance first second) 0

/-- A deadline is due once it does not lie ahead of the current tick. -/
def isDue (deadline now : Tick) : Bool := distance deadline now ≤ 0

/-- The ticks left until a deadline, zero once it is due. -/
def remaining (deadline now : Tick) : Tick :=
  if isDue deadline now then 0 else deadline - now

def after (now delay : Tick) : Tick := now + delay

/-- The deadline of a relative delay, which is cut to the longest one that still lies ahead. -/
def deadlineAfter (now delay : Tick) : Tick := after now (min delay farthest)

/-- The ticks that have passed since an earlier one. -/
def since (now start : Tick) : Tick := now - start

/-- Milliseconds as ticks, wrapping as the tick count does. -/
def ofMillis (millis : Nat) : Tick := UInt32.ofNat millis

end Tick

end TimedWaits
