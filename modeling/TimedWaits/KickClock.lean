import TimedWaits.Tick

/-!
A real-time clock with an offset, whose sleep is cut short by a kick. Its reading depends on the
machine; what is fixed is its offset and whether a kick is waiting for the next sleep.
-/

set_option autoImplicit false

namespace TimedWaits

/-- The offset added to the machine's milliseconds, and whether a kick is waiting. -/
structure KickClock where
  offset : Tick := 0
  kicked : Bool := false
  deriving DecidableEq

namespace KickClock

/-- Makes the next sleep, or the one in progress, return at once. -/
def kick (clock : KickClock) : KickClock := { clock with kicked := true }

/-- A sleep uses up the kick that is waiting. -/
def rest (clock : KickClock) : KickClock := { clock with kicked := false }

/-- Whether a sleep of the given length returns before its time: a kick is waiting and there is a
time to cut short. -/
def wakesEarly (clock : KickClock) (delay : Tick) : Bool := clock.kicked && delay != 0

/-- The readings that still count as the same instant when two clocks are read one after the
other. -/
def tolerance : Tick := 5000

/-- Whether another clock, read just after this one, is ahead by the given ticks. -/
def isShiftedBy (clock other : KickClock) (ticks : Tick) : Bool :=
  other.offset - clock.offset - ticks < tolerance

end KickClock

end TimedWaits
