import TimedWaits.Tick

/-!
The pace of an alarm loop: how long it sleeps between two checks of its queue.
-/

set_option autoImplicit false

namespace TimedWaits

/-- How long a loop sleeps when nothing is pending, and how long it sleeps at most: a second and ten of
them, unless told otherwise. -/
structure LoopPace where
  idle : Tick := Tick.perSecond
  longest : Tick := 10 * Tick.perSecond
  deriving DecidableEq

namespace LoopPace

/-- The sleep that follows a check: the idle sleep if the check found nothing pending, else the
delay it found, raised to at least one tick and cut to the longest sleep. -/
def sleep (pace : LoopPace) (delay : Tick) : Tick :=
  let wanted := if delay = 0 then pace.idle else delay
  min (max wanted 1) (max pace.longest 1)

end LoopPace

end TimedWaits
