import TimedWaits.System.Basic

/-!
Atomic changes to clocks and to the logs of re-arm requests.
-/

set_option autoImplicit false

namespace TimedWaits.System

def setClock (system : System) (clock : Nat) (tick : Tick) : System :=
  { system with clocks := system.clocks.set clock tick }

/-- Moves a clock forward, wrapping at the end of the range. -/
def advance (system : System) (clock : Nat) (delay : Tick) : System :=
  system.setClock clock (Tick.after (system.now clock) delay)

/-- Adds a request to a re-arm log; a delay that does not fit any more is noted. -/
def addRearm (system : System) (log : Nat) (delay : Tick) : System :=
  let kept := system.rearmLogs.get log
  let added := { system with rearmLogs := system.rearmLogs.set log (kept.add delay) }
  if kept.isFull then added.log (.rearmNotKept delay) else added

/-- Empties a re-arm log and sets its count back to zero. -/
def clearRearms (system : System) (log : Nat) : System :=
  { system with rearmLogs := system.rearmLogs.set log {} }

def kick (system : System) (clock : Nat) (delay : Tick) : System :=
  { system with kickClocks := system.kickClocks.modify clock (·.kick) }.log (.clockKicked delay)

/-- Sleeps on a real-time clock, and says whether a kick cut the sleep short. -/
def sleepUntilKick (system : System) (clock : Nat) (delay : Tick) : Bool × System :=
  ((system.kickClocks.get clock).wakesEarly delay,
    { system with kickClocks := system.kickClocks.modify clock (·.rest) })

end TimedWaits.System
