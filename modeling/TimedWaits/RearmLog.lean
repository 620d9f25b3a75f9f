import TimedWaits.Tick

/-!
A record of re-arm requests. Whenever the nearest deadline of a queue changes, the queue asks for
its timer to be re-armed; the record keeps the first delays asked for and counts all requests.
-/

set_option autoImplicit false

namespace TimedWaits

/-- The delays of the requests that were kept, oldest first, and the wrapping number of all
requests. -/
structure RearmLog where
  delays : List Tick := []
  requests : UInt32 := 0
  deriving DecidableEq

namespace RearmLog

def depth : Nat := 64

/-- Whether a further delay would only be counted. -/
def isFull (log : RearmLog) : Bool := depth ≤ log.delays.length

/-- Counts a request, and keeps its delay if there is room. -/
def add (log : RearmLog) (delay : Tick) : RearmLog :=
  { delays := if log.isFull then log.delays else log.delays ++ [delay]
    requests := log.requests + 1 }

end RearmLog

end TimedWaits
