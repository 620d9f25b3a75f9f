import TimedWaits.Calls.Signals

/-!
Calls on workers: running the oldest job, and running jobs until the worker is killed. A job is off
the worker's list before it runs, so it may put itself back.
-/

set_option autoImplicit false

namespace TimedWaits.Workers

/-- Runs the oldest job if there is one, and says whether there was. -/
def runOnce (worker : Nat) : Activity Bool := do
  match ← .perform (.nextJob worker) with
  | none => return false
  | some job =>
    .request (.execute job)
    return true

/-- Runs jobs as they come until the worker is killed. Jobs left at that point stay where they
are. -/
def run (bound worker : Nat) : Nat → Activity Unit
  | 0 => .fail .exhausted
  | rounds + 1 => do
    (SignalRef.worker worker).awaitPost bound
    match ← .perform (.takeTurn worker) with
    | .stop => return ()
    | .idle => run bound worker rounds
    | .run job =>
      .request (.execute job)
      run bound worker rounds

end TimedWaits.Workers
