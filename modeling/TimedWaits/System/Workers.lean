import TimedWaits.System.Signals

/-!
Atomic changes to workers. Accepting a job and raising the worker's signal are one change, and so
are taking a post of that signal, looking whether the worker was killed, and taking the next job.
-/

set_option autoImplicit false

namespace TimedWaits

/-- What a worker does after it took a post: stop, go round again, or run a job. -/
inductive Turn where
  | stop
  | idle
  | run (job : Nat)
  deriving DecidableEq

namespace System

/-- Puts a job at the back of a worker's list and raises the worker's signal, and says whether it
did: a job that is in any list is refused. -/
def putJob (system : System) (worker job : Nat) : Bool × System :=
  match system.workers.lists.pushBack? worker job with
  | none => (false, system.log .jobAlreadyQueued)
  | some lists =>
    (true, ({ system with workers := { system.workers with lists } }.record
      (.accepted worker job)).raise (.worker worker))

/-- Takes the oldest job of a worker off its list to be run. A job with a label is noted. -/
def nextJob (system : System) (worker : Nat) : Option Nat × System :=
  match system.workers.lists.popFront? worker with
  | none => (none, system)
  | some (job, lists) =>
    let started := { system with workers := { system.workers with lists } }.record
      (.started worker job)
    (some job, match system.workers.labels.get job with
      | none => started
      | some label => started.log (.jobStarted label))

/-- Takes a post of the worker's signal, and then the oldest job unless the worker was killed. -/
def takeTurn (system : System) (worker : Nat) : Turn × System :=
  let (_, taken) := system.take (.worker worker)
  if (taken.workers.workers.get worker).killed then (.stop, taken.log .workerStopped)
  else
    match taken.nextJob worker with
    | (none, idle) => (.idle, idle)
    | (some job, started) => (.run job, started)

/-- Asks a worker to stop, and raises its signal. -/
def kill (system : System) (worker : Nat) : System :=
  ({ system with
    workers := { system.workers with
      workers := system.workers.workers.modify worker ({ · with killed := true }) } }.record
    (.killed worker)).raise (.worker worker)

/-- Drops a worker, which lets its jobs go. -/
def dropWorker (system : System) (worker : Nat) : System :=
  { system with
    workers := { system.workers with
      workers := system.workers.workers.set worker {}
      lists := system.workers.lists.release worker } }.setSignal (.worker worker) {}

/-- Makes a worker without jobs, with a signal of its own. One that is live in its place is
dropped. -/
def createWorker (system : System) (worker : Nat) (backend : Backend) : System :=
  let dropped := system.dropWorker worker
  { dropped with
    workers := { dropped.workers with
      workers := dropped.workers.workers.set worker { live := true } } }.setSignal
    (.worker worker) { backend }

end System

end TimedWaits
