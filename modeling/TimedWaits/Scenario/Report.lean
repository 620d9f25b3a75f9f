import TimedWaits.Scenario.Step

/-!
A scenario sets up a system and runs steps in it one after the other. Its report holds for each
step how it ended, what happened visibly meanwhile, and the state that it left.
-/

set_option autoImplicit false

namespace TimedWaits

structure SelectorSetup where
  capacity : Nat
  backend : Backend := .host

/-- The objects that a scenario starts with. -/
structure Setup where
  clocks : List Tick := []
  kickClocks : List Tick := []
  signals : List Backend := []
  observers : List Reaction := []
  rearms : List Reaction := []
  queues : List AlarmQueue := []
  selectors : List SelectorSetup := []
  workers : List Backend := []
  jobs : List (Option String × Reaction) := []
  rings : List (Ring Int) := []
  items : List Item := []
  lists : Nat := 0

/-- A setup, the steps to run in it, and whether the log shows in the traces. -/
structure Scenario where
  setup : Setup := {}
  steps : List Step := []
  showLog : Bool := false

/-- What can be seen of the history. -/
inductive TraceEntry where
  | ended (label : String) (outcome : Outcome)
  | observerCalled (observer token : Nat)
  | executed (job : Nat)
  | rearmed (log : Nat) (delay : Tick)
  | slept (clock : Nat) (delay : Tick)
  | unused (count : Nat)
  | compared (tag member : String)
  | examined (member : String)
  | logged (level : Level) (text : String)

/-- What can be seen of the state. What was dropped has no entry. -/
structure Snapshot where
  clocks : List Tick
  signals : List (Nat × Bool)
  queues : List (Nat × Option Tick)
  alarms : List (Option Bool)
  selectors : List (Option (Nat × Nat))
  workers : List (Option (Nat × Nat × Bool))
  jobs : List Bool
  rings : List Nat
  lists : List (Option (Nat × List String))

structure StepReport where
  outcome : Outcome
  trace : List TraceEntry
  state : Snapshot

namespace Setup

/-- The system that a setup describes. Every signal starts with nothing to take. -/
def system (setup : Setup) : System where
  clocks := .ofList 0 setup.clocks
  kickClocks := .ofList {} (setup.kickClocks.map fun offset => { offset })
  rearmLogs := .ofList {} (setup.rearms.map fun _ => {})
  signals := {
    shared := .ofList {} (setup.signals.map fun backend => { backend })
    selector := .ofList {} (setup.selectors.map fun selector => { backend := selector.backend })
    worker := .ofList {} (setup.workers.map fun backend => { backend }) }
  alarms := { queues := .ofList {} setup.queues }
  selectors := .ofList {} (setup.selectors.map fun selector => .empty selector.capacity)
  workers := {
    workers := .ofList {} (setup.workers.map fun _ => { live := true })
    labels := .ofList none (setup.jobs.map Prod.fst) }
  rings := .ofList .smallest setup.rings
  items := {
    items := .ofList {} setup.items
    live := .ofList false (List.replicate setup.lists true) }

def cast (setup : Setup) : Cast where
  observers := .ofList {} setup.observers
  jobs := .ofList {} (setup.jobs.map Prod.snd)
  rearms := .ofList {} setup.rearms

def stage (setup : Setup) : Stage := { system := setup.system, outside := setup.cast }

end Setup

namespace Stage

def snapshot (stage : Stage) : Snapshot :=
  let system := stage.system
  let workers := system.workers
  let items := system.items
  { clocks := system.clocks.toList
    signals := system.signals.shared.toList.map fun signal =>
      (signal.pending, signal.attachment.isSome)
    queues := (List.range system.alarms.queues.size).map fun queue =>
      (system.alarms.lists.length queue, system.alarms.nextDeadline? queue)
    alarms := system.alarms.owned.map fun alarm =>
      if (system.alarms.alarms.get alarm).dropped then none
      else some (system.alarms.isQueued alarm)
    selectors := (List.range system.selectors.size).map fun index =>
      let selector := system.selectors.get index
      if selector.live then
        some (selector.count, (system.signal (.selector index)).pending)
      else none
    workers := (List.range workers.workers.size).map fun index =>
      let worker := workers.workers.get index
      if worker.live then
        some (workers.lists.length index, (system.signal (.worker index)).pending, worker.killed)
      else none
    jobs := (List.range workers.labels.size).map workers.lists.isLinked
    rings := system.rings.toList.map Ring.length
    lists := (List.range items.live.size).map fun list =>
      if items.live.get list then
        some (items.lists.length list, (items.lists.members list).map items.tag)
      else none }

def visible? (stage : Stage) (showLog : Bool) : Occurrence → Option TraceEntry
  | .ended label outcome => some (.ended label outcome)
  | .observerCalled observer token => some (.observerCalled observer token)
  | .executed job => some (.executed job)
  | .rearmed log delay => some (.rearmed log delay)
  | .slept clock delay => some (.slept clock delay)
  | .unused count => some (.unused count)
  | .compared item member =>
    some (.compared (stage.system.items.tag item) (stage.system.items.tag member))
  | .examined member => some (.examined (stage.system.items.tag member))
  | .logged notice => if showLog then some (.logged notice.level notice.text) else none
  | _ => none

/-- What could be seen since an earlier point of the history, in the order it happened. -/
def traceSince (stage : Stage) (showLog : Bool) (earlier : Nat) : List TraceEntry :=
  let history := stage.system.history
  (history.take (history.length - earlier)).reverse.filterMap (stage.visible? showLog)

/-- Runs steps one after the other and reports on each; a failure ends its step only. -/
def report (bound : Nat) (showLog : Bool) : List Step → Stage → List StepReport
  | [], _ => []
  | step :: rest, stage =>
    let (outcome, ran) := runStep bound step stage
    { outcome
      trace := ran.traceSince showLog stage.system.history.length
      state := ran.snapshot } :: report bound showLog rest ran

end Stage

mutual

/-- How many operations a step holds, nested ones included. -/
def Step.size : Step → Nat
  | .act _ _ meanwhile => Step.sizeAll meanwhile + 1
  | .sequence _ steps meanwhile => Step.sizeAll steps + Step.sizeAll meanwhile + 1

def Step.sizeAll : List Step → Nat
  | [] => 0
  | step :: rest => step.size + Step.sizeAll rest

end

/-- How many operations the calls of some reactions can run. -/
def Reaction.sizeAll : List Reaction → Nat
  | [] => 0
  | reaction :: rest => reaction.limit * Step.sizeAll reaction.steps + Reaction.sizeAll rest

namespace Scenario

/-- How many operations can run in a scenario: those of the steps, and those of every call of a
reaction. -/
def size (scenario : Scenario) : Nat :=
  let setup := scenario.setup
  let reactions := setup.observers ++ setup.rearms ++ setup.jobs.map Prod.snd
  Step.sizeAll scenario.steps + Reaction.sizeAll reactions

/-- A bound that no run of the scenario uses up. Every operation posts at most once or adds at most
one alarm, and every round of a loop uses up a post, an alarm or an operation. -/
def bound (scenario : Scenario) : Nat := 8 * scenario.size + 64

def run (scenario : Scenario) : List StepReport :=
  scenario.setup.stage.report scenario.bound scenario.showLog scenario.steps

end Scenario

end TimedWaits
