import TimedWaits.Scenario.Action

/-!
Running operations inside one another. While an operation is blocked, other operations run; they
come from a list that the operation brings along, and when that is used up, nothing can wake it any
more and the operation stalls. Observers, jobs and re-arm logs run operations too, each a limited
number of times.

A failure inside an operation that ran during a block ends there. A failure inside an observer, a
job or a re-arm log reaches the call that asked for it.
-/

set_option autoImplicit false

namespace TimedWaits

/-- An operation, or several in a row under one label, with the operations that may run while it is
blocked. The label is what the trace calls it. -/
inductive Step where
  | act (label : String) (action : Action) (meanwhile : List Step)
  | sequence (label : String) (steps : List Step) (meanwhile : List Step)

namespace Step

def label : Step → String
  | .act label _ _ | .sequence label _ _ => label

def meanwhile : Step → List Step
  | .act _ _ meanwhile | .sequence _ _ meanwhile => meanwhile

end Step

/-- What is done when an observer, a job or a re-arm log is called, and how many times more. -/
structure Reaction where
  steps : List Step := []
  limit : Nat := 1

/-- The surroundings of a system: the reactions, and what may still run during a block of the
operation in progress. -/
structure Cast where
  observers : Table Reaction := { fallback := {} }
  jobs : Table Reaction := { fallback := {} }
  rearms : Table Reaction := { fallback := {} }
  meanwhile : List Step := []

abbrev Stage := World Cast

namespace Stage

def withMeanwhile (stage : Stage) (meanwhile : List Step) : Stage :=
  { stage with outside := { stage.outside with meanwhile } }

/-- Runs steps in order up to the first failure. How each one ended goes into the history. -/
def runAll (runStep : Step → Stage → Outcome × Stage) :
    List Step → Stage → Except Failure Unit × Stage
  | [], stage => (.ok (), stage)
  | step :: rest, stage =>
    let (outcome, ran) := runStep step stage
    let noted := ran.record (.ended step.label outcome)
    match outcome with
    | .ok _ => runAll runStep rest noted
    | .error failure => (.error failure, noted)

/-- Uses up one call of a reaction and runs its steps; without calls left nothing is done. -/
def react (runStep : Step → Stage → Outcome × Stage) (reaction : Reaction)
    (spend : Reaction → Cast → Cast) (stage : Stage) : Except Failure Unit × Stage :=
  if reaction.limit = 0 then (.ok (), stage)
  else
    let spent := { stage with
      outside := spend { reaction with limit := reaction.limit - 1 } stage.outside }
    runAll runStep reaction.steps spent

/-- Runs the next operation that may run during a block, whatever becomes of it. -/
def interlude (runStep : Step → Stage → Outcome × Stage) (stage : Stage) :
    Except Failure Unit × Stage :=
  match stage.outside.meanwhile with
  | [] => (.error .stalled, stage)
  | step :: rest =>
    let (outcome, ran) := runStep step (stage.withMeanwhile rest)
    (.ok (), ran.record (.ended step.label outcome))

/-- How the surroundings answer the requests of an activity. -/
def environment (runStep : Step → Stage → Outcome × Stage) : Environment Cast
  | .observe observer token, stage =>
    react runStep (stage.outside.observers.get observer)
      (fun reaction cast => { cast with observers := cast.observers.set observer reaction })
      (stage.record (.observerCalled observer token))
  | .execute job, stage =>
    react runStep (stage.outside.jobs.get job)
      (fun reaction cast => { cast with jobs := cast.jobs.set job reaction })
      (stage.record (.executed job))
  | .rearm log delay, stage =>
    react runStep (stage.outside.rearms.get log)
      (fun reaction cast => { cast with rearms := cast.rearms.set log reaction })
      ((stage.record (.rearmed log delay)).apply (.addRearm log delay)).2
  | .idle signal, stage => interlude runStep (stage.record (.blocked signal))
  | .sleep clock delay, stage =>
    interlude runStep ((stage.record (.slept clock delay)).apply (.advance clock delay)).2

/-- Ends a step: operations that it did not let run are counted in the history, and those of the
step around it may run again. -/
def leave (outer : List Step) (stage : Stage) : Stage :=
  let unused := stage.outside.meanwhile.length
  (if unused = 0 then stage else stage.record (.unused unused)).withMeanwhile outer

/-- Runs a step. The bound limits how deeply steps run inside one another and how many rounds a
loop makes. -/
def runStep : Nat → Step → Stage → Outcome × Stage
  | 0, _, stage => (.error .exhausted, stage)
  | bound + 1, step, stage =>
    let entered := stage.withMeanwhile step.meanwhile
    let (outcome, ended) := match step with
      | .act _ action _ => (action.activity bound).run (environment (runStep bound)) entered
      | .sequence _ steps _ =>
        let (outcome, ran) := runAll (runStep bound) steps entered
        (outcome.map fun () => .nothing, ran)
    (outcome, leave stage.outside.meanwhile ended)

end Stage

end TimedWaits
