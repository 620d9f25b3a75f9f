import TimedWaits.Scenario.Step

/-! Runs of a system written down. A script holds the operations that are called one after the other
and, for each of them, what goes on while it asks the surroundings for something: any operations at
all, and an answer. Observers, jobs, re-arm logs and whoever acts during a block are all free in what
they do, and may do something else each time. -/

set_option autoImplicit false

namespace TimedWaits

mutual

/-- The operations of a run in their order, each with what goes on inside it. -/
inductive Script where
  | done
  | call (action : Action) (inside : Interludes) (rest : Script)

/-- What the surroundings do for the requests of an operation, one request after the other: the
operations that they call, and their answer. -/
inductive Interludes where
  | none
  | next (script : Script) (answer : Except Failure Unit) (rest : Interludes)

end

structure Ending where
  outcome : Outcome
  system : System

namespace Request

/-- What a request brings about before the surroundings do anything: it goes into the history, a
re-arm log keeps the delay, and a clock sleeps. -/
def begin : Request → System → System
  | .observe observer token, system => system.record (.observerCalled observer token)
  | .execute job, system => system.record (.executed job)
  | .rearm log delay, system => (system.record (.rearmed log delay)).addRearm log delay
  | .idle signal, system => system.record (.blocked signal)
  | .sleep clock delay, system => (system.record (.slept clock delay)).advance clock delay

/-- The answer to a request to which nothing is done: nobody is left to end a block. -/
def unanswered : Request → Except Failure Unit
  | .idle _ | .sleep _ _ => .error .stalled
  | .observe _ _ | .execute _ | .rearm _ _ => .ok ()

end Request

structure Cue where
  play : System → List Ending × System
  answer : Except Failure Unit

/-- What the surroundings will do for the requests to come, and how the operations ended that they
called so far. -/
structure Prompter where
  cues : List Cue
  endings : List Ending := []

def Prompter.environment : Environment Prompter := fun request world =>
  let system := request.begin world.system
  match world.outside.cues with
  | [] => (request.unanswered, { world with system })
  | cue :: cues =>
    let (endings, changed) := cue.play system
    (cue.answer, { system := changed, outside := { cues, endings := world.outside.endings ++ endings } })

mutual

/-- Runs a script: how each operation ended, those inside another one before it, and the system at
the end. -/
def Script.run (bound : Nat) : Script → System → List Ending × System
  | .done, system => ([], system)
  | .call action inside rest, system =>
    let (outcome, ended) :=
      (action.activity bound).run Prompter.environment { system, outside := { cues := inside.cues bound } }
    let (later, final) := rest.run bound ended.system
    (ended.outside.endings ++ { outcome, system := ended.system } :: later, final)

def Interludes.cues (bound : Nat) : Interludes → List Cue
  | .none => []
  | .next script answer rest => { play := script.run bound, answer } :: rest.cues bound

end

end TimedWaits
