import TimedWaits.Command

/-!
What a call does, as a tree: it looks at the system, applies atomic commands, and at some points
asks the surroundings to do something, which may run any other call before the answer comes. The
tree commits to nothing about the surroundings; `Activity.run` runs it in a given environment.

A request that fails comes back to the activity, which gives up in turn unless it says otherwise.
So an activity sees every way in which it can be cut short, and `Activity.ensuring` can promise a
clean-up on each of them.
-/

set_option autoImplicit false

namespace TimedWaits

/-- What an activity asks of its surroundings: to react to an observed post, to execute a job, to
re-arm a timer, to let others act while a signal has nothing to take, or to sleep on a clock. -/
inductive Request where
  | observe (observer token : Nat)
  | execute (job : Nat)
  | rearm (log : Nat) (delay : Tick)
  | idle (signal : SignalRef)
  | sleep (clock : Nat) (delay : Tick)
  deriving DecidableEq

/-- What a call does, up to its answer or its failure. -/
inductive Activity (α : Type) where
  | done (value : α)
  | fail (failure : Failure)
  | look (next : System → Activity α)
  | act (command : Command) (next : command.Reply → Activity α)
  | ask (request : Request) (next : Except Failure Unit → Activity α)

namespace Activity

variable {α β : Type}

/-- Goes on with another activity after this one is done. -/
protected def bind (activity : Activity α) (continuation : α → Activity β) : Activity β :=
  match activity with
  | .done value => continuation value
  | .fail failure => .fail failure
  | .look next => .look fun system => (next system).bind continuation
  | .act command next => .act command fun reply => (next reply).bind continuation
  | .ask request next => .ask request fun outcome => (next outcome).bind continuation

instance : Monad Activity where
  pure := .done
  bind := Activity.bind

def perform (command : Command) : Activity command.Reply := .act command .done

def read (view : System → α) : Activity α := .look fun system => .done (view system)

/-- Asks the surroundings for something, and gives up if they do. -/
def request (wish : Request) : Activity Unit :=
  .ask wish fun
    | .ok () => .done ()
    | .error failure => .fail failure

/-- Breaks off because a precondition does not hold. -/
def halt (reason : String) : Activity α :=
  .act (.log (.halted reason)) fun _ => .fail (.fatal reason)

/-- The activity followed by a command on every way it can end. -/
def ensuring (activity : Activity α) (command : Command) : Activity α :=
  match activity with
  | .done value => .act command fun _ => .done value
  | .fail failure => .act command fun _ => .fail failure
  | .look next => .look fun system => (next system).ensuring command
  | .act first next => .act first fun reply => (next reply).ensuring command
  | .ask wish next => .ask wish fun outcome => (next outcome).ensuring command

end Activity

/-- A system together with the state of its surroundings. -/
structure World (σ : Type) where
  system : System
  outside : σ

/-- How the surroundings answer a request. -/
abbrev Environment (σ : Type) := Request → World σ → Except Failure Unit × World σ

def World.apply {σ : Type} (world : World σ) (command : Command) : command.Reply × World σ :=
  let (reply, system) := command.apply world.system
  (reply, { world with system })

def World.record {σ : Type} (world : World σ) (occurrence : Occurrence) : World σ :=
  { world with system := world.system.record occurrence }

/-- Runs an activity in an environment. What was done before a failure stays done. -/
def Activity.run {σ α : Type} (environment : Environment σ) :
    Activity α → World σ → Except Failure α × World σ
  | .done value, world => (.ok value, world)
  | .fail failure, world => (.error failure, world)
  | .look next, world => (next world.system).run environment world
  | .act command next, world =>
    let (reply, changed) := world.apply command
    (next reply).run environment changed
  | .ask request next, world =>
    let (outcome, changed) := environment request world
    (next outcome).run environment changed

end TimedWaits
