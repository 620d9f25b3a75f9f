import TimedWaits.Proofs.Shift.Runs

/-! Steps of a scenario in a stage with all moments moved, and the independence of every run from the
moments at which its clocks began. -/

set_option autoImplicit false

namespace TimedWaits

variable {k : Tick}

mutual

def Step.shift (k : Tick) : Step → Step
  | .act label action meanwhile => .act label (action.shift k) (Step.shiftAll k meanwhile)
  | .sequence label steps meanwhile =>
    .sequence label (Step.shiftAll k steps) (Step.shiftAll k meanwhile)

def Step.shiftAll (k : Tick) : List Step → List Step
  | [] => []
  | step :: rest => step.shift k :: Step.shiftAll k rest

end

def Reaction.shift (k : Tick) (reaction : Reaction) : Reaction :=
  { reaction with steps := Step.shiftAll k reaction.steps }

def Cast.shift (k : Tick) (cast : Cast) : Cast where
  observers := cast.observers.map (Reaction.shift k)
  jobs := cast.jobs.map (Reaction.shift k)
  rearms := cast.rearms.map (Reaction.shift k)
  meanwhile := Step.shiftAll k cast.meanwhile

def Stage.shift (k : Tick) (stage : Stage) : Stage :=
  { system := stage.system.shift k, outside := stage.outside.shift k }

private theorem Step.label_shift (step : Step) : (step.shift k).label = step.label := by
  cases step <;> rfl

private theorem Step.length_shiftAll (steps : List Step) :
    (Step.shiftAll k steps).length = steps.length := by
  induction steps with
  | nil => rfl
  | cons step rest ih => rw [Step.shiftAll, List.length_cons, List.length_cons, ih]

namespace Stage

/-- A way to run steps that does the same in a stage with all moments moved. -/
def RunsAlike (k : Tick) (runStep : Step → Stage → Outcome × Stage) : Prop :=
  ∀ step stage, runStep (step.shift k) (Stage.shift k stage) =
    (Outcome.shift k (runStep step stage).1, Stage.shift k (runStep step stage).2)

variable {runStep : Step → Stage → Outcome × Stage}

theorem ended_shift (stage : Stage) (step : Step) (outcome : Outcome) :
    (Stage.shift k stage).record (.ended (step.shift k).label (Outcome.shift k outcome)) =
      Stage.shift k (stage.record (.ended step.label outcome)) := by
  rw [Step.label_shift]
  rfl

theorem runAll_shift (alike : RunsAlike k runStep) (steps : List Step) (stage : Stage) :
    runAll runStep (Step.shiftAll k steps) (Stage.shift k stage) =
      ((runAll runStep steps stage).1, Stage.shift k (runAll runStep steps stage).2) := by
  induction steps generalizing stage with
  | nil => rfl
  | cons step rest ih =>
      simp only [Step.shiftAll, runAll, alike step stage, ended_shift]
      cases (runStep step stage).1 with
      | ok answer => exact ih _
      | error failure => rfl

private theorem interlude_shift (alike : RunsAlike k runStep) (stage : Stage) :
    interlude runStep (Stage.shift k stage) =
      ((interlude runStep stage).1, Stage.shift k (interlude runStep stage).2) := by
  have moved : (Stage.shift k stage).outside.meanwhile = Step.shiftAll k stage.outside.meanwhile :=
    rfl
  simp only [interlude, moved]
  cases stage.outside.meanwhile with
  | nil => rfl
  | cons step rest =>
      have ran := alike step (stage.withMeanwhile rest)
      change runStep (step.shift k)
        ((Stage.shift k stage).withMeanwhile (Step.shiftAll k rest)) = _ at ran
      simp only [Step.shiftAll, ran, ended_shift]

private theorem react_shift (alike : RunsAlike k runStep) (reaction : Reaction)
    {spend : Reaction → Cast → Cast}
    (spends : ∀ reaction cast, spend (reaction.shift k) (cast.shift k) = (spend reaction cast).shift k)
    (stage : Stage) :
    react runStep (reaction.shift k) spend (Stage.shift k stage) =
      ((react runStep reaction spend stage).1,
        Stage.shift k (react runStep reaction spend stage).2) := by
  have limit : (reaction.shift k).limit = reaction.limit := rfl
  simp only [react, limit]
  split
  · rfl
  · have spent := spends { reaction with limit := reaction.limit - 1 } stage.outside
    have ran := runAll_shift alike reaction.steps
      { stage with outside := spend { reaction with limit := reaction.limit - 1 } stage.outside }
    rw [Stage.shift, ← spent] at ran
    exact ran

theorem begin_shift (request : Request) (stage : Stage) :
    { Stage.shift k stage with system := request.begin (stage.system.shift k) } =
      Stage.shift k { stage with system := request.begin stage.system } := by
  rw [Request.begin_shift]
  rfl

private theorem call_shift (alike : RunsAlike k runStep) (request : Request) (index : Nat)
    (table : Cast → Table Reaction) (replace : Cast → Table Reaction → Cast)
    (reads : ∀ cast, table (cast.shift k) = (table cast).map (Reaction.shift k))
    (writes : ∀ cast reactions,
      replace (cast.shift k) (reactions.map (Reaction.shift k)) = (replace cast reactions).shift k)
    (stage : Stage) :
    react runStep ((table (stage.outside.shift k)).get index)
        (fun reaction cast => replace cast ((table cast).set index reaction))
        { Stage.shift k stage with system := request.begin (stage.system.shift k) } =
      let (answer, ended) := react runStep ((table stage.outside).get index)
        (fun reaction cast => replace cast ((table cast).set index reaction))
        { stage with system := request.begin stage.system }
      (answer, Stage.shift k ended) := by
  rw [reads, Table.get_map, begin_shift]
  refine react_shift alike _ (fun reaction cast => ?_) _
  rw [reads, ← Table.map_set, writes]

private theorem environment_shift (alike : RunsAlike k runStep) (request : Request) (stage : Stage) :
    environment runStep request (Stage.shift k stage) =
      ((environment runStep request stage).1,
        Stage.shift k (environment runStep request stage).2) := by
  cases request with
  | observe observer token =>
      exact call_shift alike (.observe observer token) observer Cast.observers
        (fun cast observers => { cast with observers }) (fun _ => rfl) (fun _ _ => rfl) stage
  | execute job =>
      exact call_shift alike (.execute job) job Cast.jobs
        (fun cast jobs => { cast with jobs }) (fun _ => rfl) (fun _ _ => rfl) stage
  | rearm log delay =>
      exact call_shift alike (.rearm log delay) log Cast.rearms
        (fun cast rearms => { cast with rearms }) (fun _ => rfl) (fun _ _ => rfl) stage
  | idle signal => exact interlude_shift alike (stage.record (.blocked signal))
  | sleep clock delay =>
      have slept := interlude_shift alike
        { stage with system := (Request.sleep clock delay).begin stage.system }
      rw [← begin_shift] at slept
      exact slept

private theorem leave_shift (outer : List Step) (stage : Stage) :
    leave (Step.shiftAll k outer) (Stage.shift k stage) = Stage.shift k (leave outer stage) := by
  have unused : (Stage.shift k stage).outside.meanwhile.length = stage.outside.meanwhile.length :=
    Step.length_shiftAll _
  simp only [leave, unused]
  split <;> rfl

theorem eq_shift_of_moved {stage moved : Stage}
    (same : World.Moved k (fun cast moved => moved = cast.shift k) stage moved) :
    moved = Stage.shift k stage := by
  obtain ⟨_, _⟩ := moved
  obtain ⟨rfl, rfl⟩ := same
  rfl

private theorem activity_shift (alike : RunsAlike k runStep) (bound : Nat) (action : Action)
    (stage : Stage) :
    ((action.shift k).activity bound).run (environment runStep) (Stage.shift k stage) =
      let (outcome, ended) := (action.activity bound).run (environment runStep) stage
      (Outcome.shift k outcome, Stage.shift k ended) := by
  have environments : (environment runStep).Alike k (fun cast moved => moved = cast.shift k)
      (environment runStep) := by
    intro request stage moved same
    obtain rfl := eq_shift_of_moved same
    rw [environment_shift alike]
    exact ⟨rfl, rfl, rfl⟩
  have start : World.Moved k (fun cast moved => moved = cast.shift k) stage
      (Stage.shift k stage) := ⟨rfl, rfl⟩
  obtain ⟨outcome, after⟩ := (Action.activity_answers bound action).run environments start
  exact Prod.ext outcome (eq_shift_of_moved after)

private theorem runStep_shift (bound : Nat) : RunsAlike k (Stage.runStep bound) := by
  induction bound with
  | zero => exact fun _ _ => rfl
  | succ bound ih =>
      intro step stage
      cases step with
      | act label action meanwhile =>
          have ran := activity_shift ih bound action (stage.withMeanwhile meanwhile)
          have entered : (Stage.shift k stage).withMeanwhile (Step.shiftAll k meanwhile) =
            Stage.shift k (stage.withMeanwhile meanwhile) := rfl
          simp only [Step.shift, Stage.runStep, Step.meanwhile, entered, ran]
          exact congrArg _ (leave_shift stage.outside.meanwhile _)
      | sequence label steps meanwhile =>
          have ran := runAll_shift ih steps (stage.withMeanwhile meanwhile)
          have entered : (Stage.shift k stage).withMeanwhile (Step.shiftAll k meanwhile) =
            Stage.shift k (stage.withMeanwhile meanwhile) := rfl
          simp only [Step.shift, Stage.runStep, Step.meanwhile, entered, ran]
          refine Prod.ext ?_ (leave_shift stage.outside.meanwhile _)
          cases (runAll (Stage.runStep bound) steps (stage.withMeanwhile meanwhile)).1 <;> rfl

end Stage

/-- No run depends on the moments at which its clocks began. Move the clocks of a system, the deadlines
of its alarms, and every moment that an operation names by the same number of ticks, around the end
of the counter as it may be. Then every operation of a written run, whatever goes on inside it, ends
in the same way and leaves the same system, history included, with its moments moved; and so does
every step of a scenario. -/
theorem runs_shift (k : Tick) (bound : Nat) :
    (∀ (script : Script) (system : System),
      (script.shift k).run bound (system.shift k) =
        ((script.run bound system).1.map (Ending.shift k), (script.run bound system).2.shift k)) ∧
    ∀ (step : Step) (stage : Stage),
      Stage.runStep bound (step.shift k) (Stage.shift k stage) =
        (Outcome.shift k (Stage.runStep bound step stage).1,
          Stage.shift k (Stage.runStep bound step stage).2) :=
  ⟨fun script => script.run_alike bound, Stage.runStep_shift bound⟩

end TimedWaits
