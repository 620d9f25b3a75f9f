import Mathlib.Data.List.Forall2
import TimedWaits.Proofs.Runs.Script
import TimedWaits.Proofs.Shift.Actions

/-! A run does not depend on where its clocks began. All calls compare moments with each other and
never with a fixed one, so moving the clocks, and every moment that an operation names, moves the
moments that come out and changes nothing else. -/

set_option autoImplicit false

namespace TimedWaits

variable {k : Tick}

section Worlds

variable {σ τ : Type} {surroundings : σ → τ → Prop}

/-- A world whose second version has all moments moved and surroundings that are related. -/
structure World.Moved (k : Tick) (surroundings : σ → τ → Prop) (world : World σ)
    (moved : World τ) : Prop where
  system : moved.system = world.system.shift k
  outside : surroundings world.outside moved.outside

/-- Two environments that answer a request in the same way, the second in a world with all moments
moved. -/
def Environment.Alike (k : Tick) (surroundings : σ → τ → Prop) (environment : Environment σ)
    (environmentMoved : Environment τ) : Prop :=
  ∀ request world moved, World.Moved k surroundings world moved →
    (environmentMoved request moved).1 = (environment request world).1 ∧
      World.Moved k surroundings (environment request world).2 (environmentMoved request moved).2

theorem Activity.Answers.run {activity moved : Activity Answer} (answers : Answers k activity moved)
    {environment : Environment σ} {environmentMoved : Environment τ}
    (environments : environment.Alike k surroundings environmentMoved)
    {world : World σ} {worldMoved : World τ} (start : World.Moved k surroundings world worldMoved) :
    (moved.run environmentMoved worldMoved).1 =
        Outcome.shift k (activity.run environment world).1 ∧
      World.Moved k surroundings (activity.run environment world).2
        (moved.run environmentMoved worldMoved).2 := by
  induction answers generalizing world worldMoved with
  | done same => exact ⟨congrArg Except.ok same, start⟩
  | fail failure => exact ⟨rfl, start⟩
  | look onward ih =>
      obtain ⟨system, outside⟩ := world
      obtain ⟨_, outsideMoved⟩ := worldMoved
      obtain rfl : _ = system.shift k := start.system
      exact ih system start
  | act effect onward ih =>
      obtain ⟨system, outside⟩ := world
      obtain ⟨_, outsideMoved⟩ := worldMoved
      obtain rfl : _ = system.shift k := start.system
      exact ih system ⟨effect system, start.outside⟩
  | @ask request next nextMoved onward ih =>
      obtain ⟨same, after⟩ := environments request world worldMoved start
      simp only [Activity.run, same]
      exact ih _ after

end Worlds

theorem Request.begin_shift (request : Request) (system : System) :
    request.begin (system.shift k) = (request.begin system).shift k := by
  cases request with
  | rearm log delay => exact @System.addRearm_shift k (system.record (.rearmed log delay)) log delay
  | sleep clock delay => exact @System.advance_shift k (system.record (.slept clock delay)) clock delay
  | observe | execute | idle => rfl

/-! ### Written runs -/

mutual

def Script.shift (k : Tick) : Script → Script
  | .done => .done
  | .call action inside rest => .call (action.shift k) (inside.shift k) (rest.shift k)

def Interludes.shift (k : Tick) : Interludes → Interludes
  | .none => .none
  | .next script answer rest => .next (script.shift k) answer (rest.shift k)

end

def Ending.shift (k : Tick) (ending : Ending) : Ending :=
  { outcome := Outcome.shift k ending.outcome, system := ending.system.shift k }

/-- Two stretches of a run that do the same, the second in a system with all moments moved. -/
def PlayAlike (k : Tick) (play playMoved : System → List Ending × System) : Prop :=
  ∀ system, playMoved (system.shift k) =
    ((play system).1.map (Ending.shift k), (play system).2.shift k)

structure Cue.Alike (k : Tick) (cue moved : Cue) : Prop where
  play : PlayAlike k cue.play moved.play
  answer : moved.answer = cue.answer

structure Prompter.Alike (k : Tick) (prompter moved : Prompter) : Prop where
  cues : List.Forall₂ (Cue.Alike k) prompter.cues moved.cues
  endings : moved.endings = prompter.endings.map (Ending.shift k)

private theorem Prompter.environment_alike :
    environment.Alike k (Prompter.Alike k) environment := by
  intro request world moved start
  obtain ⟨system, cues, endings⟩ := world
  obtain ⟨_, cuesMoved, _⟩ := moved
  obtain ⟨same, cuesAlike, endingsSame⟩ := start
  subst same endingsSame
  simp only [environment, Request.begin_shift]
  cases cuesAlike with
  | nil => exact ⟨rfl, rfl, .nil, rfl⟩
  | @cons cue cueMoved rest restMoved first others =>
      have played := first.play (request.begin system)
      refine ⟨first.answer, ?_, others, ?_⟩
      · exact congrArg Prod.snd played
      · simp only [played, List.map_append]

mutual

theorem Script.run_alike (bound : Nat) (script : Script) :
    PlayAlike k (script.run bound) ((script.shift k).run bound) := by
  intro system
  cases script with
  | done => rfl
  | call action inside rest =>
      have start : World.Moved k (Prompter.Alike k)
          { system, outside := { cues := inside.cues bound } }
          { system := system.shift k, outside := { cues := (inside.shift k).cues bound } } :=
        ⟨rfl, Interludes.cues_alike bound inside, rfl⟩
      obtain ⟨outcome, after⟩ :=
        (Action.activity_answers bound action).run Prompter.environment_alike start
      simp only [Script.shift, Script.run, outcome, after.system, after.outside.endings,
        rest.run_alike bound _, List.map_append, List.map_cons, Ending.shift]

theorem Interludes.cues_alike (bound : Nat) (interludes : Interludes) :
    List.Forall₂ (Cue.Alike k) (interludes.cues bound) ((interludes.shift k).cues bound) := by
  cases interludes with
  | none => exact .nil
  | next script answer rest =>
      exact .cons ⟨script.run_alike bound, rfl⟩ (rest.cues_alike bound)

end

end TimedWaits
