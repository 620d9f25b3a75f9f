import TimedWaits.Proofs.Runs.Operations
import TimedWaits.Proofs.Workers.Jobs

/-! When jobs are executed. A job that a worker takes off its list is executed next, before anything else
can happen, and no job is executed otherwise. -/

set_option autoImplicit false

namespace TimedWaits

/-- A job was taken off a list to be run, or executed. -/
def Occurrence.isJobRun : Occurrence → Bool
  | .started _ _ | .executed _ => true
  | _ => false

namespace Workers

/-- Jobs that workers took and that were executed at once, the latest first. -/
def executions (starts : List (Nat × Nat)) : List Occurrence :=
  starts.flatMap fun start => [.executed start.2, .started start.1 start.2]

private theorem executions_append (later earlier : List (Nat × Nat)) :
    executions (later ++ earlier) = executions later ++ executions earlier := List.flatMap_append

/-- Every job that was taken has been executed, but for one that is due. -/
inductive Paired : Due → List Occurrence → Prop where
  | nothing (starts : List (Nat × Nat)) : Paired .nothing (executions starts)
  | call (attachment : Attachment) (starts : List (Nat × Nat)) :
      Paired (.call attachment) (executions starts)
  | job (worker job : Nat) (starts : List (Nat × Nat)) :
      Paired (.job job) (.started worker job :: executions starts)

private theorem Paired.ofCall (owed : Option Attachment) (starts : List (Nat × Nat)) :
    Paired (.ofCall owed) (executions starts) := by
  cases owed with
  | none => exact .nothing starts
  | some attachment => exact .call attachment starts

/-- A command makes a job due if and only if it notes that the job was taken. -/
private theorem Moves.paired {before after : Nat → List Nat} {command : Command} {reply : command.Reply}
    {notes : List Occurrence} (moves : Moves before after command reply notes)
    (starts : List (Nat × Nat)) :
    Paired (command.due reply) (notes.filter Occurrence.isJobRun ++ executions starts) := by
  cases moves with
  | @stays command reply _ idle =>
      cases command with
      | nextJob =>
          cases reply with
          | none => exact .nothing starts
          | some job => cases idle
      | takeTurn =>
          cases reply with
          | run job => cases idle
          | _ => exact .nothing starts
      | _ => exact .ofCall (Command.call? _ reply) starts
  | accepts | drops | creates => exact .nothing starts
  | @next worker job => exact .job worker job starts
  | @turn worker job => exact .job worker job starts

end Workers

namespace System

/-- Since an earlier moment every job that was taken has been executed at once, but for one that is due. -/
structure Executes (first : System) (due : Due) (last : System) : Prop where
  lined : last.Lined
  continues : last.Continues first
  paired : Workers.Paired due ((last.since first).filter Occurrence.isJobRun)

variable {first middle last next : System} {due later : Due}

private theorem Executes.refl (lined : first.Lined) : first.Executes .nothing first := by
  have since : first.since first = [] := since_eq rfl
  refine ⟨lined, .refl first, ?_⟩
  rw [since]
  exact .nothing []

theorem Executes.go (before : first.Executes due last) (lined : next.Lined)
    (onward : next.Continues last)
    (paired : Workers.Paired later ((next.since last).filter Occurrence.isJobRun ++
      (last.since first).filter Occurrence.isJobRun)) : first.Executes later next := by
  refine ⟨lined, before.continues.trans onward, ?_⟩
  rwa [before.continues.since_trans onward, List.filter_append]

theorem Executes.trans (before : first.Executes .nothing middle)
    (after : middle.Executes .nothing last) : first.Executes .nothing last := by
  refine before.go after.lined after.continues ?_
  obtain ⟨-, -, earlier⟩ := before
  obtain ⟨-, -, recent⟩ := after
  generalize (middle.since first).filter Occurrence.isJobRun = former at earlier ⊢
  generalize (last.since middle).filter Occurrence.isJobRun = present at recent ⊢
  cases earlier with
  | nothing starts =>
      cases recent with
      | nothing others =>
          rw [← Workers.executions_append]
          exact .nothing _

private theorem Executes.apply (before : first.Executes .nothing last) (command : Command) :
    first.Executes (command.due (command.apply last).1) (command.apply last).2 := by
  obtain ⟨moves, lined⟩ := command.moves before.lined
  refine before.go lined ((Continues.refl last).apply command) ?_
  obtain ⟨-, -, earlier⟩ := before
  have runs : ((command.apply last).2.since last).filter Occurrence.isJobRun =
      (((command.apply last).2.since last).filter Occurrence.isJobMove).filter
        Occurrence.isJobRun := by
    rw [List.filter_filter]
    refine List.filter_congr fun occurrence _ => ?_
    cases occurrence <;> rfl
  rw [runs]
  generalize (last.since first).filter Occurrence.isJobRun = former at earlier ⊢
  cases earlier with
  | nothing starts => exact moves.paired starts

private theorem Executes.settle (before : first.Executes due last) (idle : ∀ job, due ≠ .job job) :
    first.Executes .nothing last := by
  obtain ⟨lined, continues, paired⟩ := before
  refine ⟨lined, continues, ?_⟩
  generalize (last.since first).filter Occurrence.isJobRun = runs at paired ⊢
  cases paired with
  | nothing starts | call _ starts => exact .nothing starts
  | job worker job => exact absurd rfl (idle job)

theorem Lined.begin (lined : last.Lined) (request : Request) : (request.begin last).Lined := by
  cases request with
  | rearm log delay =>
      have workers := Command.workers_apply (show (Command.addRearm log delay).worker? = none from rfl)
        (last.record (.rearmed log delay))
      change ((Command.addRearm log delay).apply (last.record (.rearmed log delay))).2.Lined
      rw [Lined, jobs, workers]
      exact lined
  | _ => exact lined

private theorem Executes.ask (before : first.Executes .nothing last) {request : Request}
    (plain : request.IsPlain) : first.Executes .nothing (request.begin last) := by
  have silent : ((request.begin last).since last).filter Occurrence.isJobRun = [] := by
    rw [← List.length_eq_zero_iff, ← List.countP_eq_length_filter]
    refine request.countP_since ?_ (fun _ => rfl) last
    cases request <;> first | rfl | exact plain.elim
  refine before.go (before.lined.begin request) ((Continues.refl last).begin request) ?_
  rw [silent]
  exact before.paired

/-- The execution of a job that is due. -/
private theorem Executes.execute {job : Nat} (before : first.Executes (.job job) last) :
    first.Executes .nothing ((Request.execute job).begin last) := by
  have since : ((Request.execute job).begin last).since last = [.executed job] :=
    last.since_record _
  refine before.go (before.lined.begin _) ((Continues.refl last).begin _) ?_
  rw [since]
  obtain ⟨-, -, paired⟩ := before
  generalize (last.since first).filter Occurrence.isJobRun = runs at paired ⊢
  cases paired with
  | job worker job starts => exact .nothing ((worker, job) :: starts)

end System

/-- Whoever will be called executes the jobs that are taken. -/
def Prompter.Executes (prompter : Prompter) : Prop :=
  ∀ cue ∈ prompter.cues, ∀ system : System, system.Lined → system.Executes .nothing (cue.play system).2

private theorem Prompter.Executes.answers {world : World Prompter} (executes : world.outside.Executes)
    {first : System} (request : Request)
    (before : first.Executes .nothing (request.begin world.system)) :
    first.Executes .nothing (Prompter.environment request world).2.system ∧
      (Prompter.environment request world).2.outside.Executes := by
  obtain ⟨system, cues, endings⟩ := world
  cases cues with
  | nil => exact ⟨before, executes⟩
  | cons cue rest =>
      have played := executes cue List.mem_cons_self _ before.lined
      exact ⟨before.trans played, fun other member => executes other (List.mem_cons_of_mem cue member)⟩

/-- An activity that goes in strides executes the jobs that it takes, if whoever it calls does. -/
private theorem Activity.Strides.executes {α : Type} {commands : Command → Prop} {due : Due}
    {activity : Activity α} {world : World Prompter} {first : System}
    (strides : Strides commands due activity) (others : world.outside.Executes)
    (before : first.Executes due world.system) :
    first.Executes .nothing (activity.run Prompter.environment world).2.system := by
  induction strides generalizing world with
  | done | fail => exact before
  | look _ ih => exact ih _ others before
  | @ask request _ plain _ ih =>
      obtain ⟨after, kept⟩ := others.answers request (before.ask plain)
      exact ih _ kept after
  | @act command _ _ _ ih => exact ih _ others (before.apply command)
  | @selector index token _ _ ih =>
      have settled := before.settle fun _ same => nomatch same
      exact ih others (settled.apply (.markReady index token))
  | @custom index token _ _ ih =>
      have settled := before.settle fun _ same => nomatch same
      have begun : first.Executes .nothing ((Request.observe index token).begin world.system) :=
        settled.ask trivial
      obtain ⟨after, kept⟩ := others.answers (.observe index token) begun
      exact ih _ kept after
  | @job job _ _ ih =>
      obtain ⟨after, kept⟩ := others.answers (.execute job) before.execute
      exact ih _ kept after

mutual

/-- In every run of operations inside one another the jobs that are taken are executed at once, and no
others. -/
theorem Script.executes (bound : Nat) (script : Script) {system : System} (lined : system.Lined) :
    system.Executes .nothing (script.run bound system).2 := by
  cases script with
  | done => exact .refl lined
  | call action inside rest =>
      let world : World Prompter := { system, outside := { cues := inside.cues bound } }
      have own : system.Executes .nothing
          ((action.activity bound).run Prompter.environment world).2.system :=
        (action.activity_strides bound).executes (inside.executes bound) (.refl lined)
      exact own.trans (rest.executes bound own.lined)

theorem Interludes.executes (bound : Nat) (interludes : Interludes) :
    ∀ cue ∈ interludes.cues bound, ∀ system : System, system.Lined →
      system.Executes .nothing (cue.play system).2 := by
  intro cue member system lined
  cases interludes with
  | none => cases member
  | next script answer rest =>
      rcases List.mem_cons.mp member with rfl | member
      · exact script.executes bound lined
      · exact rest.executes bound cue member system lined

end

end TimedWaits
