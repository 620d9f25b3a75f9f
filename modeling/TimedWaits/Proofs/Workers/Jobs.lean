import TimedWaits.Proofs.LinkedLists.Operations
import TimedWaits.Proofs.Runs.Moves

/-! How jobs move. A put appends a job to the list of a worker if it is in no list, and a worker takes
the first job of its list to run it. Besides, only dropping a worker changes its list. -/

set_option autoImplicit false

namespace TimedWaits

namespace System

/-- The jobs of each worker, oldest first. -/
def jobs (system : System) : Nat → List Nat := system.workers.lists.members

/-- The links of the jobs spell out the list of each worker. -/
def Lined (system : System) : Prop := system.workers.lists.Spells system.jobs

/-- A worker takes the first job off its list, which changes nothing but the lists and the history. -/
structure Starts (system : System) (worker job : Nat) (next : System) : Prop where
  front : system.jobs worker = job :: next.jobs worker
  jobs : next.jobs = Function.update system.jobs worker (next.jobs worker)
  lined : next.Lined
  flags : next.workers.workers = system.workers.workers
  signals : next.signals = system.signals
  history : next.history = .started worker job :: system.history ∨
    ∃ label, next.history = .logged (.jobStarted label) :: .started worker job :: system.history

variable {system : System} {worker job : Nat} {rest : List Nat}

theorem Lined.nextJob_nil (lined : system.Lined) (empty : system.jobs worker = []) :
    system.nextJob worker = (none, system) := by
  have none := lined.popFront?_eq_none empty
  rw [nextJob, none]

theorem Lined.nextJob_cons (lined : system.Lined) (front : system.jobs worker = job :: rest) :
    (system.nextJob worker).1 = some job ∧
      system.Starts worker job (system.nextJob worker).2 := by
  obtain ⟨lists, popped, spells⟩ := lined.popFront? front
  have members : lists.members = Function.update system.jobs worker rest :=
    funext spells.members_eq
  have here : lists.members worker = rest := by rw [members, Function.update_self]
  let started := { system with workers := { system.workers with lists } }.record (.started worker job)
  have starts : system.Starts worker job started := by
    refine ⟨?_, ?_, ?_, rfl, rfl, .inl rfl⟩
    · rw [front]
      exact congrArg _ here.symm
    · change lists.members = Function.update system.jobs worker (lists.members worker)
      rw [here, members]
    · change lists.Spells lists.members
      rwa [members]
  rw [nextJob, popped]
  refine ⟨rfl, ?_⟩
  dsimp only
  cases system.workers.labels.get job with
  | none => exact starts
  | some label =>
      exact ⟨starts.front, starts.jobs, starts.lined, starts.flags, starts.signals,
        .inr ⟨label, rfl⟩⟩

theorem workers_take (system : System) (reference : SignalRef) :
    (system.take reference).2.workers = system.workers := by
  unfold take
  split <;> rfl

theorem Lined.take (lined : system.Lined) (reference : SignalRef) :
    (system.take reference).2.Lined := by
  rw [Lined, jobs, workers_take]
  exact lined

theorem jobs_take (system : System) (reference : SignalRef) :
    (system.take reference).2.jobs = system.jobs := by rw [jobs, workers_take, jobs]

theorem takeTurn_of_killed (killed : (system.workers.workers.get worker).killed = true) :
    system.takeTurn worker = (.stop, (system.take (.worker worker)).2.log .workerStopped) := by
  rw [← system.workers_take (.worker worker)] at killed
  exact if_pos killed

private theorem takeTurn_of_spared (spared : (system.workers.workers.get worker).killed = false) :
    system.takeTurn worker =
      (((system.take (.worker worker)).2.nextJob worker).1.elim .idle .run,
        ((system.take (.worker worker)).2.nextJob worker).2) := by
  simp only [takeTurn, workers_take, spared, Bool.false_eq_true, if_false]
  cases (system.take (.worker worker)).2.nextJob worker with
  | mk answer next => cases answer <;> rfl

/-- A turn of a worker takes a post, if there is one. Then the worker stops if it was killed, and else
runs its first job. -/
theorem Lined.takeTurn_cases (lined : system.Lined) (worker : Nat) :
    let taken := (system.take (.worker worker)).2
    ((system.workers.workers.get worker).killed = true ∧
        system.takeTurn worker = (.stop, taken.log .workerStopped)) ∨
      ((system.workers.workers.get worker).killed = false ∧ system.jobs worker = [] ∧
        system.takeTurn worker = (.idle, taken)) ∨
      ∃ job, (system.workers.workers.get worker).killed = false ∧
        (system.takeTurn worker).1 = .run job ∧
        taken.Starts worker job (system.takeTurn worker).2 := by
  intro taken
  cases killed : (system.workers.workers.get worker).killed with
  | true => exact .inl ⟨rfl, takeTurn_of_killed killed⟩
  | false =>
      have turn := takeTurn_of_spared killed
      cases front : taken.jobs worker with
      | nil =>
          rw [(lined.take _).nextJob_nil front] at turn
          rw [jobs_take] at front
          exact .inr (.inl ⟨rfl, front, turn⟩)
      | cons job rest =>
          obtain ⟨reply, starts⟩ := (lined.take _).nextJob_cons front
          rw [turn, reply]
          exact .inr (.inr ⟨job, rfl, rfl, starts⟩)

theorem Lined.putJob_queued (lined : system.Lined) {other : Nat} (queued : job ∈ system.jobs other)
    (worker : Nat) : system.putJob worker job = (false, system.log .jobAlreadyQueued) := by
  have linked : system.workers.lists.isLinked job = true := (lined.linked job).mpr ⟨other, queued⟩
  rw [putJob, LinkedLists.pushBack?, if_pos linked]

theorem Lined.putJob_loose (lined : system.Lined) (loose : ∀ other, job ∉ system.jobs other)
    (worker : Nat) :
    (system.putJob worker job).1 = true ∧
      (system.putJob worker job).2.jobs =
        Function.update system.jobs worker (system.jobs worker ++ [job]) ∧
      (system.putJob worker job).2.Lined ∧
      (system.putJob worker job).2.workers.workers = system.workers.workers ∧
      (system.putJob worker job).2.signals = (system.raise (.worker worker)).signals ∧
      (system.putJob worker job).2.history =
        .raised (.worker worker) :: .accepted worker job :: system.history := by
  obtain ⟨lists, pushed, spells⟩ := lined.pushBack? worker (lined.isLinked_eq_false.mpr loose)
  have members : lists.members = Function.update system.jobs worker (system.jobs worker ++ [job]) :=
    funext spells.members_eq
  rw [putJob, pushed]
  refine ⟨rfl, members, ?_, rfl, rfl, rfl⟩
  change lists.Spells lists.members
  rwa [members]

theorem Lined.dropWorker (lined : system.Lined) (worker : Nat) :
    (system.dropWorker worker).jobs = Function.update system.jobs worker [] ∧
      (system.dropWorker worker).Lined := by
  have spells := lined.release worker
  have members : (system.workers.lists.release worker).members =
      Function.update system.jobs worker [] := funext spells.members_eq
  refine ⟨members, ?_⟩
  change (system.workers.lists.release worker).Spells (system.workers.lists.release worker).members
  rwa [members]

end System

/-! ### Moves of jobs -/

namespace Occurrence

/-- A job was put into the list of a worker, taken off it, or executed. -/
def isJobMove : Occurrence → Bool
  | .accepted _ _ | .started _ _ | .executed _ => true
  | _ => false

def acceptedBy (worker : Nat) : Occurrence → Option Nat
  | .accepted other job => if other = worker then some job else none
  | _ => none

def startedBy (worker : Nat) : Occurrence → Option Nat
  | .started other job => if other = worker then some job else none
  | _ => none

end Occurrence

/-- Whether the reply of a command says that a job moved. -/
def Command.tellsJobMove : (command : Command) → command.Reply → Bool
  | .putJob _ _, accepted => accepted
  | .nextJob _, job => job.isSome
  | .takeTurn _, .run _ => true
  | _, _ => false

namespace Workers

/-- How a command that gives a reply moves a job, and what it notes of that. -/
inductive Moves (before after : Nat → List Nat) :
    (command : Command) → command.Reply → List Occurrence → Prop where
  | stays {command : Command} {reply : command.Reply} (same : after = before)
      (idle : command.tellsJobMove reply = false) : Moves before after command reply []
  | accepts {worker job : Nat} (loose : ∀ other, job ∉ before other)
      (appended : after = Function.update before worker (before worker ++ [job])) :
      Moves before after (.putJob worker job) true [.accepted worker job]
  | next {worker job : Nat} {rest : List Nat} (front : before worker = job :: rest)
      (taken : after = Function.update before worker rest) :
      Moves before after (.nextJob worker) (some job) [.started worker job]
  | turn {worker job : Nat} {rest : List Nat} (front : before worker = job :: rest)
      (taken : after = Function.update before worker rest) :
      Moves before after (.takeTurn worker) (.run job) [.started worker job]
  | drops {worker : Nat} (emptied : after = Function.update before worker []) :
      Moves before after (.dropWorker worker) () []
  | creates {worker : Nat} {backend : Backend} (emptied : after = Function.update before worker []) :
      Moves before after (.createWorker worker backend) () []

end Workers

namespace Command

variable {command : Command} {system : System}

theorem workers_apply (elsewhere : command.worker? = none) (system : System) :
    (command.apply system).2.workers = system.workers := by
  refine (command.touched system).preserves
    (motive := fun last => last.workers = system.workers) rfl ?_
  intro last touch own same
  cases touch with
  | workers fresh =>
      obtain ⟨worker, about⟩ := own
      rw [elsewhere] at about
      cases about
  | take signal => exact (last.workers_take signal).trans same
  | attach signal observer token =>
      simp only [Touch.apply, System.attach]
      split <;> exact same
  | detach signal observer =>
      simp only [Touch.apply, System.detach]
      split <;> exact same
  | _ => exact same

theorem filter_since_of_elsewhere (elsewhere : command.worker? = none) (system : System) :
    ((command.apply system).2.since system).filter Occurrence.isJobMove = [] := by
  rw [← List.length_eq_zero_iff, ← List.countP_eq_length_filter]
  refine command.countP_since ?_ (fun _ => rfl) (fun _ _ => rfl) system
  intro occurrence notes
  cases occurrence with
  | accepted worker job =>
      cases notes
      cases elsewhere
  | started worker job =>
      change command.worker? = some worker at notes
      rw [elsewhere] at notes
      cases notes
  | executed => exact notes.elim
  | _ => rfl

end Command

theorem System.Starts.filter_since {system next : System} {worker job : Nat}
    (starts : system.Starts worker job next) :
    (next.since system).filter Occurrence.isJobMove = [.started worker job] := by
  rcases starts.history with history | ⟨label, history⟩
  · have since : next.since system = [.started worker job] := since_eq history
    rw [since]
    rfl
  · have since : next.since system = [.logged (.jobStarted label), .started worker job] :=
      since_eq history
    rw [since]
    rfl

private theorem System.Starts.continues {system next : System} {worker job : Nat}
    (starts : system.Starts worker job next) : next.Continues system := by
  rcases starts.history with history | ⟨label, history⟩
  · exact ⟨[_], history.symm⟩
  · exact ⟨[_, _], history.symm⟩

namespace Command

variable {system : System} (lined : system.Lined)

include lined

private theorem moves_putJob (worker job : Nat) :
    Workers.Moves system.jobs (system.putJob worker job).2.jobs (.putJob worker job)
        (system.putJob worker job).1
        (((system.putJob worker job).2.since system).filter Occurrence.isJobMove) ∧
      (system.putJob worker job).2.Lined := by
  by_cases queued : ∃ other, job ∈ system.jobs other
  · obtain ⟨other, queued⟩ := queued
    have since : (system.log .jobAlreadyQueued).since system = [.logged .jobAlreadyQueued] :=
      system.since_record _
    rw [lined.putJob_queued queued worker, since]
    exact ⟨.stays rfl rfl, lined⟩
  · have loose := not_exists.mp queued
    obtain ⟨reply, jobs, kept, -, -, history⟩ := lined.putJob_loose loose worker
    have since : (system.putJob worker job).2.since system =
        [.raised (.worker worker), .accepted worker job] := System.since_eq history
    rw [since, reply]
    exact ⟨.accepts loose jobs, kept⟩

private theorem moves_nextJob (worker : Nat) :
    Workers.Moves system.jobs (system.nextJob worker).2.jobs (.nextJob worker)
        (system.nextJob worker).1
        (((system.nextJob worker).2.since system).filter Occurrence.isJobMove) ∧
      (system.nextJob worker).2.Lined := by
  cases front : system.jobs worker with
  | nil =>
      have since : system.since system = [] := System.since_eq rfl
      rw [lined.nextJob_nil front, since]
      exact ⟨.stays rfl rfl, lined⟩
  | cons job rest =>
      obtain ⟨reply, starts⟩ := lined.nextJob_cons front
      rw [starts.filter_since, reply]
      exact ⟨.next starts.front starts.jobs, starts.lined⟩

private theorem moves_takeTurn (worker : Nat) :
    Workers.Moves system.jobs (system.takeTurn worker).2.jobs (.takeTurn worker)
        (system.takeTurn worker).1
        (((system.takeTurn worker).2.since system).filter Occurrence.isJobMove) ∧
      (system.takeTurn worker).2.Lined := by
  let take : Command := .take (.worker worker)
  have turns := lined.takeTurn_cases worker
  have jobs := system.jobs_take (.worker worker)
  have kept := lined.take (.worker worker)
  have onward : (system.take (.worker worker)).2.Continues system :=
    (System.Continues.refl system).apply take
  have took : ((system.take (.worker worker)).2.since system).filter Occurrence.isJobMove = [] :=
    filter_since_of_elsewhere (show take.worker? = none from rfl) system
  dsimp only at turns
  generalize (system.take (.worker worker)).2 = taken at turns jobs kept onward took
  have later : ∀ {next : System}, next.Continues taken →
      (next.since system).filter Occurrence.isJobMove =
        (next.since taken).filter Occurrence.isJobMove := by
    intro next after
    rw [onward.since_trans after, List.filter_append, took, List.append_nil]
  rcases turns with ⟨-, turn⟩ | ⟨-, -, turn⟩ | ⟨job, -, reply, starts⟩
  · have after : (taken.log .workerStopped).Continues taken := (System.Continues.refl taken).record _
    have since : (taken.log .workerStopped).since taken = [.logged .workerStopped] :=
      taken.since_record _
    rw [turn]
    dsimp only
    rw [later after, since]
    exact ⟨.stays jobs rfl, kept⟩
  · rw [turn]
    dsimp only
    rw [took]
    exact ⟨.stays jobs rfl, kept⟩
  · have front := starts.front
    have next := starts.jobs
    rw [jobs] at front next
    rw [later starts.continues, starts.filter_since, reply]
    exact ⟨.turn front next, starts.lined⟩

private theorem moves_elsewhere {command : Command} (elsewhere : command.worker? = none) :
    Workers.Moves system.jobs (command.apply system).2.jobs command (command.apply system).1
        (((command.apply system).2.since system).filter Occurrence.isJobMove) ∧
      (command.apply system).2.Lined := by
  have workers := workers_apply elsewhere system
  have idle : command.tellsJobMove (command.apply system).1 = false := by
    cases command <;> first | rfl | cases elsewhere
  rw [filter_since_of_elsewhere elsewhere, System.Lined, System.jobs, System.jobs, workers]
  exact ⟨.stays rfl idle, lined⟩

/-- What a command does to the lists of jobs, and what it notes and replies. -/
theorem moves (command : Command) :
    Workers.Moves system.jobs (command.apply system).2.jobs command (command.apply system).1
        (((command.apply system).2.since system).filter Occurrence.isJobMove) ∧
      (command.apply system).2.Lined := by
  cases command with
  | putJob worker job => exact moves_putJob lined worker job
  | nextJob worker => exact moves_nextJob lined worker
  | takeTurn worker => exact moves_takeTurn lined worker
  | dropWorker worker =>
      have since : ((Command.dropWorker worker).apply system).2.since system = [] :=
        System.since_eq rfl
      obtain ⟨jobs, kept⟩ := lined.dropWorker worker
      rw [since]
      exact ⟨.drops jobs, kept⟩
  | createWorker worker backend =>
      have since : ((Command.createWorker worker backend).apply system).2.since system = [] :=
        System.since_eq rfl
      obtain ⟨jobs, kept⟩ := lined.dropWorker worker
      rw [since]
      exact ⟨.creates jobs, kept⟩
  | kill worker =>
      have since : ((Command.kill worker).apply system).2.since system =
          [.raised (.worker worker), .killed worker] := System.since_eq rfl
      rw [since]
      exact ⟨.stays rfl rfl, lined⟩
  | _ => exact moves_elsewhere lined rfl

end Command

end TimedWaits
