import TimedWaits.Proofs.Alarms.Firing
import TimedWaits.Proofs.Workers.Executions

/-! Every accepted job is run once, in the order in which the jobs of a worker were accepted. Through any
run, the jobs that a worker took followed by those in its list are those that it accepted. -/

set_option autoImplicit false

namespace TimedWaits

namespace Workers

/-- The jobs that a worker accepted in a history, in their order. A history has the latest first. -/
def accepted (worker : Nat) (history : List Occurrence) : List Nat :=
  history.reverse.filterMap (Occurrence.acceptedBy worker)

/-- The jobs that a worker took to run them in a history, in their order. -/
def started (worker : Nat) (history : List Occurrence) : List Nat :=
  history.reverse.filterMap (Occurrence.startedBy worker)

variable {worker : Nat} {before after : Nat → List Nat} {command : Command} {reply : command.Reply}
  {notes : List Occurrence}

theorem accepted_append (later earlier : List Occurrence) :
    accepted worker (later ++ earlier) = accepted worker earlier ++ accepted worker later := by
  rw [accepted, List.reverse_append, List.filterMap_append, accepted, accepted]

theorem started_append (later earlier : List Occurrence) :
    started worker (later ++ earlier) = started worker earlier ++ started worker later := by
  rw [started, List.reverse_append, List.filterMap_append, started, started]

private theorem accepted_filter (history : List Occurrence) :
    accepted worker (history.filter Occurrence.isJobMove) = accepted worker history := by
  rw [accepted, ← List.filter_reverse, List.filterMap_filter, accepted]
  refine List.filterMap_congr fun occurrence _ => ?_
  cases occurrence <;> rfl

theorem started_filter (history : List Occurrence) :
    started worker (history.filter Occurrence.isJobMove) = started worker history := by
  rw [started, ← List.filter_reverse, List.filterMap_filter, started]
  refine List.filterMap_congr fun occurrence _ => ?_
  cases occurrence <;> rfl

end Workers

/-- A command that neither makes nor drops a worker. -/
def Command.Keeps (worker : Nat) : Command → Prop
  | .createWorker other _ | .dropWorker other => other ≠ worker
  | _ => True

namespace Workers

variable {worker : Nat} {before after : Nat → List Nat} {command : Command} {reply : command.Reply}
  {notes : List Occurrence}

/-- What a command notes of the jobs of a worker is what it does to the worker's list. -/
private theorem Moves.conserves (moves : Moves before after command reply notes)
    (keeps : command.Keeps worker) :
    started worker notes ++ after worker = before worker ++ accepted worker notes := by
  have update : ∀ {other : Nat} {jobs : List Nat}, other ≠ worker →
      Function.update before other jobs worker = before worker :=
    fun differ => Function.update_of_ne (Ne.symm differ) _ _
  have takes : ∀ {other job : Nat} {rest : List Nat}, before other = job :: rest →
      started worker [.started other job] ++ Function.update before other rest worker =
        before worker ++ [] := by
    intro other job rest front
    by_cases same : other = worker
    · subst same
      simp [started, Occurrence.startedBy, front]
    · simp [started, Occurrence.startedBy, same, update same]
  cases moves with
  | stays same => rw [same]; exact (List.append_nil _).symm
  | @accepts other job _ appended =>
      rw [appended]
      by_cases same : other = worker
      · subst same
        simp [started, accepted, Occurrence.startedBy, Occurrence.acceptedBy]
      · simp [started, accepted, Occurrence.startedBy, Occurrence.acceptedBy, same, update same]
  | next front taken =>
      rw [taken]
      exact takes front
  | turn front taken =>
      rw [taken]
      exact takes front
  | drops emptied | creates emptied =>
      rw [emptied, update keeps]
      exact (List.append_nil _).symm

end Workers

/-! ### Runs -/

/-- Whatever is done makes and drops other workers only. -/
def keeps (worker : Nat) : Conduct := fun _ command => command.Keeps worker

theorem Action.obeys_keeps {action : Action} {worker : Nat}
    (own : ∀ command, action.own? = some command → command.Keeps worker) :
    action.Obeys (·.Keeps worker) := by
  refine Action.obeys_of_own (fun command ordinary => ?_) (fun _ _ _ => trivial) own
  cases command <;> trivial

theorem Setup.jobs_eq_nil (setup : Setup) (worker : Nat) : setup.system.jobs worker = [] := by
  cases worker <;> rfl

theorem Setup.lined (setup : Setup) : setup.system.Lined := by
  have empty : setup.system.jobs = fun _ => [] := funext setup.jobs_eq_nil
  rw [System.Lined, empty]
  exact LinkedLists.spells_empty

namespace System

variable {first last : System} {worker : Nat}

/-- Since an earlier moment a worker took the jobs that it had and those that it accepted, in this order,
but for those in its list. -/
structure Conserves (first : System) (worker : Nat) (last : System) : Prop where
  lined : last.Lined
  continues : last.Continues first
  order : Workers.started worker (last.since first) ++ last.jobs worker =
    first.jobs worker ++ Workers.accepted worker (last.since first)

private theorem Conserves.apply {command : Command} (conserves : first.Conserves worker last)
    (keeps : command.Keeps worker) : first.Conserves worker (command.apply last).2 := by
  obtain ⟨moves, lined⟩ := command.moves conserves.lined
  have onward := (Continues.refl last).apply command
  have step := moves.conserves keeps
  rw [Workers.started_filter, Workers.accepted_filter] at step
  refine ⟨lined, conserves.continues.trans onward, ?_⟩
  rw [conserves.continues.since_trans onward, Workers.started_append, Workers.accepted_append,
    List.append_assoc, step, ← List.append_assoc, conserves.order, List.append_assoc]

private theorem Conserves.note {occurrence : Occurrence} (conserves : first.Conserves worker last)
    (aside : occurrence.IsAside) : first.Conserves worker (last.record occurrence) := by
  have onward := (Continues.refl last).record occurrence
  refine ⟨conserves.lined, conserves.continues.trans onward, ?_⟩
  rw [conserves.continues.since_trans onward, Workers.started_append, Workers.accepted_append,
    last.since_record]
  have none : Workers.started worker [occurrence] = [] ∧ Workers.accepted worker [occurrence] = [] := by
    cases occurrence <;> first | exact ⟨rfl, rfl⟩ | exact aside.elim
  rw [none.1, none.2, List.append_nil, List.append_nil]
  exact conserves.order

private theorem Conserves.reaches (lined : first.Lined) (run : Reaches (keeps worker) first last) :
    first.Conserves worker last := by
  have start : first.Conserves worker first := by
    have since : first.since first = [] := since_eq rfl
    refine ⟨lined, .refl first, ?_⟩
    rw [since]
    exact (List.append_nil _).symm
  exact run.preserves_apply (motive := fun system => first.Conserves worker system) start
    (fun _ _ _ => trivial) (fun conserves keeps => conserves.apply keeps)
    fun conserves aside => conserves.note aside

theorem Lined.reaches {conduct : Conduct} (lined : first.Lined) (run : Reaches conduct first last) :
    last.Lined := by
  refine run.preserves (motive := fun system => system.Lined) lined ?_ fun kept _ => kept
  intro system command kept _
  exact stride_preserves (motive := fun system => system.Lined) (command.moves kept).2
    fun index token before => (Command.moves before (.markReady index token)).2

/-- A job that was just taken to be run is in no list. -/
theorem Starts.loose {job : Nat} {next : System} (starts : first.Starts worker job next)
    (lined : first.Lined) (other : Nat) : job ∉ next.jobs other := by
  rw [starts.jobs]
  exact lined.not_mem_of_front starts.front other

theorem Lined.putJob_accepts (lined : first.Lined) (worker job : Nat) :
    (first.putJob worker job).1 = true ↔ ∀ other, job ∉ first.jobs other := by
  constructor
  · intro accepted other queued
    rw [lined.putJob_queued queued] at accepted
    cases accepted
  · exact fun loose => (lined.putJob_loose loose worker).1

private theorem Lined.putJob_refused (lined : first.Lined) {worker job : Nat}
    (refused : (first.putJob worker job).1 = false) :
    (first.putJob worker job).2 = first.log .jobAlreadyQueued := by
  by_cases queued : ∃ other, job ∈ first.jobs other
  · obtain ⟨other, queued⟩ := queued
    rw [lined.putJob_queued queued]
  · rw [(lined.putJob_accepts worker job).mpr (not_exists.mp queued)] at refused
    cases refused

private theorem Lined.nextJob_loose (lined : first.Lined) {job : Nat}
    (started : (first.nextJob worker).1 = some job) (other : Nat) :
    job ∉ (first.nextJob worker).2.jobs other := by
  cases front : first.jobs worker with
  | nil =>
      rw [lined.nextJob_nil front] at started
      cases started
  | cons oldest rest =>
      obtain ⟨reply, starts⟩ := lined.nextJob_cons front
      cases started.symm.trans reply
      exact starts.loose lined other

private theorem Lined.takeTurn_loose (lined : first.Lined) {job : Nat}
    (started : (first.takeTurn worker).1 = .run job) (other : Nat) :
    job ∉ (first.takeTurn worker).2.jobs other := by
  rcases lined.takeTurn_cases worker with ⟨-, turn⟩ | ⟨-, -, turn⟩ | ⟨oldest, -, reply, starts⟩
  · rw [turn] at started
    cases started
  · rw [turn] at started
    cases started
  · cases started.symm.trans reply
    exact starts.loose (lined.take _) other

end System

namespace Workers

/-- Every accepted job is run once and in order. In any run, of operations inside one another as well, the
jobs that a worker took followed by those in its list are those that it had followed by those that it
accepted. So it is whenever a call lets others act, and however the call ends. A job is accepted just if it
is in no list, which it is not while it runs; a refusal is logged and changes nothing. Jobs that are taken
are executed at once, and no others. -/
theorem jobs_run_in_order {setup : Setup} {system : System} (run : Reaches anything setup.system system) :
    (∀ worker last, Reaches (keeps worker) system last →
      started worker (last.since system) ++ last.jobs worker =
        system.jobs worker ++ accepted worker (last.since system)) ∧
    (∀ worker backend,
      setup.system.jobs worker = [] ∧ (system.createWorker worker backend).jobs worker = []) ∧
    (∀ command : Command, Moves system.jobs (command.apply system).2.jobs command
      (command.apply system).1
      (((command.apply system).2.since system).filter Occurrence.isJobMove)) ∧
    (∀ worker job, ((system.putJob worker job).1 = true ↔ ∀ other, job ∉ system.jobs other) ∧
      ((system.putJob worker job).1 = false →
        (system.putJob worker job).2 = system.log .jobAlreadyQueued)) ∧
    (∀ worker job, ((system.nextJob worker).1 = some job →
        ∀ other, job ∉ (system.nextJob worker).2.jobs other) ∧
      ((system.takeTurn worker).1 = .run job → ∀ other, job ∉ (system.takeTurn worker).2.jobs other)) ∧
    (∀ job, system.workers.lists.isLinked job = true ↔ ∃ worker, job ∈ system.jobs worker) ∧
    (∀ worker (action : Action), action.Obeys (·.Keeps worker) →
      ∀ {σ : Type} (environment : Environment σ) (outside : σ) (bound : Nat),
        let call := action.activity bound
        let world : World σ := { system, outside }
        call.Meanwhile (keeps worker) environment world →
          call.Asks (fun _ now => Reaches (keeps worker) system now) environment world ∧
            Reaches (keeps worker) system (call.run environment world).2.system) ∧
    (∀ (bound : Nat) (script : Script), let last := (script.run bound system).2
      Reaches anything system last ∧
      (∃ starts, (last.since system).filter Occurrence.isJobRun = executions starts) ∧
      ∀ worker, script.All (Action.Obeys (·.Keeps worker)) → Reaches (keeps worker) system last) := by
  have lined := setup.lined.reaches run
  refine ⟨fun worker last later => (System.Conserves.reaches lined later).order, ?_,
    fun command => (command.moves lined).1,
    fun worker job => ⟨lined.putJob_accepts worker job, lined.putJob_refused⟩,
    fun worker job => ⟨lined.nextJob_loose, lined.takeTurn_loose⟩, lined.linked, ?_, ?_⟩
  · intro worker backend
    have emptied : (system.createWorker worker backend).jobs = Function.update system.jobs worker [] :=
      (lined.dropWorker worker).1
    rw [emptied]
    exact ⟨setup.jobs_eq_nil worker, Function.update_self _ _ _⟩
  · intro worker action obeys σ environment outside bound call world meanwhile
    exact ⟨obeys.asks meanwhile, obeys.runs meanwhile⟩
  · intro bound script last
    refine ⟨script.reaches_anything bound system, ?_, fun worker all => ?_⟩
    · have paired := (script.executes bound lined).paired
      change Paired .nothing ((last.since system).filter Occurrence.isJobRun) at paired
      generalize (last.since system).filter Occurrence.isJobRun = runs at paired ⊢
      cases paired with
      | nothing starts => exact ⟨starts, rfl⟩
    · exact all.runs (fun _ obeys => obeys) bound system

/-- A job that puts itself back while it runs, runs the next job of the same worker and gives up. The other
job has run inside it, and it is in the list once more. -/
theorem job_requeues_itself :
    let setup : Setup := { workers := [.host], jobs := [(none, {}), (none, {})] }
    let inside : Script := .call (.putJob 0 0) .none <| .call (.runOneJob 0) .none .done
    let script : Script := .call (.putJob 0 0) .none <| .call (.putJob 0 1) .none <|
      .call (.runOneJob 0) (.next inside (.error (.thrown "job")) .none) .done
    let last := (script.run 9 setup.system).2
    Reaches anything setup.system setup.system ∧
      last.jobs 0 = [0] ∧ accepted 0 last.history = [0, 1, 0] ∧
      started 0 (last.since setup.system) ++ last.jobs 0 =
        setup.system.jobs 0 ++ accepted 0 (last.since setup.system) := by
  intro setup inside script last
  have run : Reaches anything setup.system setup.system := .refl _
  obtain ⟨order, -, -, -, -, -, -, scripts⟩ := jobs_run_in_order run
  obtain ⟨-, -, kept⟩ := scripts 9 script
  have puts : ∀ job, (Action.putJob 0 job).Obeys (·.Keeps 0) := by
    refine fun job => Action.obeys_keeps fun command own => ?_
    cases own
    trivial
  have runs : (Action.runOneJob 0).Obeys (·.Keeps 0) := by
    refine Action.obeys_keeps fun command own => ?_
    cases own
  have within : script.All (Action.Obeys (·.Keeps 0)) := by
    have inner : inside.All (Action.Obeys (·.Keeps 0)) := ⟨puts 0, trivial, runs, trivial, trivial⟩
    exact ⟨puts 0, trivial, puts 1, trivial, runs, ⟨inner, trivial⟩, trivial⟩
  exact ⟨run, by decide +kernel, by decide +kernel, order 0 last (kept 0 within)⟩

end Workers

end TimedWaits
