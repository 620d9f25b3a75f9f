import TimedWaits.Proofs.Workers.Wakeups

/-! No accepted job waits forever. A run of a worker that blocks has nothing to run, as long as no run has
returned because the worker was killed. Once it is killed no run starts a job. -/

set_option autoImplicit false

namespace TimedWaits

open Activity

variable {σ : Type} {environment : Environment σ} {world : World σ} {worker : Nat} {items : List Nat}
  {first last system : System}

/-! ### What a run asks for -/

namespace Workers

/-- What a run of a worker asks for: to block while there is no post, or to execute a job of a worker that
was not killed. -/
def Wants (worker : Nat) (request : Request) (now : System) : Prop :=
  match request with
  | .idle signal => signal = .worker worker ∧ (now.signal signal).pending = 0
  | .execute _ => (now.workers.workers.get worker).killed = false
  | _ => False

private theorem awaitPost_asks (bound : Nat) :
    ((SignalRef.worker worker).awaitPost bound).Asks (Wants worker) environment world := by
  refine ((SignalRef.worker worker).awaitPost_asks bound).mono fun request now idle => ?_
  obtain ⟨rfl, none⟩ := idle
  exact ⟨rfl, none⟩

private theorem run_asks (bound rounds : Nat) :
    (run bound worker rounds).Asks (Wants worker) environment world := by
  induction rounds generalizing world with
  | zero => trivial
  | succ rounds ih =>
      refine .bind (awaitPost_asks bound) fun _ ran _ => ?_
      refine .bind trivial fun turn taken took => ?_
      cases turn with
      | stop => trivial
      | idle => exact ih
      | run job =>
          obtain ⟨started, same⟩ := Prod.mk.inj took
          have running := System.running_of_takeTurn (Except.ok.inj started)
          rw [← same]
          exact .bind (.request running) fun _ _ _ => ih

end Workers

/-! ### After a kill -/

/-- Whatever is done leaves the signal of a worker to it, and takes its jobs in runs of it only. -/
def runsOnly (worker : Nat) (items : List Nat) : Conduct :=
  fun _ command => command.Serves worker items ∧ command ≠ .nextJob worker

namespace System

variable {command : Command} {now : System}

/-- Since it was killed, at some later moment, a worker started no job. -/
structure Halts (first last : System) (worker : Nat) (items : List Nat) (now : System) : Prop where
  serves : first.Serves worker items now
  killed : .killed worker ∈ now.since first
  continues : now.Continues last
  none : Workers.started worker (now.since last) = []

private theorem Serves.started_apply (serves : first.Serves worker items last)
    (killed : .killed worker ∈ last.since first) (other : command ≠ .nextJob worker) :
    Workers.started worker ((command.apply last).2.since last) = [] := by
  obtain ⟨moves, -⟩ := command.moves serves.lined
  rw [← Workers.started_filter]
  generalize ((command.apply last).2.since last).filter Occurrence.isJobMove = notes at moves ⊢
  generalize answered : (command.apply last).1 = reply at moves
  cases moves with
  | stays | accepts | drops | creates => rfl
  | @next index job _ _ _ =>
      have differ : index ≠ worker := fun same => other (same ▸ rfl)
      simp [Workers.started, Occurrence.startedBy, differ]
  | @turn index job _ _ _ =>
      have differ : index ≠ worker := by
        rintro rfl
        have stops := takeTurn_of_killed (serves.killed.mpr killed)
        cases (congrArg Prod.fst stops).symm.trans answered
      simp [Workers.started, Occurrence.startedBy, differ]

private theorem Halts.apply (halts : first.Halts last worker items now)
    (few : items.length ≤ Signal.ceiling)
    (allowed : command.Serves worker items) (other : command ≠ .nextJob worker) :
    first.Halts last worker items (command.apply now).2 := by
  have onward := (Continues.refl now).apply command
  refine ⟨halts.serves.apply few allowed, ?_, halts.continues.trans onward, ?_⟩
  · rw [halts.serves.continues.since_trans onward]
    exact List.mem_append_right _ halts.killed
  · rw [halts.continues.since_trans onward, Workers.started_append, halts.none,
      halts.serves.started_apply halts.killed other, List.append_nil]

private theorem Halts.note {occurrence : Occurrence} (halts : first.Halts last worker items now)
    (aside : occurrence.IsAside) : first.Halts last worker items (now.record occurrence) := by
  have onward := (Continues.refl now).record occurrence
  refine ⟨halts.serves.note aside, ?_, halts.continues.trans onward, ?_⟩
  · rw [halts.serves.continues.since_trans onward]
    exact List.mem_append_right _ halts.killed
  · rw [halts.continues.since_trans onward, Workers.started_append, halts.none, now.since_record]
    cases occurrence <;> first | rfl | exact aside.elim

private theorem Serves.halts (serves : first.Serves worker items last) (few : items.length ≤ Signal.ceiling)
    (killed : .killed worker ∈ last.since first)
    (run : Reaches (runsOnly worker items) last now) :
    first.Halts last worker items now := by
  have since : last.since last = [] := since_eq rfl
  have start : first.Halts last worker items last :=
    ⟨serves, killed, .refl last, by rw [since]; rfl⟩
  refine run.preserves_apply (motive := fun system => first.Halts last worker items system) start ?_
    (fun halts allowed => halts.apply few allowed.1 allowed.2) fun halts aside => halts.note aside
  exact fun system index token => ⟨trivial, fun same => nomatch same⟩

end System

/-! ### Runs -/

theorem Command.IsOrdinary.serves {command : Command} (ordinary : command.IsOrdinary) :
    command.Serves worker items := by
  cases command with
  | take signal =>
      obtain ⟨shared, rfl⟩ := ordinary
      exact fun same => nomatch same
  | createWorker | dropWorker | putJob => exact ordinary.elim
  | _ => trivial

private theorem Action.obeys_serves {action : Action}
    (own : ∀ command, action.own? = some command → command.Serves worker items) :
    action.Obeys (·.Serves worker items) :=
  Action.obeys_of_own (fun _ ordinary => ordinary.serves) (fun _ _ _ => trivial) own

theorem Setup.isFresh (setup : Setup) (worker : Nat) : setup.system.IsFresh worker := by
  refine ⟨setup.jobs_eq_nil worker, ?_⟩
  have made : setup.system.workers.workers.get worker =
      (setup.workers.map fun _ => ({ live := true } : Worker))[worker]?.getD {} := Table.get_ofList _ _ _
  rw [made, List.getElem?_map]
  cases setup.workers[worker]? <;> rfl

private theorem System.Lined.isFresh_createWorker (lined : system.Lined) (worker : Nat)
    (backend : Backend) :
    (system.createWorker worker backend).IsFresh worker := by
  have emptied : (system.createWorker worker backend).jobs = Function.update system.jobs worker [] :=
    (lined.dropWorker worker).1
  refine ⟨?_, ?_⟩
  · rw [emptied, Function.update_self]
  · change (((system.dropWorker worker).workers.workers.set worker { live := true }).get worker).killed =
      false
    rw [Table.get_set_same]

namespace Workers

/-- What a run of a worker asks for since a moment: to block while there are no jobs, unless a run has
returned because of a kill, or to execute a job before the worker was killed. -/
def Timely (first : System) (worker : Nat) (request : Request) (now : System) : Prop :=
  match request with
  | .idle signal =>
    signal = .worker worker ∧ (Stopped worker (now.since first) ∨ now.jobs worker = [])
  | .execute _ => .killed worker ∉ now.since first
  | _ => False

private theorem Wants.timely {request : Request} (wants : Wants worker request last)
    (serves : first.Serves worker items last) : Timely first worker request last := by
  cases request with
  | idle signal =>
      obtain ⟨rfl, none⟩ := wants
      refine ⟨rfl, serves.enough.imp_right fun enough => ?_⟩
      rw [none, Nat.le_zero] at enough
      exact List.length_eq_zero_iff.mp enough
  | execute job =>
      intro killed
      cases (serves.killed.mpr killed).symm.trans wants
  | _ => exact wants.elim

private theorem run_timely (few : items.length ≤ Signal.ceiling) (fresh : first.Serves worker items first)
    (later : Reaches (serves worker items) first world.system) {bound rounds : Nat}
    (meanwhile : (run bound worker rounds).Meanwhile (serves worker items) environment world) :
    (run bound worker rounds).Asks
      (fun request now => Reaches (serves worker items) first now ∧ Timely first worker request now)
      environment world := by
  have strides : (run bound worker rounds).Strides (·.Serves worker items) .nothing :=
    (run_plain bound worker rounds).mono fun _ plain => plain.ordinary.serves
  have reached := strides.asks (fun request before => before.begin (fun _ plain => plain.serves) request)
    meanwhile later
  refine reached.both (run_asks bound rounds) fun request now before wants => ⟨before, ?_⟩
  exact wants.timely (fresh.reaches few before)

/-- No job is stranded. In any run that leaves the signal of a worker to it and gives it jobs out of fewer
than 2^32, the signal has a post for each job in the list, unless a run has returned because the worker was
killed. So an accepted job leaves a post to take, and a run of the worker that blocks has nothing to run,
whatever goes on inside it and wherever it was called. From the kill on no turn takes a job, and no job
starts but by the calls for a single one. -/
theorem jobs_never_stranded {setup : Setup} {system last : System} {worker : Nat} {items : List Nat}
    (run : Reaches anything setup.system system) (fresh : system.IsFresh worker)
    (few : items.length ≤ Signal.ceiling) (later : Reaches (serves worker items) system last) :
    (Stopped worker (last.since system) ∨
      (last.jobs worker).length ≤ (last.signal (.worker worker)).pending) ∧
    (∀ job, (last.putJob worker job).1 = true →
      ((last.putJob worker job).2.signal (.worker worker)).pending ≠ 0) ∧
    (last.signal (.worker worker)).attachment = none ∧
    (∀ {σ : Type} (environment : Environment σ) (outside : σ) (bound rounds : Nat),
      let call := Workers.run bound worker rounds
      let world : World σ := { system := last, outside }
      call.Meanwhile (serves worker items) environment world →
      call.Asks
        (fun request now => Reaches (serves worker items) system now ∧ Timely system worker request now)
        environment world) ∧
    ((last.workers.workers.get worker).killed = true ↔ .killed worker ∈ last.since system) ∧
    (.killed worker ∈ last.since system →
      last.takeTurn worker = (.stop, (last.take (.worker worker)).2.log .workerStopped) ∧
      ∀ now, Reaches (runsOnly worker items) last now → started worker (now.since last) = []) ∧
    (∀ (bound : Nat) (script : Script), script.All (Action.Obeys (·.Serves worker items)) →
      Reaches (serves worker items) last (script.run bound last).2) ∧
    (∀ (bound : Nat) (inside : Interludes), inside.All (Action.Obeys (·.Serves worker items)) →
      let world : World Prompter := { system := last, outside := { cues := inside.cues bound } }
      (Workers.run bound worker bound).Meanwhile (serves worker items) Prompter.environment world) ∧
    (∀ other backend, setup.system.IsFresh other ∧ (system.createWorker other backend).IsFresh other) := by
  have lined := setup.lined.reaches run
  have start : system.Serves worker items system := .of_fresh fresh lined
  have serving := start.reaches few later
  refine ⟨serving.enough, ?_, ?_, ?_, serving.killed, ?_, ?_, ?_, ?_⟩
  · intro job accepted
    have loose := (serving.lined.putJob_accepts worker job).mp accepted
    rw [serving.lined.signal_putJob loose]
    exact Nat.ne_of_gt (Nat.le_min.mpr ⟨Nat.succ_pos _, by decide⟩)
  · have hidden : ∀ shared, SignalRef.worker worker ≠ .shared shared := fun _ same => nomatch same
    exact later.unobserved hidden (run.unobserved hidden (setup.attachment_eq_none _))
  · intro σ environment outside bound rounds call world meanwhile
    exact run_timely few start later meanwhile
  · intro killed
    refine ⟨System.takeTurn_of_killed (serving.killed.mpr killed), fun now onward => ?_⟩
    exact (serving.halts few killed onward).none
  · intro bound script all
    exact all.runs (fun _ obeys => obeys) bound last
  · intro bound inside all world
    exact .of_cues (all.cues (fun _ obeys => obeys) bound)
  · exact fun other backend => ⟨setup.isFresh other, lined.isFresh_createWorker other backend⟩

/-- A job puts itself back while it runs, and another one behind it, and kills the worker. The run returns at
its next turn and leaves both. -/
theorem killed_worker_keeps_jobs :
    let setup : Setup := { workers := [.host], jobs := [(none, {}), (none, {})] }
    let inside : Script := .call (.putJob 0 0) .none <| .call (.putJob 0 1) .none <|
      .call (.killWorker 0) .none .done
    let script : Script := .call (.putJob 0 0) .none <|
      .call (.runWorker 0) (.next inside (.ok ()) .none) .done
    let last := (script.run 9 setup.system).2
    Reaches anything setup.system setup.system ∧ setup.system.IsFresh 0 ∧
      [0, 1].length ≤ Signal.ceiling ∧ Reaches (serves 0 [0, 1]) setup.system last ∧
      last.jobs 0 = [0, 1] ∧ (last.signal (.worker 0)).pending = 2 ∧
      last.takeTurn 0 = (.stop, (last.take (.worker 0)).2.log .workerStopped) := by
  intro setup inside script last
  have run : Reaches anything setup.system setup.system := .refl _
  have fresh : setup.system.IsFresh 0 := setup.isFresh 0
  have few : [0, 1].length ≤ Signal.ceiling := by decide
  have puts : ∀ job ∈ [0, 1], (Action.putJob 0 job).Obeys (·.Serves 0 [0, 1]) := by
    refine fun job item => Action.obeys_serves fun command own => ?_
    cases own
    exact fun _ => item
  have others : ∀ action : Action, action.own? = none → action.Obeys (·.Serves 0 [0, 1]) := by
    refine fun action none => Action.obeys_serves fun command own => ?_
    cases none.symm.trans own
  have within : script.All (Action.Obeys (·.Serves 0 [0, 1])) := by
    have first := puts 0 (by decide)
    have second := puts 1 (by decide)
    have inner : inside.All (Action.Obeys (·.Serves 0 [0, 1])) :=
      ⟨first, trivial, second, trivial, others _ rfl, trivial, trivial⟩
    exact ⟨first, trivial, others _ rfl, ⟨inner, trivial⟩, trivial⟩
  obtain ⟨-, -, -, -, -, -, scripts, -, -⟩ := jobs_never_stranded run fresh few (.refl _)
  have later := scripts 9 script within
  obtain ⟨-, -, -, -, killed, stops, -, -, -⟩ := jobs_never_stranded run fresh few later
  have stopped := stops (killed.mp (by decide +kernel))
  exact ⟨run, fresh, few, later, by decide +kernel, by decide +kernel, stopped.1⟩

end Workers

end TimedWaits
