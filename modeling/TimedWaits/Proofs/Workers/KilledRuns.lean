import TimedWaits.Proofs.Runs.Requests
import TimedWaits.Proofs.Signals.Balance
import TimedWaits.Proofs.Workers.Progress

/-! Runs of a killed worker. Each takes a post before it looks whether the worker was killed, so as many
return at once as there are posts, of the kill itself and of puts and kills since, and the next one blocks.
None of them starts a job. -/

set_option autoImplicit false

namespace TimedWaits

/-- The posts of a worker that no turn has taken yet. -/
def System.posts (system : System) (worker : Nat) : Nat := (system.signal (.worker worker)).pending

/-- A touch that makes a signal anew. -/
def Touch.Renews (reference : SignalRef) : Touch → Prop
  | .renew other _ => other = reference
  | _ => False

/-- A command that neither makes nor drops a worker never makes its signal anew. -/
private theorem Command.touched_kept {command : Command} {worker : Nat} (keeps : command.Keeps worker)
    (system : System) :
    Touched (fun touch => touch.IsOf command ∧ ¬ touch.Renews (.worker worker)) system
      (command.apply system).2 := by
  by_cases about : command.worker? = some worker
  · have start : Touched (fun touch => touch.IsOf command ∧ ¬ touch.Renews (.worker worker)) system
        system := .refl system
    have moves : ∀ fresh, Touch.IsOf command (.workers fresh) := fun _ => ⟨worker, about⟩
    have takes : Touch.IsOf command (.take (.worker worker)) := Or.inr about
    cases command with
    | createWorker other | dropWorker other => exact absurd (Option.some.inj about) keeps
    | putJob other job =>
        cases about
        simp only [apply, System.putJob]
        split
        · exact start.log _ ⟨trivial, not_false⟩
        · exact ((start.touch (.workers _) ⟨moves _, not_false⟩).note (.accepted worker job)
            ⟨rfl, not_false⟩).touch (.raise (.worker worker)) ⟨trivial, not_false⟩
    | nextJob other =>
        cases about
        exact System.touched_nextJob start worker (fun _ => ⟨moves _, not_false⟩)
          (fun _ => ⟨rfl, not_false⟩) fun _ => ⟨trivial, not_false⟩
    | takeTurn other =>
        cases about
        have taken := start.touch (.take (.worker worker)) ⟨takes, not_false⟩
        have next := System.touched_nextJob taken worker (fun _ => ⟨moves _, not_false⟩)
          (fun _ => ⟨rfl, not_false⟩) fun _ => ⟨trivial, not_false⟩
        rw [Touch.apply] at taken next
        simp only [apply, System.takeTurn]
        split
        · exact taken.log _ ⟨trivial, not_false⟩
        · split
          · next idle => rwa [idle] at next
          · next started => rwa [started] at next
    | kill other =>
        cases about
        exact ((start.touch (.workers _) ⟨moves _, not_false⟩).note (.killed worker)
          ⟨rfl, not_false⟩).touch (.raise (.worker worker)) ⟨trivial, not_false⟩
    | _ => cases about
  · refine (command.touched system).mono fun touch own => ⟨own, fun renews => ?_⟩
    cases touch with
    | renew other fresh =>
        cases renews
        exact about own.1
    | _ => exact renews

namespace Workers

variable {worker : Nat} {first middle last system : System}

def raises (worker : Nat) (history : List Occurrence) : Nat :=
  history.countP (Occurrence.isRaise (.worker worker))

def takes (worker : Nat) (history : List Occurrence) : Nat :=
  history.countP (Occurrence.isTake (.worker worker))

end Workers

/-- A command that may call for the attention of a worker. -/
def Command.IsCall : Command → Prop
  | .putJob _ _ | .kill _ => True
  | _ => False

/-- A call for the attention of a worker: a put that was accepted, or a kill. -/
def Occurrence.callsFor (worker : Nat) : Occurrence → Bool
  | .accepted other _ | .killed other => other = worker
  | _ => false

private theorem Command.calls_le_raises {worker : Nat} (command : Command) (system : System) :
    ((command.apply system).2.since system).countP (Occurrence.callsFor worker) ≤
      Workers.raises worker ((command.apply system).2.since system) := by
  have quiet : ¬ command.IsCall →
      ((command.apply system).2.since system).countP (Occurrence.callsFor worker) = 0 := by
    intro silent
    refine command.countP_since (fun occurrence notes => ?_) (fun _ => rfl) (fun _ _ => rfl) system
    cases occurrence with
    | accepted | killed =>
        cases notes
        exact absurd trivial silent
    | _ => rfl
  cases command with
  | putJob other job =>
      simp only [apply, System.putJob]
      split
      · rw [System.log, System.since_record]
        exact Nat.zero_le _
      · have since : ∀ next : System, next.history =
            [.raised (.worker other), .accepted other job] ++ system.history →
            (next.since system).countP (Occurrence.callsFor worker) ≤
              Workers.raises worker (next.since system) := by
          intro next history
          rw [System.since_eq history]
          by_cases same : other = worker <;>
            simp [Workers.raises, Occurrence.isRaise, Occurrence.callsFor, same]
        exact since _ rfl
  | kill other =>
      have since : ((Command.kill other).apply system).2.since system =
          [.raised (.worker other), .killed other] := System.since_eq rfl
      rw [since]
      by_cases same : other = worker <;>
        simp [Workers.raises, Occurrence.isRaise, Occurrence.callsFor, same]
  | _ =>
      rw [quiet not_false]
      exact Nat.zero_le _

namespace System

theorem posts_kill (system : System) (worker : Nat) : (system.kill worker).posts worker ≠ 0 := by
  rw [kill, posts, signal_raise]
  exact Nat.ne_of_gt (Nat.lt_min.mpr ⟨Nat.succ_pos _, by decide⟩)

theorem killed_kill (system : System) {worker : Nat} :
    ((system.kill worker).workers.workers.get worker).killed = true := by
  have keeps : (Command.kill worker).Keeps worker := trivial
  exact (Command.killed_apply keeps).mpr (.inl rfl)

end System

namespace Workers

variable {worker : Nat} {first middle last system : System}

/-- What was raised since an earlier moment and was there then has been taken or is there still, except
that raises at the ceiling are lost. -/
structure Spends (worker : Nat) (first last : System) : Prop where
  continues : last.Continues first
  atLeast : min (first.posts worker + raises worker (last.since first)) Signal.ceiling ≤
    last.posts worker + takes worker (last.since first)
  atMost : last.posts worker + takes worker (last.since first) ≤
    first.posts worker + raises worker (last.since first)

namespace Spends

/-- A change that adds to the history nothing but what it makes of the posts. -/
theorem of_recent (recent : List Occurrence) (history : last.history = recent ++ first.history)
    (atLeast : min (first.posts worker + raises worker recent) Signal.ceiling ≤
      last.posts worker + takes worker recent)
    (atMost : last.posts worker + takes worker recent ≤ first.posts worker + raises worker recent) :
    Spends worker first last := by
  have since := System.since_eq history
  exact ⟨⟨recent, history.symm⟩, since.symm ▸ atLeast, since.symm ▸ atMost⟩

theorem of_same (recent : List Occurrence) (history : last.history = recent ++ first.history)
    (same : last.posts worker = first.posts worker)
    (quiet : raises worker recent = 0 ∧ takes worker recent = 0) : Spends worker first last := by
  refine of_recent recent history ?_ ?_
  · rw [same, quiet.1, quiet.2]
    exact Nat.min_le_left _ _
  · rw [same, quiet.1, quiet.2]

theorem refl (system : System) : Spends worker system system :=
  of_same [] (List.nil_append _).symm rfl ⟨rfl, rfl⟩

theorem trans (before : Spends worker first middle) (after : Spends worker middle last) :
    Spends worker first last := by
  have since := before.continues.since_trans after.continues
  have raised : raises worker (last.since first) =
      raises worker (last.since middle) + raises worker (middle.since first) := by
    rw [since, raises, List.countP_append]
    rfl
  have taken : takes worker (last.since first) =
      takes worker (last.since middle) + takes worker (middle.since first) := by
    rw [since, takes, List.countP_append]
    rfl
  obtain ⟨onward, lower, upper⟩ := before
  obtain ⟨further, lowerAfter, upperAfter⟩ := after
  refine ⟨onward.trans further, ?_, ?_⟩ <;> rw [raised, taken] <;> omega

private theorem touch {command : Command} {touch : Touch} (own : touch.IsOf command)
    (keeps : ¬ touch.Renews (.worker worker)) (system : System) :
    Spends worker system (touch.apply system) := by
  have still : ∀ {reference : SignalRef} {fresh : Signal}, reference ≠ .worker worker →
      (system.setSignal reference fresh).posts worker = system.posts worker := by
    intro reference fresh differ
    rw [System.posts, System.signal_setSignal, if_neg differ.symm, System.posts]
  have shared : ∀ index, SignalRef.shared index ≠ .worker worker := fun _ same => by cases same
  cases touch with
  | note occurrence =>
      refine of_same [occurrence] rfl rfl ?_
      cases occurrence <;> first | exact ⟨rfl, rfl⟩ | exact own.elim
  | raise reference =>
      by_cases same : reference = .worker worker
      · subst same
        have raised : (system.raise (.worker worker)).posts worker =
            min (system.posts worker + 1) Signal.ceiling := by
          rw [System.posts, System.signal_raise]
          rfl
        have counted : raises worker [.raised (.worker worker)] = 1 := by
          simp [raises, Occurrence.isRaise]
        have untaken : takes worker [.raised (.worker worker)] = 0 := rfl
        refine of_recent [.raised (.worker worker)] rfl ?_ ?_ <;>
          rw [Touch.apply, raised, counted, untaken]
        · exact Nat.le_refl _
        · exact Nat.min_le_left _ _
      · exact of_same [.raised reference] rfl (still same)
          ⟨by simp [raises, Occurrence.isRaise, same], rfl⟩
  | take reference =>
      rcases system.take_cases reference with ⟨-, refused⟩ | ⟨taken, took, fewer, history⟩
      · rw [Touch.apply, refused]
        exact refl system
      · by_cases same : reference = .worker worker
        · subst same
          have counted : takes worker [.took (.worker worker)] = 1 := by
            simp [takes, Occurrence.isTake]
          have unraised : raises worker [.took (.worker worker)] = 0 := rfl
          have spent : taken.posts worker + 1 = system.posts worker := fewer
          rw [Touch.apply, took]
          refine of_recent [.took (.worker worker)] history ?_ ?_ <;>
            rw [counted, unraised]
          · exact Nat.le_trans (Nat.min_le_left _ _) spent.ge
          · exact spent.le
        · have kept : (system.take reference).2.posts worker = system.posts worker := by
            unfold System.take
            split
            · rfl
            · exact still same
          rw [took] at kept
          rw [Touch.apply, took]
          exact of_same [.took reference] history kept
            ⟨rfl, by simp [takes, Occurrence.isTake, same]⟩
  | renew reference fresh => exact of_same [] rfl (still keeps) ⟨rfl, rfl⟩
  | attach index observer token =>
      simp only [Touch.apply, System.attach]
      split
      · exact of_same [.logged .observerRefused] rfl rfl ⟨rfl, rfl⟩
      · exact of_same [] rfl (still (shared index)) ⟨rfl, rfl⟩
  | detach index observer =>
      simp only [Touch.apply, System.detach]
      split
      · exact of_same [] rfl rfl ⟨rfl, rfl⟩
      · exact of_same [] rfl (still (shared index)) ⟨rfl, rfl⟩
  | _ => exact of_same [] rfl rfl ⟨rfl, rfl⟩

private theorem apply (spends : Spends worker first last) {command : Command}
    (keeps : command.Keeps worker) :
    Spends worker first (command.apply last).2 :=
  (command.touched_kept keeps last).preserves (motive := Spends worker first) spends
    fun allowed kept => kept.trans (touch allowed.1 allowed.2 _)

private theorem note (spends : Spends worker first last) {occurrence : Occurrence}
    (aside : occurrence.IsAside) :
    Spends worker first (last.record occurrence) := by
  refine spends.trans (of_same [occurrence] rfl rfl ?_)
  cases occurrence <;> first | exact ⟨rfl, rfl⟩ | exact aside.elim

private theorem reaches (run : Reaches (keeps worker) first last) : Spends worker first last :=
  run.preserves_apply (motive := Spends worker first) (refl first) (fun _ _ _ => trivial)
    (fun kept allowed => kept.apply allowed) fun kept aside => kept.note aside

end Spends

/-- Each accepted put and each kill raises the worker's signal. -/
private theorem calls_le_raises (run : Reaches (keeps worker) first last) :
    (last.since first).countP (Occurrence.callsFor worker) ≤ raises worker (last.since first) := by
  have start : (first.since first).countP (Occurrence.callsFor worker) ≤
      raises worker (first.since first) := by
    have none : first.since first = [] := System.since_eq rfl
    rw [none]
    exact Nat.le_refl _
  have grows : ∀ {middle next : System}, middle.Continues first → next.Continues middle →
      (middle.since first).countP (Occurrence.callsFor worker) ≤ raises worker (middle.since first) →
      (next.since middle).countP (Occurrence.callsFor worker) ≤ raises worker (next.since middle) →
      (next.since first).countP (Occurrence.callsFor worker) ≤ raises worker (next.since first) := by
    intro middle next before after former recent
    rw [before.since_trans after, raises, List.countP_append, List.countP_append]
    exact Nat.add_le_add recent former
  refine (run.preserves_apply (motive := fun system => system.Continues first ∧
    (system.since first).countP (Occurrence.callsFor worker) ≤ raises worker (system.since first))
    ⟨.refl first, start⟩ (fun _ _ _ => trivial) ?_ ?_).2
  · intro system command kept _
    have onward := (System.Continues.refl system).apply command
    exact ⟨kept.1.trans onward, grows kept.1 onward kept.2 (command.calls_le_raises system)⟩
  · intro system occurrence kept aside
    have onward := (System.Continues.refl system).record occurrence
    refine ⟨kept.1.trans onward, grows kept.1 onward kept.2 ?_⟩
    rw [System.since_record]
    cases occurrence <;> first | exact Nat.le_refl _ | exact aside.elim

/-! ### Runs after a kill -/

/-- A worker that was killed stays so. -/
theorem killed_reaches (killed : (first.workers.workers.get worker).killed = true)
    (run : Reaches (keeps worker) first last) : (last.workers.workers.get worker).killed = true :=
  run.preserves_apply (motive := fun system => (system.workers.workers.get worker).killed = true) killed
    (fun _ _ _ => trivial) (fun kept allowed => (Command.killed_apply allowed).mpr (.inr kept))
    fun kept _ => kept

end Workers

/-- A call comes to its end by itself: it asks its surroundings for nothing, neither to block nor to run
anything. -/
def Activity.ReturnsAtOnce {σ : Type} (environment : Environment σ) (activity : Activity Unit)
    (world : World σ) : Prop :=
  activity.Asks (fun _ _ => False) environment world ∧
    ∃ after, activity.run environment world = (.ok (), after)

namespace Workers

open Activity

variable {σ : Type} {environment : Environment σ} {world : World σ} {worker : Nat}

/-- What a run does each time it has waited for a post. -/
def turn (bound worker rounds : Nat) : Activity Unit := do
  match ← .perform (.takeTurn worker) with
  | .stop => return ()
  | .idle => run bound worker rounds
  | .run job =>
    .request (.execute job)
    run bound worker rounds

theorem run_succ (bound worker rounds : Nat) :
    run bound worker (rounds + 1) =
      ((SignalRef.worker worker).awaitPost bound >>= fun _ => turn bound worker rounds) := rfl

/-- A turn of a killed worker takes a post and ends the run, whatever the surroundings are. -/
theorem turn_stops (environment : Environment σ)
    (killed : (world.system.workers.workers.get worker).killed = true) (bound rounds : Nat) :
    (turn bound worker rounds).run environment world =
        (.ok (), { world with system := (world.system.take (.worker worker)).2.log .workerStopped }) ∧
      ∀ condition, (turn bound worker rounds).Asks condition environment world := by
  have stops : (Command.takeTurn worker).apply world.system =
      (.stop, (world.system.take (.worker worker)).2.log .workerStopped) :=
    System.takeTurn_of_killed killed
  refine ⟨?_, fun condition => ?_⟩
  · change Activity.run environment (.act (.takeTurn worker) _) world = _
    rw [Activity.run, World.apply, stops]
    rfl
  · change Activity.Asks condition environment (.act (.takeTurn worker) _) world
    rw [Activity.Asks, World.apply, stops]
    trivial

private theorem run_of_post (posted : world.system.posts worker ≠ 0) (bound rounds : Nat) :
    (run (bound + 1) worker (rounds + 1)).run environment world =
      (turn (bound + 1) worker rounds).run environment world := by
  rw [run_succ, run_bind, SignalRef.awaitPost_run_of_post posted]

/-- A run of a killed worker returns at once if there is a post, and else blocks first. -/
theorem killed_run_of_post (killed : (world.system.workers.workers.get worker).killed = true)
    (posted : world.system.posts worker ≠ 0) (bound rounds : Nat) :
    (run (bound + 1) worker (rounds + 1)).run environment world =
        (.ok (), { world with system := (world.system.take (.worker worker)).2.log .workerStopped }) ∧
      (run (bound + 1) worker (rounds + 1)).ReturnsAtOnce environment world := by
  have some : (world.system.signal (.worker worker)).pending ≠ 0 := posted
  obtain ⟨ran, asks⟩ := turn_stops environment killed (bound + 1) rounds
  have returned := ran
  rw [← run_of_post posted] at returned
  refine ⟨returned, ?_, _, returned⟩
  rw [run_succ]
  refine .bind ?_ fun _ ready waited => ?_
  · rw [SignalRef.awaitPost_succ, Activity.Asks, if_neg some]
    trivial
  · rw [SignalRef.awaitPost_run_of_post posted] at waited
    obtain ⟨-, rfl⟩ := Prod.mk.inj waited
    exact asks _

theorem run_blocks (none : world.system.posts worker = 0) (bound rounds : Nat) :
    ¬ (run (bound + 1) worker (rounds + 1)).Asks
      (fun request _ => request ≠ .idle (.worker worker)) environment world := by
  intro asks
  change Activity.Asks _ _ ((if world.system.posts worker = 0 then
    Activity.request (.idle (.worker worker)) >>= fun _ => (SignalRef.worker worker).awaitPost bound
    else .done ()) >>= fun _ => turn (bound + 1) worker rounds) world at asks
  rw [if_pos none] at asks
  exact asks.1 rfl

private theorem killed_run_returnsAtOnce_iff
    (killed : (world.system.workers.workers.get worker).killed = true) (bound rounds : Nat) :
    (run (bound + 1) worker (rounds + 1)).ReturnsAtOnce environment world ↔
      world.system.posts worker ≠ 0 := by
  refine ⟨fun returns none => ?_, fun posted => (killed_run_of_post killed posted bound rounds).2⟩
  exact run_blocks none bound rounds (returns.1.mono fun _ _ => False.elim)

/-- Whatever others do while a run of a killed worker is blocked, it executes nothing, and if it returns
it has taken a post of the state it was woken in and changed nothing else. -/
private theorem killed_run_blocked (killed : (world.system.workers.workers.get worker).killed = true)
    {bound rounds : Nat}
    (meanwhile : (run bound worker rounds).Meanwhile (keeps worker) environment world) :
    (run bound worker rounds).Asks
        (fun request now => request = .idle (.worker worker) ∧ now.posts worker = 0) environment world ∧
      ∀ after, (run bound worker rounds).run environment world = (.ok (), after) →
        ∃ ready, Reaches (keeps worker) world.system ready ∧ ready.posts worker ≠ 0 ∧
          after.system = (ready.take (.worker worker)).2.log .workerStopped ∧
          after.system.jobs = ready.jobs := by
  cases rounds with
  | zero =>
      refine ⟨trivial, fun after returned => ?_⟩
      cases returned
  | succ rounds =>
      rw [run_succ] at meanwhile ⊢
      have waiting := (meanwhile_bind.mp meanwhile).1
      have uses : ((SignalRef.worker worker).awaitPost bound).Uses (fun _ => False)
          (· = .idle (.worker worker)) := .awaitPost _ _ rfl
      have reached : Reaches (keeps worker) world.system
          (((SignalRef.worker worker).awaitPost bound).run environment world).2.system := by
        refine uses.preserves (motive := fun system => Reaches (keeps worker) world.system system)
          waiting (.refl _) (fun _ => False.elim) ?_ fun before onward => before.trans onward
        rintro system _ before rfl
        exact before.note _ trivial
      have stays := killed_reaches killed reached
      refine ⟨.bind (SignalRef.awaitPost_asks _ bound) fun _ ready waited => ?_, fun after returned => ?_⟩
      · rw [waited] at stays
        exact (turn_stops _ stays bound rounds).2 _
      · obtain ⟨_, ready, waited, onward⟩ := run_bind_ok returned
        rw [waited] at stays reached
        rw [(turn_stops _ stays bound rounds).1] at onward
        obtain ⟨-, rfl⟩ := Prod.mk.inj onward
        refine ⟨ready.system, reached, SignalRef.awaitPost_ok waited, rfl, ?_⟩
        exact ready.system.jobs_take (.worker worker)

/-- Once a worker was killed, its runs return at once exactly as long as its signal has posts. These are
the posts it had after the kill and those raised since, one for each accepted put and each further kill,
less one for each turn that ended a run, where raises at the ceiling are lost. So the first run after a
kill returns at once, and the next one blocks unless something was posted. A run that returns at once asks
for nothing and leaves the jobs as they were, and one that blocks starts no job either. -/
theorem killed_runs_spend_posts (before : System) {last : System} {worker : Nat}
    (later : Reaches (keeps worker) (before.kill worker) last) :
    let since := last.since (before.kill worker)
    let given := (before.kill worker).posts worker + raises worker since
    let stops := takes worker since
    (last.workers.workers.get worker).killed = true ∧
    (0 < (before.kill worker).posts worker ∧
      since.countP (Occurrence.callsFor worker) ≤ raises worker since) ∧
    (min given Signal.ceiling ≤ last.posts worker + stops ∧ last.posts worker + stops ≤ given) ∧
    (∀ {σ : Type} (environment : Environment σ) (outside : σ) (bound rounds : Nat),
      let call := Workers.run (bound + 1) worker (rounds + 1)
      let world : World σ := { system := last, outside }
      let after : World σ :=
        { system := (last.take (.worker worker)).2.log .workerStopped, outside }
      (call.ReturnsAtOnce environment world ↔ last.posts worker ≠ 0) ∧
      (given ≤ Signal.ceiling → (call.ReturnsAtOnce environment world ↔ stops < given)) ∧
      (stops = 0 → call.ReturnsAtOnce environment world) ∧
      (call.ReturnsAtOnce environment world →
        call.run environment world = (.ok (), after) ∧ after.system.jobs = last.jobs) ∧
      (¬ call.ReturnsAtOnce environment world →
        ¬ call.Asks (fun request _ => request ≠ .idle (.worker worker)) environment world)) ∧
    (∀ {σ : Type} (environment : Environment σ) (outside : σ) (bound rounds : Nat),
      let call := Workers.run bound worker rounds
      let world : World σ := { system := last, outside }
      call.Meanwhile (keeps worker) environment world →
      call.Asks (fun request now => request = .idle (.worker worker) ∧ now.posts worker = 0)
          environment world ∧
        ∀ after, call.run environment world = (.ok (), after) →
          ∃ ready, Reaches (keeps worker) last ready ∧ ready.posts worker ≠ 0 ∧
            after.system = (ready.take (.worker worker)).2.log .workerStopped ∧
            after.system.jobs = ready.jobs) ∧
    (∀ (bound : Nat) (script : Script), script.All (Action.Obeys (·.Keeps worker)) →
      Reaches (keeps worker) last (script.run bound last).2) := by
  intro since given stops
  have killed := killed_reaches before.killed_kill later
  have posted : 0 < (before.kill worker).posts worker := Nat.pos_of_ne_zero (before.posts_kill worker)
  obtain ⟨-, atLeast, atMost⟩ := Spends.reaches later
  refine ⟨killed, ⟨posted, calls_le_raises later⟩, ⟨atLeast, atMost⟩, ?_, ?_, ?_⟩
  · intro σ environment outside bound rounds call world after
    have returns : call.ReturnsAtOnce environment world ↔ last.posts worker ≠ 0 :=
      killed_run_returnsAtOnce_iff killed bound rounds
    refine ⟨returns, fun below => ?_, fun none => ?_, fun atOnce => ⟨?_, ?_⟩, fun blocks => ?_⟩
    · rw [returns]
      change min given Signal.ceiling ≤ last.posts worker + stops at atLeast
      change last.posts worker + stops ≤ given at atMost
      rw [Nat.min_eq_left below] at atLeast
      omega
    · rw [returns]
      change min given Signal.ceiling ≤ last.posts worker + stops at atLeast
      have some : 0 < min given Signal.ceiling :=
        Nat.lt_min.mpr ⟨Nat.add_pos_left posted _, by decide⟩
      omega
    · exact (killed_run_of_post killed (returns.mp atOnce) bound rounds).1
    · exact last.jobs_take (.worker worker)
    · exact run_blocks (not_ne_iff.mp (returns.not.mp blocks)) bound rounds
  · intro σ environment outside bound rounds call world meanwhile
    exact killed_run_blocked killed meanwhile
  · exact fun bound script all => all.runs (fun _ obeys => obeys) bound last

/-- A worker is killed and given a job after that. Its first run returns, and so does the second, both
leaving the job where it is. -/
theorem put_after_kill_frees_second_run :
    let setup : Setup := { workers := [.host], jobs := [(none, {})] }
    let script : Script := .call (.putJob 0 0) .none <| .call (.runWorker 0) .none .done
    let killed := setup.system.kill 0
    let last := (script.run 9 killed).2
    let world : World Unit := { system := last, outside := () }
    let surroundings : Environment Unit := fun _ world => (.error .exhausted, world)
    Reaches (keeps 0) killed last ∧ takes 0 (last.since killed) = 1 ∧ last.jobs 0 = [0] ∧
      ∃ after, (Workers.run 9 0 9).run surroundings world = (.ok (), after) ∧
        after.system.jobs 0 = [0] := by
  intro setup script killed last world surroundings
  have puts : (Action.putJob 0 0).Obeys (·.Keeps 0) := by
    refine Action.obeys_keeps fun command own => ?_
    cases own
    trivial
  have runs : (Action.runWorker 0).Obeys (·.Keeps 0) := by
    refine Action.obeys_keeps fun command own => ?_
    cases own
  have within : script.All (Action.Obeys (·.Keeps 0)) := ⟨puts, trivial, runs, trivial, trivial⟩
  obtain ⟨-, -, -, -, -, scripts⟩ := killed_runs_spend_posts setup.system (.refl (setup.system.kill 0))
  have later : Reaches (keeps 0) killed last := scripts 9 script within
  obtain ⟨-, -, -, atOnce, -, -⟩ := killed_runs_spend_posts setup.system later
  have jobs : last.jobs 0 = [0] := by decide +kernel
  have posts : last.posts 0 ≠ 0 := by decide +kernel
  obtain ⟨returns, -, -, ends, -⟩ := atOnce surroundings () 8 8
  obtain ⟨ran, same⟩ := ends (returns.mpr posts)
  exact ⟨later, by decide +kernel, jobs, _, ran, by rw [same, jobs]⟩

/-- A worker is killed once and run twice. The first run returns, and the second one blocks. -/
theorem second_run_after_kill_blocks :
    let setup : Setup := { workers := [.host], jobs := [] }
    let killed := setup.system.kill 0
    let first : World Unit := { system := killed, outside := () }
    let surroundings : Environment Unit := fun _ world => (.error .exhausted, world)
    ∃ second, Reaches (keeps 0) killed second.system ∧
      (Workers.run 9 0 9).run surroundings first = (.ok (), second) ∧
      ¬ (Workers.run 9 0 9).ReturnsAtOnce surroundings second := by
  intro setup killed first surroundings
  have stopped : (first.system.workers.workers.get 0).killed = true := setup.system.killed_kill
  have posted : first.system.posts 0 ≠ 0 := setup.system.posts_kill 0
  let second : World Unit :=
    { first with system := (killed.take (.worker 0)).2.log .workerStopped }
  have ran : (Workers.run 9 0 9).run surroundings first = (.ok (), second) :=
    (killed_run_of_post stopped posted 8 8).1
  refine ⟨second, ?_, ran, fun atOnce => ?_⟩
  · have turn : ¬ (Command.takeTurn 0).IsPost := fun post => post
    exact (Reaches.refl killed).apply turn trivial
  · refine run_blocks ?_ 8 8 (atOnce.1.mono fun _ _ => False.elim)
    decide +kernel

end Workers

end TimedWaits
