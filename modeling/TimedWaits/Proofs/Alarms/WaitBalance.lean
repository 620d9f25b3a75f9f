import TimedWaits.Proofs.Alarms.TimedWaits

/-! The balance of a timed wait. What the count of its signal comes to when the wait returns, and when it
returns without a post of somebody else. -/

set_option autoImplicit false

namespace TimedWaits

theorem Command.postsBy_apply {command : Command} (silent : ¬ command.IsPost) (alarm : Nat)
    (system : System) : (command.apply system).2.postsBy alarm = system.postsBy alarm := by
  have none : ((command.apply system).2.since system).countP (Occurrence.isPostBy alarm) = 0 := by
    refine command.countP_since ?_ (fun _ => rfl) (fun _ _ => rfl) system
    intro occurrence noted
    cases occurrence with
    | posted signal poster =>
        cases poster with
        | none => rfl
        | some other =>
            obtain ⟨queue, now, rfl⟩ := noted
            exact absurd trivial silent
    | _ => rfl
  have grown := ((System.Continues.refl system).apply command).since_append
  rw [System.postsBy, ← grown, List.countP_append, none, Nat.zero_add, System.postsBy]

private theorem System.signals_dropAlarm (system : System) (alarm : Nat) :
    (system.dropAlarm alarm).signals = system.signals := by
  simp only [dropAlarm]
  split <;> rfl

private theorem System.signals_withdrawAlarm (system : System) (queue alarm : Nat) :
    (system.withdrawAlarm queue alarm).2.signals = system.signals := by
  simp only [withdrawAlarm]
  split <;> rfl

namespace Alarms

/-- The alarm of a wait on a queue was fired since a given moment, at a tick at which its deadline was
due. -/
structure TimedOut (alarm queue : Nat) (deadline : Tick) (start system : System) : Prop where
  belongs : (system.ledger.alarm alarm).queue = queue
  ends : system.ledger.deadline alarm = deadline
  fired : ∃ tick, .fired alarm tick ∈ system.since start ∧ Tick.isDue deadline tick = true

variable {alarm queue signal : Nat} {deadline : Tick} {start system : System}

theorem TimedOut.apply (timedOut : TimedOut alarm queue deadline start system)
    (threaded : system.Threaded) (exist : alarm < system.ledger.count) (continues : system.Continues start)
    (command : Command) : TimedOut alarm queue deadline start (command.apply system).2 := by
  have onward := (System.Continues.refl system).apply command
  have extend := (command.step_apply threaded).1.extends
  obtain ⟨belongs, ends, tick, fired, due⟩ := timedOut
  refine ⟨(extend.queue alarm exist).trans belongs, (extend.deadline alarm exist).trans ends, tick, ?_,
    due⟩
  rw [continues.since_trans onward]
  exact List.mem_append_right _ fired

theorem TimedOut.of_later {first : System} (timedOut : TimedOut alarm queue deadline start system)
    (before : start.Continues first) (continues : system.Continues start) :
    TimedOut alarm queue deadline first system := by
  obtain ⟨belongs, ends, tick, fired, due⟩ := timedOut
  refine ⟨belongs, ends, tick, ?_, due⟩
  rw [before.since_trans continues]
  exact List.mem_append_left _ fired

theorem Tracked.timedOut (tracked : Tracked alarm queue deadline start system)
    (elapsed : Elapsed alarm deadline start system) : TimedOut alarm queue deadline start system :=
  ⟨tracked.belongs, tracked.ends, elapsed.fired⟩

/-- How things are when a wait that began in a given system is over, whatever became of its signal. -/
structure Ended (alarm queue : Nat) (deadline : Tick) (start : System) (woken : Bool) (system : System) :
    Prop where
  threaded : system.Threaded
  sound : system.ledger.Sound
  exist : alarm < system.ledger.count
  continues : system.Continues start
  posts : woken.toNat + system.postsBy alarm = 1
  timedOut : woken = false → TimedOut alarm queue deadline start system

theorem Ended.apply {woken : Bool} (ended : Ended alarm queue deadline start woken system)
    {command : Command} (silent : ¬ command.IsPost) (proper : system.ledger.Proper command) :
    Ended alarm queue deadline start woken (command.apply system).2 := by
  obtain ⟨step, kept⟩ := command.step_apply ended.threaded
  refine ⟨kept, ended.sound.step step proper, Nat.lt_of_lt_of_le ended.exist step.extends.count,
    ended.continues.trans ((System.Continues.refl system).apply command), ?_, fun unwoken => ?_⟩
  · rw [command.postsBy_apply silent]
    exact ended.posts
  · exact (ended.timedOut unwoken).apply ended.threaded ended.exist ended.continues command

/-- Taking the alarm of a wait off its queue tells whether it fired. -/
theorem Tracked.ended (tracked : Tracked alarm queue deadline start system) :
    Ended alarm queue deadline start (system.withdrawAlarm queue alarm).1
      (system.withdrawAlarm queue alarm).2 := by
  rcases tracked.state with stands | elapsed
  · obtain ⟨lists, removed, -⟩ := LinkedLists.Spells.remove? tracked.threaded stands.queued
    change system.alarms.lists.remove? queue alarm = some lists at removed
    have found : (system.withdrawAlarm queue alarm).1 = true := by rw [System.withdrawAlarm, removed]
    have before : Ended alarm queue deadline start true system :=
      ⟨tracked.threaded, tracked.sound, tracked.exist, tracked.continues, by rw [stands.silent]; rfl,
        by rintro ⟨⟩⟩
    rw [found]
    exact @Ended.apply _ _ _ _ _ _ before (.withdrawAlarm queue alarm) not_false trivial
  · have absent := LinkedLists.Spells.remove?_eq_none tracked.threaded (elapsed.loose queue)
    change system.alarms.lists.remove? queue alarm = none at absent
    have applied : system.withdrawAlarm queue alarm = (false, system) := by
      rw [System.withdrawAlarm, absent]
    rw [applied]
    exact ⟨tracked.threaded, tracked.sound, tracked.exist, tracked.continues, by rw [elapsed.posted]; rfl,
      fun _ => tracked.timedOut elapsed⟩

/-- How things are when a wait that began in a given system is over. -/
structure Settled (alarm queue signal : Nat) (deadline : Tick) (start : System) (woken : Bool)
    (system : System) : Prop where
  threaded : system.Threaded
  exist : alarm < system.ledger.count
  continues : system.Continues start
  below : system.pending signal < Signal.ceiling
  excess : system.excess signal = start.excess signal
  posts : woken.toNat + system.postsBy alarm = 1
  timedOut : woken = false → TimedOut alarm queue deadline start system

private theorem Settled.apply {woken : Bool}
    (settled : Settled alarm queue signal deadline start woken system)
    (command : Command) (silent : ¬ command.IsPost)
    (same : (command.apply system).2.signals = system.signals) :
    Settled alarm queue signal deadline start woken (command.apply system).2 := by
  have onward := (System.Continues.refl system).apply command
  have below : (command.apply system).2.pending signal < Signal.ceiling := by
    have kept := settled.below
    rw [System.pending, System.signal] at kept ⊢
    rwa [same]
  obtain ⟨step, kept⟩ := command.step_apply settled.threaded
  refine ⟨kept, Nat.lt_of_lt_of_le settled.exist step.extends.count, settled.continues.trans onward,
    below, (command.excess_apply system below).trans settled.excess, ?_, fun unwoken => ?_⟩
  · rw [command.postsBy_apply silent]
    exact settled.posts
  · exact (settled.timedOut unwoken).apply settled.threaded settled.exist settled.continues command

/-- A wait that stays below the ceiling of its signal settles when it takes its alarm off. -/
private theorem Tracked.withdraw (tracked : Tracked alarm queue deadline start system)
    (below : system.pending signal < Signal.ceiling)
    (excess : system.excess signal = start.excess signal) :
    Settled alarm queue signal deadline start (system.withdrawAlarm queue alarm).1
      (system.withdrawAlarm queue alarm).2 := by
  have ended := tracked.ended
  have stays : (system.withdrawAlarm queue alarm).2.pending signal < Signal.ceiling := by
    rw [System.pending, System.signal] at below ⊢
    rwa [System.signals_withdrawAlarm]
  have same := (Command.withdrawAlarm queue alarm).excess_apply system stays
  exact ⟨ended.threaded, ended.exist, ended.continues, stays, same.trans excess, ended.posts, ended.timedOut⟩

private theorem Blocked.settle (blocked : Blocked alarm queue signal deadline start system)
    (some : system.pending signal ≠ 0) :
    let taken := (system.take (.shared signal)).2
    Settled alarm queue signal deadline start (taken.withdrawAlarm queue alarm).1
        (taken.withdrawAlarm queue alarm).2 ∧
      (taken.since system).countP (Occurrence.isTake (.shared signal)) = 1 := by
  intro taken
  obtain ⟨last, applied, pending, history⟩ := System.take_of_pending some
  have same : taken = last := by rw [show taken = (system.take (.shared signal)).2 from rfl, applied]
  have tracked : Tracked alarm queue deadline start taken :=
    blocked.toTracked.apply (.take (.shared signal)) trivial not_false
  have below : taken.pending signal < Signal.ceiling := by
    have counts := blocked.counts.2
    rw [same]
    omega
  refine ⟨tracked.withdraw below (System.excess_take.trans blocked.excess), ?_⟩
  have grown := ((System.Continues.refl system).apply (.take (.shared signal))).since_append
  change taken.since system ++ system.history = taken.history at grown
  rw [same, history] at grown
  have one : last.since system = [.took (.shared signal)] :=
    List.append_cancel_right grown
  rw [same, one]
  simp [Occurrence.isTake]

/-! ### The run of a wait -/

variable {σ : Type} {environment : Environment σ} {world after : World σ} {bound : Nat} {woken : Bool}
  {noted : List Occurrence}

/-- What a wait does with its alarm. -/
def blockedWait (bound queue signal alarm : Nat) : Activity Bool := do
  discard <| add queue alarm
  (SignalRef.shared signal).wait bound
  .perform (.withdrawAlarm queue alarm)

theorem waitUntil_eq (bound queue signal : Nat) (deadline : Tick) :
    waitUntil bound queue (.shared signal) deadline = .look fun system =>
      if Tick.isDue deadline (system.queueNow queue) then .done false
      else .act (.createAlarm queue (.shared signal) deadline false) fun alarm =>
        (blockedWait bound queue signal alarm).ensuring (.dropAlarm alarm) := rfl

private theorem blockedWait_settles (threaded : world.system.Threaded) (sound : world.system.ledger.Sound)
    (counts : world.system.CountsPosts signal)
    (returns : (blockedWait bound queue signal world.system.ledger.count).Returns
      (undisturbed world.system.ledger.count signal) environment
      { world with system := made queue signal deadline world.system } woken after noted) :
    Settled world.system.ledger.count queue signal deadline world.system woken after.system ∧
      noted.countP (Occurrence.isTake (.shared signal)) = 1 := by
  obtain ⟨_, afterAdd, notedAdd, _, adding, onward, rfl⟩ := returns.bind
  obtain ⟨_, afterWait, _, notedEnd, waiting, withdrawing, rfl⟩ := onward.bind
  obtain ⟨_, ready, notedAwait, notedTake, awaiting, taking, rfl⟩ := waiting.bind
  obtain ⟨_, adding⟩ := adding.discard
  obtain ⟨_, taking⟩ := taking.discard
  obtain ⟨-, rfl, rfl⟩ := taking.perform
  obtain ⟨rfl, rfl, rfl⟩ := withdrawing.perform
  obtain ⟨blockedAdd, noneAdd⟩ := add_blocked threaded sound counts adding
  obtain ⟨blocked, noneAwait⟩ := blockedAdd.pause (.awaitPost _ bound trivial) awaiting
  obtain ⟨settled, one⟩ := blocked.settle (SignalRef.awaitPost_ok awaiting.run)
  have none := takes_since signal (.withdrawAlarm queue world.system.ledger.count) (by simp)
    (ready.system.take (.shared signal)).2
  refine ⟨settled, ?_⟩
  simp only [List.countP_append, noneAdd, noneAwait, Nat.add_zero]
  exact (congrArg (· + _) none).trans ((Nat.zero_add _).trans one)

/-- A wait that blocks settles, and takes one post itself. -/
private theorem waitUntil_settles (returns : (waitUntil bound queue (.shared signal) deadline).Returns
      (undisturbed world.system.ledger.count signal) environment world woken after noted)
    (threaded : world.system.Threaded) (sound : world.system.ledger.Sound)
    (counts : world.system.CountsPosts signal)
    (ahead : Tick.isDue deadline (world.system.queueNow queue) = false) :
    Settled world.system.ledger.count queue signal deadline world.system woken after.system ∧
      noted.countP (Occurrence.isTake (.shared signal)) = 1 := by
  rw [waitUntil_eq] at returns
  have making := returns.look
  rw [ahead, if_neg Bool.false_ne_true] at making
  obtain ⟨later, ensured, rfl⟩ := making.act
  obtain ⟨last, before, waiting, rfl, rfl⟩ := ensured.ensuring
  obtain ⟨settled, one⟩ := blockedWait_settles threaded sound counts waiting
  have dropped := settled.apply (.dropAlarm world.system.ledger.count) not_false
    (System.signals_dropAlarm last.system world.system.ledger.count)
  have noneDrop := takes_since signal (.dropAlarm world.system.ledger.count) (by simp) last.system
  have noneMake := takes_since signal (.createAlarm queue (.shared signal) deadline false) (by simp)
    world.system
  refine ⟨dropped, ?_⟩
  simp only [List.countP_append, noneMake, Nat.add_zero]
  exact (congrArg (· + _) noneDrop).trans ((Nat.zero_add _).trans one)

/-! ### The books -/

/-- The count of a signal after a wait, with the posts that others took and the one that the wait
reports, is what it was before with all raises but those by the alarm of the wait. That alarm posts
at most once, and not at all if the wait reports a post. -/
structure Balances (wait : Activity Bool) (environment : Environment σ) (alarm signal : Nat)
    (world : World σ) (woken : Bool) (after : World σ) : Prop where
  balance : after.system.pending signal +
        (wait.occurrences .others environment world).countP (Occurrence.isTake (.shared signal)) +
        woken.toNat + (after.system.since world.system).countP (Occurrence.isPostBy alarm) =
      world.system.pending signal +
        (after.system.since world.system).countP (Occurrence.isRaise (.shared signal))
  own : woken.toNat + (after.system.since world.system).countP (Occurrence.isPostBy alarm) ≤ 1

theorem countP_since {first last : System} (continues : last.Continues first)
    (counts : Occurrence → Bool) :
    last.history.countP counts =
      (last.since first).countP counts + first.history.countP counts := by
  rw [← continues.since_append, List.countP_append]

private theorem Settled.balances {wait : Activity Bool} (sound : world.system.ledger.Sound)
    (settled : Settled world.system.ledger.count queue signal deadline world.system woken after.system)
    (returns : wait.Returns (undisturbed world.system.ledger.count signal) environment world woken
      after noted)
    (one : noted.countP (Occurrence.isTake (.shared signal)) = 1) :
    Balances wait environment world.system.ledger.count signal world woken after := by
  obtain ⟨meanwhile, run, rfl⟩ := returns
  -- Takes are told apart by their author; the call itself made one, the rest are those of others.
  have taken := meanwhile.countP_history (Occurrence.isTake (.shared signal))
  have raised := countP_since settled.continues (Occurrence.isRaise (.shared signal))
  have posted := countP_since settled.continues (Occurrence.isPostBy world.system.ledger.count)
  have none := System.postsBy_count sound
  have posts := settled.posts
  have excess := settled.excess
  rw [run, one] at taken
  simp only at taken
  rw [System.postsBy] at posts none
  rw [System.excess, System.excess] at excess
  constructor
  case balance => omega
  case own => omega

private theorem waitUntil_due {conduct : Conduct}
    (returns : (waitUntil bound queue (.shared signal) deadline).Returns conduct environment world
      woken after noted)
    (due : Tick.isDue deadline (world.system.queueNow queue) = true) :
    woken = false ∧ after = world ∧
      (waitUntil bound queue (.shared signal) deadline).occurrences .others environment world = [] := by
  rw [waitUntil_eq] at returns ⊢
  have done := returns.look
  rw [if_pos due] at done
  obtain ⟨unwoken, same, -⟩ := done.done
  refine ⟨unwoken, same, ?_⟩
  rw [Activity.occurrences, if_pos due, Activity.occurrences]

theorem balances_self {wait : Activity Bool} (alarm signal : Nat)
    (none : wait.occurrences .others environment world = []) :
    Balances wait environment alarm signal world false world := by
  have quiet : world.system.since world.system = [] :=
    List.append_cancel_right ((System.Continues.refl world.system).since_append.trans rfl)
  constructor
  case balance => rw [none, quiet]; rfl
  case own => rw [quiet]; exact Nat.zero_le 1

theorem waitFor_of_delay {delay : Tick} (some : delay ≠ 0) (bound queue signal : Nat) :
    waitFor bound queue (.shared signal) delay = .look fun system =>
      waitUntil bound queue (.shared signal) (Tick.deadlineAfter (system.queueNow queue) delay) :=
  if_neg some

theorem not_due_of_delay {now delay : Tick} (some : delay ≠ 0) :
    Tick.isDue (Tick.deadlineAfter now delay) now = false := by
  have positive : 0 < delay.toNat := by
    rw [Nat.pos_iff_ne_zero]
    exact fun zero => some (UInt32.toNat_inj.mp zero)
  rw [Tick.isDue, Tick.distance_deadlineAfter, decide_eq_false_iff_not]
  omega

theorem waitUntil_balances (world : World σ)
    (returns : (waitUntil bound queue (.shared signal) deadline).Returns
      (undisturbed world.system.ledger.count signal) environment world woken after noted)
    (threaded : world.system.Threaded) (sound : world.system.ledger.Sound)
    (counts : world.system.CountsPosts signal) :
    Balances (waitUntil bound queue (.shared signal) deadline) environment world.system.ledger.count
        signal world woken after ∧
      (woken = false →
        Tick.isDue deadline (world.system.queueNow queue) = true ∧ after = world ∨
          TimedOut world.system.ledger.count queue deadline world.system after.system) := by
  cases due : Tick.isDue deadline (world.system.queueNow queue) with
  | true =>
      obtain ⟨rfl, rfl, none⟩ := waitUntil_due returns due
      exact ⟨balances_self _ signal none, fun _ => .inl ⟨rfl, rfl⟩⟩
  | false =>
      obtain ⟨settled, one⟩ := waitUntil_settles returns threaded sound counts due
      exact ⟨settled.balances sound returns one, fun unwoken => .inr (settled.timedOut unwoken)⟩

private theorem waitFor_balances (world : World σ) {delay : Tick}
    (returns : (waitFor bound queue (.shared signal) delay).Returns
      (undisturbed world.system.ledger.count signal) environment world woken after noted)
    (threaded : world.system.Threaded) (sound : world.system.ledger.Sound)
    (counts : world.system.CountsPosts signal) :
    Balances (waitFor bound queue (.shared signal) delay) environment world.system.ledger.count
        signal world woken after ∧
      (woken = false → delay = 0 ∧ after = world ∨
        TimedOut world.system.ledger.count queue
          (Tick.deadlineAfter (world.system.queueNow queue) delay) world.system after.system) := by
  by_cases none : delay = 0
  · have same : waitFor bound queue (.shared signal) delay = .done false := if_pos none
    rw [same] at returns ⊢
    obtain ⟨rfl, rfl, -⟩ := returns.done
    exact ⟨balances_self _ signal rfl, fun _ => .inl ⟨none, rfl⟩⟩
  · rw [waitFor_of_delay none] at returns ⊢
    obtain ⟨balances, timedOut⟩ := waitUntil_balances world returns.look threaded sound counts
    refine ⟨⟨balances.balance, balances.own⟩, fun unwoken => ?_⟩
    rcases timedOut unwoken with ⟨due, -⟩ | fired
    · rw [not_due_of_delay none] at due
      cases due
    · exact .inr fired

/-- Whenever a timed wait on a signal without an observer returns, whatever others did meanwhile short
of meeting the ceiling of the count, the books on the signal balance: no post is lost or invented,
and a wait that times out takes no post but that of its own alarm. It returns without a post only if
it had no delay or its deadline was due already, and then changed nothing, or if its alarm was fired
at a tick at which the deadline was due. -/
theorem timed_waits_balance {setup : Setup} {system : System}
    (run : Reaches proper setup.system system)
    {signal : Nat} (counts : system.CountsPosts signal) (bound queue : Nat) {σ : Type}
    (environment : Environment σ) (outside : σ) :
    let world : World σ := { system, outside }
    let alarm := system.ledger.count
    let now := system.queueNow queue
    (∀ deadline woken after,
      let wait := waitUntil bound queue (.shared signal) deadline
      wait.Meanwhile (undisturbed alarm signal) environment world →
      wait.run environment world = (.ok woken, after) →
      Balances wait environment alarm signal world woken after ∧
        (woken = false → Tick.isDue deadline now = true ∧ after = world ∨
          TimedOut alarm queue deadline system after.system)) ∧
    ∀ delay woken after,
      let wait := waitFor bound queue (.shared signal) delay
      wait.Meanwhile (undisturbed alarm signal) environment world →
      wait.run environment world = (.ok woken, after) →
      Balances wait environment alarm signal world woken after ∧
        (woken = false → delay = 0 ∧ after = world ∨
          TimedOut alarm queue (Tick.deadlineAfter now delay) system after.system) := by
  obtain ⟨threaded, sound⟩ := run.sound setup.threaded setup.sound
  let world : World σ := { system, outside }
  constructor
  · intro deadline woken after wait meanwhile returned
    exact waitUntil_balances world ⟨meanwhile, returned, rfl⟩ threaded sound counts
  · intro delay woken after wait meanwhile returned
    exact waitFor_balances world ⟨meanwhile, returned, rfl⟩ threaded sound counts

/-- A stride that others only make if it keeps a signal below its ceiling. -/
def cautiously (signal : Nat) (command : Command) (system : System) : System :=
  if (system.stride command).CountsPosts signal then system.stride command else system

private theorem reaches_cautiously {command : Command} (proper : ∀ ledger : Ledger, ledger.Proper command)
    (spared : ¬ command.Handles alarm) (before : Reaches (undisturbed alarm signal) start system) :
    Reaches (undisturbed alarm signal) start (cautiously signal command system) := by
  unfold cautiously
  split
  · next counts => exact before.stride command ⟨proper _, spared, counts⟩
  · exact before

/-- Others post the signal that a wait is blocked on, and before the wait goes on its alarm fires. -/
def lateRescue : Environment Unit := fun request world =>
  let posted := cautiously 0 (.beginPost (.shared 0)) (request.begin world.system)
  (.ok (), { world with system := cautiously 0 (.fireFirst 0 5) (cautiously 0 (.advance 0 5) posted) })

private theorem reaches_lateRescue (alarm : Nat) (request : Request) (world : World Unit) :
    Reaches (undisturbed alarm 0) (request.begin world.system)
      (lateRescue request world).2.system := by
  simp only [lateRescue]
  refine reaches_cautiously (fun _ => trivial) not_false ?_
  refine reaches_cautiously (fun _ => trivial) not_false ?_
  exact reaches_cautiously (fun _ => trivial) not_false (.refl _)

/-- A wait that times out leaves a post of others alone, though that came first. -/
theorem timed_out_wait_leaves_post :
    let setup : Setup := { clocks := [0], signals := [.host], queues := [{}] }
    let world : World Unit := { system := setup.system, outside := () }
    let alarm := world.system.ledger.count
    let wait := waitFor 2 0 (.shared 0) 5
    let after := (wait.run lateRescue world).2
    Reaches proper setup.system world.system ∧ world.system.CountsPosts 0 ∧
      wait.Meanwhile (undisturbed alarm 0) lateRescue world ∧
      wait.run lateRescue world = (.ok false, after) ∧ after.system.pending 0 = 1 ∧
      Balances wait lateRescue alarm 0 world false after ∧
      TimedOut alarm 0 (Tick.deadlineAfter (world.system.queueNow 0) 5) world.system after.system := by
  intro setup world alarm wait after
  have run : Reaches proper setup.system world.system := .refl _
  have counts : world.system.CountsPosts 0 := by decide
  have meanwhile : wait.Meanwhile (undisturbed alarm 0) lateRescue world :=
    .of_answers (reaches_lateRescue alarm)
  have timeout : (wait.run lateRescue world).1 = .ok false := by decide
  have returned : wait.run lateRescue world = (.ok false, after) := Prod.ext timeout rfl
  obtain ⟨balances, timedOut⟩ :=
    (timed_waits_balance run counts 2 0 lateRescue ()).2 5 false after meanwhile returned
  refine ⟨run, counts, meanwhile, returned, by decide, balances, ?_⟩
  rcases timedOut rfl with ⟨none, -⟩ | fired
  · exact absurd none (by decide)
  · exact fired

end Alarms

end TimedWaits
