import TimedWaits.Proofs.Alarms.Punctual

/-! The loops that drive a queue are on time exactly if the queue is in the order of its deadlines when
they begin. Out of that order the loop sleeps to the deadline of its first alarm and passes a nearer
one. -/

set_option autoImplicit false

namespace TimedWaits

namespace LoopPace

variable {pace : LoopPace} {delay : Tick}

theorem toNat_sleep (pace : LoopPace) (delay : Tick) :
    (pace.sleep delay).toNat =
      min (max (if delay = 0 then pace.idle else delay).toNat 1) (max pace.longest.toNat 1) := by
  have lesser : ∀ first second : Tick, (min first second).toNat = min first.toNat second.toNat := by
    intro first second
    change (if first ≤ second then first else second).toNat = _
    split
    · next order =>
        have less := UInt32.le_iff_toNat_le.mp order
        omega
    · next order =>
        have more := (not_congr UInt32.le_iff_toNat_le).mp order
        omega
  have greater : ∀ first second : Tick, (max first second).toNat = max first.toNat second.toNat := by
    intro first second
    change (if first ≤ second then second else first).toNat = _
    split
    · next order =>
        have less := UInt32.le_iff_toNat_le.mp order
        omega
    · next order =>
        have more := (not_congr UInt32.le_iff_toNat_le).mp order
        omega
  rw [sleep, lesser, greater, greater]
  rfl

theorem sleep_ne_zero (pace : LoopPace) (delay : Tick) : pace.sleep delay ≠ 0 := by
  intro zero
  have least := pace.toNat_sleep delay
  rw [zero] at least
  change 0 = _ at least
  omega

theorem toNat_sleep_le (pace : LoopPace) (some : delay ≠ 0) :
    (pace.sleep delay).toNat ≤ delay.toNat := by
  have least := pace.toNat_sleep delay
  have positive : delay.toNat ≠ 0 := fun zero => some (UInt32.toNat_inj.mp zero)
  rw [if_neg some] at least
  omega

end LoopPace

theorem System.now_fireFirst (system : System) (other queue : Nat) (now : Tick) :
    (system.fireFirst other now).2.ledger.now queue = system.ledger.now queue := by
  simp only [fireFirst]
  split
  · rfl
  · next alarm lists _ =>
    let fired := { system with alarms := { system.alarms with lists } }.record (.fired alarm now)
    let signal := (system.alarms.alarms.get alarm).signal
    have same : (fired.beginPost signal (some alarm)).2.timing = _ := System.timing_beginPost _ _
    exact congrArg (fun timing => timing.ledger.now queue) same

private theorem System.fireFirst_eq_self {system : System} {queue : Nat} {now : Tick}
    (refused : (system.fireFirst queue now).1 = none) : (system.fireFirst queue now).2 = system := by
  revert refused
  simp only [fireFirst]
  split
  · exact fun _ => rfl
  · intro refused
    cases refused

namespace Alarms

variable {σ : Type} {environment : Environment σ} {world after : World σ} {queue bound : Nat}
  {now : Tick} {start : System}

/-! ### One round -/

theorem callAny_uses {commands : Command → Prop} {requests : Request → Prop}
    (marks : ∀ index token, commands (.markReady index token))
    (observes : ∀ observer token, requests (.observe observer token))
    (attachment : Option Attachment) : (Attachment.callAny attachment).Uses commands requests := by
  match attachment with
  | none => exact .done ()
  | some { observer := .selector index, token } => exact .perform (marks index token)
  | some { observer := .custom index, token } => exact .request (observes index token)

/-- Besides firing alarms, a drain does nothing to alarms, and it posts nothing by itself. -/
theorem drain_uses (queue : Nat) (now : Tick) (bound : Nat) :
    (drain queue now bound).Uses
      (fun command => command = .fireFirst queue now ∨ ¬ command.ConcernsAlarms ∧ ¬ command.IsPost)
      fun request => ∃ observer token, request = .observe observer token := by
  induction bound with
  | zero => exact .fail _
  | succ bound ih =>
      refine .bind (.perform (.inl rfl)) fun fired => ?_
      cases fired with
      | none => exact .done ()
      | some fired =>
          have logs : ∀ notice, ¬ (Command.log notice).ConcernsAlarms ∧ ¬ (Command.log notice).IsPost :=
            fun _ => ⟨not_false, not_false⟩
          refine .bind (callAny_uses ?_ ?_ _) fun _ => .bind (.perform (.inr (logs _))) fun _ => ih
          · exact fun index token => .inr ⟨not_false, not_false⟩
          · exact fun observer token => ⟨observer, token, rfl⟩

theorem drain_still (meanwhile : (drain queue now bound).Meanwhile (Tame queue) environment world) :
    ((drain queue now bound).run environment world).2.system.ledger.now queue =
      world.system.ledger.now queue := by
  refine (drain_uses queue now bound).preserves
    (motive := fun last => last.ledger.now queue = world.system.ledger.now queue) meanwhile rfl ?_ ?_ ?_
  · rintro system command same (rfl | ⟨unconcerned, -⟩)
    · exact (system.now_fireFirst queue queue now).trans same
    · exact (Tame.of_unconcerned unconcerned queue system).still.trans same
  · rintro system request same ⟨observer, token, rfl⟩
    exact same
  · intro first last same reaches
    exact reaches.still.trans same

private theorem drain_onTime (meanwhile : (drain queue now bound).Meanwhile (Tame queue) environment world)
    (onTime : OnTime queue start world.system) (current : world.system.ledger.now queue = now) :
    OnTime queue start ((drain queue now bound).run environment world).2.system := by
  refine ((drain_uses queue now bound).preserves
    (motive := fun last => OnTime queue start last ∧ last.ledger.now queue = now) meanwhile
    ⟨onTime, current⟩ ?_ ?_ ?_).1
  · rintro system command ⟨onTime, current⟩ (rfl | ⟨unconcerned, -⟩)
    · have still := system.now_fireFirst queue queue now
      refine ⟨onTime.apply ⟨trivial, still, nofun, ?_⟩, still.trans current⟩
      rintro tick same
      cases same
      exact current.symm
    · have tame := Tame.of_unconcerned unconcerned queue system
      exact ⟨onTime.apply tame, tame.still.trans current⟩
  · rintro system request ⟨onTime, current⟩ ⟨observer, token, rfl⟩
    exact ⟨onTime.note trivial, current⟩
  -- Others leave the clock alone, so what the drain takes for the current tick stays the current one.
  · rintro first last ⟨onTime, current⟩ reaches
    exact ⟨onTime.reaches reaches, reaches.still.trans current⟩

theorem drain_undue (returned : (drain queue now bound).run environment world = (.ok (), after))
    (threaded : after.system.Threaded) :
    ∀ alarm ∈ (after.system.ledger.members queue).head?,
      after.system.ledger.isDue now alarm = false := by
  induction bound generalizing world with
  | zero => cases returned
  | succ bound ih =>
      obtain ⟨fired, popped, popping, onward⟩ := Activity.run_bind_ok returned
      cases fired with
      | none =>
          cases onward
          have refused : (world.system.fireFirst queue now).1 = none :=
            Except.ok.inj (congrArg Prod.fst popping)
          have same : after.system = (world.system.fireFirst queue now).2 :=
            (congrArg (·.2.system) popping).symm
          rw [same, System.fireFirst_eq_self refused] at threaded ⊢
          intro alarm front
          obtain ⟨rest, members⟩ := List.head?_eq_some_iff.mp front
          rw [← Bool.not_eq_true]
          intro due
          obtain ⟨⟨reply, replied⟩, -⟩ := threaded.fireFirst_due members due
          rw [replied] at refused
          cases refused
      | some fired =>
          obtain ⟨_, called, -, onward⟩ := Activity.run_bind_ok onward
          obtain ⟨_, _, -, onward⟩ := Activity.run_bind_ok onward
          exact ih onward

theorem check_eq (bound queue : Nat) : check bound queue = .look fun system =>
    drain queue (system.ledger.now queue) bound >>= fun _ =>
      .read fun drained => reported (system.ledger.now queue) (drained.alarms.nextDeadline? queue) := by
  refine congrArg Activity.look (funext fun system => ?_)
  refine congrArg (Activity.bind (drain queue _ bound)) (funext fun _ => ?_)
  refine congrArg Activity.look (funext fun drained => ?_)
  dsimp only [Bind.bind, Activity.bind]
  cases drained.alarms.nextDeadline? queue <;> rfl

theorem check_drains (meanwhile : (check bound queue).Meanwhile (Tame queue) environment world) :
    (drain queue (world.system.ledger.now queue) bound).Meanwhile (Tame queue) environment world ∧
      ((check bound queue).run environment world).2 =
        ((drain queue (world.system.ledger.now queue) bound).run environment world).2 := by
  rw [check_eq] at meanwhile ⊢
  refine ⟨(Activity.meanwhile_bind.mp meanwhile).1, ?_⟩
  rw [Activity.run, Activity.run_bind]
  cases (drain queue (world.system.ledger.now queue) bound).run environment world with
  | mk outcome drained => cases outcome <;> rfl

theorem check_reports {delay : Tick}
    (returned : (check bound queue).run environment world = (.ok delay, after)) :
    (drain queue (world.system.ledger.now queue) bound).run environment world = (.ok (), after) ∧
      delay = reported (world.system.ledger.now queue) (after.system.alarms.nextDeadline? queue) := by
  rw [check_eq] at returned
  obtain ⟨_, drained, run, answered⟩ := Activity.run_bind_ok returned
  cases answered
  exact ⟨run, rfl⟩

theorem toNat_reported {ledger : Ledger} {alarm : Nat}
    (undue : ledger.isDue (ledger.now queue) alarm = false) :
    0 < ledger.lead queue alarm ∧
      ((reported (ledger.now queue) (some (ledger.deadline alarm))).toNat : Int) =
        ledger.lead queue alarm := by
  have ahead : 0 < ledger.lead queue alarm := by
    rw [Ledger.isDue, Tick.isDue, decide_eq_false_iff_not] at undue
    rw [Ledger.lead]
    omega
  obtain ⟨within, offset⟩ := Ledger.offset_of_ahead (Int.le_of_lt ahead)
  have nowWithin : Tick.InWindow (ledger.now queue) (ledger.now queue) := by
    rw [Tick.InWindow, Tick.offset_self]
    decide
  obtain ⟨leads, positive⟩ := within.offset_remaining nowWithin undue
  rw [Tick.offset_self] at leads
  refine ⟨ahead, ?_⟩
  rw [reported, Tick.max_one positive]
  omega

/-- What a check reports on a queue in order is no more than the time to any of its deadlines. -/
private theorem reported_le {system : System} (threaded : system.Threaded)
    (inTime : system.ledger.InTime queue)
    (undue : ∀ alarm ∈ (system.ledger.members queue).head?,
      system.ledger.isDue (system.ledger.now queue) alarm = false) :
    let delay := reported (system.ledger.now queue) (system.alarms.nextDeadline? queue)
    ∀ member ∈ system.ledger.members queue,
      delay ≠ 0 ∧ (delay.toNat : Int) ≤ system.ledger.lead queue member := by
  intro delay member queued
  have nearest : system.alarms.nextDeadline? queue =
      (system.ledger.members queue).head?.map system.ledger.deadline :=
    congrArg (Option.map system.ledger.deadline) (LinkedLists.Spells.front?_eq threaded queue)
  have sorted := inTime.sorted
  cases members : system.ledger.members queue with
  | nil => simp [members] at queued
  | cons first rest =>
      rw [members, List.head?_cons] at undue nearest
      obtain ⟨ahead, reports⟩ := toNat_reported (undue first rfl)
      have same : delay = reported (system.ledger.now queue) (some (system.ledger.deadline first)) :=
        congrArg (reported _) nearest
      rw [← same] at reports
      rw [Ledger.Sorted, members, List.pairwise_cons] at sorted
      rw [members, List.mem_cons] at queued
      constructor
      · rintro zero
        rw [zero] at reports
        change (0 : Int) = _ at reports
        omega
      · rcases queued with rfl | later
        · omega
        · have order := sorted.1 member later
          omega

theorem round_eq (bound queue : Nat) (pace : LoopPace) :
    round bound queue pace = check bound queue >>= fun delay => .look fun system =>
      .request (.sleep (system.alarms.queues.get queue).clock (pace.sleep delay)) := rfl

/-- An activity that drives a queue on time, if the queue is in time when it begins. -/
structure Prompt {α : Type} (queue : Nat) (activity : Activity α) : Prop where
  onTime : ∀ {σ : Type} {environment : Environment σ} {world : World σ} {start : System},
    activity.Meanwhile (Tame queue) environment world → OnTime queue start world.system →
    OnTime queue start (activity.run environment world).2.system

private theorem Prompt.bind {α β : Type} {first : Activity α} {next : α → Activity β}
    (prompt : Prompt queue first) (onward : ∀ value, Prompt queue (next value)) :
    Prompt queue (first >>= next) := by
  refine ⟨fun {σ environment world start} meanwhile onTime => ?_⟩
  obtain ⟨before, after⟩ := Activity.meanwhile_bind.mp meanwhile
  have middle := prompt.onTime before onTime
  rw [Activity.run_bind]
  cases ran : first.run environment world with
  | mk outcome later =>
      rw [ran] at middle
      cases outcome with
      | ok value => exact (onward value).onTime (after value later ran) middle
      | error failure => exact middle

private theorem check_prompt (bound queue : Nat) : Prompt queue (check bound queue) := by
  refine ⟨fun {σ environment world start} meanwhile onTime => ?_⟩
  obtain ⟨draining, same⟩ := check_drains meanwhile
  rw [same]
  exact drain_onTime draining onTime rfl

theorem round_advances {pace : LoopPace}
    (meanwhile : (round bound queue pace).Meanwhile (Tame queue) environment world)
    (returned : (round bound queue pace).run environment world = (.ok (), after)) :
    ∃ delay, delay ≠ 0 ∧
      after.system.ledger.now queue = Tick.after (world.system.ledger.now queue) delay := by
  rw [round_eq] at meanwhile returned
  obtain ⟨checking, sleeping⟩ := Activity.meanwhile_bind.mp meanwhile
  obtain ⟨delay, checked, ran, slept⟩ := Activity.run_bind_ok returned
  obtain ⟨draining, same⟩ := check_drains checking
  have still := drain_still draining
  rw [← same, ran] at still
  obtain ⟨answers, -⟩ := sleeping delay checked ran
  refine ⟨pace.sleep delay, pace.sleep_ne_zero delay, ?_⟩
  change (Activity.request _).run environment checked = _ at slept
  rw [Activity.run_request] at slept
  rw [slept] at answers
  rw [answers.still, ← still, System.now_sleep]

private theorem round_prompt (bound queue : Nat) (pace : LoopPace) :
    Prompt queue (round bound queue pace) := by
  refine ⟨fun {σ environment world start} meanwhile onTime => ?_⟩
  rw [round_eq] at meanwhile ⊢
  obtain ⟨checking, sleeping⟩ := Activity.meanwhile_bind.mp meanwhile
  obtain ⟨draining, same⟩ := check_drains checking
  have still := drain_still draining
  have middle := (check_prompt bound queue).onTime checking onTime
  rw [← same] at still
  rw [Activity.run_bind]
  cases ran : (check bound queue).run environment world with
  | mk outcome checked =>
      rw [ran] at middle still
      cases outcome with
      | error failure => exact middle
      | ok delay =>
          obtain ⟨drained, reports⟩ := check_reports ran
          have undue := drain_undue drained middle.threaded
          rw [← still] at undue reports
          have nearest := reported_le middle.threaded middle.inTime undue
          rw [← reports] at nearest
          obtain ⟨answers, -⟩ := sleeping delay checked ran
          have slept := middle.sleep (pace.sleep_ne_zero delay) fun member queued => by
            obtain ⟨some, near⟩ := nearest member queued
            have short := pace.toNat_sleep_le some
            omega
          change OnTime queue start ((Activity.request _).run environment checked).2.system
          rw [Activity.run_request]
          exact slept.reaches answers

/-- A loop that drives a queue, with a limit to its rounds. -/
inductive IsLoop (queue : Nat) : Activity Unit → Prop where
  | untilStopped (bound rounds : Nat) (pace : LoopPace) :
      IsLoop queue (runUntilStopped bound queue pace rounds)
  | forever (bound rounds : Nat) : IsLoop queue (runForever bound queue rounds)

theorem IsLoop.prompt {loop : Activity Unit} (drives : IsLoop queue loop) : Prompt queue loop := by
  cases drives with
  | untilStopped bound rounds pace =>
      induction rounds with
      | zero => exact ⟨fun _ onTime => onTime⟩
      | succ rounds ih =>
          refine ⟨fun {σ environment world start} meanwhile onTime => ?_⟩
          change (if world.system.stopRequested then Activity.perform (.log .loopStopped)
            else round bound queue pace >>= fun _ =>
              runUntilStopped bound queue pace rounds).Meanwhile _ _ _ at meanwhile
          change OnTime queue start ((if world.system.stopRequested then
            Activity.perform (.log .loopStopped) else round bound queue pace >>= fun _ =>
              runUntilStopped bound queue pace rounds).run _ _).2.system
          split at meanwhile
          · next stop =>
            have unconcerned : ¬ (Command.log .loopStopped).ConcernsAlarms := not_false
            rw [if_pos stop]
            exact onTime.apply (.of_unconcerned unconcerned queue world.system)
          · next onward =>
            rw [if_neg onward]
            exact ((round_prompt bound queue pace).bind fun _ => ih).onTime meanwhile onTime
  | forever bound rounds =>
      induction rounds with
      | zero => exact ⟨fun _ onTime => onTime⟩
      | succ rounds ih => exact (round_prompt bound queue {}).bind fun _ => ih

end Alarms

end TimedWaits
