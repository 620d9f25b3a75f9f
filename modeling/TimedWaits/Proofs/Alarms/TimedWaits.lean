import TimedWaits.Scenario.Report
import TimedWaits.Proofs.Alarms.Firing
import TimedWaits.Proofs.Alarms.OwnAlarm
import TimedWaits.Proofs.Signals.Balance

/-! Timed waits, and what they do to the signal that they wait on. A wait takes one post, whoever made
it; whether its own alarm is still in the queue then tells if that was the alarm's own post. -/

set_option autoImplicit false

namespace TimedWaits

/-- A shared signal has no observer and room for more posts. -/
def System.CountsPosts (system : System) (signal : Nat) : Prop :=
  (system.signal (.shared signal)).attachment = none ∧ system.pending signal < Signal.ceiling

instance (system : System) (signal : Nat) : Decidable (system.CountsPosts signal) :=
  inferInstanceAs (Decidable (_ ∧ _))

/-- A command that only adds to the log. -/
def Command.IsLog : Command → Prop
  | .log _ => True
  | _ => False

theorem Command.IsLog.ne_take {command : Command} (log : command.IsLog) (signal : Nat) :
    command ≠ .take (.shared signal) := by
  rintro rfl
  exact log

/-- A request that changes no signal, queue or clock before others answer it. -/
def Request.IsPause : Request → Prop
  | .rearm _ _ | .idle _ => True
  | _ => False

namespace Alarms

/-- What others may do while a wait with an alarm of its own is blocked on a signal: whatever puts
alarms into their own queues only and does not handle the alarm of the wait, as long as the signal
has no observer and stays below its ceiling. -/
def undisturbed (alarm signal : Nat) : Conduct := fun system command =>
  system.ledger.Proper command ∧ ¬ command.Handles alarm ∧
    (system.stride command).CountsPosts signal

/-- How things are while a wait is blocked that began in a given system. -/
structure Blocked (alarm queue signal : Nat) (deadline : Tick) (start system : System) : Prop
    extends Tracked alarm queue deadline start system where
  counts : system.CountsPosts signal
  excess : system.excess signal = start.excess signal

variable {alarm queue signal : Nat} {deadline : Tick} {start system : System}

private theorem Blocked.stride {command : Command}
    (blocked : Blocked alarm queue signal deadline start system)
    (allowed : undisturbed alarm signal system command) :
    Blocked alarm queue signal deadline start (system.stride command) := by
  obtain ⟨proper, spared, counts⟩ := allowed
  have tracked := System.stride_preserves (motive := Tracked alarm queue deadline start)
    (blocked.toTracked.apply command proper spared) fun index token before =>
      before.apply (.markReady index token) trivial not_false
  exact ⟨tracked, counts, (System.excess_stride command counts.2).trans blocked.excess⟩

theorem Blocked.note (blocked : Blocked alarm queue signal deadline start system)
    (occurrence : Occurrence) (aside : occurrence.IsAside) :
    Blocked alarm queue signal deadline start (system.record occurrence) := by
  have quiet : occurrence.isRaise (.shared signal) = false ∧
      occurrence.isTake (.shared signal) = false := by
    cases occurrence <;> first | exact ⟨rfl, rfl⟩ | exact aside.elim
  have alike : System.Alike signal system (system.record occurrence) :=
    .record (.of_eq rfl rfl) occurrence quiet.1 quiet.2
  exact ⟨blocked.toTracked.note occurrence aside, blocked.counts, alike.excess.trans blocked.excess⟩

private theorem Blocked.reaches {last : System}
    (blocked : Blocked alarm queue signal deadline start system)
    (reaches : Reaches (undisturbed alarm signal) system last) :
    Blocked alarm queue signal deadline start last :=
  reaches.preserves (motive := Blocked alarm queue signal deadline start) blocked
    (fun before allowed => before.stride allowed) fun before aside => before.note _ aside

theorem Blocked.apply (blocked : Blocked alarm queue signal deadline start system)
    (command : Command) (proper : system.ledger.Proper command) (spared : ¬ command.Handles alarm)
    (same : (command.apply system).2.signals = system.signals) :
    Blocked alarm queue signal deadline start (command.apply system).2 := by
  have counts : (command.apply system).2.CountsPosts signal := by
    have kept := blocked.counts
    rw [System.CountsPosts, System.pending, System.signal] at kept ⊢
    rwa [same]
  exact ⟨blocked.toTracked.apply command proper spared, counts,
    (command.excess_apply system counts.2).trans blocked.excess⟩

private theorem Blocked.log {command : Command} (blocked : Blocked alarm queue signal deadline start system)
    (log : command.IsLog) : Blocked alarm queue signal deadline start (command.apply system).2 := by
  cases command with
  | log notice => exact blocked.apply (.log notice) trivial not_false rfl
  | _ => exact log.elim

private theorem Blocked.begin {request : Request}
    (blocked : Blocked alarm queue signal deadline start system) (pause : request.IsPause) :
    Blocked alarm queue signal deadline start (request.begin system) := by
  cases request with
  | idle reference => exact blocked.note (.blocked reference) trivial
  | rearm log delay =>
      have noted := blocked.note (.rearmed log delay) trivial
      refine noted.apply (.addRearm log delay) trivial not_false ?_
      simp only [Command.apply, System.addRearm]
      split <;> rfl
  | _ => exact pause.elim

/-! ### The alarm enters -/

/-- The system after a wait made its alarm. -/
def made (queue signal : Nat) (deadline : Tick) (system : System) : System :=
  (system.createAlarm queue (.shared signal) deadline false).2

/-- The system after the alarm of a wait entered its queue. -/
def entered (queue signal : Nat) (deadline : Tick) (system : System) : System :=
  ((made queue signal deadline system).insertAlarm queue system.ledger.count).2

theorem made_alarm (queue signal : Nat) (deadline : Tick) (threaded : system.Threaded) :
    (made queue signal deadline system).ledger.alarm system.ledger.count =
      { queue, signal := .shared signal, deadline } :=
  alarm_createAlarm threaded queue (.shared signal) deadline false

private theorem entered_signals (queue signal : Nat) (deadline : Tick) (system : System) :
    (entered queue signal deadline system).signals = system.signals := by
  change ((made queue signal deadline system).insertAlarm queue _).2.signals =
    (made queue signal deadline system).signals
  simp only [System.insertAlarm]
  split <;> rfl

private theorem blocked_entered (queue : Nat) (deadline : Tick) (threaded : system.Threaded)
    (sound : system.ledger.Sound) (counts : system.CountsPosts signal) :
    Blocked system.ledger.count queue signal deadline system
      (entered queue signal deadline system) := by
  have countsLast : (entered queue signal deadline system).CountsPosts signal := by
    rw [System.CountsPosts, System.pending, System.signal] at counts ⊢
    rwa [entered_signals]
  have excess := (Command.insertAlarm queue system.ledger.count).excess_apply
    (made queue signal deadline system) countsLast.2
  have excessFirst := (Command.createAlarm queue (.shared signal) deadline false).excess_apply
    system counts.2
  exact ⟨tracked_of_entry threaded sound queue (.shared signal) deadline, countsLast,
    excess.trans excessFirst⟩

/-! ### The run of a wait -/

variable {σ : Type} {environment : Environment σ} {world : World σ} {bound : Nat}

/-- What is left of an addition once the alarm entered: the first one of a queue re-arms its timer. -/
def announce (queue : Nat) (record : Alarm) : Option Nat → Activity Bool
  | some 0 => do
    let delay ← .read fun system => Tick.remaining record.deadline (system.queueNow queue)
    .perform (.log (.nearestAlarmChanged delay))
    match ← .read fun system => (system.alarms.queues.get queue).rearm with
    | none => return true
    | some target =>
      .request (.rearm target delay)
      return true
  | some (_ + 1) | none => return false

/-- What is left of an addition once the alarm is at the front of its queue. -/
theorem announce_eq (queue : Nat) (record : Alarm) : announce queue record (some 0) =
    .look fun inserted =>
      let delay := Tick.remaining record.deadline (inserted.queueNow queue)
      .act (.log (.nearestAlarmChanged delay)) fun _ => .look fun told =>
        match (told.alarms.queues.get queue).rearm with
        | none => .done true
        | some target => Activity.request (.rearm target delay) >>= fun _ => .done true := by
  refine congrArg Activity.look (funext fun inserted => ?_)
  refine congrArg (Activity.act _) (funext fun _ => congrArg Activity.look (funext fun told => ?_))
  dsimp only [Bind.bind, Activity.bind]
  cases (told.alarms.queues.get queue).rearm <;> rfl

theorem add_eq (queue alarm : Nat) : add queue alarm = .look fun system =>
    if (system.alarms.alarms.get alarm).queue ≠ queue then .halt "event added to a foreign queue"
    else .act (.insertAlarm queue alarm) (announce queue (system.alarms.alarms.get alarm)) := by
  refine congrArg Activity.look (funext fun system => ?_)
  change (if _ then _ else _) = _
  split
  · rfl
  · refine congrArg (Activity.act (.insertAlarm queue alarm)) (funext fun position => ?_)
    cases position with
    | none => rfl
    | some position => cases position <;> rfl

theorem announce_uses (queue : Nat) (record : Alarm) (position : Option Nat) :
    (announce queue record position).Uses Command.IsLog Request.IsPause := by
  match position with
  | none | some (_ + 1) => exact .done false
  | some 0 =>
      refine .bind (.read _) fun delay => .bind (.perform trivial) fun _ => ?_
      refine .bind (.read _) fun rearm => ?_
      cases rearm with
      | none => exact .done true
      | some target => exact .bind (.request trivial) fun _ => .done true

/-- Whatever becomes of an addition, the alarm that a call has made and adds is in its queue until it
fires. -/
theorem add_tracked {own : Nat → Prop} {made : World σ} {reference : SignalRef}
    (threaded : start.Threaded) (sound : start.ledger.Sound) (mine : own start.ledger.count)
    (created : made.system = (start.createAlarm queue reference deadline false).2)
    (meanwhile : (add queue start.ledger.count).Meanwhile (considerate own) environment made) :
    Tracked start.ledger.count queue deadline start
      ((add queue start.ledger.count).run environment made).2.system := by
  let alarm := start.ledger.count
  let entered : World σ := { made with system := (made.system.insertAlarm queue alarm).2 }
  have belongs : (made.system.alarms.alarms.get alarm).queue = queue := by
    rw [created]
    exact congrArg Alarm.queue (alarm_createAlarm threaded queue reference deadline false)
  rw [add_eq] at meanwhile ⊢
  change Activity.Meanwhile _ _ (if _ then _ else _) made at meanwhile
  change Tracked _ _ _ _ ((if _ then _ else _ : Activity Bool).run environment made).2.system
  rw [if_neg (not_not_intro belongs)] at meanwhile ⊢
  have stands : Tracked alarm queue deadline start entered.system := by
    have entry := tracked_of_entry threaded sound queue reference deadline
    rwa [← created] at entry
  refine stands.uses mine (announce_uses queue _ _) (fun command log => ?_) meanwhile
  cases command with
  | log notice => exact not_false
  | _ => exact log.elim

theorem takes_since (signal : Nat) (command : Command) (other : command ≠ .take (.shared signal))
    (system : System) :
    ((command.apply system).2.since system).countP (Occurrence.isTake (.shared signal)) = 0 := by
  refine command.countP_since ?_ (fun _ => rfl) ?_ system
  · intro occurrence noted
    cases occurrence <;> first | rfl | exact noted.elim
  · intro reference own
    have differ : reference ≠ .shared signal := by
      rintro rfl
      exact own.elim other False.elim
    simp [Occurrence.isTake, differ]

theorem Blocked.pause {α : Type} {activity : Activity α} {value : α} {after : World σ}
    {noted : List Occurrence} (blocked : Blocked alarm queue signal deadline start world.system)
    (uses : activity.Uses Command.IsLog Request.IsPause)
    (returns : activity.Returns (undisturbed alarm signal) environment world value after noted) :
    Blocked alarm queue signal deadline start after.system ∧
      noted.countP (Occurrence.isTake (.shared signal)) = 0 := by
  obtain ⟨meanwhile, run, rfl⟩ := returns
  have last := uses.preserves meanwhile blocked (fun before log => before.log log)
    (fun before pause => before.begin pause) (fun before reaches => before.reaches reaches)
  rw [run] at last
  exact ⟨last, uses.occurrences_call
    (fun system command log => takes_since signal command (log.ne_take signal) system)
    fun system request _ =>
      request.countP_since (by cases request <;> rfl) (fun _ => rfl) system⟩

theorem add_blocked {added : Bool} {after : World σ} {noted : List Occurrence}
    (threaded : world.system.Threaded) (sound : world.system.ledger.Sound)
    (counts : world.system.CountsPosts signal)
    (returns : (add queue world.system.ledger.count).Returns
      (undisturbed world.system.ledger.count signal) environment
      { world with system := made queue signal deadline world.system } added after noted) :
    Blocked world.system.ledger.count queue signal deadline world.system after.system ∧
      noted.countP (Occurrence.isTake (.shared signal)) = 0 := by
  let alarm := world.system.ledger.count
  let first : World σ := { world with system := made queue signal deadline world.system }
  let record := first.system.alarms.alarms.get alarm
  have own : record.queue = queue :=
    congrArg Alarm.queue (made_alarm queue signal deadline threaded)
  have blocked := blocked_entered queue deadline threaded sound counts
  rw [add_eq] at returns
  have inserting := returns.look
  rw [if_neg (not_not_intro own)] at inserting
  obtain ⟨later, announcing, rfl⟩ := inserting.act
  obtain ⟨last, none⟩ := blocked.pause (announce_uses queue record _) announcing
  refine ⟨last, ?_⟩
  rw [List.countP_append, none, Nat.zero_add]
  exact takes_since signal (.insertAlarm queue alarm) (by simp) first.system

end Alarms

end TimedWaits
