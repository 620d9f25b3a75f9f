import TimedWaits.Proofs.Alarms.Ownership
import TimedWaits.Proofs.Alarms.Schedulings

/-! What blocking calls leave behind. A call that waits with a timeout puts alarms of its own into a queue
and takes them off again, one at a time and on every way it can end. It moves nothing else, so what is left
of a queue is what others made of it. -/

set_option autoImplicit false

namespace TimedWaits

open Activity

variable {σ α β : Type} {environment : Environment σ} {world : World σ}

/-! ### Calls that drop what they make -/

namespace Activity

/-- An activity that moves no alarm but one that it holds, which is meant for a queue. It begins with one
in hand or none, makes another only with none in hand, and ends as it is said to, by a failure too. -/
inductive Tidy (last : Option (Nat × Nat)) {α : Type} : Option (Nat × Nat) → Activity α → Prop where
  | done (value : α) : Tidy last last (.done value)
  | fail (failure : Failure) : Tidy last last (.fail failure)
  | look {held : Option (Nat × Nat)} {next : System → Activity α}
      (onward : ∀ system, Tidy last held (next system)) : Tidy last held (.look next)
  | ask {held : Option (Nat × Nat)} {request : Request} {next : Except Failure Unit → Activity α}
      (onward : ∀ outcome, Tidy last held (next outcome)) : Tidy last held (.ask request next)
  | leave {held : Option (Nat × Nat)} {command : Command} {next : command.Reply → Activity α}
      (unmoving : ¬ command.MovesAlarms) (makes : ∀ reply, command.makes reply = [])
      (onward : ∀ reply, Tidy last held (next reply)) : Tidy last held (.act command next)
  | make {queue : Nat} {signal : SignalRef} {deadline : Tick} {next : Nat → Activity α}
      (onward : ∀ alarm, Tidy last (some (queue, alarm)) (next alarm)) :
      Tidy last none (.act (.createAlarm queue signal deadline false) next)
  | insert {queue alarm : Nat} {next : Option Nat → Activity α}
      (onward : ∀ position, Tidy last (some (queue, alarm)) (next position)) :
      Tidy last (some (queue, alarm)) (.act (.insertAlarm queue alarm) next)
  | withdraw {queue alarm : Nat} {next : Bool → Activity α}
      (onward : ∀ withdrawn, Tidy last (some (queue, alarm)) (next withdrawn)) :
      Tidy last (some (queue, alarm)) (.act (.withdrawAlarm queue alarm) next)
  | drop {queue alarm : Nat} {next : Unit → Activity α} (onward : Tidy last none (next ())) :
      Tidy last (some (queue, alarm)) (.act (.dropAlarm alarm) next)

namespace Tidy

variable {activity : Activity α} {last held : Option (Nat × Nat)} {queue alarm : Nat}

theorem bind {next : α → Activity β} (tidy : Tidy last held activity)
    (onward : ∀ value, Tidy last last (next value)) : Tidy last held (activity >>= next) := by
  change Tidy last held (activity.bind next)
  induction tidy with
  | done value => exact onward value
  | fail failure => exact .fail failure
  | look _ ih => exact .look ih
  | ask _ ih => exact .ask ih
  | leave unmoving makes _ ih => exact .leave unmoving makes ih
  | make _ ih => exact .make ih
  | insert _ ih => exact .insert ih
  | withdraw _ ih => exact .withdraw ih
  | drop _ ih => exact .drop ih

/-- Whatever becomes of an activity that holds an alarm, the alarm is dropped in the end. -/
private theorem ensuring (tidy : Tidy (some (queue, alarm)) held activity) :
    Tidy none held (activity.ensuring (.dropAlarm alarm)) := by
  induction tidy with
  | done value => exact .drop (.done value)
  | fail failure => exact .drop (.fail failure)
  | look _ ih => exact .look ih
  | ask _ ih => exact .ask ih
  | leave unmoving makes _ ih => exact .leave unmoving makes ih
  | make _ ih => exact .make ih
  | insert _ ih => exact .insert ih
  | withdraw _ ih => exact .withdraw ih
  | drop _ ih => exact .drop ih

theorem of_uses {commands : Command → Prop} {requests : Request → Prop}
    (uses : activity.Uses commands requests)
    (leaves : ∀ command, commands command →
      ¬ command.MovesAlarms ∧ ∀ reply, command.makes reply = []) : Tidy last last activity := by
  induction uses with
  | done value => exact .done value
  | fail failure => exact .fail failure
  | look _ ih => exact .look ih
  | act allowed _ ih =>
      obtain ⟨unmoving, makes⟩ := leaves _ allowed
      exact .leave unmoving makes ih
  | ask _ _ ih => exact .ask ih

end Tidy

end Activity

namespace Alarms

variable {bound queue : Nat} {signal : SignalRef}

private theorem add_tidy (queue alarm : Nat) :
    Tidy (some (queue, alarm)) (some (queue, alarm)) (add queue alarm) := by
  have logs : ∀ command : Command, command.IsLog →
      ¬ command.MovesAlarms ∧ ∀ reply, command.makes reply = [] := by
    intro command log
    cases command with
    | log => exact ⟨not_false, fun _ => rfl⟩
    | _ => exact log.elim
  rw [add_eq]
  refine .look fun system => ?_
  split
  · have halts : (Activity.halt "event added to a foreign queue" : Activity Bool).Uses
        Command.IsLog Request.IsPause := .halt _ trivial
    exact .of_uses halts logs
  · exact .insert fun position => .of_uses (announce_uses queue _ position) logs

/-- A call that makes an alarm for itself, adds it and waits is tidy if it drops the alarm in the end. -/
theorem scope_tidy {wait : Nat → Activity α} (deadline : Tick)
    (waits : ∀ alarm, Tidy (some (queue, alarm)) (some (queue, alarm)) (wait alarm)) :
    Tidy none none (Activity.perform (.createAlarm queue signal deadline false) >>= fun alarm =>
      (Functor.discard (add queue alarm) >>= fun _ => wait alarm).ensuring (.dropAlarm alarm)) := by
  refine .make fun alarm => ?_
  have added : Tidy (some (queue, alarm)) (some (queue, alarm)) (Functor.discard (add queue alarm)) :=
    (add_tidy queue alarm).bind fun _ => .done ()
  have blocked := added.bind fun _ => waits alarm
  exact blocked.ensuring

theorem waitUntil_tidy (deadline : Tick) : Tidy none none (waitUntil bound queue signal deadline) := by
  refine .look fun system => ?_
  change Tidy none none (if _ then _ else _)
  split
  · exact .done false
  · refine scope_tidy deadline fun alarm => ?_
    have uses : (signal.wait bound).Uses (fun command => command = .take signal) fun _ => True :=
      .bind (.awaitPost signal bound trivial) fun _ => .discard (.perform rfl)
    have waits : Tidy (some (queue, alarm)) (some (queue, alarm)) (signal.wait bound) := by
      refine .of_uses uses fun command take => ?_
      cases take
      exact ⟨not_false, fun _ => rfl⟩
    exact waits.bind fun _ => .withdraw fun _ => .done _

private theorem waitFor_tidy (delay : Tick) : Tidy none none (waitFor bound queue signal delay) := by
  rw [waitFor]
  split
  · exact .done false
  · exact .look fun system => waitUntil_tidy _

end Alarms

private theorem Selector.waitFor_tidy (bound selector queue : Nat) (timeout : Tick) :
    Tidy none none (Selector.waitFor bound selector queue timeout) := by
  refine .leave not_false (fun _ => rfl) fun signal => ?_
  cases signal with
  | some signal => exact .done _
  | none =>
      change Tidy none none (if timeout = 0 then _ else _)
      split
      · exact .done none
      · refine .look fun system => Alarms.scope_tidy _ fun alarm => ?_
        let commands : Command → Prop := fun command =>
          ¬ command.MovesAlarms ∧ ∀ reply, command.makes reply = []
        have takes : commands (.takeWakeup selector) := ⟨not_false, fun _ => rfl⟩
        exact .of_uses (awaitReadyOrAlarm_uses takes (fun _ => ⟨not_false, fun _ => rfl⟩) bound alarm bound)
          fun _ leaves => leaves

namespace Rings

private theorem waitUntil_tidy (bound ring queue signal : Nat) (deadline : Tick) (rounds : Nat) :
    Tidy none none (waitUntil bound ring queue signal deadline rounds) := by
  induction rounds with
  | zero => exact .fail _
  | succ rounds ih =>
      refine .look fun system => ?_
      change Tidy none none (if _ then _ else _)
      split
      · exact .done true
      · refine (Alarms.waitUntil_tidy deadline).bind fun posted => ?_
        cases posted with
        | true => exact ih
        | false => exact .look fun _ => .done _

private theorem waitFor_tidy (bound ring queue : Nat) (timeout : Tick) :
    Tidy none none (waitFor bound ring queue timeout) := by
  refine .look fun system => ?_
  change Tidy none none (if _ then _ else _)
  split
  · exact .done true
  · refine Tidy.bind (.look fun _ => .done _) fun associated => ?_
    cases associated with
    | none => exact .leave not_false (fun _ => rfl) fun _ => .fail _
    | some signal => exact .look fun _ => waitUntil_tidy bound ring queue signal _ bound

end Rings

/-- The operations that block until something is posted or a timeout passes. -/
def Action.Blocks : Action → Prop
  | .waitFor _ _ _ | .waitUntil _ _ _ | .selectFor _ _ _ | .waitForElements _ _ _ => True
  | _ => False

private theorem Action.Blocks.tidy {action : Action} (blocks : action.Blocks) (bound : Nat) :
    Tidy none none (action.activity bound) := by
  cases action with
  | waitFor queue signal delay => exact (Alarms.waitFor_tidy delay).bind fun _ => .done _
  | waitUntil queue signal deadline => exact (Alarms.waitUntil_tidy deadline).bind fun _ => .done _
  | selectFor selector queue timeout =>
      exact (Selector.waitFor_tidy bound selector queue timeout).bind fun _ => .done _
  | waitForElements ring queue timeout =>
      exact (Rings.waitFor_tidy bound ring queue timeout).bind fun _ => .done _
  | _ => exact blocks.elim

/-! ### What becomes of the queues -/

namespace Ledger

variable {ledger next : Ledger} {command : Command} {reply : command.Reply} {notes : List Occurrence}

/-- A command that handles an alarm leaves the others in their queues as they are. -/
theorem Passes.filter_others (passes : ledger.Passes next command reply notes) (single : ledger.Single)
    {alarm : Nat} (handles : command.Handles alarm) {keep : Nat → Bool} (left : keep alarm = false)
    (queue : Nat) : (next.members queue).filter keep = (ledger.members queue).filter keep := by
  cases passes with
  | stays members => rw [members]
  | enters loose members =>
      cases handles
      rw [members, filter_insert left]
  | fires => exact handles.elim
  | withdraws member members =>
      cases handles
      rw [members, filter_withdraw single left]
  | drops member members =>
      cases handles
      rw [members, filter_withdraw single left]

end Ledger

namespace System

variable {start system : System} {own : List Nat} {held : Option (Nat × Nat)}
  {others : List Occurrence} {queue alarm : Nat}

private theorem Threaded.not_holds_dropAlarm (threaded : system.Threaded) (sound : system.ledger.Sound) :
    ¬ (system.dropAlarm alarm).ledger.Holds alarm := by
  have dropped := congrArg Ledger.members (threaded.dropAlarm alarm).1
  rw [Ledger.holds_of_members dropped]
  by_cases member : alarm ∈ system.ledger.members (system.ledger.alarm alarm).queue
  · change ¬ (system.ledger.withdraw _ alarm).Holds alarm
    rw [Ledger.holds_withdraw threaded.single member]
    exact fun still => still.1 rfl
  · change ¬ (system.ledger.withdraw _ alarm).Holds alarm
    rw [Ledger.withdraw_of_not_mem member]
    rintro ⟨place, queued⟩
    exact member (sound.belongs place alarm queued ▸ queued)

/-- How things are with a call that began in a given system, has made some alarms, and may hold one of
them, after others did something. -/
structure Orderly (start : System) (own : List Nat) (held : Option (Nat × Nat))
    (others : List Occurrence) (system : System) : Prop where
  threaded : system.Threaded
  sound : system.ledger.Sound
  later : start.ledger.count ≤ system.ledger.count
  fresh : ∀ alarm ∈ own, start.ledger.count ≤ alarm ∧ alarm < system.ledger.count
  holding : ∀ queue alarm, held = some (queue, alarm) →
    alarm ∈ own ∧ (system.ledger.alarm alarm).queue = queue
  loose : ∀ alarm ∈ own, (∀ queue, held ≠ some (queue, alarm)) → ¬ system.ledger.Holds alarm
  rest : ∀ queue,
    ((system.ledger.members queue).filter fun alarm =>
      decide (alarm ∉ own) && !others.any (Occurrence.isEntryOf alarm)) =
      (start.ledger.members queue).filter fun alarm => !others.any (Occurrence.isExitOf alarm)

namespace Orderly

private theorem refl (threaded : start.Threaded) (sound : start.ledger.Sound) :
    Orderly start [] none [] start where
  threaded := threaded
  sound := sound
  later := Nat.le_refl _
  fresh _ member := (List.not_mem_nil member).elim
  holding _ _ same := nomatch same
  loose _ member := (List.not_mem_nil member).elim
  rest _ := List.filter_congr fun _ _ => rfl

theorem apply (orderly : Orderly start own held others system) {command : Command}
    (proper : system.ledger.Proper command)
    (spared : ∀ alarm ∈ own, (∀ queue, held ≠ some (queue, alarm)) → ¬ command.Handles alarm)
    {after : List Occurrence}
    (rest : ∀ queue, (((command.apply system).2.ledger.members queue).filter fun alarm =>
      decide (alarm ∉ own) && !after.any (Occurrence.isEntryOf alarm)) =
      (start.ledger.members queue).filter fun alarm => !after.any (Occurrence.isExitOf alarm)) :
    Orderly start own held after (command.apply system).2 := by
  obtain ⟨step, kept⟩ := command.step_apply orderly.threaded
  have extend := step.extends
  constructor
  case threaded => exact kept
  case sound => exact orderly.sound.step step proper
  case later => exact Nat.le_trans orderly.later extend.count
  case fresh =>
    intro alarm mine
    obtain ⟨new, exist⟩ := orderly.fresh alarm mine
    exact ⟨new, Nat.lt_of_lt_of_le exist extend.count⟩
  case holding =>
    intro queue alarm same
    obtain ⟨mine, belongs⟩ := orderly.holding queue alarm same
    exact ⟨mine, (extend.queue alarm (orderly.fresh alarm mine).2).trans belongs⟩
  case loose =>
    intro alarm mine free held
    obtain ⟨queue, queued⟩ := held
    have before := not_exists.mp (orderly.loose alarm mine free)
    exact (step.keeps_loose before (spared alarm mine free)).1 queue queued
  case rest => exact rest

/-- A command of others changes a queue only by what it notes. -/
private theorem foreign (orderly : Orderly start own held others system) {command : Command}
    (allowed : Alarms.considerate (· ∈ own) system command) :
    Orderly start own held ((command.apply system).2.since system ++ others) (command.apply system).2 := by
  refine orderly.apply allowed.1 (fun alarm mine _ => allowed.2 alarm mine) fun queue => ?_
  have moved := (command.passes orderly.threaded).filter_members orderly.threaded.single queue
  simp only [Occurrence.any_filter_isPassage _ fun _ => Occurrence.isPassage_of_isEntryOf,
    Occurrence.any_filter_isPassage _ fun _ => Occurrence.isPassage_of_isExitOf] at moved
  let next := (command.apply system).2
  let recent := next.since system
  let stays := fun alarm => decide (alarm ∉ own) && !others.any (Occurrence.isEntryOf alarm)
  calc (next.ledger.members queue).filter (fun alarm =>
        decide (alarm ∉ own) && !(recent ++ others).any (Occurrence.isEntryOf alarm))
      = ((next.ledger.members queue).filter fun alarm =>
          !recent.any (Occurrence.isEntryOf alarm)).filter stays := by
        simp only [stays, List.filter_filter, List.any_append, Bool.not_or, Bool.and_assoc,
          Bool.and_comm]
    _ = ((system.ledger.members queue).filter stays).filter fun alarm =>
          !recent.any (Occurrence.isExitOf alarm) := by
        rw [moved, List.filter_filter, List.filter_filter]
        simp only [Bool.and_comm]
        rfl
    _ = (start.ledger.members queue).filter fun alarm =>
          !(recent ++ others).any (Occurrence.isExitOf alarm) := by
        rw [orderly.rest queue, List.filter_filter]
        simp only [List.any_append, Bool.not_or]

/-- What happens beside the commands moves no alarm. -/
theorem note (orderly : Orderly start own held others system) {occurrence : Occurrence}
    (aside : occurrence.IsAside) : Orderly start own held others (system.record occurrence) := by
  have ledger := system.ledger_record aside
  exact ⟨orderly.threaded.record aside, ledger ▸ orderly.sound, ledger ▸ orderly.later,
    ledger ▸ orderly.fresh, ledger ▸ orderly.holding, ledger ▸ orderly.loose, ledger ▸ orderly.rest⟩

/-- What others note beside their commands tells of no alarm either. -/
private theorem foreign_note (orderly : Orderly start own held others system) {occurrence : Occurrence}
    (aside : occurrence.IsAside) :
    Orderly start own held ((system.record occurrence).since system ++ others)
      (system.record occurrence) := by
  have silent : ∀ alarm, occurrence.isEntryOf alarm = false ∧ occurrence.isExitOf alarm = false := by
    intro alarm
    cases occurrence <;> first | exact ⟨rfl, rfl⟩ | exact aside.elim
  have noted := orderly.note aside
  refine ⟨noted.threaded, noted.sound, noted.later, noted.fresh, noted.holding, noted.loose, ?_⟩
  intro queue
  simpa [system.since_record, silent] using noted.rest queue

private theorem reaches (orderly : Orderly start own held others system) {last : System}
    (run : Reaches (Alarms.considerate (· ∈ own)) system last) :
    Orderly start own held (last.since system ++ others) last := by
  have kept : Orderly start own held (last.since system ++ others) last ∧ last.Continues system := by
    refine run.preserves_apply (motive := fun later =>
      Orderly start own held (later.since system ++ others) later ∧ later.Continues system)
      ?_ (fun _ _ _ => ⟨trivial, fun _ _ => not_false⟩) ?_ ?_
    · have none : system.since system = [] := since_eq rfl
      rw [none]
      exact ⟨orderly, .refl system⟩
    · intro later command kept allowed
      have onward := (Continues.refl later).apply command
      have orderly := kept.1.foreign allowed
      rw [← List.append_assoc, ← kept.2.since_trans onward] at orderly
      exact ⟨orderly, kept.2.trans onward⟩
    · intro later occurrence kept aside
      have onward := (Continues.refl later).record occurrence
      have orderly := kept.1.foreign_note aside
      rw [← List.append_assoc, ← kept.2.since_trans onward] at orderly
      exact ⟨orderly, kept.2.trans onward⟩
  exact kept.1

/-- A command of the call that moves no alarm. -/
theorem leave (orderly : Orderly start own held others system) {command : Command}
    (unmoving : ¬ command.MovesAlarms) :
    Orderly start own held others (command.apply system).2 := by
  obtain ⟨step, -⟩ := command.step_apply orderly.threaded
  have proper : system.ledger.Proper command := by
    cases command with
    | insertAlarm => exact absurd trivial unmoving
    | _ => trivial
  refine orderly.apply proper (fun alarm _ _ handles => ?_) fun queue => ?_
  · cases command <;> first | exact unmoving trivial | exact handles
  · rw [step.members_of_unmoving unmoving]
    exact orderly.rest queue

private theorem begin (orderly : Orderly start own held others system) (request : Request) :
    Orderly start own held others (request.begin system) := by
  cases request with
  | rearm log delay =>
      have noted : Orderly start own held others (system.record (.rearmed log delay)) :=
        orderly.note trivial
      have unmoving : ¬ (Command.addRearm log delay).MovesAlarms := not_false
      exact noted.leave unmoving
  | sleep clock delay =>
      have noted : Orderly start own held others (system.record (.slept clock delay)) :=
        orderly.note trivial
      have unmoving : ¬ (Command.advance clock delay).MovesAlarms := not_false
      exact noted.leave unmoving
  | observe | execute | idle => exact orderly.note trivial

/-- The call makes an alarm, which is then in hand. -/
private theorem make (orderly : Orderly start own none others system) (queue : Nat) (signal : SignalRef)
    (deadline : Tick) :
    Orderly start (own ++ [system.ledger.count]) (some (queue, system.ledger.count)) others
      (system.createAlarm queue signal deadline false).2 := by
  let made := (system.createAlarm queue signal deadline false).2
  have unmoving : ¬ (Command.createAlarm queue signal deadline false).MovesAlarms := not_false
  have left : Orderly start own none others made := orderly.leave unmoving
  have ledger : made.ledger = system.ledger.create { queue, signal, deadline } :=
    (orderly.threaded.createAlarm queue signal deadline false).1
  have count : made.ledger.count = system.ledger.count + 1 := by rw [ledger]; rfl
  have absent : ∀ place, system.ledger.count ∉ made.ledger.members place := by
    intro place queued
    rw [ledger] at queued
    exact Nat.lt_irrefl _ (orderly.sound.stored place _ queued)
  constructor
  case threaded => exact left.threaded
  case sound => exact left.sound
  case later => exact left.later
  case fresh =>
    intro alarm mine
    rcases List.mem_append.mp mine with former | new
    · exact left.fresh alarm former
    · cases List.mem_singleton.mp new
      exact ⟨orderly.later, count ▸ Nat.lt_succ_self _⟩
  case holding =>
    intro place alarm same
    cases same
    refine ⟨List.mem_append_right _ (List.mem_singleton_self _), ?_⟩
    exact congrArg Alarm.queue (Alarms.alarm_createAlarm orderly.threaded queue signal deadline false)
  case loose =>
    intro alarm mine free
    rcases List.mem_append.mp mine with former | new
    · exact left.loose alarm former fun _ same => nomatch same
    · cases List.mem_singleton.mp new
      exact absurd rfl (free queue)
  case rest =>
    intro place
    rw [← left.rest place]
    refine List.filter_congr fun alarm queued => ?_
    have differ : alarm ≠ system.ledger.count := fun same => absent place (same ▸ queued)
    simp [differ]

/-- The call handles the alarm that it holds. -/
theorem handle (orderly : Orderly start own (some (queue, alarm)) others system) {command : Command}
    (handles : command.Handles alarm) (proper : system.ledger.Proper command) :
    Orderly start own (some (queue, alarm)) others (command.apply system).2 := by
  have mine := (orderly.holding queue alarm rfl).1
  refine orderly.apply proper (fun other _ free also => ?_) fun place => ?_
  · have same : alarm = other := by
      cases command <;> first | exact handles.symm.trans also | exact handles.elim
    exact free queue (same ▸ rfl)
  · rw [(command.passes orderly.threaded).filter_others orderly.threaded.single handles (by simp [mine])]
    exact orderly.rest place

/-- The call drops the alarm that it holds, which is in no queue any more. -/
private theorem drop (orderly : Orderly start own (some (queue, alarm)) others system) :
    Orderly start own none others (system.dropAlarm alarm) := by
  have handles : (Command.dropAlarm alarm).Handles alarm := rfl
  have dropped : Orderly start own (some (queue, alarm)) others (system.dropAlarm alarm) :=
    orderly.handle handles trivial
  constructor
  case threaded => exact dropped.threaded
  case sound => exact dropped.sound
  case later => exact dropped.later
  case fresh => exact dropped.fresh
  case holding => exact fun _ _ same => nomatch same
  case loose =>
    intro other mine _
    by_cases same : alarm = other
    · exact same ▸ orderly.threaded.not_holds_dropAlarm orderly.sound
    · refine dropped.loose other mine fun place held => ?_
      cases held
      exact same rfl
  case rest => exact dropped.rest

end Orderly

end System

/-- A command that leaves all alarms but some where they are, in their order. -/
def leaves (alarms : List Nat) : Conduct := fun system command =>
  ∀ queue, ((command.apply system).2.alarms.members queue).filter (· ∉ alarms) =
    (system.alarms.members queue).filter (· ∉ alarms)

private theorem leaves_of_unmoving {alarms : List Nat} {system : System} {command : Command}
    (threaded : system.Threaded) (unmoving : ¬ command.MovesAlarms) : leaves alarms system command := by
  obtain ⟨step, -⟩ := command.step_apply threaded
  intro queue
  change ((command.apply system).2.ledger.members queue).filter _ = _
  rw [step.members_of_unmoving unmoving]
  rfl

private theorem leaves_of_handles {alarms : List Nat} {system : System} {command : Command} {alarm : Nat}
    (threaded : system.Threaded) (handles : command.Handles alarm) (mine : alarm ∈ alarms) :
    leaves alarms system command := fun queue =>
  (command.passes threaded).filter_others threaded.single handles (by simp [mine]) queue

section Runs

variable {activity : Activity α} {start : System} {own : List Nat} {last held : Option (Nat × Nat)}
  {others : List Occurrence}

/-- An activity ends as it is said to, whatever others did before and during it, and at each moment leaves
the alarms where they are that it has not made. -/
structure Cleans (environment : Environment σ) (start : System) (own : List Nat)
    (last : Option (Nat × Nat)) (others : List Occurrence) (activity : Activity α) (world : World σ) :
    Prop where
  ends : start.Orderly (own ++ activity.made environment world) last
    (activity.occurrences .others environment world ++ others) (activity.run environment world).2.system
  within : activity.Within (leaves (own ++ activity.made environment world)) environment world

private theorem Cleans.act {command : Command} {next : command.Reply → Activity α}
    (permitted : ∀ alarms, own ++ command.makes (world.apply command).1 ⊆ alarms →
      leaves alarms world.system command)
    (onward : Cleans environment start (own ++ command.makes (world.apply command).1) last others
      (next (world.apply command).1) (world.apply command).2) :
    Cleans environment start own last others (.act command next) world := by
  let later := (world.apply command).2
  have made : own ++ (Activity.act command next).made environment world =
      own ++ command.makes (world.apply command).1 ++
        (next (world.apply command).1).made environment later := (List.append_assoc _ _ _).symm
  have quiet : (Activity.act command next).occurrences .others environment world =
      (next (world.apply command).1).occurrences .others environment later := List.append_nil _
  constructor
  case ends =>
    rw [made, quiet]
    exact onward.ends
  case within =>
    rw [made]
    exact ⟨permitted _ (List.subset_append_left _ _), onward.within⟩

/-- A tidy activity that others spare ends as it began, but for what others did and the alarm in hand. -/
private theorem Activity.Tidy.cleans (tidy : Tidy last held activity)
    (orderly : start.Orderly own held others world.system)
    (spared : activity.Spared environment own world) :
    Cleans environment start own last others activity world := by
  induction tidy generalizing world own others with
  | done value =>
      have same : own ++ (Activity.done value).made environment world = own := List.append_nil own
      refine ⟨?_, trivial⟩
      rw [same]
      exact orderly
  | fail failure =>
      have same : own ++ (Activity.fail failure : Activity α).made environment world = own :=
        List.append_nil own
      refine ⟨?_, trivial⟩
      rw [same]
      exact orderly
  | look _ ih =>
      obtain ⟨ends, within⟩ := ih _ orderly spared
      exact ⟨ends, within⟩
  | @ask held request next _ ih =>
      obtain ⟨during, after⟩ := spared
      obtain ⟨ends, within⟩ := ih _ ((orderly.begin request).reaches during) after
      rw [← List.append_assoc] at ends
      exact ⟨ends, within⟩
  | @leave held command next unmoving makes _ ih =>
      have none : own ++ command.makes (world.apply command).1 = own := by
        rw [makes, List.append_nil]
      refine .act (fun _ _ => leaves_of_unmoving orderly.threaded unmoving) (ih _ ?_ spared)
      rw [none]
      exact orderly.leave unmoving
  | @make queue signal deadline next _ ih =>
      refine .act (fun _ _ => leaves_of_unmoving orderly.threaded not_false) (ih _ ?_ spared)
      exact orderly.make queue signal deadline
  | @insert queue alarm next _ ih =>
      obtain ⟨mine, belongs⟩ := orderly.holding queue alarm rfl
      have proper : world.system.ledger.Proper (.insertAlarm queue alarm) :=
        ⟨(orderly.fresh alarm mine).2, belongs⟩
      refine .act (fun alarms more => leaves_of_handles orderly.threaded rfl ?_) (ih _ ?_ spared)
      · exact more (List.mem_append_left _ mine)
      · have handles : (Command.insertAlarm queue alarm).Handles alarm := rfl
        change start.Orderly (own ++ []) _ _ _
        rw [List.append_nil]
        exact orderly.handle handles proper
  | @withdraw queue alarm next _ ih =>
      have mine := (orderly.holding queue alarm rfl).1
      refine .act (fun alarms more => leaves_of_handles orderly.threaded rfl ?_) (ih _ ?_ spared)
      · exact more (List.mem_append_left _ mine)
      · have handles : (Command.withdrawAlarm queue alarm).Handles alarm := rfl
        change start.Orderly (own ++ []) _ _ _
        rw [List.append_nil]
        exact orderly.handle handles trivial
  | @drop queue alarm next _ ih =>
      have mine := (orderly.holding queue alarm rfl).1
      refine .act (fun alarms more => leaves_of_handles orderly.threaded rfl ?_) (ih ?_ spared)
      · exact more (List.mem_append_left _ mine)
      · change start.Orderly (own ++ []) _ _ _
        rw [List.append_nil]
        exact orderly.drop

end Runs

namespace Alarms

/-- Blocking calls clean up however they end: with an answer, because re-arming a timer failed, or because
the block itself was cut short. Others may do anything meanwhile, inside further blocking calls on the same
queue as well, but handle the alarms that the call has made for itself, as operations that name owned alarms
never do. Afterwards no alarm that the call has made is in a queue. The call's own commands move no other
alarm at any moment, so that but for the alarms that others put in or took out each queue is as it was, in
the same order. -/
theorem blocking_calls_clean_up {setup : Setup} {system : System}
    (run : Reaches proper setup.system system) {action : Action} (blocks : action.Blocks) (bound : Nat) :
    let call := action.activity bound
    (∀ {σ : Type} (environment : Environment σ) (outside : σ),
      let world : World σ := { system, outside }
      let after := (call.run environment world).2.system
      let made := call.made environment world
      let others := call.occurrences .others environment world
      call.Spared environment [] world →
        (∀ alarm ∈ made, system.alarms.alarms.size ≤ alarm ∧
          ∀ queue, alarm ∉ after.alarms.members queue) ∧
        call.Within (leaves made) environment world ∧
        ∀ queue,
          ((after.alarms.members queue).filter fun alarm =>
              !others.any (Occurrence.isEntryOf alarm)) =
            (system.alarms.members queue).filter fun alarm =>
              !others.any (Occurrence.isExitOf alarm)) ∧
    ∀ (inside : Interludes) (named : Nat → Prop), system.Owns (· ∈ []) named →
      inside.All (Action.Names named) →
      call.Spared Prompter.environment [] { system, outside := { cues := inside.cues bound } } := by
  intro call
  obtain ⟨threaded, sound⟩ := run.sound setup.threaded setup.sound
  constructor
  · intro σ environment outside world after made others spared
    have cleans : Cleans environment system [] none [] call world :=
      (blocks.tidy bound).cleans (.refl threaded sound) spared
    have ends := cleans.ends
    have gone : ∀ alarm ∈ made, ¬ after.ledger.Holds alarm :=
      fun alarm mine => ends.loose alarm mine fun _ same => nomatch same
    have rest : ∀ queue, ((after.alarms.members queue).filter fun alarm =>
          !others.any (Occurrence.isEntryOf alarm)) =
        (system.alarms.members queue).filter fun alarm => !others.any (Occurrence.isExitOf alarm) := by
      intro queue
      have rest := ends.rest queue
      rw [List.append_nil] at rest
      refine Eq.trans (List.filter_congr fun alarm queued => ?_) rest
      have foreign : decide (alarm ∉ made) = true :=
        decide_eq_true fun mine => gone alarm mine ⟨queue, queued⟩
      exact ((congrArg (· && _) foreign).trans (Bool.true_and _)).symm
    refine ⟨fun alarm mine => ?_, cleans.within, rest⟩
    exact ⟨(ends.fresh alarm mine).1, not_exists.mp (gone alarm mine)⟩
  · exact fun inside named owns all => all.spares owns fun _ member => member

/-- Re-arming the timer fails after another call blocked on the same queue in the middle of it, and after
one of the two alarms in the queue was withdrawn. The other one is left. -/
theorem failed_rearm_leaves_rest :
    let setup : Setup :=
      { clocks := [0], signals := [.host, .spin], rearms := [{}], queues := [{ rearm := some 0 }] }
    let system := setup.system.strides
      [.createAlarm 0 (.shared 0) 9 true, .insertAlarm 0 0, .createAlarm 0 (.shared 1) 7 true,
        .insertAlarm 0 1]
    let nested : Script := .call (.waitFor 0 1 3)
      (.next .done (.ok ()) (.next (.call (.post 1) .none .done) (.ok ()) .none)) .done
    let inside : Interludes :=
      .next (.call (.withdrawAlarm 0 1) .none nested) (.error (.thrown "no timer")) .none
    let world : World Prompter := { system, outside := { cues := inside.cues 9 } }
    let call := (Action.waitFor 0 0 5).activity 9
    let after := (call.run Prompter.environment world).2.system
    let made := call.made Prompter.environment world
    Reaches proper setup.system system ∧ call.Spared Prompter.environment [] world ∧
      (call.run Prompter.environment world).1 = .error (.thrown "no timer") ∧
      system.alarms.members 0 = [1, 0] ∧ made = [2] ∧ after.alarms.members 0 = [0] ∧
      (∀ alarm ∈ made, system.alarms.alarms.size ≤ alarm ∧
        ∀ queue, alarm ∉ after.alarms.members queue) ∧
      call.Within (leaves made) Prompter.environment world := by
  intro setup system nested inside world call after made
  have run : Reaches proper setup.system system := by
    refine .strides ⟨trivial, ⟨?_, ?_⟩, trivial, ⟨?_, ?_⟩, trivial⟩ <;> decide +kernel
  have owned : system.alarms.owned = [0, 1] := by decide +kernel
  have count : system.ledger.count = 2 := by decide +kernel
  have failed : (call.run Prompter.environment world).1 = .error (.thrown "no timer") := by
    decide +kernel
  have before : system.alarms.members 0 = [1, 0] := by decide +kernel
  have single : made = [2] := by decide +kernel
  have left : after.alarms.members 0 = [0] := by decide +kernel
  clear_value system
  have owns : system.Owns (· ∈ []) (· = 1) := by
    obtain ⟨threaded, -⟩ := run.sound setup.threaded setup.sound
    constructor
    case threaded => exact threaded
    case exist => simp [owned, count]
    case apart => simp
    case named => simp [owned]
  have blocks : (Action.waitFor 0 0 5).Blocks := trivial
  obtain ⟨cleans, spares⟩ := blocking_calls_clean_up run blocks 9
  have names : inside.All (Action.Names (· = 1)) :=
    ⟨⟨rfl, trivial, trivial, ⟨trivial, ⟨trivial, trivial, trivial⟩, trivial⟩, trivial⟩, trivial⟩
  have spared : call.Spared Prompter.environment [] world := spares inside _ owns names
  obtain ⟨gone, within, -⟩ := cleans Prompter.environment _ spared
  exact ⟨run, spared, failed, before, single, left, gone, within⟩

end Alarms

end TimedWaits
