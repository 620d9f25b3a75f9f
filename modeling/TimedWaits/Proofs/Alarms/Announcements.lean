import TimedWaits.Proofs.Alarms.Ownership
import TimedWaits.Proofs.Alarms.Schedulings

/-! Who is told of a new nearest deadline. An alarm that enters a queue at its front is announced to the
re-arm log of the queue before anything else can happen, and nothing else is announced. So there have been
as many requests to re-arm as entries at the front. -/

set_option autoImplicit false

namespace TimedWaits

open Activity

/-- Whether a command puts an alarm into a queue. -/
def Command.Enqueues : Command → Prop
  | .insertAlarm _ _ => True
  | _ => False

namespace Occurrence

/-- A request to re-arm by a log. -/
def isRearming (target : Nat) : Occurrence → Bool
  | .rearmed other _ => other = target
  | _ => false

def isQueuing : Occurrence → Bool
  | .queued _ _ => true
  | _ => false

end Occurrence

namespace System

variable {first middle last system : System} {target queue alarm : Nat}

/-- The re-arm log that the queue of an alarm reports to. -/
def rearmOf (system : System) (alarm : Nat) : Option Nat :=
  (system.alarms.queues.get (system.alarms.alarms.get alarm).queue).rearm

/-- The entry of an alarm at the front of a queue that reports to a re-arm log. -/
def isLead (system : System) (target : Nat) : Occurrence → Bool
  | .queued alarm 0 => system.rearmOf alarm = some target
  | _ => false

theorem queues_apply (command : Command) (system : System) :
    (command.apply system).2.alarms.queues = system.alarms.queues := by
  by_cases concerned : command.ConcernsAlarms
  · cases command with
    | insertAlarm queue alarm =>
        simp only [Command.apply, insertAlarm]
        split <;> rfl
    | fireFirst queue now =>
        simp only [Command.apply, fireFirst]
        split
        · rfl
        · simp only [beginPost]
          split <;> rfl
    | withdrawAlarm queue alarm =>
        simp only [Command.apply, withdrawAlarm]
        split <;> rfl
    | dropAlarm alarm =>
        simp only [Command.apply, dropAlarm]
        split <;> rfl
    | createAlarm | setClock | advance => rfl
    | _ => exact concerned.elim
  · exact congrArg (fun timing : Timing => timing.alarms.queues) (Command.timing_apply concerned system)

/-- A later moment of a run: alarms and queues are still what they were made as. -/
structure Grows (first last : System) : Prop where
  threaded : last.Threaded
  continues : last.Continues first
  extend : first.ledger.Extends last.ledger
  queues : last.alarms.queues = first.alarms.queues

namespace Grows

theorem refl (threaded : system.Threaded) : Grows system system :=
  ⟨threaded, .refl system, .of_eq rfl rfl, rfl⟩

theorem trans (before : Grows first middle) (after : Grows middle last) : Grows first last where
  threaded := after.threaded
  continues := before.continues.trans after.continues
  extend := before.extend.trans after.extend
  queues := after.queues.trans before.queues

theorem apply (grows : Grows first last) (command : Command) : Grows first (command.apply last).2 := by
  obtain ⟨step, kept⟩ := command.step_apply grows.threaded
  exact grows.trans ⟨kept, (Continues.refl last).apply command, step.extends, queues_apply command last⟩

theorem note (grows : Grows first last) {occurrence : Occurrence} (aside : occurrence.IsAside) :
    Grows first (last.record occurrence) := by
  have ledger := last.ledger_record aside
  have same : last.ledger.Extends (last.record occurrence).ledger :=
    .of_eq (congrArg Ledger.count ledger) (congrArg Ledger.alarm ledger)
  exact grows.trans
    ⟨grows.threaded.record aside, (Continues.refl last).record occurrence, same, rfl⟩

theorem begin (grows : Grows first last) (request : Request) : Grows first (request.begin last) := by
  cases request with
  | rearm log delay =>
      have noted : Grows first (last.record (.rearmed log delay)) := grows.note trivial
      exact noted.apply (.addRearm log delay)
  | sleep clock delay =>
      have noted : Grows first (last.record (.slept clock delay)) := grows.note trivial
      exact noted.apply (.advance clock delay)
  | observe | execute | idle => exact grows.note trivial

theorem reaches {conduct : Conduct} (grows : Grows first middle) (run : Reaches conduct middle last) :
    Grows first last :=
  run.preserves (motive := Grows first) grows
    (fun kept _ => stride_preserves (motive := Grows first) (kept.apply _)
      fun index token called => called.apply (.markReady index token))
    fun kept aside => kept.note aside

theorem rearmOf_eq (grows : Grows first last) (exist : alarm < first.ledger.count) :
    last.rearmOf alarm = first.rearmOf alarm := by
  have same : (last.alarms.alarms.get alarm).queue = (first.alarms.alarms.get alarm).queue :=
    grows.extend.queue alarm exist
  rw [rearmOf, grows.queues, same, rearmOf]

end Grows

/-- Since an earlier moment a re-arm log was told of every alarm that entered a queue of its at the front,
and of nothing else. -/
structure Announces (target : Nat) (first last : System) : Prop extends Grows first last where
  exist : ∀ alarm position, .queued alarm position ∈ last.since first → alarm < last.ledger.count
  balance : (last.since first).countP (Occurrence.isRearming target) =
    (last.since first).countP (last.isLead target)

namespace Announces

theorem trans (before : Announces target first middle) (after : Announces target middle last) :
    Announces target first last := by
  have whole := before.continues.since_trans after.continues
  refine ⟨before.toGrows.trans after.toGrows, fun alarm position noted => ?_, ?_⟩
  · rw [whole] at noted
    cases List.mem_append.mp noted with
    | inl recent => exact after.exist alarm position recent
    | inr former =>
        exact Nat.lt_of_lt_of_le (before.exist alarm position former) after.extend.count
  · have stable : (middle.since first).countP (last.isLead target) =
        (middle.since first).countP (middle.isLead target) := by
      refine List.countP_congr fun occurrence noted => ?_
      cases occurrence with
      | queued alarm position =>
          have same := after.rearmOf_eq (before.exist alarm position noted)
          cases position with
          | zero => simp only [isLead, same]
          | succ => exact Iff.rfl
      | _ => exact Iff.rfl
    rw [whole, List.countP_append, List.countP_append, after.balance, before.balance, stable]

/-- The entry of an alarm, if there was one, with what was told of it before anything else happened. -/
theorem of_entry {later entry : List Occurrence} (grows : Grows first last)
    (since : last.since first = later ++ entry) (quiet : later.countP Occurrence.isQueuing = 0)
    (entered : ∀ occurrence ∈ entry, ∃ alarm position,
      occurrence = .queued alarm position ∧ alarm < last.ledger.count)
    (told : later.countP (Occurrence.isRearming target) = entry.countP (last.isLead target)) :
    Announces target first last := by
  rw [List.countP_eq_zero] at quiet
  have leads : later.countP (last.isLead target) = 0 := by
    rw [List.countP_eq_zero]
    intro occurrence noted lead
    cases occurrence with
    | queued => exact quiet _ noted rfl
    | _ => cases lead
  have rearmings : entry.countP (Occurrence.isRearming target) = 0 := by
    rw [List.countP_eq_zero]
    intro occurrence noted rearming
    obtain ⟨alarm, position, rfl, -⟩ := entered occurrence noted
    cases rearming
  refine ⟨grows, fun alarm position noted => ?_, ?_⟩
  · rw [since] at noted
    cases List.mem_append.mp noted with
    | inl recent => exact absurd rfl (quiet _ recent)
    | inr former =>
        obtain ⟨other, place, same, exist⟩ := entered _ former
        cases same
        exact exist
  · rw [since, List.countP_append, List.countP_append, told, leads, rearmings]
    exact Nat.add_comm _ _

/-- Nothing is to be announced where no alarm enters a queue. -/
theorem of_silent (grows : Grows first last) (quiet : (last.since first).countP Occurrence.isQueuing = 0)
    (untold : (last.since first).countP (Occurrence.isRearming target) = 0) :
    Announces target first last :=
  of_entry grows (List.append_nil _).symm quiet (fun _ member => (List.not_mem_nil member).elim) untold

theorem refl (threaded : system.Threaded) : Announces target system system := by
  have none : system.since system = [] := since_eq rfl
  refine of_silent (.refl threaded) ?_ ?_ <;> rw [none] <;> rfl

theorem apply (announces : Announces target first last) {command : Command}
    (quiet : ¬ command.Enqueues) : Announces target first (command.apply last).2 := by
  refine announces.trans (of_silent ((Grows.refl announces.threaded).apply command) ?_ ?_)
  · refine command.countP_since (fun occurrence notes => ?_) (fun _ => rfl) (fun _ _ => rfl) last
    cases occurrence with
    | queued alarm =>
        obtain ⟨queue, rfl⟩ := notes
        exact absurd trivial quiet
    | _ => rfl
  · refine command.countP_since (fun occurrence notes => ?_) (fun _ => rfl) (fun _ _ => rfl) last
    cases occurrence with
    | rearmed => exact notes.elim
    | _ => rfl

theorem begin (announces : Announces target first last) {request : Request}
    (other : ∀ delay, request ≠ .rearm target delay) : Announces target first (request.begin last) := by
  refine announces.trans (of_silent ((Grows.refl announces.threaded).begin request) ?_ ?_)
  · refine request.countP_since ?_ (fun _ => rfl) last
    cases request <;> rfl
  · refine request.countP_since ?_ (fun _ => rfl) last
    cases request with
    | rearm log delay => exact decide_eq_false fun same => other delay (same ▸ rfl)
    | _ => rfl

end Announces

/-! ### Entries -/

/-- The ticks left until the deadline of an alarm on the clock of a queue. -/
def leadOf (system : System) (queue alarm : Nat) : Tick :=
  Tick.remaining (system.alarms.alarms.get alarm).deadline (system.queueNow queue)

/-- A system in which an alarm has entered a queue and the nearest deadline is logged. -/
def enter (system : System) (queue alarm : Nat) : System :=
  (system.insertAlarm queue alarm).2.log (.nearestAlarmChanged (system.leadOf queue alarm))

theorem Grows.enter (grows : Grows first last) : Grows first (last.enter queue alarm) :=
  (grows.apply (.insertAlarm queue alarm)).apply (.log _)

theorem since_enter (front : (system.insertAlarm queue alarm).1 = some 0) :
    (system.enter queue alarm).since system =
      [.logged (.nearestAlarmChanged (system.leadOf queue alarm)), .queued alarm 0] := by
  have since := system.since_insertAlarm queue alarm
  have before : (system.insertAlarm queue alarm).2.Continues system :=
    (Continues.refl system).apply (.insertAlarm queue alarm)
  have whole := before.since_trans ((Continues.refl (system.insertAlarm queue alarm).2).record
    (.logged (.nearestAlarmChanged (system.leadOf queue alarm))))
  rw [since_record, since, front] at whole
  exact whole

namespace Announces

/-- An entry behind the front need not be told. -/
theorem insertAlarm (announces : Announces target first last) (exist : alarm < last.ledger.count)
    (behind : (last.insertAlarm queue alarm).1 ≠ some 0) :
    Announces target first (last.insertAlarm queue alarm).2 := by
  have grows : Grows last (last.insertAlarm queue alarm).2 :=
    (Grows.refl announces.threaded).apply (.insertAlarm queue alarm)
  have since := last.since_insertAlarm queue alarm
  refine announces.trans ?_
  cases reply : (last.insertAlarm queue alarm).1 with
  | none =>
      rw [reply] at since
      refine of_silent grows ?_ ?_ <;> rw [since] <;> rfl
  | some position =>
      rw [reply] at since behind
      have split : (last.insertAlarm queue alarm).2.since last = [] ++ [.queued alarm position] := since
      refine of_entry grows split rfl (fun occurrence member => ?_) ?_
      · exact ⟨alarm, position, List.mem_singleton.mp member,
          Nat.lt_of_lt_of_le exist grows.extend.count⟩
      · cases position with
        | zero => exact absurd rfl behind
        | succ => rfl

/-- An entry at the front of a queue without a re-arm log is told to none. -/
private theorem enter (announces : Announces target first last) (exist : alarm < last.ledger.count)
    (front : (last.insertAlarm queue alarm).1 = some 0) (none : last.rearmOf alarm = none) :
    Announces target first (last.enter queue alarm) := by
  have grows : Grows last (last.enter queue alarm) := (Grows.refl announces.threaded).enter
  have split : (last.enter queue alarm).since last =
      [.logged (.nearestAlarmChanged (last.leadOf queue alarm))] ++ [.queued alarm 0] :=
    since_enter front
  refine announces.trans (of_entry grows split rfl (fun occurrence member => ?_) ?_)
  · exact ⟨alarm, 0, List.mem_singleton.mp member, Nat.lt_of_lt_of_le exist grows.extend.count⟩
  · have same : (last.enter queue alarm).rearmOf alarm = Option.none :=
      (grows.rearmOf_eq exist).trans none
    simp [Occurrence.isRearming, isLead, same]

/-- The re-arm log of a queue is told of an entry at the front. -/
theorem enter_told (announces : Announces target first last) {log : Nat}
    (exist : alarm < last.ledger.count) (front : (last.insertAlarm queue alarm).1 = some 0)
    (told : last.rearmOf alarm = some log) :
    Announces target first
      ((Request.rearm log (last.leadOf queue alarm)).begin (last.enter queue alarm)) := by
  let request := Request.rearm log (last.leadOf queue alarm)
  have entered : Grows last (last.enter queue alarm) := (Grows.refl announces.threaded).enter
  have begun : Grows (last.enter queue alarm) (request.begin (last.enter queue alarm)) :=
    (Grows.refl entered.threaded).begin request
  have grows := entered.trans begun
  have since := entered.continues.since_trans begun.continues
  rw [since_enter front] at since
  let notes := (request.begin (last.enter queue alarm)).since (last.enter queue alarm)
  have split : (request.begin (last.enter queue alarm)).since last =
      (notes ++ [.logged (.nearestAlarmChanged (last.leadOf queue alarm))]) ++ [.queued alarm 0] := by
    rw [since, List.append_assoc]
    rfl
  refine announces.trans (of_entry grows split ?_ (fun occurrence member => ?_) ?_)
  · rw [List.countP_append, request.countP_since rfl fun _ => rfl]
    rfl
  · exact ⟨alarm, 0, List.mem_singleton.mp member, Nat.lt_of_lt_of_le exist grows.extend.count⟩
  · have same : (request.begin (last.enter queue alarm)).rearmOf alarm = some log :=
      (grows.rearmOf_eq exist).trans told
    have noted : notes.countP (Occurrence.isRearming target) =
        [Occurrence.rearmed log (last.leadOf queue alarm)].countP (Occurrence.isRearming target) := by
      rcases request.since_begin (last.enter queue alarm) with only | ⟨notice, both⟩
      · exact congrArg (List.countP _) only
      · exact (congrArg (List.countP _) both).trans rfl
    have lead : (request.begin (last.enter queue alarm)).isLead target (.queued alarm 0) =
        decide (log = target) := by
      rw [isLead, same]
      simp
    have counts : ∀ (next : System) (notice : Notice) (delay : Tick),
        next.isLead target (.queued alarm 0) = decide (log = target) →
        [Occurrence.rearmed log delay].countP (Occurrence.isRearming target) +
            [Occurrence.logged notice].countP (Occurrence.isRearming target) =
          [Occurrence.queued alarm 0].countP (next.isLead target) := by
      intro next notice delay lead
      simp [Occurrence.isRearming, List.countP_cons, lead]
    rw [List.countP_append, noted]
    exact counts _ _ _ lead

end Announces

end System

/-! ### Additions -/

namespace Alarms

variable {σ : Type} {environment : Environment σ} {world : World σ} {queue alarm target : Nat}

theorem leadOf_insertAlarm (system : System) (queue alarm : Nat) :
    Tick.remaining (system.alarms.alarms.get alarm).deadline
      ((system.insertAlarm queue alarm).2.queueNow queue) = system.leadOf queue alarm := by
  have queues := System.queues_apply (.insertAlarm queue alarm) system
  change (system.insertAlarm queue alarm).2.alarms.queues = _ at queues
  have clocks : (system.insertAlarm queue alarm).2.clocks = system.clocks := by
    simp only [System.insertAlarm]
    split <;> rfl
  rw [System.leadOf, System.queueNow, System.queueNow, System.now, System.now, queues, clocks]

variable (world queue alarm) in
theorem announce_run :
    let told := { world with system := world.system.enter queue alarm }
    let inserted := { world with system := (world.system.insertAlarm queue alarm).2 }
    (announce queue (world.system.alarms.alarms.get alarm) (some 0)).run environment inserted =
      match (world.system.alarms.queues.get queue).rearm with
      | none => (.ok true, told)
      | some target =>
        let answer := environment (.rearm target (world.system.leadOf queue alarm)) told
        (answer.1.map fun _ => true, answer.2) := by
  intro told inserted
  have queues : told.system.alarms.queues = world.system.alarms.queues :=
    System.queues_apply (.insertAlarm queue alarm) world.system
  have lead := leadOf_insertAlarm world.system queue alarm
  simp only [System.enter, told] at queues
  rw [announce_eq]
  simp only [Activity.run, World.apply, Command.apply, inserted, lead, queues]
  cases (world.system.alarms.queues.get queue).rearm with
  | none => rfl
  | some target => exact Activity.run_request_bind _ _ _

/-- An addition to the queue that an alarm is meant for: at the front it re-arms the timer. -/
theorem add_run (belongs : (world.system.alarms.alarms.get alarm).queue = queue) :
    (add queue alarm).run environment world =
      if (world.system.insertAlarm queue alarm).1 = some 0 then
        match (world.system.alarms.queues.get queue).rearm with
        | none => (.ok true, { world with system := world.system.enter queue alarm })
        | some target =>
          let answer := environment (.rearm target (world.system.leadOf queue alarm))
            { world with system := world.system.enter queue alarm }
          (answer.1.map fun _ => true, answer.2)
      else (.ok false, { world with system := (world.system.insertAlarm queue alarm).2 }) := by
  have inserts : (add queue alarm).run environment world =
      (announce queue (world.system.alarms.alarms.get alarm)
        (world.system.insertAlarm queue alarm).1).run environment
          { world with system := (world.system.insertAlarm queue alarm).2 } := by
    rw [add_eq]
    change Activity.run environment (if _ then _ else _) world = _
    rw [if_neg (not_not_intro belongs)]
    rfl
  rw [inserts]
  split
  · next front =>
    rw [front]
    exact announce_run world queue alarm
  · next behind =>
    cases reply : (world.system.insertAlarm queue alarm).1 with
    | none => rfl
    | some position =>
        cases position with
        | zero => exact absurd reply behind
        | succ => rfl

/-- All that an addition asks for is that the timer be re-armed, with the alarm at the front. -/
private theorem add_asks {condition : Request → System → Prop}
    (belongs : (world.system.alarms.alarms.get alarm).queue = queue)
    (asked : ∀ target, (world.system.insertAlarm queue alarm).1 = some 0 →
      (world.system.alarms.queues.get queue).rearm = some target →
      condition (.rearm target (world.system.leadOf queue alarm)) (world.system.enter queue alarm)) :
    (add queue alarm).Asks condition environment world := by
  have queues : (world.system.enter queue alarm).alarms.queues = world.system.alarms.queues :=
    System.queues_apply (.insertAlarm queue alarm) world.system
  have lead := leadOf_insertAlarm world.system queue alarm
  simp only [System.enter] at queues asked
  rw [add_eq]
  change Activity.Asks _ _ (if _ then _ else _) world
  rw [if_neg (not_not_intro belongs)]
  change Activity.Asks _ _ (announce queue _ (world.system.insertAlarm queue alarm).1) _
  cases reply : (world.system.insertAlarm queue alarm).1 with
  | none => trivial
  | some position =>
      cases position with
      | succ => trivial
      | zero =>
          rw [announce_eq]
          simp only [Activity.Asks, World.apply, Command.apply, lead, queues]
          cases rearm : (world.system.alarms.queues.get queue).rearm with
          | none => trivial
          | some target => exact .bind (.request (asked target reply rearm)) fun _ _ _ => trivial

theorem head_enter {system : System} (threaded : system.Threaded)
    (front : (system.insertAlarm queue alarm).1 = some 0) :
    ((system.enter queue alarm).ledger.members queue).head? = some alarm := by
  have loose : ∀ other, alarm ∉ system.ledger.members other := by
    intro other queued
    rw [threaded.insertAlarm_queued queue queued] at front
    cases front
  obtain ⟨reply, inserted, -⟩ := threaded.insertAlarm_loose queue loose
  rw [reply] at front
  have none : system.ledger.ahead queue alarm = [] := List.eq_nil_of_length_eq_zero (Option.some.inj front)
  have same : (system.enter queue alarm).ledger = (system.insertAlarm queue alarm).2.ledger := rfl
  rw [same, inserted, Ledger.members_insert, none]
  rfl

end Alarms

/-! ### Operations inside one another -/

/-- Whether an operation is one of the timers: it makes, adds, takes off or drops alarms, looks at them,
checks a queue or moves a clock. The signals that alarms post may be handled as well. -/
def Action.IsTiming : Action → Prop
  | .now _ | .advance _ _ | .setClock _ _ | .createAlarm _ _ _ | .createAlarmAfter _ _ _
  | .addAlarm _ _ | .scheduleAlarm _ | .withdrawAlarm _ _ | .cancelAlarm _ | .dropAlarm _
  | .isQueued _ | .deadline _ | .check _ | .queueLength _ | .queueIsEmpty _ | .nextDeadline _
  | .queueNow _ | .post _ | .raise _ | .take _ | .attach _ _ _ | .detach _ _ | .forward _
  | .throw _ => True
  | _ => False

/-- Whether an operation adds an alarm to a queue. -/
def Action.Adds : Action → Prop
  | .addAlarm _ _ | .scheduleAlarm _ => True
  | _ => False

/-- Only additions put alarms into queues, and no other operation of the timers asks for anything but the
reaction of an observer. -/
theorem Action.timing_uses {action : Action} (timing : action.IsTiming) (adds : ¬ action.Adds)
    (bound : Nat) : (action.activity bound).Uses (fun command => ¬ command.Enqueues)
      fun request => ∃ observer token, request = .observe observer token := by
  have answering : ∀ {α : Type} {activity : Activity α} (answer : α → Answer),
      activity.Uses (fun command => ¬ command.Enqueues)
        (fun request => ∃ observer token, request = .observe observer token) →
      (activity >>= fun value => .done (answer value)).Uses (fun command => ¬ command.Enqueues)
        fun request => ∃ observer token, request = .observe observer token :=
    fun _ uses => uses.bind fun _ => .done _
  have creates : ∀ queue signal deadline,
      (Alarms.create queue signal deadline).Uses (fun command => ¬ command.Enqueues)
        fun request => ∃ observer token, request = .observe observer token :=
    fun _ _ _ => .bind (.read _) fun _ => .bind (.discard (.perform not_false)) fun _ => .done _
  cases action with
  | now | queueLength | queueIsEmpty | nextDeadline | queueNow => exact .read _
  | throw => exact .fail _
  | deadline => exact .bind (.read _) fun _ => .read _
  | isQueued => exact .look fun _ => .look fun _ => .done _
  | advance | setClock => exact .act not_false fun _ => .read _
  | raise | take | attach | detach => exact .act not_false fun _ => .done _
  | withdrawAlarm | dropAlarm => exact .look fun _ => .act not_false fun _ => .done _
  | cancelAlarm => exact .look fun _ => .look fun _ => .act not_false fun _ => .done _
  | createAlarm => exact answering _ (creates _ _ _)
  | createAlarmAfter => exact answering _ (.bind (.read _) fun _ => creates _ _ _)
  | check queue =>
      refine answering _ ((Alarms.check_uses bound queue).mono fun command own entering => ?_)
      cases command with
      | insertAlarm =>
          obtain ⟨now, same⟩ | ⟨unconcerned, -⟩ := own
          · cases same
          · exact unconcerned trivial
      | _ => exact entering
  | post signal =>
      refine answering _ (.act not_false fun attachment => Alarms.callAny_uses ?_ ?_ attachment)
      · exact fun _ _ => not_false
      · exact fun observer token => ⟨observer, token, rfl⟩
  | forward signal =>
      refine answering _ (.bind (.read _) fun attachment => ?_)
      cases attachment with
      | none => exact .done false
      | some attachment =>
          refine .bind (Alarms.callAny_uses ?_ ?_ (some attachment)) fun _ => .done true
          · exact fun _ _ => not_false
          · exact fun observer token => ⟨observer, token, rfl⟩
  | addAlarm | scheduleAlarm => exact absurd trivial adds
  | _ => exact timing.elim

/-- How many alarms an operation makes for an owner at least. -/
def Action.handsOut : Action → Nat
  | .createAlarm _ _ _ | .createAlarmAfter _ _ _ => 1
  | _ => 0

mutual

/-- Operations that name no alarm before it was made for an owner, where so many were made already. -/
def Script.InScope (made : Nat) : Script → Prop
  | .done => True
  | .call action inside rest =>
      action.Names (· < made) ∧ inside.InScope made ∧ rest.InScope (made + action.handsOut)

def Interludes.InScope (made : Nat) : Interludes → Prop
  | .none => True
  | .next script _ rest => script.InScope made ∧ rest.InScope made

end

/-- So many alarms at least have an owner, and all that have one exist. -/
structure System.Grants (made : Nat) (system : System) : Prop where
  threaded : system.Threaded
  exist : ∀ alarm ∈ system.alarms.owned, alarm < system.ledger.count
  enough : made ≤ system.alarms.owned.length

namespace System.Grants

variable {system : System} {made fewer : Nat}

theorem mono (grants : system.Grants made) (less : fewer ≤ made) : system.Grants fewer :=
  ⟨grants.threaded, grants.exist, Nat.le_trans less grants.enough⟩

theorem owns (grants : system.Grants made) : system.Owns (fun _ => False) (· < made) where
  threaded := grants.threaded
  exist := grants.exist
  apart _ mine := mine.elim
  named place names := by
    have within := Nat.lt_of_lt_of_le names grants.enough
    rw [List.getD_eq_getElem _ _ within]
    exact List.getElem_mem within

theorem exist_named (grants : system.Grants made) {place : Nat} (names : place < made) :
    system.alarms.owned.getD place 0 < system.ledger.count :=
  grants.exist _ (grants.owns.named place names)

theorem apply (grants : system.Grants made) (command : Command) :
    (command.apply system).2.Grants (made + (command.handsOut (command.apply system).1).length) := by
  have kept := grants.owns.apply command
  refine ⟨kept.threaded, kept.exist, ?_⟩
  rw [System.owned_apply, List.length_append]
  exact Nat.add_le_add_right grants.enough _

private theorem begin (grants : system.Grants made) (request : Request) :
    (request.begin system).Grants made := by
  have kept := grants.owns.begin request
  refine ⟨kept.threaded, kept.exist, ?_⟩
  cases request with
  | rearm log delay =>
      have same : ((Request.rearm log delay).begin system).alarms.owned = system.alarms.owned := by
        simp only [Request.begin, System.addRearm]
        split <;> rfl
      exact same ▸ grants.enough
  | sleep | observe | execute | idle => exact grants.enough

theorem of_run {setup : Setup} {conduct : Conduct} (run : Reaches conduct setup.system system) :
    system.Grants system.alarms.owned.length := by
  have start : setup.system.Owns (fun _ => False) (fun _ => False) :=
    ⟨setup.threaded, fun _ member => (List.not_mem_nil member).elim, fun _ mine => mine.elim,
      fun _ names => names.elim⟩
  have owns := start.reaches run
  exact ⟨owns.threaded, owns.exist, Nat.le_refl _⟩

end System.Grants

section Operations

variable {made target bound : Nat} {first : System} {world : World Prompter}

/-- A re-arm log was told of every entry at the front since an earlier moment, and it will be of those
that the surroundings cause. -/
structure Heralded (made target : Nat) (first : System) (world : World Prompter) : Prop where
  announces : first.Announces target world.system
  grants : world.system.Grants made
  cues : ∀ cue ∈ world.outside.cues, ∀ system : System, system.Grants made →
    system.Announces target (cue.play system).2 ∧ (cue.play system).2.Grants made

namespace Heralded

theorem apply (heralded : Heralded made target first world) {command : Command}
    (quiet : ¬ command.Enqueues) : Heralded made target first (world.apply command).2 :=
  ⟨heralded.announces.apply quiet, (heralded.grants.apply command).mono (Nat.le_add_right _ _),
    heralded.cues⟩

theorem answer {request : Request} (grants : world.system.Grants made)
    (cues : ∀ cue ∈ world.outside.cues, ∀ system : System, system.Grants made →
      system.Announces target (cue.play system).2 ∧ (cue.play system).2.Grants made)
    (begun : first.Announces target (request.begin world.system)) :
    Heralded made target first (Prompter.environment request world).2 := by
  obtain ⟨system, pending, endings⟩ := world
  cases pending with
  | nil => exact ⟨begun, grants.begin request, cues⟩
  | cons cue rest =>
      obtain ⟨told, kept⟩ := cues cue List.mem_cons_self _ (grants.begin request)
      exact ⟨begun.trans told, kept, fun other member => cues other (List.mem_cons_of_mem cue member)⟩

private theorem uses {α : Type} {activity : Activity α} (heralded : Heralded made target first world)
    (uses : activity.Uses (fun command => ¬ command.Enqueues)
      fun request => ∃ observer token, request = .observe observer token) :
    Heralded made target first (activity.run Prompter.environment world).2 := by
  induction uses generalizing world with
  | done | fail => exact heralded
  | look _ ih => exact ih _ heralded
  | act quiet _ ih => exact ih _ (heralded.apply quiet)
  | ask asked _ ih =>
      obtain ⟨observer, token, rfl⟩ := asked
      exact ih _ (answer heralded.grants heralded.cues (heralded.announces.begin nofun))

private theorem add {alarm : Nat} (heralded : Heralded made target first world)
    (exist : alarm < world.system.ledger.count) (queue : Nat) :
    Heralded made target first ((Alarms.add queue alarm).run Prompter.environment world).2 := by
  by_cases belongs : (world.system.alarms.alarms.get alarm).queue = queue
  · rw [Alarms.add_run belongs]
    have inserted : (world.system.insertAlarm queue alarm).2.Grants made :=
      heralded.grants.apply (.insertAlarm queue alarm)
    have entered : (world.system.enter queue alarm).Grants made := inserted.apply (.log _)
    split
    · next front =>
      cases rearm : (world.system.alarms.queues.get queue).rearm with
      | none =>
          have untold : world.system.rearmOf alarm = none := by rw [System.rearmOf, belongs, rearm]
          exact ⟨heralded.announces.enter exist front untold, entered, heralded.cues⟩
      | some log =>
          have told : world.system.rearmOf alarm = some log := by rw [System.rearmOf, belongs, rearm]
          let entry : World Prompter := { world with system := world.system.enter queue alarm }
          have kept : entry.system.Grants made := entered
          exact answer kept heralded.cues (heralded.announces.enter_told exist front told)
    · next behind => exact ⟨heralded.announces.insertAlarm exist behind, inserted, heralded.cues⟩
  · have refused : (Alarms.add queue alarm).run Prompter.environment world =
        (.error (.fatal "event added to a foreign queue"),
          { world with system := world.system.log (.halted "event added to a foreign queue") }) := by
      rw [Alarms.add_eq]
      change Activity.run _ (if _ then _ else _) world = _
      rw [if_pos belongs]
      rfl
    let command := Command.log (.halted "event added to a foreign queue")
    have kept : Heralded made target first (world.apply command).2 := heralded.apply not_false
    rw [refused]
    exact kept

/-- What an operation answers changes nothing. -/
private theorem answering {α : Type} {activity : Activity α} {answer : α → Answer}
    (heralded : Heralded made target first (activity.run Prompter.environment world).2) :
    Heralded made target first
      ((activity >>= fun value => .done (answer value)).run Prompter.environment world).2 := by
  rw [Activity.run_bind]
  cases ran : activity.run Prompter.environment world with
  | mk outcome later =>
      rw [ran] at heralded
      cases outcome <;> exact heralded

theorem action {action : Action} (heralded : Heralded made target first world)
    (timing : action.IsTiming) (names : action.Names (· < made)) (bound : Nat) :
    Heralded made target first ((action.activity bound).run Prompter.environment world).2 := by
  by_cases adds : action.Adds
  · cases action with
    | addAlarm queue place =>
        exact answering (heralded.add (heralded.grants.exist_named names) queue)
    | scheduleAlarm place =>
        exact answering (heralded.add (heralded.grants.exist_named names) _)
    | _ => exact adds.elim
  · exact heralded.uses (Action.timing_uses timing adds bound)

/-- An operation that makes alarms for an owner leaves so many more. -/
private theorem hands (heralded : Heralded made target first world) {action : Action}
    (timing : action.IsTiming) (names : action.Names (· < made)) (bound : Nat) :
    ((action.activity bound).run Prompter.environment world).2.system.Grants (made + action.handsOut) := by
  cases action with
  | createAlarm queue signal deadline =>
      exact heralded.grants.apply (.createAlarm queue (.shared signal) deadline true)
  | createAlarmAfter queue signal delay =>
      exact heralded.grants.apply (.createAlarm queue (.shared signal) _ true)
  | _ => exact (heralded.action timing names bound).grants

private theorem asks_uses {α : Type} {activity : Activity α} (heralded : Heralded made target first world)
    (uses : activity.Uses (fun command => ¬ command.Enqueues)
      fun request => ∃ observer token, request = .observe observer token) :
    activity.Asks (fun request now => first.Announces target (request.begin now)) Prompter.environment
      world := by
  induction uses generalizing world with
  | done | fail => trivial
  | look _ ih => exact ih _ heralded
  | act quiet _ ih => exact ih _ (heralded.apply quiet)
  | ask asked _ ih =>
      obtain ⟨observer, token, rfl⟩ := asked
      have begun : first.Announces target ((Request.observe observer token).begin world.system) :=
        heralded.announces.begin nofun
      exact ⟨begun, ih _ (answer heralded.grants heralded.cues begun)⟩

private theorem asks_add {alarm : Nat} (heralded : Heralded made target first world)
    (exist : alarm < world.system.ledger.count) (queue : Nat) :
    (Alarms.add queue alarm).Asks (fun request now => first.Announces target (request.begin now))
      Prompter.environment world := by
  by_cases belongs : (world.system.alarms.alarms.get alarm).queue = queue
  · refine Alarms.add_asks belongs fun log front rearm => ?_
    have told : world.system.rearmOf alarm = some log := by rw [System.rearmOf, belongs, rearm]
    exact heralded.announces.enter_told exist front told
  · rw [Alarms.add_eq]
    change Activity.Asks _ _ (if _ then _ else _) world
    rw [if_pos belongs]
    trivial

/-- Whenever an operation lets others act, a re-arm log was told of every entry at the front. -/
theorem asks {action : Action} (heralded : Heralded made target first world)
    (timing : action.IsTiming) (names : action.Names (· < made)) (bound : Nat) :
    (action.activity bound).Asks (fun request now => first.Announces target (request.begin now))
      Prompter.environment world := by
  by_cases adds : action.Adds
  · cases action with
    | addAlarm queue place =>
        exact (heralded.asks_add (heralded.grants.exist_named names) queue).bind fun _ _ _ => trivial
    | scheduleAlarm place =>
        exact (heralded.asks_add (heralded.grants.exist_named names) _).bind fun _ _ _ => trivial
    | _ => exact adds.elim
  · exact heralded.asks_uses (Action.timing_uses timing adds bound)

end Heralded

mutual

/-- Operations of the timers tell a re-arm log of every entry at the front, and of nothing else. -/
theorem Script.All.announces (target bound : Nat) {script : Script} (all : script.All Action.IsTiming)
    {made : Nat} (scope : script.InScope made) {system : System} (grants : system.Grants made) :
    system.Announces target (script.run bound system).2 ∧ (script.run bound system).2.Grants made := by
  cases script with
  | done => exact ⟨.refl grants.threaded, grants⟩
  | call action inside rest =>
      obtain ⟨timing, within, later⟩ := all
      obtain ⟨names, scopeWithin, scopeLater⟩ := scope
      let world : World Prompter := { system, outside := { cues := inside.cues bound } }
      have start : Heralded made target system world :=
        ⟨.refl grants.threaded, grants, fun cue member _ grants =>
          Interludes.All.announces target bound within scopeWithin cue member grants⟩
      have ended := start.action timing names bound
      obtain ⟨told, kept⟩ := later.announces target bound scopeLater (start.hands timing names bound)
      exact ⟨ended.announces.trans told, kept.mono (Nat.le_add_right _ _)⟩

theorem Interludes.All.announces (target bound : Nat) {interludes : Interludes}
    (all : interludes.All Action.IsTiming) {made : Nat} (scope : interludes.InScope made) (cue : Cue)
    (member : cue ∈ interludes.cues bound) {system : System} (grants : system.Grants made) :
    system.Announces target (cue.play system).2 ∧ (cue.play system).2.Grants made := by
  cases interludes with
  | none => cases member
  | next script answer rest =>
      rcases List.mem_cons.mp member with rfl | member
      · exact all.1.announces target bound scope.1 grants
      · exact Interludes.All.announces target bound all.2 scope.2 cue member grants

end

/-- A call begins with nothing to tell, and what runs inside it tells of its entries. -/
theorem Interludes.All.heralded (target bound : Nat) {inside : Interludes}
    (all : inside.All Action.IsTiming) (scope : inside.InScope made) {system : System}
    (grants : system.Grants made) :
    Heralded made target system { system, outside := { cues := inside.cues bound } } :=
  ⟨.refl grants.threaded, grants, fun cue member _ grants =>
    all.announces target bound scope cue member grants⟩

end Operations

end TimedWaits
