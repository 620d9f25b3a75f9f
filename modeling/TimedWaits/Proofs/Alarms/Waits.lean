import TimedWaits.Calls.Rings
import TimedWaits.Calls.Selectors
import TimedWaits.Proofs.Alarms.Delays

/-! Calls by which alarms enter a queue. A timed wait inserts an alarm that is not due, so its deadline
is always that of a relative delay, also where it was given as a moment. Apart from the insertion all
these calls move no clock and put no alarm into a queue. -/

set_option autoImplicit false

namespace TimedWaits

/-- Commands that move no clock and put no alarm into a queue. -/
def Command.IsCalm : Command → Prop
  | .setClock _ _ | .advance _ _ | .insertAlarm _ _ => False
  | _ => True

namespace Activity

variable {α β : Type} {activity : Activity α} {permits : Permit} {system : System}

/-- An activity that applies calm commands only, whatever it finds. -/
inductive Calm {α : Type} : Activity α → Prop where
  | done (value : α) : Calm (.done value)
  | fail (failure : Failure) : Calm (.fail failure)
  | look {next : System → Activity α} (onward : ∀ system, Calm (next system)) : Calm (.look next)
  | act {command : Command} {next : command.Reply → Activity α} (calm : command.IsCalm)
      (onward : ∀ reply, Calm (next reply)) : Calm (.act command next)
  | ask {request : Request} {next : Except Failure Unit → Activity α}
      (onward : ∀ outcome, Calm (next outcome)) : Calm (.ask request next)

namespace Calm

theorem bind {next : α → Activity β} (calm : Calm activity) (onward : ∀ value, Calm (next value)) :
    Calm (activity >>= next) := by
  change Calm (activity.bind next)
  induction calm with
  | done value => exact onward value
  | fail failure => exact .fail failure
  | look _ ih => exact .look ih
  | act calm _ ih => exact .act calm ih
  | ask _ ih => exact .ask ih

theorem perform {command : Command} (calm : command.IsCalm) : Calm (.perform command) :=
  .act calm .done

theorem read (view : System → α) : Calm (.read view) := .look fun _ => .done _

theorem request (wish : Request) : Calm (.request wish) := by
  refine .ask fun outcome => ?_
  cases outcome with
  | ok => exact .done ()
  | error failure => exact .fail failure

theorem awaitPost (signal : SignalRef) (bound : Nat) : Calm (signal.awaitPost bound) := by
  induction bound with
  | zero => exact .fail _
  | succ bound ih =>
      refine .bind (.read _) fun pending => ?_
      split
      · exact .bind (.request _) fun _ => ih
      · exact .done ()

private theorem wait (signal : SignalRef) (bound : Nat) : Calm (signal.wait bound) :=
  .bind (.awaitPost signal bound) fun _ => .act trivial fun _ => .done ()

end Calm

theorem Keeps.bind {next : α → Activity β} (keeps : activity.Keeps permits system)
    (onward : ∀ value later, Leads permits system later → (next value).Keeps permits later) :
    (activity >>= next).Keeps permits system := by
  change (activity.bind next).Keeps permits system
  induction activity generalizing system with
  | done value => exact onward value system (.refl system)
  | fail => trivial
  | look _ ih => exact ih system keeps onward
  | act command _ ih =>
      exact ⟨keeps.1, ih _ keeps.2 fun value later leads =>
        onward value later ((Leads.single keeps.1).trans leads)⟩
  | ask request _ ih =>
      intro outcome later leads
      exact ih outcome (keeps outcome later leads) fun value last after =>
        onward value last (leads.trans after)

private theorem Keeps.ensuring {command : Command} (keeps : activity.Keeps permits system)
    (permitted : ∀ later, permits later.ledger command (command.apply later).2.ledger) :
    (activity.ensuring command).Keeps permits system := by
  induction activity generalizing system with
  | done | fail => exact ⟨permitted system, trivial⟩
  | look _ ih => exact ih system keeps
  | act _ _ ih => exact ⟨keeps.1, ih _ keeps.2⟩
  | ask _ _ ih => exact fun outcome later leads => ih outcome (keeps outcome later leads)

end Activity

theorem Leads.threaded {permits : Permit} {first last : System} (leads : Leads permits first last)
    (threaded : first.Threaded) : last.Threaded :=
  (leads.preserves (motive := fun _ => True) threaded trivial fun _ _ _ => trivial).1

private theorem Command.IsCalm.timely {command : Command} (calm : command.IsCalm) (queue : Nat)
    (ledger next : Ledger) : timely queue ledger command next := by
  cases command with
  | setClock | advance | insertAlarm => exact calm.elim
  | _ => exact ⟨trivial, trivial⟩

theorem Activity.Calm.keeps_timely {α : Type} {activity : Activity α} (calm : activity.Calm)
    (queue : Nat) (system : System) : activity.Keeps (timely queue) system := by
  induction calm generalizing system with
  | done | fail => trivial
  | look _ ih => exact ih system system
  | act quiet _ ih => exact ⟨quiet.timely queue _ _, ih _ _⟩
  | ask _ ih => exact fun outcome later _ => ih outcome later

namespace Alarms

open Activity

variable {queue : Nat} {system : System}

theorem add_keeps_timely {watched alarm : Nat} {delay : Tick} (exist : alarm < system.ledger.count)
    (deadline : system.ledger.deadline alarm =
      Tick.deadlineAfter (system.ledger.now queue) delay) :
    (add queue alarm).Keeps (timely watched) system := by
  change Keeps _ (if (system.ledger.alarm alarm).queue ≠ queue then _ else _) system
  by_cases own : (system.ledger.alarm alarm).queue = queue
  · rw [if_neg (not_not_intro own)]
    refine ⟨⟨⟨exist, own⟩, ?_⟩, Calm.keeps_timely (.bind (.done _) fun position => ?_) _ _⟩
    · rintro rfl -
      exact ⟨delay, deadline⟩
    · split
      · refine .bind (.read _) fun delay => .bind (.perform trivial) fun _ => ?_
        refine .bind (.read _) fun rearm => ?_
        cases rearm with
        | none => exact .done true
        | some target => exact .bind (.request _) fun _ => .done true
      · exact .done false
      · exact .done false
  · rw [if_pos own]
    exact ⟨⟨trivial, trivial⟩, trivial⟩

/-- A wait that makes an alarm with a relative delay, adds it and drops it in the end is timely. -/
theorem timed_keeps_timely {α : Type} {watched : Nat} {signal : SignalRef} {deadline delay : Tick}
    {rest : Nat → Activity α} (threaded : system.Threaded)
    (relative : deadline = Tick.deadlineAfter (system.queueNow queue) delay)
    (calm : ∀ alarm, (rest alarm).Calm) :
    (Activity.perform (.createAlarm queue signal deadline false) >>= fun alarm =>
      (Functor.discard (add queue alarm) >>= fun _ => rest alarm).ensuring
        (.dropAlarm alarm)).Keeps (timely watched) system := by
  let alarm := system.ledger.count
  let made : System := (system.createAlarm queue signal deadline false).2
  have ledger : made.ledger = system.ledger.create { queue, signal, deadline } :=
    (threaded.createAlarm queue signal deadline false).1
  have exist : alarm < made.ledger.count := ledger ▸ Nat.lt_succ_self _
  have own : made.ledger.deadline alarm = Tick.deadlineAfter (made.ledger.now queue) delay := by
    rw [ledger, Ledger.deadline]
    exact (congrArg Alarm.deadline (Function.update_self _ _ _)).trans relative
  refine ⟨⟨trivial, trivial⟩, Keeps.ensuring ?_ fun _ => ⟨trivial, trivial⟩⟩
  have added : (Functor.discard (add queue alarm)).Keeps (timely watched) made :=
    (add_keeps_timely exist own).bind fun _ _ _ => trivial
  exact added.bind fun _ _ _ => (calm alarm).keeps_timely watched _

/-- A wait inserts no alarm but a timely one, whatever its deadline is. -/
theorem waitUntil_keeps_timely {watched : Nat} (bound : Nat) (signal : SignalRef) (deadline : Tick)
    (threaded : system.Threaded) :
    (waitUntil bound queue signal deadline).Keeps (timely watched) system := by
  change Keeps _ (if Tick.isDue deadline (system.queueNow queue) then _ else _) system
  cases due : Tick.isDue deadline (system.queueNow queue) with
  | true => trivial
  | false =>
      have relative := (Tick.deadlineAfter_of_not_isDue due).symm
      refine timed_keeps_timely threaded relative fun alarm => ?_
      exact .bind (.wait signal bound) fun _ => .perform trivial

private theorem waitFor_keeps_timely {watched : Nat} (bound : Nat) (signal : SignalRef) (delay : Tick)
    (threaded : system.Threaded) :
    (waitFor bound queue signal delay).Keeps (timely watched) system := by
  rw [waitFor]
  split
  · trivial
  · exact waitUntil_keeps_timely bound signal _ threaded

end Alarms

namespace Selector

open Activity

private theorem awaitReadyOrAlarm_calm (bound selector alarm rounds : Nat) :
    Calm (awaitReadyOrAlarm bound selector alarm rounds) := by
  induction rounds with
  | zero => exact .fail _
  | succ rounds ih =>
      refine .bind (.awaitPost _ bound) fun _ => .bind (.perform trivial) fun signal => ?_
      cases signal with
      | some signal => exact .done _
      | none =>
          refine .bind (.read _) fun queued => ?_
          split
          · exact ih
          · exact .bind (.perform trivial) fun _ => .done none

private theorem waitFor_keeps_timely {watched queue : Nat} {system : System} (bound selector : Nat)
    (timeout : Tick) (threaded : system.Threaded) :
    (waitFor bound selector queue timeout).Keeps (timely watched) system := by
  have taken : (Activity.perform (.takeReady selector)).Keeps (timely watched) system :=
    ⟨⟨trivial, trivial⟩, trivial⟩
  refine taken.bind fun found later leads => ?_
  cases found with
  | some signal => trivial
  | none =>
      change Keeps _ (if timeout = 0 then _ else _) later
      split
      · trivial
      · exact Alarms.timed_keeps_timely (leads.threaded threaded) rfl fun alarm =>
          awaitReadyOrAlarm_calm bound selector alarm bound

end Selector

namespace Rings

open Activity

private theorem waitUntil_keeps_timely {watched queue : Nat} {system : System} (bound ring signal : Nat)
    (deadline : Tick) (rounds : Nat) (threaded : system.Threaded) :
    (waitUntil bound ring queue signal deadline rounds).Keeps (timely watched) system := by
  induction rounds generalizing system with
  | zero => trivial
  | succ rounds ih =>
      change Keeps _ (if !(system.rings.get ring).isEmpty then _ else _) system
      split
      · trivial
      · refine (Alarms.waitUntil_keeps_timely bound (.shared signal) deadline threaded).bind
          fun posted later leads => ?_
        cases posted with
        | true => exact ih (leads.threaded threaded)
        | false => trivial

private theorem waitFor_keeps_timely {watched queue : Nat} {system : System} (bound ring : Nat)
    (timeout : Tick) (threaded : system.Threaded) :
    (waitFor bound ring queue timeout).Keeps (timely watched) system := by
  change Keeps _ (if !(system.rings.get ring).isEmpty then _ else _) system
  split
  · trivial
  · have named : (Activity.read fun system => (system.rings.get ring).signal).Keeps
      (timely watched) system := trivial
    refine named.bind fun signal later leads => ?_
    cases signal with
    | none => exact ⟨⟨trivial, trivial⟩, trivial⟩
    | some signal => exact waitUntil_keeps_timely bound ring signal _ bound (leads.threaded threaded)

end Rings

/-- From a system on, the calls by which alarms with relative delays enter a queue insert no others,
whatever timely goes on while they are blocked. -/
structure Alarms.EntersTimely (watched : Nat) (system : System) : Prop where
  add : ∀ {queue alarm : Nat} {delay : Tick}, alarm < system.ledger.count →
    system.ledger.deadline alarm = Tick.deadlineAfter (system.ledger.now queue) delay →
    (Alarms.add queue alarm).Keeps (timely watched) system
  wait : ∀ (bound queue : Nat) (signal : SignalRef) (delay : Tick),
    (waitFor bound queue signal delay).Keeps (timely watched) system
  waitUntil : ∀ (bound queue : Nat) (signal : SignalRef) (deadline : Tick),
    (Alarms.waitUntil bound queue signal deadline).Keeps (timely watched) system
  select : ∀ (bound selector queue : Nat) (timeout : Tick),
    (Selector.waitFor bound selector queue timeout).Keeps (timely watched) system
  waitForElements : ∀ (bound ring queue : Nat) (timeout : Tick),
    (Rings.waitFor bound ring queue timeout).Keeps (timely watched) system

theorem System.Threaded.entersTimely {system : System} (threaded : system.Threaded)
    (watched : Nat) : Alarms.EntersTimely watched system where
  add exist deadline := Alarms.add_keeps_timely exist deadline
  wait bound _ signal delay := Alarms.waitFor_keeps_timely bound signal delay threaded
  waitUntil bound _ signal deadline := Alarms.waitUntil_keeps_timely bound signal deadline threaded
  select bound selector _ timeout := Selector.waitFor_keeps_timely bound selector timeout threaded
  waitForElements bound ring _ timeout := Rings.waitFor_keeps_timely bound ring timeout threaded

section Runs

variable {σ : Type} {environment : Environment σ} {world : World σ} {watched : Nat}

/-- A timed call is a part of a timely run if the surroundings go on with that run while it is blocked,
however the call ends. -/
theorem Alarms.EntersTimely.leads (enters : EntersTimely watched world.system)
    (moves : ∀ request later, Leads (timely watched) world.system later.system →
      Leads (timely watched) later.system (environment request later).2.system) (bound queue : Nat) :
    (∀ signal delay, Leads (timely watched) world.system
      ((waitFor bound queue signal delay).run environment world).2.system) ∧
    (∀ signal deadline, Leads (timely watched) world.system
      ((Alarms.waitUntil bound queue signal deadline).run environment world).2.system) ∧
    (∀ selector timeout, Leads (timely watched) world.system
      ((Selector.waitFor bound selector queue timeout).run environment world).2.system) ∧
    (∀ ring timeout, Leads (timely watched) world.system
      ((Rings.waitFor bound ring queue timeout).run environment world).2.system) := by
  refine ⟨fun signal delay => ?_, fun signal deadline => ?_, fun selector timeout => ?_,
    fun ring timeout => ?_⟩
  · exact (enters.wait bound queue signal delay).run_leads moves
  · exact (enters.waitUntil bound queue signal deadline).run_leads moves
  · exact (enters.select bound selector queue timeout).run_leads moves
  · exact (enters.waitForElements bound ring queue timeout).run_leads moves

end Runs

end TimedWaits
