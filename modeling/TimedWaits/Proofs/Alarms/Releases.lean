import TimedWaits.Proofs.Alarms.Soundings
import TimedWaits.Proofs.Rings.Passes

/-! What becomes of a wait when its own alarm fires. The alarm posts the signal, and the wait looks at
nothing but the count of that. -/

set_option autoImplicit false

namespace TimedWaits

open Activity

namespace Alarms

variable {alarm signal queue : Nat}

/-! ### Waits -/

variable {σ : Type} {environment : Environment σ} {conduct : Conduct} {world after : World σ}
  {bound more : Nat} {deadline : Tick} {own : List Nat} {woken : Bool}

private theorem awaiting_supplied
    (meanwhile : (awaiting bound queue signal alarm).Meanwhile (untaken signal) environment world)
    (tallies : world.system.Tallies signal) :
    System.Supplied signal world.system
      ((awaiting bound queue signal alarm).run environment world).2.system := by
  refine (awaiting_uses bound queue signal alarm).preserves meanwhile (.refl tallies) ?_
    (fun kept _ => kept.begin _) fun kept run => kept.reaches run
  intro system command kept allowed
  refine kept.apply ?_
  rcases allowed with rfl | log
  · exact nofun
  · exact log.ne_take signal

private theorem announce_ok {record : Alarm} {position : Option Nat}
    (granted : (announce queue record position).Granted environment world) :
    ∃ first ran, (announce queue record position).run environment world = (.ok first, ran) := by
  match position with
  | none | some (_ + 1) => exact ⟨false, world, rfl⟩
  | some 0 =>
      rw [announce_eq] at granted ⊢
      dsimp only [Granted] at granted
      dsimp only [run]
      generalize (world.apply _).2 = told at granted ⊢
      cases rearm : (told.system.alarms.queues.get queue).rearm with
      | none => exact ⟨true, told, rfl⟩
      | some target =>
          rw [rearm] at granted
          obtain ⟨asked, -⟩ := granted_bind.mp granted
          have answer := run_bind environment
            (Activity.request (.rearm target (Tick.remaining record.deadline (world.system.queueNow queue))))
            (fun _ => Activity.done true) told
          rw [asked.run_request] at answer
          exact ⟨true, _, answer⟩

/-- An addition whose requests are granted comes to its end. -/
theorem add_ok (granted : (add queue alarm).Granted environment world)
    (belongs : (world.system.alarms.alarms.get alarm).queue = queue) :
    ∃ first ran, (add queue alarm).run environment world = (.ok first, ran) := by
  rw [add_eq, Granted, if_neg (not_not_intro belongs), Granted] at granted
  rw [add_eq, run, if_neg (not_not_intro belongs), run]
  exact announce_ok granted

section Ahead

variable (threaded : world.system.Threaded)
  (ahead : Tick.isDue deadline (world.system.queueNow queue) = false)
  (granted : (waitUntil bound queue (.shared signal) deadline).Granted environment world)
  (longer : bound < more)

include threaded ahead granted longer

/-- A wait that is left off where there is a post comes to its end there with any larger bound. -/
theorem awaiting_more
    (posted : ((awaiting bound queue signal world.system.ledger.count).run environment
      (world.withAlarm queue signal deadline)).2.system.pending signal ≠ 0) :
    (awaiting more queue signal world.system.ledger.count).run environment
        (world.withAlarm queue signal deadline) =
      (.ok (), ((awaiting bound queue signal world.system.ledger.count).run environment
        (world.withAlarm queue signal deadline)).2) := by
  rw [← granted_upon, waitUntil_upon ahead, Granted, World.apply_createAlarm] at granted
  have blocked := granted_ensuring.mp granted
  rw [blockedWait_eq] at blocked
  obtain ⟨during, -⟩ := granted_bind.mp blocked
  obtain ⟨adding, onward⟩ := granted_bind.mp during
  have belongs : ((world.withAlarm queue signal deadline).system.alarms.alarms.get
      world.system.ledger.count).queue = queue :=
    congrArg Alarm.queue (made_alarm queue signal deadline threaded)
  obtain ⟨first, ran, added⟩ := add_ok (granted_bind.mp adding).1 belongs
  have discarded := run_discard environment (add queue world.system.ledger.count)
    (world.withAlarm queue signal deadline)
  rw [added] at discarded
  rw [awaiting, run_bind, discarded] at posted
  rw [awaiting, awaiting, run_bind, run_bind, discarded]
  exact SignalRef.awaitPost_more (onward () ran discarded) posted longer

/-- A wait that returns does the same with any larger bound. -/
theorem waitUntil_more
    (returned : (waitUntil bound queue (.shared signal) deadline).run environment world =
      (.ok woken, after)) :
    (waitUntil more queue (.shared signal) deadline).run environment world = (.ok woken, after) := by
  obtain ⟨ready, waited, posted, rfl, rfl⟩ := waitUntil_returned ahead returned
  have same := awaiting_more threaded ahead granted longer (by rwa [waited])
  rw [waited] at same
  exact waitUntil_run_ok ahead same

end Ahead

section Released

variable (threaded : world.system.Threaded) (sound : world.system.ledger.Sound)
  (ahead : Tick.isDue deadline (world.system.queueNow queue) = false)

include threaded ahead

/-- Whenever a wait blocks, there is no post to take, and its alarm will post the signal that it waits
for. -/
private theorem waitUntil_blocks
    (meanwhile : (waitUntil bound queue (.shared signal) deadline).Meanwhile conduct environment world) :
    (waitUntil bound queue (.shared signal) deadline).Asks (fun request now =>
      ∀ reference, request = .idle reference → reference = .shared signal ∧ now.pending signal = 0 ∧
        Aims world.system.ledger.count signal now) environment world := by
  refine waitUntil_asks ahead ?_
  have aims : Aims world.system.ledger.count signal (world.withAlarm queue signal deadline).system := by
    obtain ⟨created, kept⟩ := threaded.createAlarm queue (.shared signal) deadline false
    refine ⟨kept, ?_, congrArg Alarm.signal (made_alarm queue signal deadline threaded)⟩
    change _ < (made queue signal deadline world.system).ledger.count
    rw [made, created]
    exact Nat.lt_succ_self _
  refine Asks.mono ((awaiting_uses bound queue signal _).asks_kept (awaiting_asks _ _ _ _)
    (waitUntil_meanwhile ahead meanwhile) aims (fun kept _ => kept.apply _) (fun kept _ => kept.begin _)
    fun kept run => kept.reaches run) ?_
  rintro request now ⟨idle, kept⟩ reference rfl
  obtain ⟨same, none⟩ := idle reference rfl
  exact ⟨same, none, kept⟩

include sound

/-- A wait whose alarm has sounded needs no more than to go on. -/
private theorem waitUntil_released (tallies : world.system.Tallies signal)
    (spared : (waitUntil bound queue (.shared signal) deadline).Spared environment own world)
    (meanwhile : (waitUntil bound queue (.shared signal) deadline).Meanwhile (untaken signal) environment
      world)
    (granted : (waitUntil bound queue (.shared signal) deadline).Granted environment world)
    (sounded : Sounded world.system.ledger.count signal
      ((waitUntil bound queue (.shared signal) deadline).run environment world).2.system)
    (longer : bound < more) :
    ∃ last, (waitUntil more queue (.shared signal) deadline).run environment world = (.ok false, last) := by
  cases posted : (awaiting bound queue signal world.system.ledger.count).run environment
      (world.withAlarm queue signal deadline) with
  | mk outcome ready =>
      cases outcome with
      | ok =>
          have returned := waitUntil_run_ok ahead posted
          have ended := waitUntil_ended threaded sound ahead spared returned
          rw [returned] at sounded
          have unwoken := ended.unwoken sounded
          exact ⟨_, (waitUntil_more threaded ahead granted longer returned).trans
            (Prod.ext (congrArg Except.ok unwoken) rfl)⟩
      | error failure =>
          rw [waitUntil_run_error ahead posted] at sounded
          have rung := sounded.of_dropAlarm
          -- The count was raised since the wait began, and the post is still there.
          have silent : (world.withAlarm queue signal deadline).system.postsBy world.system.ledger.count = 0 :=
            ((Command.createAlarm queue (.shared signal) deadline false).postsBy_apply not_false _
              world.system).trans (System.postsBy_count sound)
          have supplied : System.Supplied signal (world.withAlarm queue signal deadline).system
              ready.system := by
            have kept := awaiting_supplied (waitUntil_meanwhile ahead meanwhile)
              (tallies.apply (.createAlarm queue (.shared signal) deadline false))
            rwa [posted] at kept
          have some := supplied.pending_ne_zero (rung.raised supplied.continues silent)
          have same := awaiting_more threaded ahead granted longer (by rwa [posted])
          rw [posted] at same
          have returned := waitUntil_run_ok ahead same
          have tracked := awaiting_tracked threaded sound (List.mem_append_right own List.mem_cons_self)
            (waitUntil_spared ahead spared)
          rw [posted] at tracked
          have taken : Tracked _ queue deadline world.system (ready.system.take (.shared signal)).2 :=
            tracked.apply (.take (.shared signal)) trivial not_false
          have continues : (conclude queue signal world.system.ledger.count ready.system).2.Continues
              ready.system :=
            ((System.Continues.refl _).apply (.take (.shared signal))).apply (.withdrawAlarm queue _)
          have unwoken := taken.ended.unwoken (rung.later continues)
          exact ⟨_, returned.trans (Prod.ext (congrArg Except.ok unwoken) rfl)⟩

end Released

/-- Others grant what a call asks for, leave its alarms and some others alone, and take no post of a
signal. -/
structure LeftAlone {α : Type} (own : List Nat) (signal : Nat) (environment : Environment σ)
    (call : Activity α) (world : World σ) : Prop where
  spared : call.Spared environment own world
  untaken : call.Meanwhile (untaken signal) environment world
  granted : call.Granted environment world

/-- How a wait that goes on for at most a number of requests comes to its end by its alarm. Whenever it
blocks, there is no post to take, and from then on its alarm belongs to the signal that it waits for. It
returns only if there was a post or the count was raised since. And once its alarm was fired while nothing
observed the signal, it returns, if it may go on. -/
structure EndsByAlarm (wait : Nat → Activity Bool) (bound alarm signal : Nat) (environment : Environment σ)
    (world : World σ) : Prop where
  blocks : (wait bound).Asks (fun request now => ∀ reference, request = .idle reference →
    reference = .shared signal ∧ now.pending signal = 0 ∧
      ∀ moment, Reaches anything (request.begin now) moment →
        (moment.alarms.alarms.get alarm).signal = .shared signal) environment world
  stays : ∀ woken after, (wait bound).run environment world = (.ok woken, after) →
    world.system.pending signal ≠ 0 ∨ .raised (.shared signal) ∈ after.system.since world.system
  returns : ∀ moment queue tick, Strikes alarm signal queue tick moment →
    (moment.signal (.shared signal)).attachment = none →
    ((wait bound).run environment world).2.system.Continues (moment.stride (.fireFirst queue tick)) →
    ∀ more > bound, ∃ last, (wait more).run environment world = (.ok false, last)

private theorem Strikes.sounded {moment last : System} {tick : Tick}
    (strikes : Strikes alarm signal queue tick moment)
    (unobserved : (moment.signal (.shared signal)).attachment = none)
    (continues : last.Continues (moment.stride (.fireFirst queue tick))) : Sounded alarm signal last := by
  have sounds := strikes.sounds
  rw [if_pos unobserved] at sounds
  exact sounds.1.later continues

theorem waitUntil_endsByAlarm (threaded : world.system.Threaded) (sound : world.system.ledger.Sound)
    (tallies : world.system.Tallies signal)
    (ahead : Tick.isDue deadline (world.system.queueNow queue) = false)
    (alone : LeftAlone own signal environment (waitUntil bound queue (.shared signal) deadline) world) :
    EndsByAlarm (fun bound => waitUntil bound queue (.shared signal) deadline) bound
      world.system.ledger.count signal environment world := by
  constructor
  case blocks =>
    refine (waitUntil_blocks threaded ahead alone.untaken).mono ?_
    intro request now blocks reference idle
    obtain ⟨same, none, aims⟩ := blocks reference idle
    exact ⟨same, none, fun moment run => ((aims.begin request).reaches run).signal⟩
  case stays =>
    intro woken after returned
    have supply := alone.untaken.takes_le tallies
    rw [waitUntil_takes ahead returned, returned] at supply
    by_cases none : world.system.pending signal = 0
    · have raised : 0 < (after.system.since world.system).countP (Occurrence.isRaise (.shared signal)) := by
        dsimp only at supply
        omega
      obtain ⟨occurrence, member, raise⟩ := List.countP_pos_iff.mp raised
      cases occurrence with
      | raised other => exact .inr ((of_decide_eq_true raise : other = _) ▸ member)
      | _ => cases raise
    · exact .inl none
  case returns =>
    intro moment queue tick strikes unobserved continues more longer
    exact waitUntil_released threaded sound ahead tallies alone.spared alone.untaken alone.granted
      (strikes.sounded unobserved continues) longer

private theorem waitFor_endsByAlarm {delay : Tick} (threaded : world.system.Threaded)
    (sound : world.system.ledger.Sound) (tallies : world.system.Tallies signal) (some : delay ≠ 0)
    (alone : LeftAlone own signal environment (waitFor bound queue (.shared signal) delay) world) :
    EndsByAlarm (fun bound => waitFor bound queue (.shared signal) delay) bound
      world.system.ledger.count signal environment world := by
  have same : (fun bound => waitFor bound queue (.shared signal) delay) = fun bound => .look fun system =>
      waitUntil bound queue (.shared signal) (Tick.deadlineAfter (system.queueNow queue) delay) :=
    funext fun bound => waitFor_of_delay some bound queue signal
  rw [waitFor_of_delay some] at alone
  have ends := waitUntil_endsByAlarm threaded sound tallies (not_due_of_delay some)
    ⟨alone.spared, alone.untaken, alone.granted⟩
  rw [same]
  exact ⟨ends.blocks, ends.stays, ends.returns⟩

end Alarms

/-! ### Waits for elements -/

namespace Rings

open Alarms

variable {σ : Type} {environment : Environment σ} {world last : World σ}
  {bound more ring queue signal rounds passes : Nat} {deadline : Tick} {own : List Nat}

theorem waitUntil_leftAlone (empty : (world.system.rings.get ring).isEmpty = true)
    (alone : LeftAlone own signal environment
      (waitUntil bound ring queue signal deadline (rounds + 1)) world) :
    LeftAlone own signal environment (Alarms.waitUntil bound queue (.shared signal) deadline) world ∧
      ∀ later, (Alarms.waitUntil bound queue (.shared signal) deadline).run environment world =
        (.ok true, later) →
        ∃ others, LeftAlone others signal environment
          (waitUntil bound ring queue signal deadline rounds) later := by
  obtain ⟨spared, untaken, granted⟩ := alone
  obtain ⟨sparedNow, sparedLater⟩ := waitUntil_spared empty spared
  obtain ⟨untakenNow, untakenLater⟩ := waitUntil_meanwhile empty untaken
  rw [← granted_upon, waitUntil_upon_empty empty, granted_upon] at granted
  obtain ⟨grantedNow, grantedLater⟩ := granted_bind.mp granted
  refine ⟨⟨sparedNow, untakenNow, grantedNow⟩, fun later woken => ?_⟩
  obtain ⟨others, sparedNext⟩ := sparedLater later woken
  exact ⟨others, sparedNext, untakenLater later woken, grantedLater true later woken⟩

namespace Passes

/-- The passes that a wait went through are the same with any larger bound, and it is left alone in the
one after them. -/
private theorem leftAlone (through : Passes bound ring queue signal deadline environment passes world last)
    (threaded : world.system.Threaded) (sound : world.system.ledger.Sound)
    (tallies : world.system.Tallies signal)
    (alone : LeftAlone own signal environment
      (waitUntil bound ring queue signal deadline (passes + rounds)) world) :
    last.system.Threaded ∧ last.system.ledger.Sound ∧ last.system.Tallies signal ∧
      (∃ others, LeftAlone others signal environment
        (waitUntil bound ring queue signal deadline rounds) last) ∧
      ∀ more > bound, Passes more ring queue signal deadline environment passes world last := by
  induction through generalizing own with
  | start world =>
      rw [Nat.zero_add] at alone
      exact ⟨threaded, sound, tallies, ⟨own, alone⟩, fun more _ => .start world⟩
  | @pass passes world later last empty woken onward ih =>
      rw [Nat.succ_add] at alone
      obtain ⟨now, onwardAlone⟩ := waitUntil_leftAlone empty alone
      obtain ⟨others, aloneLater⟩ := onwardAlone later woken
      have ahead := ahead_of_woken woken
      have ended := waitUntil_ended threaded sound ahead now.spared woken
      have counted := now.untaken.tallies tallies
      rw [woken] at counted
      obtain ⟨threadedLast, soundLast, talliesLast, aloneLast, longer⟩ :=
        ih ended.threaded ended.sound counted aloneLater
      exact ⟨threadedLast, soundLast, talliesLast, aloneLast, fun more above =>
        .pass empty (waitUntil_more threaded ahead now.granted above woken) (longer more above)⟩

end Passes

/-- A wait for elements comes to block in a pass that begins in a given world. -/
structure BlocksIn (bound ring queue signal : Nat) (deadline : Tick) (environment : Environment σ)
    (world later : World σ) : Prop where
  through : ∃ passes < bound, Passes bound ring queue signal deadline environment passes world later
  empty : (later.system.rings.get ring).isEmpty = true
  ahead : Tick.isDue deadline (later.system.queueNow queue) = false

/-- How a wait for elements comes to its end by the alarm of a pass. It is over, or cut off, in the pass
after some that woke up to a post. A pass that blocks is a wait that ends by its alarm, and with it ends
the call, which says whether the ring has elements. -/
structure EndsByAlarm (call : Nat → Activity Bool) (bound ring queue signal : Nat) (deadline : Tick)
    (environment : Environment σ) (world : World σ) : Prop where
  ending : ∃ passes left later, passes + left = bound ∧
    Passes bound ring queue signal deadline environment passes world later ∧
    Ending bound ring queue signal deadline environment left later
      ((call bound).run environment world).1 ((call bound).run environment world).2
  pass : ∀ later, BlocksIn bound ring queue signal deadline environment world later →
    Alarms.EndsByAlarm (fun bound => Alarms.waitUntil bound queue (.shared signal) deadline) bound
      later.system.ledger.count signal environment later
  returns : ∀ later, BlocksIn bound ring queue signal deadline environment world later →
    ∀ moment queue' tick, Strikes later.system.ledger.count signal queue' tick moment →
    (moment.signal (.shared signal)).attachment = none →
    ((Alarms.waitUntil bound queue (.shared signal) deadline).run environment later).2.system.Continues
      (moment.stride (.fireFirst queue' tick)) →
    ∀ more > bound, ∃ last, (call more).run environment world =
      (.ok !(last.system.rings.get ring).isEmpty, last)

private theorem waitUntil_endsByAlarm (threaded : world.system.Threaded) (sound : world.system.ledger.Sound)
    (tallies : world.system.Tallies signal)
    (alone : LeftAlone own signal environment (waitUntil bound ring queue signal deadline bound) world) :
    EndsByAlarm (fun bound => waitUntil bound ring queue signal deadline bound) bound ring queue signal
      deadline environment world := by
  have blocked : ∀ later, BlocksIn bound ring queue signal deadline environment world later →
      Alarms.EndsByAlarm (fun bound => Alarms.waitUntil bound queue (.shared signal) deadline) bound
          later.system.ledger.count signal environment later ∧
        ∃ passes < bound, ∀ more > bound,
          Passes more ring queue signal deadline environment passes world later := by
    rintro later ⟨⟨passes, fewer, through⟩, empty, ahead⟩
    obtain ⟨left, same⟩ : ∃ left, passes + (left + 1) = bound := ⟨bound - passes - 1, by omega⟩
    have whole : LeftAlone own signal environment
        (waitUntil bound ring queue signal deadline (passes + (left + 1))) world := by rwa [same]
    obtain ⟨threaded, sound, tallies, ⟨others, alone⟩, longer⟩ :=
      through.leftAlone threaded sound tallies whole
    exact ⟨Alarms.waitUntil_endsByAlarm threaded sound tallies ahead (waitUntil_leftAlone empty alone).1,
      passes, fewer, longer⟩
  constructor
  case ending => exact waitUntil_ending bound ring queue signal deadline environment bound world
  case pass => exact fun later blocks => (blocked later blocks).1
  case returns =>
    intro later blocks moment queue' tick strikes unobserved continues more longer
    obtain ⟨ends, passes, fewer, through⟩ := blocked later blocks
    obtain ⟨last, released⟩ := ends.returns moment queue' tick strikes unobserved continues more longer
    obtain ⟨left, same⟩ : ∃ left, passes + (left + 1) = more := ⟨more - passes - 1, by omega⟩
    have onward : (waitUntil more ring queue signal deadline (passes + (left + 1))).run environment world =
        (waitUntil more ring queue signal deadline (left + 1)).run environment later :=
      (through more longer).run
    rw [same, waitUntil_run_empty blocks.empty, released] at onward
    exact ⟨last, onward⟩

private theorem waitFor_endsByAlarm {timeout : Tick} (threaded : world.system.Threaded)
    (sound : world.system.ledger.Sound) (tallies : world.system.Tallies signal)
    (empty : (world.system.rings.get ring).isEmpty = true)
    (associated : (world.system.rings.get ring).signal = some signal)
    (alone : LeftAlone own signal environment (waitFor bound ring queue timeout) world) :
    EndsByAlarm (fun bound => waitFor bound ring queue timeout) bound ring queue signal
      (Tick.deadlineAfter (world.system.queueNow queue) timeout) environment world := by
  have upon := fun bound => waitFor_upon empty associated bound queue timeout
  have runs : ∀ bound, (waitFor bound ring queue timeout).run environment world =
      (waitUntil bound ring queue signal (Tick.deadlineAfter (world.system.queueNow queue) timeout)
        bound).run environment world := by
    intro bound
    rw [← run_upon, upon, run_upon]
  have ends := @waitUntil_endsByAlarm σ environment world bound ring queue signal
    (Tick.deadlineAfter (world.system.queueNow queue) timeout) own threaded sound tallies ?_
  · constructor
    case ending =>
      rw [runs]
      exact ends.ending
    case pass => exact ends.pass
    case returns =>
      intro later blocks moment queue' tick strikes unobserved continues more longer
      rw [runs]
      exact ends.returns later blocks moment queue' tick strikes unobserved continues more longer
  · obtain ⟨spared, untaken, granted⟩ := alone
    rw [← spared_upon, upon, spared_upon] at spared
    rw [← meanwhile_upon, upon, meanwhile_upon] at untaken
    rw [← granted_upon, upon, granted_upon] at granted
    exact ⟨spared, untaken, granted⟩

end Rings

namespace Alarms

/-- An alarm that is fired raises the count of its signal exactly if nothing observes the signal at that
moment. In any system that proper strides lead to, this decides what becomes of a wait that blocks until a
deadline or for a delay, or for the elements of a ring, as long as others take no post of the signal: with
an observer there, the count of the signal stays at zero, and the call goes on only when someone else
raises it. Without one, the call returns once its own alarm was fired. -/
theorem fired_alarm_ends_wait {setup : Setup} {σ : Type} {world : World σ}
    (run : Reaches proper setup.system world.system) (environment : Environment σ)
    (bound queue signal : Nat) :
    (∀ moment alarm queue tick, Strikes alarm signal queue tick moment →
      let next := moment.stride (.fireFirst queue tick)
      if (moment.signal (.shared signal)).attachment = none then next.pending signal ≠ 0
      else next.pending signal = moment.pending signal ∧ .raised (.shared signal) ∉ next.since moment) ∧
    (∀ deadline, Tick.isDue deadline (world.system.queueNow queue) = false →
      let wait := fun bound => waitUntil bound queue (.shared signal) deadline
      LeftAlone [] signal environment (wait bound) world →
      EndsByAlarm wait bound world.system.ledger.count signal environment world) ∧
    (∀ delay, delay ≠ 0 →
      let wait := fun bound => waitFor bound queue (.shared signal) delay
      LeftAlone [] signal environment (wait bound) world →
      EndsByAlarm wait bound world.system.ledger.count signal environment world) ∧
    ∀ ring timeout, (world.system.rings.get ring).isEmpty = true →
      (world.system.rings.get ring).signal = some signal →
      let call := fun bound => Rings.waitFor bound ring queue timeout
      LeftAlone [] signal environment (call bound) world →
      Rings.EndsByAlarm call bound ring queue signal
        (Tick.deadlineAfter (world.system.queueNow queue) timeout) environment world := by
  obtain ⟨threaded, sound⟩ := run.sound setup.threaded setup.sound
  have tallies : world.system.Tallies signal := (setup.tallies signal).reaches run
  refine ⟨?_, ?_, ?_, ?_⟩
  · intro moment alarm queue tick strikes next
    have sounds := strikes.sounds
    split
    · next unobserved =>
      rw [if_pos unobserved] at sounds
      exact sounds.2
    · next observed =>
      rw [if_neg observed] at sounds
      exact sounds.symm
  · intro deadline ahead wait alone
    exact waitUntil_endsByAlarm threaded sound tallies ahead alone
  · intro delay some wait alone
    exact waitFor_endsByAlarm threaded sound tallies some alone
  · intro ring timeout empty associated call alone
    exact Rings.waitFor_endsByAlarm threaded sound tallies empty associated alone

/-- Others who grant everything and make the same strides whenever they are asked. -/
def routinely (commands : List Command) : Environment Unit := fun request world =>
  (.ok (), { world with system := (request.begin world.system).strides commands })

theorem reaches_strides {conduct : Conduct} {commands : List Command}
    (allowed : ∀ command ∈ commands, ∀ system, conduct system command) (system : System) :
    Reaches conduct system (system.strides commands) := by
  induction commands generalizing system with
  | nil => exact .refl system
  | cons command rest ih =>
      have later := ih fun other member => allowed other (List.mem_cons_of_mem command member)
      exact (Reaches.single command (allowed command List.mem_cons_self system)).trans (later _)

theorem routinely_leftAlone {α : Type} {signal : Nat} {own : List Nat} {commands : List Command}
    (proper : ∀ command ∈ commands, ∀ ledger : Ledger, ledger.Proper command)
    (spares : ∀ command ∈ commands, ∀ alarm, ¬ command.Handles alarm)
    (leaves : ∀ command ∈ commands, command ≠ .take (.shared signal)) (call : Activity α)
    (world : World Unit) : LeftAlone own signal (routinely commands) call world where
  spared := .of_answers fun _ _ _ => reaches_strides
    (fun command member _ => ⟨proper command member _, fun alarm _ => spares command member alarm⟩) _
  untaken := .of_answers fun _ _ => reaches_strides (fun command member _ => leaves command member) _
  granted := .of_answers fun _ _ => rfl

/-- Something observes the signal when the wait begins, and lets go of it before the alarm is fired. -/
theorem unobserved_firing_ends_wait :
    let setup : Setup := { clocks := [0], signals := [.host], queues := [{}] }
    let system := setup.system.strides [.attach 0 (.custom 0) 7]
    let world : World Unit := { system, outside := () }
    let environment := routinely [.detach 0 (.custom 0), .advance 0 5, .fireFirst 0 5]
    let wait := fun bound => waitFor bound 0 (.shared 0) 5
    let after := ((wait 1).run environment world).2
    let entered := (system.strides [.createAlarm 0 (.shared 0) 5 false, .insertAlarm 0 0,
      .log (.nearestAlarmChanged 5)]).record (.blocked (.shared 0))
    let moment := entered.strides [.detach 0 (.custom 0), .advance 0 5]
    Reaches proper setup.system world.system ∧ LeftAlone [] 0 environment (wait 1) world ∧
      (world.system.signal (.shared 0)).attachment ≠ none ∧
      (wait 1).run environment world = (.error .exhausted, after) ∧
      Strikes 0 0 0 5 moment ∧ (moment.signal (.shared 0)).attachment = none ∧
      after.system.Continues (moment.stride (.fireFirst 0 5)) ∧
      (moment.stride (.fireFirst 0 5)).pending 0 ≠ 0 ∧
      ∃ last, (wait 2).run environment world = (.ok false, last) := by
  intro setup system world environment wait after entered moment
  have run : Reaches proper setup.system world.system :=
    reaches_strides (by simp [proper, Ledger.Proper]) _
  have number : world.system.ledger.count = 0 := by decide +kernel
  have observed : (world.system.signal (.shared 0)).attachment ≠ none := by decide +kernel
  have blocked : ((wait 1).run environment world).1 = .error .exhausted := by decide +kernel
  have strikes : Strikes 0 0 0 5 moment := by decide +kernel
  have unobserved : (moment.signal (.shared 0)).attachment = none := by decide +kernel
  have onward : after.system.Continues (moment.stride (.fireFirst 0 5)) := by
    rw [System.Continues]
    decide +kernel
  clear_value system moment
  have alone : LeftAlone [] 0 environment (wait 1) world :=
    routinely_leftAlone (by simp [Ledger.Proper]) (by simp [Command.Handles]) (by simp) _ _
  obtain ⟨raises, -, waits, -⟩ := fired_alarm_ends_wait run environment 1 0 0
  have raised := raises moment 0 0 5 strikes
  rw [if_pos unobserved] at raised
  have ends := waits 5 (by decide) alone
  rw [number] at ends
  exact ⟨run, alone, observed, Prod.ext blocked rfl, strikes, unobserved, onward, raised,
    ends.returns moment 0 5 strikes unobserved onward 2 (by decide)⟩

/-- A selector watches the signal that a wait is given. The post of its alarm goes to the selector, and
the wait stays blocked though its deadline was checked. -/
theorem watched_signal_hides_timeout :
    let setup : Setup :=
      { clocks := [0], signals := [.host], queues := [{}], selectors := [{ capacity := 1 }] }
    let system := setup.system.strides [.watch 0 0]
    let world : World Unit := { system, outside := () }
    let environment := routinely [.advance 0 5, .fireFirst 0 5]
    let wait := fun bound => waitFor bound 0 (.shared 0) 5
    let after := ((wait 3).run environment world).2
    let entered := (system.strides [.createAlarm 0 (.shared 0) 5 false, .insertAlarm 0 0,
      .log (.nearestAlarmChanged 5)]).record (.blocked (.shared 0))
    let moment := entered.strides [.advance 0 5]
    Reaches proper setup.system world.system ∧ LeftAlone [] 0 environment (wait 3) world ∧
      Strikes 0 0 0 5 moment ∧ after.system.Continues (moment.stride (.fireFirst 0 5)) ∧
      (moment.stride (.fireFirst 0 5)).pending 0 = 0 ∧
      (wait 3).run environment world = (.error .exhausted, after) ∧ after.system.pending 0 = 0 := by
  intro setup system world environment wait after entered moment
  have run : Reaches proper setup.system world.system :=
    reaches_strides (by simp [proper, Ledger.Proper]) _
  have blocked : ((wait 3).run environment world).1 = .error .exhausted := by decide +kernel
  have strikes : Strikes 0 0 0 5 moment := by decide +kernel
  have unraised : (moment.stride (.fireFirst 0 5)).pending 0 = 0 := by decide +kernel
  have empty : after.system.pending 0 = 0 := by decide +kernel
  have onward : after.system.Continues (moment.stride (.fireFirst 0 5)) := by
    rw [System.Continues]
    decide +kernel
  clear_value system moment
  have alone : LeftAlone [] 0 environment (wait 3) world :=
    routinely_leftAlone (by simp [Ledger.Proper]) (by simp [Command.Handles]) (by simp) _ _
  exact ⟨run, alone, strikes, onward, unraised, Prod.ext blocked rfl, empty⟩

end Alarms

end TimedWaits
