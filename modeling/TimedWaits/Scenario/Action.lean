import TimedWaits.Calls.Selectors
import TimedWaits.Calls.Workers
import TimedWaits.Calls.Rings

/-!
The operations of a scenario, and what each of them does to a system and answers.
-/

set_option autoImplicit false

namespace TimedWaits

/-- A single operation. Owned alarms are named by their place in the order of creation. -/
inductive Action where
  | nothing
  | throw (message : String)
  | requestStop (value : Bool)
  | halt (reason : String)
  | require (holds : Bool) (reason : String)
  | inInterrupt
  | now (clock : Nat)
  | advance (clock : Nat) (delay : Tick)
  | setClock (clock : Nat) (tick : Tick)
  | elapsed (clock : Nat) (start : Tick)
  | addRearm (log : Nat) (delay : Tick)
  | rearmDelays (log : Nat)
  | lastRearm (log : Nat)
  | rearmRequests (log : Nat)
  | clearRearms (log : Nat)
  | kick (clock : Nat) (delay : Tick)
  | sleepUntilKick (clock : Nat) (delay : Tick)
  | sleepDuringKick (clock : Nat) (delay : Tick)
  | isShiftedBy (clock other : Nat) (ticks : Tick)
  | post (signal : Nat)
  | raise (signal : Nat)
  | take (signal : Nat)
  | wait (signal : Nat)
  | pending (signal : Nat)
  | waitBriefly (signal : Nat)
  | waitDuringRaise (signal : Nat) (timed : Bool)
  | attach (signal : Nat) (observer : Observer) (token : Nat)
  | detach (signal : Nat) (observer : Observer)
  | hasObserver (signal : Nat)
  | forward (signal : Nat)
  | createAlarm (queue signal : Nat) (deadline : Tick)
  | createAlarmAfter (queue signal : Nat) (delay : Tick)
  | addAlarm (queue alarm : Nat)
  | scheduleAlarm (alarm : Nat)
  | withdrawAlarm (queue alarm : Nat)
  | cancelAlarm (alarm : Nat)
  | isQueued (alarm : Nat)
  | deadline (alarm : Nat)
  | dropAlarm (alarm : Nat)
  | check (queue : Nat)
  | waitFor (queue signal : Nat) (delay : Tick)
  | waitUntil (queue signal : Nat) (deadline : Tick)
  | runForever (queue : Nat)
  | runUntilStopped (queue : Nat) (pace : LoopPace)
  | queueLength (queue : Nat)
  | queueIsEmpty (queue : Nat)
  | nextDeadline (queue : Nat)
  | queueNow (queue : Nat)
  | watch (selector signal : Nat)
  | watchOrHalt (selector signal : Nat)
  | unwatch (selector signal : Nat)
  | select (selector : Nat)
  | selectFor (selector queue : Nat) (timeout : Tick)
  | selectReady (selector : Nat)
  | watchedCount (selector : Nat)
  | watchesNothing (selector : Nat)
  | selectorCapacity (selector : Nat)
  | isWatched (selector signal : Nat)
  | callSelector (selector token : Nat)
  | dropSelector (selector : Nat)
  | createSelector (selector capacity : Nat) (backend : Backend)
  | putJob (worker job : Nat)
  | runWorker (worker : Nat)
  | runOneJob (worker : Nat)
  | killWorker (worker : Nat)
  | isKilled (worker : Nat)
  | jobCount (worker : Nat)
  | hasNoJobs (worker : Nat)
  | isJobQueued (job : Nat)
  | dropWorker (worker : Nat)
  | createWorker (worker : Nat) (backend : Backend)
  | pushFront (list item : Nat)
  | pushBack (list item : Nat)
  | insertSorted (list item : Nat) (order : ItemOrder)
  | popFront (list : Nat)
  | popFrontIf (list : Nat) (filter : ItemFilter)
  | front (list : Nat)
  | removeItem (list item : Nat)
  | containsItem (list item : Nat)
  | find (list : Nat) (filter : ItemFilter)
  | visit (list : Nat) (filter : ItemFilter)
  | listLength (list : Nat)
  | listIsEmpty (list : Nat)
  | isLinked (item : Nat)
  | dropList (list : Nat)
  | createList (list : Nat)
  | store (ring : Nat) (elements : List Int)
  | fetchOne (ring : Nat)
  | fetch (ring count : Nat)
  | resetRing (ring : Nat)
  | ringIsEmpty (ring : Nat)
  | ringIsFull (ring : Nat)
  | ringLength (ring : Nat)
  | ringCapacity (ring : Nat)
  | associate (ring signal : Nat)
  | dissociate (ring : Nat)
  | waitForElements (ring queue : Nat) (timeout : Tick)
  deriving DecidableEq

namespace Action

private def finish (activity : Activity Unit) : Activity Answer := do
  activity
  return .nothing

private def decision (activity : Activity Bool) : Activity Answer := return .flag (← activity)

private def ask (view : System → Bool) : Activity Answer := .read fun system => .flag (view system)

private def number (view : System → Nat) : Activity Answer :=
  .read fun system => .count (view system)

/-- Runs an activity that gives an item or none, and answers the item's tag. -/
private def tagOf (activity : Activity (Option Nat)) : Activity Answer := do
  let found ← activity
  .read fun system => .ofOption (fun item => .text (system.items.tag item)) found

private def onAlarm {α : Type} (place : Nat) (activity : Nat → Activity α) : Activity α := do
  activity (← .read fun system => system.alarms.owned.getD place 0)

private def queueOf (alarm : Nat) : Activity Nat :=
  .read fun system => (system.alarms.alarms.get alarm).queue

/-- The activity of an operation, with a bound on the rounds of its loops. -/
def activity (bound : Nat) : Action → Activity Answer
  | .nothing => .done .nothing
  | .throw message => .fail (.thrown message)
  | .requestStop value => finish (.perform (.requestStop value))
  | .halt reason => .halt reason
  | .require holds reason => if holds then .done .nothing else .halt reason
  | .inInterrupt => .done (.flag false)
  | .now clock => .read fun system => .moment (system.now clock)
  | .advance clock delay => do
    .perform (.advance clock delay)
    .read fun system => .moment (system.now clock)
  | .setClock clock tick => do
    .perform (.setClock clock tick)
    .read fun system => .moment (system.now clock)
  | .elapsed clock start => .read fun system => .delay (Tick.since (system.now clock) start)
  | .addRearm log delay => finish (.perform (.addRearm log delay))
  | .rearmDelays log => .read fun system => .delays (system.rearmLogs.get log).delays
  | .lastRearm log => .read fun system =>
    .ofOption .delay (system.rearmLogs.get log).delays.getLast?
  | .rearmRequests log => number fun system => (system.rearmLogs.get log).requests.toNat
  | .clearRearms log => finish (.perform (.clearRearms log))
  | .kick clock delay => finish (.perform (.kick clock delay))
  | .sleepUntilKick clock delay => decision (.perform (.sleepUntilKick clock delay))
  | .sleepDuringKick clock delay => do
    discard <| .perform (.sleepUntilKick clock delay)
    return .flag true
  | .isShiftedBy clock other ticks => ask fun system =>
    (system.kickClocks.get clock).isShiftedBy (system.kickClocks.get other) ticks
  | .post signal => finish (SignalRef.shared signal).post
  | .raise signal => finish (.perform (.raise (.shared signal)))
  | .take signal => decision (.perform (.take (.shared signal)))
  | .wait signal => finish ((SignalRef.shared signal).wait bound)
  | .pending signal => number fun system => (system.signal (.shared signal)).pending
  | .waitBriefly signal => decision (.perform (.take (.shared signal)))
  | .waitDuringRaise signal timed => do
    .perform (.raise (.shared signal))
    discard <| .perform (.take (.shared signal))
    .read fun system =>
      if timed && (system.signal (.shared signal)).backend = .host then .flag true else .nothing
  | .attach signal observer token => do
    return .ofExcept (← .perform (.attach signal observer token))
  | .detach signal observer => decision (.perform (.detach signal observer))
  | .hasObserver signal => ask fun system =>
    (system.signal (.shared signal)).attachment.isSome
  | .forward signal => decision (SignalRef.shared signal).forward
  | .createAlarm queue signal due => do
    return .count (← Alarms.create queue (.shared signal) due)
  | .createAlarmAfter queue signal delay => do
    return .count (← Alarms.createAfter queue (.shared signal) delay)
  | .addAlarm queue place => decision (onAlarm place fun alarm => Alarms.add queue alarm)
  | .scheduleAlarm place => decision (onAlarm place fun alarm => do
    Alarms.add (← queueOf alarm) alarm)
  | .withdrawAlarm queue place => decision (onAlarm place fun alarm =>
    .perform (.withdrawAlarm queue alarm))
  | .cancelAlarm place => decision (onAlarm place fun alarm => do
    .perform (.withdrawAlarm (← queueOf alarm) alarm))
  | .isQueued place => decision (onAlarm place fun alarm =>
    .read fun system => system.alarms.isQueued alarm)
  | .deadline place => onAlarm place fun alarm =>
    .read fun system => .moment (system.alarms.alarms.get alarm).deadline
  | .dropAlarm place => finish (onAlarm place fun alarm => .perform (.dropAlarm alarm))
  | .check queue => return .delay (← Alarms.check bound queue)
  | .waitFor queue signal delay => decision (Alarms.waitFor bound queue (.shared signal) delay)
  | .waitUntil queue signal due =>
    decision (Alarms.waitUntil bound queue (.shared signal) due)
  | .runForever queue => finish (Alarms.runForever bound queue bound)
  | .runUntilStopped queue pace => finish (Alarms.runUntilStopped bound queue pace bound)
  | .queueLength queue => number (·.alarms.lists.length queue)
  | .queueIsEmpty queue => ask (·.alarms.lists.isEmpty queue)
  | .nextDeadline queue => .read fun system =>
    .ofOption .moment (system.alarms.nextDeadline? queue)
  | .queueNow queue => .read fun system =>
    .moments [system.queueNow queue, system.now (system.alarms.queues.get queue).clock]
  | .watch selector signal => return .ofExcept (← .perform (.watch selector signal))
  | .watchOrHalt selector signal => finish (Selector.watchOrHalt selector signal)
  | .unwatch selector signal => decision (.perform (.unwatch selector signal))
  | .select selector => return .count (← Selector.wait bound selector)
  | .selectFor selector queue timeout => do
    return .ofOption .count (← Selector.waitFor bound selector queue timeout)
  | .selectReady selector => return .ofOption .count (← .perform (.takeReady selector))
  | .watchedCount selector => number fun system => (system.selectors.get selector).count
  | .watchesNothing selector => ask fun system => (system.selectors.get selector).count == 0
  | .selectorCapacity selector => number fun system => (system.selectors.get selector).capacity
  | .isWatched selector signal => ask fun system =>
    ((system.selectors.get selector).slotOf? signal).isSome
  | .callSelector selector token => finish (.perform (.markReady selector token))
  | .dropSelector selector => finish (.perform (.dropSelector selector))
  | .createSelector selector capacity backend =>
    finish (.perform (.createSelector selector capacity backend))
  | .putJob worker job => decision (.perform (.putJob worker job))
  | .runWorker worker => finish (Workers.run bound worker bound)
  | .runOneJob worker => decision (Workers.runOnce worker)
  | .killWorker worker => finish (.perform (.kill worker))
  | .isKilled worker => ask fun system => (system.workers.workers.get worker).killed
  | .jobCount worker => number (·.workers.lists.length worker)
  | .hasNoJobs worker => ask (·.workers.lists.isEmpty worker)
  | .isJobQueued job => ask (·.workers.lists.isLinked job)
  | .dropWorker worker => finish (.perform (.dropWorker worker))
  | .createWorker worker backend => finish (.perform (.createWorker worker backend))
  | .pushFront list item => decision (.perform (.pushFront list item))
  | .pushBack list item => decision (.perform (.pushBack list item))
  | .insertSorted list item order => do
    return .ofOption .count (← .perform (.insertItem list item order))
  | .popFront list => tagOf (.perform (.popFront list))
  | .popFrontIf list filter => tagOf (.perform (.popFrontIf list filter))
  | .front list => tagOf (.read (·.items.lists.front? list))
  | .removeItem list item => decision (.perform (.removeItem list item))
  | .containsItem list item => ask (·.items.lists.contains list item)
  | .find list filter => tagOf (.perform (.searchList list filter))
  | .visit list filter => return .flag (← .perform (.searchList list filter)).isSome
  | .listLength list => number (·.items.lists.length list)
  | .listIsEmpty list => ask (·.items.lists.isEmpty list)
  | .isLinked item => ask (·.items.lists.isLinked item)
  | .dropList list => finish (.perform (.dropList list))
  | .createList list => finish (.perform (.createList list))
  | .store ring elements => return .count (← Rings.store ring elements)
  | .fetchOne ring => return .ofOption .element (← .perform (.fetch ring 1)).head?
  | .fetch ring count => do
    let elements ← .perform (.fetch ring count)
    return .slice elements.length (elements ++ List.replicate (count - elements.length) 0)
  | .resetRing ring => finish (.perform (.resetRing ring))
  | .ringIsEmpty ring => ask fun system => (system.rings.get ring).isEmpty
  | .ringIsFull ring => ask fun system => (system.rings.get ring).isFull
  | .ringLength ring => number fun system => (system.rings.get ring).length
  | .ringCapacity ring => number fun system => (system.rings.get ring).capacity
  | .associate ring signal => return .ofExcept (← .perform (.associate ring signal))
  | .dissociate ring => decision (.perform (.dissociate ring))
  | .waitForElements ring queue timeout => decision (Rings.waitFor bound ring queue timeout)

end Action

end TimedWaits
