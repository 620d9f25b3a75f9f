import TimedWaits.Proofs.Alarms.Announcements
import TimedWaits.Proofs.Alarms.Releases
import TimedWaits.Proofs.Selectors.Slots
import TimedWaits.Proofs.Workers.JobOrder

/-! Operations that are refused. Each has conditions under which it does nothing but answer so, or break
off, and note it. Under all others it does what it is for. -/

set_option autoImplicit false

namespace TimedWaits

open Activity

namespace Activity

/-- A call that says whether something is so, with its answer as that of an operation. -/
def flagged (test : Activity Bool) : Activity Answer := test >>= fun holds => .done (.flag holds)

variable {σ α β : Type} {environment : Environment σ} {activity : Activity α} {world : World σ}

/-- An activity gives up only where the surroundings do, or because it used its bound up. -/
def Lasts (environment : Environment σ) (activity : Activity α) (world : World σ) : Prop :=
  activity.Granted environment world →
    ∀ failure, (activity.run environment world).1 = .error failure → failure = .exhausted

theorem flagged_run (test : Activity Bool) :
    test.flagged.run environment world =
      ((test.run environment world).1.map .flag, (test.run environment world).2) := by
  rw [flagged, run_bind]
  cases test.run environment world with
  | mk outcome after => cases outcome <;> rfl

private theorem flagged_ne_refused (test : Activity Bool) (refusal : Refusal) :
    (test.flagged.run environment world).1 ≠ .ok (.refused refusal) := by
  rw [flagged_run]
  cases (test.run environment world).1 with
  | ok | error => exact nofun

theorem lasts_upon :
    (activity.upon world.system).Lasts environment world ↔ activity.Lasts environment world := by
  rw [Lasts, granted_upon, run_upon, Lasts]

namespace Lasts

theorem of_ok {value : α} (returned : (activity.run environment world).1 = .ok value) :
    activity.Lasts environment world := by
  intro _ failure stuck
  rw [returned] at stuck
  cases stuck

theorem bind {next : α → Activity β} (lasts : activity.Lasts environment world)
    (onward : ∀ value ran, activity.run environment world = (.ok value, ran) →
      (next value).Lasts environment ran) :
    (activity >>= next).Lasts environment world := by
  intro granted failure stuck
  obtain ⟨before, later⟩ := granted_bind.mp granted
  rw [run_bind] at stuck
  cases ran : activity.run environment world with
  | mk outcome middle =>
      rw [ran] at stuck
      cases outcome with
      | ok value => exact onward value middle ran (later value middle ran) failure stuck
      | error first =>
          cases stuck
          exact lasts before _ (congrArg Prod.fst ran)

private theorem ensuring {command : Command} (lasts : activity.Lasts environment world) :
    (activity.ensuring command).Lasts environment world := by
  intro granted failure stuck
  rw [run_ensuring] at stuck
  exact lasts (granted_ensuring.mp granted) failure stuck

private theorem request (wish : Request) : (Activity.request wish).Lasts environment world := by
  intro granted
  rw [granted.run_request]
  exact nofun

private theorem awaitPost (signal : SignalRef) (bound : Nat) :
    (signal.awaitPost bound).Lasts environment world := by
  induction bound generalizing world with
  | zero =>
      intro _ failure stuck
      cases stuck
      rfl
  | succ bound ih =>
      change Lasts environment (if (world.system.signal signal).pending = 0 then
        Activity.request (.idle signal) >>= fun _ => signal.awaitPost bound else .done ()) world
      split
      · exact .bind (.request _) fun _ _ _ => ih
      · exact .of_ok rfl

private theorem flagged {test : Activity Bool} (lasts : test.Lasts environment world) :
    test.flagged.Lasts environment world := lasts.bind fun _ _ _ => .of_ok rfl

end Lasts

end Activity

namespace Alarms

variable {σ : Type} {environment : Environment σ} {world : World σ} {queue alarm : Nat}

theorem add_lasts (belongs : (world.system.alarms.alarms.get alarm).queue = queue) :
    (add queue alarm).Lasts environment world := by
  intro granted failure stuck
  obtain ⟨first, ran, added⟩ := add_ok granted belongs
  rw [added] at stuck
  cases stuck

/-- The alarm that a wait makes belongs to the queue that the wait adds it to. -/
private theorem waitUntil_lasts (bound queue signal : Nat) (deadline : Tick) :
    (waitUntil bound queue (.shared signal) deadline).Lasts environment world := by
  rw [waitUntil_eq]
  change Lasts environment (if Tick.isDue deadline (world.system.queueNow queue) then .done false
    else _) world
  split
  · exact .of_ok rfl
  · let made := world.withAlarm queue signal deadline
    have belongs : (made.system.alarms.alarms.get world.system.alarms.alarms.size).queue = queue :=
      congrArg Alarm.queue (Table.get_set_same _ _ _)
    have blocked : (blockedWait bound queue signal world.system.ledger.count).Lasts environment made :=
      .bind (.bind (add_lasts belongs) fun _ _ _ => .of_ok rfl) fun _ _ _ =>
        .bind (.bind (.awaitPost _ bound) fun _ _ _ => .of_ok rfl) fun _ _ _ => .of_ok rfl
    exact blocked.ensuring

end Alarms

namespace Rings

variable {σ : Type} {environment : Environment σ} {world : World σ}

private theorem waitUntil_lasts (bound ring queue signal : Nat) (deadline : Tick) (rounds : Nat) :
    (waitUntil bound ring queue signal deadline rounds).Lasts environment world := by
  induction rounds generalizing world with
  | zero =>
      intro _ failure stuck
      cases stuck
      rfl
  | succ rounds ih =>
      refine .bind (.of_ok rfl) fun filled _ _ => ?_
      split
      · exact .of_ok rfl
      · refine .bind (Alarms.waitUntil_lasts bound queue signal deadline) fun woken _ _ => ?_
        split
        · exact ih
        · exact .of_ok rfl

private theorem waitFor_run_filled {ring : Nat} (filled : (world.system.rings.get ring).isEmpty = false)
    (bound queue : Nat) (timeout : Tick) :
    (waitFor bound ring queue timeout).run environment world = (.ok true, world) := by
  rw [← run_upon, waitFor_upon_filled filled]
  rfl

private theorem waitFor_run_unposted {ring : Nat} (empty : (world.system.rings.get ring).isEmpty = true)
    (unposted : (world.system.rings.get ring).signal = none) (bound queue : Nat) (timeout : Tick) :
    let reason := "ring buffer wait without an associated signal"
    (waitFor bound ring queue timeout).run environment world =
      (.error (.fatal reason), { world with system := world.system.log (.halted reason) }) := by
  rw [← run_upon, waitFor, hasElements, upon_read, empty, if_neg (by decide), upon_read, unposted]
  rfl

private theorem waitFor_lasts {ring signal : Nat} (empty : (world.system.rings.get ring).isEmpty = true)
    (associated : (world.system.rings.get ring).signal = some signal) (bound queue : Nat)
    (timeout : Tick) : (waitFor bound ring queue timeout).Lasts environment world := by
  rw [← lasts_upon, waitFor_upon empty associated, lasts_upon]
  exact waitUntil_lasts bound ring queue signal _ bound

end Rings

/-! ### Refusals -/

/-- What is noted when an operation is refused. -/
def Refusal.notices : Refusal → List Notice
  | .signalHasObserver | .selectedSignalHasObserver => [.observerRefused]
  | .selectorFull => []
  | .ringHasSignal => [.ringAlreadyAssociated]

namespace System

/-- The system with some more notices in its log, and otherwise as it is. -/
def noting (system : System) (notices : List Notice) : System :=
  { system with history := (notices.map Occurrence.logged).reverse ++ system.history }

/-- What stands in the way of watching a signal. That no slot is free comes before an observer. -/
def obstacle (system : System) (selector signal : Nat) : Option Refusal :=
  if ∀ slot ∈ (system.selectors.get selector).slots, slot.isSome then some .selectorFull
  else if (system.signal (.shared signal)).attachment.isSome then some .selectedSignalHasObserver
  else none

/-- The alarm at a place among those that have an owner. -/
def alarmAt (system : System) (place : Nat) : Nat := system.alarms.owned.getD place 0

/-- An operation is refused, with an outcome and some notices. -/
inductive Refuses (system : System) : Action → Outcome → List Notice → Prop where
  | attach {signal token : Nat} {observer : Observer}
      (observed : (system.signal (.shared signal)).attachment.isSome) :
      Refuses system (.attach signal observer token) (.ok (.refused .signalHasObserver))
        Refusal.signalHasObserver.notices
  | watch {selector signal : Nat} {refusal : Refusal}
      (stands : system.obstacle selector signal = some refusal) :
      Refuses system (.watch selector signal) (.ok (.refused refusal)) refusal.notices
  | watchOrHalt {selector signal : Nat} {refusal : Refusal}
      (stands : system.obstacle selector signal = some refusal) :
      Refuses system (.watchOrHalt selector signal) (.error (.fatal refusal.message))
        (refusal.notices ++ [.halted refusal.message])
  | associate {ring signal : Nat} (associated : (system.rings.get ring).signal.isSome) :
      Refuses system (.associate ring signal) (.ok (.refused .ringHasSignal))
        Refusal.ringHasSignal.notices
  | foreign {queue place : Nat}
      (elsewhere : (system.alarms.alarms.get (system.alarmAt place)).queue ≠ queue) :
      Refuses system (.addAlarm queue place) (.error (.fatal "event added to a foreign queue"))
        [.halted "event added to a foreign queue"]
  | addAlarm {queue place : Nat} (belongs : (system.alarms.alarms.get (system.alarmAt place)).queue = queue)
      (queued : ∃ other, system.alarmAt place ∈ system.alarms.members other) :
      Refuses system (.addAlarm queue place) (.ok (.flag false)) [.alarmAlreadyQueued]
  | scheduleAlarm {place : Nat}
      (queued : ∃ other, system.alarmAt place ∈ system.alarms.members other) :
      Refuses system (.scheduleAlarm place) (.ok (.flag false)) [.alarmAlreadyQueued]
  | putJob {worker job : Nat} (queued : ∃ other, job ∈ system.jobs other) :
      Refuses system (.putJob worker job) (.ok (.flag false)) [.jobAlreadyQueued]
  | waitForElements {ring queue : Nat} {timeout : Tick} (empty : (system.rings.get ring).isEmpty)
      (unposted : (system.rings.get ring).signal = none) :
      Refuses system (.waitForElements ring queue timeout)
        (.error (.fatal "ring buffer wait without an associated signal"))
        [.halted "ring buffer wait without an associated signal"]

end System

/-- The operations that can be refused. -/
def Action.IsGuarded : Action → Prop
  | .attach _ _ _ | .watch _ _ | .watchOrHalt _ _ | .associate _ _ | .addAlarm _ _
  | .scheduleAlarm _ | .putJob _ _ | .waitForElements _ _ _ => True
  | _ => False

/-- The lowest slot that watches nothing. -/
def Selector.IsLowestFree (selector : Selector) (slot : Nat) : Prop :=
  selector.slots[slot]? = some none ∧ ∀ lower < slot, (selector.signalAt? lower).isSome

/-- A system in which a selector has begun to watch a signal through a slot. -/
def System.watching (system : System) (selector signal slot : Nat) : System :=
  let observed := system.setSignal (.shared signal)
    { system.signal (.shared signal) with
      attachment := some { observer := .selector selector, token := slot } }
  ((observed.setSelector selector ((system.selectors.get selector).fill slot signal)).record
    (.watching selector slot signal)).log (.slotFilled slot)

section Performs

variable {σ : Type}

def Selector.Watches (selector signal : Nat) (answer : Answer) (world : World σ)
    (result : Outcome × World σ) : Prop :=
  ∃ slot, (world.system.selectors.get selector).IsLowestFree slot ∧
    result = (.ok answer, { world with system := world.system.watching selector signal slot })

/-- An alarm enters a queue. If it is the first one there, the surroundings are told, and the answer is
theirs to delay. -/
def Alarms.Adds (environment : Environment σ) (queue alarm : Nat) (world : World σ)
    (result : Outcome × World σ) : Prop :=
  let ledger := world.system.ledger
  let position := (ledger.ahead queue alarm).length
  ∃ lists : LinkedLists,
    lists.members = Function.update world.system.alarms.members queue
      (ledger.ahead queue alarm ++ alarm :: ledger.behind queue alarm) ∧
    let inserted := { world.system with alarms := { world.system.alarms with lists } }.record
      (.queued alarm position)
    if position = 0 then
      let delay := world.system.leadOf queue alarm
      let told : World σ := { world with system := inserted.log (.nearestAlarmChanged delay) }
      match (world.system.alarms.queues.get queue).rearm with
      | none => result = (.ok (.flag true), told)
      | some target =>
        let (answer, after) := environment (.rearm target delay) told
        result = (answer.map fun _ => .flag true, after)
    else result = (.ok (.flag false), { world with system := inserted })

/-- What a guarded operation does when it is not refused. -/
def Action.Performs (environment : Environment σ) (world : World σ) (result : Outcome × World σ) :
    Action → Prop
  | .attach signal observer token => result = (.ok .done, { world with
      system := world.system.setSignal (.shared signal)
        { world.system.signal (.shared signal) with attachment := some { observer, token } } })
  | .watch selector signal => Selector.Watches selector signal .done world result
  | .watchOrHalt selector signal => Selector.Watches selector signal .nothing world result
  | .associate ring signal => result = (.ok .done, { world with
      system := world.system.setRing ring
        { world.system.rings.get ring with signal := some signal } })
  | .addAlarm queue place => Alarms.Adds environment queue (world.system.alarmAt place) world result
  | .scheduleAlarm place =>
      let alarm := world.system.alarmAt place
      Alarms.Adds environment (world.system.alarms.alarms.get alarm).queue alarm world result
  | .putJob worker job => ∃ lists : LinkedLists,
      lists.members =
        Function.update world.system.jobs worker (world.system.jobs worker ++ [job]) ∧
      result = (.ok (.flag true), { world with
        system := ({ world.system with workers := { world.system.workers with lists } }.record
          (.accepted worker job)).raise (.worker worker) })
  | .waitForElements ring _ _ =>
      (world.system.rings.get ring).isEmpty = false → result = (.ok (.flag true), world)
  | _ => True

end Performs

/-- An answer that reports no refusal. -/
def Answer.Accepts : Answer → Prop
  | .refused _ => False
  | _ => True

/-- An operation does what it is for unless it is refused; and then it changes nothing. -/
structure Exact {σ : Type} (environment : Environment σ) (bound : Nat) (action : Action)
    (world : World σ) : Prop where
  refused : ∀ outcome notices, world.system.Refuses action outcome notices →
    (action.activity bound).run environment world =
      (outcome, { world with system := world.system.noting notices })
  performed : (∀ outcome notices, ¬ world.system.Refuses action outcome notices) →
    action.Performs environment world ((action.activity bound).run environment world) ∧
      (action.activity bound).Lasts environment world ∧
      ∀ refusal, ((action.activity bound).run environment world).1 ≠ .ok (.refused refusal)

namespace Selector

variable {selector : Selector} {slot : Nat}

theorem freeSlot?_eq_none : selector.freeSlot? = none ↔ ∀ slot ∈ selector.slots, slot.isSome := by
  simp only [freeSlot?, List.findIdx?_eq_none_iff, Option.isNone_eq_false_iff]

private theorem isLowestFree_of_freeSlot? (free : selector.freeSlot? = some slot) :
    selector.IsLowestFree slot := by
  obtain ⟨within, empty, lower⟩ := List.findIdx?_eq_some_iff_getElem.mp free
  constructor
  · rw [List.getElem?_eq_getElem within]
    exact congrArg some (Option.isNone_iff_eq_none.mp empty)
  · intro below less
    have filled := lower below less
    rw [signalAt?, List.getElem?_eq_getElem (less.trans within), Option.join_some]
    exact Option.isNone_eq_false_iff.mp (Bool.eq_false_of_not_eq_true filled)

end Selector

namespace System

variable {system : System} {selector signal : Nat} {refusal : Refusal}

private theorem Refuses.unique {action : Action} {outcome other : Outcome} {notices more : List Notice}
    (refuses : system.Refuses action outcome notices) (also : system.Refuses action other more) :
    other = outcome ∧ more = notices := by
  cases refuses with
  | watch stands | watchOrHalt stands =>
      cases also with
      | _ same =>
          cases stands.symm.trans same
          exact ⟨rfl, rfl⟩
  | foreign elsewhere =>
      cases also with
      | foreign => exact ⟨rfl, rfl⟩
      | addAlarm belongs => exact absurd belongs elsewhere
  | addAlarm belongs =>
      cases also with
      | foreign elsewhere => exact absurd belongs elsewhere
      | addAlarm => exact ⟨rfl, rfl⟩
  | _ =>
      cases also
      exact ⟨rfl, rfl⟩

theorem watch_eq_of_obstacle (stands : system.obstacle selector signal = some refusal) :
    system.watch selector signal = (.error refusal, system.noting refusal.notices) := by
  simp only [obstacle, ← Selector.freeSlot?_eq_none] at stands
  split at stands
  · next full =>
    cases stands
    simp only [watch, full]
    rfl
  · next room =>
    obtain ⟨slot, free⟩ := Option.ne_none_iff_exists'.mp room
    split at stands
    · next observed =>
      cases stands
      obtain ⟨attachment, held⟩ := Option.isSome_iff_exists.mp observed
      simp only [watch, free, attach, Signal.attach?, held]
      rfl
    · cases stands

theorem watch_eq (clear : system.obstacle selector signal = none) :
    ∃ slot, (system.selectors.get selector).IsLowestFree slot ∧
      system.watch selector signal = (.ok (), system.watching selector signal slot) := by
  simp only [obstacle, ← Selector.freeSlot?_eq_none] at clear
  split at clear
  · cases clear
  · next room =>
    obtain ⟨slot, free⟩ := Option.ne_none_iff_exists'.mp room
    split at clear
    · cases clear
    · next observed =>
      refine ⟨slot, Selector.isLowestFree_of_freeSlot? free, ?_⟩
      simp only [watch, free, attach, Signal.attach?, Option.not_isSome_iff_eq_none.mp observed]
      rfl

end System

private theorem Action.watchOrHalt_eq (bound selector signal : Nat) :
    (Action.watchOrHalt selector signal).activity bound = .act (.watch selector signal) fun
      | .ok () => .done .nothing
      | .error refusal => .halt refusal.message := by
  refine congrArg (Activity.act _) (funext fun answer => ?_)
  cases answer <;> rfl

namespace Alarms

variable {σ : Type} {environment : Environment σ} {world : World σ} {queue alarm : Nat}

private theorem add_run_foreign (elsewhere : (world.system.alarms.alarms.get alarm).queue ≠ queue) :
    (add queue alarm).run environment world = (.error (.fatal "event added to a foreign queue"),
      { world with system := world.system.noting [.halted "event added to a foreign queue"] }) := by
  rw [add_eq, run, if_pos elsewhere]
  rfl

theorem add_run_queued (threaded : world.system.Threaded)
    (belongs : (world.system.alarms.alarms.get alarm).queue = queue) {other : Nat}
    (queued : alarm ∈ world.system.alarms.members other) :
    (add queue alarm).run environment world =
      (.ok false, { world with system := world.system.noting [.alarmAlreadyQueued] }) := by
  rw [add_run belongs, threaded.insertAlarm_queued queue queued]
  rfl

theorem add_adds (threaded : world.system.Threaded)
    (belongs : (world.system.alarms.alarms.get alarm).queue = queue)
    (loose : ∀ other, alarm ∉ world.system.alarms.members other) :
    Adds environment queue alarm world ((add queue alarm).flagged.run environment world) := by
  have unlinked := LinkedLists.Spells.isLinked_eq_false threaded |>.mpr loose
  obtain ⟨lists, found, spells⟩ :=
    LinkedLists.Spells.insertSorted? threaded queue world.system.alarms.order unlinked
  change world.system.alarms.lists.insertSorted? queue alarm world.system.alarms.order =
    some ((world.system.ledger.ahead queue alarm).length, lists) at found
  refine ⟨lists, funext spells.members_eq, ?_⟩
  rw [flagged_run, add_run belongs]
  simp only [System.enter, System.insertAlarm, found, Option.some.injEq]
  split
  · cases (world.system.alarms.queues.get queue).rearm with
    | none => rfl
    | some target =>
        have same : ∀ outcome : Except Failure Unit,
            (outcome.map fun _ => true).map Answer.flag = outcome.map fun _ => .flag true := by
          intro outcome
          cases outcome <;> rfl
        exact Prod.ext (same _) rfl
  · rfl

end Alarms

namespace Exact

variable {σ : Type} {environment : Environment σ} {bound : Nat} {world : World σ} {action : Action}

theorem of_refuses {outcome : Outcome} {notices : List Notice}
    (refuses : world.system.Refuses action outcome notices)
    (run : (action.activity bound).run environment world =
      (outcome, { world with system := world.system.noting notices })) :
    Exact environment bound action world := by
  refine ⟨fun other more also => ?_, fun free => absurd refuses (free _ _)⟩
  obtain ⟨rfl, rfl⟩ := refuses.unique also
  exact run

theorem of_answers {answer : Answer} {after : World σ}
    (free : ∀ outcome notices, ¬ world.system.Refuses action outcome notices)
    (run : (action.activity bound).run environment world = (.ok answer, after))
    (performs : action.Performs environment world (.ok answer, after))
    (accepts : answer.Accepts) : Exact environment bound action world := by
  refine ⟨fun _ _ refuses => absurd refuses (free _ _), fun _ => ⟨run ▸ performs, ?_, ?_⟩⟩
  · exact .of_ok (congrArg Prod.fst run)
  · intro refusal same
    rw [run] at same
    cases same
    exact accepts

private theorem attach (signal token : Nat) (observer : Observer) :
    Exact environment bound (.attach signal observer token) world := by
  have run : ((Action.attach signal observer token).activity bound).run environment world =
      (.ok (.ofExcept (world.system.attach signal observer token).1),
        { world with system := (world.system.attach signal observer token).2 }) := rfl
  cases held : (world.system.signal (.shared signal)).attachment with
  | some attachment =>
      refine of_refuses (.attach (by rw [held]; rfl)) (run.trans ?_)
      simp only [System.attach, Signal.attach?, held]
      rfl
  | none =>
      have free : ∀ outcome notices,
          ¬ world.system.Refuses (.attach signal observer token) outcome notices := by
        intro _ _ refuses
        cases refuses with
        | attach observed => simp [held] at observed
      refine of_answers free (run.trans ?_) rfl trivial
      simp only [System.attach, Signal.attach?, held]
      rfl

private theorem associate (ring signal : Nat) : Exact environment bound (.associate ring signal) world := by
  have run : ((Action.associate ring signal).activity bound).run environment world =
      (.ok (.ofExcept (world.system.associate ring signal).1),
        { world with system := (world.system.associate ring signal).2 }) := rfl
  cases held : (world.system.rings.get ring).signal with
  | some other =>
      refine of_refuses (.associate (by rw [held]; rfl)) (run.trans ?_)
      simp only [System.associate, Ring.associate?, held]
      rfl
  | none =>
      have free : ∀ outcome notices,
          ¬ world.system.Refuses (.associate ring signal) outcome notices := by
        intro _ _ refuses
        cases refuses with
        | associate associated => simp [held] at associated
      refine of_answers free (run.trans ?_) rfl trivial
      simp only [System.associate, Ring.associate?, held]
      rfl

private theorem watch (selector signal : Nat) : Exact environment bound (.watch selector signal) world := by
  have run : ((Action.watch selector signal).activity bound).run environment world =
      (.ok (.ofExcept (world.system.watch selector signal).1),
        { world with system := (world.system.watch selector signal).2 }) := rfl
  cases stands : world.system.obstacle selector signal with
  | some refusal =>
      refine of_refuses (.watch stands) (run.trans ?_)
      rw [System.watch_eq_of_obstacle stands]
      rfl
  | none =>
      have free : ∀ outcome notices,
          ¬ world.system.Refuses (.watch selector signal) outcome notices := by
        intro _ _ refuses
        cases refuses with
        | watch other => cases stands.symm.trans other
      obtain ⟨slot, lowest, watched⟩ := System.watch_eq stands
      rw [watched] at run
      exact of_answers free run ⟨slot, lowest, rfl⟩ trivial

private theorem watchOrHalt (selector signal : Nat) :
    Exact environment bound (.watchOrHalt selector signal) world := by
  have run : ((Action.watchOrHalt selector signal).activity bound).run environment world =
      match world.system.watch selector signal with
      | (.ok (), after) => (.ok .nothing, { world with system := after })
      | (.error refusal, after) => (.error (.fatal refusal.message),
          { world with system := after.log (.halted refusal.message) }) := by
    have applied : world.apply (.watch selector signal) = ((world.system.watch selector signal).1,
        { world with system := (world.system.watch selector signal).2 }) := rfl
    rw [Action.watchOrHalt_eq, Activity.run, applied]
    cases world.system.watch selector signal with
    | mk answer after => cases answer <;> rfl
  cases stands : world.system.obstacle selector signal with
  | some refusal =>
      refine of_refuses (.watchOrHalt stands) (run.trans ?_)
      rw [System.watch_eq_of_obstacle stands]
      cases refusal <;> rfl
  | none =>
      have free : ∀ outcome notices,
          ¬ world.system.Refuses (.watchOrHalt selector signal) outcome notices := by
        intro _ _ refuses
        cases refuses with
        | watchOrHalt other => cases stands.symm.trans other
      obtain ⟨slot, lowest, watched⟩ := System.watch_eq stands
      rw [watched] at run
      exact of_answers free run ⟨slot, lowest, rfl⟩ trivial

private theorem putJob (lined : world.system.Lined) (worker job : Nat) :
    Exact environment bound (.putJob worker job) world := by
  have run : ((Action.putJob worker job).activity bound).run environment world =
      (.ok (.flag (world.system.putJob worker job).1),
        { world with system := (world.system.putJob worker job).2 }) := rfl
  by_cases queued : ∃ other, job ∈ world.system.jobs other
  · obtain ⟨other, member⟩ := queued
    refine of_refuses (.putJob ⟨other, member⟩) (run.trans ?_)
    rw [lined.putJob_queued member]
    rfl
  · have free : ∀ outcome notices, ¬ world.system.Refuses (.putJob worker job) outcome notices := by
      intro _ _ refuses
      cases refuses with
      | putJob also => exact queued also
    obtain ⟨lists, pushed, spells⟩ :=
      lined.pushBack? worker (lined.isLinked_eq_false.mpr (not_exists.mp queued))
    simp only [System.putJob, pushed] at run
    exact of_answers free run ⟨lists, funext spells.members_eq, rfl⟩ trivial

theorem of_flagged {test : Activity Bool}
    (free : ∀ outcome notices, ¬ world.system.Refuses action outcome notices)
    (same : (action.activity bound).upon world.system = test.flagged.upon world.system)
    (performs : action.Performs environment world (test.flagged.run environment world))
    (lasts : test.Lasts environment world) : Exact environment bound action world := by
  have run : (action.activity bound).run environment world = test.flagged.run environment world := by
    rw [← run_upon, same, run_upon]
  refine ⟨fun _ _ refuses => absurd refuses (free _ _), fun _ => ⟨run ▸ performs, ?_, ?_⟩⟩
  · rw [← lasts_upon, same, lasts_upon]
    exact lasts.flagged
  · rw [run]
    exact test.flagged_ne_refused

private theorem addAlarm (threaded : world.system.Threaded) (queue place : Nat) :
    Exact environment bound (.addAlarm queue place) world := by
  have run : ((Action.addAlarm queue place).activity bound).run environment world =
      (Alarms.add queue (world.system.alarmAt place)).flagged.run environment world := rfl
  rw [flagged_run] at run
  by_cases belongs : (world.system.alarms.alarms.get (world.system.alarmAt place)).queue = queue
  · by_cases queued : ∃ other, world.system.alarmAt place ∈ world.system.alarms.members other
    · obtain ⟨other, member⟩ := queued
      rw [Alarms.add_run_queued threaded belongs member] at run
      exact of_refuses (.addAlarm belongs ⟨other, member⟩) run
    · refine of_flagged ?_ rfl (Alarms.add_adds threaded belongs (not_exists.mp queued))
        (Alarms.add_lasts belongs)
      intro _ _ refuses
      cases refuses with
      | foreign elsewhere => exact elsewhere belongs
      | addAlarm _ also => exact queued also
  · rw [Alarms.add_run_foreign belongs] at run
    exact of_refuses (.foreign belongs) run

private theorem scheduleAlarm (threaded : world.system.Threaded) (place : Nat) :
    Exact environment bound (.scheduleAlarm place) world := by
  let alarm := world.system.alarmAt place
  have run : ((Action.scheduleAlarm place).activity bound).run environment world =
      (Alarms.add (world.system.alarms.alarms.get alarm).queue alarm).flagged.run environment world := rfl
  rw [flagged_run] at run
  by_cases queued : ∃ other, alarm ∈ world.system.alarms.members other
  · obtain ⟨other, member⟩ := queued
    rw [Alarms.add_run_queued threaded rfl member] at run
    exact of_refuses (.scheduleAlarm ⟨other, member⟩) run
  · refine of_flagged ?_ rfl (Alarms.add_adds threaded rfl (not_exists.mp queued))
      (Alarms.add_lasts rfl)
    intro _ _ refuses
    cases refuses with
    | scheduleAlarm also => exact queued also

private theorem waitForElements (ring queue : Nat) (timeout : Tick) :
    Exact environment bound (.waitForElements ring queue timeout) world := by
  have run : ((Action.waitForElements ring queue timeout).activity bound).run environment world =
      (Rings.waitFor bound ring queue timeout).flagged.run environment world := rfl
  rw [flagged_run] at run
  cases empty : (world.system.rings.get ring).isEmpty with
  | false =>
      rw [Rings.waitFor_run_filled empty] at run
      refine of_answers ?_ run (fun _ => rfl) trivial
      intro _ _ refuses
      cases refuses with
      | waitForElements also => rw [empty] at also; cases also
  | true =>
      cases associated : (world.system.rings.get ring).signal with
      | none =>
          rw [Rings.waitFor_run_unposted empty associated] at run
          exact of_refuses (.waitForElements empty associated) run
      | some signal =>
          refine of_flagged ?_ rfl ?_ (Rings.waitFor_lasts empty associated bound queue timeout)
          · intro _ _ refuses
            cases refuses with
            | waitForElements _ unposted => rw [associated] at unposted; cases unposted
          · intro filled
            rw [empty] at filled
            cases filled

private theorem of_guarded (lined : world.system.Lined) (threaded : world.system.Threaded)
    (guarded : action.IsGuarded) : Exact environment bound action world := by
  cases action with
  | attach signal observer token => exact .attach signal token observer
  | watch selector signal => exact .watch selector signal
  | watchOrHalt selector signal => exact .watchOrHalt selector signal
  | associate ring signal => exact .associate ring signal
  | addAlarm queue place => exact .addAlarm threaded queue place
  | scheduleAlarm place => exact .scheduleAlarm threaded place
  | putJob worker job => exact .putJob lined worker job
  | waitForElements ring queue timeout => exact .waitForElements ring queue timeout
  | _ => exact guarded.elim

/-- An outcome that only a refusal can have says that there is one. -/
private theorem refuses_iff (exactly : Exact environment bound action world) {outcome : Outcome}
    (only : (∀ other notices, ¬ world.system.Refuses action other notices) →
      ((action.activity bound).run environment world).1 ≠ outcome) :
    ((action.activity bound).run environment world).1 = outcome ↔
      ∃ notices, world.system.Refuses action outcome notices := by
  constructor
  · intro same
    by_contra spared
    by_cases refused : ∃ other notices, world.system.Refuses action other notices
    · obtain ⟨other, notices, refuses⟩ := refused
      rw [exactly.refused other notices refuses] at same
      exact spared ⟨notices, same ▸ refuses⟩
    · exact only (fun other notices refuses => refused ⟨other, notices, refuses⟩) same
  · rintro ⟨notices, refuses⟩
    rw [exactly.refused outcome notices refuses]

end Exact

/-- Guarded operations are refused under the conditions listed and no others. One that is refused leaves
everything but the log as it is. Any other does its work, and breaks off only where the surroundings
do. -/
theorem refusals_exact {setup : Setup} {σ : Type} {world : World σ}
    (run : Reaches anything setup.system world.system) (environment : Environment σ) (bound : Nat)
    {action : Action} (guarded : action.IsGuarded) :
    let call := action.activity bound
    let result := call.run environment world
    (∀ outcome notices, world.system.Refuses action outcome notices →
      result = (outcome, { world with system := world.system.noting notices })) ∧
    ((∀ outcome notices, ¬ world.system.Refuses action outcome notices) →
      action.Performs environment world result) ∧
    (∀ refusal, result.1 = .ok (.refused refusal) ↔
      ∃ notices, world.system.Refuses action (.ok (.refused refusal)) notices) ∧
    (call.Granted environment world → ∀ reason, result.1 = .error (.fatal reason) ↔
      ∃ notices, world.system.Refuses action (.error (.fatal reason)) notices) := by
  have exactly : Exact environment bound action world :=
    .of_guarded (setup.lined.reaches run) (System.Accounts.reaches setup.threaded run).threaded guarded
  refine ⟨exactly.refused, fun free => (exactly.performed free).1, fun refusal => ?_, ?_⟩
  · exact exactly.refuses_iff fun free => (exactly.performed free).2.2 refusal
  · intro granted reason
    refine exactly.refuses_iff fun free fatal => ?_
    cases (exactly.performed free).2.1 granted _ fatal

/-- A full selector refuses a signal that has an observer because it is full, and notes nothing. -/
theorem full_selector_refuses_observed :
    let system := ({ signals := [.host, .host], selectors := [{ capacity := 1 }] } : Setup).system.strides
      [.watch 0 0, .attach 1 (.custom 0) 7]
    let world : World Unit := { system, outside := () }
    let grants : Environment Unit := fun _ world => (.ok (), world)
    (system.signal (.shared 1)).attachment.isSome ∧
      ((Action.watch 0 1).activity 1).run grants world = (.ok (.refused .selectorFull), world) ∧
      ((Action.watchOrHalt 0 1).activity 1).run grants world =
        (.error (.fatal "select capacity exhausted"),
          { world with system := system.log (.halted "select capacity exhausted") }) := by
  intro system world grants
  have run : Reaches anything _ world.system := .strides ⟨trivial, trivial, trivial⟩
  have watches : (Action.watch 0 1).IsGuarded := trivial
  have halts : (Action.watchOrHalt 0 1).IsGuarded := trivial
  exact ⟨rfl, (refusals_exact run grants 1 watches).1 _ _ (.watch rfl),
    (refusals_exact run grants 1 halts).1 _ _ (.watchOrHalt rfl)⟩

end TimedWaits
