import TimedWaits.Proofs.LinkedLists.Operations
import TimedWaits.Proofs.Alarms.Timing

/-! The timing of a system with the links of the alarms read as sequences, and what each command
does to it. -/

set_option autoImplicit false

namespace TimedWaits

/-- Clocks, alarms and the members of each queue, all by number, with the alarms that entered a
queue and those that posted a signal, the latest first. -/
structure Ledger where
  clocks : Nat → Tick
  clockOf : Nat → Nat
  count : Nat
  alarm : Nat → Alarm
  members : Nat → List Nat
  queuings : List Nat
  posts : List (Nat × SignalRef)

namespace Ledger

variable {ledger : Ledger}

def now (ledger : Ledger) (queue : Nat) : Tick := ledger.clocks (ledger.clockOf queue)

def deadline (ledger : Ledger) (alarm : Nat) : Tick := (ledger.alarm alarm).deadline

def order (ledger : Ledger) (first second : Nat) : Ordering :=
  Tick.order (ledger.deadline first) (ledger.deadline second)

def isDue (ledger : Ledger) (now : Tick) (alarm : Nat) : Bool :=
  Tick.isDue (ledger.deadline alarm) now

def setMembers (ledger : Ledger) (queue : Nat) (members : List Nat) : Ledger :=
  { ledger with members := Function.update ledger.members queue members }

/-- The members that an alarm goes behind when it enters a queue. -/
def ahead (ledger : Ledger) (queue alarm : Nat) : List Nat :=
  LinkedLists.ahead (ledger.members queue) ledger.order alarm

/-- The members that an alarm goes before when it enters a queue. -/
def behind (ledger : Ledger) (queue alarm : Nat) : List Nat :=
  (ledger.members queue).dropWhile fun member => ledger.order alarm member != .lt

theorem ahead_append_behind (ledger : Ledger) (queue alarm : Nat) :
    ledger.ahead queue alarm ++ ledger.behind queue alarm = ledger.members queue :=
  List.takeWhile_append_dropWhile

def insert (ledger : Ledger) (queue alarm : Nat) : Ledger :=
  { ledger.setMembers queue (ledger.ahead queue alarm ++ alarm :: ledger.behind queue alarm) with
    queuings := alarm :: ledger.queuings }

def fire (ledger : Ledger) (queue alarm : Nat) (rest : List Nat) : Ledger :=
  { ledger.setMembers queue rest with
    posts := (alarm, (ledger.alarm alarm).signal) :: ledger.posts }

def withdraw (ledger : Ledger) (queue alarm : Nat) : Ledger :=
  ledger.setMembers queue ((ledger.members queue).erase alarm)

def create (ledger : Ledger) (alarm : Alarm) : Ledger :=
  { ledger with
    count := ledger.count + 1
    alarm := Function.update ledger.alarm ledger.count alarm }

def mark (ledger : Ledger) (alarm : Nat) : Ledger :=
  { ledger with
    count := max ledger.count (alarm + 1)
    alarm := Function.update ledger.alarm alarm { ledger.alarm alarm with dropped := true } }

def setClock (ledger : Ledger) (clock : Nat) (tick : Tick) : Ledger :=
  { ledger with clocks := Function.update ledger.clocks clock tick }

private theorem setMembers_self (queue : Nat) :
    ledger.setMembers queue (ledger.members queue) = ledger := by
  rw [setMembers, Function.update_eq_self]

theorem withdraw_of_not_mem {queue alarm : Nat} (absent : alarm ∉ ledger.members queue) :
    ledger.withdraw queue alarm = ledger := by
  rw [withdraw, List.erase_of_not_mem absent, setMembers_self]

inductive Step (ledger : Ledger) : Command → Ledger → Prop where
  | other {command : Command} (unconcerned : ¬ command.ConcernsAlarms) : Step ledger command ledger
  | setClock (clock : Nat) (tick : Tick) :
      Step ledger (.setClock clock tick) (ledger.setClock clock tick)
  | advance (clock : Nat) (delay : Tick) :
      Step ledger (.advance clock delay)
        (ledger.setClock clock (Tick.after (ledger.clocks clock) delay))
  | create (queue : Nat) (signal : SignalRef) (deadline : Tick) (owned : Bool) :
      Step ledger (.createAlarm queue signal deadline owned)
        (ledger.create { queue, signal, deadline })
  | insert (queue : Nat) {alarm : Nat} (loose : ∀ other, alarm ∉ ledger.members other) :
      Step ledger (.insertAlarm queue alarm) (ledger.insert queue alarm)
  | refuse (queue : Nat) {other alarm : Nat} (queued : alarm ∈ ledger.members other) :
      Step ledger (.insertAlarm queue alarm) ledger
  | fire {queue alarm : Nat} {now : Tick} {rest : List Nat}
      (front : ledger.members queue = alarm :: rest) (due : ledger.isDue now alarm = true) :
      Step ledger (.fireFirst queue now) (ledger.fire queue alarm rest)
  | hold {queue : Nat} {now : Tick}
      (undue : ∀ alarm ∈ (ledger.members queue).head?, ledger.isDue now alarm = false) :
      Step ledger (.fireFirst queue now) ledger
  | withdraw (queue alarm : Nat) :
      Step ledger (.withdrawAlarm queue alarm) (ledger.withdraw queue alarm)
  | drop (alarm : Nat) :
      Step ledger (.dropAlarm alarm)
        ((ledger.withdraw (ledger.alarm alarm).queue alarm).mark alarm)

end Ledger

namespace Timing

def ledger (timing : Timing) : Ledger where
  clocks := timing.clocks.get
  clockOf := fun queue => (timing.alarms.queues.get queue).clock
  count := timing.alarms.alarms.size
  alarm := timing.alarms.alarms.get
  members := timing.alarms.members
  queuings := timing.queuings
  posts := timing.posts

/-- The links of the alarms spell out the members of each queue. -/
def Threaded (timing : Timing) : Prop := timing.alarms.lists.Spells timing.alarms.members

def relink (timing : Timing) (lists : LinkedLists) : Timing :=
  { timing with alarms := { timing.alarms with lists } }

variable {timing : Timing} {lists : LinkedLists} {sequence : Nat → List Nat}

theorem members_relink (spells : lists.Spells sequence) :
    (timing.relink lists).alarms.members = sequence := funext spells.members_eq

theorem ledger_relink (spells : lists.Spells sequence) :
    (timing.relink lists).ledger = { timing.ledger with members := sequence } := by
  rw [ledger, members_relink spells]
  rfl

theorem threaded_relink (spells : lists.Spells sequence) : (timing.relink lists).Threaded := by
  rw [Threaded, members_relink spells]
  exact spells

def setAlarm (timing : Timing) (number : Nat) (alarm : Alarm) : Timing :=
  { timing with
    alarms := { timing.alarms with alarms := timing.alarms.alarms.set number alarm } }

theorem ledger_setAlarm (number : Nat) (alarm : Alarm) :
    (timing.setAlarm number alarm).ledger =
      { timing.ledger with
        count := max timing.ledger.count (number + 1)
        alarm := Function.update timing.ledger.alarm number alarm } := by
  have replaced : (timing.setAlarm number alarm).alarms.alarms.get =
      Function.update timing.alarms.alarms.get number alarm := by
    funext other
    simp only [setAlarm, Table.get_set, Function.update_apply]
  rw [ledger, replaced]
  simp only [setAlarm, Table.size_set]
  rfl

end Timing

namespace System

def ledger (system : System) : Ledger := system.timing.ledger

/-- The links of the alarms spell out the members of each queue. -/
def Threaded (system : System) : Prop := system.timing.Threaded

variable {system : System} {queue alarm : Nat} {now : Tick}

namespace Threaded

theorem insertAlarm_loose (threaded : system.Threaded) (queue : Nat)
    (loose : ∀ other, alarm ∉ system.ledger.members other) :
    (system.insertAlarm queue alarm).1 = some (system.ledger.ahead queue alarm).length ∧
      (system.insertAlarm queue alarm).2.ledger = system.ledger.insert queue alarm ∧
      (system.insertAlarm queue alarm).2.Threaded := by
  have unlinked := LinkedLists.Spells.isLinked_eq_false threaded |>.mpr loose
  obtain ⟨lists, inserted, spells⟩ :=
    LinkedLists.Spells.insertSorted? threaded queue system.alarms.order unlinked
  change system.alarms.lists.insertSorted? queue alarm system.alarms.order = _ at inserted
  have timing : (system.insertAlarm queue alarm).2.timing =
      { system.timing.relink lists with queuings := alarm :: system.timing.queuings } := by
    simp only [insertAlarm, inserted]
    rfl
  refine ⟨by simp only [insertAlarm, inserted]; rfl, ?_, ?_⟩
  · rw [System.ledger, timing]
    exact congrArg (fun ledger : Ledger =>
      { ledger with queuings := alarm :: system.ledger.queuings }) (Timing.ledger_relink spells)
  · rw [Threaded, timing]
    exact Timing.threaded_relink spells

theorem insertAlarm_queued (threaded : system.Threaded) {other : Nat} (queue : Nat)
    (queued : alarm ∈ system.ledger.members other) :
    system.insertAlarm queue alarm = (none, system.log .alarmAlreadyQueued) := by
  have linked : system.alarms.lists.isLinked alarm = true :=
    (LinkedLists.Spells.linked threaded alarm).mpr ⟨other, queued⟩
  simp [insertAlarm, LinkedLists.insertSorted?, linked]

theorem fireFirst_due (threaded : system.Threaded) {rest : List Nat}
    (front : system.ledger.members queue = alarm :: rest)
    (due : system.ledger.isDue now alarm = true) :
    (∃ fired, (system.fireFirst queue now).1 = some fired) ∧
      (system.fireFirst queue now).2.ledger = system.ledger.fire queue alarm rest ∧
      (system.fireFirst queue now).2.Threaded := by
  obtain ⟨lists, popped, spells⟩ := LinkedLists.Spells.popFront? threaded front
  have accepted := LinkedLists.Spells.popFrontIf?_eq threaded queue (system.ledger.isDue now)
  change system.alarms.lists.popFrontIf? queue
    (fun alarm => Tick.isDue (system.alarms.alarms.get alarm).deadline now) = _ at accepted
  change system.timing.alarms.members queue = _ at front
  rw [front, List.head?_cons, Option.any_some, if_pos due, popped] at accepted
  have timing : (system.fireFirst queue now).2.timing =
      { system.timing.relink lists with
        posts := (alarm, (system.ledger.alarm alarm).signal) :: system.timing.posts } := by
    simp only [fireFirst, accepted, timing_beginPost]
    rfl
  refine ⟨by simp [fireFirst, accepted], ?_, ?_⟩
  · rw [System.ledger, timing]
    exact congrArg (fun ledger : Ledger =>
      { ledger with posts := (alarm, (system.ledger.alarm alarm).signal) :: system.ledger.posts })
      (Timing.ledger_relink spells)
  · rw [Threaded, timing]
    exact Timing.threaded_relink spells

theorem fireFirst_undue (threaded : system.Threaded)
    (undue : ∀ alarm ∈ (system.ledger.members queue).head?,
      system.ledger.isDue now alarm = false) :
    system.fireFirst queue now = (none, system) := by
  have accepted := LinkedLists.Spells.popFrontIf?_eq threaded queue (system.ledger.isDue now)
  change system.alarms.lists.popFrontIf? queue
    (fun alarm => Tick.isDue (system.alarms.alarms.get alarm).deadline now) = _ at accepted
  have none : ¬ ((system.timing.alarms.members queue).head?.any
      (system.ledger.isDue now) = true) := by
    rw [Option.any_eq_true_iff_get]
    rintro ⟨some, due⟩
    rw [undue _ (Option.get_mem some)] at due
    cases due
  rw [if_neg none] at accepted
  simp only [fireFirst, accepted]

theorem withdrawAlarm (threaded : system.Threaded) (queue alarm : Nat) :
    (system.withdrawAlarm queue alarm).2.ledger = system.ledger.withdraw queue alarm ∧
      (system.withdrawAlarm queue alarm).2.Threaded := by
  by_cases member : alarm ∈ system.ledger.members queue
  · obtain ⟨lists, removed, spells⟩ := LinkedLists.Spells.remove? threaded member
    change system.alarms.lists.remove? queue alarm = _ at removed
    have timing : (system.withdrawAlarm queue alarm).2.timing = system.timing.relink lists := by
      simp only [System.withdrawAlarm, removed]
      rfl
    rw [System.ledger, Threaded, timing]
    exact ⟨Timing.ledger_relink spells, Timing.threaded_relink spells⟩
  · have absent := LinkedLists.Spells.remove?_eq_none threaded member
    change system.alarms.lists.remove? queue alarm = _ at absent
    have refused : system.withdrawAlarm queue alarm = (false, system) := by
      simp only [System.withdrawAlarm, absent]
    rw [refused, Ledger.withdraw_of_not_mem member]
    exact ⟨rfl, threaded⟩

theorem createAlarm (threaded : system.Threaded) (queue : Nat) (signal : SignalRef)
    (deadline : Tick) (owned : Bool) :
    (system.createAlarm queue signal deadline owned).2.ledger =
        system.ledger.create { queue, signal, deadline } ∧
      (system.createAlarm queue signal deadline owned).2.Threaded := by
  refine ⟨?_, threaded⟩
  have grown : max system.ledger.count (system.ledger.count + 1) = system.ledger.count + 1 :=
    Nat.max_eq_right (Nat.le_succ _)
  have made : (system.timing.setAlarm system.ledger.count { queue, signal, deadline }).ledger =
      _ := Timing.ledger_setAlarm _ _
  rw [show system.timing.ledger = system.ledger from rfl, grown] at made
  exact made

theorem dropAlarm (threaded : system.Threaded) (alarm : Nat) :
    (system.dropAlarm alarm).ledger =
        (system.ledger.withdraw (system.ledger.alarm alarm).queue alarm).mark alarm ∧
      (system.dropAlarm alarm).Threaded := by
  let queue := (system.ledger.alarm alarm).queue
  let dropped : Alarm := { system.ledger.alarm alarm with dropped := true }
  by_cases member : alarm ∈ system.ledger.members queue
  · obtain ⟨lists, removed, spells⟩ := LinkedLists.Spells.remove? threaded member
    change system.alarms.lists.remove? (system.alarms.alarms.get alarm).queue alarm = _ at removed
    have timing : (system.dropAlarm alarm).timing =
        (system.timing.setAlarm alarm dropped).relink lists := by
      simp only [System.dropAlarm, removed]
      rfl
    rw [System.ledger, Threaded, timing]
    refine ⟨?_, Timing.threaded_relink spells⟩
    rw [Timing.ledger_relink spells, Timing.ledger_setAlarm]
    rfl
  · have absent := LinkedLists.Spells.remove?_eq_none threaded member
    change system.alarms.lists.remove? (system.alarms.alarms.get alarm).queue alarm = _ at absent
    have timing : (system.dropAlarm alarm).timing = system.timing.setAlarm alarm dropped := by
      simp only [System.dropAlarm, absent]
      rfl
    rw [Ledger.withdraw_of_not_mem member, System.ledger, Threaded, timing]
    exact ⟨Timing.ledger_setAlarm alarm dropped, threaded⟩

theorem setClock (threaded : system.Threaded) (clock : Nat) (tick : Tick) :
    (system.setClock clock tick).ledger = system.ledger.setClock clock tick ∧
      (system.setClock clock tick).Threaded := by
  have replaced : (system.clocks.set clock tick).get =
      Function.update system.clocks.get clock tick := by
    funext other
    rw [Table.get_set, Function.update_apply]
  exact ⟨congrArg (fun clocks => { system.ledger with clocks }) replaced, threaded⟩

end Threaded

end System

/-- Every command keeps the links of the alarms in order and changes the ledger in one of the ways
that steps name. -/
theorem Command.step_apply (command : Command) {system : System} (threaded : system.Threaded) :
    system.ledger.Step command (command.apply system).2.ledger ∧
      (command.apply system).2.Threaded := by
  by_cases concerned : command.ConcernsAlarms
  · cases command with
    | setClock clock tick =>
        obtain ⟨ledger, kept⟩ := threaded.setClock clock tick
        exact ⟨ledger ▸ .setClock clock tick, kept⟩
    | advance clock delay =>
        obtain ⟨ledger, kept⟩ := threaded.setClock clock (Tick.after (system.now clock) delay)
        exact ⟨ledger ▸ .advance clock delay, kept⟩
    | createAlarm queue signal deadline owned =>
        obtain ⟨ledger, kept⟩ := threaded.createAlarm queue signal deadline owned
        exact ⟨ledger ▸ .create queue signal deadline owned, kept⟩
    | insertAlarm queue alarm =>
        by_cases queued : ∃ other, alarm ∈ system.ledger.members other
        · obtain ⟨other, queued⟩ := queued
          have refused := threaded.insertAlarm_queued queue queued
          rw [apply, refused]
          exact ⟨.refuse queue queued, threaded⟩
        · have loose := not_exists.mp queued
          obtain ⟨-, ledger, kept⟩ := threaded.insertAlarm_loose queue loose
          exact ⟨ledger ▸ .insert queue loose, kept⟩
    | fireFirst queue now =>
        by_cases undue : ∀ alarm ∈ (system.ledger.members queue).head?,
            system.ledger.isDue now alarm = false
        · rw [apply, threaded.fireFirst_undue undue]
          exact ⟨.hold undue, threaded⟩
        · simp only [not_forall, Bool.not_eq_false] at undue
          obtain ⟨alarm, front, due⟩ := undue
          obtain ⟨rest, front⟩ := List.head?_eq_some_iff.mp front
          obtain ⟨-, ledger, kept⟩ := threaded.fireFirst_due front due
          exact ⟨ledger ▸ .fire front due, kept⟩
    | withdrawAlarm queue alarm =>
        obtain ⟨ledger, kept⟩ := threaded.withdrawAlarm queue alarm
        exact ⟨ledger ▸ .withdraw queue alarm, kept⟩
    | dropAlarm alarm =>
        obtain ⟨ledger, kept⟩ := threaded.dropAlarm alarm
        exact ⟨ledger ▸ .drop alarm, kept⟩
    | _ => exact concerned.elim
  · have same := timing_apply concerned system
    have ledger : (command.apply system).2.ledger = system.ledger := congrArg Timing.ledger same
    refine ⟨ledger ▸ .other concerned, ?_⟩
    rw [System.Threaded, same]
    exact threaded

end TimedWaits
