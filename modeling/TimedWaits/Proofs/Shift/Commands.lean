import Mathlib.Tactic.SplitIfs
import TimedWaits.Proofs.Shift.Basic

/-! Every command does the same to a system and to one whose moments were all moved. -/

set_option autoImplicit false

namespace TimedWaits

namespace System

variable {k : Tick} {system : System}

theorem signal_shift (reference : SignalRef) :
    (system.shift k).signal reference = system.signal reference := rfl

private theorem selectors_shift : (system.shift k).selectors = system.selectors := rfl

theorem workers_shift : (system.shift k).workers = system.workers := rfl

theorem items_shift : (system.shift k).items = system.items := rfl

theorem rings_shift : (system.shift k).rings = system.rings := rfl

private theorem lists_shift : (system.shift k).alarms.lists = system.alarms.lists := rfl

@[simp] theorem now_shift (clock : Nat) : (system.shift k).now clock = system.now clock + k :=
  Table.get_map _ _ _

@[simp] theorem queueNow_shift (queue : Nat) :
    (system.shift k).queueNow queue = system.queueNow queue + k := now_shift _

theorem alarm_shift (alarm : Nat) :
    (system.shift k).alarms.alarms.get alarm = (system.alarms.alarms.get alarm).shift k :=
  Table.get_map _ _ _

private theorem order_shift : (system.shift k).alarms.order = system.alarms.order := by
  funext first second
  rw [Alarms.order, alarm_shift, alarm_shift]
  exact Tick.order_shift _ _

theorem isQueued_shift (alarm : Nat) :
    (system.shift k).alarms.isQueued alarm = system.alarms.isQueued alarm := by
  rw [Alarms.isQueued, alarm_shift]
  rfl

theorem nextDeadline?_shift (queue : Nat) :
    (system.shift k).alarms.nextDeadline? queue =
      (system.alarms.nextDeadline? queue).map (· + k) := by
  rw [Alarms.nextDeadline?, Alarms.nextDeadline?, Option.map_map, lists_shift]
  refine congrArg (Option.map · _) ?_
  funext alarm
  rw [alarm_shift]
  rfl

private theorem recordAll_shift {occurrences : List Occurrence}
    (timeless : ∀ occurrence ∈ occurrences, occurrence.shift k = occurrence) :
    (system.shift k).recordAll occurrences = (system.recordAll occurrences).shift k := by
  induction occurrences generalizing system with
  | nil => rfl
  | cons occurrence rest ih =>
      obtain ⟨first, others⟩ := List.forall_mem_cons.mp timeless
      have recorded : (system.shift k).record occurrence = (system.record occurrence).shift k := by
        simp only [record, shift, List.map_cons, first]
      exact (congrArg (recordAll · rest) recorded).trans (ih others)

theorem take_shift (reference : SignalRef) :
    (system.shift k).take reference =
      ((system.take reference).1, (system.take reference).2.shift k) := by
  simp only [take, signal_shift]
  cases (system.signal reference).take? <;> rfl

theorem beginPost_shift (reference : SignalRef) (alarm : Option Nat) :
    (system.shift k).beginPost reference alarm =
      ((system.beginPost reference alarm).1, (system.beginPost reference alarm).2.shift k) := by
  simp only [beginPost, signal_shift]
  cases (system.signal reference).attachment <;> rfl

theorem attach_shift (signal : Nat) (observer : Observer) (token : Nat) :
    (system.shift k).attach signal observer token =
      ((system.attach signal observer token).1,
        (system.attach signal observer token).2.shift k) := by
  simp only [attach, signal_shift]
  cases (system.signal (.shared signal)).attach? observer token <;> rfl

theorem detach_shift (signal : Nat) (observer : Observer) :
    (system.shift k).detach signal observer =
      ((system.detach signal observer).1, (system.detach signal observer).2.shift k) := by
  simp only [detach, signal_shift]
  cases (system.signal (.shared signal)).detach? observer <;> rfl

private theorem watch_shift (index signal : Nat) :
    (system.shift k).watch index signal =
      ((system.watch index signal).1, (system.watch index signal).2.shift k) := by
  simp only [watch, selectors_shift]
  cases (system.selectors.get index).freeSlot? with
  | none => rfl
  | some slot =>
      simp only [attach_shift]
      rcases system.attach signal (.selector index) slot with ⟨refusal | accepted, changed⟩ <;> rfl

private theorem unwatch_shift (index signal : Nat) :
    (system.shift k).unwatch index signal =
      ((system.unwatch index signal).1, (system.unwatch index signal).2.shift k) := by
  simp only [unwatch, selectors_shift, detach_shift]
  cases (system.selectors.get index).slotOf? signal <;> rfl

private theorem markReady_shift (index token : Nat) :
    (system.shift k).markReady index token = (system.markReady index token).shift k := by
  simp only [markReady]
  by_cases known : token < (system.selectors.get index).capacity
  · have knownShift : token < ((system.shift k).selectors.get index).capacity := known
    rw [if_pos known, if_pos knownShift, selectors_shift]
    cases (system.selectors.get index).markReady? token <;> rfl
  · have unknownShift : ¬ token < ((system.shift k).selectors.get index).capacity := known
    rw [if_neg known, if_neg unknownShift]
    rfl

private theorem takeReady_shift (index : Nat) :
    (system.shift k).takeReady index =
      ((system.takeReady index).1, (system.takeReady index).2.shift k) := by
  simp only [takeReady, selectors_shift]
  rcases (system.selectors.get index).takeReady with ⟨none | signal, selector⟩ <;> rfl

private theorem detachAll_shift (index : Nat) (slots : List (Option Nat)) :
    (system.shift k).detachAll index slots = (system.detachAll index slots).shift k := by
  induction slots generalizing system with
  | nil => rfl
  | cons slot rest ih =>
      cases slot with
      | none => exact ih
      | some signal => rw [detachAll, detach_shift, ih, detachAll]

private theorem dropSelector_shift (index : Nat) :
    (system.shift k).dropSelector index = (system.dropSelector index).shift k := by
  simp only [dropSelector, selectors_shift, detachAll_shift]
  rfl

private theorem putJob_shift (worker job : Nat) :
    (system.shift k).putJob worker job =
      ((system.putJob worker job).1, (system.putJob worker job).2.shift k) := by
  simp only [putJob, workers_shift]
  cases system.workers.lists.pushBack? worker job <;> rfl

theorem nextJob_shift (worker : Nat) :
    (system.shift k).nextJob worker =
      ((system.nextJob worker).1, (system.nextJob worker).2.shift k) := by
  simp only [nextJob, workers_shift]
  cases system.workers.lists.popFront? worker with
  | none => rfl
  | some popped =>
      simp only
      cases system.workers.labels.get popped.1 <;> rfl

private theorem takeTurn_shift (worker : Nat) :
    (system.shift k).takeTurn worker =
      ((system.takeTurn worker).1, (system.takeTurn worker).2.shift k) := by
  simp only [takeTurn, take_shift, workers_shift, nextJob_shift]
  split
  · rfl
  · rcases (system.take (.worker worker)).2.nextJob worker with ⟨none | job, changed⟩ <;> rfl

private theorem store_shift (index : Nat) (elements : List Int) :
    (system.shift k).store index elements =
      ((system.store index elements).1, (system.store index elements).2.shift k) := by
  have kept (ring : Ring Int) (occurrence : Occurrence)
      (timeless : occurrence.shift k = occurrence) :
      ((system.shift k).setRing index ring).record occurrence =
        ((system.setRing index ring).record occurrence).shift k := by
    simp only [record, setRing, shift, List.map_cons, timeless]
  simp only [store, rings_shift, kept _ (.stored index _) rfl]
  split_ifs
  · rfl
  · rfl
  · cases ((system.rings.get index).store elements).2.signal with
    | none => rfl
    | some signal => simp only [beginPost_shift]

private theorem associate_shift (index signal : Nat) :
    (system.shift k).associate index signal =
      ((system.associate index signal).1, (system.associate index signal).2.shift k) := by
  simp only [associate, rings_shift]
  cases (system.rings.get index).associate? signal <;> rfl

private theorem dissociate_shift (index : Nat) :
    (system.shift k).dissociate index =
      ((system.dissociate index).1, (system.dissociate index).2.shift k) := by
  simp only [dissociate, rings_shift]
  cases (system.rings.get index).dissociate? <;> rfl

theorem addRearm_shift (target : Nat) (delay : Tick) :
    (system.shift k).addRearm target delay = (system.addRearm target delay).shift k := by
  have kept : (system.shift k).rearmLogs = system.rearmLogs := rfl
  simp only [addRearm, kept]
  split_ifs <;> rfl

private theorem pushFront_shift (list item : Nat) :
    (system.shift k).pushFront list item =
      ((system.pushFront list item).1, (system.pushFront list item).2.shift k) := by
  simp only [pushFront, items_shift]
  cases system.items.lists.pushFront? list item <;> rfl

private theorem pushBack_shift (list item : Nat) :
    (system.shift k).pushBack list item =
      ((system.pushBack list item).1, (system.pushBack list item).2.shift k) := by
  simp only [pushBack, items_shift]
  cases system.items.lists.pushBack? list item <;> rfl

private theorem popFront_shift (list : Nat) :
    (system.shift k).popFront list =
      ((system.popFront list).1, (system.popFront list).2.shift k) := by
  simp only [popFront, items_shift]
  cases system.items.lists.popFront? list <;> rfl

private theorem removeItem_shift (list item : Nat) :
    (system.shift k).removeItem list item =
      ((system.removeItem list item).1, (system.removeItem list item).2.shift k) := by
  simp only [removeItem, items_shift]
  cases system.items.lists.remove? list item <;> rfl

theorem recordAll_map_shift {occurrence : Nat → Occurrence}
    (timeless : ∀ member, (occurrence member).shift k = occurrence member) (members : List Nat) :
    (system.shift k).recordAll (members.map occurrence) =
      (system.recordAll (members.map occurrence)).shift k := by
  refine recordAll_shift fun noted among => ?_
  obtain ⟨member, -, rfl⟩ := List.mem_map.mp among
  exact timeless member

private theorem insertItem_shift (list item : Nat) (order : ItemOrder) :
    (system.shift k).insertItem list item order =
      ((system.insertItem list item order).1, (system.insertItem list item order).2.shift k) := by
  have noted := @recordAll_map_shift k system (.compared item) fun _ => rfl
  simp only [insertItem, items_shift, noted]
  cases system.items.lists.insertSorted? list item (system.items.order order) <;> rfl

private theorem popFrontIf_shift (list : Nat) (filter : ItemFilter) :
    (system.shift k).popFrontIf list filter =
      ((system.popFrontIf list filter).1, (system.popFrontIf list filter).2.shift k) := by
  have noted := @recordAll_map_shift k system .examined fun _ => rfl
  simp only [popFrontIf, items_shift, noted]
  cases system.items.lists.popFrontIf? list (system.items.accepts filter) <;> rfl

private theorem searchList_shift (list : Nat) (filter : ItemFilter) :
    (system.shift k).searchList list filter =
      ((system.searchList list filter).1, (system.searchList list filter).2.shift k) := by
  simp only [searchList, items_shift]
  exact congrArg _ (recordAll_map_shift (fun _ => rfl) _)

theorem setClock_shift (clock : Nat) (tick : Tick) :
    (system.shift k).setClock clock (tick + k) = (system.setClock clock tick).shift k := by
  simp only [setClock, shift, Table.map_set]

theorem advance_shift (clock : Nat) (delay : Tick) :
    (system.shift k).advance clock delay = (system.advance clock delay).shift k := by
  rw [advance, now_shift, Tick.after_shift, setClock_shift, advance]

theorem createAlarm_shift (queue : Nat) (signal : SignalRef) (deadline : Tick) (owned : Bool) :
    (system.shift k).createAlarm queue signal (deadline + k) owned =
      ((system.createAlarm queue signal deadline owned).1,
        (system.createAlarm queue signal deadline owned).2.shift k) := by
  simp only [createAlarm, shift, Alarms.shift, Table.size_map, Table.map_set]
  rfl

private theorem insertAlarm_shift (queue alarm : Nat) :
    (system.shift k).insertAlarm queue alarm =
      ((system.insertAlarm queue alarm).1, (system.insertAlarm queue alarm).2.shift k) := by
  simp only [insertAlarm, lists_shift, order_shift]
  cases system.alarms.lists.insertSorted? queue alarm system.alarms.order <;> rfl

private theorem withdrawAlarm_shift (queue alarm : Nat) :
    (system.shift k).withdrawAlarm queue alarm =
      ((system.withdrawAlarm queue alarm).1, (system.withdrawAlarm queue alarm).2.shift k) := by
  simp only [withdrawAlarm, lists_shift]
  cases system.alarms.lists.remove? queue alarm <;> rfl

private theorem dropAlarm_shift (alarm : Nat) :
    (system.shift k).dropAlarm alarm = (system.dropAlarm alarm).shift k := by
  have marked : (system.shift k).alarms.alarms.modify alarm ({ · with dropped := true }) =
      (system.alarms.alarms.modify alarm ({ · with dropped := true })).map (Alarm.shift k) :=
    (Table.map_modify (Alarm.shift k) ({ · with dropped := true }) (fun _ => rfl) _ _).symm
  have queue : ((system.alarms.alarms.get alarm).shift k).queue =
      (system.alarms.alarms.get alarm).queue := rfl
  simp only [dropAlarm, marked, lists_shift, alarm_shift, queue]
  cases system.alarms.lists.remove? (system.alarms.alarms.get alarm).queue alarm <;> rfl

theorem fireFirst_shift (queue : Nat) (now : Tick) :
    (system.shift k).fireFirst queue (now + k) =
      ((system.fireFirst queue now).1.map (FiredAlarm.shift k),
        (system.fireFirst queue now).2.shift k) := by
  have due : (fun alarm => Tick.isDue ((system.shift k).alarms.alarms.get alarm).deadline (now + k)) =
      fun alarm => Tick.isDue (system.alarms.alarms.get alarm).deadline now := by
    funext alarm
    rw [alarm_shift]
    exact Tick.isDue_shift _ _
  simp only [fireFirst, due, lists_shift]
  cases popped : system.alarms.lists.popFrontIf? queue
      (fun alarm => Tick.isDue (system.alarms.alarms.get alarm).deadline now) with
  | none => rfl
  | some first =>
      obtain ⟨alarm, lists⟩ := first
      let fired := { system with alarms := { system.alarms with lists } }.record (.fired alarm now)
      have shifted : { system.shift k with
          alarms := { (system.shift k).alarms with lists } }.record (.fired alarm (now + k)) =
            fired.shift k := rfl
      have signal : ((system.alarms.alarms.get alarm).shift k).signal =
          (system.alarms.alarms.get alarm).signal := rfl
      simp only [alarm_shift, shifted, signal, beginPost_shift]
      rfl

end System

namespace Command

/-- Commands that name no moment. -/
def IsTimeless : Command → Prop
  | .log (.alarmFired _ _) | .setClock _ _ | .createAlarm _ _ _ _ | .fireFirst _ _ => False
  | _ => True

theorem apply_shift {k : Tick} {command : Command} (timeless : command.IsTimeless)
    (system : System) :
    command.apply (system.shift k) =
      ((command.apply system).1, (command.apply system).2.shift k) := by
  cases command with
  | log notice =>
      cases notice with
      | alarmFired => exact timeless.elim
      | _ => rfl
  | setClock | createAlarm | fireFirst => exact timeless.elim
  | advance clock delay => exact congrArg _ (System.advance_shift clock delay)
  | addRearm target delay => exact congrArg _ (System.addRearm_shift target delay)
  | take signal => exact System.take_shift signal
  | beginPost signal => exact System.beginPost_shift signal none
  | attach signal observer token => exact System.attach_shift signal observer token
  | detach signal observer => exact System.detach_shift signal observer
  | insertAlarm queue alarm => exact System.insertAlarm_shift queue alarm
  | withdrawAlarm queue alarm => exact System.withdrawAlarm_shift queue alarm
  | dropAlarm alarm => exact congrArg _ (System.dropAlarm_shift alarm)
  | createSelector selector capacity backend =>
      have dropped := @System.dropSelector_shift k system selector
      simp only [apply, System.createSelector, dropped]
      rfl
  | watch selector signal => exact System.watch_shift selector signal
  | unwatch selector signal => exact System.unwatch_shift selector signal
  | markReady selector token => exact congrArg _ (System.markReady_shift selector token)
  | takeReady selector => exact System.takeReady_shift selector
  | takeWakeup selector =>
      simp only [apply, System.takeWakeup, System.take_shift, System.takeReady_shift]
  | dropSelector selector => exact congrArg _ (System.dropSelector_shift selector)
  | putJob worker job => exact System.putJob_shift worker job
  | nextJob worker => exact System.nextJob_shift worker
  | takeTurn worker => exact System.takeTurn_shift worker
  | store ring elements => exact System.store_shift ring elements
  | associate ring signal => exact System.associate_shift ring signal
  | dissociate ring => exact System.dissociate_shift ring
  | pushFront list item => exact System.pushFront_shift list item
  | pushBack list item => exact System.pushBack_shift list item
  | insertItem list item order => exact System.insertItem_shift list item order
  | popFront list => exact System.popFront_shift list
  | popFrontIf list filter => exact System.popFrontIf_shift list filter
  | removeItem list item => exact System.removeItem_shift list item
  | searchList list filter => exact System.searchList_shift list filter
  | _ => rfl

end Command

end TimedWaits
