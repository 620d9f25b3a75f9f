import TimedWaits.Command

/-! What a system keeps about clocks and alarms, and that only a few commands touch it. -/

set_option autoImplicit false

namespace TimedWaits

/-- The clocks and the alarms of a system, and what its history says about alarms: which ones
entered a queue and which ones posted their signal when they fired, each with the latest first. -/
structure Timing where
  clocks : Table Tick
  alarms : Alarms
  queuings : List Nat
  posts : List (Nat × SignalRef)

def Occurrence.queuing? : Occurrence → Option Nat
  | .queued alarm _ => some alarm
  | _ => none

def Occurrence.alarmPost? : Occurrence → Option (Nat × SignalRef)
  | .posted signal (some alarm) => some (alarm, signal)
  | _ => none

/-- An occurrence without a say on which alarms entered or left a queue. -/
def Occurrence.IsReport (occurrence : Occurrence) : Prop :=
  occurrence.queuing? = none ∧ occurrence.alarmPost? = none

/-- Commands on clocks and alarms. All others leave the timing alone. -/
def Command.ConcernsAlarms : Command → Prop
  | .setClock _ _ | .advance _ _ | .createAlarm _ _ _ _ | .insertAlarm _ _ | .fireFirst _ _
  | .withdrawAlarm _ _ | .dropAlarm _ => True
  | _ => False

namespace System

def timing (system : System) : Timing where
  clocks := system.clocks
  alarms := system.alarms
  queuings := system.history.filterMap Occurrence.queuing?
  posts := system.history.filterMap Occurrence.alarmPost?

variable {system : System}

theorem timing_record {occurrence : Occurrence} (report : occurrence.IsReport) :
    (system.record occurrence).timing = system.timing := by
  simp [timing, record, report.1, report.2]

private theorem timing_recordAll {α : Type} (occurrence : α → Occurrence)
    (report : ∀ value, (occurrence value).IsReport) (values : List α) :
    (system.recordAll (values.map occurrence)).timing = system.timing := by
  induction values generalizing system with
  | nil => rfl
  | cons value rest ih => exact ih.trans (timing_record (report value))

@[simp] theorem timing_log (notice : Notice) : (system.log notice).timing = system.timing :=
  timing_record ⟨rfl, rfl⟩

@[simp] theorem timing_setSignal (reference : SignalRef) (signal : Signal) :
    (system.setSignal reference signal).timing = system.timing := rfl

@[simp] theorem timing_raise (reference : SignalRef) :
    (system.raise reference).timing = system.timing := timing_record ⟨rfl, rfl⟩

@[simp] theorem timing_take (reference : SignalRef) :
    (system.take reference).2.timing = system.timing := by
  unfold take
  split
  · rfl
  · exact timing_record ⟨rfl, rfl⟩

theorem timing_beginPost (reference : SignalRef) (alarm : Option Nat) :
    (system.beginPost reference alarm).2.timing =
      (system.record (.posted reference alarm)).timing := by
  unfold beginPost
  split
  · exact timing_raise reference
  · rfl

@[simp] theorem timing_beginPost_none (reference : SignalRef) :
    (system.beginPost reference none).2.timing = system.timing :=
  (timing_beginPost reference none).trans (timing_record ⟨rfl, rfl⟩)

@[simp] theorem timing_attach (signal : Nat) (observer : Observer) (token : Nat) :
    (system.attach signal observer token).2.timing = system.timing := by
  unfold attach
  split <;> simp

@[simp] theorem timing_detach (signal : Nat) (observer : Observer) :
    (system.detach signal observer).2.timing = system.timing := by
  unfold detach
  split <;> simp

@[simp] theorem timing_setSelector (index : Nat) (selector : Selector) :
    (system.setSelector index selector).timing = system.timing := rfl

@[simp] theorem timing_watch (index signal : Nat) :
    (system.watch index signal).2.timing = system.timing := by
  have attached : ∀ slot, (system.attach signal (.selector index) slot).2.timing =
    system.timing := timing_attach signal (.selector index)
  simp only [watch]
  split
  · rfl
  · next slot _ =>
    specialize attached slot
    split
    · next refused => rwa [refused] at attached
    · next accepted =>
      rw [accepted] at attached
      exact (timing_log _).trans ((timing_record ⟨rfl, rfl⟩).trans attached)

@[simp] theorem timing_unwatch (index signal : Nat) :
    (system.unwatch index signal).2.timing = system.timing := by
  simp only [unwatch]
  split
  · rfl
  · exact (timing_record ⟨rfl, rfl⟩).trans (timing_detach signal (.selector index))

@[simp] theorem timing_markReady (index token : Nat) :
    (system.markReady index token).timing = system.timing := by
  simp only [markReady]
  split
  · rw [timing_raise]
    split
    · exact timing_log _
    · exact timing_record ⟨rfl, rfl⟩
  · exact timing_log _

@[simp] theorem timing_takeReady (index : Nat) :
    (system.takeReady index).2.timing = system.timing := by
  simp only [takeReady]
  split
  · rfl
  · exact timing_record ⟨rfl, rfl⟩

@[simp] theorem timing_detachAll (index : Nat) (slots : List (Option Nat)) :
    (system.detachAll index slots).timing = system.timing := by
  induction slots generalizing system with
  | nil => rfl
  | cons slot rest ih =>
      cases slot with
      | none => exact ih
      | some signal => exact ih.trans (timing_detach signal (.selector index))

@[simp] theorem timing_dropSelector (index : Nat) :
    (system.dropSelector index).timing = system.timing :=
  timing_detachAll index (system.selectors.get index).slots

@[simp] theorem timing_createSelector (index capacity : Nat) (backend : Backend) :
    (system.createSelector index capacity backend).timing = system.timing := by
  rw [createSelector, timing_setSignal, timing_setSelector, timing_dropSelector]

@[simp] theorem timing_nextJob (worker : Nat) :
    (system.nextJob worker).2.timing = system.timing := by
  unfold nextJob
  split
  · rfl
  · simp only
    split
    · exact timing_record ⟨rfl, rfl⟩
    · exact (timing_log _).trans (timing_record ⟨rfl, rfl⟩)

@[simp] theorem timing_putJob (worker job : Nat) :
    (system.putJob worker job).2.timing = system.timing := by
  unfold putJob
  split
  · exact timing_log _
  · exact (timing_raise _).trans (timing_record ⟨rfl, rfl⟩)

@[simp] theorem timing_takeTurn (worker : Nat) :
    (system.takeTurn worker).2.timing = system.timing := by
  have taken : (system.take (.worker worker)).2.timing = system.timing := timing_take _
  have next : ((system.take (.worker worker)).2.nextJob worker).2.timing =
    (system.take (.worker worker)).2.timing := timing_nextJob worker
  simp only [takeTurn]
  split
  · exact (timing_log _).trans taken
  · split
    · next idle => exact (idle ▸ next).trans taken
    · next started => exact (started ▸ next).trans taken

@[simp] theorem timing_store (index : Nat) (elements : List Int) :
    (system.store index elements).2.timing = system.timing := by
  simp only [store]
  split
  · split
    · rfl
    · exact timing_log _
  · split
    · exact timing_record ⟨rfl, rfl⟩
    · exact (timing_beginPost_none _).trans (timing_record ⟨rfl, rfl⟩)

end System

theorem Command.timing_apply {command : Command} (unconcerned : ¬ command.ConcernsAlarms)
    (system : System) : (command.apply system).2.timing = system.timing := by
  cases command with
  | setClock | advance | createAlarm | insertAlarm | fireFirst | withdrawAlarm | dropAlarm =>
      exact absurd trivial unconcerned
  | insertItem list item order =>
      have noted := @System.timing_recordAll system _ (Occurrence.compared item)
        (fun _ => ⟨rfl, rfl⟩)
      simp only [apply, System.insertItem]
      split <;> exact noted _
  | popFrontIf list filter =>
      have noted := @System.timing_recordAll system _ Occurrence.examined
        (fun _ => ⟨rfl, rfl⟩)
      simp only [apply, System.popFrontIf]
      split <;> exact noted _
  | searchList list filter =>
      exact System.timing_recordAll Occurrence.examined (fun _ => ⟨rfl, rfl⟩) _
  | addRearm target delay =>
      simp only [apply, System.addRearm]
      split
      · exact System.timing_log _
      · rfl
  | pushFront | pushBack | popFront | removeItem =>
      simp only [apply, System.pushFront, System.pushBack, System.popFront, System.removeItem]
      split <;> rfl
  | associate ring signal =>
      simp only [apply, System.associate]
      split
      · exact System.timing_log _
      · rfl
  | dissociate ring =>
      simp only [apply, System.dissociate]
      split <;> rfl
  | takeWakeup selector =>
      exact (System.timing_takeReady selector).trans (System.timing_take _)
  | kill worker =>
      rw [apply, System.kill, System.timing_raise]
      exact System.timing_record ⟨rfl, rfl⟩
  | kick clock delay => exact System.timing_log (.clockKicked delay)
  | fetch ring count => exact System.timing_record ⟨rfl, rfl⟩
  | resetRing ring => exact System.timing_record ⟨rfl, rfl⟩
  | _ => first | rfl | simp [apply]

end TimedWaits
