import TimedWaits.Proofs.Alarms.Timing

/-! What commands are made of. Every command comes down to touches, each of which changes one part of
a system, and the command alone tells which touches may be among them. What none of its touches
changes a command leaves alone, so a frame is proved once for each touch and not for each command. -/

set_option autoImplicit false

namespace TimedWaits

namespace Signal

variable {signal changed : Signal} {observer : Observer} {token : Nat}

theorem attach?_eq_some (accepted : signal.attach? observer token = some changed) :
    signal.attachment = none ∧
      changed = { signal with attachment := some { observer, token } } := by
  unfold attach? at accepted
  split at accepted
  · cases accepted
  · next free => exact ⟨free, (Option.some.inj accepted).symm⟩

theorem detach?_eq_some (accepted : signal.detach? observer = some changed) :
    (∃ token, signal.attachment = some { observer, token }) ∧
      changed = { signal with attachment := none } := by
  unfold detach? at accepted
  split at accepted
  · cases accepted
  · next held attached =>
    split at accepted
    · next same => exact ⟨⟨held.token, same ▸ attached⟩, (Option.some.inj accepted).symm⟩
    · cases accepted

end Signal

namespace System

theorem signal_setSignal (system : System) (reference other : SignalRef) (signal : Signal) :
    (system.setSignal reference signal).signal other =
      if other = reference then signal else system.signal other :=
  Signals.get_set system.signals reference other signal

theorem signal_raise (system : System) (reference : SignalRef) :
    (system.raise reference).signal reference = (system.signal reference).raise := by
  change (system.setSignal reference _).signal reference = _
  rw [signal_setSignal, if_pos rfl]

theorem signal_raise_of_ne {system : System} {reference other : SignalRef}
    (differ : other ≠ reference) :
    (system.raise reference).signal other = system.signal other := by
  have set := signal_setSignal system reference other (system.signal reference).raise
  rw [if_neg differ] at set
  exact set

/-- A take finds no post, or takes one. -/
theorem take_cases (system : System) (reference : SignalRef) :
    (system.signal reference).pending = 0 ∧ system.take reference = (false, system) ∨
      ∃ taken, system.take reference = (true, taken) ∧
        (taken.signal reference).pending + 1 = (system.signal reference).pending ∧
        taken.history = .took reference :: system.history := by
  by_cases none : (system.signal reference).pending = 0
  · have refused : (system.signal reference).take? = Option.none := if_pos none
    exact .inl ⟨none, by rw [take, refused]⟩
  · have accepted : (system.signal reference).take? =
        some { system.signal reference with pending := (system.signal reference).pending - 1 } :=
      if_neg none
    refine .inr ⟨_, by rw [take, accepted], ?_, rfl⟩
    change ((system.setSignal reference _).signal reference).pending + 1 = _
    rw [signal_setSignal, if_pos rfl]
    exact Nat.sub_add_cancel (Nat.one_le_iff_ne_zero.mpr none)

theorem pending_take (system : System) (reference : SignalRef) :
    (system.signal reference).pending ≤ ((system.take reference).2.signal reference).pending + 1 := by
  rcases system.take_cases reference with ⟨none, -⟩ | ⟨taken, took, fewer, -⟩
  · rw [none]
    exact Nat.zero_le _
  · rw [took]
    exact Nat.le_of_eq fewer.symm

end System

/-- A change of one part of a system. Signals change together with the occurrence that says so; the
private signal of a selector or a worker may also be made anew. -/
inductive Touch where
  | note (occurrence : Occurrence)
  | raise (signal : SignalRef)
  | take (signal : SignalRef)
  | renew (signal : SignalRef) (fresh : Signal)
  | attach (signal : Nat) (observer : Observer) (token : Nat)
  | detach (signal : Nat) (observer : Observer)
  | clock (index : Nat) (tick : Tick)
  | kickClocks (clocks : Table KickClock)
  | rearmLogs (logs : Table RearmLog)
  | stop (requested : Bool)
  | alarms (alarms : Alarms)
  | selector (index : Nat) (selector : Selector)
  | workers (workers : Workers)
  | ring (index : Nat) (ring : Ring Int)
  | items (items : Items)

def Touch.apply : Touch → System → System
  | .note occurrence, system => system.record occurrence
  | .raise reference, system => system.raise reference
  | .take reference, system => (system.take reference).2
  | .renew reference fresh, system => system.setSignal reference fresh
  | .attach index observer token, system => (system.attach index observer token).2
  | .detach index observer, system => (system.detach index observer).2
  | .clock index tick, system => system.setClock index tick
  | .kickClocks fresh, system => { system with kickClocks := fresh }
  | .rearmLogs fresh, system => { system with rearmLogs := fresh }
  | .stop requested, system => { system with stopRequested := requested }
  | .alarms fresh, system => { system with alarms := fresh }
  | .selector index fresh, system => system.setSelector index fresh
  | .workers fresh, system => { system with workers := fresh }
  | .ring index fresh, system => system.setRing index fresh
  | .items fresh, system => { system with items := fresh }

namespace Command

/-- The selector that a command is about. -/
def selector? : Command → Option Nat
  | .createSelector selector _ _ | .watch selector _ | .unwatch selector _ | .markReady selector _
  | .takeReady selector | .takeWakeup selector | .dropSelector selector => some selector
  | _ => none

/-- The ring that a command is about. -/
def ring? : Command → Option Nat
  | .store ring _ | .fetch ring _ | .resetRing ring | .associate ring _ | .dissociate ring =>
    some ring
  | _ => none

/-- The worker that a command is about. -/
def worker? : Command → Option Nat
  | .createWorker worker _ | .dropWorker worker | .putJob worker _ | .nextJob worker
  | .takeTurn worker | .kill worker => some worker
  | _ => none

/-- Whether a command may post a signal: by itself, by the firing of an alarm, or for a ring. -/
def IsPost : Command → Prop
  | .beginPost _ | .fireFirst _ _ | .store _ _ => True
  | _ => False

/-- What a command may add to the history, apart from raises and takes. -/
def Notes (command : Command) : Occurrence → Prop
  | .raised _ | .took _ | .blocked _ | .slept _ _ | .rearmed _ _ | .observerCalled _ _
  | .executed _ | .ended _ _ | .unused _ => False
  | .posted _ none => command.IsPost
  | .posted _ (some _) => ∃ queue now, command = .fireFirst queue now
  | .fired _ now => ∃ queue, command = .fireFirst queue now
  | .queued alarm _ => ∃ queue, command = .insertAlarm queue alarm
  | .withdrawn alarm => ∃ queue, command = .withdrawAlarm queue alarm
  | .dropped alarm _ => command = .dropAlarm alarm
  | .accepted worker job => command = .putJob worker job
  | .started worker _ => command.worker? = some worker
  | .killed worker => command = .kill worker
  | .watching selector _ _ | .unwatched selector _ _ | .selected selector _ =>
    command.selector? = some selector
  | .slotReady selector token => command = .markReady selector token
  | _ => True

/-- Whether a signal is a private one that a command may take posts of or make anew. -/
def Tends (command : Command) : SignalRef → Prop
  | .shared _ => False
  | .selector index => command.selector? = some index
  | .worker index => command.worker? = some index

end Command

/-- Whether a touch may be among those of a command. -/
def Touch.IsOf (command : Command) : Touch → Prop
  | .note occurrence => command.Notes occurrence
  | .take signal => command = .take signal ∨ command.Tends signal
  | .renew signal fresh => command.Tends signal ∧ fresh.attachment = none
  | .attach signal observer token =>
    command = .attach signal observer token ∨
      ∃ index, observer = .selector index ∧ command.selector? = some index
  | .detach signal observer =>
    command = .detach signal observer ∨
      ∃ index, observer = .selector index ∧ command.selector? = some index
  | .clock _ _ | .alarms _ => command.ConcernsAlarms
  | .selector index _ => command.selector? = some index
  | .workers _ => ∃ worker, command.worker? = some worker
  | .ring index _ => command.ring? = some index
  | _ => True

/-- Only a touch of a selector changes it. -/
theorem Touch.selectors_apply {touch : Touch} {index : Nat}
    (elsewhere : ∀ selector, touch ≠ .selector index selector) (system : System) :
    (touch.apply system).selectors.get index = system.selectors.get index := by
  cases touch with
  | selector other selector =>
      have differ : index ≠ other := by
        rintro rfl
        exact elsewhere selector rfl
      exact Table.get_set_of_ne _ differ selector
  | take signal =>
      simp only [apply, System.take]
      split <;> rfl
  | attach signal observer token =>
      simp only [apply, System.attach]
      split <;> rfl
  | detach signal observer =>
      simp only [apply, System.detach]
      split <;> rfl
  | _ => rfl

/-- Only a take of a signal lowers its count, and only a signal that is made anew may have less. -/
theorem Touch.pending_le {touch : Touch} {system : System} {reference : SignalRef} {count : Nat}
    (takes : touch ≠ .take reference) (renews : ∀ fresh, touch ≠ .renew reference fresh)
    (few : count ≤ Signal.ceiling) (enough : count ≤ (system.signal reference).pending) :
    count ≤ ((touch.apply system).signal reference).pending := by
  have replaced : ∀ {other : SignalRef} {fresh : Signal},
      (other = reference → count ≤ fresh.pending) →
      count ≤ ((system.setSignal other fresh).signal reference).pending := by
    intro other fresh more
    rw [System.signal_setSignal]
    split
    · next same => exact more same.symm
    · exact enough
  cases touch with
  | raise other =>
      refine @replaced other (system.signal other).raise ?_
      rintro rfl
      exact Nat.le_min.mpr ⟨Nat.le_succ_of_le enough, few⟩
  | take other =>
      simp only [apply, System.take]
      split
      · exact enough
      · refine replaced ?_
        rintro rfl
        exact absurd rfl takes
  | renew other fresh =>
      refine replaced ?_
      rintro rfl
      exact absurd rfl (renews fresh)
  | attach index observer token =>
      simp only [apply, System.attach]
      split
      · exact enough
      · next attached accepted =>
        obtain ⟨-, rfl⟩ := Signal.attach?_eq_some accepted
        refine replaced ?_
        rintro rfl
        exact enough
  | detach index observer =>
      simp only [apply, System.detach]
      split
      · exact enough
      · next detached accepted =>
        obtain ⟨-, rfl⟩ := Signal.detach?_eq_some accepted
        refine replaced ?_
        rintro rfl
        exact enough
  | _ => exact enough

/-- A system becomes another by allowed touches. -/
inductive Touched (allowed : Touch → Prop) : System → System → Prop where
  | refl (system : System) : Touched allowed system system
  | touch {first last : System} (before : Touched allowed first last) (touch : Touch)
      (permitted : allowed touch) : Touched allowed first (touch.apply last)

namespace Touched

variable {allowed : Touch → Prop} {first middle last system : System}

theorem note (before : Touched allowed first last) (occurrence : Occurrence)
    (permitted : allowed (.note occurrence)) : Touched allowed first (last.record occurrence) :=
  before.touch (.note occurrence) permitted

private theorem noteAll {α : Type} (before : Touched allowed first last) (occurrence : α → Occurrence)
    (permitted : ∀ value, allowed (.note (occurrence value))) (values : List α) :
    Touched allowed first (last.recordAll (values.map occurrence)) := by
  induction values generalizing last with
  | nil => exact before
  | cons value rest ih => exact ih (before.note (occurrence value) (permitted value))

theorem log (before : Touched allowed first last) (notice : Notice)
    (permitted : allowed (.note (.logged notice))) : Touched allowed first (last.log notice) :=
  before.note (.logged notice) permitted

theorem mono {other : Touch → Prop} (weaker : ∀ touch, allowed touch → other touch)
    (touched : Touched allowed first last) : Touched other first last := by
  induction touched with
  | refl => exact .refl first
  | touch _ touch permitted ih => exact ih.touch touch (weaker touch permitted)

/-- What every allowed touch keeps holds after any of them. -/
theorem preserves {motive : System → Prop} (touched : Touched allowed first last)
    (start : motive first)
    (keeps : ∀ {system : System} {touch : Touch}, allowed touch → motive system →
      motive (touch.apply system)) : motive last := by
  induction touched with
  | refl => exact start
  | touch _ touch permitted ih => exact keeps permitted ih

end Touched

namespace System

variable {allowed : Touch → Prop} {first system : System}

theorem touched_beginPost (before : Touched allowed first system) (signal : SignalRef)
    (alarm : Option Nat) (posts : allowed (.note (.posted signal alarm)))
    (raises : allowed (.raise signal)) :
    Touched allowed first (system.beginPost signal alarm).2 := by
  have posted := before.note (.posted signal alarm) posts
  unfold beginPost
  split
  · exact posted.touch (.raise signal) raises
  · exact posted

private theorem touched_detachAll (before : Touched allowed first system) (index : Nat)
    (slots : List (Option Nat)) (detaches : ∀ signal, allowed (.detach signal (.selector index))) :
    Touched allowed first (system.detachAll index slots) := by
  induction slots generalizing system with
  | nil => exact before
  | cons slot rest ih =>
      cases slot with
      | none => exact ih before
      | some signal => exact ih (before.touch (.detach signal (.selector index)) (detaches signal))

private theorem touched_dropSelector (before : Touched allowed first system) (index : Nat)
    (detaches : ∀ signal, allowed (.detach signal (.selector index)))
    (selects : ∀ selector, allowed (.selector index selector))
    (renews : allowed (.renew (.selector index) {})) :
    Touched allowed first (system.dropSelector index) :=
  ((touched_detachAll before index _ detaches).touch (.selector index {}) (selects _)).touch
    (.renew (.selector index) {}) renews

private theorem touched_takeReady (before : Touched allowed first system) (index : Nat)
    (selects : ∀ selector, allowed (.selector index selector))
    (notes : ∀ signal, allowed (.note (.selected index signal))) :
    Touched allowed first (system.takeReady index).2 := by
  simp only [takeReady]
  have taken := before.touch (.selector index _) (selects (system.selectors.get index).takeReady.2)
  rw [Touch.apply] at taken
  split
  · exact taken
  · exact taken.note _ (notes _)

theorem touched_nextJob (before : Touched allowed first system) (worker : Nat)
    (runs : ∀ workers, allowed (.workers workers))
    (starts : ∀ job, allowed (.note (.started worker job)))
    (logs : ∀ notice, allowed (.note (.logged notice))) :
    Touched allowed first (system.nextJob worker).2 := by
  unfold nextJob
  split
  · exact before
  · next job lists _ =>
    have started := (before.touch (.workers { system.workers with lists }) (runs _)).note
      (.started worker job) (starts job)
    simp only
    split
    · exact started
    · exact started.log _ (logs _)

end System

namespace Command

variable {system : System} {command : Command}

private theorem touched_alarms (concerned : command.ConcernsAlarms) :
    Touched (·.IsOf command) system (command.apply system).2 := by
  have start : Touched (·.IsOf command) system system := .refl system
  cases command with
  | setClock clock tick => exact start.touch (.clock clock tick) trivial
  | advance clock delay => exact start.touch (.clock clock _) trivial
  | createAlarm queue signal deadline owned => exact start.touch (.alarms _) trivial
  | insertAlarm queue alarm =>
      simp only [apply, System.insertAlarm]
      split
      · exact start.log _ trivial
      · exact (start.touch (.alarms _) trivial).note _ ⟨queue, rfl⟩
  | fireFirst queue now =>
      simp only [apply, System.fireFirst]
      split
      · exact start
      · exact System.touched_beginPost
          ((start.touch (.alarms _) trivial).note (.fired _ now) ⟨queue, rfl⟩) _ _ ⟨queue, now, rfl⟩
          trivial
  | withdrawAlarm queue alarm =>
      simp only [apply, System.withdrawAlarm]
      split
      · exact start
      · exact (start.touch (.alarms _) trivial).note (.withdrawn alarm) ⟨queue, rfl⟩
  | dropAlarm alarm =>
      simp only [apply, System.dropAlarm]
      split
      · exact (start.touch (.alarms _) trivial).note (.dropped alarm false) rfl
      · exact (start.touch (.alarms _) trivial).note (.dropped alarm true) rfl
  | _ => exact concerned.elim

private theorem touched_selector {index : Nat} (about : command.selector? = some index) :
    Touched (·.IsOf command) system (command.apply system).2 := by
  have start : Touched (·.IsOf command) system system := .refl system
  have selects : ∀ fresh, Touch.IsOf command (.selector index fresh) := fun _ => about
  have detaches : ∀ signal, Touch.IsOf command (.detach signal (.selector index)) :=
    fun _ => .inr ⟨index, rfl, about⟩
  have renews : ∀ backend, Touch.IsOf command (.renew (.selector index) { backend }) :=
    fun _ => ⟨about, rfl⟩
  have takes : Touch.IsOf command (.take (.selector index)) := Or.inr about
  cases command with
  | createSelector selector capacity backend =>
      cases about
      exact ((System.touched_dropSelector start index detaches selects (renews _)).touch
        (.selector index _) (selects _)).touch (.renew (.selector index) _) (renews _)
  | watch selector signal =>
      cases about
      simp only [apply, System.watch]
      split
      · exact start
      · next slot _ =>
        have attached := start.touch (.attach signal (.selector index) slot)
          (Or.inr ⟨index, rfl, rfl⟩)
        rw [Touch.apply] at attached
        split
        · next refused => rwa [refused] at attached
        · next accepted =>
          rw [accepted] at attached
          exact ((attached.touch (.selector index _) (selects _)).note
            (.watching index slot signal) rfl).log _ trivial
  | unwatch selector signal =>
      cases about
      simp only [apply, System.unwatch]
      split
      · exact start
      · exact ((start.touch (.detach signal _) (detaches signal)).touch (.selector index _)
          (selects _)).note _ rfl
  | markReady selector token =>
      cases about
      simp only [apply, System.markReady]
      split
      · split
        · exact (start.log _ trivial).touch (.raise (.selector index)) trivial
        · exact ((start.touch (.selector index _) (selects _)).note (.slotReady index token)
            rfl).touch (.raise (.selector index)) trivial
      · exact start.log _ trivial
  | takeReady selector =>
      cases about
      exact System.touched_takeReady start index selects fun _ => rfl
  | takeWakeup selector =>
      cases about
      exact System.touched_takeReady (start.touch _ takes) index selects fun _ => rfl
  | dropSelector selector =>
      cases about
      exact System.touched_dropSelector start index detaches selects (renews _)
  | _ => cases about

private theorem touched_ring {index : Nat} (about : command.ring? = some index) :
    Touched (·.IsOf command) system (command.apply system).2 := by
  have start : Touched (·.IsOf command) system system := .refl system
  have fills : ∀ fresh, Touch.IsOf command (.ring index fresh) := fun _ => about
  cases command with
  | store ring elements =>
      cases about
      simp only [apply, System.store]
      split
      · split
        · exact start
        · exact start.log _ trivial
      · have kept := (start.touch (.ring index ((system.rings.get index).store elements).2)
          (fills _)).note
            (.stored index (elements.take ((system.rings.get index).store elements).1)) trivial
        split
        · exact kept
        · exact System.touched_beginPost kept _ _ trivial trivial
  | fetch ring count =>
      cases about
      exact (start.touch (.ring index _) (fills _)).note _ trivial
  | resetRing ring =>
      cases about
      exact (start.touch (.ring index _) (fills _)).note _ trivial
  | associate ring signal =>
      cases about
      simp only [apply, System.associate]
      split
      · exact start.log _ trivial
      · exact start.touch (.ring index _) (fills _)
  | dissociate ring =>
      cases about
      simp only [apply, System.dissociate]
      split
      · exact start
      · exact start.touch (.ring index _) (fills _)
  | _ => cases about

private theorem touched_worker {index : Nat} (about : command.worker? = some index) :
    Touched (·.IsOf command) system (command.apply system).2 := by
  have start : Touched (·.IsOf command) system system := .refl system
  have serves : ∀ fresh, Touch.IsOf command (.workers fresh) := fun _ => ⟨index, about⟩
  have renews : ∀ backend, Touch.IsOf command (.renew (.worker index) { backend }) :=
    fun _ => ⟨about, rfl⟩
  have takes : Touch.IsOf command (.take (.worker index)) := Or.inr about
  cases command with
  | createWorker worker backend =>
      cases about
      exact (((start.touch (.workers _) (serves _)).touch (.renew (.worker index) {})
        (renews _)).touch (.workers _) (serves _)).touch (.renew (.worker index) _) (renews _)
  | dropWorker worker =>
      cases about
      exact (start.touch (.workers _) (serves _)).touch (.renew (.worker index) {}) (renews _)
  | putJob worker job =>
      cases about
      simp only [apply, System.putJob]
      split
      · exact start.log _ trivial
      · exact ((start.touch (.workers _) (serves _)).note (.accepted index job) rfl).touch
          (.raise (.worker index)) trivial
  | nextJob worker =>
      cases about
      exact System.touched_nextJob start index serves (fun _ => rfl) fun _ => trivial
  | takeTurn worker =>
      cases about
      have taken := start.touch (.take (.worker index)) takes
      have next := System.touched_nextJob taken index serves (fun _ => rfl) fun _ => trivial
      rw [Touch.apply] at taken next
      simp only [apply, System.takeTurn]
      split
      · exact taken.log _ trivial
      · split
        · next idle => rwa [idle] at next
        · next started => rwa [started] at next
  | kill worker =>
      cases about
      exact ((start.touch (.workers _) (serves _)).note (.killed index) rfl).touch
        (.raise (.worker index)) trivial
  | _ => cases about

theorem touched (command : Command) (system : System) :
    Touched (·.IsOf command) system (command.apply system).2 := by
  have start : Touched (·.IsOf command) system system := .refl system
  cases command with
  | setClock | advance | createAlarm | insertAlarm | fireFirst | withdrawAlarm | dropAlarm =>
      exact touched_alarms trivial
  | createSelector | watch | unwatch | markReady | takeReady | takeWakeup | dropSelector =>
      exact touched_selector rfl
  | store | fetch | resetRing | associate | dissociate => exact touched_ring rfl
  | createWorker | dropWorker | putJob | nextJob | takeTurn | kill => exact touched_worker rfl
  | log notice => exact start.log notice trivial
  | requestStop value => exact start.touch (.stop value) trivial
  | addRearm target delay =>
      simp only [apply, System.addRearm]
      split
      · exact (start.touch (.rearmLogs _) trivial).log _ trivial
      · exact start.touch (.rearmLogs _) trivial
  | clearRearms target => exact start.touch (.rearmLogs _) trivial
  | kick clock delay => exact (start.touch (.kickClocks _) trivial).log _ trivial
  | sleepUntilKick clock delay => exact start.touch (.kickClocks _) trivial
  | raise signal => exact start.touch (.raise signal) trivial
  | take signal => exact start.touch (.take signal) (Or.inl rfl)
  | beginPost signal => exact System.touched_beginPost start signal none trivial trivial
  | attach signal observer token => exact start.touch (.attach signal observer token) (Or.inl rfl)
  | detach signal observer => exact start.touch (.detach signal observer) (Or.inl rfl)
  | pushFront | pushBack | popFront | removeItem =>
      simp only [apply, System.pushFront, System.pushBack, System.popFront, System.removeItem]
      split
      · exact start
      · exact start.touch (.items _) trivial
  | insertItem list item order =>
      have compared := start.noteAll (Occurrence.compared item) (fun _ => trivial)
        (system.items.lists.compared list item (system.items.order order))
      simp only [apply, System.insertItem]
      split
      · exact compared
      · exact compared.touch (.items _) trivial
  | popFrontIf list filter =>
      have examined := start.noteAll Occurrence.examined (fun _ => trivial)
        (system.items.lists.front? list).toList
      simp only [apply, System.popFrontIf]
      split
      · exact examined
      · exact examined.touch (.items _) trivial
  | searchList list filter => exact start.noteAll Occurrence.examined (fun _ => trivial) _
  | dropList list => exact start.touch (.items _) trivial
  | createList list => exact start.touch (.items _) trivial

theorem rings_apply {index : Nat} (elsewhere : command.ring? ≠ some index)
    (system : System) :
    (command.apply system).2.rings.get index = system.rings.get index := by
  refine (command.touched system).preserves
    (motive := fun last => last.rings.get index = system.rings.get index) rfl ?_
  intro last touch own same
  cases touch with
  | ring other ring =>
      have differ : index ≠ other := by
        rintro rfl
        exact elsewhere own
      exact (Table.get_set_of_ne _ differ ring).trans same
  | take signal =>
      simp only [Touch.apply, System.take]
      split <;> exact same
  | attach signal observer token =>
      simp only [Touch.apply, System.attach]
      split <;> exact same
  | detach signal observer =>
      simp only [Touch.apply, System.detach]
      split <;> exact same
  | _ => exact same

theorem selectors_apply {index : Nat} (elsewhere : command.selector? ≠ some index)
    (system : System) :
    (command.apply system).2.selectors.get index = system.selectors.get index := by
  refine (command.touched system).preserves
    (motive := fun last => last.selectors.get index = system.selectors.get index) rfl ?_
  intro last touch own same
  refine (Touch.selectors_apply (fun selector named => ?_) last).trans same
  subst named
  exact elsewhere own

/-- A command that does not tend a signal and takes none of its posts leaves it as many of them. -/
theorem pending_le {reference : SignalRef} {count : Nat} (untended : ¬ command.Tends reference)
    (takes : command ≠ .take reference) (few : count ≤ Signal.ceiling)
    (enough : count ≤ (system.signal reference).pending) :
    count ≤ ((command.apply system).2.signal reference).pending := by
  refine (command.touched system).preserves
    (motive := fun last => count ≤ (last.signal reference).pending) enough ?_
  intro last touch own before
  refine Touch.pending_le ?_ ?_ few before
  · rintro rfl
    rcases own with same | tends
    · exact takes same
    · exact untended tends
  · rintro fresh rfl
    exact untended own.1

end Command

end TimedWaits
