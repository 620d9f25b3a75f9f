import TimedWaits.Proofs.Selectors.Attachments

/-! The table of a selector and the signals that call it. The table stands for a list of signals, and just
the signals in its slots call the selector, each for its slot. Whatever changes a slot changes the
attachment of the signal with it. -/

set_option autoImplicit false

namespace TimedWaits

/-- Whether a touch leaves the table of a selector and its attachments alone. -/
def Touch.Bypasses (index : Nat) : Touch → Prop
  | .renew signal fresh => (∀ shared, signal ≠ .shared shared) ∧ fresh.attachment = none
  | .attach _ observer _ | .detach _ observer => observer ≠ .selector index
  | .selector other _ => other ≠ index
  | _ => True

theorem Touch.Spares.bypasses {touch : Touch} {index : Nat} (spares : touch.Spares index) :
    touch.Bypasses index := by
  cases touch with
  | renew => exact spares.2
  | attach | detach | selector => exact spares
  | _ => trivial

theorem Touch.Bypasses.selectors {touch : Touch} {index : Nat} (bypasses : touch.Bypasses index)
    (system : System) : (touch.apply system).selectors.get index = system.selectors.get index :=
  touch.selectors_apply (fun _ named => by subst named; exact bypasses rfl) system

/-- A command that leaves it to a selector what it is attached to and how long it lives. The command may
call the selector with any token, and take posts of its own signal. -/
def Command.Leaves (index : Nat) : Command → Prop
  | .attach _ observer _ | .detach _ observer => observer ≠ .selector index
  | .createSelector selector _ _ | .dropSelector selector => selector ≠ index
  | _ => True

theorem Command.Leaves.bypasses {command : Command} {index : Nat} (leaves : command.Leaves index)
    (elsewhere : command.selector? ≠ some index) {touch : Touch} (own : touch.IsOf command) :
    touch.Bypasses index := by
  have unobserved : ∀ {observer}, (∃ other, observer = Observer.selector other ∧
      command.selector? = some other) → observer ≠ .selector index := by
    rintro _ ⟨other, rfl, about⟩ same
    cases same
    exact elsewhere about
  cases touch with
  | renew signal fresh =>
      obtain ⟨tends, none⟩ := own
      refine ⟨?_, none⟩
      rintro shared rfl
      exact tends
  | attach | detach =>
      rcases own with rfl | observed
      · exact leaves
      · exact unobserved observed
  | selector other =>
      rintro rfl
      exact elsewhere own
  | _ => trivial

namespace System

variable {index signal slot : Nat} {system before after : System} {reference : SignalRef}
  {model next : Coalescing}

/-- Posts a signal, and calls the selector that watches it, if any. -/
def post (system : System) (reference : SignalRef) (alarm : Option Nat) : System :=
  (system.beginPost reference alarm).2.callSelector (system.beginPost reference alarm).1

theorem beginPost_of_none (free : (system.signal reference).attachment = none) (alarm : Option Nat) :
    system.beginPost reference alarm =
      (none, (system.record (.posted reference alarm)).raise reference) := by
  rw [beginPost, free]

theorem beginPost_of_some {attachment : Attachment}
    (attached : (system.signal reference).attachment = some attachment) (alarm : Option Nat) :
    system.beginPost reference alarm = (some attachment, system.record (.posted reference alarm)) := by
  rw [beginPost, attached]

theorem markReady_of_none (within : slot < (system.selectors.get index).capacity)
    (refused : (system.selectors.get index).markReady? slot = none) :
    system.markReady index slot = (system.log (.slotAlreadyReady slot)).raise (.selector index) := by
  simp only [markReady, if_pos within, refused]

theorem markReady_of_some {marked : Selector} (within : slot < (system.selectors.get index).capacity)
    (accepted : (system.selectors.get index).markReady? slot = some marked) :
    system.markReady index slot =
      ((system.setSelector index marked).record (.slotReady index slot)).raise (.selector index) := by
  simp only [markReady, if_pos within, accepted]

theorem get_setSelector (system : System) (index : Nat) (selector : Selector) :
    (system.setSelector index selector).selectors.get index = selector := Table.get_set_same _ _ _

/-- What is taken is taken by the selector itself, and noted if it is a signal. -/
theorem takeReady_parts (system : System) (index : Nat) :
    (system.takeReady index).1 = (system.selectors.get index).takeReady.1 ∧
      (system.takeReady index).2.selectors.get index = (system.selectors.get index).takeReady.2 ∧
      (system.takeReady index).2.history =
        ((system.takeReady index).1.map (Occurrence.selected index)).toList ++ system.history ∧
      (system.takeReady index).2.signals = system.signals := by
  have held := get_setSelector system index (system.selectors.get index).takeReady.2
  rw [takeReady]
  generalize (system.selectors.get index).takeReady = taken at held ⊢
  obtain ⟨answer, selector⟩ := taken
  cases answer with
  | none | some => exact ⟨rfl, held, rfl, rfl⟩

namespace Agrees

theorem of_same (agrees : before.Agrees index)
    (slots : (after.selectors.get index).slots = (before.selectors.get index).slots)
    (calls : ∀ reference slot, after.Calls index reference slot ↔ before.Calls index reference slot) :
    after.Agrees index := by
  intro reference slot
  rw [calls, Selector.signalAt?, slots]
  exact agrees reference slot

variable (agrees : system.Agrees index)

include agrees

theorem filled_iff : (system.selectors.get index).signalAt? slot = some signal ↔
    system.Calls index (.shared signal) slot := by
  rw [agrees]
  constructor
  · intro filled
    exact ⟨signal, rfl, filled⟩
  · rintro ⟨other, same, filled⟩
    cases same
    exact filled

theorem single {other : Nat} (filled : (system.selectors.get index).signalAt? slot = some signal)
    (same : (system.selectors.get index).signalAt? other = some signal) : slot = other := by
  have one : system.Calls index (.shared signal) slot := agrees.filled_iff.mp filled
  have two : system.Calls index (.shared signal) other := agrees.filled_iff.mp same
  cases one.symm.trans two
  rfl

theorem touch {touch : Touch} (bypasses : touch.Bypasses index) :
    (touch.apply system).Agrees index := by
  have slots := congrArg Selector.slots (bypasses.selectors system)
  cases touch with
  | raise reference => exact agrees.of_same slots (SameFor.raise system reference).calls
  | take reference => exact agrees.of_same slots (calls_take system reference)
  | renew reference fresh =>
      obtain ⟨hidden, none⟩ := bypasses
      intro other slot
      simp only [Touch.apply, Calls, signal_setSignal]
      split
      · next same =>
        rw [none]
        refine iff_of_false (by simp) ?_
        rintro ⟨signal, shared, -⟩
        exact hidden signal (same ▸ shared)
      · exact agrees other slot
  | attach signal observer token => exact agrees.of_same slots (SameFor.attach bypasses token).calls
  | detach signal observer => exact agrees.of_same slots (SameFor.detach bypasses).calls
  | selector other selector => exact agrees.of_same slots fun _ _ => Iff.rfl
  | _ => exact agrees

/-- A selector of which one signal changes its place, and is attached or detached along with it. -/
theorem retable {fresh : Signal} {selector : Selector}
    (calls : ∀ slot, fresh.attachment = some ⟨.selector index, slot⟩ ↔
      selector.signalAt? slot = some signal)
    (others : ∀ slot held, held ≠ signal →
      (selector.signalAt? slot = some held ↔
        (system.selectors.get index).signalAt? slot = some held)) :
    ((system.setSignal (.shared signal) fresh).setSelector index selector).Agrees index := by
  have held := get_setSelector (system.setSignal (.shared signal) fresh) index selector
  intro reference slot
  have signals : ((system.setSignal (.shared signal) fresh).setSelector index selector).signal reference =
      if reference = .shared signal then fresh else system.signal reference :=
    signal_setSignal system (.shared signal) reference fresh
  rw [Calls, signals, held]
  split
  · next here =>
    subst here
    rw [calls]
    constructor
    · intro filled
      exact ⟨signal, rfl, filled⟩
    · rintro ⟨other, same, filled⟩
      cases same
      exact filled
  · next elsewhere =>
    refine (agrees reference slot).trans (exists_congr fun other => ?_)
    refine and_congr_right fun same => (others slot other ?_).symm
    rintro rfl
    exact elsewhere same

/-- A signal that has no observer is in no slot. -/
theorem absent (free : (system.signal (.shared signal)).attachment = none) (slot : Nat) :
    (system.selectors.get index).signalAt? slot ≠ some signal := by
  intro filled
  have calls := agrees.filled_iff.mp filled
  rw [Calls, free] at calls
  cases calls

theorem fill {attached : Signal} (found : (system.selectors.get index).freeSlot? = some slot)
    (accepted : (system.signal (.shared signal)).attach? (.selector index) slot = some attached) :
    ((system.setSignal (.shared signal) attached).setSelector index
      ((system.selectors.get index).fill slot signal)).Agrees index := by
  obtain ⟨within, free⟩ := Selector.freeSlot?_spec found
  obtain ⟨unattached, rfl⟩ := Signal.attach?_eq_some accepted
  have filled {other held : Nat} :=
    @Selector.signalAt?_fill_eq_some (system.selectors.get index) slot other signal held within free
  refine agrees.retable (fun other => ?_) fun other held differ => ?_
  · rw [filled, or_iff_left (agrees.absent unattached other)]
    constructor
    · intro same
      cases same
      exact ⟨rfl, rfl⟩
    · rintro ⟨rfl, -⟩
      rfl
  · rw [filled, or_iff_right fun here => differ here.2]

theorem clear (filled : (system.selectors.get index).signalAt? slot = some signal) :
    ((system.setSignal (.shared signal)
      { system.signal (.shared signal) with attachment := none }).setSelector index
        ((system.selectors.get index).clear slot)).Agrees index := by
  have remains {other held : Nat} :=
    @Selector.signalAt?_clear_eq_some (system.selectors.get index) slot other held
  refine agrees.retable (fun other => ?_) fun other held differ => ?_
  · refine iff_of_false (by intro calls; cases calls) ?_
    intro before
    obtain ⟨apart, same⟩ := remains.mp before
    exact apart (agrees.single same filled)
  · rw [remains]
    refine and_iff_right_of_imp ?_
    rintro before rfl
    exact differ (Option.some.inj (before.symm.trans filled))

theorem detaches (filled : (system.selectors.get index).signalAt? slot = some signal) :
    (system.signal (.shared signal)).detach? (.selector index) =
      some { system.signal (.shared signal) with attachment := none } := by
  have calls := agrees.filled_iff.mp filled
  rw [Signal.detach?, calls]
  exact if_pos rfl

end Agrees

namespace Tracks

theorem of_vacant (loose : (system.selectors.get index).ready = {})
    (empty : ∀ slot, (system.selectors.get index).signalAt? slot = none)
    (silent : ∀ reference slot, ¬ system.Calls index reference slot) : system.Tracks index {} := by
  refine ⟨.of_empty loose empty, fun reference slot => iff_of_false (silent reference slot) ?_⟩
  rintro ⟨signal, -, filled⟩
  rw [empty] at filled
  cases filled

variable (tracks : system.Tracks index model)

include tracks

theorem filled_iff : (system.selectors.get index).signalAt? slot = some signal ↔
    system.Calls index (.shared signal) slot := tracks.agrees.filled_iff

theorem touch {touch : Touch} (bypasses : touch.Bypasses index) :
    (touch.apply system).Tracks index model :=
  ⟨(bypasses.selectors system).symm ▸ tracks.table, tracks.agrees.touch bypasses⟩

private theorem raise (reference : SignalRef) : (system.raise reference).Tracks index model := by
  have bypasses : (Touch.raise reference).Bypasses index := trivial
  exact tracks.touch bypasses

theorem touched (touched : Touched (·.Bypasses index) system after) : after.Tracks index model :=
  touched.preserves (motive := fun last => last.Tracks index model) tracks
    fun bypasses kept => kept.touch bypasses

theorem fill {attached : Signal} (found : (system.selectors.get index).freeSlot? = some slot)
    (accepted : (system.signal (.shared signal)).attach? (.selector index) slot = some attached) :
    ((system.setSignal (.shared signal) attached).setSelector index
      ((system.selectors.get index).fill slot signal)).Tracks index (model.watch signal) := by
  obtain ⟨within, free⟩ := Selector.freeSlot?_spec found
  obtain ⟨unattached, -⟩ := Signal.attach?_eq_some accepted
  have held := get_setSelector (system.setSignal (.shared signal) attached) index
    ((system.selectors.get index).fill slot signal)
  have table : ((system.selectors.get index).fill slot signal).StandsFor (model.watch signal) := by
    refine tracks.table.fill within free fun watched => ?_
    obtain ⟨other, before⟩ := (tracks.table.watched signal).mp watched
    exact tracks.agrees.absent unattached other before
  exact ⟨held.symm ▸ table, tracks.agrees.fill found accepted⟩

theorem clear (filled : (system.selectors.get index).signalAt? slot = some signal) :
    ((system.setSignal (.shared signal)
      { system.signal (.shared signal) with attachment := none }).setSelector index
        ((system.selectors.get index).clear slot)).Tracks index (model.unwatch signal) := by
  have held := get_setSelector (system.setSignal (.shared signal)
    { system.signal (.shared signal) with attachment := none }) index
      ((system.selectors.get index).clear slot)
  exact ⟨held.symm ▸ tracks.table.clear filled, tracks.agrees.clear filled⟩

theorem detaches (filled : (system.selectors.get index).signalAt? slot = some signal) :
    (system.signal (.shared signal)).detach? (.selector index) =
      some { system.signal (.shared signal) with attachment := none } := tracks.agrees.detaches filled

theorem markReady (filled : (system.selectors.get index).signalAt? slot = some signal) :
    (system.markReady index slot).Tracks index (model.post signal) := by
  have within := Selector.lt_capacity_of_signalAt? filled
  by_cases ready : slot ∈ (system.selectors.get index).readySlots
  · obtain ⟨refused, same⟩ := tracks.table.post_of_ready filled ready
    have logged : (system.log (.slotAlreadyReady slot)).Tracks index model := ⟨tracks.table, tracks.agrees⟩
    rw [markReady_of_none within refused, same]
    exact logged.raise (.selector index)
  · obtain ⟨marked, accepted, table, slots⟩ := tracks.table.post filled ready
    have held := get_setSelector system index marked
    rw [markReady_of_some within accepted]
    have slots : ((system.setSelector index marked).selectors.get index).slots =
        (system.selectors.get index).slots := held.symm ▸ slots
    have set : (system.setSelector index marked).Tracks index (model.post signal) :=
      ⟨held.symm ▸ table, tracks.agrees.of_same slots fun _ _ => Iff.rfl⟩
    have noted : ((system.setSelector index marked).record (.slotReady index slot)).Tracks index
        (model.post signal) := ⟨set.table, set.agrees⟩
    exact noted.raise (.selector index)

theorem takeReady :
    (system.takeReady index).1 = model.ready.head? ∧
      (system.takeReady index).2.history =
        ((system.takeReady index).1.map (Occurrence.selected index)).toList ++ system.history ∧
      (system.takeReady index).2.Tracks index model.take ∧
      (system.takeReady index).2.signals = system.signals ∧
      ((system.takeReady index).2.selectors.get index).slots = (system.selectors.get index).slots := by
  obtain ⟨selector, taken, stands, slots⟩ := tracks.table.takeReady
  obtain ⟨head, table, history, signals⟩ := system.takeReady_parts index
  rw [taken] at head table
  dsimp only at head table
  have same : ((system.takeReady index).2.selectors.get index).slots =
      (system.selectors.get index).slots := by rw [table, slots]
  have calls : ∀ reference slot, (system.takeReady index).2.Calls index reference slot ↔
      system.Calls index reference slot := fun reference slot => by
    rw [Calls, System.signal, signals, Calls, System.signal]
  exact ⟨head, history, ⟨table ▸ stands, tracks.agrees.of_same same calls⟩, signals, same⟩

end Tracks

end System

end TimedWaits
