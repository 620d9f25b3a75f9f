import TimedWaits.Proofs.Selectors.Operations

/-! The slots of the selectors match the attachments of the signals. As long as selectors are attached by
watching only, each signal in a slot is attached to the selector for that slot, and there is no other
attachment of a selector. Dropping a selector detaches all its signals. -/

set_option autoImplicit false

namespace TimedWaits

/-- Releases a signal from an observer, if that one is attached. -/
def Signal.release (signal : Signal) (observer : Observer) : Signal :=
  (signal.detach? observer).getD signal

namespace Signal

variable {signal : Signal} {observer : Observer} {token : Nat}

theorem release_of_held (held : signal.attachment = some ⟨observer, token⟩) :
    signal.release observer = { signal with attachment := none } := by
  have accepted : signal.detach? observer = some { signal with attachment := none } := by
    rw [detach?, held]
    exact if_pos rfl
  rw [release, accepted, Option.getD_some]

theorem release_of_other (other : ∀ token, signal.attachment ≠ some ⟨observer, token⟩) :
    signal.release observer = signal := by
  have refused : signal.detach? observer = none := by
    cases accepted : signal.detach? observer with
    | none => rfl
    | some changed =>
        obtain ⟨⟨token, held⟩, -⟩ := detach?_eq_some accepted
        exact absurd held (other token)
  rw [release, refused, Option.getD_none]

theorem attachment_release (token : Nat) :
    (signal.release observer).attachment ≠ some ⟨observer, token⟩ := by
  by_cases held : ∃ token, signal.attachment = some ⟨observer, token⟩
  · obtain ⟨token, held⟩ := held
    rw [release_of_held held]
    exact fun impossible => nomatch impossible
  · rw [release_of_other (not_exists.mp held)]
    exact not_exists.mp held token

end Signal

namespace Selector

variable {selector marked : Selector} {slot signal : Nat}

/-- The signals in the slots, by their slots. -/
def signals (selector : Selector) : List Nat := selector.slots.filterMap id

theorem mem_signals : signal ∈ selector.signals ↔ ∃ slot, selector.signalAt? slot = some signal := by
  rw [signals, List.mem_filterMap]
  constructor
  · rintro ⟨held, member, rfl⟩
    obtain ⟨slot, within, same⟩ := List.getElem_of_mem member
    refine ⟨slot, ?_⟩
    rw [signalAt?, List.getElem?_eq_getElem within, Option.join_some]
    exact same
  · rintro ⟨slot, filled⟩
    have within := lt_capacity_of_signalAt? filled
    rw [signalAt?, List.getElem?_eq_getElem within, Option.join_some] at filled
    exact ⟨some signal, filled ▸ List.getElem_mem within, rfl⟩

private theorem count_eq_length_signals : selector.count = selector.signals.length := by
  rw [signals, List.length_filterMap_eq_countP]
  rfl

private theorem StandsFor.nodup_signals {model : Coalescing} (stands : selector.StandsFor model) :
    selector.signals.Nodup := by
  have filled : ∀ {slot held : Nat} (within : slot < selector.slots.length),
      id selector.slots[slot] = some held → selector.signalAt? slot = some held := by
    intro slot held within same
    rw [signalAt?, List.getElem?_eq_getElem within, Option.join_some]
    exact same
  refine List.pairwise_filterMap.mpr (List.pairwise_iff_getElem.mpr ?_)
  intro first second inside within before held one other two same
  subst same
  exact Nat.ne_of_lt before (stands.single (filled inside one) (filled within two))

/-- A selector that was dropped has no slots. -/
def Vacates (selector : Selector) : Prop := selector.live = false → selector.slots = []

private theorem markReady?_eq_some (accepted : selector.markReady? slot = some marked) :
    ∃ ready, marked = { selector with ready } := by
  obtain ⟨ready, -, same⟩ := Option.map_eq_some_iff.mp accepted
  exact ⟨ready, same.symm⟩

private theorem takeReady_eq (selector : Selector) :
    ∃ ready, selector.takeReady.2 = { selector with ready } := by
  unfold takeReady
  split
  · exact ⟨_, rfl⟩
  · exact ⟨_, rfl⟩

private theorem Vacates.fill (vacates : selector.Vacates) (slot signal : Nat) :
    (selector.fill slot signal).Vacates := by
  intro dropped
  change selector.slots.set slot (some signal) = []
  rw [vacates dropped]
  rfl

private theorem Vacates.clear (vacates : selector.Vacates) (slot : Nat) :
    (selector.clear slot).Vacates := by
  intro dropped
  change selector.slots.set slot none = []
  rw [vacates dropped]
  rfl

end Selector

/-! ### Dropping -/

namespace System

variable {index signal slot : Nat} {system : System} {model : Coalescing} {slots : List (Option Nat)}

theorem signal_detach (system : System) (signal : Nat) (observer : Observer) (reference : SignalRef) :
    (system.detach signal observer).2.signal reference =
      if reference = .shared signal then (system.signal reference).release observer
      else system.signal reference := by
  unfold detach
  split
  · next refused =>
    split
    · next same => rw [same, Signal.release, refused, Option.getD_none]
    · rfl
  · next detached accepted =>
    rw [signal_setSignal]
    split
    · next same => rw [same, Signal.release, accepted, Option.getD_some]
    · rfl

private theorem signal_detachAll_of_hidden {reference : SignalRef}
    (hidden : ∀ shared, reference ≠ .shared shared) :
    (system.detachAll index slots).signal reference = system.signal reference := by
  induction slots generalizing system with
  | nil => rfl
  | cons held rest ih =>
      cases held with
      | none => exact ih
      | some signal =>
          refine ih.trans ?_
          rw [signal_detach, if_neg (hidden signal)]

private theorem signal_detachAll : (system.detachAll index slots).signal (.shared signal) =
    if some signal ∈ slots then (system.signal (.shared signal)).release (.selector index)
    else system.signal (.shared signal) := by
  induction slots generalizing system with
  | nil => rfl
  | cons held rest ih =>
      cases held with
      | none =>
          refine ih.trans (if_congr ?_ rfl rfl)
          rw [List.mem_cons, or_iff_right (fun same => nomatch same)]
      | some first =>
          refine ih.trans ?_
          rw [signal_detach]
          by_cases same : signal = first
          · subst same
            have again := Signal.release_of_other
              (@Signal.attachment_release (system.signal (.shared signal)) (.selector index))
            rw [if_pos rfl, again, ite_self, if_pos List.mem_cons_self]
          · have elsewhere : SignalRef.shared signal ≠ .shared first := by
              rintro ⟨⟩
              exact same rfl
            rw [if_neg elsewhere]
            refine if_congr ?_ rfl rfl
            rw [List.mem_cons, or_iff_right]
            rintro ⟨⟩
            exact same rfl

namespace Tracks

variable (tracks : system.Tracks index model)

include tracks

theorem signal_dropSelector (signal : Nat) :
    (system.dropSelector index).signal (.shared signal) =
      (system.signal (.shared signal)).release (.selector index) := by
  have apart : SignalRef.shared signal ≠ .selector index := fun same => nomatch same
  have kept : (system.dropSelector index).signal (.shared signal) =
      (system.detachAll index (system.selectors.get index).slots).signal (.shared signal) := by
    rw [dropSelector, signal_setSignal, if_neg apart]
    rfl
  rw [kept, signal_detachAll]
  split
  · rfl
  · next absent =>
    refine (Signal.release_of_other fun slot held => absent ?_).symm
    have listed := Selector.mem_signals.mpr ⟨slot, tracks.filled_iff.mpr held⟩
    obtain ⟨_, member, same⟩ := List.mem_filterMap.mp listed
    exact same ▸ member

/-- Nothing calls a selector that was dropped. -/
theorem dropSelector : (system.dropSelector index).Tracks index {} := by
  have held : (system.dropSelector index).selectors.get index = {} := Table.get_set_same _ _ _
  refine .of_vacant (congrArg Selector.ready held) (fun slot => ?_) fun reference slot => ?_
  · rw [held]
    rfl
  · by_cases shared : ∃ signal, reference = .shared signal
    · obtain ⟨signal, rfl⟩ := shared
      rw [Calls, tracks.signal_dropSelector]
      exact Signal.attachment_release slot
    · have hidden := not_exists.mp shared
      rw [Calls, System.dropSelector, signal_setSignal]
      split
      · simp
      · change ((system.detachAll index _).signal reference).attachment ≠ _
        rw [signal_detachAll_of_hidden hidden]
        intro calls
        obtain ⟨signal, same, -⟩ := (tracks.agrees reference slot).mp calls
        exact hidden signal same

/-- A selector that was just made watches nothing. -/
private theorem createSelector (capacity : Nat) (backend : Backend) :
    (system.createSelector index capacity backend).Tracks index {} := by
  have held : (system.createSelector index capacity backend).selectors.get index = .empty capacity :=
    Table.get_set_same _ _ _
  have dropped := tracks.dropSelector
  refine .of_vacant (congrArg Selector.ready held) (fun slot => ?_) fun reference slot => ?_
  · rw [held, Selector.signalAt?, Selector.empty, List.getElem?_replicate]
    split <;> rfl
  · rw [Calls, System.createSelector, signal_setSignal]
    split
    · simp
    · intro calls
      obtain ⟨signal, -, filled⟩ := (dropped.agrees reference slot).mp calls
      have empty : ((system.dropSelector index).selectors.get index) = {} := Table.get_set_same _ _ _
      rw [empty] at filled
      cases filled

end Tracks

end System

/-! ### Commands -/

/-- A command that attaches and calls selectors only as watching and posting do. -/
def Command.IsCivil : Command → Prop
  | .attach _ observer _ | .detach _ observer => ∀ index, observer ≠ .selector index
  | .markReady _ _ => False
  | _ => True

/-- Whatever is done, selectors are attached by watching and called by posts only. -/
def civil : Conduct := fun _ command => command.IsCivil

private theorem Command.IsCivil.bypasses {command : Command} {index : Nat} (civil : command.IsCivil)
    (elsewhere : command.selector? ≠ some index) {touch : Touch} (own : touch.IsOf command) :
    touch.Bypasses index := by
  refine Leaves.bypasses ?_ elsewhere own
  cases command with
  | attach | detach => exact civil index
  | createSelector | dropSelector =>
      rintro rfl
      exact elsewhere rfl
  | _ => trivial

namespace System

variable {index : Nat} {system first last : System} {command : Command}

/-- A selector and the signals match, and if it was dropped it has no slots. -/
structure Matches (system : System) (index : Nat) : Prop where
  tracks : ∃ model, system.Tracks index model
  vacates : (system.selectors.get index).Vacates

namespace Matches

variable (matched : system.Matches index)

include matched

theorem touched (touched : Touched (·.Bypasses index) system last) : last.Matches index := by
  obtain ⟨⟨model, tracks⟩, vacates⟩ := matched
  refine ⟨⟨model, tracks.touched touched⟩, ?_⟩
  refine touched.preserves (motive := fun last => (last.selectors.get index).Vacates) vacates ?_
  intro last touch bypasses kept
  rwa [bypasses.selectors]

theorem record (occurrence : Occurrence) : (system.record occurrence).Matches index :=
  matched.touched (.touch (.refl system) (.note occurrence) trivial)

private theorem watch (signal : Nat) : (system.watch index signal).2.Matches index := by
  obtain ⟨⟨model, tracks⟩, vacates⟩ := matched
  cases free : (system.selectors.get index).freeSlot? with
  | none =>
      simp only [System.watch, free]
      exact ⟨⟨model, tracks⟩, vacates⟩
  | some slot =>
      cases accepted : (system.signal (.shared signal)).attach? (.selector index) slot with
      | none =>
          simp only [System.watch, System.attach, free, accepted]
          exact ⟨⟨model, tracks.table, tracks.agrees⟩, vacates⟩
      | some attached =>
          have filled := tracks.fill free accepted
          have held := get_setSelector (system.setSignal (.shared signal) attached) index
            ((system.selectors.get index).fill slot signal)
          simp only [System.watch, System.attach, free, accepted]
          refine ⟨⟨model.watch signal, filled.table, filled.agrees⟩, ?_⟩
          exact held.symm ▸ vacates.fill slot signal

private theorem unwatch (signal : Nat) : (system.unwatch index signal).2.Matches index := by
  obtain ⟨⟨model, tracks⟩, vacates⟩ := matched
  cases found : (system.selectors.get index).slotOf? signal with
  | none =>
      simp only [System.unwatch, found]
      exact ⟨⟨model, tracks⟩, vacates⟩
  | some slot =>
      have filled := Selector.slotOf?_spec found
      have accepted := tracks.detaches filled
      have cleared := tracks.clear filled
      simp only [System.unwatch, System.detach, found, accepted]
      refine ⟨⟨model.unwatch signal, cleared.table, cleared.agrees⟩, ?_⟩
      exact (get_setSelector _ index _).symm ▸ vacates.clear slot

private theorem takeReady : (system.takeReady index).2.Matches index := by
  obtain ⟨⟨model, tracks⟩, vacates⟩ := matched
  obtain ⟨-, -, taken, -⟩ := tracks.takeReady
  obtain ⟨ready, same⟩ := (system.selectors.get index).takeReady_eq
  have held : (system.takeReady index).2.selectors.get index = { system.selectors.get index with ready } := by
    rw [← same, System.takeReady]
    dsimp only
    split <;> exact get_setSelector _ index _
  exact ⟨⟨model.take, taken⟩, held.symm ▸ vacates⟩

private theorem dropSelector : (system.dropSelector index).Matches index := by
  obtain ⟨⟨model, tracks⟩, -⟩ := matched
  have held : (system.dropSelector index).selectors.get index = {} := Table.get_set_same _ _ _
  exact ⟨⟨{}, tracks.dropSelector⟩, held.symm ▸ fun _ => rfl⟩

private theorem createSelector (capacity : Nat) (backend : Backend) :
    (system.createSelector index capacity backend).Matches index := by
  obtain ⟨⟨model, tracks⟩, -⟩ := matched
  have held : (system.createSelector index capacity backend).selectors.get index = .empty capacity :=
    Table.get_set_same _ _ _
  exact ⟨⟨{}, tracks.createSelector capacity backend⟩, held.symm ▸ fun dropped => nomatch dropped⟩

private theorem markReady {signal slot : Nat}
    (filled : (system.selectors.get index).signalAt? slot = some signal) :
    (system.markReady index slot).Matches index := by
  obtain ⟨⟨model, tracks⟩, vacates⟩ := matched
  have within := Selector.lt_capacity_of_signalAt? filled
  refine ⟨⟨model.post signal, tracks.markReady filled⟩, ?_⟩
  cases accepted : (system.selectors.get index).markReady? slot with
  | none =>
      rw [markReady_of_none within accepted]
      exact vacates
  | some marked =>
      obtain ⟨ready, rfl⟩ := Selector.markReady?_eq_some accepted
      have held := get_setSelector system index { system.selectors.get index with ready }
      rw [markReady_of_some within accepted]
      exact held.symm ▸ vacates

/-- A post calls the selector for an occupied slot, or does not call it. -/
private theorem post (reference : SignalRef) (alarm : Option Nat) :
    (system.post reference alarm).Matches index := by
  have posted := matched.record (.posted reference alarm)
  cases attached : (system.signal reference).attachment with
  | none =>
      rw [System.post, beginPost_of_none attached]
      exact posted.touched (.touch (.refl _) (.raise reference) trivial)
  | some attachment =>
      rw [System.post, beginPost_of_some attached]
      obtain ⟨observer, token⟩ := attachment
      cases observer with
      | custom => exact posted
      | selector other =>
          by_cases same : other = index
          · subst same
            obtain ⟨⟨model, tracks⟩, -⟩ := matched
            obtain ⟨signal, -, filled⟩ := (tracks.agrees reference token).mp attached
            exact posted.markReady filled
          · have quiet : (Command.markReady other token).IsQuiet index :=
              ⟨same, not_false, fun about => same (Option.some.inj about)⟩
            exact posted.touched <| ((Command.markReady other token).touched _).mono
              fun _ own => (quiet.spares own).bypasses

private theorem stride (civil : command.IsCivil) : (system.stride command).Matches index := by
  by_cases post : command.IsPost
  · obtain ⟨middle, touched, -, same | ⟨reference, alarm, same⟩⟩ := stride_of_isPost post system
    all_goals
      have kept := matched.touched (touched.mono fun _ before => (before.spares index).bypasses)
      rw [same]
    · exact kept
    · exact kept.post reference alarm
  · rw [stride_eq_apply post]
    by_cases about : command.selector? = some index
    · cases command with
      | watch selector signal =>
          cases about
          exact matched.watch signal
      | unwatch selector signal =>
          cases about
          exact matched.unwatch signal
      | takeReady selector =>
          cases about
          exact matched.takeReady
      | takeWakeup selector =>
          cases about
          exact takeReady (matched.touched (.touch (.refl system) (.take (.selector index)) trivial))
      | dropSelector selector =>
          cases about
          exact matched.dropSelector
      | createSelector selector capacity backend =>
          cases about
          exact matched.createSelector capacity backend
      | markReady => exact civil.elim
      | _ => cases about
    · exact matched.touched <| (command.touched system).mono fun _ own => civil.bypasses about own

omit matched in
theorem reaches (matched : first.Matches index) (run : Reaches civil first last) : last.Matches index :=
  run.preserves (motive := fun system => system.Matches index) matched
    (fun kept civil => kept.stride civil) fun kept _ => kept.record _

end Matches

end System

theorem Setup.matches_signals (setup : Setup) (index : Nat) : setup.system.Matches index := by
  refine ⟨⟨_, (setup.coalesces index).toTracks⟩, ?_⟩
  rcases setup.selector_cases index with none | ⟨capacity, empty⟩
  · rw [none]
    exact fun _ => rfl
  · rw [empty]
    intro dropped
    cases dropped

/-- An operation that attaches and calls selectors only as watching and posting do. -/
def Action.IsCivil : Action → Prop
  | .attach _ observer _ | .detach _ observer => ∀ index, observer ≠ .selector index
  | .callSelector _ _ | .forward _ => False
  | _ => True

private theorem Action.IsCivil.obeys {action : Action} (civil : action.IsCivil) :
    action.Obeys Command.IsCivil := by
  refine Action.obeys_of_own (fun command ordinary => ?_) (fun forwards => ?_) fun command own => ?_
  · cases command with
    | attach | detach | markReady => exact ordinary.elim
    | _ => trivial
  · cases action with
    | forward => exact civil.elim
    | _ => exact forwards.elim
  · cases action with
    | callSelector => exact civil.elim
    | attach | detach =>
        cases own
        exact civil
    | createSelector | dropSelector | createWorker | dropWorker | putJob =>
        cases own
        trivial
    | _ => cases own

namespace Selector

/-- The slots of the selectors match the attachments of the signals, however selectors are made and
dropped, watch signals or are refused, and whatever other observers do. So a signal is watched by one
selector in one slot at most, and only live selectors are attached. The count of a selector is that of the
signals attached to it, and its ready slots are occupied. Once it is dropped, the signals that it watched
count their own posts again, and no others change. All this holds whenever a call lets others act, too. -/
theorem slots_match_attachments {setup : Setup} {system : System}
    (run : Reaches civil setup.system system) :
    (∀ index slot signal, (system.selectors.get index).signalAt? slot = some signal ↔
      (system.signal (.shared signal)).attachment = some ⟨.selector index, slot⟩) ∧
    (∀ reference index slot, (system.signal reference).attachment = some ⟨.selector index, slot⟩ →
      (∃ signal, reference = .shared signal) ∧ (system.selectors.get index).live = true ∧
        slot < (system.selectors.get index).capacity) ∧
    (∀ signal index other slot place, (system.selectors.get index).signalAt? slot = some signal →
      (system.selectors.get other).signalAt? place = some signal → index = other ∧ slot = place) ∧
    (∀ index, let selector := system.selectors.get index
      (selector.count = selector.signals.length ∧ selector.signals.Nodup ∧
        ∀ signal, signal ∈ selector.signals ↔
          ∃ slot, (system.signal (.shared signal)).attachment = some ⟨.selector index, slot⟩) ∧
      selector.readySlots.Nodup ∧
        ∀ slot ∈ selector.readySlots, ∃ signal, selector.signalAt? slot = some signal) ∧
    (∀ index signal, let dropped := system.dropSelector index
      (signal ∈ (system.selectors.get index).signals →
        dropped.signal (.shared signal) = { system.signal (.shared signal) with attachment := none } ∧
          ∀ alarm, dropped.beginPost (.shared signal) alarm =
            (none, (dropped.record (.posted (.shared signal) alarm)).raise (.shared signal))) ∧
      (signal ∉ (system.selectors.get index).signals →
        dropped.signal (.shared signal) = system.signal (.shared signal))) ∧
    (∀ action : Action, action.IsCivil →
      ∀ {σ : Type} (environment : Environment σ) (outside : σ) (bound : Nat),
        let call := action.activity bound
        let world : World σ := { system, outside }
        call.Meanwhile civil environment world →
          call.Asks (fun _ now => Reaches civil system now) environment world ∧
            Reaches civil system (call.run environment world).2.system) ∧
    ∀ (bound : Nat) (script : Script), script.All Action.IsCivil →
      Reaches civil system (script.run bound system).2 := by
  have matched : ∀ index, system.Matches index :=
    fun index => (setup.matches_signals index).reaches run
  have filled : ∀ {index slot signal}, (system.selectors.get index).signalAt? slot = some signal ↔
      (system.signal (.shared signal)).attachment = some ⟨.selector index, slot⟩ := by
    intro index slot signal
    obtain ⟨model, tracks⟩ := (matched index).tracks
    exact tracks.filled_iff
  refine ⟨fun _ _ _ => filled, ?_, ?_, ?_, ?_, ?_, ?_⟩
  · intro reference index slot attached
    obtain ⟨⟨model, tracks⟩, vacates⟩ := matched index
    obtain ⟨signal, rfl, held⟩ := (tracks.agrees reference slot).mp attached
    have within := lt_capacity_of_signalAt? held
    refine ⟨⟨signal, rfl⟩, Bool.of_not_eq_false fun dropped => ?_, within⟩
    rw [capacity, vacates dropped] at within
    exact Nat.not_lt_zero slot within
  · intro signal index other slot place one two
    cases (filled.mp one).symm.trans (filled.mp two)
    exact ⟨rfl, rfl⟩
  · intro index selector
    obtain ⟨model, tracks⟩ := (matched index).tracks
    refine ⟨⟨count_eq_length_signals, tracks.table.nodup_signals, fun signal => ?_⟩,
      tracks.table.nodup_readySlots, fun slot ready => tracks.table.filled_of_ready ready⟩
    exact mem_signals.trans (exists_congr fun slot => filled)
  · intro index signal dropped
    obtain ⟨model, tracks⟩ := (matched index).tracks
    have released := tracks.signal_dropSelector signal
    constructor
    · intro watched
      obtain ⟨slot, held⟩ := mem_signals.mp watched
      rw [Signal.release_of_held (filled.mp held)] at released
      refine ⟨released, fun alarm => System.beginPost_of_none ?_ alarm⟩
      rw [released]
    · intro unwatched
      refine released.trans (Signal.release_of_other fun slot held => unwatched ?_)
      exact mem_signals.mpr ⟨slot, filled.mpr held⟩
  · intro action civil σ environment outside bound call world meanwhile
    exact ⟨civil.obeys.asks meanwhile, civil.obeys.runs meanwhile⟩
  · exact fun bound script all => all.runs (fun _ civil => civil.obeys) bound system

/-- Two selectors and an observer of the program compete for two signals. The first selector is dropped with
a signal ready, and the other one gets that signal after all. -/
theorem competing_selectors_match :
    let setup : Setup :=
      { signals := [.host, .host], observers := [{}], selectors := [{ capacity := 1 }, { capacity := 2 }] }
    let competing : List Command := [.attach 1 (.custom 0) 7, .watch 0 0, .watch 1 0, .watch 1 1,
      .detach 1 (.custom 0), .watch 1 1, .beginPost (.shared 0)]
    let system := setup.system.strides competing
    let last := setup.system.strides (competing ++ [.dropSelector 0, .watch 1 0])
    Reaches civil setup.system system ∧ Reaches civil setup.system last ∧
      ((system.selectors.get 0).readySlots = [0] ∧
        (system.signal (.shared 0)).attachment = some ⟨.selector 0, 0⟩) ∧
      (system.dropSelector 0).signal (.shared 0) =
        { system.signal (.shared 0) with attachment := none } ∧
      (last.selectors.get 1).signalAt? 1 = some 0 := by
  intro setup competing system last
  have foreign : ∀ index, Observer.custom 0 ≠ .selector index := fun _ same => nomatch same
  have run : Reaches civil setup.system system :=
    .strides ⟨foreign, trivial, trivial, trivial, foreign, trivial, trivial, trivial⟩
  have later : Reaches civil setup.system last :=
    .strides ⟨foreign, trivial, trivial, trivial, foreign, trivial, trivial, trivial, trivial, trivial⟩
  obtain ⟨attached, -, -, -, drops, -⟩ := slots_match_attachments run
  obtain ⟨others, -, -, -, -, -⟩ := slots_match_attachments later
  have first := (attached 0 0 0).mp (by decide)
  have released := ((drops 0 0).1 (by decide)).1
  exact ⟨run, later, ⟨by decide, first⟩, released, (others 1 1 0).mpr (by decide)⟩

end Selector

end TimedWaits
