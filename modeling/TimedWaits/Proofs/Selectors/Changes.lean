import TimedWaits.Proofs.Selectors.Tables

/-! What each change of a selector does to the list that it is meant to be. -/

set_option autoImplicit false

namespace TimedWaits.System

variable {index signal slot : Nat} {system : System} {reference : SignalRef}

namespace Coalesces

/-- A post of a signal that does not call the selector is nothing to it until it calls somebody. -/
private theorem posted (coalesces : system.Coalesces index)
    (elsewhere : ∀ slot, ¬ system.Calls index reference slot) (alarm : Option Nat) :
    (system.record (.posted reference alarm)).Coalesces index := by
  have list : (system.coalescing index).step index (.posted reference alarm) =
      system.coalescing index := by
    cases reference with
    | shared signal =>
        refine if_neg fun fresh => ?_
        obtain ⟨slot, calls⟩ := coalesces.mem_watched.mp fresh.1
        exact elsewhere slot calls
    | selector | worker => rfl
  refine coalesces.of_same ((SameFor.refl system).record _) list ?_
  exact coalesces.first.cons fun _ same => nomatch same

end Coalesces

theorem Coalesces.apply {command : Command} (coalesces : system.Coalesces index)
    (quiet : command.IsQuiet index) :
    (command.apply system).2.Coalesces index ∧
      (command.apply system).2.coalescing index = system.coalescing index :=
  coalesces.touched <| (command.touched system).mono fun _ own => quiet.spares own

private theorem Coalesces.markReady (coalesces : system.Coalesces index) (alarm : Option Nat)
    (filled : (system.selectors.get index).signalAt? slot = some signal) :
    let marked := (system.record (.posted (.shared signal) alarm)).markReady index slot
    marked.Coalesces index ∧ marked.coalescing index = (system.coalescing index).post signal := by
  intro last
  have within := Selector.lt_capacity_of_signalAt? filled
  let posted := system.record (.posted (.shared signal) alarm)
  have first : Coalescing.TakesFirst index posted.history :=
    coalesces.first.cons fun _ same => nomatch same
  -- A slot that is ready keeps its place; either way the signal of the selector is raised.
  by_cases ready : slot ∈ (system.selectors.get index).readySlots
  · obtain ⟨refused, list⟩ := coalesces.table.post_of_ready filled ready
    have known : posted.Coalesces index := coalesces.of_same ((SameFor.refl system).record _) list first
    have silent : (Occurrence.logged (.slotAlreadyReady slot)).Spares index := trivial
    have logged := known.record silent
    have raised := logged.1.raise (.selector index)
    have same : last = (posted.log (.slotAlreadyReady slot)).raise (.selector index) :=
      markReady_of_none within refused
    rw [same]
    exact ⟨raised.1, raised.2.trans logged.2⟩
  · obtain ⟨marked, accepted, table, slots⟩ := coalesces.table.post filled ready
    let set := (posted.setSelector index marked).record (.slotReady index slot)
    have same : last = set.raise (.selector index) := markReady_of_some within accepted
    have held : last.selectors.get index = marked := same ▸ get_setSelector posted index marked
    have list : last.coalescing index = (system.coalescing index).post signal := same ▸ rfl
    have capacity : marked.capacity = (system.selectors.get index).capacity := congrArg List.length slots
    have known : posted.Tracks index (system.coalescing index) := ⟨coalesces.table, coalesces.agrees⟩
    have tracks : last.Tracks index (last.coalescing index) := list ▸ known.markReady filled
    refine ⟨⟨⟨tracks, ?_⟩, fun room => ?_⟩, list⟩
    · rw [same]
      have ready : (Occurrence.slotReady index slot).Spares index := trivial
      have raised : (Occurrence.raised (.selector index)).Spares index := trivial
      exact (first.cons_of_spares ready).cons_of_spares raised
    · rw [held] at room
      rw [list, same, signal_raise]
      have few := Nat.le_trans table.length_le_capacity room
      have before := coalesces.wakeups (capacity ▸ room)
      have more := Nat.le_trans (Coalescing.length_post_le _ signal) (Nat.succ_le_succ before)
      exact Nat.le_min.mpr ⟨more, few⟩

/-- A post does to a selector what it does to the list, whomever it calls. -/
theorem Coalesces.post (coalesces : system.Coalesces index) (reference : SignalRef)
    (alarm : Option Nat) :
    (system.post reference alarm).Coalesces index ∧
      (system.post reference alarm).coalescing index =
        (system.coalescing index).step index (.posted reference alarm) := by
  -- The signal calls this selector, nobody, or somebody else, who is nothing to the selector.
  by_cases own : ∃ slot, system.Calls index reference slot
  · obtain ⟨slot, calls⟩ := own
    obtain ⟨signal, rfl, filled⟩ := (coalesces.agrees reference slot).mp calls
    rw [System.post, beginPost_of_some calls]
    exact coalesces.markReady alarm filled
  · have posted := coalesces.posted (not_exists.mp own) alarm
    cases attached : (system.signal reference).attachment with
    | none =>
        rw [System.post, beginPost_of_none attached]
        exact posted.raise reference
    | some attachment =>
        rw [System.post, beginPost_of_some attached]
        obtain ⟨observer, token⟩ := attachment
        cases observer with
        | custom other => exact ⟨posted, rfl⟩
        | selector other =>
            have elsewhere : other ≠ index := by
              rintro rfl
              exact own ⟨token, attached⟩
            have quiet : (Command.markReady other token).IsQuiet index :=
              ⟨elsewhere, not_false, fun same => elsewhere (Option.some.inj same)⟩
            exact posted.apply quiet

/-- A selector whose table and whose list change for one signal, as long as no more become ready. -/
theorem Coalesces.retable {fresh : Signal} {selector : Selector} {occurrence : Occurrence}
    (coalesces : system.Coalesces index)
    (tracks : ((system.setSignal (.shared signal) fresh).setSelector index selector).Tracks index
      ((system.coalescing index).step index occurrence))
    (capacity : selector.capacity = (system.selectors.get index).capacity)
    (passive : ∀ other, occurrence ≠ .selected index other)
    (fewer : ((system.coalescing index).step index occurrence).ready.length ≤
      (system.coalescing index).ready.length) :
    (((system.setSignal (.shared signal) fresh).setSelector index selector).record
      occurrence).Coalesces index := by
  have held := get_setSelector (system.setSignal (.shared signal) fresh) index selector
  have first : Coalescing.TakesFirst index (occurrence :: system.history) :=
    coalesces.first.cons fun other same => absurd same (passive other)
  refine ⟨⟨⟨tracks.table, tracks.agrees⟩, first⟩, fun room => ?_⟩
  have own : SignalRef.selector index ≠ .shared signal := by
    intro same
    cases same
  have kept : ((system.setSignal (.shared signal) fresh).signal (.selector index)) =
      system.signal (.selector index) := by
    rw [signal_setSignal, if_neg own]
  change (((system.setSignal (.shared signal) fresh).setSelector index selector).selectors.get
    index).capacity ≤ _ at room
  rw [held, capacity] at room
  change _ ≤ ((system.setSignal (.shared signal) fresh).signal (.selector index)).pending
  rw [kept]
  exact Nat.le_trans fewer (coalesces.wakeups room)

private theorem Coalesces.fill {attached : Signal} (coalesces : system.Coalesces index)
    (found : (system.selectors.get index).freeSlot? = some slot)
    (accepted : (system.signal (.shared signal)).attach? (.selector index) slot = some attached) :
    (((system.setSignal (.shared signal) attached).setSelector index
      ((system.selectors.get index).fill slot signal)).record
        (.watching index slot signal)).Coalesces index := by
  have list : (system.coalescing index).step index (.watching index slot signal) =
      (system.coalescing index).watch signal := if_pos rfl
  refine coalesces.retable ?_ List.length_set (fun other same => nomatch same) ?_
  · rw [list]
    exact coalesces.toTracks.fill found accepted
  · rw [list]
    exact Nat.le_refl _

theorem Coalesces.watch (coalesces : system.Coalesces index) (signal : Nat) :
    (system.watch index signal).2.Coalesces index := by
  cases free : (system.selectors.get index).freeSlot? with
  | none =>
      simp only [System.watch, free]
      exact coalesces
  | some slot =>
      cases accepted : (system.signal (.shared signal)).attach? (.selector index) slot with
      | none =>
          have silent : (Occurrence.logged .observerRefused).Spares index := trivial
          simp only [System.watch, System.attach, free, accepted]
          exact (coalesces.record silent).1
      | some attached =>
          have silent : (Occurrence.logged (.slotFilled slot)).Spares index := trivial
          simp only [System.watch, System.attach, free, accepted]
          exact ((coalesces.fill free accepted).record silent).1

private theorem Coalesces.clear (coalesces : system.Coalesces index)
    (filled : (system.selectors.get index).signalAt? slot = some signal) :
    (((system.setSignal (.shared signal)
      { system.signal (.shared signal) with attachment := none }).setSelector index
        ((system.selectors.get index).clear slot)).record
          (.unwatched index slot signal)).Coalesces index := by
  have list : (system.coalescing index).step index (.unwatched index slot signal) =
      (system.coalescing index).unwatch signal := if_pos rfl
  refine coalesces.retable ?_ List.length_set (fun other same => nomatch same) ?_
  · rw [list]
    exact coalesces.toTracks.clear filled
  · rw [list]
    exact List.length_filter_le _ _

theorem Coalesces.unwatch (coalesces : system.Coalesces index) (signal : Nat) :
    (system.unwatch index signal).2.Coalesces index := by
  cases found : (system.selectors.get index).slotOf? signal with
  | none =>
      simp only [System.unwatch, found]
      exact coalesces
  | some slot =>
      have filled := Selector.slotOf?_spec found
      have accepted := coalesces.toTracks.detaches filled
      simp only [System.unwatch, System.detach, found, accepted]
      exact coalesces.clear filled

/-- What is taken is the only thing that is noted, if it is a signal. -/
theorem takeReady_selections (system : System) (index : Nat) :
    ((system.takeReady index).2.since system).filterMap (Occurrence.selection? index) =
      (system.takeReady index).1.toList := by
  obtain ⟨-, -, history, -⟩ := system.takeReady_parts index
  rw [since_eq history]
  cases (system.takeReady index).1 with
  | none => rfl
  | some signal => exact List.filterMap_cons_some (if_pos rfl)

theorem takeWakeup_selections (system : System) (index : Nat) :
    ((system.takeWakeup index).2.since system).filterMap (Occurrence.selection? index) =
      (system.takeWakeup index).1.toList := by
  have before : (system.take (.selector index)).2.Continues system :=
    (Continues.refl system).apply (.take (.selector index))
  have quiet : ((system.take (.selector index)).2.since system).filterMap
      (Occurrence.selection? index) = [] := by
    rcases system.take_cases (.selector index) with ⟨-, none⟩ | ⟨taken, took, -, history⟩
    · rw [none]
      exact congrArg (List.filterMap _) (since_eq (List.nil_append _).symm)
    · have history : taken.history = [.took (.selector index)] ++ system.history := history
      rw [took, since_eq history]
      rfl
  have after : ((system.take (.selector index)).2.takeReady index).2.Continues
      (system.take (.selector index)).2 := (Continues.refl _).apply (.takeReady index)
  change ((((system.take (.selector index)).2.takeReady index).2.since system).filterMap _) = _
  rw [before.since_trans after, List.filterMap_append, quiet, List.append_nil]
  exact takeReady_selections _ index

/-- The answer is the first signal of the list, if any; that one is taken, and nothing else is
selected. -/
structure Selects (index : Nat) (before : System) (answer : Option Nat) (after : System) : Prop where
  head : answer = (before.coalescing index).ready.head?
  list : after.coalescing index = (before.coalescing index).take
  noted : (after.since before).filterMap (Occurrence.selection? index) = answer.toList

theorem Selects.of_history {before after : System} {answer : Option Nat}
    (head : answer = (before.coalescing index).ready.head?)
    (history : after.history = (answer.map (Occurrence.selected index)).toList ++ before.history) :
    Selects index before answer after := by
  refine ⟨head, ?_, ?_⟩
  · rw [System.coalescing, history]
    cases answer with
    | none => exact (Coalescing.take_of_empty head.symm).symm
    | some signal => exact if_pos rfl
  · rw [System.since_eq history]
    cases answer with
    | none => rfl
    | some signal => exact List.filterMap_cons_some (if_pos rfl)

theorem Mirrors.takeReady (mirrors : system.Mirrors index) :
    (system.takeReady index).1 = (system.coalescing index).ready.head? ∧
      (system.takeReady index).2.history =
        ((system.takeReady index).1.map (Occurrence.selected index)).toList ++ system.history ∧
      (system.takeReady index).2.Mirrors index ∧
      (system.takeReady index).2.signals = system.signals ∧
      ((system.takeReady index).2.selectors.get index).slots = (system.selectors.get index).slots := by
  obtain ⟨head, history, tracks, signals, slots⟩ := mirrors.toTracks.takeReady
  rw [← (Selects.of_history head history).list] at tracks
  refine ⟨head, history, ⟨tracks, ?_⟩, signals, slots⟩
  rw [history]
  generalize (system.takeReady index).1 = answer at head ⊢
  cases answer with
  | none => exact mirrors.first
  | some signal =>
      refine mirrors.first.cons fun other same => ?_
      cases same
      exact head.symm

theorem Coalesces.takeReady (coalesces : system.Coalesces index) :
    Selects index system (system.takeReady index).1 (system.takeReady index).2 ∧
      (system.takeReady index).2.Coalesces index := by
  obtain ⟨head, history, mirrors, signals, slots⟩ := coalesces.toMirrors.takeReady
  have selects := Selects.of_history head history
  refine ⟨selects, mirrors, fun room => ?_⟩
  rw [Selector.capacity, slots] at room
  rw [selects.list, System.signal, signals]
  exact Nat.le_trans (List.tail_sublist _).length_le (coalesces.wakeups room)

private theorem Mirrors.take (mirrors : system.Mirrors index) :
    let taken := (system.take (.selector index)).2
    taken.Mirrors index ∧ taken.coalescing index = system.coalescing index ∧
      taken.selectors = system.selectors := by
  intro taken
  have cases : taken.selectors = system.selectors ∧ ∃ recent, taken.history = recent ++ system.history ∧
      (recent = [] ∨ recent = [.took (.selector index)]) := by
    simp only [taken, System.take]
    split
    · exact ⟨rfl, [], rfl, .inl rfl⟩
    · exact ⟨rfl, [.took (.selector index)], rfl, .inr rfl⟩
  obtain ⟨table, recent, history, silent⟩ := cases
  have list : taken.coalescing index = system.coalescing index := by
    rw [System.coalescing, history]
    rcases silent with rfl | rfl <;> rfl
  have first : Coalescing.TakesFirst index taken.history := by
    have took : (Occurrence.took (.selector index)).Spares index := trivial
    rw [history]
    rcases silent with rfl | rfl
    · exact mirrors.first
    · exact mirrors.first.cons_of_spares took
  exact ⟨mirrors.of_same (table ▸ rfl) (calls_take system (.selector index)) list first, list, table⟩

/-- A wake-up takes a post of the selector's own signal, and then selects. -/
theorem Coalesces.takeWakeup (coalesces : system.Coalesces index) :
    Selects index system (system.takeWakeup index).1 (system.takeWakeup index).2 ∧
      (system.takeWakeup index).2.Coalesces index := by
  -- Between the two the signal of the selector may be a post short, so only `Mirrors` holds there.
  obtain ⟨mirrors, list, table⟩ := coalesces.toMirrors.take
  have pending := pending_take system (.selector index)
  have noted := system.takeWakeup_selections index
  have same : system.takeWakeup index = (system.take (.selector index)).2.takeReady index := rfl
  rw [same] at noted ⊢
  generalize (system.take (.selector index)).2 = taken at mirrors list table pending noted
  obtain ⟨head, history, kept, signals, slots⟩ := mirrors.takeReady
  have selects : Selects index taken _ _ := .of_history head history
  refine ⟨⟨head.trans (by rw [list]), selects.list.trans (by rw [list]), noted⟩, kept, fun room => ?_⟩
  rw [Selector.capacity, slots, table] at room
  rw [selects.list, list, System.signal, signals, Coalescing.take, List.length_tail]
  have enough := coalesces.wakeups room
  exact Nat.sub_le_iff_le_add.mpr (Nat.le_trans enough pending)

end TimedWaits.System
