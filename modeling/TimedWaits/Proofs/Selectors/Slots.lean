import Mathlib.Data.List.Forall2
import Mathlib.Data.List.Perm.Subperm
import TimedWaits.Selector
import TimedWaits.Proofs.LinkedLists.Operations
import TimedWaits.Proofs.Selectors.Coalescing

/-! The table of a selector behind the list of signals that it is meant to be. Every signal has one
slot, and the slots that are ready stand in the order of their signals. -/

set_option autoImplicit false

namespace TimedWaits.Selector

variable {selector : Selector} {model : Coalescing} {slot other signal : Nat} {slots : List Nat}

/-- The ready list spells out some slots, and there is no other list over them. -/
def Queues (selector : Selector) (slots : List Nat) : Prop :=
  selector.ready.Spells (Function.update (fun _ => []) readyList slots)

namespace Queues

theorem readySlots_eq (queues : selector.Queues slots) : selector.readySlots = slots := by
  rw [readySlots, queues.members_eq, Function.update_self]

theorem of_spells {before : List Nat}
    (spells : selector.ready.Spells (Function.update
      (Function.update (fun _ => []) readyList before) readyList slots)) :
    selector.Queues slots := by
  rwa [Function.update_idem] at spells

private theorem isLinked_eq_false (queues : selector.Queues slots) (absent : slot ∉ slots) :
    selector.ready.isLinked slot = false := by
  refine (LinkedLists.Spells.isLinked_eq_false queues).mpr fun list => ?_
  rw [Function.update_apply]
  split
  · exact absent
  · exact List.not_mem_nil

theorem markReady? (queues : selector.Queues slots) (absent : slot ∉ slots) :
    ∃ ready, selector.markReady? slot = some { selector with ready } ∧
      Queues { selector with ready } (slots ++ [slot]) := by
  obtain ⟨ready, pushed, spells⟩ := queues.pushBack? readyList (queues.isLinked_eq_false absent)
  rw [Function.update_self] at spells
  exact ⟨ready, by rw [Selector.markReady?, pushed]; rfl, of_spells spells⟩

theorem markReady?_eq_none (queues : selector.Queues slots) (member : slot ∈ slots) :
    selector.markReady? slot = none := by
  have linked : selector.ready.isLinked slot = true :=
    (queues.linked slot).mpr ⟨readyList, by rwa [Function.update_self]⟩
  rw [Selector.markReady?, LinkedLists.pushBack?, if_pos linked]
  rfl

theorem takeReady_nil (queues : selector.Queues []) : selector.takeReady = (none, selector) := by
  have popped : selector.ready.popFront? readyList = none :=
    queues.popFront?_eq_none (Function.update_self ..)
  rw [Selector.takeReady, popped]

theorem takeReady_cons (queues : selector.Queues (slot :: slots)) :
    ∃ ready, selector.takeReady = (selector.signalAt? slot, { selector with ready }) ∧
      Queues { selector with ready } slots := by
  obtain ⟨ready, popped, spells⟩ := queues.popFront? (Function.update_self ..)
  exact ⟨ready, by rw [Selector.takeReady, popped], of_spells spells⟩

theorem clear (queues : selector.Queues slots) (slot : Nat) :
    (selector.clear slot).Queues (slots.erase slot) := by
  by_cases member : slot ∈ slots
  · have listed : slot ∈ Function.update (fun _ => []) readyList slots readyList := by
      rwa [Function.update_self]
    obtain ⟨ready, removed, spells⟩ := queues.remove? listed
    rw [Function.update_self] at spells
    have cleared : (selector.clear slot).ready = ready := by
      rw [Selector.clear, removed]
      rfl
    exact of_spells (cleared ▸ spells)
  · have unlisted : slot ∉ Function.update (fun _ => []) readyList slots readyList := by
      rwa [Function.update_self]
    rw [Selector.clear, queues.remove?_eq_none unlisted, List.erase_of_not_mem member]
    exact queues

end Queues

/-! ### Slots and signals -/

private theorem signalAt?_fill (within : slot < selector.capacity) :
    (selector.fill slot signal).signalAt? other =
      if other = slot then some signal else selector.signalAt? other := by
  rw [signalAt?, fill, List.getElem?_set]
  split
  · next same => rw [if_pos same.symm, if_pos (same ▸ within), Option.join_some]
  · next differ => rw [if_neg (Ne.symm differ), signalAt?]

private theorem signalAt?_clear :
    (selector.clear slot).signalAt? other =
      if other = slot then none else selector.signalAt? other := by
  rw [signalAt?, clear, List.getElem?_set]
  split
  · next same =>
    rw [if_pos same.symm]
    split <;> rfl
  · next differ => rw [if_neg (Ne.symm differ), signalAt?]

theorem signalAt?_fill_eq_some {held : Nat} (within : slot < selector.capacity)
    (free : selector.signalAt? slot = none) :
    (selector.fill slot signal).signalAt? other = some held ↔
      other = slot ∧ held = signal ∨ selector.signalAt? other = some held := by
  rw [signalAt?_fill within]
  split
  · next same =>
    rw [same, free, Option.some.injEq]
    simp [eq_comm]
  · next differ => simp [differ]

theorem signalAt?_clear_eq_some {held : Nat} :
    (selector.clear slot).signalAt? other = some held ↔
      other ≠ slot ∧ selector.signalAt? other = some held := by
  rw [signalAt?_clear]
  split
  · next same => simp [same]
  · next differ => simp [differ]

theorem lt_capacity_of_signalAt? (filled : selector.signalAt? slot = some signal) :
    slot < selector.capacity := by
  by_contra beyond
  rw [signalAt?, List.getElem?_eq_none (Nat.le_of_not_lt beyond)] at filled
  cases filled

theorem freeSlot?_spec (free : selector.freeSlot? = some slot) :
    slot < selector.capacity ∧ selector.signalAt? slot = none := by
  obtain ⟨within, empty, -⟩ := List.findIdx?_eq_some_iff_getElem.mp free
  refine ⟨within, ?_⟩
  rw [signalAt?, List.getElem?_eq_getElem within, Option.join_some]
  exact Option.isNone_iff_eq_none.mp empty

theorem slotOf?_spec (found : selector.slotOf? signal = some slot) :
    selector.signalAt? slot = some signal := by
  obtain ⟨within, same, -⟩ := List.findIdx?_eq_some_iff_getElem.mp found
  rw [signalAt?, List.getElem?_eq_getElem within, Option.join_some]
  exact eq_of_beq same

theorem slotOf?_isSome : (selector.slotOf? signal).isSome ↔
    ∃ slot, selector.signalAt? slot = some signal := by
  constructor
  · intro found
    obtain ⟨slot, found⟩ := Option.isSome_iff_exists.mp found
    exact ⟨slot, slotOf?_spec found⟩
  · rintro ⟨slot, filled⟩
    rw [slotOf?, List.findIdx?_isSome, List.any_eq_true]
    have within := lt_capacity_of_signalAt? filled
    rw [signalAt?, List.getElem?_eq_getElem within, Option.join_some] at filled
    exact ⟨_, List.getElem_mem within, beq_iff_eq.mpr filled⟩

/-! ### What a table stands for -/

/-- A table stands for a list of signals. -/
structure StandsFor (selector : Selector) (model : Coalescing) : Prop where
  queues : selector.Queues selector.readySlots
  ready : List.Forall₂ (fun slot signal => selector.signalAt? slot = some signal)
    selector.readySlots model.ready
  watched : ∀ signal, signal ∈ model.watched ↔ ∃ slot, selector.signalAt? slot = some signal
  single : ∀ {slot other signal}, selector.signalAt? slot = some signal →
    selector.signalAt? other = some signal → slot = other

namespace StandsFor

theorem of_queues (queues : selector.Queues slots)
    (ready : List.Forall₂ (fun slot signal => selector.signalAt? slot = some signal)
      slots model.ready)
    (watched : ∀ signal, signal ∈ model.watched ↔ ∃ slot, selector.signalAt? slot = some signal)
    (single : ∀ {slot other signal}, selector.signalAt? slot = some signal →
      selector.signalAt? other = some signal → slot = other) : selector.StandsFor model := by
  have same := queues.readySlots_eq
  exact ⟨same ▸ queues, same ▸ ready, watched, single⟩

theorem of_empty (loose : selector.ready = {}) (empty : ∀ slot, selector.signalAt? slot = none) :
    selector.StandsFor {} := by
  have queues : selector.Queues [] := by
    rw [Queues, loose, Function.update_eq_self_iff.mpr rfl]
    exact LinkedLists.spells_empty
  refine of_queues queues .nil (fun signal => ?_) fun filled => ?_
  · refine iff_of_false List.not_mem_nil ?_
    rintro ⟨slot, filled⟩
    rw [empty] at filled
    cases filled
  · rw [empty] at filled
    cases filled

variable (stands : selector.StandsFor model)

include stands

theorem nodup_readySlots : selector.readySlots.Nodup := by
  have nodup := stands.queues.nodup readyList
  rwa [Function.update_self] at nodup

theorem mem_readySlots (filled : selector.signalAt? slot = some signal) :
    slot ∈ selector.readySlots ↔ signal ∈ model.ready := by
  -- The two lists go side by side, so a slot and its signal turn up together or not at all.
  obtain ⟨-, ready, -, single⟩ := stands
  generalize selector.readySlots = slots, model.ready = signals at ready ⊢
  induction ready with
  | nil => exact iff_of_false List.not_mem_nil List.not_mem_nil
  | @cons first firstSignal _ _ here _ ih =>
      rw [List.mem_cons, List.mem_cons, ih]
      refine or_congr_left ⟨?_, ?_⟩
      · rintro rfl
        exact Option.some.inj (filled.symm.trans here)
      · rintro rfl
        exact single filled here

theorem filled_of_ready (ready : slot ∈ selector.readySlots) :
    ∃ signal, selector.signalAt? slot = some signal := by
  obtain ⟨place, inside, rfl⟩ := List.getElem_of_mem ready
  exact ⟨_, stands.ready.get inside (stands.ready.length_eq ▸ inside)⟩

theorem length_le_capacity : model.ready.length ≤ selector.capacity := by
  have within : selector.readySlots ⊆ List.range selector.capacity := by
    intro slot member
    obtain ⟨signal, filled⟩ := stands.filled_of_ready member
    exact List.mem_range.mpr (lt_capacity_of_signalAt? filled)
  have fewer := (List.Nodup.subperm stands.nodup_readySlots within).length_le
  rwa [stands.ready.length_eq, List.length_range] at fewer

theorem fill (within : slot < selector.capacity) (free : selector.signalAt? slot = none)
    (fresh : signal ∉ model.watched) : (selector.fill slot signal).StandsFor (model.watch signal) := by
  have absent : ∀ other, selector.signalAt? other ≠ some signal := fun other filled =>
    fresh ((stands.watched signal).mpr ⟨other, filled⟩)
  have filled {other held : Nat} := @signalAt?_fill_eq_some selector slot other signal held within free
  have queues : (selector.fill slot signal).Queues selector.readySlots := stands.queues
  refine of_queues queues ?_ ?_ ?_
  · exact stands.ready.imp fun other held before => filled.mpr (.inr before)
  · intro held
    rw [Coalescing.watch, List.mem_cons, stands.watched]
    constructor
    · rintro (rfl | ⟨other, before⟩)
      · exact ⟨slot, filled.mpr (.inl ⟨rfl, rfl⟩)⟩
      · exact ⟨other, filled.mpr (.inr before)⟩
    · rintro ⟨other, after⟩
      rcases filled.mp after with ⟨-, same⟩ | before
      · exact .inl same
      · exact .inr ⟨other, before⟩
  · intro first second held one two
    rcases filled.mp one with ⟨here, rfl⟩ | before
    · rcases filled.mp two with ⟨there, -⟩ | before
      · exact here.trans there.symm
      · exact absurd before (absent second)
    · rcases filled.mp two with ⟨-, rfl⟩ | other
      · exact absurd before (absent first)
      · exact stands.single before other

private theorem ne_slot_iff {held : Nat} (filled : selector.signalAt? slot = some signal)
    (same : selector.signalAt? other = some held) : other ≠ slot ↔ held ≠ signal := by
  refine not_congr ⟨?_, ?_⟩
  · rintro rfl
    exact Option.some.inj (same.symm.trans filled)
  · rintro rfl
    exact stands.single same filled

theorem clear (filled : selector.signalAt? slot = some signal) :
    (selector.clear slot).StandsFor (model.unwatch signal) := by
  have remains {other held : Nat} := @signalAt?_clear_eq_some selector slot other held
  refine of_queues (stands.queues.clear slot) ?_ ?_ ?_
  -- Every slot is ready once, so erasing it leaves the slots of the other signals.
  · rw [stands.nodup_readySlots.erase_eq_filter]
    simp only [Coalescing.unwatch]
    have differ {other held : Nat} := @ne_slot_iff selector model slot other signal stands held filled
    have ready := stands.ready
    generalize selector.readySlots = slots, model.ready = signals at ready ⊢
    induction ready with
    | nil => exact .nil
    | @cons first held _ _ here _ ih =>
        rw [List.filter_cons, List.filter_cons]
        by_cases same : held = signal
        · simpa [same, not_not.mp (mt (differ here).mp (not_not.mpr same))] using ih
        · have apart := (differ here).mpr same
          simpa [same, apart] using And.intro (remains.mpr ⟨apart, here⟩) ih
  · intro held
    rw [Coalescing.unwatch, List.mem_filter, stands.watched]
    constructor
    · rintro ⟨⟨other, same⟩, differ⟩
      exact ⟨other, remains.mpr ⟨(stands.ne_slot_iff filled same).mpr (of_decide_eq_true differ), same⟩⟩
    · rintro ⟨other, kept⟩
      obtain ⟨apart, same⟩ := remains.mp kept
      exact ⟨⟨other, same⟩, decide_eq_true ((stands.ne_slot_iff filled same).mp apart)⟩
  · intro first second held one two
    exact stands.single (remains.mp one).2 (remains.mp two).2

theorem post_of_ready (filled : selector.signalAt? slot = some signal)
    (member : slot ∈ selector.readySlots) :
    selector.markReady? slot = none ∧ model.post signal = model := by
  have listed := (stands.mem_readySlots filled).mp member
  exact ⟨stands.queues.markReady?_eq_none member, if_neg fun fresh => fresh.2 listed⟩

theorem post (filled : selector.signalAt? slot = some signal)
    (absent : slot ∉ selector.readySlots) :
    ∃ marked, selector.markReady? slot = some marked ∧ marked.StandsFor (model.post signal) ∧
      marked.slots = selector.slots := by
  obtain ⟨ready, accepted, queues⟩ := stands.queues.markReady? absent
  refine ⟨_, accepted, of_queues queues ?_ ?_ stands.single, rfl⟩
  · have fresh : signal ∈ model.watched ∧ signal ∉ model.ready :=
      ⟨(stands.watched signal).mpr ⟨slot, filled⟩, mt (stands.mem_readySlots filled).mpr absent⟩
    rw [Coalescing.post, if_pos fresh]
    exact List.rel_append stands.ready (.cons filled .nil)
  · intro held
    refine Iff.trans ?_ (stands.watched held)
    rw [Coalescing.post]
    split <;> exact Iff.rfl

theorem takeReady :
    ∃ taken, selector.takeReady = (model.ready.head?, taken) ∧ taken.StandsFor model.take ∧
      taken.slots = selector.slots := by
  obtain ⟨queues, ready, watched, single⟩ := stands
  cases contents : selector.readySlots with
  | nil =>
      rw [contents] at queues ready
      have none : model.ready = [] := List.forall₂_nil_left_iff.mp ready
      refine ⟨selector, by rw [queues.takeReady_nil, none]; rfl, ?_, rfl⟩
      exact of_queues queues (by rw [Coalescing.take, none]; exact .nil) watched single
  | cons slot rest =>
      rw [contents] at queues ready
      obtain ⟨signal, signals, here, later, list⟩ := List.forall₂_cons_left_iff.mp ready
      obtain ⟨ready, taken, queues⟩ := queues.takeReady_cons
      rw [here] at taken
      refine ⟨{ selector with ready }, by rw [taken, list, List.head?_cons], ?_, rfl⟩
      exact of_queues queues (by rw [Coalescing.take, list]; exact later) watched single

end StandsFor

end TimedWaits.Selector
