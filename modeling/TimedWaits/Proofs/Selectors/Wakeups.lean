import TimedWaits.Proofs.Selectors.Matching

/-! The signal of a selector has a post for each ready slot. A slot that becomes ready raises it, and
a wait that takes a post takes a slot as well. Posts that are left over from earlier waits only make a
later wait look again. -/

set_option autoImplicit false

namespace TimedWaits

/-! ### Ready lists -/

namespace Selector

variable {selector : Selector} {slots : List Nat} {slot signal : Nat}

/-- The ready list of a selector: some of its slots, none of them twice. There are no more of them than
its signal can count. -/
structure Lines (selector : Selector) (slots : List Nat) : Prop where
  queues : selector.Queues slots
  nodup : slots.Nodup
  within : ∀ slot ∈ slots, slot < selector.capacity
  few : selector.capacity ≤ Signal.ceiling

private theorem lines_of_loose (loose : selector.ready = {}) (few : selector.capacity ≤ Signal.ceiling) :
    selector.Lines [] := by
  have queues : selector.Queues [] := by
    have none : (fun _ : Nat => ([] : List Nat)) = Function.update (fun _ => []) readyList [] :=
      (Function.update_eq_self readyList fun _ : Nat => ([] : List Nat)).symm
    have spells := LinkedLists.spells_empty
    rw [none] at spells
    simpa [Queues, loose] using spells
  exact ⟨queues, List.nodup_nil, fun _ member => (List.not_mem_nil member).elim, few⟩

namespace Lines

variable (lines : selector.Lines slots)

include lines

theorem length_le : slots.length ≤ Signal.ceiling := by
  have among : slots ⊆ List.range selector.capacity :=
    fun slot member => List.mem_range.mpr (lines.within slot member)
  have fewer := (List.subperm_of_subset lines.nodup among).length_le
  rw [List.length_range] at fewer
  exact Nat.le_trans fewer lines.few

private theorem fill (slot signal : Nat) : (selector.fill slot signal).Lines slots := by
  have same : (selector.fill slot signal).capacity = selector.capacity := List.length_set
  exact ⟨lines.queues, lines.nodup, same ▸ lines.within, same ▸ lines.few⟩

private theorem clear (slot : Nat) : (selector.clear slot).Lines (slots.erase slot) := by
  have same : (selector.clear slot).capacity = selector.capacity := List.length_set
  have fewer : ∀ other ∈ slots.erase slot, other < (selector.clear slot).capacity :=
    fun other member => same ▸ lines.within other (List.mem_of_mem_erase member)
  exact ⟨lines.queues.clear slot, lines.nodup.erase slot, fewer, same ▸ lines.few⟩

private theorem markReady? (within : slot < selector.capacity) (absent : slot ∉ slots) :
    ∃ marked, selector.markReady? slot = some marked ∧ marked.Lines (slots ++ [slot]) := by
  obtain ⟨ready, accepted, queues⟩ := lines.queues.markReady? absent
  have nodup : (slots ++ [slot]).Nodup :=
    List.nodup_append.mpr ⟨lines.nodup, List.nodup_singleton slot, fun other member _ last same =>
      absent (List.mem_singleton.mp last ▸ same ▸ member)⟩
  have all : ∀ other ∈ slots ++ [slot], other < selector.capacity := by
    intro other member
    cases List.mem_append.mp member with
    | inl member => exact lines.within other member
    | inr last => exact List.mem_singleton.mp last ▸ within
  exact ⟨{ selector with ready }, accepted, queues, nodup, all, lines.few⟩

theorem takeReady : selector.takeReady.2.Lines slots.tail := by
  cases slots with
  | nil =>
      rw [lines.queues.takeReady_nil]
      exact lines
  | cons slot rest =>
      obtain ⟨ready, taken, queues⟩ := lines.queues.takeReady_cons
      obtain ⟨-, nodup⟩ := List.nodup_cons.mp lines.nodup
      rw [taken]
      exact ⟨queues, nodup, fun other member => lines.within other (List.mem_cons_of_mem slot member),
        lines.few⟩

end Lines

end Selector

/-! ### Commands -/

/-- A command that leaves the posts of a selector's own signal to the waits of the selector, and gives
it no more slots than the signal can count. -/
def Command.Attends (index : Nat) : Command → Prop
  | .take signal => signal ≠ .selector index
  | .createSelector selector capacity _ => selector = index → capacity ≤ Signal.ceiling
  | _ => True

/-- Whatever is done leaves the posts of a selector's own signal to its waits. -/
def attends (index : Nat) : Conduct := fun _ command => command.Attends index

theorem Command.IsOrdinary.attends {command : Command} {index : Nat} (ordinary : command.IsOrdinary) :
    command.Attends index := by
  cases command with
  | take signal =>
      obtain ⟨shared, rfl⟩ := ordinary
      exact fun same => nomatch same
  | createSelector => exact ordinary.elim
  | _ => trivial

theorem Action.obeys_attends {action : Action} {index : Nat}
    (own : ∀ command, action.own? = some command → command.Attends index) :
    action.Obeys (·.Attends index) :=
  Action.obeys_of_own (fun _ ordinary => ordinary.attends) (fun _ _ _ => trivial) own

namespace System

variable {index slot : Nat} {system first last : System} {slots : List Nat} {command : Command}

/-- The slots of a selector that are ready, and for each of them a post of its own signal. -/
structure Wakes (system : System) (index : Nat) (slots : List Nat) : Prop where
  lines : (system.selectors.get index).Lines slots
  enough : slots.length ≤ (system.signal (.selector index)).pending

namespace Wakes

theorem mono {after : System} (wakes : system.Wakes index slots)
    (table : after.selectors.get index = system.selectors.get index)
    (more : ∀ count ≤ Signal.ceiling, count ≤ (system.signal (.selector index)).pending →
      count ≤ (after.signal (.selector index)).pending) : after.Wakes index slots :=
  ⟨table ▸ wakes.lines, more slots.length wakes.lines.length_le wakes.enough⟩

/-- A selector that was just made or dropped has nothing ready. -/
theorem of_empty (loose : (system.selectors.get index).ready = {})
    (few : (system.selectors.get index).capacity ≤ Signal.ceiling) : system.Wakes index [] :=
  ⟨Selector.lines_of_loose loose few, Nat.zero_le _⟩

theorem retable (wakes : system.Wakes index slots) {after : System} {fresh : List Nat}
    (lines : (after.selectors.get index).Lines fresh) (fewer : fresh.length ≤ slots.length)
    (signal : after.signal (.selector index) = system.signal (.selector index)) :
    after.Wakes index fresh :=
  ⟨lines, signal ▸ Nat.le_trans fewer wakes.enough⟩

private theorem watch (wakes : system.Wakes index slots) (signal : Nat) :
    (system.watch index signal).2.Wakes index slots := by
  cases free : (system.selectors.get index).freeSlot? with
  | none =>
      simp only [System.watch, free]
      exact wakes
  | some slot =>
      cases accepted : (system.signal (.shared signal)).attach? (.selector index) slot with
      | none =>
          simp only [System.watch, System.attach, free, accepted]
          exact wakes.retable wakes.lines (Nat.le_refl _) rfl
      | some attached =>
          simp only [System.watch, System.attach, free, accepted]
          have held := get_setSelector (system.setSignal (.shared signal) attached) index
            ((system.selectors.get index).fill slot signal)
          have kept := signal_setSignal system (.shared signal) (.selector index) attached
          exact wakes.retable (held.symm ▸ wakes.lines.fill slot signal) (Nat.le_refl _)
            (kept.trans (if_neg (by simp)))

private theorem unwatch (wakes : system.Wakes index slots) (signal : Nat) :
    ∃ rest, (system.unwatch index signal).2.Wakes index rest := by
  cases found : (system.selectors.get index).slotOf? signal with
  | none =>
      simp only [System.unwatch, found]
      exact ⟨slots, wakes⟩
  | some slot =>
      simp only [System.unwatch, found]
      have held := get_setSelector (system.detach signal (.selector index)).2 index
        ((system.selectors.get index).clear slot)
      have kept := signal_detach system signal (.selector index) (.selector index)
      exact ⟨slots.erase slot, wakes.retable (held.symm ▸ wakes.lines.clear slot)
        List.erase_sublist.length_le (kept.trans (if_neg (by simp)))⟩

private theorem takeReady (wakes : system.Wakes index slots) :
    (system.takeReady index).2.Wakes index slots.tail := by
  have held := get_setSelector system index (system.selectors.get index).takeReady.2
  have fewer : slots.tail.length ≤ slots.length := (List.tail_sublist slots).length_le
  simp only [System.takeReady]
  split
  · exact wakes.retable (held.symm ▸ wakes.lines.takeReady) fewer rfl
  · exact wakes.retable (held.symm ▸ wakes.lines.takeReady) fewer rfl

/-- A wait that takes a post takes the first slot with it. Without a post there is none to take. -/
private theorem takeWakeup (wakes : system.Wakes index slots) :
    (system.takeWakeup index).2.Wakes index slots.tail := by
  have table : ((system.take (.selector index)).2.selectors.get index) =
      system.selectors.get index := by
    simp only [System.take]
    split <;> rfl
  have pending := system.pending_take (.selector index)
  have lines : ((system.takeWakeup index).2.selectors.get index).Lines slots.tail := by
    have held := get_setSelector (system.take (.selector index)).2 index
      ((system.take (.selector index)).2.selectors.get index).takeReady.2
    have left : ((system.take (.selector index)).2.selectors.get index).takeReady.2.Lines slots.tail :=
      table.symm ▸ wakes.lines.takeReady
    simp only [System.takeWakeup, System.takeReady]
    split <;> exact held.symm ▸ left
  have signal : (system.takeWakeup index).2.signal (.selector index) =
      (system.take (.selector index)).2.signal (.selector index) := by
    simp only [System.takeWakeup, System.takeReady]
    split <;> rfl
  constructor
  case lines => exact lines
  case enough =>
    have enough := wakes.enough
    rw [signal, List.length_tail]
    omega

private theorem raise (wakes : system.Wakes index slots) (reference : SignalRef) :
    (system.raise reference).Wakes index slots :=
  wakes.mono rfl fun _ few enough =>
    @Touch.pending_le (.raise reference) system _ _ (fun same => nomatch same)
      (fun _ same => nomatch same) few enough

/-- The call of a selector leaves a post to take, and the slot at the back unless it is ready already. -/
private theorem markReady (wakes : system.Wakes index slots) (slot : Nat) :
    ∃ more, (system.markReady index slot).Wakes index more := by
  by_cases within : slot < (system.selectors.get index).capacity
  · by_cases member : slot ∈ slots
    · rw [markReady_of_none within (wakes.lines.queues.markReady?_eq_none member)]
      have logged : (system.log (.slotAlreadyReady slot)).Wakes index slots := ⟨wakes.lines, wakes.enough⟩
      exact ⟨slots, logged.raise _⟩
    · obtain ⟨marked, accepted, lines⟩ := wakes.lines.markReady? within member
      rw [markReady_of_some within accepted]
      have held := get_setSelector system index marked
      have raised := signal_raise ((system.setSelector index marked).record (.slotReady index slot))
        (.selector index)
      refine ⟨slots ++ [slot], held.symm ▸ lines, ?_⟩
      rw [raised]
      have enough := Nat.succ_le_succ wakes.enough
      have few := lines.length_le
      rw [List.length_append] at few ⊢
      exact Nat.le_min.mpr ⟨enough, few⟩
  · simp only [System.markReady, if_neg within]
    exact ⟨slots, wakes.lines, wakes.enough⟩

private theorem dropSelector (system : System) (index : Nat) :
    (system.dropSelector index).Wakes index [] := by
  have held : (system.dropSelector index).selectors.get index = {} := Table.get_set_same _ _ _
  exact of_empty (congrArg Selector.ready held) (by rw [held]; exact Nat.zero_le _)

private theorem createSelector (system : System) (index : Nat) {capacity : Nat} (backend : Backend)
    (few : capacity ≤ Signal.ceiling) :
    (system.createSelector index capacity backend).Wakes index [] := by
  have held : (system.createSelector index capacity backend).selectors.get index = .empty capacity :=
    Table.get_set_same _ _ _
  refine of_empty (congrArg Selector.ready held) ?_
  rw [held, Selector.capacity, Selector.empty, List.length_replicate]
  exact few

private theorem apply (wakes : system.Wakes index slots) (attends : command.Attends index) :
    ∃ after, (command.apply system).2.Wakes index after := by
  by_cases about : command.selector? = some index
  · cases command with
    | createSelector selector capacity backend =>
        cases about
        exact ⟨[], createSelector system index backend (attends rfl)⟩
    | dropSelector =>
        cases about
        exact ⟨[], dropSelector system index⟩
    | watch selector signal =>
        cases about
        exact ⟨slots, wakes.watch signal⟩
    | unwatch selector signal =>
        cases about
        exact wakes.unwatch signal
    | markReady selector slot =>
        cases about
        exact wakes.markReady slot
    | takeReady =>
        cases about
        exact ⟨slots.tail, wakes.takeReady⟩
    | takeWakeup =>
        cases about
        exact ⟨slots.tail, wakes.takeWakeup⟩
    | _ => cases about
  · have takes : command ≠ .take (.selector index) := by
      intro same
      subst same
      exact attends rfl
    exact ⟨slots, wakes.mono (command.selectors_apply about system) fun _ few enough =>
      command.pending_le about takes few enough⟩

theorem reaches (wakes : ∃ slots, first.Wakes index slots)
    (run : Reaches (TimedWaits.attends index) first last) : ∃ slots, last.Wakes index slots :=
  run.preserves_apply (motive := fun system => ∃ slots, system.Wakes index slots) wakes
    (fun _ _ _ => trivial)
    (fun kept allowed => by
      obtain ⟨slots, kept⟩ := kept
      exact kept.apply allowed)
    fun kept _ => by
      obtain ⟨slots, kept⟩ := kept
      exact ⟨slots, kept.lines, kept.enough⟩

/-- Without a post of its signal a selector has nothing ready. -/
theorem readySlots_eq_nil (wakes : system.Wakes index slots)
    (none : (system.signal (.selector index)).pending = 0) :
    (system.selectors.get index).readySlots = [] := by
  have enough := wakes.enough
  rw [none, Nat.le_zero, List.length_eq_zero_iff] at enough
  rw [wakes.lines.queues.readySlots_eq, enough]

end Wakes

private theorem pending_markReady (within : slot < (system.selectors.get index).capacity) :
    ((system.markReady index slot).signal (.selector index)).pending ≠ 0 := by
  have raised : ∀ before : System,
      ((before.raise (.selector index)).signal (.selector index)).pending ≠ 0 := by
    intro before
    rw [signal_raise]
    exact Nat.ne_of_gt (Nat.le_min.mpr ⟨Nat.succ_pos _, by decide⟩)
  simp only [markReady, if_pos within]
  exact raised _

/-- A post of a signal that calls a selector leaves the selector a post of its own signal. -/
theorem pending_post {reference : SignalRef} (calls : system.Calls index reference slot)
    (within : slot < (system.selectors.get index).capacity) (alarm : Option Nat) :
    ((system.post reference alarm).signal (.selector index)).pending ≠ 0 := by
  rw [post, beginPost_of_some calls]
  exact @pending_markReady index slot (system.record (.posted reference alarm)) within

end System

theorem Setup.wakes {setup : Setup} {index : Nat}
    (few : (setup.system.selectors.get index).capacity ≤ Signal.ceiling) :
    setup.system.Wakes index [] := by
  have loose : (setup.system.selectors.get index).ready = {} := by
    rcases setup.selector_cases index with none | ⟨capacity, empty⟩
    · rw [none]
    · rw [empty]
      rfl
  exact .of_empty loose few

end TimedWaits
