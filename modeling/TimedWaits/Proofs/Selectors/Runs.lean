import TimedWaits.Scenario.Report
import TimedWaits.Proofs.Selectors.Changes

/-! A selector in a run of the system. As long as it is called by posts only, it stays what the history
makes of it. -/

set_option autoImplicit false

namespace TimedWaits

/-- Whatever is done leaves a selector to its users, its waiters and the signals that it watches. -/
def respects (index : Nat) : Conduct := fun _ command => command.Respects index

theorem Occurrence.IsAside.spares {occurrence : Occurrence} (aside : occurrence.IsAside) (index : Nat) :
    occurrence.Spares index := by
  cases occurrence <;> first | exact trivial | exact aside.elim

/-- What a command may do before it posts a signal: an alarm leaves its queue, or a ring is filled. -/
def Touch.IsPrelude : Touch → Prop
  | .alarms _ | .ring _ _ | .note (.fired _ _) | .note (.stored _ _) | .note (.logged _) => True
  | _ => False

theorem Touch.IsPrelude.spares {touch : Touch} (before : touch.IsPrelude) (index : Nat) :
    touch.Spares index := by
  cases touch with
  | note occurrence => cases occurrence <;> first | exact trivial | exact before.elim
  | alarms | ring => trivial
  | _ => exact before.elim

namespace System

variable {index signal : Nat} {system first last : System} {command : Command}

/-- A command that posts first does something that is nothing to a selector and to the signals. -/
theorem stride_of_isPost (post : command.IsPost) (system : System) :
    ∃ middle, Touched Touch.IsPrelude system middle ∧ middle.signals = system.signals ∧
      (system.stride command = middle ∨
        ∃ reference alarm, system.stride command = middle.post reference alarm) := by
  have start : Touched Touch.IsPrelude system system := .refl system
  cases command with
  | beginPost reference => exact ⟨system, start, rfl, .inr ⟨reference, none, rfl⟩⟩
  | fireFirst queue now =>
      simp only [stride, Command.apply, fireFirst]
      split
      · exact ⟨system, start, rfl, .inl rfl⟩
      · next alarm lists _ =>
        have fired := (start.touch (.alarms { system.alarms with lists }) trivial).note
          (.fired alarm now) trivial
        exact ⟨_, fired, rfl, .inr ⟨_, some alarm, rfl⟩⟩
  | store ring elements =>
      simp only [stride, Command.apply, store]
      split
      · split
        · exact ⟨system, start, rfl, .inl rfl⟩
        · exact ⟨_, start.log _ trivial, rfl, .inl rfl⟩
      · have kept := (start.touch (.ring ring ((system.rings.get ring).store elements).2) trivial).note
          (.stored ring (elements.take ((system.rings.get ring).store elements).1)) trivial
        split
        · exact ⟨_, kept, rfl, .inl rfl⟩
        · next reference _ => exact ⟨_, kept, rfl, .inr ⟨.shared reference, none, rfl⟩⟩
  | _ => exact post.elim

private theorem Coalesces.stride (coalesces : system.Coalesces index) (respects : command.Respects index) :
    (system.stride command).Coalesces index := by
  by_cases post : command.IsPost
  · obtain ⟨middle, touched, -, same | ⟨reference, alarm, same⟩⟩ := stride_of_isPost post system
    all_goals
      have kept := (coalesces.touched (touched.mono fun _ before => before.spares index)).1
      rw [same]
    · exact kept
    -- The call of an observer belongs to the stride of the post that finds it.
    · exact (kept.post reference alarm).1
  · rw [stride_eq_apply post]
    by_cases about : command.selector? = some index
    · cases command with
      | watch selector signal =>
          cases about
          exact coalesces.watch signal
      | unwatch selector signal =>
          cases about
          exact coalesces.unwatch signal
      | takeReady selector =>
          cases about
          exact coalesces.takeReady.2
      | takeWakeup selector =>
          cases about
          exact coalesces.takeWakeup.2
      | createSelector | dropSelector | markReady =>
          cases about
          exact absurd rfl respects
      | _ => cases about
    · exact (coalesces.apply ⟨respects, post, about⟩).1

theorem Coalesces.reaches (coalesces : first.Coalesces index)
    (run : Reaches (respects index) first last) : last.Coalesces index :=
  run.preserves (motive := fun system => system.Coalesces index) coalesces
    (fun kept respects => kept.stride respects)
    fun kept aside => (kept.record (aside.spares index)).1

theorem signal_markReady (system : System) (index token : Nat) (shared : Nat) :
    (system.markReady index token).signal (.shared shared) = system.signal (.shared shared) := by
  have differ : SignalRef.shared shared ≠ .selector index := fun same => nomatch same
  simp only [markReady]
  split
  · split
    · exact signal_raise_of_ne differ
    · exact signal_raise_of_ne differ
  · rfl

private theorem signal_post {attachment : Attachment}
    (observed : (system.signal (.shared signal)).attachment = some attachment)
    (reference : SignalRef) (alarm : Option Nat) :
    (system.post reference alarm).signal (.shared signal) = system.signal (.shared signal) := by
  cases attached : (system.signal reference).attachment with
  | none =>
      have differ : SignalRef.shared signal ≠ reference := by
        rintro rfl
        rw [attached] at observed
        cases observed
      rw [System.post, beginPost_of_none attached]
      exact signal_raise_of_ne differ
  | some other =>
      rw [System.post, beginPost_of_some attached]
      obtain ⟨observer, token⟩ := other
      cases observer with
      | custom => rfl
      | selector other => exact signal_markReady _ other token signal

/-- No post changes a signal that a selector watches, whichever signal is posted. -/
theorem Coalesces.signal_stride (coalesces : system.Coalesces index) (post : command.IsPost)
    (watched : signal ∈ (system.coalescing index).watched) :
    (system.stride command).signal (.shared signal) = system.signal (.shared signal) := by
  obtain ⟨slot, calls⟩ := coalesces.mem_watched.mp watched
  obtain ⟨middle, -, signals, last⟩ := stride_of_isPost post system
  have kept : middle.signal (.shared signal) = system.signal (.shared signal) :=
    congrArg (·.get (.shared signal)) signals
  rcases last with same | ⟨reference, alarm, same⟩
  · rw [same, kept]
  · rw [Calls, ← kept] at calls
    rw [same, signal_post calls, kept]

end System

/-- A selector is made empty, if at all. -/
theorem Setup.selector_cases (setup : Setup) (index : Nat) :
    setup.system.selectors.get index = {} ∨
      ∃ capacity, setup.system.selectors.get index = .empty capacity := by
  have made : setup.system.selectors.get index =
      (setup.selectors.map fun selector => .empty selector.capacity)[index]?.getD {} :=
    Table.get_ofList _ _ _
  rw [made, List.getElem?_map]
  cases setup.selectors[index]? with
  | none => exact .inl rfl
  | some chosen => exact .inr ⟨chosen.capacity, rfl⟩

theorem Setup.selector_fresh (setup : Setup) (index : Nat) :
    (setup.system.selectors.get index).ready = {} ∧
      ∀ slot, (setup.system.selectors.get index).signalAt? slot = none := by
  rcases setup.selector_cases index with none | ⟨capacity, empty⟩
  · rw [none]
    exact ⟨rfl, fun _ => rfl⟩
  · rw [empty]
    refine ⟨rfl, fun slot => ?_⟩
    rw [Selector.signalAt?, Selector.empty, List.getElem?_replicate]
    split <;> rfl

theorem Setup.agrees (setup : Setup) (index : Nat) : setup.system.Agrees index := by
  intro reference slot
  rw [System.Calls, setup.attachment_eq_none]
  refine iff_of_false (by intro calls; cases calls) ?_
  rintro ⟨signal, -, filled⟩
  rw [(setup.selector_fresh index).2 slot] at filled
  cases filled

theorem Setup.coalesces (setup : Setup) (index : Nat) : setup.system.Coalesces index := by
  obtain ⟨loose, empty⟩ := setup.selector_fresh index
  refine ⟨⟨⟨.of_empty loose empty, setup.agrees index⟩, ?_⟩, fun _ => Nat.zero_le _⟩
  intro later earlier signal split
  cases later <;> cases split

end TimedWaits
