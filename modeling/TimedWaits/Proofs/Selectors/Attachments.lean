import TimedWaits.Proofs.Runs.Moves
import TimedWaits.Proofs.Selectors.Slots

/-! A selector in a system: its table stands for the list that the history makes, and the signals that
call it are those that it watches. -/

set_option autoImplicit false

namespace TimedWaits

/-- Whether a touch leaves a selector, its attachments and the posts of its own signal alone. -/
def Touch.Spares (index : Nat) : Touch → Prop
  | .note occurrence => occurrence.Spares index
  | .take signal => signal ≠ .selector index
  | .renew signal fresh =>
    signal ≠ .selector index ∧ (∀ shared, signal ≠ .shared shared) ∧ fresh.attachment = none
  | .attach _ observer _ | .detach _ observer => observer ≠ .selector index
  | .selector other _ => other ≠ index
  | _ => True

/-- Whether a command deals with a selector as its users do: they watch signals instead of attaching
the selector, leave its own signal to it, and call it by posts only. -/
def Command.Respects (index : Nat) : Command → Prop
  | .attach _ observer _ | .detach _ observer => observer ≠ .selector index
  | .take signal => signal ≠ .selector index
  | .createSelector selector _ _ | .dropSelector selector | .markReady selector _ => selector ≠ index
  | _ => True

/-- A command that has nothing to do with a selector, and posts nothing. -/
structure Command.IsQuiet (index : Nat) (command : Command) : Prop where
  respects : command.Respects index
  silent : ¬ command.IsPost
  elsewhere : command.selector? ≠ some index

theorem Command.IsQuiet.of_unrelated {index : Nat} {command : Command}
    (respects : command.Respects index) (silent : ¬ command.IsPost)
    (unrelated : command.selector? = none) : command.IsQuiet index := by
  refine ⟨respects, silent, ?_⟩
  rw [unrelated]
  intro same
  cases same

theorem Command.IsQuiet.spares {index : Nat} {command : Command} (quiet : command.IsQuiet index)
    {touch : Touch} (own : touch.IsOf command) : touch.Spares index := by
  obtain ⟨respects, silent, elsewhere⟩ := quiet
  have untended : ∀ {signal}, command.Tends signal → signal ≠ .selector index := by
    rintro _ tends rfl
    exact elsewhere tends
  have unobserved : ∀ {observer}, (∃ other, observer = Observer.selector other ∧
      command.selector? = some other) → observer ≠ .selector index := by
    rintro _ ⟨other, rfl, about⟩ same
    cases same
    exact elsewhere about
  cases touch with
  | note occurrence =>
      cases occurrence with
      | watching | unwatched | selected =>
          rintro rfl
          exact elsewhere own
      | posted reference alarm =>
          cases alarm with
          | none => exact absurd own silent
          | some alarm =>
              obtain ⟨queue, now, rfl⟩ := own
              exact absurd trivial silent
      | _ => trivial
  | take signal =>
      rcases own with rfl | tends
      · exact respects
      · exact untended tends
  | renew signal fresh =>
      obtain ⟨tends, none⟩ := own
      refine ⟨untended tends, ?_, none⟩
      rintro shared rfl
      exact tends
  | attach | detach =>
      rcases own with rfl | observed
      · exact respects
      · exact unobserved observed
  | selector other =>
      rintro rfl
      exact elsewhere own
  | _ => trivial

namespace System

variable {index signal slot : Nat} {system before after : System} {reference : SignalRef}
  {occurrence : Occurrence}

/-- The list that a selector is meant to be, by what happened so far. -/
def coalescing (system : System) (index : Nat) : Coalescing := .after index system.history

/-- Whether a post of a signal calls a selector for a slot. -/
def Calls (system : System) (index : Nat) (reference : SignalRef) (slot : Nat) : Prop :=
  (system.signal reference).attachment = some ⟨.selector index, slot⟩

/-- Just the signals in the slots of a selector call it, each for its slot. -/
def Agrees (system : System) (index : Nat) : Prop :=
  ∀ reference slot, system.Calls index reference slot ↔
    ∃ signal, reference = .shared signal ∧
      (system.selectors.get index).signalAt? slot = some signal

/-- The table of a selector stands for a list, and just the signals in its slots call it. -/
structure Tracks (system : System) (index : Nat) (model : Coalescing) : Prop where
  table : (system.selectors.get index).StandsFor model
  agrees : system.Agrees index

/-- A selector is what the history makes of it, and every selection so far was of the first signal. -/
structure Mirrors (system : System) (index : Nat) : Prop
    extends system.Tracks index (system.coalescing index) where
  first : Coalescing.TakesFirst index system.history

/-- Besides, the signal of the selector has a post for each one that is ready. -/
structure Coalesces (system : System) (index : Nat) : Prop extends system.Mirrors index where
  wakeups : (system.selectors.get index).capacity ≤ Signal.ceiling →
    (system.coalescing index).ready.length ≤ (system.signal (.selector index)).pending

/-- Two systems that a selector cannot tell apart, but for more posts of its own signal. -/
structure SameFor (index : Nat) (before after : System) : Prop where
  table : after.selectors.get index = before.selectors.get index
  calls : ∀ reference slot, after.Calls index reference slot ↔ before.Calls index reference slot
  wakeups : ∀ count ≤ Signal.ceiling, count ≤ (before.signal (.selector index)).pending →
    count ≤ (after.signal (.selector index)).pending

theorem calls_take (system : System) (reference other : SignalRef) (slot : Nat) :
    (system.take reference).2.Calls index other slot ↔ system.Calls index other slot := by
  rw [Calls, attachment_take, Calls]

namespace SameFor

theorem of_signals (table : after.selectors.get index = before.selectors.get index)
    (signals : after.signals = before.signals) : SameFor index before after := by
  refine ⟨table, fun reference slot => ?_, fun count _ enough => ?_⟩
  · rw [Calls, Calls, signal, signals, signal]
  · rwa [signal, signals]

theorem refl (system : System) : SameFor index system system := of_signals rfl rfl

theorem record (same : SameFor index before after) (occurrence : Occurrence) :
    SameFor index before (after.record occurrence) := ⟨same.table, same.calls, same.wakeups⟩

theorem setSignal {fresh : Signal}
    (calls : ∀ slot, fresh.attachment = some ⟨.selector index, slot⟩ ↔
      system.Calls index reference slot)
    (wakeups : reference = .selector index → ∀ count ≤ Signal.ceiling,
      count ≤ (system.signal reference).pending → count ≤ fresh.pending) :
    SameFor index system (system.setSignal reference fresh) := by
  refine ⟨rfl, fun other slot => ?_, fun count below enough => ?_⟩
  · rw [Calls, signal_setSignal]
    split
    · next same => exact same ▸ calls slot
    · exact Iff.rfl
  · rw [signal_setSignal]
    split
    · next same => exact wakeups same.symm count below (same ▸ enough)
    · exact enough

theorem raise (system : System) (reference : SignalRef) :
    SameFor index system (system.raise reference) := by
  have raised : SameFor index system
      (system.setSignal reference (system.signal reference).raise) :=
    setSignal (fun _ => Iff.rfl) fun _ count below enough =>
      Nat.le_min.mpr ⟨Nat.le_succ_of_le enough, below⟩
  exact raised.record (.raised reference)

private theorem take (differ : reference ≠ .selector index) :
    SameFor index system (system.take reference).2 := by
  refine ⟨?_, calls_take system reference, fun count _ enough => ?_⟩
  · unfold System.take
    split <;> rfl
  · unfold System.take
    split
    · exact enough
    · change count ≤ ((system.setSignal reference _).signal (.selector index)).pending
      rwa [signal_setSignal, if_neg (Ne.symm differ)]

theorem attach {observer : Observer} (differ : observer ≠ .selector index) (token : Nat) :
    SameFor index system (system.attach signal observer token).2 := by
  unfold System.attach
  split
  · exact (refl system).record _
  · next attached accepted =>
    obtain ⟨free, rfl⟩ := Signal.attach?_eq_some accepted
    refine setSignal (fun slot => ?_) fun same => nomatch same
    rw [Calls, free]
    refine iff_of_false (fun same => ?_) fun same => nomatch same
    cases same
    exact differ rfl

theorem detach {observer : Observer} (differ : observer ≠ .selector index) :
    SameFor index system (system.detach signal observer).2 := by
  unfold System.detach
  split
  · exact refl system
  · next detached accepted =>
    obtain ⟨⟨token, attached⟩, rfl⟩ := Signal.detach?_eq_some accepted
    refine setSignal (fun slot => ?_) fun same => nomatch same
    rw [Calls, attached]
    refine iff_of_false (fun impossible => nomatch impossible) fun own => ?_
    cases own
    exact differ rfl

private theorem touch {touch : Touch} (coalesces : system.Coalesces index) (spares : touch.Spares index) :
    SameFor index system (touch.apply system) := by
  cases touch with
  | note occurrence => exact (refl system).record occurrence
  | raise reference => exact raise system reference
  | take reference => exact take spares
  | renew reference fresh =>
      obtain ⟨differ, hidden, none⟩ := spares
      refine setSignal (fun slot => ?_) fun same => absurd same differ
      rw [none, coalesces.agrees]
      refine iff_of_false (fun impossible => nomatch impossible) ?_
      rintro ⟨signal, shared, -⟩
      exact hidden signal shared
  | attach signal observer token => exact attach spares token
  | detach signal observer => exact detach spares
  | selector other selector =>
      exact of_signals (Table.get_set_of_ne _ (Ne.symm spares) selector) rfl
  | _ => exact of_signals rfl rfl

end SameFor

namespace Mirrors

theorem of_same (mirrors : before.Mirrors index)
    (table : after.selectors.get index = before.selectors.get index)
    (calls : ∀ reference slot, after.Calls index reference slot ↔ before.Calls index reference slot)
    (list : after.coalescing index = before.coalescing index)
    (first : Coalescing.TakesFirst index after.history) : after.Mirrors index where
  table := by
    rw [table, list]
    exact mirrors.table
  agrees reference slot := by
    rw [calls, table]
    exact mirrors.agrees reference slot
  first := first

theorem mem_watched (mirrors : system.Mirrors index) :
    signal ∈ (system.coalescing index).watched ↔ ∃ slot, system.Calls index (.shared signal) slot := by
  rw [mirrors.table.watched]
  refine exists_congr fun slot => ?_
  rw [mirrors.agrees]
  constructor
  · intro filled
    exact ⟨signal, rfl, filled⟩
  · rintro ⟨other, same, filled⟩
    cases same
    exact filled

end Mirrors

namespace Coalesces

/-- What a selector cannot tell apart is as good, as long as its list stays what it was. -/
theorem of_same (coalesces : before.Coalesces index) (same : SameFor index before after)
    (list : after.coalescing index = before.coalescing index)
    (first : Coalescing.TakesFirst index after.history) : after.Coalesces index where
  toMirrors := coalesces.toMirrors.of_same same.table same.calls list first
  wakeups room := by
    rw [same.table] at room
    rw [list]
    have few := Nat.le_trans coalesces.table.length_le_capacity room
    exact same.wakeups _ few (coalesces.wakeups room)

private theorem of_same_history (coalesces : before.Coalesces index) (same : SameFor index before after)
    (history : after.history = before.history) :
    after.Coalesces index ∧ after.coalescing index = before.coalescing index := by
  have list : after.coalescing index = before.coalescing index := by
    rw [coalescing, history, coalescing]
  exact ⟨coalesces.of_same same list (history ▸ coalesces.first), list⟩

theorem of_same_cons (coalesces : before.Coalesces index) (same : SameFor index before after)
    (spares : occurrence.Spares index) (history : after.history = occurrence :: before.history) :
    after.Coalesces index ∧ after.coalescing index = before.coalescing index := by
  have list : after.coalescing index = before.coalescing index := by
    rw [coalescing, history, Coalescing.after_cons, Coalescing.step_of_spares spares, coalescing]
  exact ⟨coalesces.of_same same list (history ▸ coalesces.first.cons_of_spares spares), list⟩

theorem record (coalesces : system.Coalesces index) (spares : occurrence.Spares index) :
    (system.record occurrence).Coalesces index ∧
      (system.record occurrence).coalescing index = system.coalescing index :=
  coalesces.of_same_cons ((SameFor.refl system).record occurrence) spares rfl

theorem raise (coalesces : system.Coalesces index) (reference : SignalRef) :
    (system.raise reference).Coalesces index ∧
      (system.raise reference).coalescing index = system.coalescing index := by
  have spares : (Occurrence.raised reference).Spares index := trivial
  exact coalesces.of_same_cons (.raise system reference) spares rfl

private theorem touch {touch : Touch} (coalesces : system.Coalesces index) (spares : touch.Spares index) :
    (touch.apply system).Coalesces index ∧
      (touch.apply system).coalescing index = system.coalescing index := by
  -- What a touch adds to the history decides which lemma applies; the rest is `SameFor`.
  have same := SameFor.touch coalesces spares
  cases touch with
  | note occurrence => exact coalesces.record spares
  | raise reference => exact coalesces.raise reference
  | take reference =>
      simp only [Touch.apply, System.take] at same ⊢
      have taking : (Occurrence.took reference).Spares index := trivial
      split at same
      · exact ⟨coalesces, rfl⟩
      · exact coalesces.of_same_cons same taking rfl
  | attach signal observer token =>
      simp only [Touch.apply, System.attach] at same ⊢
      have refusal : (Occurrence.logged .observerRefused).Spares index := trivial
      split at same
      · exact coalesces.of_same_cons same refusal rfl
      · exact coalesces.of_same_history same rfl
  | detach signal observer =>
      simp only [Touch.apply, System.detach] at same ⊢
      split at same
      · exact ⟨coalesces, rfl⟩
      · exact coalesces.of_same_history same rfl
  | _ => exact coalesces.of_same_history same rfl

/-- Touches that spare a selector leave it what its history makes of it, and its list as it is. -/
theorem touched (coalesces : before.Coalesces index) (touched : Touched (·.Spares index) before after) :
    after.Coalesces index ∧ after.coalescing index = before.coalescing index := by
  refine touched.preserves (motive := fun last =>
    last.Coalesces index ∧ last.coalescing index = before.coalescing index) ⟨coalesces, rfl⟩ ?_
  intro last touch spares ⟨kept, list⟩
  obtain ⟨onward, same⟩ := kept.touch spares
  exact ⟨onward, same.trans list⟩

end Coalesces

end System

end TimedWaits
