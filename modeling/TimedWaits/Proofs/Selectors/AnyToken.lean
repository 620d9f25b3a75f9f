import TimedWaits.Proofs.Selectors.Tokens
import TimedWaits.Proofs.Selectors.Selections
import TimedWaits.Proofs.Selectors.Timeouts

/-! What the calls on a selector give when it may be called with any token. As long as no call names a free
slot, they give only signals that are owed, and a call that does not block gives none only if no signal is
owed. A call that names a free slot breaks both: the slot is ready without a signal, and hides those that
became ready after it, or hands its readiness to the next signal that is put into it. -/

set_option autoImplicit false

namespace TimedWaits

open Seating Activity

namespace Seating

variable {index : Nat} {history : List Occurrence} {answer : Option Nat}

/-- A signal is given only if it is owed, and none only if no signal is owed. -/
def Fits (index : Nat) (history : List Occurrence) : Option Nat → Prop
  | some signal => ∃ slot, Owed index slot signal history
  | none => ∀ slot signal, ¬ Owed index slot signal history

/-- The same, but for the slots that were called while they were free: a signal that was put into one may
be given, and a slot that is free still may stand in the way of the signals that are owed. -/
def FitsButFree (index : Nat) (history : List Occurrence) : Option Nat → Prop
  | some signal => ∃ slot, Owed index slot signal history ∨ Inherits index slot signal history
  | none => (∀ slot signal, ¬ Owed index slot signal history) ∨ ∃ slot, CalledFree index slot history

private theorem FitsButFree.fits (fits : FitsButFree index history answer)
    (taken : CallsTaken index history) :
    Fits index history answer := by
  cases answer with
  | some signal =>
      obtain ⟨slot, owed | inherits⟩ := fits
      · exact ⟨slot, owed⟩
      · exact absurd inherits taken.not_inherits
  | none =>
      rcases fits with nothing | ⟨slot, early⟩
      · exact nothing
      · exact absurd early taken.not_calledFree

end Seating

theorem System.Seats.fits {system : System} {index : Nat} (seats : system.Seats index) :
    FitsButFree index system.history (system.takeReady index).1 := by
  obtain ⟨answer, -, -⟩ := seats.table.takeReady seats.agrees.single
  rw [(system.takeReady_parts index).1, answer]
  cases contents : (system.selectors.get index).readySlots with
  | nil =>
      refine .inl fun slot signal owed => ?_
      have ready := seats.table.kept owed
      rw [contents] at ready
      cases ready
  | cons slot rest =>
      have earned := seats.table.earned (contents ▸ List.mem_cons_self)
      change FitsButFree index system.history ((system.selectors.get index).signalAt? slot)
      cases held : (system.selectors.get index).signalAt? slot with
      | some signal =>
          rcases earned with early | ⟨other, owed | inherits⟩
          · exact absurd (seats.table.sits.mp held) (early.free signal)
          · cases held.symm.trans (seats.table.filled owed)
            exact ⟨slot, .inl owed⟩
          · cases held.symm.trans (seats.table.sits.mpr inherits.sits)
            exact ⟨slot, .inr inherits⟩
      | none =>
          rcases earned with early | ⟨other, owed | inherits⟩
          · exact .inr ⟨slot, early⟩
          · cases held.symm.trans (seats.table.filled owed)
          · cases held.symm.trans (seats.table.sits.mpr inherits.sits)

/-! ### Operations -/

/-- An operation that leaves it to a selector what it is attached to and how long it lives. -/
def Action.Leaves (index : Nat) : Action → Prop
  | .attach _ observer _ | .detach _ observer => observer ≠ .selector index
  | .dropSelector selector | .createSelector selector _ _ => selector ≠ index
  | _ => True

theorem Command.IsOrdinary.leaves {command : Command} {index : Nat} (ordinary : command.IsOrdinary) :
    command.Leaves index := by
  cases command with
  | attach | detach | createSelector | dropSelector => exact ordinary.elim
  | _ => trivial

private theorem Action.Leaves.obeys {action : Action} {index : Nat} (leaves : action.Leaves index) :
    action.Obeys (·.Leaves index) := by
  refine Action.obeys_of_own (fun _ ordinary => ordinary.leaves) (fun _ _ _ => trivial) fun command own => ?_
  cases action with
  | attach | detach | dropSelector | createSelector =>
      cases own
      exact leaves
  | callSelector | createWorker | dropWorker | putJob =>
      cases own
      trivial
  | _ => cases own

namespace Selector

section Moments

variable {index : Nat} {start last : System} {answer : Option Nat} {noted : List Occurrence}

/-- A wake-up is a post of the selector's own signal that is taken, and a selection after that. -/
private theorem Takes.moment (takes : Takes index start answer last) :
    ∃ now, Reaches (leavesSlots index) start now ∧ answer = (now.takeReady index).1 ∧
      last = (now.takeReady index).2 := by
  cases takes with
  | ready => exact ⟨start, .refl start, rfl, rfl⟩
  | wakeup =>
      have silent : ¬ (Command.take (.selector index)).IsPost := not_false
      exact ⟨_, (Reaches.refl start).apply silent trivial, rfl, rfl⟩

/-- A call gives what it finds at some moment, and that fits the history by then. -/
private theorem Gives.fits (gives : Gives (·.Leaves index) index start answer last noted)
    (seats : start.Seats index) :
    ∃ now, Reaches (leavesSlots index) start now ∧ answer = (now.takeReady index).1 ∧
      Reaches (leavesSlots index) (now.takeReady index).2 last ∧ FitsButFree index now.history answer := by
  obtain ⟨⟨before, next, run, takes, closes⟩, -⟩ := gives
  obtain ⟨now, later, rfl, rfl⟩ := takes.moment
  have onward : Reaches (leavesSlots index) (now.takeReady index).2 last :=
    closes.mono fun _ _ allowed => allowed.2.leaves
  exact ⟨now, run.trans later, rfl, onward, ((seats.reaches run).reaches later).fits⟩

end Moments

/-- A selector tolerates calls with the tokens of occupied slots and with tokens of no slot, however they
come between posts, waits and changes of what is watched. In any run that leaves it to the selector what it
is attached to, only a call of its own can name a free slot, and a signal becomes owed only by its post or
by a call of its slot. As long as no call has named a free slot, a call that waits on the selector gives a
signal only if, since it was put into its slot and since it was last given, it was posted or its slot was
called; and it gives none only if no signal is owed in that way, which for a call that does not block means
at once. With calls of free slots, the slots of the signals that are owed are still ready, and whatever else
is given was put into a slot that had been called before. -/
theorem owed_signals_given {setup : Setup} {index : Nat} {system : System}
    (run : Reaches (leavesSlots index) setup.system system) :
    let selector := system.selectors.get index
    (CallsTaken index setup.system.history ∧
      ∀ command : Command, command.Leaves index → let next := system.stride command
        (CallsTaken index next.history ↔ CallsTaken index system.history ∧
          ∀ token, command = .markReady index token → ¬ selector.IsFree token) ∧
        ∀ slot signal, Owed index slot signal next.history → Owed index slot signal system.history ∨
          command = .markReady index slot ∨ ∃ alarm, .posted (.shared signal) alarm ∈ next.since system) ∧
    ((∀ slot signal, selector.signalAt? slot = some signal ↔ Sits index slot signal system.history) ∧
      selector.readySlots.Nodup ∧
      ∀ slot signal, Owed index slot signal system.history → slot ∈ selector.readySlots) ∧
    (CallsTaken index system.history →
      (∀ slot ∈ selector.readySlots, ∃ signal, Owed index slot signal system.history) ∧
      ∀ token signal, selector.signalAt? token = some signal →
        Owed index token signal (system.markReady index token).history) ∧
    (∀ action : Action, action.SelectsFrom index → ∀ {σ : Type} (environment : Environment σ)
      (outside : σ) (bound : Nat) (answer : Answer) (after : World σ),
        let call := action.activity bound
        let world : World σ := { system, outside }
        call.Meanwhile (leavesSlots index) environment world →
        call.run environment world = (.ok answer, after) →
        ∃ signal?, answer = .ofOption .count signal? ∧
          ∃ now, Reaches (leavesSlots index) system now ∧ signal? = (now.takeReady index).1 ∧
            Reaches (leavesSlots index) (now.takeReady index).2 after.system ∧
            FitsButFree index now.history signal? ∧
            (CallsTaken index now.history → Fits index now.history signal?)) ∧
    (∀ {σ : Type} (environment : Environment σ) (outside : σ) (bound queue : Nat),
      let signal? := (system.takeReady index).1
      let last : World σ := { system := (system.takeReady index).2, outside }
      ((Action.selectReady index).activity bound).run environment { system, outside } =
          (.ok (.ofOption .count signal?), last) ∧
        ((Action.selectFor index queue 0).activity bound).run environment { system, outside } =
          (.ok (.ofOption .count signal?), last) ∧
        FitsButFree index system.history signal? ∧
        (CallsTaken index system.history → Fits index system.history signal?)) ∧
    ∀ (bound : Nat) (script : Script), script.All (Action.Leaves index) →
      Reaches (leavesSlots index) system (script.run bound system).2 := by
  have seats := (setup.seats index).reaches run
  intro selector
  refine ⟨⟨callsTaken_nil, fun command allowed => ?_⟩,
    ⟨fun slot signal => seats.table.sits, seats.table.nodup, fun slot signal owed => seats.table.kept owed⟩,
    fun taken => ?_, ?_, ?_, ?_⟩
  · obtain ⟨-, calls, owes⟩ := seats.stride allowed
    exact ⟨calls, fun slot signal owed => owes owed⟩
  · exact ⟨fun slot ready => taken.owed (seats.table.earned ready),
      fun token signal filled => seats.owed_markReady taken filled⟩
  · intro action selects σ environment outside bound answer after call world meanwhile returned
    obtain ⟨signal?, same, gives⟩ :=
      Action.gives (fun _ plain => plain.leaves) selects ⟨meanwhile, returned, rfl⟩
    obtain ⟨now, before, taken, later, fits⟩ := gives.fits seats
    exact ⟨signal?, same, now, before, taken, later, fits, fits.fits⟩
  · intro σ environment outside bound queue signal? last
    refine ⟨rfl, ?_, seats.fits, seats.fits.fits⟩
    change (waitFor bound index queue 0 >>= fun found => .done (Answer.ofOption .count found)).run _ _ = _
    rw [Activity.run_bind, waitFor_zero]
    rfl
  · exact fun bound script all => all.runs (fun _ allowed => allowed.obeys) bound system

/-- The slot of a signal is called without a post, and after that one that does not exist. The signal is
given before the other one, whose post came later. -/
theorem called_signal_given_first :
    let setup : Setup := { signals := [.host, .host], selectors := [{ capacity := 2 }] }
    let system := setup.system.strides
      [.watch 0 0, .watch 0 1, .markReady 0 1, .markReady 0 7, .beginPost (.shared 0), .markReady 0 1]
    let call := (Action.select 0).activity 9
    let world : World Prompter := { system, outside := { cues := [] } }
    let after := (call.run Prompter.environment world).2
    Reaches (leavesSlots 0) setup.system system ∧ CallsTaken 0 system.history ∧
      call.Meanwhile (leavesSlots 0) Prompter.environment world ∧
      call.run Prompter.environment world = (.ok (.count 1), after) ∧
      (∃ now, Reaches (leavesSlots 0) system now ∧ (now.takeReady 0).1 = some 1) ∧
      Fits 0 system.history (some 1) := by
  intro setup system call world after
  have run : Reaches (leavesSlots 0) setup.system system :=
    .strides ⟨trivial, trivial, trivial, trivial, trivial, trivial, trivial⟩
  have history : system.history = [.raised (.selector 0), .logged (.slotAlreadyReady 1),
    .raised (.selector 0), .slotReady 0 0, .posted (.shared 0) none, .logged (.slotUnknown 7),
    .raised (.selector 0), .slotReady 0 1, .logged (.slotFilled 1), .watching 0 1 1,
    .logged (.slotFilled 0), .watching 0 0 0] := by decide +kernel
  have taken : CallsTaken 0 system.history := by
    rw [history]
    simp [callsTaken_cons, callsTaken_nil, sits_cons]
  have first : (system.takeReady 0).1 = some 1 := by decide +kernel
  have given : (call.run Prompter.environment world).1 = .ok (.count 1) := by decide +kernel
  clear_value system
  have meanwhile : call.Meanwhile (leavesSlots 0) Prompter.environment world := .of_cues nofun
  have returned : call.run Prompter.environment world = (.ok (.count 1), after) := Prod.ext given rfl
  obtain ⟨-, -, -, gives, atOnce, -⟩ := owed_signals_given run
  obtain ⟨signal?, same, now, reached, found, -⟩ :=
    gives (.select 0) rfl Prompter.environment _ 9 _ after meanwhile returned
  obtain ⟨-, -, -, fits⟩ := atOnce Prompter.environment { cues := [] } 9 0
  have answer : signal? = some 1 := by
    cases signal? with
    | none => cases same
    | some signal =>
        cases same
        rfl
  exact ⟨run, taken, meanwhile, returned, ⟨now, reached, found ▸ answer⟩, first ▸ fits taken⟩

/-- A free slot is called. In one run the signal that is put into the slot afterwards is given, though it was
never posted; in the other the call stands in the way of a signal that was posted. -/
theorem called_free_slot_misleads :
    let setup : Setup := { signals := [.host], selectors := [{ capacity := 2 }] }
    let unposted := setup.system.strides [.markReady 0 0, .watch 0 0]
    let posted := setup.system.strides [.watch 0 0, .markReady 0 1, .beginPost (.shared 0)]
    let answer := fun system : System => (((Action.selectReady 0).activity 1).run Prompter.environment
      { system, outside := { cues := [] } }).1
    (Reaches (leavesSlots 0) setup.system unposted ∧ answer unposted = .ok (.count 0) ∧
      ∀ slot, ¬ Owed 0 slot 0 unposted.history) ∧
    (Reaches (leavesSlots 0) setup.system posted ∧ answer posted = .ok .nothing ∧
      Owed 0 0 0 posted.history) := by
  intro setup unposted posted answer
  have given : answer unposted = .ok (.count 0) := by decide +kernel
  have none : answer posted = .ok .nothing := by decide +kernel
  have before : unposted.history = [.logged (.slotFilled 0), .watching 0 0 0, .raised (.selector 0),
    .slotReady 0 0] := by decide +kernel
  have after : posted.history = [.raised (.selector 0), .slotReady 0 0, .posted (.shared 0) Option.none,
    .raised (.selector 0), .slotReady 0 1, .logged (.slotFilled 0), .watching 0 0 0] := by
    decide +kernel
  refine ⟨⟨.strides ⟨trivial, trivial, trivial⟩, given, fun slot => ?_⟩,
    .strides ⟨trivial, trivial, trivial, trivial⟩, none, ?_⟩
  · rw [before]
    simp [owed_cons, sits_cons, not_owed_nil, not_sits_nil]
  · rw [after]
    simp [owed_cons, sits_cons]

end Selector

end TimedWaits
