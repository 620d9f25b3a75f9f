import TimedWaits.Proofs.Selectors.Answers

/-! A selector is a list of signals without duplicates, through every run of its users, whatever goes on
while they are blocked. -/

set_option autoImplicit false

namespace TimedWaits

variable {σ : Type} {environment : Environment σ} {world after : World σ} {index bound : Nat}
  {noted : List Occurrence} {action : Action}

/-- The operations that give a signal of a selector: blocking, with a timeout, and at once. -/
def Action.SelectsFrom (index : Nat) : Action → Prop
  | .select selector | .selectFor selector _ _ | .selectReady selector => selector = index
  | _ => False

theorem Action.gives {commands : Command → Prop} {answer : Answer}
    (ordinary : ∀ command, command.IsOrdinary → commands command) (selects : action.SelectsFrom index)
    (returns : Activity.Returns (fun _ => commands) environment (action.activity bound) world answer after
      noted) :
    ∃ signal?, answer = .ofOption .count signal? ∧
      Selector.Gives commands index world.system signal? after.system noted := by
  cases action with
  | select =>
      cases selects
      obtain ⟨signal, _, _, _, waited, closing, rfl⟩ := returns.bind
      obtain ⟨rfl, rfl, rfl⟩ := closing.done
      exact ⟨some signal, rfl, Selector.wait_gives ordinary waited⟩
  | selectFor selector queue timeout =>
      cases selects
      obtain ⟨signal?, _, _, _, waited, closing, rfl⟩ := returns.bind
      obtain ⟨rfl, rfl, rfl⟩ := closing.done
      exact ⟨signal?, rfl, Selector.waitFor_gives ordinary waited⟩
  | selectReady =>
      cases selects
      obtain ⟨signal?, _, _, _, taken, closing, rfl⟩ := returns.bind
      obtain ⟨rfl, rfl, rfl⟩ := closing.done
      obtain ⟨takes, rfl⟩ := Selector.takes_ready taken
      exact ⟨signal?, rfl, .of_takes takes⟩
  | _ => exact selects.elim

private theorem Action.answers {answer : Answer} (selects : action.SelectsFrom index)
    (coalesces : world.system.Coalesces index)
    (returns : Activity.Returns (respects index) environment (action.activity bound) world answer after
      noted) :
    ∃ signal?, answer = .ofOption .count signal? ∧
      Selector.Answers index world.system signal? after.system noted := by
  obtain ⟨signal?, same, gives⟩ := Action.gives (fun _ plain => plain.respects) selects returns
  exact ⟨signal?, same, gives.answers coalesces⟩

private theorem Action.gives_up {conduct : Conduct} {failure : Failure} (selects : action.SelectsFrom index)
    (stuck : Activity.GivesUp conduct environment (action.activity bound) world failure noted) :
    noted.filterMap (Occurrence.selection? index) = [] := by
  cases action with
  | select =>
      cases selects
      rcases stuck.bind with stuck | ⟨_, _, _, _, _, closing, -⟩
      · exact Selector.wait_gives_up stuck
      · cases closing.run
  | selectFor selector queue timeout =>
      cases selects
      rcases stuck.bind with stuck | ⟨_, _, _, _, _, closing, -⟩
      · exact Selector.waitFor_gives_up stuck
      · cases closing.run
  | selectReady => cases stuck.run
  | _ => exact selects.elim

namespace Selector

/-- In any run that leaves a selector to its users, the signals that are selected are those of a list
that holds every watched signal posted since, once each and in the order of these posts. Every call
takes the first of the list and answers with it, or selects nothing. Posts of watched signals change
nothing but the list, and as long as there are signals in it a waiter has a post to wake up to.
Operations that run inside one another make just such runs. -/
theorem selections_follow_coalescing {setup : Setup} {index : Nat} {system : System}
    (run : Reaches (respects index) setup.system system) :
    let list := system.coalescing index
    (∀ later earlier signal, system.history = later ++ .selected index signal :: earlier →
      (Coalescing.after index earlier).ready.head? = some signal ∧
        Coalescing.Awaits index earlier signal) ∧
    (list.ready.Nodup ∧
      ∀ signal, signal ∈ list.ready ↔ Coalescing.Awaits index system.history signal) ∧
    (∀ signal, signal ∈ list.watched ↔
      ((system.selectors.get index).slotOf? signal).isSome) ∧
    (∀ signal command, signal ∈ list.watched → command.IsPost →
      (system.stride command).signal (.shared signal) = system.signal (.shared signal)) ∧
    ((system.selectors.get index).capacity ≤ Signal.ceiling → list.ready ≠ [] →
      (system.signal (.selector index)).pending ≠ 0) ∧
    (∀ action : Action, action.SelectsFrom index → ∀ {σ : Type} (environment : Environment σ)
      (outside : σ) (bound : Nat),
        let call := action.activity bound
        let world : World σ := { system, outside }
        (∀ answer after noted,
          Activity.Returns (respects index) environment call world answer after noted →
          ∃ signal?, answer = .ofOption .count signal? ∧
            Answers index system signal? after.system noted) ∧
        ∀ failure noted, Activity.GivesUp (respects index) environment call world failure noted →
          noted.filterMap (Occurrence.selection? index) = []) ∧
    ∀ (bound : Nat) (script : Script), script.Respects index →
      Reaches (respects index) system (script.run bound system).2 := by
  have coalesces := (setup.coalesces index).reaches run
  intro list
  refine ⟨?_, ⟨?_, ?_⟩, ?_, ?_, ?_, ?_, ?_⟩
  · intro later earlier signal history
    have head := coalesces.first later earlier signal history
    have before : Coalescing.TakesFirst index (.selected index signal :: earlier) :=
      .of_append (history ▸ coalesces.first)
    have first := @Coalescing.TakesFirst.of_append index earlier [.selected index signal] before
    exact ⟨head, (Coalescing.mem_ready_iff_awaits first).mp (List.mem_of_head? head)⟩
  · exact (Coalescing.proper_after index system.history).nodup
  · exact fun signal => Coalescing.mem_ready_iff_awaits coalesces.first
  · intro signal
    rw [coalesces.table.watched, slotOf?_isSome]
  · exact fun signal command watched post => coalesces.signal_stride post watched
  · intro room ready none
    have enough := coalesces.wakeups room
    rw [none, Nat.le_zero, List.length_eq_zero_iff] at enough
    exact ready enough
  · intro action selects σ environment outside bound call world
    constructor
    · exact fun answer after noted returns => Action.answers selects coalesces returns
    · exact fun failure noted stuck => Action.gives_up selects stuck
  · exact fun bound script respectful => script.reaches bound respectful system

/-- A selector with a single slot. The signal that takes the slot of a removed one is not ready before it
is posted, and the post of the removed one is gone. -/
theorem freed_slot_waits_for_post :
    let setup : Setup := { signals := [.host, .host], selectors := [{ capacity := 1 }] }
    let replaced : List Command := [.watch 0 0, .beginPost (.shared 0), .beginPost (.shared 0),
      .unwatch 0 0, .watch 0 1]
    let posted : List Command := replaced ++ [.beginPost (.shared 1), .beginPost (.shared 1)]
    Reaches (respects 0) setup.system (setup.system.strides posted) ∧
      ((setup.system.strides replaced).coalescing 0).ready = [] ∧
      ((setup.system.strides posted).coalescing 0).ready = [1] ∧
      Coalescing.Awaits 0 (setup.system.strides posted).history 1 ∧
      ¬ Coalescing.Awaits 0 (setup.system.strides posted).history 0 := by
  intro setup replaced posted
  have run : Reaches (respects 0) setup.system (setup.system.strides posted) :=
    .strides ⟨trivial, trivial, trivial, trivial, trivial, trivial, trivial, trivial⟩
  obtain ⟨-, ⟨-, awaits⟩, -⟩ := selections_follow_coalescing run
  refine ⟨run, by decide, by decide, (awaits 1).mp (by decide), mt (awaits 0).mpr (by decide)⟩

end Selector

end TimedWaits
