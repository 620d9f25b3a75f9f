import TimedWaits.Proofs.Signals.Balance

/-! The count of a shared signal is what its history says, at any count. Every raise adds one post, except
that raises at the ceiling are lost, and every take removes one that is there. -/

set_option autoImplicit false

namespace TimedWaits

/-- The count that the raises and takes of a history come to, the latest first. At the ceiling further
raises are lost. -/
def Occurrence.tally (signal : Nat) : List Occurrence → Nat
  | [] => 0
  | occurrence :: earlier =>
    let count := tally signal earlier
    if occurrence.isRaise (.shared signal) then min (count + 1) Signal.ceiling
    else if occurrence.isTake (.shared signal) then count - 1
    else count

private theorem Occurrence.tally_le (signal : Nat) (history : List Occurrence) :
    tally signal history ≤ Signal.ceiling := by
  induction history with
  | nil => exact Nat.zero_le _
  | cons occurrence earlier ih =>
      simp only [tally]
      split
      · exact Nat.min_le_right _ _
      · split
        · exact Nat.le_trans (Nat.sub_le _ _) ih
        · exact ih

namespace System

variable {system next : System} {signal : Nat}

/-- The count of a signal is what its history comes to, where every take found a post. -/
structure Tallies (signal : Nat) (system : System) : Prop where
  count : system.pending signal = Occurrence.tally signal system.history
  takes : ∀ earlier, .took (.shared signal) :: earlier <:+ system.history →
    Occurrence.tally signal earlier ≠ 0

namespace Tallies

private theorem of_eq (tallies : system.Tallies signal)
    (pending : next.pending signal = system.pending signal)
    (history : next.history = system.history) : next.Tallies signal :=
  ⟨by rw [pending, tallies.count, history], by rw [history]; exact tallies.takes⟩

/-- A further occurrence that the count follows, and that found a post if it took one. -/
theorem step (tallies : system.Tallies signal) {occurrence : Occurrence}
    (history : next.history = occurrence :: system.history)
    (count : next.pending signal = Occurrence.tally signal (occurrence :: system.history))
    (found : occurrence = .took (.shared signal) → system.pending signal ≠ 0) :
    next.Tallies signal := by
  refine ⟨count.trans (congrArg _ history.symm), fun earlier suffix => ?_⟩
  rw [history, List.suffix_cons_iff] at suffix
  cases suffix with
  | inl same =>
      obtain ⟨took, rest⟩ := List.cons.inj same
      rw [rest, ← tallies.count]
      exact found took.symm
  | inr former => exact tallies.takes earlier former

theorem note (tallies : system.Tallies signal) (pending : next.pending signal = system.pending signal)
    {occurrence : Occurrence} (history : next.history = occurrence :: system.history)
    (raise : occurrence.isRaise (.shared signal) = false)
    (take : occurrence.isTake (.shared signal) = false) : next.Tallies signal := by
  refine tallies.step history ?_ ?_
  · rw [pending, tallies.count, Occurrence.tally, raise, take]
    rfl
  · rintro rfl
    simp [Occurrence.isTake] at take

private theorem raise (tallies : system.Tallies signal) (reference : SignalRef) :
    (system.raise reference).Tallies signal := by
  by_cases same : reference = .shared signal
  · subst same
    refine tallies.step rfl ?_ nofun
    rw [Occurrence.tally, if_pos (by simp [Occurrence.isRaise]), ← tallies.count]
    change ((system.setSignal _ _).signal (.shared signal)).pending = _
    rw [signal_setSignal, if_pos rfl]
    rfl
  · exact tallies.note (pending_setSignal_of_ne same _) rfl (by simp [Occurrence.isRaise, same]) rfl

private theorem take (tallies : system.Tallies signal) (reference : SignalRef) :
    (system.take reference).2.Tallies signal := by
  rcases system.take_cases reference with ⟨-, refused⟩ | ⟨taken, took, fewer, history⟩
  · rw [refused]
    exact tallies
  · by_cases same : reference = .shared signal
    · subst same
      rw [took]
      change taken.pending signal + 1 = system.pending signal at fewer
      refine tallies.step history ?_ fun _ => fewer ▸ Nat.succ_ne_zero _
      rw [Occurrence.tally, if_neg (by simp [Occurrence.isRaise]),
        if_pos (by simp [Occurrence.isTake]), ← tallies.count, ← fewer]
      rfl
    · have alike : Alike signal system (system.take reference).2 := .take same
      rw [took] at alike ⊢
      exact tallies.note alike.pending history rfl (by simp [Occurrence.isTake, same])

/-- A command keeps to the tally, whatever it touches. -/
theorem apply (tallies : system.Tallies signal) (command : Command) :
    (command.apply system).2.Tallies signal := by
  refine (command.touched system).preserves (motive := Tallies signal) tallies ?_
  intro last touch own tallies
  cases touch with
  | raise reference => exact tallies.raise reference
  | take reference => exact tallies.take reference
  | renew reference fresh =>
      have differ : reference ≠ .shared signal := by
        rintro rfl
        exact own.1
      exact tallies.of_eq (pending_setSignal_of_ne differ fresh) rfl
  | attach index observer token =>
      have pending : (last.attach index observer token).2.pending signal = last.pending signal :=
        (Alike.attach index observer token).pending
      cases accepted : (last.signal (.shared index)).attach? observer token with
      | none =>
          have history : (last.attach index observer token).2.history =
              .logged .observerRefused :: last.history := by
            rw [System.attach, accepted]
            rfl
          exact tallies.note pending history rfl rfl
      | some attached =>
          have history : (last.attach index observer token).2.history = last.history := by
            rw [System.attach, accepted]
            rfl
          exact tallies.of_eq pending history
  | detach index observer =>
      have pending : (last.detach index observer).2.pending signal = last.pending signal :=
        (Alike.detach index observer).pending
      have history : (last.detach index observer).2.history = last.history := by
        unfold System.detach
        split <;> rfl
      exact tallies.of_eq pending history
  | note occurrence =>
      have quiet : occurrence.isRaise (.shared signal) = false ∧
          occurrence.isTake (.shared signal) = false := by
        cases occurrence <;> first | exact ⟨rfl, rfl⟩ | exact own.elim
      exact tallies.note rfl rfl quiet.1 quiet.2
  | _ => exact tallies.of_eq rfl rfl

theorem note_aside (tallies : system.Tallies signal) {occurrence : Occurrence}
    (aside : occurrence.IsAside) : (system.record occurrence).Tallies signal := by
  have quiet : occurrence.isRaise (.shared signal) = false ∧
      occurrence.isTake (.shared signal) = false := by
    cases occurrence <;> first | exact ⟨rfl, rfl⟩ | exact aside.elim
  exact tallies.note rfl rfl quiet.1 quiet.2

theorem reaches {conduct : Conduct} {first last : System} (tallies : first.Tallies signal)
    (run : Reaches conduct first last) : last.Tallies signal :=
  run.preserves (motive := Tallies signal) tallies
    (fun kept _ => stride_preserves (kept.apply _) fun index token called =>
      called.apply (.markReady index token))
    fun kept aside => kept.note_aside aside

theorem pending_le (tallies : system.Tallies signal) : system.pending signal ≤ Signal.ceiling :=
  tallies.count ▸ Occurrence.tally_le signal system.history

end Tallies

end System

theorem Setup.tallies (setup : Setup) (signal : Nat) : setup.system.Tallies signal := by
  obtain ⟨backend, made⟩ := setup.signal_eq (.shared signal)
  refine ⟨?_, fun earlier suffix => ?_⟩
  · rw [System.pending, made]
    rfl
  · exact absurd (List.suffix_nil.mp suffix) (List.cons_ne_nil _ _)

end TimedWaits
