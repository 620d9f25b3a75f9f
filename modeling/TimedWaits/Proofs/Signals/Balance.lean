import TimedWaits.Proofs.Runs.Surroundings

/-! The count of a shared signal and what the history says about it. Below the ceiling a raise adds one
and a take removes one, so the count with all takes, less all raises, is the same at all times. -/

set_option autoImplicit false

namespace TimedWaits

namespace Occurrence

def isRaise (reference : SignalRef) : Occurrence → Bool
  | .raised other => other = reference
  | _ => false

def isTake (reference : SignalRef) : Occurrence → Bool
  | .took other => other = reference
  | _ => false

end Occurrence

namespace System

variable {system : System} {signal : Nat}

def pending (system : System) (signal : Nat) : Nat := (system.signal (.shared signal)).pending

/-- What the count of a signal and the takes of it exceed the raises by. -/
def excess (system : System) (signal : Nat) : Int :=
  system.pending signal + system.history.countP (Occurrence.isTake (.shared signal)) -
    system.history.countP (Occurrence.isRaise (.shared signal))

theorem pending_setSignal_of_ne {reference : SignalRef} (differ : reference ≠ .shared signal)
    (fresh : Signal) : (system.setSignal reference fresh).pending signal = system.pending signal := by
  rw [pending, signal_setSignal, if_neg differ.symm, pending]

theorem pending_raise_ne_zero (system : System) (signal : Nat) :
    (system.raise (.shared signal)).pending signal ≠ 0 := by
  rw [pending, signal_raise]
  exact Nat.ne_of_gt (Nat.le_min.mpr ⟨Nat.succ_pos _, by decide⟩)

/-- Two systems agree on the count of a signal, and on what the count exceeds. -/
structure Alike (signal : Nat) (before after : System) : Prop where
  pending : after.pending signal = before.pending signal
  excess : after.excess signal = before.excess signal

namespace Alike

variable {before after : System}

theorem of_eq (pending : after.pending signal = before.pending signal)
    (history : after.history = before.history) : Alike signal before after :=
  ⟨pending, by rw [System.excess, System.excess, pending, history]⟩

theorem record (alike : Alike signal before after) (occurrence : Occurrence)
    (raise : occurrence.isRaise (.shared signal) = false)
    (take : occurrence.isTake (.shared signal) = false) :
    Alike signal before (after.record occurrence) := by
  refine ⟨alike.pending, Eq.trans ?_ alike.excess⟩
  have history : (after.record occurrence).history = occurrence :: after.history := rfl
  rw [System.excess, history, List.countP_cons_of_neg (by simp [take]),
    List.countP_cons_of_neg (by simp [raise])]
  rfl

private theorem trans {middle : System} (first : Alike signal before middle)
    (second : Alike signal middle after) : Alike signal before after :=
  ⟨second.pending.trans first.pending, second.excess.trans first.excess⟩

theorem raise {reference : SignalRef} (differ : reference ≠ .shared signal) :
    Alike signal system (system.raise reference) :=
  record (of_eq (pending_setSignal_of_ne differ _) rfl) (.raised reference)
    (by simp [Occurrence.isRaise, differ]) rfl

theorem take {reference : SignalRef} (differ : reference ≠ .shared signal) :
    Alike signal system (system.take reference).2 := by
  unfold System.take
  split
  · exact of_eq rfl rfl
  · exact record (of_eq (pending_setSignal_of_ne differ _) rfl) (.took reference) rfl
      (by simp [Occurrence.isTake, differ])

theorem setAttachment (index : Nat) (attachment : Option Attachment) :
    Alike signal system (system.setSignal (.shared index)
      { system.signal (.shared index) with attachment }) := by
  refine of_eq ?_ rfl
  rw [System.pending, signal_setSignal]
  split
  · next same => rw [System.pending, same]
  · rfl

theorem attach (index : Nat) (observer : Observer) (token : Nat) :
    Alike signal system (system.attach index observer token).2 := by
  unfold System.attach
  split
  · exact record (of_eq rfl rfl) (.logged .observerRefused) rfl rfl
  · next attached accepted =>
    rw [(Signal.attach?_eq_some accepted).2]
    exact setAttachment index _

theorem detach (index : Nat) (observer : Observer) :
    Alike signal system (system.detach index observer).2 := by
  unfold System.detach
  split
  · exact of_eq rfl rfl
  · next detached accepted =>
    rw [(Signal.detach?_eq_some accepted).2]
    exact setAttachment index none

end Alike

private theorem excess_raise (below : (system.raise (.shared signal)).pending signal < Signal.ceiling) :
    system.pending signal < Signal.ceiling ∧
      (system.raise (.shared signal)).excess signal = system.excess signal := by
  have raised : (system.raise (.shared signal)).pending signal =
      min (system.pending signal + 1) Signal.ceiling := by
    change ((system.setSignal _ _).signal (.shared signal)).pending = _
    rw [signal_setSignal, if_pos rfl]
    rfl
  have history : (system.raise (.shared signal)).history =
      .raised (.shared signal) :: system.history := rfl
  rw [raised] at below
  refine ⟨by omega, ?_⟩
  rw [excess, raised, history, List.countP_cons_of_neg (by simp [Occurrence.isTake]),
    List.countP_cons_of_pos (by simp [Occurrence.isRaise]), excess]
  omega

theorem take_of_pending (some : system.pending signal ≠ 0) :
    ∃ taken, system.take (.shared signal) = (true, taken) ∧
      taken.pending signal + 1 = system.pending signal ∧
      taken.history = .took (.shared signal) :: system.history :=
  (system.take_cases (.shared signal)).resolve_left fun none => some none.1

theorem excess_take : (system.take (.shared signal)).2.excess signal = system.excess signal := by
  by_cases some : system.pending signal = 0
  · have refused : (system.signal (.shared signal)).take? = none := if_pos some
    rw [take, refused]
  · obtain ⟨taken, applied, pending, history⟩ := take_of_pending some
    rw [applied]
    change taken.excess signal = system.excess signal
    rw [excess, history, List.countP_cons_of_pos (by simp [Occurrence.isTake]),
      List.countP_cons_of_neg (by simp [Occurrence.isRaise]), excess]
    omega

end System

namespace Command

variable {signal : Nat} {system : System}

/-- A command that takes nothing changes the excess only if it meets the ceiling. -/
private theorem excess_apply_of_touched {command : Command} (other : command ≠ .take (.shared signal))
    (below : (command.apply system).2.pending signal < Signal.ceiling) :
    (command.apply system).2.excess signal = system.excess signal := by
  -- The bound is on the count at the end; a raise is the only touch that changes it, and it passes the
  -- bound on to the count before.
  refine (command.touched system).preserves (motive := fun last =>
    last.pending signal < Signal.ceiling → last.excess signal = system.excess signal)
    (fun _ => rfl) ?_ below
  intro last touch own before below
  have alike : System.Alike signal last (touch.apply last) →
      (touch.apply last).excess signal = system.excess signal := by
    intro alike
    rw [alike.excess]
    exact before (alike.pending ▸ below)
  cases touch with
  | raise reference =>
      by_cases same : reference = .shared signal
      · subst same
        obtain ⟨belowBefore, excess⟩ := System.excess_raise below
        exact excess.trans (before belowBefore)
      · exact alike (.raise same)
  | take reference =>
      have differ : reference ≠ .shared signal := by
        rintro rfl
        exact own.elim other False.elim
      exact alike (.take differ)
  | renew reference fresh =>
      have differ : reference ≠ .shared signal := by
        rintro rfl
        exact own.1
      exact alike (.of_eq (System.pending_setSignal_of_ne differ fresh) rfl)
  | attach index observer token => exact alike (.attach index observer token)
  | detach index observer => exact alike (.detach index observer)
  | note occurrence =>
      have quiet : occurrence.isRaise (.shared signal) = false ∧
          occurrence.isTake (.shared signal) = false := by
        cases occurrence <;> first | exact ⟨rfl, rfl⟩ | exact own.elim
      exact alike (.record (.of_eq rfl rfl) occurrence quiet.1 quiet.2)
  | _ => exact alike (.of_eq rfl rfl)

/-- Below the ceiling every raise and every take of a signal shows in its count. -/
theorem excess_apply (command : Command) (system : System)
    (below : (command.apply system).2.pending signal < Signal.ceiling) :
    (command.apply system).2.excess signal = system.excess signal := by
  by_cases taking : command = .take (.shared signal)
  · subst taking
    exact System.excess_take
  · exact excess_apply_of_touched taking below

end Command

namespace System

variable {signal : Nat} {system : System}

theorem Alike.markReady (signal : Nat) (system : System) (index token : Nat) :
    Alike signal system (system.markReady index token) := by
  have hidden : SignalRef.selector index ≠ .shared signal := fun same => nomatch same
  have start : Alike signal system system := .of_eq rfl rfl
  simp only [System.markReady]
  split
  · split
    · exact (start.record (.logged (.slotAlreadyReady token)) rfl rfl).trans (.raise hidden)
    · next marked _ =>
      have ready : Alike signal system (system.setSelector index marked) := .of_eq rfl rfl
      exact (ready.record (.slotReady index token) rfl rfl).trans (.raise hidden)
  · exact start.record (.logged (.slotUnknown token)) rfl rfl

theorem excess_stride (command : Command)
    (below : (system.stride command).pending signal < Signal.ceiling) :
    (system.stride command).excess signal = system.excess signal := by
  rcases system.stride_cases command with same | ⟨index, token, -, same⟩
  · rw [same] at below ⊢
    exact command.excess_apply system below
  · have called := Alike.markReady signal (command.apply system).2 index token
    change System.stride system command = System.markReady _ index token at same
    rw [same, called.pending] at below
    rw [same, called.excess]
    exact command.excess_apply system below

end System

end TimedWaits
