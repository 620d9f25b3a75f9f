import TimedWaits.Proofs.Selectors.Runs

/-! What a selector makes of calls with any token. The history says which signal sits in which slot, and
which of them are owed to the users of the selector: those that were posted, or whose slot was called,
while they sat in it. A slot that is called while it is free is ready without a signal. It stays so when a
signal is put into it, and then that signal is ready without being owed. -/

set_option autoImplicit false

namespace TimedWaits

/-- Something started at some point of a history, which has the latest occurrence first, and nothing has
stopped it since. -/
def Since (starts : Occurrence → List Occurrence → Prop) (stops : Occurrence → Prop)
    (history : List Occurrence) : Prop :=
  ∃ recent start earlier, history = recent ++ start :: earlier ∧ starts start earlier ∧
    ∀ occurrence ∈ recent, ¬ stops occurrence

namespace Since

variable {starts : Occurrence → List Occurrence → Prop} {stops : Occurrence → Prop}
  {occurrence : Occurrence} {history : List Occurrence}

theorem not_nil : ¬ Since starts stops [] := by
  rintro ⟨recent, start, earlier, split, -⟩
  exact List.append_ne_nil_of_right_ne_nil recent (List.cons_ne_nil _ _) split.symm

theorem cons_iff : Since starts stops (occurrence :: history) ↔
    starts occurrence history ∨ Since starts stops history ∧ ¬ stops occurrence := by
  constructor
  · rintro ⟨recent, start, earlier, split, begun, runs⟩
    cases recent with
    | nil =>
        obtain ⟨rfl, rfl⟩ := List.cons.inj split
        exact .inl begun
    | cons first recent =>
        obtain ⟨rfl, rfl⟩ := List.cons.inj split
        exact .inr ⟨⟨recent, start, earlier, rfl, begun, fun other member =>
          runs other (List.mem_cons_of_mem _ member)⟩, runs _ List.mem_cons_self⟩
  · rintro (begun | ⟨⟨recent, start, earlier, rfl, begun, runs⟩, stays⟩)
    · exact ⟨[], occurrence, history, rfl, begun, fun _ member => (List.not_mem_nil member).elim⟩
    · exact ⟨occurrence :: recent, start, earlier, rfl, begun, List.forall_mem_cons.mpr ⟨stays, runs⟩⟩

/-- What holds at the start, and is kept by whatever does not stop it, holds at the end. -/
theorem preserves {motive : List Occurrence → Prop} (since : Since starts stops history)
    (begins : ∀ {occurrence history}, starts occurrence history → motive (occurrence :: history))
    (keeps : ∀ {occurrence history}, ¬ stops occurrence → motive history →
      motive (occurrence :: history)) : motive history := by
  induction history with
  | nil => exact (not_nil since).elim
  | cons occurrence history ih =>
      rcases cons_iff.mp since with begun | ⟨before, stays⟩
      · exact begins begun
      · exact keeps stays (ih before)

end Since

/-! ### Slots in a history -/

/-- Whether an occurrence may say something about the slots of a selector. -/
def Occurrence.Concerns (index : Nat) : Occurrence → Prop
  | .watching selector _ _ | .unwatched selector _ _ | .selected selector _ | .slotReady selector _ =>
    selector = index
  | .posted (.shared _) _ => True
  | _ => False

namespace Seating

variable {index slot signal : Nat} {occurrence : Occurrence} {history : List Occurrence}

/-- A signal was put into a slot of a selector and has not been removed since. -/
def Sits (index slot signal : Nat) : List Occurrence → Prop :=
  Since (fun occurrence _ => occurrence = .watching index slot signal)
    (· = .unwatched index slot signal)

/-- A signal that sat in a slot was posted, or the slot was called, and since then the signal was neither
given nor removed. -/
def Owed (index slot signal : Nat) : List Occurrence → Prop :=
  Since (fun occurrence earlier => Sits index slot signal earlier ∧
      ((∃ alarm, occurrence = .posted (.shared signal) alarm) ∨ occurrence = .slotReady index slot))
    fun occurrence => occurrence = .selected index signal ∨ occurrence = .unwatched index slot signal

/-- A slot was called while it was free, and no signal was put into it since. -/
def CalledFree (index slot : Nat) : List Occurrence → Prop :=
  Since (fun occurrence earlier => occurrence = .slotReady index slot ∧
      ∀ signal, ¬ Sits index slot signal earlier)
    fun occurrence => ∃ signal, occurrence = .watching index slot signal

/-- A signal was put into a slot that had been called while it was free, and since then the signal was
neither given nor removed. -/
def Inherits (index slot signal : Nat) : List Occurrence → Prop :=
  Since (fun occurrence earlier => occurrence = .watching index slot signal ∧
      CalledFree index slot earlier)
    fun occurrence => occurrence = .selected index signal ∨ occurrence = .unwatched index slot signal

/-- Why a slot may be ready. -/
def Earned (index slot : Nat) (history : List Occurrence) : Prop :=
  CalledFree index slot history ∨
    ∃ signal, Owed index slot signal history ∨ Inherits index slot signal history

/-- No slot of a selector was called while it was free. -/
def CallsTaken (index : Nat) (history : List Occurrence) : Prop :=
  ∀ recent slot earlier, history = recent ++ .slotReady index slot :: earlier →
    ∃ signal, Sits index slot signal earlier

theorem not_sits_nil : ¬ Sits index slot signal [] := Since.not_nil

theorem not_owed_nil : ¬ Owed index slot signal [] := Since.not_nil

theorem sits_cons : Sits index slot signal (occurrence :: history) ↔
    occurrence = .watching index slot signal ∨
      Sits index slot signal history ∧ occurrence ≠ .unwatched index slot signal := Since.cons_iff

theorem owed_cons : Owed index slot signal (occurrence :: history) ↔
    Sits index slot signal history ∧
        ((∃ alarm, occurrence = .posted (.shared signal) alarm) ∨ occurrence = .slotReady index slot) ∨
      Owed index slot signal history ∧
        ¬ (occurrence = .selected index signal ∨ occurrence = .unwatched index slot signal) :=
  Since.cons_iff

theorem callsTaken_nil : CallsTaken index [] := by
  rintro recent slot earlier split
  exact absurd split.symm (List.append_ne_nil_of_right_ne_nil recent (List.cons_ne_nil _ _))

theorem callsTaken_cons : CallsTaken index (occurrence :: history) ↔
    (∀ slot, occurrence = .slotReady index slot → ∃ signal, Sits index slot signal history) ∧
      CallsTaken index history := by
  constructor
  · intro taken
    refine ⟨?_, fun recent slot earlier split => taken (occurrence :: recent) slot earlier ?_⟩
    · rintro slot rfl
      exact taken [] slot history rfl
    · rw [split, List.cons_append]
  · rintro ⟨latest, taken⟩ recent slot earlier split
    cases recent with
    | nil =>
        obtain ⟨rfl, rfl⟩ := List.cons.inj split
        exact latest slot rfl
    | cons _ recent => exact taken recent slot earlier (List.cons.inj split).2

private theorem CallsTaken.earlier {recent : List Occurrence}
    (taken : CallsTaken index (recent ++ history)) :
    CallsTaken index history := by
  intro between slot earlier split
  refine taken (recent ++ between) slot earlier ?_
  rw [split, List.append_assoc]

theorem Owed.sits (owed : Owed index slot signal history) : Sits index slot signal history := by
  refine Since.preserves owed ?_ ?_
  · rintro occurrence history ⟨sits, ⟨alarm, rfl⟩ | rfl⟩
    · exact sits_cons.mpr (.inr ⟨sits, nofun⟩)
    · exact sits_cons.mpr (.inr ⟨sits, nofun⟩)
  · intro occurrence history stays sits
    exact sits_cons.mpr (.inr ⟨sits, (not_or.mp stays).2⟩)

theorem Inherits.sits (inherits : Inherits index slot signal history) :
    Sits index slot signal history := by
  refine Since.preserves inherits ?_ ?_
  · rintro occurrence history ⟨rfl, -⟩
    exact sits_cons.mpr (.inl rfl)
  · intro occurrence history stays sits
    exact sits_cons.mpr (.inr ⟨sits, (not_or.mp stays).2⟩)

theorem Owed.earlier (owed : Owed index slot signal (occurrence :: history))
    (unposted : ∀ alarm, occurrence ≠ .posted (.shared signal) alarm)
    (uncalled : occurrence ≠ .slotReady index slot) : Owed index slot signal history := by
  rcases owed_cons.mp owed with ⟨-, ⟨alarm, posted⟩ | called⟩ | ⟨before, -⟩
  · exact absurd posted (unposted alarm)
  · exact absurd called uncalled
  · exact before

theorem Owed.cons (owed : Owed index slot signal history)
    (unselected : occurrence ≠ .selected index signal)
    (stays : occurrence ≠ .unwatched index slot signal) :
    Owed index slot signal (occurrence :: history) :=
  owed_cons.mpr (.inr ⟨owed, not_or.mpr ⟨unselected, stays⟩⟩)

/-- A slot stays ready for the reason that it had, unless it gets or loses a signal or its signal is
given. -/
theorem Earned.cons (earned : Earned index slot history)
    (unfilled : ∀ signal, occurrence ≠ .watching index slot signal)
    (stays : ∀ signal, Sits index slot signal history →
      occurrence ≠ .selected index signal ∧ occurrence ≠ .unwatched index slot signal) :
    Earned index slot (occurrence :: history) := by
  rcases earned with early | ⟨signal, owed | inherits⟩
  · exact .inl (Since.cons_iff.mpr (.inr ⟨early, not_exists.mpr unfilled⟩))
  · exact .inr ⟨signal, .inl (owed.cons (stays signal owed.sits).1 (stays signal owed.sits).2)⟩
  · exact .inr ⟨signal, .inr (Since.cons_iff.mpr
      (.inr ⟨inherits, not_or.mpr (stays signal inherits.sits)⟩))⟩

theorem CalledFree.free (early : CalledFree index slot history) (signal : Nat) :
    ¬ Sits index slot signal history := by
  refine Since.preserves (motive := fun history => ¬ Sits index slot signal history) early ?_ ?_
  · rintro occurrence history ⟨rfl, free⟩ sits
    rcases sits_cons.mp sits with filled | ⟨before, -⟩
    · cases filled
    · exact free signal before
  · intro occurrence history unfilled free sits
    rcases sits_cons.mp sits with filled | ⟨before, -⟩
    · exact unfilled ⟨signal, filled⟩
    · exact free before

namespace CallsTaken

variable (taken : CallsTaken index history)

include taken

theorem not_calledFree : ¬ CalledFree index slot history := by
  rintro ⟨recent, start, earlier, rfl, ⟨rfl, free⟩, -⟩
  obtain ⟨signal, sits⟩ := taken recent slot earlier rfl
  exact free signal sits

theorem not_inherits : ¬ Inherits index slot signal history := by
  rintro ⟨recent, start, earlier, rfl, ⟨-, early⟩, -⟩
  exact (callsTaken_cons.mp taken.earlier).2.not_calledFree early

/-- A slot that is ready is ready for a signal that is owed. -/
theorem owed (earned : Earned index slot history) : ∃ signal, Owed index slot signal history := by
  rcases earned with early | ⟨signal, owed | inherits⟩
  · exact absurd early taken.not_calledFree
  · exact ⟨signal, owed⟩
  · exact absurd inherits taken.not_inherits

end CallsTaken

end Seating

/-! ### Tables -/

open Seating

namespace Selector

variable {selector : Selector} {index slot signal : Nat} {slots : List Nat} {occurrence : Occurrence}
  {history : List Occurrence}

/-- The signals of a table sit in its slots by a history, which has a reason for each slot that is
ready. -/
structure Holds (selector : Selector) (index : Nat) (history : List Occurrence) : Prop where
  queues : selector.Queues selector.readySlots
  sits : ∀ {slot signal}, selector.signalAt? slot = some signal ↔ Sits index slot signal history
  earned : ∀ {slot}, slot ∈ selector.readySlots → Earned index slot history

/-- Besides, the slots of the signals that are owed are ready. -/
structure Seats (selector : Selector) (index : Nat) (history : List Occurrence) : Prop
    extends selector.Holds index history where
  kept : ∀ {slot signal}, Owed index slot signal history → slot ∈ selector.readySlots

namespace Holds

variable (holds : selector.Holds index history)

include holds

theorem nodup : selector.readySlots.Nodup := by
  have nodup := holds.queues.nodup readyList
  rwa [Function.update_self] at nodup

theorem filled (owed : Owed index slot signal history) : selector.signalAt? slot = some signal :=
  holds.sits.mpr owed.sits

theorem cons (unfilled : ∀ slot signal, occurrence ≠ .watching index slot signal)
    (unemptied : ∀ slot signal, occurrence ≠ .unwatched index slot signal)
    (unselected : ∀ signal, occurrence ≠ .selected index signal) :
    selector.Holds index (occurrence :: history) := by
  refine ⟨holds.queues, ?_, fun ready => ?_⟩
  · intro slot signal
    rw [sits_cons, holds.sits, or_iff_right (unfilled slot signal), and_iff_left (unemptied slot signal)]
  · exact (holds.earned ready).cons (unfilled _) fun signal _ => ⟨unselected signal, unemptied _ signal⟩

theorem owed_posted {other : Nat} {alarm : Option Nat}
    (elsewhere : ∀ slot, selector.signalAt? slot ≠ some signal)
    (owed : Owed index slot other (.posted (.shared signal) alarm :: history)) :
    Owed index slot other history := by
  rcases owed_cons.mp owed with ⟨sits, ⟨_, same⟩ | called⟩ | ⟨before, -⟩
  · cases same
    exact absurd (holds.sits.mpr sits) (elsewhere slot)
  · cases called
  · exact before

/-- A slot is called with the token of its own: it is ready already, or becomes so. The signal that sits
in it may be owed by then, as it is when a post calls the slot. -/
theorem called (within : slot < selector.capacity)
    (almost : ∀ {other signal}, Owed index other signal history →
      other ∈ selector.readySlots ∨ other = slot) :
    slot ∈ selector.readySlots ∧ selector.markReady? slot = none ∧ selector.Seats index history ∨
      ∃ marked, selector.markReady? slot = some marked ∧ marked.slots = selector.slots ∧
        marked.Seats index (.slotReady index slot :: history) := by
  by_cases ready : slot ∈ selector.readySlots
  · refine .inl ⟨ready, holds.queues.markReady?_eq_none ready, holds, fun owed => ?_⟩
    rcases almost owed with member | rfl
    · exact member
    · exact ready
  · obtain ⟨list, accepted, queues⟩ := holds.queues.markReady? ready
    have later : selector.Holds index (.slotReady index slot :: history) :=
      holds.cons (fun _ _ => nofun) (fun _ _ => nofun) fun _ => nofun
    have same := queues.readySlots_eq
    refine .inr ⟨_, accepted, rfl, ⟨same.symm ▸ queues, later.sits, fun {other} member => ?_⟩,
      fun {other signal} owed => ?_⟩
    · rw [same] at member
      rcases List.mem_append.mp member with member | last
      · exact later.earned member
      · cases List.mem_singleton.mp last
        cases held : selector.signalAt? slot with
        | some signal =>
            exact .inr ⟨signal, .inl (owed_cons.mpr (.inl ⟨holds.sits.mp held, .inr rfl⟩))⟩
        | none =>
            refine .inl (Since.cons_iff.mpr (.inl ⟨rfl, fun signal sits => ?_⟩))
            cases held.symm.trans (holds.sits.mpr sits)
    · rw [same, List.mem_append, List.mem_singleton]
      rcases owed_cons.mp owed with ⟨-, ⟨_, posted⟩ | called⟩ | ⟨before, -⟩
      · cases posted
      · cases called
        exact .inr rfl
      · exact almost before

end Holds

namespace Seats

theorem of_queues (queues : selector.Queues slots)
    (sits : ∀ {slot signal}, selector.signalAt? slot = some signal ↔ Sits index slot signal history)
    (kept : ∀ {slot signal}, Owed index slot signal history → slot ∈ slots)
    (earned : ∀ {slot}, slot ∈ slots → Earned index slot history) : selector.Seats index history := by
  have same := queues.readySlots_eq
  exact ⟨⟨same ▸ queues, sits, same ▸ earned⟩, same ▸ kept⟩

variable (seats : selector.Seats index history)

include seats

/-- What says nothing about the slots changes nothing. -/
theorem skip (aside : ¬ occurrence.Concerns index) : selector.Seats index (occurrence :: history) := by
  have apart : ∀ other : Occurrence, other.Concerns index → occurrence ≠ other := by
    rintro _ concerns rfl
    exact aside concerns
  refine ⟨seats.toHolds.cons (fun _ _ => apart _ rfl) (fun _ _ => apart _ rfl) fun _ => apart _ rfl, ?_⟩
  exact fun owed => seats.kept (owed.earlier (fun _ => apart _ trivial) (apart _ rfl))

/-- A post of a signal that sits in no slot is nothing to the selector. -/
theorem posted_elsewhere (elsewhere : ∀ slot, selector.signalAt? slot ≠ some signal)
    (alarm : Option Nat) : selector.Seats index (.posted (.shared signal) alarm :: history) :=
  ⟨seats.toHolds.cons (fun _ _ => nofun) (fun _ _ => nofun) fun _ => nofun,
    fun owed => seats.kept (seats.owed_posted elsewhere owed)⟩

/-- A signal that is put into a free slot is not owed, but inherits an earlier call of the slot. -/
theorem fill (within : slot < selector.capacity) (free : selector.signalAt? slot = none) :
    (selector.fill slot signal).Seats index (.watching index slot signal :: history) := by
  have queues : (selector.fill slot signal).Queues selector.readySlots := seats.queues
  have empty : ∀ held, ¬ Sits index slot held history := by
    intro held sits
    rw [seats.sits.mpr sits] at free
    cases free
  refine of_queues queues ?_ (fun owed => ?_) fun {other} ready => ?_
  · intro other held
    rw [signalAt?_fill_eq_some within free, seats.sits, sits_cons]
    refine or_congr ⟨?_, ?_⟩ (and_iff_left nofun).symm
    · rintro ⟨rfl, rfl⟩
      rfl
    · rintro ⟨⟩
      exact ⟨rfl, rfl⟩
  · exact seats.kept (owed.earlier (fun _ => nofun) nofun)
  · have earned := seats.earned ready
    by_cases same : other = slot
    · subst same
      rcases earned with early | ⟨held, owed | inherits⟩
      · exact .inr ⟨signal, .inr (Since.cons_iff.mpr (.inl ⟨rfl, early⟩))⟩
      · exact absurd owed.sits (empty held)
      · exact absurd inherits.sits (empty held)
    · refine earned.cons ?_ fun _ _ => ⟨nofun, nofun⟩
      rintro held ⟨⟩
      exact same rfl

/-- A slot that is cleared is not ready any more, whatever it was ready for. -/
theorem clear (filled : selector.signalAt? slot = some signal) :
    (selector.clear slot).Seats index (.unwatched index slot signal :: history) := by
  refine of_queues (seats.queues.clear slot) ?_ (fun {other held} owed => ?_) fun {other} ready => ?_
  · intro other held
    rw [signalAt?_clear_eq_some, seats.sits, sits_cons, or_iff_right nofun,
      @and_comm (other ≠ slot)]
    refine and_congr_right fun sits => not_congr ⟨?_, ?_⟩
    · rintro rfl
      cases filled.symm.trans (seats.sits.mpr sits)
      rfl
    · rintro ⟨⟩
      rfl
  · rcases owed_cons.mp owed with ⟨-, ⟨_, posted⟩ | called⟩ | ⟨before, stays⟩
    · cases posted
    · cases called
    · refine (List.mem_erase_of_ne ?_).mpr (seats.kept before)
      rintro rfl
      cases filled.symm.trans (seats.filled before)
      exact stays (.inr rfl)
  · obtain ⟨apart, listed⟩ := seats.nodup.mem_erase_iff.mp ready
    refine (seats.earned listed).cons (fun _ => nofun) fun held _ => ⟨nofun, ?_⟩
    rintro ⟨⟩
    exact apart rfl

/-- The first slot is taken, and if a signal sits in it, that one is given. -/
theorem takeReady (single : ∀ {slot other signal}, selector.signalAt? slot = some signal →
      selector.signalAt? other = some signal → slot = other) :
    selector.takeReady.1 = selector.readySlots.head?.bind selector.signalAt? ∧
      selector.takeReady.2.slots = selector.slots ∧
      selector.takeReady.2.Seats index
        ((selector.takeReady.1.map (Occurrence.selected index)).toList ++ history) := by
  cases contents : selector.readySlots with
  | nil =>
      have queues := seats.queues
      rw [contents] at queues
      rw [queues.takeReady_nil]
      exact ⟨rfl, rfl, seats⟩
  | cons slot rest =>
      have queues := seats.queues
      have nodup := seats.nodup
      rw [contents] at queues nodup
      obtain ⟨absent, -⟩ := List.nodup_cons.mp nodup
      obtain ⟨ready, taken, queues⟩ := queues.takeReady_cons
      have earned : ∀ {other}, other ∈ rest → Earned index other history :=
        fun member => seats.earned (contents ▸ List.mem_cons_of_mem slot member)
      rw [taken]
      refine ⟨rfl, rfl, ?_⟩
      cases held : selector.signalAt? slot with
      | none =>
          refine of_queues queues seats.sits (fun {other signal} owed => ?_) earned
          rcases List.mem_cons.mp (contents ▸ seats.kept owed) with rfl | member
          · cases held.symm.trans (seats.filled owed)
          · exact member
      | some first =>
          refine of_queues queues ?_ (fun {other signal} owed => ?_) fun {other} member => ?_
          · intro other signal
            refine seats.sits.trans (Iff.symm ?_)
            exact sits_cons.trans (by simp)
          · rcases owed_cons.mp owed with ⟨-, ⟨_, posted⟩ | called⟩ | ⟨before, stays⟩
            · cases posted
            · cases called
            · rcases List.mem_cons.mp (contents ▸ seats.kept before) with rfl | member
              · cases held.symm.trans (seats.filled before)
                exact absurd (.inl rfl) stays
              · exact member
          · refine (earned member).cons (fun _ => nofun) fun signal sits => ⟨?_, nofun⟩
            rintro ⟨⟩
            exact absent (single (seats.sits.mpr sits) held ▸ member)

end Seats

end Selector

end TimedWaits
