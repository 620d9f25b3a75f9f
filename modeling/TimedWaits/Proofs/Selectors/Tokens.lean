import TimedWaits.Proofs.Selectors.Seats

/-! A selector in runs that may call it with any token, by posts or without. It stays what the history
makes of its slots, and no stride but a call of its own can be the call of a free slot. -/

set_option autoImplicit false

namespace TimedWaits

open Seating

/-- Whatever is done leaves it to a selector what it is attached to and how long it lives. -/
def leavesSlots (index : Nat) : Conduct := fun _ command => command.Leaves index

/-- Whether a touch changes nothing about the slots of a selector and says nothing about them. -/
def Touch.Ignores (index : Nat) : Touch → Prop
  | .note occurrence => ¬ occurrence.Concerns index
  | touch => touch.Bypasses index

namespace Touch

variable {touch : Touch} {index : Nat}

private theorem Ignores.bypasses (ignores : touch.Ignores index) : touch.Bypasses index := by
  cases touch with
  | note => trivial
  | _ => exact ignores

private theorem IsPrelude.ignores (before : touch.IsPrelude) (index : Nat) : touch.Ignores index := by
  cases touch with
  | note occurrence => cases occurrence <;> first | exact not_false | exact before.elim
  | alarms | ring => trivial
  | _ => exact before.elim

/-- A touch that says nothing about the slots of a selector notes at most one thing, which is nothing to
the selector. -/
private theorem Ignores.history (ignores : touch.Ignores index) (system : System) :
    (touch.apply system).history = system.history ∨
      ∃ occurrence, ¬ occurrence.Concerns index ∧
        (touch.apply system).history = occurrence :: system.history := by
  cases touch with
  | note occurrence => exact .inr ⟨occurrence, ignores, rfl⟩
  | raise reference => exact .inr ⟨.raised reference, not_false, rfl⟩
  | take reference =>
      simp only [apply, System.take]
      split
      · exact .inl rfl
      · exact .inr ⟨.took reference, not_false, rfl⟩
  | attach signal observer token =>
      simp only [apply, System.attach]
      split
      · exact .inr ⟨.logged .observerRefused, not_false, rfl⟩
      · exact .inl rfl
  | detach signal observer =>
      simp only [apply, System.detach]
      split
      · exact .inl rfl
      · exact .inl rfl
  | _ => exact .inl rfl

end Touch

theorem Command.Leaves.ignores {command : Command} {index : Nat} (leaves : command.Leaves index)
    (silent : ¬ command.IsPost) (elsewhere : command.selector? ≠ some index) {touch : Touch}
    (own : touch.IsOf command) : touch.Ignores index := by
  have bypasses := leaves.bypasses elsewhere own
  cases touch with
  | note occurrence =>
      cases occurrence with
      | watching | unwatched | selected =>
          rintro rfl
          exact elsewhere own
      | slotReady selector token =>
          rintro rfl
          cases own
          exact elsewhere rfl
      | posted reference alarm =>
          cases alarm with
          | none => exact absurd own silent
          | some alarm =>
              obtain ⟨queue, now, rfl⟩ := own
              exact absurd trivial silent
      | _ => exact not_false
  | _ => exact bypasses

/-- A slot of a selector that no signal sits in. -/
def Selector.IsFree (selector : Selector) (slot : Nat) : Prop :=
  slot < selector.capacity ∧ selector.signalAt? slot = none

namespace System

variable {index slot signal token : Nat} {system before middle after : System} {reference : SignalRef}
  {command : Command}

/-- A selector is what the history makes of its slots, and just the signals in them call it. -/
structure Seats (system : System) (index : Nat) : Prop where
  table : (system.selectors.get index).Seats index system.history
  agrees : system.Agrees index

/-- A change after which a selector is what the history makes of its slots. It calls no free slot, and
makes no signal owed. -/
structure Settles (index : Nat) (before after : System) : Prop where
  seats : after.Seats index
  calls : CallsTaken index after.history ↔ CallsTaken index before.history
  owed : ∀ {slot signal}, Owed index slot signal after.history → Owed index slot signal before.history

namespace Settles

theorem andThen (first : Settles index before middle) (second : Settles index middle after) :
    Settles index before after :=
  ⟨second.seats, second.calls.trans first.calls, fun owed => first.owed (second.owed owed)⟩

theorem of_cons {occurrence : Occurrence} (seats : after.Seats index)
    (history : after.history = occurrence :: before.history)
    (unposted : ∀ signal alarm, occurrence ≠ .posted (.shared signal) alarm)
    (uncalled : ∀ slot, occurrence ≠ .slotReady index slot) : Settles index before after := by
  refine ⟨seats, ?_, fun owed => ?_⟩
  · rw [history, callsTaken_cons]
    exact and_iff_right fun slot same => absurd same (uncalled slot)
  · exact Owed.earlier (history ▸ owed) (unposted _) (uncalled _)

end Settles

namespace Seats

variable (seats : system.Seats index)

include seats

theorem refl : Settles index system system := ⟨seats, Iff.rfl, id⟩

theorem touch {touch : Touch} (ignores : touch.Ignores index) :
    Settles index system (touch.apply system) := by
  have table := ignores.bypasses.selectors system
  have agrees := seats.agrees.touch ignores.bypasses
  rcases ignores.history system with same | ⟨occurrence, aside, noted⟩
  · refine ⟨⟨?_, agrees⟩, by rw [same], fun owed => same ▸ owed⟩
    rw [table, same]
    exact seats.table
  · refine .of_cons ⟨?_, agrees⟩ noted ?_ ?_
    · rw [table, noted]
      exact seats.table.skip aside
    · rintro signal alarm rfl
      exact aside trivial
    · rintro slot rfl
      exact aside rfl

theorem touched (touched : Touched (·.Ignores index) system after) : Settles index system after :=
  touched.preserves (motive := Settles index system) seats.refl
    fun ignores settles => settles.andThen (settles.seats.touch ignores)

theorem log (notice : Notice) : Settles index system (system.log notice) := by
  have ignores : (Touch.note (.logged notice)).Ignores index := not_false
  exact seats.touch ignores

private theorem aside {occurrence : Occurrence} (aside : occurrence.IsAside) :
    Settles index system (system.record occurrence) := by
  have ignores : (Touch.note occurrence).Ignores index := by
    cases occurrence <;> first | exact not_false | exact aside.elim
  exact seats.touch ignores

theorem raise (reference : SignalRef) : Settles index system (system.raise reference) := by
  have ignores : (Touch.raise reference).Ignores index := trivial
  exact seats.touch ignores

omit seats in
/-- A signal is attached or detached together with the change of its slot. -/
theorem retable {fresh : Signal} {selector : Selector} {occurrence : Occurrence}
    (table : selector.Seats index (occurrence :: system.history))
    (agrees : ((system.setSignal (.shared signal) fresh).setSelector index selector).Agrees index)
    (unposted : ∀ signal alarm, occurrence ≠ .posted (.shared signal) alarm)
    (uncalled : ∀ slot, occurrence ≠ .slotReady index slot) :
    Settles index system
      (((system.setSignal (.shared signal) fresh).setSelector index selector).record occurrence) := by
  have held := get_setSelector (system.setSignal (.shared signal) fresh) index selector
  have seats : (((system.setSignal (.shared signal) fresh).setSelector index selector).record
      occurrence).Seats index := ⟨held.symm ▸ table, agrees⟩
  exact .of_cons seats rfl unposted uncalled

private theorem watch (signal : Nat) : Settles index system (system.watch index signal).2 := by
  cases found : (system.selectors.get index).freeSlot? with
  | none =>
      simp only [System.watch, found]
      exact seats.refl
  | some slot =>
      cases accepted : (system.signal (.shared signal)).attach? (.selector index) slot with
      | none =>
          simp only [System.watch, System.attach, found, accepted]
          exact seats.log .observerRefused
      | some attached =>
          obtain ⟨within, free⟩ := Selector.freeSlot?_spec found
          have filled := retable (seats.table.fill within free)
            (seats.agrees.fill found accepted) (by rintro _ _ ⟨⟩) (by rintro _ ⟨⟩)
          simp only [System.watch, System.attach, found, accepted]
          exact filled.andThen (filled.seats.log (.slotFilled slot))

private theorem unwatch (signal : Nat) : Settles index system (system.unwatch index signal).2 := by
  cases found : (system.selectors.get index).slotOf? signal with
  | none =>
      simp only [System.unwatch, found]
      exact seats.refl
  | some slot =>
      have filled := Selector.slotOf?_spec found
      have accepted := seats.agrees.detaches filled
      simp only [System.unwatch, System.detach, found, accepted]
      exact retable (seats.table.clear filled) (seats.agrees.clear filled) (by rintro _ _ ⟨⟩)
        (by rintro _ ⟨⟩)

theorem takeReady : Settles index system (system.takeReady index).2 := by
  obtain ⟨-, slots, table⟩ := seats.table.takeReady seats.agrees.single
  obtain ⟨head, held, history, signals⟩ := system.takeReady_parts index
  rw [← held] at slots table
  rw [← head, ← history] at table
  have calls : ∀ reference slot, (system.takeReady index).2.Calls index reference slot ↔
      system.Calls index reference slot := fun reference slot => by
    rw [Calls, System.signal, signals, Calls, System.signal]
  have kept : (system.takeReady index).2.Seats index := ⟨table, seats.agrees.of_same slots calls⟩
  cases taken : (system.takeReady index).1 with
  | none =>
      rw [taken] at history
      have same : (system.takeReady index).2.history = system.history := history
      exact ⟨kept, by rw [same], fun owed => same ▸ owed⟩
  | some signal =>
      rw [taken] at history
      exact .of_cons kept history (by rintro _ _ ⟨⟩) (by rintro _ ⟨⟩)

private theorem takeWakeup : Settles index system (system.takeWakeup index).2 := by
  have ignores : (Touch.take (.selector index)).Ignores index := trivial
  have taken := seats.touch ignores
  exact taken.andThen taken.seats.takeReady

/-- A post that calls a selector for no slot is nothing to it before it calls somebody else. -/
private theorem posted (elsewhere : ∀ slot, ¬ system.Calls index reference slot) (alarm : Option Nat) :
    Settles index system (system.record (.posted reference alarm)) := by
  cases reference with
  | shared signal =>
      have absent : ∀ slot, (system.selectors.get index).signalAt? slot ≠ some signal :=
        fun slot filled => elsewhere slot (seats.agrees.filled_iff.mp filled)
      exact ⟨⟨seats.table.posted_elsewhere absent alarm, seats.agrees⟩,
        callsTaken_cons.trans (and_iff_right fun _ => nofun),
        fun owed => seats.table.owed_posted absent owed⟩
  | selector other =>
      have ignores : (Touch.note (.posted (.selector other) alarm)).Ignores index := not_false
      exact seats.touch ignores
  | worker other =>
      have ignores : (Touch.note (.posted (.worker other) alarm)).Ignores index := not_false
      exact seats.touch ignores

omit seats in
/-- The call of a selector, when the signal in the slot that is called may be owed already. -/
theorem called (agrees : system.Agrees index)
    (holds : (system.selectors.get index).Holds index system.history)
    (almost : ∀ {slot signal}, Owed index slot signal system.history →
      slot ∈ (system.selectors.get index).readySlots ∨ slot = token) :
    (system.markReady index token).Seats index ∧
      (CallsTaken index (system.markReady index token).history ↔
        CallsTaken index system.history ∧ ¬ (system.selectors.get index).IsFree token) ∧
      ∀ {slot signal}, Owed index slot signal (system.markReady index token).history →
        Owed index slot signal system.history ∨
          slot = token ∧ (system.selectors.get index).signalAt? token = some signal := by
  by_cases within : token < (system.selectors.get index).capacity
  · rcases holds.called within almost with ⟨ready, refused, table⟩ | ⟨marked, accepted, slots, table⟩
    · have start : system.Seats index := ⟨table, agrees⟩
      have logged := start.log (.slotAlreadyReady token)
      have raised := logged.andThen (logged.seats.raise (.selector index))
      rw [markReady_of_none within refused]
      refine ⟨raised.seats, raised.calls.trans (and_iff_left_of_imp fun taken free => ?_).symm,
        fun owed => .inl (raised.owed owed)⟩
      obtain ⟨signal, owed⟩ := taken.owed (holds.earned ready)
      cases free.2.symm.trans (holds.filled owed)
    · have held := get_setSelector system index marked
      have same : ((system.setSelector index marked).selectors.get index).slots =
          (system.selectors.get index).slots := held.symm ▸ slots
      have start : ((system.setSelector index marked).record (.slotReady index token)).Seats index :=
        ⟨held.symm ▸ table, agrees.of_same same fun _ _ => Iff.rfl⟩
      have raised := start.raise (.selector index)
      rw [markReady_of_some within accepted]
      refine ⟨raised.seats, raised.calls.trans (callsTaken_cons.trans (and_comm.trans ?_)), fun owed => ?_⟩
      · refine and_congr_right fun _ => ⟨?_, ?_⟩
        · intro taken free
          obtain ⟨signal, sits⟩ := taken token rfl
          cases free.2.symm.trans (holds.sits.mpr sits)
        · rintro taken slot ⟨⟩
          obtain ⟨signal, filled⟩ := Option.ne_none_iff_exists'.mp fun none => taken ⟨within, none⟩
          exact ⟨signal, holds.sits.mp filled⟩
      · rcases owed_cons.mp (raised.owed owed) with ⟨sits, ⟨_, posted⟩ | called⟩ | ⟨before, -⟩
        · cases posted
        · cases called
          exact .inr ⟨rfl, holds.sits.mpr sits⟩
        · exact .inl before
  · have start : system.Seats index := by
      refine ⟨⟨holds, fun {slot signal} owed => (almost owed).resolve_right ?_⟩, agrees⟩
      rintro rfl
      exact within (Selector.lt_capacity_of_signalAt? (holds.filled owed))
    have logged := start.log (.slotUnknown token)
    simp only [System.markReady, if_neg within]
    exact ⟨logged.seats, logged.calls.trans (and_iff_left fun free => within free.1).symm,
      fun owed => .inl (logged.owed owed)⟩

private theorem markReady (token : Nat) :
    (system.markReady index token).Seats index ∧
      (CallsTaken index (system.markReady index token).history ↔
        CallsTaken index system.history ∧ ¬ (system.selectors.get index).IsFree token) ∧
      ∀ {slot signal}, Owed index slot signal (system.markReady index token).history →
        Owed index slot signal system.history ∨
          slot = token ∧ (system.selectors.get index).signalAt? token = some signal :=
  called seats.agrees seats.table.toHolds fun owed => .inl (seats.table.kept owed)

/-- The signal in a slot that is called is owed, also if the slot is ready already. -/
theorem owed_markReady (taken : CallsTaken index system.history)
    (filled : (system.selectors.get index).signalAt? slot = some signal) :
    Owed index slot signal (system.markReady index slot).history := by
  have within := Selector.lt_capacity_of_signalAt? filled
  rcases seats.table.toHolds.called within fun owed => .inl (seats.table.kept owed) with
    ⟨ready, refused, -⟩ | ⟨marked, accepted, -⟩
  · rw [markReady_of_none within refused]
    obtain ⟨other, owed⟩ := taken.owed (seats.table.earned ready)
    cases filled.symm.trans (seats.table.filled owed)
    have logged : Owed index slot signal (.logged (.slotAlreadyReady slot) :: system.history) :=
      owed.cons nofun nofun
    exact logged.cons nofun nofun
  · rw [markReady_of_some within accepted]
    have called : Owed index slot signal (.slotReady index slot :: system.history) :=
      owed_cons.mpr (.inl ⟨seats.table.sits.mp filled, .inr rfl⟩)
    exact called.cons nofun nofun

/-- A post calls the selector for the slot that its signal sits in, or does not call it. It makes no other
signal owed. -/
private theorem post (reference : SignalRef) (alarm : Option Nat) :
    (system.post reference alarm).Seats index ∧
      (CallsTaken index (system.post reference alarm).history ↔ CallsTaken index system.history) ∧
      ∀ {slot signal}, Owed index slot signal (system.post reference alarm).history →
        Owed index slot signal system.history ∨ reference = .shared signal := by
  have others : ∀ {after}, Settles index system after →
      after.Seats index ∧ (CallsTaken index after.history ↔ CallsTaken index system.history) ∧
        ∀ {slot signal}, Owed index slot signal after.history →
          Owed index slot signal system.history ∨ reference = .shared signal :=
    fun settles => ⟨settles.seats, settles.calls, fun owed => .inl (settles.owed owed)⟩
  by_cases own : ∃ slot, system.Calls index reference slot
  · obtain ⟨slot, calls⟩ := own
    obtain ⟨signal, rfl, filled⟩ := (seats.agrees reference slot).mp calls
    let posted := system.record (.posted (.shared signal) alarm)
    have holds : (posted.selectors.get index).Holds index posted.history :=
      seats.table.toHolds.cons (by rintro _ _ ⟨⟩) (by rintro _ _ ⟨⟩) (by rintro _ ⟨⟩)
    have single : ∀ {other held}, Owed index other held posted.history →
        Owed index other held system.history ∨ other = slot ∧ held = signal := by
      intro other held owed
      rcases owed_cons.mp owed with ⟨sits, ⟨_, same⟩ | called⟩ | ⟨before, -⟩
      · cases same
        exact .inr ⟨seats.agrees.single (seats.table.sits.mpr sits) filled, rfl⟩
      · cases called
      · exact .inl before
    have agrees : posted.Agrees index := seats.agrees
    obtain ⟨kept, taken, owes⟩ := called agrees holds fun owed =>
      (single owed).imp seats.table.kept And.left
    have occupied : ¬ (posted.selectors.get index).IsFree slot := by
      rintro ⟨-, none⟩
      cases none.symm.trans filled
    rw [System.post, beginPost_of_some calls]
    refine ⟨kept, taken.trans ((and_iff_left occupied).trans ?_), fun {other held} owed => ?_⟩
    · exact callsTaken_cons.trans (and_iff_right (by rintro _ ⟨⟩))
    · rcases owes owed with before | ⟨-, same⟩
      · rcases single before with before | ⟨-, rfl⟩
        · exact .inl before
        · exact .inr rfl
      · cases filled.symm.trans same
        exact .inr rfl
  · have posted := seats.posted (not_exists.mp own) alarm
    cases attached : (system.signal reference).attachment with
    | none =>
        rw [System.post, beginPost_of_none attached]
        exact others (posted.andThen (posted.seats.raise reference))
    | some attachment =>
        rw [System.post, beginPost_of_some attached]
        obtain ⟨observer, token⟩ := attachment
        cases observer with
        | custom other => exact others posted
        | selector other =>
            have elsewhere : other ≠ index := by
              rintro rfl
              exact own ⟨token, attached⟩
            have leaves : (Command.markReady other token).Leaves index := trivial
            have ignores : ∀ {touch : Touch}, touch.IsOf (.markReady other token) → touch.Ignores index :=
              leaves.ignores not_false fun about => elsewhere (Option.some.inj about)
            exact others (posted.andThen (posted.seats.touched
              (((Command.markReady other token).touched _).mono fun _ => ignores)))

omit seats in
private theorem posted_mem_since {start : System} (continues : system.Continues start)
    (reference : SignalRef)
    (alarm : Option Nat) : .posted reference alarm ∈ (system.post reference alarm).since start := by
  have recorded : (system.record (.posted reference alarm)).Continues start := continues.record _
  have onward : (system.post reference alarm).Continues (system.record (.posted reference alarm)) := by
    have same : System.Continues _ _ := .refl (system.record (.posted reference alarm))
    cases attached : (system.signal reference).attachment with
    | none =>
        rw [System.post, beginPost_of_none attached]
        exact same.record _
    | some attachment =>
        rw [System.post, beginPost_of_some attached]
        obtain ⟨observer, token⟩ := attachment
        cases observer with
        | custom other => exact same
        | selector other => exact same.apply (.markReady other token)
  have begun : (system.record (.posted reference alarm)).since start =
      .posted reference alarm :: system.since start :=
    System.since_eq (congrArg (_ :: ·) continues.since_append.symm)
  rw [recorded.since_trans onward, begun]
  exact List.mem_append_right _ List.mem_cons_self

/-- Every stride leaves the selector what the history makes of its slots. Only a call of the selector
itself may call a free slot, and only that or a post makes a signal owed. -/
theorem stride (allowed : command.Leaves index) :
    (system.stride command).Seats index ∧
      (CallsTaken index (system.stride command).history ↔
        CallsTaken index system.history ∧
          ∀ token, command = .markReady index token → ¬ (system.selectors.get index).IsFree token) ∧
      ∀ {slot signal}, Owed index slot signal (system.stride command).history →
        Owed index slot signal system.history ∨ command = .markReady index slot ∨
          ∃ alarm, .posted (.shared signal) alarm ∈ (system.stride command).since system := by
  have silent : (∀ token, command ≠ .markReady index token) → ∀ {after : System},
      (CallsTaken index after.history ↔ CallsTaken index system.history) →
      (CallsTaken index after.history ↔ CallsTaken index system.history ∧
        ∀ token, command = .markReady index token → ¬ (system.selectors.get index).IsFree token) :=
    fun other _ calls => calls.trans (and_iff_left fun token same => absurd same (other token)).symm
  by_cases post : command.IsPost
  · have other : ∀ token, command ≠ .markReady index token := by
      rintro token rfl
      exact post
    obtain ⟨middle, touched, -, same | ⟨reference, alarm, same⟩⟩ := stride_of_isPost post system
    all_goals
      have begun := seats.touched (touched.mono fun _ before => before.ignores index)
      rw [same]
    · exact ⟨begun.seats, silent other begun.calls, fun owed => .inl (begun.owed owed)⟩
    · obtain ⟨kept, calls, owes⟩ := begun.seats.post reference alarm
      refine ⟨kept, silent other (calls.trans begun.calls), fun {slot signal} owed => ?_⟩
      rcases owes owed with before | rfl
      · exact .inl (begun.owed before)
      · have continues : middle.Continues system :=
          touched.preserves (motive := fun last => last.Continues system) (.refl system)
            fun _ kept => kept.touch _
        exact .inr (.inr ⟨alarm, posted_mem_since continues (.shared signal) alarm⟩)
  · rw [stride_eq_apply post]
    have others : ∀ {after}, Settles index system after → (∀ token, command ≠ .markReady index token) →
        after.Seats index ∧ (CallsTaken index after.history ↔ CallsTaken index system.history ∧
          ∀ token, command = .markReady index token → ¬ (system.selectors.get index).IsFree token) ∧
        ∀ {slot signal}, Owed index slot signal after.history →
          Owed index slot signal system.history ∨ command = .markReady index slot ∨
            ∃ alarm, .posted (.shared signal) alarm ∈ after.since system :=
      fun settles other => ⟨settles.seats, silent other settles.calls, fun owed => .inl (settles.owed owed)⟩
    by_cases about : command.selector? = some index
    · cases command with
      | watch selector signal =>
          cases about
          exact others (seats.watch signal) fun _ => nofun
      | unwatch selector signal =>
          cases about
          exact others (seats.unwatch signal) fun _ => nofun
      | takeReady selector =>
          cases about
          exact others seats.takeReady fun _ => nofun
      | takeWakeup selector =>
          cases about
          exact others seats.takeWakeup fun _ => nofun
      | markReady selector token =>
          cases about
          obtain ⟨kept, taken, owes⟩ := seats.markReady token
          refine ⟨kept, taken.trans (and_congr_right fun _ => ⟨?_, fun taken => taken token rfl⟩), ?_⟩
          · rintro taken _ ⟨⟩
            exact taken
          · intro slot signal owed
            rcases owes owed with before | ⟨rfl, -⟩
            · exact .inl before
            · exact .inr (.inl rfl)
      | createSelector | dropSelector =>
          cases about
          exact absurd rfl allowed
      | _ => cases about
    · have touched := (command.touched system).mono fun _ => allowed.ignores post about
      refine others (seats.touched touched) ?_
      rintro token rfl
      exact about rfl

omit seats in
theorem reaches {first last : System} (seats : first.Seats index)
    (run : Reaches (leavesSlots index) first last) : last.Seats index :=
  run.preserves (motive := fun system => system.Seats index) seats
    (fun kept leaves => (kept.stride leaves).1) fun kept aside => (kept.aside aside).seats

end Seats

end System

theorem Setup.seats (setup : Setup) (index : Nat) : setup.system.Seats index := by
  obtain ⟨loose, empty⟩ := setup.selector_fresh index
  have stands := Selector.StandsFor.of_empty loose empty
  have unready : (setup.system.selectors.get index).readySlots = [] :=
    List.forall₂_nil_right_iff.mp stands.ready
  refine ⟨⟨⟨stands.queues, ?_, ?_⟩, fun owed => (not_owed_nil owed).elim⟩, setup.agrees index⟩
  · intro slot signal
    rw [empty]
    exact iff_of_false nofun not_sits_nil
  · intro slot ready
    rw [unready] at ready
    cases ready

end TimedWaits
