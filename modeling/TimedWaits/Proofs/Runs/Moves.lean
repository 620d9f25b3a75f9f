import TimedWaits.Scenario.Report
import TimedWaits.Proofs.Alarms.Run
import TimedWaits.Proofs.Runs.Script
import TimedWaits.Proofs.Runs.Touches

/-! Runs of a system in strides. A post that finds a selector attached is followed by the call of that
selector before anything else can happen, so the two make one stride. What others do while an activity
waits for them is a run in strides of its own. -/

set_option autoImplicit false

namespace TimedWaits

/-- The observer that is left to be called after a command. -/
def Command.call? : (command : Command) → command.Reply → Option Attachment
  | .beginPost _, reply => reply
  | .fireFirst _ _, reply => reply.bind (·.attachment)
  | .store _ _, reply => reply.attachment
  | _, _ => none

/-- Calls an observer if it is a selector. -/
def System.callSelector (system : System) : Option Attachment → System
  | some { observer := .selector index, token } => system.markReady index token
  | _ => system

/-- Applies a command, and calls the selector whose call comes of it, if any. -/
def System.stride (system : System) (command : Command) : System :=
  (command.apply system).2.callSelector (command.call? (command.apply system).1)

/-- An occurrence that the surroundings note beside the commands. -/
def Occurrence.IsAside : Occurrence → Prop
  | .blocked _ | .slept _ _ | .rearmed _ _ | .observerCalled _ _ | .executed _ | .ended _ _
  | .unused _ => True
  | _ => False

theorem Occurrence.IsAside.isReport {occurrence : Occurrence} (aside : occurrence.IsAside) :
    occurrence.IsReport := by
  cases occurrence <;> first | exact ⟨rfl, rfl⟩ | exact aside.elim

theorem System.ledger_record {occurrence : Occurrence} (aside : occurrence.IsAside) (system : System) :
    (system.record occurrence).ledger = system.ledger :=
  congrArg Timing.ledger (timing_record aside.isReport)

theorem System.Threaded.record {system : System} (threaded : system.Threaded)
    {occurrence : Occurrence} (aside : occurrence.IsAside) : (system.record occurrence).Threaded := by
  rw [Threaded, timing_record aside.isReport]
  exact threaded

/-- What may be done in a system. -/
abbrev Conduct := System → Command → Prop

/-- A system comes to be another by strides of a conduct. -/
inductive Reaches (conduct : Conduct) : System → System → Prop where
  | refl (system : System) : Reaches conduct system system
  | stride {first last : System} (before : Reaches conduct first last) (command : Command)
      (allowed : conduct last command) : Reaches conduct first (last.stride command)
  | note {first last : System} (before : Reaches conduct first last) (occurrence : Occurrence)
      (aside : occurrence.IsAside) : Reaches conduct first (last.record occurrence)

namespace Reaches

variable {conduct : Conduct} {first middle last : System}

theorem single (command : Command) (allowed : conduct first command) :
    Reaches conduct first (first.stride command) := .stride (.refl first) command allowed

theorem trans (before : Reaches conduct first middle) (after : Reaches conduct middle last) :
    Reaches conduct first last := by
  induction after with
  | refl => exact before
  | stride _ command allowed ih => exact ih.stride command allowed
  | note _ occurrence aside ih => exact ih.note occurrence aside

theorem mono {other : Conduct} (reaches : Reaches conduct first last)
    (weaker : ∀ system command, conduct system command → other system command) :
    Reaches other first last := by
  induction reaches with
  | refl => exact .refl _
  | stride _ command allowed ih => exact ih.stride command (weaker _ command allowed)
  | note _ occurrence aside ih => exact ih.note occurrence aside

/-- What every allowed stride keeps, and every note beside the commands, holds throughout a run. -/
theorem preserves {motive : System → Prop} (reaches : Reaches conduct first last)
    (start : motive first)
    (strides : ∀ {system : System} {command : Command}, motive system → conduct system command →
      motive (system.stride command))
    (notes : ∀ {system : System} {occurrence : Occurrence}, motive system → occurrence.IsAside →
      motive (system.record occurrence)) : motive last := by
  induction reaches with
  | refl => exact start
  | stride _ _ allowed ih => exact strides ih allowed
  | note _ _ aside ih => exact notes ih aside

end Reaches

/-! ### Strides -/

theorem System.stride_cases (system : System) (command : Command) :
    system.stride command = (command.apply system).2 ∨
      ∃ index token, command.call? (command.apply system).1 = some ⟨.selector index, token⟩ ∧
        system.stride command =
          ((Command.markReady index token).apply (command.apply system).2).2 := by
  unfold stride callSelector
  cases call : command.call? (command.apply system).1 with
  | none => exact .inl rfl
  | some attachment =>
      obtain ⟨observer, token⟩ := attachment
      cases observer with
      | custom index => exact .inl rfl
      | selector index => exact .inr ⟨index, token, rfl, rfl⟩

private theorem Command.call?_eq_none {command : Command} (silent : ¬ command.IsPost)
    (reply : command.Reply) : command.call? reply = none := by
  cases command with
  | beginPost | fireFirst | store => exact absurd trivial silent
  | _ => rfl

theorem System.stride_eq_apply {command : Command} (silent : ¬ command.IsPost) (system : System) :
    system.stride command = (command.apply system).2 := by
  rw [stride, Command.call?_eq_none silent]
  rfl

theorem Reaches.apply {conduct : Conduct} {first last : System} (before : Reaches conduct first last)
    {command : Command} (silent : ¬ command.IsPost) (allowed : conduct last command) :
    Reaches conduct first (command.apply last).2 := by
  rw [← System.stride_eq_apply silent]
  exact before.stride command allowed

theorem System.stride_preserves {motive : System → Prop} {system : System} {command : Command}
    (applied : motive (command.apply system).2)
    (called : ∀ {system : System} (index token : Nat), motive system →
      motive ((Command.markReady index token).apply system).2) :
    motive (system.stride command) := by
  rcases system.stride_cases command with same | ⟨index, token, -, same⟩
  · exact same ▸ applied
  · exact same ▸ called index token applied

/-- What every allowed command keeps holds throughout a run, if the calls of selectors are allowed. -/
theorem Reaches.preserves_apply {conduct : Conduct} {motive : System → Prop} {first last : System}
    (reaches : Reaches conduct first last) (start : motive first)
    (marks : ∀ system index token, conduct system (.markReady index token))
    (applies : ∀ {system : System} {command : Command}, motive system → conduct system command →
      motive (command.apply system).2)
    (notes : ∀ {system : System} {occurrence : Occurrence}, motive system → occurrence.IsAside →
      motive (system.record occurrence)) : motive last :=
  reaches.preserves start
    (fun kept allowed => System.stride_preserves (applies kept allowed)
      fun index token called => applies called (marks _ index token)) notes

def System.strides (system : System) : List Command → System
  | [] => system
  | command :: rest => (system.stride command).strides rest

def Conduct.Allows (conduct : Conduct) (system : System) : List Command → Prop
  | [] => True
  | command :: rest => conduct system command ∧ conduct.Allows (system.stride command) rest

theorem Reaches.strides {conduct : Conduct} {first : System} {commands : List Command}
    (allowed : conduct.Allows first commands) : Reaches conduct first (first.strides commands) := by
  induction commands generalizing first with
  | nil => exact .refl first
  | cons command rest ih => exact (single command allowed.1).trans (ih allowed.2)

/-- Strides that are made one after the other until the next one is not admitted. -/
def System.stridesWhile (admits : System → Command → Prop) [∀ system, DecidablePred (admits system)]
    (system : System) : List Command → System
  | [] => system
  | command :: rest =>
    if admits system command then (system.stride command).stridesWhile admits rest else system

theorem Reaches.stridesWhile {conduct : Conduct} {admits : System → Command → Prop}
    [∀ system, DecidablePred (admits system)]
    (allowed : ∀ system command, admits system command → conduct system command)
    (commands : List Command) (system : System) :
    Reaches conduct system (system.stridesWhile admits commands) := by
  induction commands generalizing system with
  | nil => exact .refl system
  | cons command rest ih =>
      rw [System.stridesWhile]
      split
      · next admitted => exact (single command (allowed system command admitted)).trans (ih _)
      · exact .refl system

theorem Reaches.leads {conduct : Conduct} {permits : Permit} {first last : System}
    (permitted : ∀ system command, conduct system command →
      permits system.ledger command (command.apply system).2.ledger)
    (marks : ∀ (ledger : Ledger) (index token : Nat), permits ledger (.markReady index token) ledger)
    (reaches : Reaches conduct first last) : Leads permits first last := by
  refine reaches.preserves (.refl first) ?_ fun leads aside => leads.note aside.isReport
  intro system command leads allowed
  refine System.stride_preserves (leads.apply (permitted system command allowed)) ?_
  intro system index token before
  have same : ((Command.markReady index token).apply system).2.ledger = system.ledger :=
    congrArg Timing.ledger (System.timing_markReady index token)
  exact before.apply (by rw [same]; exact marks _ _ _)

/-! ### Observers of signals -/

/-- Signals are made without posts and without an observer. -/
theorem Setup.signal_eq (setup : Setup) (reference : SignalRef) :
    ∃ backend, setup.system.signal reference = { backend } := by
  have empty : ∀ {α : Type} (backend : α → Backend) (made : List α) (place : Nat), ∃ chosen,
      (Table.ofList ({} : Signal) (made.map fun one => { backend := backend one })).get place =
        { backend := chosen } := by
    intro α backend made place
    rw [Table.get_ofList, List.getElem?_map]
    cases made[place]? with
    | none => exact ⟨.host, rfl⟩
    | some one => exact ⟨backend one, rfl⟩
  cases reference with
  | shared place => exact empty id setup.signals place
  | selector place => exact empty SelectorSetup.backend setup.selectors place
  | worker place => exact empty id setup.workers place

theorem Setup.attachment_eq_none (setup : Setup) (reference : SignalRef) :
    (setup.system.signal reference).attachment = none := by
  obtain ⟨backend, made⟩ := setup.signal_eq reference
  rw [made]

theorem System.attachment_setSignal {system : System} {reference other : SignalRef} {fresh : Signal}
    (same : fresh.attachment = (system.signal reference).attachment) :
    ((system.setSignal reference fresh).signal other).attachment = (system.signal other).attachment := by
  rw [signal_setSignal]
  split
  · next here => rw [same, here]
  · rfl

theorem System.attachment_take (system : System) (reference other : SignalRef) :
    ((system.take reference).2.signal other).attachment = (system.signal other).attachment := by
  unfold take
  split
  · rfl
  · next taken accepted =>
    refine attachment_setSignal ?_
    unfold Signal.take? at accepted
    split at accepted
    · cases accepted
    · exact Option.some.inj accepted ▸ rfl

/-- No observer is attached to the private signal of a selector or a worker. -/
private theorem Command.unobserved_apply {command : Command} {system : System} {reference : SignalRef}
    (hidden : ∀ shared, reference ≠ .shared shared) (free : (system.signal reference).attachment = none) :
    ((command.apply system).2.signal reference).attachment = none := by
  refine (command.touched system).preserves
    (motive := fun last => (last.signal reference).attachment = none) free ?_
  intro last touch own free
  have elsewhere : ∀ {shared : Nat} {fresh : Signal},
      ((last.setSignal (.shared shared) fresh).signal reference).attachment = none := by
    intro shared fresh
    rwa [System.signal_setSignal, if_neg (hidden shared)]
  cases touch with
  | raise other =>
      have kept : ((last.setSignal other (last.signal other).raise).signal reference).attachment =
          (last.signal reference).attachment := System.attachment_setSignal rfl
      exact kept.trans free
  | take other => exact (last.attachment_take other reference).trans free
  | renew other fresh =>
      simp only [Touch.apply, System.signal_setSignal]
      split
      · exact own.2
      · exact free
  | attach =>
      simp only [Touch.apply, System.attach]
      split
      · exact free
      · exact elsewhere
  | detach =>
      simp only [Touch.apply, System.detach]
      split
      · exact free
      · exact elsewhere
  | _ => exact free

theorem Reaches.unobserved {conduct : Conduct} {first last : System} {reference : SignalRef}
    (run : Reaches conduct first last) (hidden : ∀ shared, reference ≠ .shared shared)
    (free : (first.signal reference).attachment = none) : (last.signal reference).attachment = none :=
  run.preserves (motive := fun system => (system.signal reference).attachment = none) free
    (fun kept _ => System.stride_preserves
      (motive := fun system => (system.signal reference).attachment = none)
      (Command.unobserved_apply hidden kept) fun _ _ => Command.unobserved_apply hidden)
    fun kept _ => kept

/-! ### Histories -/

/-- What happened in a system since an earlier moment. -/
def System.since (after before : System) : List Occurrence :=
  after.history.take (after.history.length - before.history.length)

/-- The history of a system goes on from that of an earlier one. -/
def System.Continues (after before : System) : Prop := before.history <:+ after.history

namespace System.Continues

variable {first middle last : System}

theorem refl (system : System) : system.Continues system := List.suffix_rfl

theorem trans (before : middle.Continues first) (after : last.Continues middle) :
    last.Continues first := List.IsSuffix.trans before after

theorem record (continues : last.Continues first) (occurrence : Occurrence) :
    (last.record occurrence).Continues first := List.IsSuffix.trans continues (List.suffix_cons _ _)

theorem since_append (continues : last.Continues first) :
    last.since first ++ first.history = last.history := by
  obtain ⟨recent, same⟩ := continues
  have taken : last.since first = recent := by
    rw [System.since, ← same, List.length_append, Nat.add_sub_cancel, List.take_left]
  rw [taken, same]

theorem touch (continues : last.Continues first) (touch : Touch) :
    (touch.apply last).Continues first := by
  cases touch with
  | note occurrence => exact continues.record occurrence
  | raise signal => exact continues.record (.raised signal)
  | take signal =>
      simp only [Touch.apply, System.take]
      split
      · exact continues
      · exact continues.record (.took signal)
  | attach signal observer token =>
      simp only [Touch.apply, System.attach]
      split
      · exact continues.record (.logged .observerRefused)
      · exact continues
  | detach signal observer =>
      simp only [Touch.apply, System.detach]
      split <;> exact continues
  | _ => exact continues

theorem apply (continues : last.Continues first) (command : Command) :
    (command.apply last).2.Continues first :=
  (command.touched last).preserves (motive := fun system => system.Continues first) continues
    fun _ kept => kept.touch _

private theorem stride (continues : last.Continues first) (command : Command) :
    (last.stride command).Continues first :=
  System.stride_preserves (motive := fun system => system.Continues first)
    (continues.apply command) fun index token kept => kept.apply (.markReady index token)

theorem begin (continues : last.Continues first) (request : Request) :
    (request.begin last).Continues first := by
  cases request with
  | rearm log delay => exact (continues.record _).apply (.addRearm log delay)
  | sleep clock delay => exact continues.record _
  | _ => exact continues.record _

end System.Continues

theorem System.since_eq {before after : System} {recent : List Occurrence}
    (history : after.history = recent ++ before.history) : after.since before = recent := by
  have continues : after.Continues before := ⟨recent, history.symm⟩
  exact List.append_cancel_right (continues.since_append.trans history)

theorem System.since_record (system : System) (occurrence : Occurrence) :
    (system.record occurrence).since system = [occurrence] :=
  @System.since_eq system (system.record occurrence) [occurrence] rfl

theorem System.Continues.since_trans {first middle last : System} (before : middle.Continues first)
    (after : last.Continues middle) :
    last.since first = last.since middle ++ middle.since first := by
  have whole := (before.trans after).since_append
  have parts := after.since_append
  rw [← before.since_append, ← List.append_assoc] at parts
  exact List.append_cancel_right (whole.trans parts.symm)

/-- A command adds nothing of a kind that none of its notes, raises and takes is of. -/
theorem Command.countP_since {command : Command} {counts : Occurrence → Bool}
    (notes : ∀ occurrence, command.Notes occurrence → counts occurrence = false)
    (raises : ∀ signal, counts (.raised signal) = false)
    (takes : ∀ signal, Touch.IsOf command (.take signal) → counts (.took signal) = false)
    (system : System) : ((command.apply system).2.since system).countP counts = 0 := by
  have same : (command.apply system).2.history.countP counts = system.history.countP counts := by
    refine (command.touched system).preserves
      (motive := fun last => last.history.countP counts = system.history.countP counts) rfl ?_
    intro last touch own same
    have noted : ∀ occurrence, counts occurrence = false →
        (occurrence :: last.history).countP counts = system.history.countP counts :=
      fun occurrence none => (List.countP_cons_of_neg (by simp [none])).trans same
    cases touch with
    | note occurrence => exact noted occurrence (notes occurrence own)
    | raise signal => exact noted _ (raises signal)
    | take signal =>
        simp only [Touch.apply, System.take]
        split
        · exact same
        · exact noted _ (takes signal own)
    | attach signal observer token =>
        simp only [Touch.apply, System.attach]
        split
        · exact noted _ (notes _ trivial)
        · exact same
    | detach signal observer =>
        simp only [Touch.apply, System.detach]
        split <;> exact same
    | _ => exact same
  have grown := ((System.Continues.refl system).apply command).since_append
  have split := congrArg (List.countP counts) grown
  rw [List.countP_append, same] at split
  omega

/-- What is noted first when the surroundings are asked for something. -/
def Request.aside : Request → Occurrence
  | .observe observer token => .observerCalled observer token
  | .execute job => .executed job
  | .rearm log delay => .rearmed log delay
  | .idle signal => .blocked signal
  | .sleep clock delay => .slept clock delay

/-- A request begins with a note aside, and at most a log line. -/
theorem Request.since_begin (request : Request) (system : System) :
    (request.begin system).since system = [request.aside] ∨
      ∃ notice, (request.begin system).since system = [.logged notice, request.aside] := by
  cases request with
  | rearm log delay =>
      by_cases full : (system.rearmLogs.get log).isFull
      · have history : ((Request.rearm log delay).begin system).history =
            [.logged (.rearmNotKept delay), .rearmed log delay] ++ system.history :=
          congrArg System.history (if_pos full)
        exact .inr ⟨_, System.since_eq history⟩
      · have history : ((Request.rearm log delay).begin system).history =
            [.rearmed log delay] ++ system.history := congrArg System.history (if_neg full)
        exact .inl (System.since_eq history)
  | observe | execute | idle | sleep => exact .inl (System.since_eq rfl)

theorem Request.countP_since {counts : Occurrence → Bool} (request : Request)
    (aside : counts request.aside = false) (logs : ∀ notice, counts (.logged notice) = false)
    (system : System) : ((request.begin system).since system).countP counts = 0 := by
  rcases request.since_begin system with since | ⟨notice, since⟩
  · simp [since, aside]
  · simp [since, aside, logs]

theorem Reaches.continues {conduct : Conduct} {first last : System}
    (reaches : Reaches conduct first last) : last.Continues first :=
  reaches.preserves (motive := fun system => system.Continues first) (.refl first)
    (fun kept _ => kept.stride _) fun kept _ => kept.record _

end TimedWaits
