import TimedWaits.Proofs.Selectors.Operations

/-! What the calls on a selector give. A call may be blocked and let others act, also on the same
selector; at some moment it takes the first ready slot, and what that gives is its answer. As long as the
selector is left to its users, this is the first signal of its list. -/

set_option autoImplicit false

namespace TimedWaits

variable {σ α : Type} {environment : Environment σ} {world after : World σ} {index : Nat}
  {noted : List Occurrence}

theorem selections_eq_nil {occurrences : List Occurrence} :
    occurrences.filterMap (Occurrence.selection? index) = [] ↔
      occurrences.countP (fun occurrence => (occurrence.selection? index).isSome) = 0 := by
  rw [List.filterMap_eq_nil_iff, List.countP_eq_zero]
  refine forall₂_congr fun occurrence _ => ?_
  rw [Option.not_isSome_iff_eq_none]

theorem Command.IsQuiet.selections {command : Command} (quiet : command.IsQuiet index)
    (system : System) :
    ((command.apply system).2.since system).filterMap (Occurrence.selection? index) = [] := by
  refine selections_eq_nil.mpr (command.countP_since ?_ (fun _ => rfl) (fun _ _ => rfl) system)
  intro occurrence notes
  cases occurrence with
  | selected selector signal =>
      have differ : selector ≠ index := by
        rintro rfl
        exact quiet.elsewhere notes
      simp [Occurrence.selection?, differ]
  | _ => rfl

theorem Activity.Uses.selections {activity : Activity α} {requests : Request → Prop}
    (uses : activity.Uses (·.IsQuiet index) requests) :
    (activity.occurrences .call environment world).filterMap (Occurrence.selection? index) = [] := by
  refine selections_eq_nil.mpr (uses.occurrences_call ?_ ?_)
  · intro system command quiet
    exact selections_eq_nil.mp (quiet.selections system)
  · intro system request _
    exact request.countP_since (by cases request <;> rfl) (fun _ => rfl) system

namespace Selector

/-! ### The moment of a selection -/

/-- A selection: the first ready slot is taken at once, or after a post of the selector's own signal. -/
inductive Takes (index : Nat) (now : System) : Option Nat → System → Prop where
  | ready : Takes index now (now.takeReady index).1 (now.takeReady index).2
  | wakeup : Takes index now (now.takeWakeup index).1 (now.takeWakeup index).2

/-- What is left of a call after its selection. -/
def closing (index : Nat) : Conduct := fun _ command => command.IsQuiet index ∧ command.IsOrdinary

/-- At some moment of a call the first ready slot is taken, and what that gives is the answer. The call
itself selects nothing else. -/
structure Gives (commands : Command → Prop) (index : Nat) (start : System) (answer : Option Nat)
    (last : System) (noted : List Occurrence) : Prop where
  moment : ∃ now next, Reaches (fun _ => commands) start now ∧ Takes index now answer next ∧
    Reaches (closing index) next last
  noted : noted.filterMap (Occurrence.selection? index) = answer.toList

variable {commands : Command → Prop} {start middle last : System} {answer : Option Nat}
  {before later : List Occurrence} {bound rounds alarm queue : Nat} {deadline : System → Tick}
  {timeout : Tick}

theorem Takes.selections (takes : Takes index start answer last) :
    (last.since start).filterMap (Occurrence.selection? index) = answer.toList := by
  cases takes with
  | ready => exact start.takeReady_selections index
  | wakeup => exact start.takeWakeup_selections index

private theorem Takes.reaches (ordinary : ∀ command, command.IsOrdinary → commands command)
    (takes : Takes index start answer last) : Reaches (fun _ => commands) start last := by
  cases takes with
  | ready =>
      have silent : ¬ (Command.takeReady index).IsPost := not_false
      exact (Reaches.refl start).apply silent (ordinary _ trivial)
  | wakeup =>
      have silent : ¬ (Command.takeWakeup index).IsPost := not_false
      exact (Reaches.refl start).apply silent (ordinary _ trivial)

theorem takes_ready {conduct : Conduct}
    (returns : Activity.Returns conduct environment (.perform (.takeReady index)) world answer after
      noted) :
    Takes index world.system answer after.system ∧ noted = after.system.since world.system := by
  obtain ⟨rfl, rfl, rfl⟩ := returns.perform
  exact ⟨.ready, rfl⟩

theorem takes_wakeup {conduct : Conduct}
    (returns : Activity.Returns conduct environment (.perform (.takeWakeup index)) world answer after
      noted) :
    Takes index world.system answer after.system ∧ noted = after.system.since world.system := by
  obtain ⟨rfl, rfl, rfl⟩ := returns.perform
  exact ⟨.wakeup, rfl⟩

namespace Gives

theorem of_takes (takes : Takes index start answer last) :
    Gives commands index start answer last (last.since start) :=
  ⟨⟨start, last, .refl start, takes, .refl last⟩, takes.selections⟩

theorem delayed (gives : Gives commands index middle answer last later)
    (run : Reaches (fun _ => commands) start middle)
    (silent : before.filterMap (Occurrence.selection? index) = []) :
    Gives commands index start answer last (later ++ before) := by
  obtain ⟨⟨now, next, onward, takes, closes⟩, noted⟩ := gives
  refine ⟨⟨now, next, run.trans onward, takes, closes⟩, ?_⟩
  rw [List.filterMap_append, silent, List.append_nil, noted]

/-- A selection that finds nothing is as if it had not been made. -/
theorem after_none (ordinary : ∀ command, command.IsOrdinary → commands command)
    (gives : Gives commands index middle answer last later) (takes : Takes index start none middle) :
    Gives commands index start answer last (later ++ middle.since start) :=
  gives.delayed (takes.reaches ordinary) takes.selections

theorem close {command : Command} (gives : Gives commands index start answer middle before)
    (quiet : command.IsQuiet index) (ordinary : command.IsOrdinary) :
    Gives commands index start answer (command.apply middle).2
      ((command.apply middle).2.since middle ++ before) := by
  obtain ⟨⟨now, next, run, takes, closes⟩, noted⟩ := gives
  refine ⟨⟨now, next, run, takes, closes.apply quiet.silent ⟨quiet, ordinary⟩⟩, ?_⟩
  rw [List.filterMap_append, quiet.selections, List.nil_append, noted]

end Gives

/-! ### Calls that return -/

/-- What is left of a wait with a timeout when nothing is ready. -/
def blocked (bound selector queue : Nat) (deadline : System → Tick) : Activity (Option Nat) := do
  let deadline ← .read deadline
  let alarm ← .perform (.createAlarm queue (.selector selector) deadline false)
  let waiting : Activity (Option Nat) := do
    discard <| Alarms.add queue alarm
    awaitReadyOrAlarm bound selector alarm bound
  waiting.ensuring (.dropAlarm alarm)

theorem awaitPost_uses (signal : SignalRef) (bound : Nat) :
    (signal.awaitPost bound).Uses (·.IsQuiet index) fun _ => True := .awaitPost signal bound trivial

section Returns

variable (ordinary : ∀ command, command.IsOrdinary → commands command)

include ordinary

theorem quiet_reaches {activity : Activity α} {value : α} {requests : Request → Prop}
    (uses : activity.Uses (·.IsQuiet index) requests) (plain : activity.Ordinary)
    (returns : Activity.Returns (fun _ => commands) environment activity world value after noted) :
    Reaches (fun _ => commands) world.system after.system ∧
      noted.filterMap (Occurrence.selection? index) = [] :=
  ⟨returns.reaches_of ordinary (plain.mono ordinary), returns.noted ▸ uses.selections⟩

private theorem awaitReady_gives {signal : Nat}
    (returns : Activity.Returns (fun _ => commands) environment (awaitReady bound index rounds) world
      signal after noted) :
    Gives commands index world.system (some signal) after.system noted := by
  induction rounds generalizing world noted with
  | zero => cases returns.run
  | succ rounds ih =>
      obtain ⟨_, ready, _, _, awaited, waking, rfl⟩ := returns.bind
      -- A wake-up may find nothing: the posts of one signal leave several, and others may select too.
      obtain ⟨run, silent⟩ := quiet_reaches ordinary (awaitPost_uses _ bound) (.awaitPost _ bound) awaited
      refine Gives.delayed ?_ run silent
      obtain ⟨reply, woken, _, _, taken, onward, rfl⟩ := waking.bind
      obtain ⟨takes, rfl⟩ := takes_wakeup taken
      cases reply with
      | some first =>
          obtain ⟨rfl, rfl, rfl⟩ := onward.done
          exact .of_takes takes
      | none => exact (ih onward).after_none ordinary takes

theorem wait_gives {signal : Nat}
    (returns : Activity.Returns (fun _ => commands) environment (wait bound index) world signal after
      noted) :
    Gives commands index world.system (some signal) after.system noted := by
  obtain ⟨reply, ready, _, _, taken, onward, rfl⟩ := returns.bind
  obtain ⟨takes, rfl⟩ := takes_ready taken
  cases reply with
  | some first =>
      obtain ⟨rfl, rfl, rfl⟩ := onward.done
      exact .of_takes takes
  | none => exact (awaitReady_gives ordinary onward).after_none ordinary takes

private theorem awaitReadyOrAlarm_gives
    (returns : Activity.Returns (fun _ => commands) environment
      (awaitReadyOrAlarm bound index alarm rounds) world answer after noted) :
    Gives commands index world.system answer after.system noted := by
  induction rounds generalizing world noted with
  | zero => cases returns.run
  | succ rounds ih =>
      obtain ⟨_, ready, _, _, awaited, waking, rfl⟩ := returns.bind
      obtain ⟨run, silent⟩ := quiet_reaches ordinary (awaitPost_uses _ bound) (.awaitPost _ bound) awaited
      refine Gives.delayed ?_ run silent
      obtain ⟨reply, woken, _, _, taken, onward, rfl⟩ := waking.bind
      obtain ⟨takes, rfl⟩ := takes_wakeup taken
      cases reply with
      | some first =>
          obtain ⟨rfl, rfl, rfl⟩ := onward.done
          exact .of_takes takes
      | none =>
          obtain ⟨queued, _, _, _, looked, deciding, rfl⟩ := onward.bind
          obtain ⟨-, rfl, rfl⟩ := looked.look.done
          rw [List.append_nil]
          cases queued with
          | true =>
              rw [if_pos rfl] at deciding
              exact (ih deciding).after_none ordinary takes
          | false =>
              rw [if_neg Bool.false_ne_true] at deciding
              obtain ⟨_, logged, _, _, logging, closing, rfl⟩ := deciding.bind
              obtain ⟨-, rfl, rfl⟩ := logging.perform
              obtain ⟨rfl, rfl, rfl⟩ := closing.done
              have quiet : (Command.log .selectionTimedOut).IsQuiet index :=
                .of_unrelated trivial not_false rfl
              exact (Gives.of_takes takes).close quiet trivial

private theorem blocked_gives
    (returns : Activity.Returns (fun _ => commands) environment
      (blocked bound index queue deadline) world answer after noted) :
    Gives commands index world.system answer after.system noted := by
  obtain ⟨due, _, _, _, looked, creating, rfl⟩ := returns.bind
  obtain ⟨-, rfl, rfl⟩ := looked.look.done
  obtain ⟨alarm, made, _, _, created, waiting, rfl⟩ := creating.bind
  have creates : (Command.createAlarm queue (.selector index) due false).IsQuiet index :=
    .of_unrelated trivial not_false rfl
  have drops : (Command.dropAlarm alarm).IsQuiet index :=
    .of_unrelated trivial not_false rfl
  have allowed := ordinary (.createAlarm queue (.selector index) due false) trivial
  have begun := created.reaches_of ordinary (.perform allowed fun _ => rfl)
  obtain ⟨-, -, rfl⟩ := created.perform
  obtain ⟨woken, _, blocked, closed, rfl⟩ := waiting.ensuring
  obtain ⟨_, added, _, _, adding, awaiting, rfl⟩ := blocked.bind
  obtain ⟨_, adding⟩ := adding.discard
  obtain ⟨queued, quietly⟩ := quiet_reaches ordinary (Alarms.add_quiet queue alarm)
    (Alarms.add_ordinary queue alarm) adding
  have gives := ((awaitReadyOrAlarm_gives ordinary awaiting).delayed queued quietly).close drops trivial
  rw [List.append_nil, closed]
  exact gives.delayed begun (creates.selections _)

theorem waitFor_gives
    (returns : Activity.Returns (fun _ => commands) environment (waitFor bound index queue timeout) world
      answer after noted) :
    Gives commands index world.system answer after.system noted := by
  obtain ⟨reply, ready, _, _, taken, onward, rfl⟩ := returns.bind
  obtain ⟨takes, rfl⟩ := takes_ready taken
  cases reply with
  | some first =>
      obtain ⟨rfl, rfl, rfl⟩ := onward.done
      exact .of_takes takes
  | none =>
      change Activity.Returns _ _ (if timeout = 0 then _ else _) _ _ _ _ at onward
      by_cases none : timeout = 0
      · rw [if_pos none] at onward
        obtain ⟨rfl, rfl, rfl⟩ := onward.done
        exact .of_takes takes
      · rw [if_neg none] at onward
        exact (blocked_gives ordinary onward).after_none ordinary takes

end Returns

/-! ### Answers -/

/-- Between the start and the end of a call there is a moment at which its answer is the first signal
of the list, if any; since then that one was taken and nothing else happened to the list. The call
itself selects just what it answers. -/
structure Answers (index : Nat) (start : System) (answer : Option Nat) (last : System)
    (noted : List Occurrence) : Prop where
  moment : ∃ moment, Reaches (respects index) start moment ∧
    answer = (moment.coalescing index).ready.head? ∧
    last.coalescing index = (moment.coalescing index).take
  noted : noted.filterMap (Occurrence.selection? index) = answer.toList

private theorem Takes.coalesces (takes : Takes index start answer last)
    (coalesces : start.Coalesces index) :
    System.Selects index start answer last ∧ last.Coalesces index := by
  cases takes with
  | ready => exact coalesces.takeReady
  | wakeup => exact coalesces.takeWakeup

/-- As long as a selector is left to its users, a call gives the first signal of the list. -/
theorem Gives.answers (gives : Gives (·.Respects index) index start answer last noted)
    (coalesces : start.Coalesces index) : Answers index start answer last noted := by
  obtain ⟨⟨now, next, run, takes, closes⟩, noted⟩ := gives
  obtain ⟨selects, kept⟩ := takes.coalesces (coalesces.reaches run)
  have closed : last.Coalesces index ∧ last.coalescing index = next.coalescing index := by
    refine closes.preserves (motive := fun last =>
      last.Coalesces index ∧ last.coalescing index = next.coalescing index) ⟨kept, rfl⟩ ?_ ?_
    · rintro system command ⟨kept, same⟩ ⟨quiet, -⟩
      rw [System.stride_eq_apply quiet.silent]
      exact (kept.apply quiet).imp_right fun list => list.trans same
    · rintro system occurrence ⟨kept, same⟩ aside
      exact (kept.record (aside.spares index)).imp_right fun list => list.trans same
  exact ⟨⟨now, run, selects.head, closed.2.trans selects.list⟩, noted⟩

/-! ### Calls that give up -/

variable {failure : Failure} {conduct : Conduct}

theorem selections_append {before later : List Occurrence}
    (first : before.filterMap (Occurrence.selection? index) = [])
    (second : later.filterMap (Occurrence.selection? index) = []) :
    (later ++ before).filterMap (Occurrence.selection? index) = [] := by
  rw [List.filterMap_append, first, second, List.nil_append]

theorem perform_stands {command : Command}
    (stuck : Activity.GivesUp conduct environment (.perform command) world failure noted) :
    False := nomatch stuck.run

private theorem awaitReady_gives_up
    (stuck : Activity.GivesUp conduct environment (awaitReady bound index rounds) world failure noted) :
    noted.filterMap (Occurrence.selection? index) = [] := by
  induction rounds generalizing world noted with
  | zero => exact stuck.noted ▸ rfl
  | succ rounds ih =>
      rcases stuck.bind with blocked | ⟨_, ready, _, _, awaited, waking, rfl⟩
      · exact blocked.noted ▸ (awaitPost_uses _ bound).selections
      · refine selections_append (awaited.noted ▸ (awaitPost_uses _ bound).selections) ?_
        rcases waking.bind with none | ⟨reply, woken, _, _, taken, onward, rfl⟩
        · exact (perform_stands none).elim
        · obtain ⟨takes, rfl⟩ := takes_wakeup taken
          cases reply with
          | some first => cases onward.run
          | none => exact selections_append takes.selections (ih onward)

theorem wait_gives_up
    (stuck : Activity.GivesUp conduct environment (wait bound index) world failure noted) :
    noted.filterMap (Occurrence.selection? index) = [] := by
  rcases stuck.bind with none | ⟨reply, ready, _, _, taken, onward, rfl⟩
  · exact (perform_stands none).elim
  · obtain ⟨takes, rfl⟩ := takes_ready taken
    cases reply with
    | some first => cases onward.run
    | none => exact selections_append takes.selections (awaitReady_gives_up onward)

private theorem awaitReadyOrAlarm_gives_up
    (stuck : Activity.GivesUp conduct environment (awaitReadyOrAlarm bound index alarm rounds) world
      failure noted) :
    noted.filterMap (Occurrence.selection? index) = [] := by
  induction rounds generalizing world noted with
  | zero => exact stuck.noted ▸ rfl
  | succ rounds ih =>
      rcases stuck.bind with blocked | ⟨_, ready, _, _, awaited, waking, rfl⟩
      · exact blocked.noted ▸ (awaitPost_uses _ bound).selections
      · refine selections_append (awaited.noted ▸ (awaitPost_uses _ bound).selections) ?_
        rcases waking.bind with none | ⟨reply, woken, _, _, taken, onward, rfl⟩
        · exact (perform_stands none).elim
        · obtain ⟨takes, rfl⟩ := takes_wakeup taken
          cases reply with
          | some first => cases onward.run
          | none =>
              refine selections_append takes.selections ?_
              rcases onward.bind with none | ⟨queued, _, _, _, looked, deciding, rfl⟩
              · cases none.run
              · obtain ⟨-, rfl, rfl⟩ := looked.look.done
                rw [List.append_nil]
                cases queued with
                | true =>
                    rw [if_pos rfl] at deciding
                    exact ih deciding
                | false =>
                    rw [if_neg Bool.false_ne_true] at deciding
                    cases deciding.run

private theorem blocked_gives_up
    (stuck : Activity.GivesUp conduct environment (blocked bound index queue deadline) world failure
      noted) :
    noted.filterMap (Occurrence.selection? index) = [] := by
  rcases stuck.bind with none | ⟨due, _, _, _, looked, creating, rfl⟩
  · cases none.run
  obtain ⟨-, rfl, rfl⟩ := looked.look.done
  rcases creating.bind with none | ⟨alarm, made, _, _, created, waiting, rfl⟩
  · exact (perform_stands none).elim
  have creates : (Command.createAlarm queue (.selector index) due false).IsQuiet index :=
    .of_unrelated trivial not_false rfl
  have drops : (Command.dropAlarm alarm).IsQuiet index :=
    .of_unrelated trivial not_false rfl
  obtain ⟨-, -, rfl⟩ := created.perform
  obtain ⟨last, _, blocked, rfl⟩ := waiting.ensuring
  rw [List.append_nil]
  refine selections_append (creates.selections _) (selections_append ?_ (drops.selections last))
  rcases blocked.bind with adding | ⟨_, added, _, _, adding, awaiting, rfl⟩
  · exact adding.noted ▸ (Alarms.add_quiet queue alarm).discard.selections
  · exact selections_append (adding.noted ▸ (Alarms.add_quiet queue alarm).discard.selections)
      (awaitReadyOrAlarm_gives_up awaiting)

theorem waitFor_gives_up
    (stuck : Activity.GivesUp conduct environment (waitFor bound index queue timeout) world failure
      noted) : noted.filterMap (Occurrence.selection? index) = [] := by
  rcases stuck.bind with none | ⟨reply, ready, _, _, taken, onward, rfl⟩
  · exact (perform_stands none).elim
  · obtain ⟨takes, rfl⟩ := takes_ready taken
    cases reply with
    | some first => cases onward.run
    | none =>
        refine selections_append takes.selections ?_
        change Activity.GivesUp _ _ (if timeout = 0 then _ else _) _ _ _ at onward
        by_cases none : timeout = 0
        · rw [if_pos none] at onward
          cases onward.run
        · rw [if_neg none] at onward
          exact blocked_gives_up onward

end Selector

end TimedWaits
