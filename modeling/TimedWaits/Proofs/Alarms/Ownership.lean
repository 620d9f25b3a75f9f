import Mathlib.Data.List.GetD
import TimedWaits.Proofs.Alarms.TimedWaits
import TimedWaits.Proofs.Runs.Operations

/-! Who handles which alarm. An operation names the alarms that have an owner, and a call handles those
that it makes for itself. So operations that run inside a call leave the alarms of the call alone, and put
existing alarms into their own queues only. -/

set_option autoImplicit false

namespace TimedWaits

open Activity

/-- The alarm that a command has made for an owner. -/
def Command.handsOut : (command : Command) → command.Reply → List Nat
  | .createAlarm _ _ _ true, alarm => [alarm]
  | _, _ => []

/-- The alarm that a command has made for the call that it belongs to. -/
def Command.makes : (command : Command) → command.Reply → List Nat
  | .createAlarm _ _ _ false, alarm => [alarm]
  | _, _ => []

/-- The places of the owned alarms that an operation names. -/
def Action.Names (named : Nat → Prop) : Action → Prop
  | .addAlarm _ place | .scheduleAlarm place | .withdrawAlarm _ place | .cancelAlarm place
  | .dropAlarm place => named place
  | _ => True

namespace System

variable {own named : Nat → Prop} {system first last : System} {command : Command}

theorem owned_apply (command : Command) (system : System) :
    (command.apply system).2.alarms.owned =
      system.alarms.owned ++ command.handsOut (command.apply system).1 := by
  by_cases concerned : command.ConcernsAlarms
  · cases command with
    | createAlarm queue signal deadline owned =>
        cases owned with
        | true => rfl
        | false => exact (List.append_nil _).symm
    | insertAlarm queue alarm =>
        simp only [Command.apply, insertAlarm, Command.handsOut, List.append_nil]
        split <;> rfl
    | fireFirst queue now =>
        simp only [Command.apply, fireFirst, Command.handsOut, List.append_nil]
        split
        · rfl
        · simp only [beginPost]
          split <;> rfl
    | withdrawAlarm queue alarm =>
        simp only [Command.apply, withdrawAlarm, Command.handsOut, List.append_nil]
        split <;> rfl
    | dropAlarm alarm =>
        simp only [Command.apply, dropAlarm, Command.handsOut, List.append_nil]
        split <;> rfl
    | setClock | advance => exact (List.append_nil _).symm
    | _ => exact concerned.elim
  · have none : command.handsOut (command.apply system).1 = [] := by
      cases command with
      | createAlarm => exact absurd trivial concerned
      | _ => rfl
    have same := congrArg Timing.alarms (Command.timing_apply concerned system)
    rw [none, List.append_nil]
    exact congrArg Alarms.owned same

theorem Threaded.count_lt (threaded : system.Threaded) {alarm : Nat}
    (made : alarm ∈ command.handsOut (command.apply system).1 ∨ alarm ∈ command.makes (command.apply system).1) :
    alarm = system.ledger.count ∧ alarm < (command.apply system).2.ledger.count := by
  cases command with
  | createAlarm queue signal deadline owned =>
      have created := (threaded.createAlarm queue signal deadline owned).1
      have same : alarm = system.ledger.count := by
        cases owned with
        | true => exact List.mem_singleton.mp (made.resolve_right List.not_mem_nil)
        | false => exact List.mem_singleton.mp (made.resolve_left List.not_mem_nil)
      refine ⟨same, ?_⟩
      change alarm < (system.createAlarm queue signal deadline owned).2.ledger.count
      rw [created, same]
      exact Nat.lt_succ_self _
  | _ => exact (made.elim List.not_mem_nil List.not_mem_nil).elim

/-- A place keeps an alarm with an owner, also if it had none before and meant the first one. -/
private theorem mem_getD_append {owned handed : List Nat} {place : Nat}
    (member : owned.getD place 0 ∈ owned) :
    (owned ++ handed).getD place 0 ∈ owned ++ handed := by
  by_cases within : place < owned.length
  · rw [List.getD_append _ _ _ _ within]
    exact List.mem_append_left _ member
  · rw [List.getD_append_right _ _ _ _ (Nat.le_of_not_lt within)]
    by_cases fresh : place - owned.length < handed.length
    · rw [List.getD_eq_getElem _ _ fresh]
      exact List.mem_append_right _ (List.getElem_mem fresh)
    · rw [List.getD_eq_default _ _ (Nat.le_of_not_lt within)] at member
      rw [List.getD_eq_default _ _ (Nat.le_of_not_lt fresh)]
      exact List.mem_append_left _ member

/-- The alarms that have an owner exist, and those of some calls are not among them. The places that may
be named have an alarm. -/
structure Owns (own named : Nat → Prop) (system : System) : Prop where
  threaded : system.Threaded
  exist : ∀ alarm ∈ system.alarms.owned, alarm < system.ledger.count
  apart : ∀ alarm, own alarm → alarm < system.ledger.count ∧ alarm ∉ system.alarms.owned
  named : ∀ place, named place → system.alarms.owned.getD place 0 ∈ system.alarms.owned

namespace Owns

theorem apply (owns : system.Owns own named) (command : Command) :
    (command.apply system).2.Owns own named := by
  obtain ⟨step, kept⟩ := command.step_apply owns.threaded
  have more := step.extends.count
  have owned := owned_apply command system
  constructor
  case threaded => exact kept
  case exist =>
    intro alarm member
    rw [owned] at member
    cases List.mem_append.mp member with
    | inl former => exact Nat.lt_of_lt_of_le (owns.exist alarm former) more
    | inr made => exact (owns.threaded.count_lt (.inl made)).2
  case apart =>
    intro alarm mine
    obtain ⟨exist, absent⟩ := owns.apart alarm mine
    refine ⟨Nat.lt_of_lt_of_le exist more, fun member => ?_⟩
    rw [owned] at member
    cases List.mem_append.mp member with
    | inl former => exact absent former
    | inr made => exact Nat.ne_of_lt exist (owns.threaded.count_lt (.inl made)).1
  case named =>
    intro place names
    rw [owned]
    exact mem_getD_append (owns.named place names)

/-- What a call makes for itself is from then on among its own. -/
private theorem make {own : List Nat} (owns : system.Owns (· ∈ own) named) (command : Command) :
    (command.apply system).2.Owns (· ∈ own ++ command.makes (command.apply system).1) named := by
  have kept := owns.apply command
  refine ⟨kept.threaded, kept.exist, fun alarm mine => ?_, kept.named⟩
  cases List.mem_append.mp mine with
  | inl former => exact kept.apart alarm former
  | inr made =>
      obtain ⟨same, exist⟩ := owns.threaded.count_lt (.inr made)
      refine ⟨exist, fun member => ?_⟩
      rw [owned_apply command system] at member
      cases List.mem_append.mp member with
      | inl former => exact Nat.lt_irrefl _ (same ▸ owns.exist alarm former)
      | inr handed =>
          cases command with
          | createAlarm queue signal deadline owned =>
              cases owned with
              | true => exact List.not_mem_nil made
              | false => exact List.not_mem_nil handed
          | _ => exact List.not_mem_nil made

theorem note (owns : system.Owns own named) {occurrence : Occurrence} (aside : occurrence.IsAside) :
    (system.record occurrence).Owns own named :=
  ⟨owns.threaded.record aside, owns.exist, owns.apart, owns.named⟩

theorem begin (owns : system.Owns own named) (request : Request) :
    (request.begin system).Owns own named := by
  cases request with
  | rearm log delay =>
      have noted : (system.record (.rearmed log delay)).Owns own named := owns.note trivial
      exact noted.apply (.addRearm log delay)
  | sleep clock delay =>
      have noted : (system.record (.slept clock delay)).Owns own named := owns.note trivial
      exact noted.apply (.advance clock delay)
  | observe | execute | idle => exact owns.note trivial

theorem reaches {conduct : Conduct} (owns : first.Owns own named) (run : Reaches conduct first last) :
    last.Owns own named :=
  run.preserves owns
    (fun kept _ => stride_preserves (motive := fun system => system.Owns own named) (kept.apply _)
      fun index token called => called.apply (.markReady index token))
    fun kept aside => kept.note aside

theorem run {σ α : Type} {environment : Environment σ} {world : World σ} {activity : Activity α}
    {conduct : Conduct} (owns : world.system.Owns own named)
    (meanwhile : activity.Meanwhile conduct environment world) :
    (activity.run environment world).2.system.Owns own named := by
  induction activity generalizing world with
  | done | fail => exact owns
  | look _ ih => exact ih _ owns meanwhile
  | act command _ ih => exact ih _ (owns.apply command) meanwhile
  | ask request _ ih => exact ih _ ((owns.begin request).reaches meanwhile.1) meanwhile.2

/-- An operation names no alarm of a call. -/
private theorem ne_named (owns : system.Owns own named) {place : Nat} (names : named place) {alarm : Nat}
    (mine : own alarm) : system.alarms.owned.getD place 0 ≠ alarm := by
  intro same
  exact (owns.apart alarm mine).2 (same ▸ owns.named place names)

end Owns

end System

/-! ### What a call applies at each moment -/

namespace Activity

variable {σ α β : Type} {environment : Environment σ} {conduct : Conduct} {activity : Activity α}
  {world : World σ} {commands : Command → Prop} {requests : Request → Prop} {due : Due}

/-- Every command that a run of an activity applies is of a conduct. -/
def Within (conduct : Conduct) (environment : Environment σ) : Activity α → World σ → Prop
  | .done _, _ => True
  | .fail _, _ => True
  | .look next, world => (next world.system).Within conduct environment world
  | .act command next, world =>
      conduct world.system command ∧
        (next (world.apply command).1).Within conduct environment (world.apply command).2
  | .ask request next, world =>
      (next (environment request world).1).Within conduct environment (environment request world).2

/-- Whenever a run of an activity asks for something, others leave alone the alarms that it has made for
itself so far, with those of its own before it. -/
def Spared (environment : Environment σ) : List Nat → Activity α → World σ → Prop
  | _, .done _, _ => True
  | _, .fail _, _ => True
  | own, .look next, world => (next world.system).Spared environment own world
  | own, .act command next, world =>
      (next (world.apply command).1).Spared environment
        (own ++ command.makes (world.apply command).1) (world.apply command).2
  | own, .ask request next, world =>
      Reaches (Alarms.considerate (· ∈ own)) (request.begin world.system)
          (environment request world).2.system ∧
        (next (environment request world).1).Spared environment own (environment request world).2

/-- The alarms that a run of an activity makes for itself. -/
def made (environment : Environment σ) : Activity α → World σ → List Nat
  | .done _, _ => []
  | .fail _, _ => []
  | .look next, world => (next world.system).made environment world
  | .act command next, world =>
      command.makes (world.apply command).1 ++
        (next (world.apply command).1).made environment (world.apply command).2
  | .ask request next, world =>
      (next (environment request world).1).made environment (environment request world).2

theorem spared_bind {next : α → Activity β} {own : List Nat} :
    (activity >>= next).Spared environment own world ↔
      activity.Spared environment own world ∧
        ∀ value ran, activity.run environment world = (.ok value, ran) →
          (next value).Spared environment (own ++ activity.made environment world) ran := by
  change (activity.bind next).Spared environment own world ↔ _
  induction activity generalizing world own with
  | done value =>
      have same : own ++ (Activity.done value).made environment world = own := List.append_nil own
      rw [same]
      constructor
      · intro spared
        refine ⟨trivial, fun other ran returned => ?_⟩
        cases returned
        exact spared
      · exact fun spared => spared.2 value world rfl
  | fail failure => exact ⟨fun _ => ⟨trivial, fun _ _ same => nomatch same⟩, fun _ => trivial⟩
  | look _ ih => exact ih _
  | act command _ ih =>
      refine (ih _).trans (and_congr_right fun _ => ?_)
      rw [made, List.append_assoc]
      exact Iff.rfl
  | ask _ _ ih => exact (and_congr_right fun _ => ih _).trans and_assoc.symm

theorem spared_ensuring {command : Command} {own : List Nat} :
    (activity.ensuring command).Spared environment own world ↔
      activity.Spared environment own world := by
  induction activity generalizing world own with
  | done | fail => exact Iff.rfl
  | look _ ih => exact ih _
  | act _ _ ih => exact ih _
  | ask _ _ ih => exact and_congr_right fun _ => ih _

/-- Whoever always leaves the alarms of a call alone spares those that any activity makes. -/
theorem Spared.of_answers {own : List Nat}
    (answers : ∀ (own : List Nat) request (world : World σ), Reaches (Alarms.considerate (· ∈ own))
      (request.begin world.system) (environment request world).2.system) :
    activity.Spared environment own world := by
  induction activity generalizing world own with
  | done | fail => trivial
  | look _ ih => exact ih _
  | act _ _ ih => exact ih _
  | ask request _ ih => exact ⟨answers own request world, ih _⟩

/-- Others spare a fixed list of alarms while an activity makes none. -/
theorem Spared.meanwhile {own : List Nat} (spared : activity.Spared environment own world)
    (uses : activity.Uses commands requests)
    (makes : ∀ command, commands command → ∀ reply, command.makes reply = []) :
    activity.Meanwhile (Alarms.considerate (· ∈ own)) environment world := by
  induction uses generalizing world with
  | done | fail => trivial
  | look _ ih => exact ih _ spared
  | @act command next allowed _ ih =>
      have same : own ++ command.makes (world.apply command).1 = own := by
        rw [makes command allowed, List.append_nil]
      have later : (next (world.apply command).1).Spared environment
          (own ++ command.makes (world.apply command).1) (world.apply command).2 := spared
      rw [same] at later
      exact ih _ later
  | ask _ _ ih => exact ⟨spared.1, ih _ spared.2⟩

namespace Within

theorem bind {next : α → Activity β} (within : activity.Within conduct environment world)
    (onward : ∀ value ran, activity.run environment world = (.ok value, ran) →
      (next value).Within conduct environment ran) :
    (activity >>= next).Within conduct environment world := by
  change (activity.bind next).Within conduct environment world
  induction activity generalizing world with
  | done value => exact onward value world rfl
  | fail failure => trivial
  | look _ ih => exact ih _ within onward
  | act _ _ ih => exact ⟨within.1, ih _ within.2 onward⟩
  | ask _ _ ih => exact ih _ within onward

private theorem ensuring {command : Command} (within : activity.Within conduct environment world)
    (closing : ∀ system, conduct system command) :
    (activity.ensuring command).Within conduct environment world := by
  induction activity generalizing world with
  | done | fail => exact ⟨closing _, trivial⟩
  | look _ ih => exact ih _ within
  | act _ _ ih => exact ⟨within.1, ih _ within.2⟩
  | ask _ _ ih => exact ih _ within

private theorem discard (within : activity.Within conduct environment world) :
    (Functor.discard activity).Within conduct environment world := within.bind fun _ _ _ => trivial

end Within

private theorem Uses.within (uses : activity.Uses commands requests)
    (allowed : ∀ command, commands command → ∀ system, conduct system command) :
    activity.Within conduct environment world := by
  induction uses generalizing world with
  | done | fail => trivial
  | look _ ih => exact ih _
  | act own _ ih => exact ⟨allowed _ own _, ih _⟩
  | ask _ _ ih => exact ih _

theorem Strides.within (strides : activity.Strides commands due)
    (allowed : ∀ command, commands command → ∀ system, conduct system command)
    (marks : ∀ index token system, conduct system (.markReady index token)) :
    activity.Within conduct environment world := by
  induction strides generalizing world with
  | done | fail => trivial
  | look _ ih => exact ih _
  | ask _ _ ih | custom _ ih | job _ ih => exact ih _
  | act own _ ih => exact ⟨allowed _ own _, ih _⟩
  | selector _ ih => exact ⟨marks _ _ _, ih⟩

/-- An activity that goes in strides, with commands of a conduct only, makes a run of the conduct. -/
private theorem Strides.reaches_within {first : System} (strides : Strides commands due activity)
    (within : activity.Within conduct environment world)
    (meanwhile : activity.Meanwhile conduct environment world)
    (begins : ∀ {first last : System} (request : Request), Reaches conduct first last →
      Reaches conduct first (request.begin last))
    (before : Reaches conduct first (world.system.settle due)) :
    Reaches conduct first (activity.run environment world).2.system := by
  induction strides generalizing world with
  | done | fail => exact before
  | look _ ih => exact ih _ within meanwhile before
  | ask _ _ ih => exact ih _ within meanwhile.2 ((begins _ before).trans meanwhile.1)
  | act _ _ ih =>
      refine ih _ within.2 meanwhile ?_
      rw [System.settle_due]
      exact before.stride _ within.1
  | selector _ ih => exact ih within.2 meanwhile before
  | custom _ ih | job _ ih => exact ih _ within meanwhile.2 ((begins _ before).trans meanwhile.1)

end Activity

namespace Alarms

variable {σ α : Type} {environment : Environment σ} {world : World σ} {own named : Nat → Prop}
  {command : Command} {alarm queue bound : Nat}

/-- A command that is plain if it is ordinary handles no alarm at all. -/
theorem considerate_of_plain (plain : command.IsOrdinary → command.IsPlain) (system : System) :
    considerate own system command := by
  cases command with
  | insertAlarm | withdrawAlarm | dropAlarm => exact (plain trivial).elim
  | _ => exact ⟨trivial, fun _ _ => not_false⟩

theorem within_of_plain {activity : Activity α} (plain : activity.Plain) :
    activity.Within (considerate own) environment world :=
  plain.within (fun _ own => considerate_of_plain fun _ => own)
    fun _ _ _ => ⟨trivial, fun _ _ => not_false⟩

theorem considerate_withdraw (foreign : ¬ own alarm) (system : System) :
    considerate own system (.withdrawAlarm queue alarm) :=
  ⟨trivial, fun _ mine same => foreign (same ▸ mine)⟩

theorem considerate_drop (foreign : ¬ own alarm) (system : System) :
    considerate own system (.dropAlarm alarm) :=
  ⟨trivial, fun _ mine same => foreign (same ▸ mine)⟩

theorem add_considerate (exist : alarm < world.system.ledger.count) (foreign : ¬ own alarm) :
    (add queue alarm).Within (considerate own) environment world := by
  rw [add_eq]
  change Activity.Within _ _ (if _ then _ else _) world
  split
  · exact ⟨⟨trivial, fun _ _ => not_false⟩, trivial⟩
  · next belongs =>
    refine ⟨⟨⟨exist, not_not.mp belongs⟩, fun _ mine same => foreign (same ▸ mine)⟩, ?_⟩
    refine (announce_uses queue _ _).within fun command log system => ?_
    cases command with
    | log => exact ⟨trivial, fun _ _ => not_false⟩
    | _ => exact log.elim

/-- A call that makes an alarm for itself, adds it, waits and drops it handles no other one. -/
theorem scope_considerate (owns : world.system.Owns own named) (signal : SignalRef) (deadline : Tick)
    {wait : Nat → Activity α}
    (waits : ∀ world : World σ, ∀ alarm, ¬ own alarm →
      (wait alarm).Within (considerate own) environment world) :
    (Activity.perform (.createAlarm queue signal deadline false) >>= fun alarm =>
      (Functor.discard (add queue alarm) >>= fun _ => wait alarm).ensuring (.dropAlarm alarm)).Within
        (considerate own) environment world := by
  let alarm := world.system.ledger.count
  have foreign : ¬ own alarm := fun mine => Nat.lt_irrefl _ (owns.apart alarm mine).1
  have created := (owns.threaded.createAlarm queue signal deadline false).1
  have exist : alarm < (world.system.createAlarm queue signal deadline false).2.ledger.count :=
    created ▸ Nat.lt_succ_self _
  refine ⟨⟨trivial, fun _ _ => not_false⟩, Within.ensuring ?_ (considerate_drop foreign)⟩
  exact .bind (.discard (add_considerate exist foreign)) fun _ _ _ => waits _ alarm foreign

theorem waitUntil_considerate (owns : world.system.Owns own named) (signal : Nat) (deadline : Tick) :
    (waitUntil bound queue (.shared signal) deadline).Within (considerate own) environment world := by
  change Activity.Within _ _ (if Tick.isDue deadline (world.system.queueNow queue) then _ else _) world
  split
  · trivial
  · refine scope_considerate owns (.shared signal) deadline fun later alarm foreign => ?_
    have waits : ((SignalRef.shared signal).wait bound).Within (considerate own) environment later :=
      within_of_plain (SignalRef.wait_plain bound signal)
    exact waits.bind fun _ _ _ => ⟨considerate_withdraw foreign _, trivial⟩

private theorem waitFor_considerate (owns : world.system.Owns own named) (signal : Nat) (delay : Tick) :
    (waitFor bound queue (.shared signal) delay).Within (considerate own) environment world := by
  rw [waitFor]
  split
  · trivial
  · exact waitUntil_considerate owns signal _

end Alarms

namespace Selector

variable {σ : Type} {environment : Environment σ} {world : World σ} {own named : Nat → Prop}
  {queue bound : Nat}

private theorem waitFor_considerate (owns : world.system.Owns own named) (selector : Nat) (timeout : Tick) :
    (waitFor bound selector queue timeout).Within (Alarms.considerate own) environment world := by
  have taken : (Activity.perform (.takeReady selector)).Within (Alarms.considerate own) environment world :=
    ⟨⟨trivial, fun _ _ => not_false⟩, trivial⟩
  refine taken.bind fun signal ready same => ?_
  cases signal with
  | some signal => trivial
  | none =>
      change Activity.Within _ _ (if timeout = 0 then _ else _) _
      split
      · trivial
      · have silent : (Activity.perform (.takeReady selector)).Meanwhile anything environment world :=
          trivial
        have kept := owns.run silent
        rw [same] at kept
        exact Alarms.scope_considerate kept (.selector selector) _ fun later alarm foreign =>
          Alarms.within_of_plain (awaitReadyOrAlarm_plain bound selector alarm bound)

end Selector

namespace Rings

variable {σ : Type} {environment : Environment σ} {world : World σ} {own named : Nat → Prop}
  {queue bound : Nat}

private theorem waitUntil_considerate {conduct : Conduct} (owns : world.system.Owns own named)
    (ring signal : Nat) (deadline : Tick) (rounds : Nat)
    (meanwhile : (waitUntil bound ring queue signal deadline rounds).Meanwhile conduct environment world) :
    (waitUntil bound ring queue signal deadline rounds).Within (Alarms.considerate own) environment
      world := by
  induction rounds generalizing world with
  | zero => trivial
  | succ rounds ih =>
      change Activity.Meanwhile _ _ (if !(world.system.rings.get ring).isEmpty then _ else _) world
        at meanwhile
      change Activity.Within _ _ (if !(world.system.rings.get ring).isEmpty then _ else _) world
      split
      · trivial
      · next empty =>
        rw [if_neg empty] at meanwhile
        obtain ⟨during, after⟩ := meanwhile_bind.mp meanwhile
        refine (Alarms.waitUntil_considerate owns signal deadline).bind fun posted ran returned => ?_
        have kept := owns.run during
        rw [returned] at kept
        cases posted with
        | true => exact ih kept (after true ran returned)
        | false => trivial

private theorem waitFor_considerate {conduct : Conduct} (owns : world.system.Owns own named) (ring : Nat)
    (timeout : Tick)
    (meanwhile : (waitFor bound ring queue timeout).Meanwhile conduct environment world) :
    (waitFor bound ring queue timeout).Within (Alarms.considerate own) environment world := by
  change Activity.Meanwhile _ _ (if !(world.system.rings.get ring).isEmpty then _ else _) world
    at meanwhile
  change Activity.Within _ _ (if !(world.system.rings.get ring).isEmpty then _ else _) world
  split
  · trivial
  · next empty =>
    rw [if_neg empty] at meanwhile
    obtain ⟨-, after⟩ := meanwhile_bind.mp meanwhile
    refine Within.bind trivial fun associated ran same => ?_
    have later := after associated ran same
    have unmoved : world = ran := congrArg Prod.snd same
    subst unmoved
    cases associated with
    | none => exact ⟨⟨trivial, fun _ _ => not_false⟩, trivial⟩
    | some signal => exact waitUntil_considerate owns ring signal _ bound later

end Rings

/-! ### Operations inside one another -/

section Operations

variable {own named : Nat → Prop} {bound : Nat}

open Alarms

/-- An operation that names alarms with an owner only leaves the alarms of the calls around it alone. -/
private theorem Action.within_considerate {σ : Type} {environment : Environment σ} {world : World σ}
    {action : Action}
    {conduct : Conduct} (names : action.Names named) (owns : world.system.Owns own named)
    (meanwhile : (action.activity bound).Meanwhile conduct environment world) :
    (action.activity bound).Within (considerate own) environment world := by
  by_cases schedules : action.Schedules
  · have exist : ∀ place, named place →
        world.system.alarms.owned.getD place 0 < world.system.ledger.count :=
      fun place names => owns.exist _ (owns.named place names)
    have foreign : ∀ place, named place → ¬ own (world.system.alarms.owned.getD place 0) :=
      fun place names mine => owns.ne_named names mine rfl
    have answering : ∀ {activity : Activity Bool}, activity.Within (considerate own) environment world →
        (activity >>= fun value => .done (Answer.flag value)).Within (considerate own) environment world :=
      fun within => within.bind fun _ _ _ => trivial
    cases action with
    | addAlarm queue place =>
        exact answering (add_considerate (exist place names) (foreign place names))
    | scheduleAlarm place =>
        exact answering (add_considerate (exist place names) (foreign place names))
    | withdrawAlarm | cancelAlarm =>
        exact ⟨considerate_withdraw (foreign _ names) _, trivial⟩
    | dropAlarm place => exact ⟨considerate_drop (foreign place names) _, trivial⟩
    | waitFor queue signal delay => exact answering (waitFor_considerate owns signal delay)
    | waitUntil queue signal deadline => exact answering (waitUntil_considerate owns signal deadline)
    | selectFor selector queue timeout =>
        exact (Selector.waitFor_considerate owns selector timeout).bind fun _ _ _ => trivial
    | waitForElements ring queue timeout =>
        obtain ⟨during, -⟩ := meanwhile_bind.mp meanwhile
        exact answering (Rings.waitFor_considerate owns ring timeout during)
    | _ => exact schedules.elim
  · exact (Action.activity_plain schedules bound).within
      (fun command applied => considerate_of_plain applied.2) fun _ _ _ => ⟨trivial, fun _ _ => not_false⟩

private theorem Reaches.begin_considerate {first last : System} (request : Request)
    (before : Reaches (considerate own) first last) :
    Reaches (considerate own) first (request.begin last) := by
  cases request with
  | rearm log delay =>
      have rearmed := before.note (.rearmed log delay) trivial
      exact rearmed.stride (.addRearm log delay) ⟨trivial, fun _ _ => not_false⟩
  | sleep clock delay =>
      have slept := before.note (.slept clock delay) trivial
      exact slept.stride (.advance clock delay) ⟨trivial, fun _ _ => not_false⟩
  | observe | execute | idle => exact before.note _ trivial

/-- A prompter that leaves the alarms of a call alone wherever they are apart from the owned ones does so
during the call. -/
private theorem Activity.meanwhile_of_owned_cues {α : Type} {activity : Activity α} {world : World Prompter}
    (owns : world.system.Owns own named)
    (cues : ∀ cue ∈ world.outside.cues, ∀ system : System, system.Owns own named →
      Reaches (considerate own) system (cue.play system).2) :
    activity.Meanwhile (considerate own) Prompter.environment world := by
  induction activity generalizing world with
  | done | fail => trivial
  | look _ ih => exact ih _ owns cues
  | act command _ ih => exact ih _ (owns.apply command) cues
  | ask request _ ih =>
      obtain ⟨system, pending, endings⟩ := world
      have begun := owns.begin request
      cases pending with
      | nil => exact ⟨.refl _, ih _ begun cues⟩
      | cons cue rest =>
          have played := cues cue List.mem_cons_self _ begun
          have later := fun other member => cues other (List.mem_cons_of_mem cue member)
          exact ⟨played, ih _ (begun.reaches played) later⟩

mutual

/-- Operations that name alarms with an owner only leave the alarms of the calls around them alone. -/
theorem Script.All.considerate (bound : Nat) {script : Script} (all : script.All (Action.Names named))
    {system : System} (owns : system.Owns own named) :
    Reaches (considerate own) system (script.run bound system).2 := by
  cases script with
  | done => exact .refl system
  | call action inside rest =>
      obtain ⟨names, within, later⟩ := all
      let world : World Prompter := { system, outside := { cues := inside.cues bound } }
      have meanwhile :
          (action.activity bound).Meanwhile (Alarms.considerate own) Prompter.environment world :=
        meanwhile_of_owned_cues owns fun cue member system owns =>
          Interludes.All.considerate bound within cue member owns
      have ran := (action.activity_strides bound).reaches_within
        (Action.within_considerate names owns meanwhile) meanwhile
        (fun request before => before.begin_considerate request) (.refl system)
      exact ran.trans (later.considerate bound (owns.reaches ran))

theorem Interludes.All.considerate (bound : Nat) {interludes : Interludes}
    (all : interludes.All (Action.Names named)) (cue : Cue) (member : cue ∈ interludes.cues bound)
    {system : System} (owns : system.Owns own named) :
    Reaches (considerate own) system (cue.play system).2 := by
  cases interludes with
  | none => cases member
  | next script answer rest =>
      rcases List.mem_cons.mp member with rfl | member
      · exact all.1.considerate bound owns
      · exact Interludes.All.considerate bound all.2 cue member owns

end

/-- Whatever operations run inside a call, as long as they name alarms with an owner only, they leave the
alarms alone that the call makes for itself. -/
theorem Interludes.All.spares {α : Type} {interludes : Interludes}
    (all : interludes.All (Action.Names named)) {activity : Activity α} {mine : List Nat}
    {world : World Prompter} (owns : world.system.Owns (· ∈ mine) named)
    (cues : ∀ cue ∈ world.outside.cues, cue ∈ interludes.cues bound) :
    activity.Spared Prompter.environment mine world := by
  induction activity generalizing world mine with
  | done | fail => trivial
  | look _ ih => exact ih _ owns cues
  | act command _ ih => exact ih _ (owns.make command) cues
  | ask request _ ih =>
      obtain ⟨system, pending, endings⟩ := world
      have begun := owns.begin request
      cases pending with
      | nil => exact ⟨.refl _, ih _ begun cues⟩
      | cons cue rest =>
          have played := Interludes.All.considerate bound all cue (cues cue List.mem_cons_self) begun
          have later := fun other member => cues other (List.mem_cons_of_mem cue member)
          exact ⟨played, ih _ (begun.reaches played) later⟩

end Operations

end TimedWaits
