import TimedWaits.Activity
import TimedWaits.Proofs.Alarms.Ledger

/-! Runs of commands, and activities as parts of such runs. What a run may contain is said in terms
of the ledgers before and after each command. -/

set_option autoImplicit false

namespace TimedWaits

/-- What may happen to a ledger by a command. -/
abbrev Permit := Ledger → Command → Ledger → Prop

def System.applyAll (system : System) : List Command → System
  | [] => system
  | command :: rest => (command.apply system).2.applyAll rest

def Permit.Allows (permits : Permit) (system : System) : List Command → Prop
  | [] => True
  | command :: rest =>
      permits system.ledger command (command.apply system).2.ledger ∧
        permits.Allows (command.apply system).2 rest

/-- A system leads to another by permitted commands. In between anything may be noted that says
nothing about alarms. -/
inductive Leads (permits : Permit) : System → System → Prop where
  | refl (system : System) : Leads permits system system
  | apply {first last : System} {command : Command} (before : Leads permits first last)
      (permitted : permits last.ledger command (command.apply last).2.ledger) :
      Leads permits first (command.apply last).2
  | note {first last : System} {occurrence : Occurrence} (before : Leads permits first last)
      (report : occurrence.IsReport) : Leads permits first (last.record occurrence)

namespace Leads

variable {permits : Permit} {first middle last : System}

theorem trans (before : Leads permits first middle) (after : Leads permits middle last) :
    Leads permits first last := by
  induction after with
  | refl => exact before
  | apply _ permitted ih => exact .apply ih permitted
  | note _ report ih => exact .note ih report

theorem single {command : Command}
    (permitted : permits first.ledger command (command.apply first).2.ledger) :
    Leads permits first (command.apply first).2 := .apply (.refl first) permitted

theorem applyAll {commands : List Command} (allowed : permits.Allows first commands) :
    Leads permits first (first.applyAll commands) := by
  induction commands generalizing first with
  | nil => exact .refl first
  | cons command rest ih => exact (single allowed.1).trans (ih allowed.2)

/-- What holds of a ledger at the start of a run and is kept by every permitted step holds at its
end, where the links of the alarms are in order as well. -/
theorem preserves {motive : Ledger → Prop} (leads : Leads permits first last)
    (threaded : first.Threaded) (start : motive first.ledger)
    (keeps : ∀ {ledger next : Ledger} {command : Command}, motive ledger →
      ledger.Step command next → permits ledger command next → motive next) :
    last.Threaded ∧ motive last.ledger := by
  induction leads with
  | refl => exact ⟨threaded, start⟩
  | @apply last command _ permitted ih =>
      obtain ⟨step, kept⟩ := command.step_apply ih.1
      exact ⟨kept, keeps ih.2 step permitted⟩
  | note _ report ih =>
      rw [System.Threaded, System.ledger, System.timing_record report]
      exact ih

end Leads

namespace Activity

variable {σ α β : Type} {permits : Permit}

/-- From a system on, an activity applies permitted commands only, as long as the surroundings do
the same whenever it asks for something. -/
def Keeps (permits : Permit) : Activity α → System → Prop
  | .done _, _ => True
  | .fail _, _ => True
  | .look next, system => (next system).Keeps permits system
  | .act command next, system =>
      permits system.ledger command (command.apply system).2.ledger ∧
        (next (command.apply system).1).Keeps permits (command.apply system).2
  | .ask _ next, system =>
      ∀ outcome later, Leads permits system later → (next outcome).Keeps permits later

/-- Run in surroundings that go on with a run by permitted commands, an activity that keeps to such
commands is a part of that run. -/
theorem Keeps.run_leads {environment : Environment σ} {activity : Activity α} {world : World σ}
    (moves : ∀ request later, Leads permits world.system later.system →
      Leads permits later.system (environment request later).2.system)
    (keeps : activity.Keeps permits world.system) :
    Leads permits world.system (activity.run environment world).2.system := by
  induction activity generalizing world with
  | done value => exact .refl _
  | fail failure => exact .refl _
  | look next ih => exact ih _ moves keeps
  | act command next ih =>
      have first := Leads.single keeps.1
      let changed := (world.apply command).2
      exact first.trans (@ih (command.apply world.system).1 changed
        (fun request later leads => moves request later (first.trans leads)) keeps.2)
  | ask request next ih =>
      have moved := moves request world (.refl _)
      exact moved.trans (ih _ (fun other later leads => moves other later (moved.trans leads))
        (keeps _ _ moved))

theorem run_bind (environment : Environment σ) (activity : Activity α)
    (continuation : α → Activity β) (world : World σ) :
    (activity >>= continuation).run environment world =
      match activity.run environment world with
      | (.ok value, ran) => (continuation value).run environment ran
      | (.error failure, ran) => (.error failure, ran) := by
  change (activity.bind continuation).run environment world = _
  induction activity generalizing world with
  | done value => rfl
  | fail failure => rfl
  | look next ih => exact ih _ _
  | act command next ih => exact ih _ _
  | ask request next ih => exact ih _ _

end Activity

end TimedWaits
