import TimedWaits.Proofs.Shift.Commands

/-! Activities that go the same way in a system and in one with all moments moved. -/

set_option autoImplicit false

namespace TimedWaits

namespace Activity

variable {k : Tick} {α β γ δ : Type}

/-- Two activities go the same way, the second in a system with all moments moved: they look at the
system and apply commands to the same effect, ask for the same things, give up for the same reasons
and end with related answers. -/
inductive Alike (k : Tick) {α β : Type} (related : α → β → Prop) : Activity α → Activity β → Prop where
  | done {value : α} {moved : β} (same : related value moved) :
      Alike k related (.done value) (.done moved)
  | fail (failure : Failure) : Alike k related (.fail failure) (.fail failure)
  | look {next : System → Activity α} {moved : System → Activity β}
      (onward : ∀ system, Alike k related (next system) (moved (system.shift k))) :
      Alike k related (.look next) (.look moved)
  | act {command commandMoved : Command} {next : command.Reply → Activity α}
      {moved : commandMoved.Reply → Activity β}
      (effect : ∀ system,
        (commandMoved.apply (system.shift k)).2 = (command.apply system).2.shift k)
      (onward : ∀ system, Alike k related (next (command.apply system).1)
        (moved (commandMoved.apply (system.shift k)).1)) :
      Alike k related (.act command next) (.act commandMoved moved)
  | ask {request : Request} {next : Except Failure Unit → Activity α}
      {moved : Except Failure Unit → Activity β}
      (onward : ∀ outcome, Alike k related (next outcome) (moved outcome)) :
      Alike k related (.ask request next) (.ask request moved)

/-- An activity that goes the same way in both systems and ends with the same answer. -/
abbrev Steady (k : Tick) (activity : Activity α) : Prop := Alike k Eq activity activity

namespace Alike

variable {related : α → β → Prop} {relatedNext : γ → δ → Prop} {activity : Activity α}
  {moved : Activity β}

theorem bind {next : α → Activity γ} {nextMoved : β → Activity δ}
    (alike : Alike k related activity moved)
    (onward : ∀ value valueMoved, related value valueMoved →
      Alike k relatedNext (next value) (nextMoved valueMoved)) :
    Alike k relatedNext (activity >>= next) (moved >>= nextMoved) := by
  change Alike k relatedNext (activity.bind next) (moved.bind nextMoved)
  induction alike with
  | done same => exact onward _ _ same
  | fail failure => exact .fail failure
  | look _ ih => exact .look ih
  | act effect _ ih => exact .act effect ih
  | ask _ ih => exact .ask ih

theorem ensuring {command : Command} (alike : Alike k related activity moved)
    (timeless : command.IsTimeless) :
    Alike k related (activity.ensuring command) (moved.ensuring command) := by
  have effect : ∀ system, (command.apply (system.shift k)).2 = (command.apply system).2.shift k :=
    fun system => congrArg Prod.snd (Command.apply_shift timeless system)
  induction alike with
  | done same => exact .act effect fun _ => .done same
  | fail failure => exact .act effect fun _ => .fail failure
  | look _ ih => exact .look ih
  | act changes _ ih => exact .act changes ih
  | ask _ ih => exact .ask ih

theorem discarded (alike : Alike k related activity moved) :
    Alike k Eq (Functor.discard activity) (Functor.discard moved) :=
  alike.bind fun _ _ _ => .done rfl

theorem andThen {next : α → Activity γ} {nextMoved : α → Activity δ}
    (steady : Steady k activity)
    (onward : ∀ value, Alike k relatedNext (next value) (nextMoved value)) :
    Alike k relatedNext (activity >>= next) (activity >>= nextMoved) :=
  bind steady fun value _ same => same ▸ onward value

theorem performing {command : Command} {next : command.Reply → Activity γ}
    {nextMoved : command.Reply → Activity δ} (timeless : command.IsTimeless)
    (onward : ∀ reply, Alike k relatedNext (next reply) (nextMoved reply)) :
    Alike k relatedNext (.act command next) (.act command nextMoved) := by
  refine .act (fun system => congrArg Prod.snd (Command.apply_shift timeless system))
    fun system => ?_
  rw [Command.apply_shift timeless]
  exact onward _

theorem perform {command : Command} (timeless : command.IsTimeless) :
    Steady k (.perform command) := performing timeless fun _ => .done rfl

theorem request (wish : Request) : Steady k (.request wish) := by
  refine .ask fun outcome => ?_
  cases outcome with
  | ok => exact .done rfl
  | error failure => exact .fail failure

theorem halt (reason : String) : Alike k related (.halt reason) (.halt reason) :=
  .act (fun _ => rfl) fun _ => .fail _

theorem reading {next : α → Activity γ} {nextMoved : β → Activity δ} {view : System → α}
    {viewMoved : System → β} (change : α → β)
    (moves : ∀ system, viewMoved (system.shift k) = change (view system))
    (onward : ∀ value, Alike k relatedNext (next value) (nextMoved (change value))) :
    Alike k relatedNext (.read view >>= next) (.read viewMoved >>= nextMoved) := by
  refine .look fun system => ?_
  change Alike k relatedNext (next (view system)) (nextMoved (viewMoved (system.shift k)))
  rw [moves]
  exact onward _

theorem observing {next : α → Activity γ} {nextMoved : α → Activity δ}
    {view viewMoved : System → α} (same : ∀ system, viewMoved (system.shift k) = view system)
    (onward : ∀ value, Alike k relatedNext (next value) (nextMoved value)) :
    Alike k relatedNext (.read view >>= next) (.read viewMoved >>= nextMoved) :=
  reading id same onward

theorem read {view : System → α} {viewMoved : System → β}
    (moves : ∀ system, related (view system) (viewMoved (system.shift k))) :
    Alike k related (.read view) (.read viewMoved) :=
  .look fun system => .done (moves system)

end Alike

end Activity

end TimedWaits
