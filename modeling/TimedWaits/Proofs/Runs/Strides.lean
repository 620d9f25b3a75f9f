import TimedWaits.Proofs.Runs.Surroundings

/-! Activities that go in strides. When a command leaves an observer to be called, or takes a job off its
list, the call of that very observer or the execution of that very job is the next thing that they do. So
what they do is a run in strides, whatever the surroundings do in between. -/

set_option autoImplicit false

namespace TimedWaits

/-- What has to be done next: to call an observer, or to have a job executed. -/
inductive Due where
  | nothing
  | call (attachment : Attachment)
  | job (job : Nat)

def Due.ofCall : Option Attachment → Due
  | none => .nothing
  | some attachment => .call attachment

/-- What a command leaves to be done. -/
def Command.due : (command : Command) → command.Reply → Due
  | .nextJob _, some job => .job job
  | .takeTurn _, .run job => .job job
  | command, reply => .ofCall (command.call? reply)

/-- Calls an observer that is due if it is a selector. -/
def System.settle (system : System) : Due → System
  | .call attachment => system.callSelector (some attachment)
  | _ => system

theorem System.settle_due (system : System) (command : Command) (reply : command.Reply) :
    system.settle (command.due reply) = system.callSelector (command.call? reply) := by
  have calls : ∀ owed : Option Attachment, system.settle (.ofCall owed) = system.callSelector owed := by
    intro owed
    cases owed <;> rfl
  cases command with
  | nextJob => cases reply <;> rfl
  | takeTurn => cases reply <;> rfl
  | _ => exact calls (Command.call? _ reply)

/-- Anything but the execution of a job. -/
def Request.IsPlain : Request → Prop
  | .execute _ => False
  | _ => True

namespace Activity

variable {σ α β : Type} {commands : Command → Prop} {due : Due} {activity : Activity α}

/-- An activity applies some commands only, and goes in strides from a point where something may be due.
An observer of the surroundings is asked for its call and a job for its execution, which are up to
them. -/
inductive Strides (commands : Command → Prop) {α : Type} : Due → Activity α → Prop where
  | done (value : α) : Strides commands .nothing (.done value)
  | fail (failure : Failure) : Strides commands .nothing (.fail failure)
  | look {next : System → Activity α} (onward : ∀ system, Strides commands .nothing (next system)) :
      Strides commands .nothing (.look next)
  | ask {request : Request} {next : Except Failure Unit → Activity α} (plain : request.IsPlain)
      (onward : ∀ outcome, Strides commands .nothing (next outcome)) :
      Strides commands .nothing (.ask request next)
  | act {command : Command} {next : command.Reply → Activity α} (allowed : commands command)
      (onward : ∀ reply, Strides commands (command.due reply) (next reply)) :
      Strides commands .nothing (.act command next)
  | selector {index token : Nat} {next : Unit → Activity α}
      (onward : Strides commands .nothing (next ())) :
      Strides commands (.call ⟨.selector index, token⟩) (.act (.markReady index token) next)
  | custom {index token : Nat} {next : Except Failure Unit → Activity α}
      (onward : ∀ outcome, Strides commands .nothing (next outcome)) :
      Strides commands (.call ⟨.custom index, token⟩) (.ask (.observe index token) next)
  | job {job : Nat} {next : Except Failure Unit → Activity α}
      (onward : ∀ outcome, Strides commands .nothing (next outcome)) :
      Strides commands (.job job) (.ask (.execute job) next)

namespace Strides

theorem bind {next : α → Activity β} (strides : Strides commands due activity)
    (onward : ∀ value, Strides commands .nothing (next value)) :
    Strides commands due (activity >>= next) := by
  change Strides commands due (activity.bind next)
  induction strides with
  | done value => exact onward value
  | fail failure => exact .fail failure
  | look _ ih => exact .look ih
  | ask plain _ ih => exact .ask plain ih
  | act allowed _ ih => exact .act allowed ih
  | selector _ ih => exact .selector ih
  | custom _ ih => exact .custom ih
  | job _ ih => exact .job ih

/-- What comes after a command begins with what the command left to be done. -/
theorem andThen {command : Command} {next : command.Reply → Activity β} (allowed : commands command)
    (onward : ∀ reply, Strides commands (command.due reply) (next reply)) :
    Strides commands .nothing (.perform command >>= next) := .act allowed onward

theorem ensuring {command : Command} (strides : Strides commands due activity)
    (allowed : commands command) (quiet : ∀ reply, command.due reply = .nothing) :
    Strides commands due (activity.ensuring command) := by
  have closing : ∀ {last : Activity α}, Strides commands .nothing last →
      Strides commands .nothing (.act command fun _ => last) := by
    intro last strides
    refine .act allowed fun reply => ?_
    rwa [quiet]
  induction strides with
  | done value => exact closing (.done value)
  | fail failure => exact closing (.fail failure)
  | look _ ih => exact .look ih
  | ask plain _ ih => exact .ask plain ih
  | act own _ ih => exact .act own ih
  | selector _ ih => exact .selector ih
  | custom _ ih => exact .custom ih
  | job _ ih => exact .job ih

theorem perform {command : Command} (allowed : commands command)
    (quiet : ∀ reply, command.due reply = .nothing) :
    Strides commands .nothing (.perform command) := by
  refine .act allowed fun reply => ?_
  rw [quiet]
  exact .done reply

theorem read (view : System → α) : Strides commands .nothing (.read view) := .look fun _ => .done _

/-- What an activity does after the answer to a request, if the answer is a failure, is to give up. -/
theorem answered (outcome : Except Failure Unit) :
    Strides commands .nothing (match outcome with
      | .ok () => .done ()
      | .error failure => .fail failure) := by
  cases outcome with
  | ok => exact .done ()
  | error failure => exact .fail failure

theorem request {wish : Request} (plain : wish.IsPlain) :
    Strides commands .nothing (.request wish) := .ask plain answered

theorem execute (job : Nat) : Strides commands (.job job) (.request (.execute job)) := .job answered

theorem halt {reason : String} (allowed : commands (.log (.halted reason))) :
    Strides commands .nothing (.halt reason : Activity α) := .act allowed fun _ => .fail _

theorem discard (strides : Strides commands due activity) :
    Strides commands due (Functor.discard activity) := strides.bind fun _ => .done ()

theorem callAny (owed : Option Attachment) :
    Strides commands (.ofCall owed) (Attachment.callAny owed) := by
  cases owed with
  | none => exact .done ()
  | some attachment =>
      obtain ⟨observer, token⟩ := attachment
      cases observer with
      | custom index => exact .custom answered
      | selector index => exact .selector (.done ())

theorem awaitPost (signal : SignalRef) (bound : Nat) :
    Strides commands .nothing (signal.awaitPost bound) := by
  induction bound with
  | zero => exact .fail _
  | succ bound ih =>
      refine .bind (.read _) fun pending => ?_
      split
      · exact .bind (.request trivial) fun _ => ih
      · exact .done ()

theorem mono {others : Command → Prop} (strides : Strides commands due activity)
    (weaker : ∀ command, commands command → others command) : Strides others due activity := by
  induction strides with
  | done value => exact .done value
  | fail failure => exact .fail failure
  | look _ ih => exact .look ih
  | ask plain _ ih => exact .ask plain ih
  | act allowed _ ih => exact .act (weaker _ allowed) ih
  | selector _ ih => exact .selector ih
  | custom _ ih => exact .custom ih
  | job _ ih => exact .job ih

theorem of_uses {requests : Request → Prop} (uses : activity.Uses commands requests)
    (quiet : ∀ command, commands command → ∀ reply, command.due reply = .nothing)
    (plain : ∀ request, requests request → request.IsPlain) :
    Strides commands .nothing activity := by
  induction uses with
  | done value => exact .done value
  | fail failure => exact .fail failure
  | look _ ih => exact .look ih
  | ask own _ ih => exact .ask (plain _ own) ih
  | act own _ ih =>
      refine .act own fun reply => ?_
      rw [quiet _ own]
      exact ih reply

/-- What an activity that goes in strides makes of a system, and others meanwhile, is a run. -/
theorem reaches {environment : Environment σ} {world : World σ} {first : System}
    (strides : Strides commands due activity)
    (begins : ∀ {first last : System} (request : Request), Reaches (fun _ => commands) first last →
      Reaches (fun _ => commands) first (request.begin last))
    (meanwhile : activity.Meanwhile (fun _ => commands) environment world)
    (before : Reaches (fun _ => commands) first (world.system.settle due)) :
    Reaches (fun _ => commands) first (activity.run environment world).2.system := by
  -- `before` already counts the call that is due, though the activity has yet to make it. So a command
  -- adds its whole stride to the run, and the call that follows it adds nothing.
  induction strides generalizing world with
  | done | fail => exact before
  | look _ ih => exact ih _ meanwhile before
  | ask _ _ ih => exact ih _ meanwhile.2 ((begins _ before).trans meanwhile.1)
  | act allowed _ ih =>
      refine ih _ meanwhile ?_
      rw [System.settle_due]
      exact before.stride _ allowed
  | selector _ ih => exact ih meanwhile before
  | custom _ ih | job _ ih => exact ih _ meanwhile.2 ((begins _ before).trans meanwhile.1)

/-- At every request the system has come about by a run. -/
theorem asks {environment : Environment σ} {world : World σ} {first : System}
    (strides : Strides commands due activity)
    (begins : ∀ {first last : System} (request : Request), Reaches (fun _ => commands) first last →
      Reaches (fun _ => commands) first (request.begin last))
    (meanwhile : activity.Meanwhile (fun _ => commands) environment world)
    (before : Reaches (fun _ => commands) first (world.system.settle due)) :
    activity.Asks (fun _ now => Reaches (fun _ => commands) first now) environment world := by
  induction strides generalizing world with
  | done | fail => trivial
  | look _ ih => exact ih _ meanwhile before
  | act allowed _ ih =>
      refine ih _ meanwhile ?_
      rw [System.settle_due]
      exact before.stride _ allowed
  | selector _ ih => exact ih meanwhile before
  | ask _ _ ih | custom _ ih | job _ ih =>
      exact ⟨before, ih _ meanwhile.2 ((begins _ before).trans meanwhile.1)⟩

end Strides

/-- A prompter whose cues are runs of a conduct goes on by that conduct. -/
theorem Meanwhile.of_cues {conduct : Conduct} {world : World Prompter}
    (cues : ∀ cue ∈ world.outside.cues, ∀ system, Reaches conduct system (cue.play system).2) :
    activity.Meanwhile conduct Prompter.environment world := by
  -- Each request takes a cue; once there are none left, nothing happens at a request.
  induction activity generalizing world with
  | done | fail => trivial
  | look _ ih => exact ih _ cues
  | act _ _ ih => exact ih _ cues
  | ask request _ ih =>
      obtain ⟨system, pending, endings⟩ := world
      cases pending with
      | nil => exact ⟨.refl _, ih _ cues⟩
      | cons cue rest =>
          have later := fun other member => cues other (List.mem_cons_of_mem cue member)
          exact ⟨cues cue List.mem_cons_self _, ih _ later⟩

end Activity

end TimedWaits
