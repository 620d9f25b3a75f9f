import TimedWaits.Proofs.Runs.Operations
import TimedWaits.Proofs.Selectors.Runs

/-! Operations that leave a selector to its users make runs that do, inside one another as well. -/

set_option autoImplicit false

namespace TimedWaits

/-- Whether an operation deals with a selector as its users do: it neither makes nor drops it, attaches
or detaches it by itself, nor calls it without a post. -/
def Action.Respects (index : Nat) : Action → Prop
  | .attach _ observer _ | .detach _ observer => observer ≠ .selector index
  | .callSelector selector _ | .dropSelector selector | .createSelector selector _ _ =>
    selector ≠ index
  | .forward _ => False
  | _ => True

variable {index : Nat}

theorem Command.IsOrdinary.respects {command : Command} (ordinary : command.IsOrdinary) :
    command.Respects index := by
  cases command with
  | take signal =>
      obtain ⟨shared, rfl⟩ := ordinary
      exact fun same => nomatch same
  | attach | detach | markReady | createSelector | dropSelector => exact ordinary.elim
  | _ => trivial

private theorem Action.Applies.respects {action : Action} {command : Command}
    (respects : action.Respects index)
    (applies : action.Applies command) : command.Respects index := by
  cases applies with
  | ordinary ordinary => exact ordinary.respects
  | own own =>
      cases action with
      | attach | detach | callSelector | createSelector | dropSelector =>
          cases own
          exact respects
      | createWorker | dropWorker | putJob =>
          cases own
          trivial
      | _ => cases own
  | forward forwards =>
      cases action with
      | forward => exact respects.elim
      | _ => exact forwards.elim

theorem Alarms.add_quiet (queue alarm : Nat) :
    (Alarms.add queue alarm).Uses (·.IsQuiet index)
      fun request => ∃ target delay, request = .rearm target delay :=
  add_uses queue alarm (.of_unrelated trivial not_false rfl)
    fun _ => .of_unrelated trivial not_false rfl

/-! ### Runs of operations -/

mutual

def Script.Respects (index : Nat) : Script → Prop
  | .done => True
  | .call action inside rest =>
    action.Respects index ∧ inside.Respects index ∧ rest.Respects index

def Interludes.Respects (index : Nat) : Interludes → Prop
  | .none => True
  | .next script _ rest => script.Respects index ∧ rest.Respects index

end

mutual

theorem Script.Respects.all {script : Script} (respectful : script.Respects index) :
    script.All (·.Respects index) := by
  cases script with
  | done => trivial
  | call => exact ⟨respectful.1, respectful.2.1.all, respectful.2.2.all⟩

theorem Interludes.Respects.all {interludes : Interludes} (respectful : interludes.Respects index) :
    interludes.All (·.Respects index) := by
  cases interludes with
  | none => trivial
  | next => exact ⟨respectful.1.all, respectful.2.all⟩

end

/-- Operations that respect a selector make a run that does, whatever goes on inside each of them. -/
theorem Script.reaches (bound : Nat) (script : Script) (respectful : script.Respects index)
    (system : System) : Reaches (respects index) system (script.run bound system).2 :=
  respectful.all.runs (fun _ respects _ applies => applies.respects respects) bound system

end TimedWaits
