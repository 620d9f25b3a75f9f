import TimedWaits.Activity

/-!
Posting and waiting. Every loop takes a bound on its rounds; a call that uses the bound up fails
with `Failure.exhausted`, which no finished call does.
-/

set_option autoImplicit false

namespace TimedWaits

/-- Calls an attached observer with its token: the surroundings react for an observer of theirs,
and a selector marks the slot that the token names. -/
def Attachment.call (attachment : Attachment) : Activity Unit :=
  match attachment.observer with
  | .custom index => .request (.observe index attachment.token)
  | .selector index => .perform (.markReady index attachment.token)

def Attachment.callAny : Option Attachment → Activity Unit
  | none => .done ()
  | some attachment => attachment.call

namespace SignalRef

/-- Posts a signal: its observer is called if it has one, and else its count is raised. -/
def post (signal : SignalRef) : Activity Unit := do
  Attachment.callAny (← .perform (.beginPost signal))

/-- Calls the observer of a signal, and says whether it has one. The count stays as it is. -/
def forward (signal : SignalRef) : Activity Bool := do
  match ← .read fun system => (system.signal signal).attachment with
  | none => return false
  | some attachment =>
    attachment.call
    return true

/-- Lets others act until there is a post to take. -/
def awaitPost (signal : SignalRef) : Nat → Activity Unit
  | 0 => .fail .exhausted
  | bound + 1 => do
    if (← .read fun system => (system.signal signal).pending) = 0 then
      .request (.idle signal)
      signal.awaitPost bound

/-- Blocks until there is a post, and takes it. -/
def wait (bound : Nat) (signal : SignalRef) : Activity Unit := do
  signal.awaitPost bound
  discard <| .perform (.take signal)

end SignalRef

end TimedWaits
