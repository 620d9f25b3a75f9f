import TimedWaits.Tick

/-!
How a call ends: with an answer, which may be a refusal, or cut short by a failure. A refusal is
an ordinary answer and changes nothing; a failure ends every call that is in progress.
-/

set_option autoImplicit false

namespace TimedWaits

inductive Refusal where
  | signalHasObserver
  | selectorFull
  | selectedSignalHasObserver
  | ringHasSignal
  deriving DecidableEq

def Refusal.message : Refusal → String
  | .signalHasObserver => "post hook slot already occupied"
  | .selectorFull => "select capacity exhausted"
  | .selectedSignalHasObserver => "signal already has a post hook"
  | .ringHasSignal => "a signal is already associated with this ring buffer"

/-- Why a call is cut short: a precondition is broken, a blocked wait can never be woken, an
operation of the surroundings gave up, or the bound on the work ran out. -/
inductive Failure where
  | fatal (reason : String)
  | stalled
  | thrown (message : String)
  | exhausted
  deriving DecidableEq

/-- The answer of a call. Ticks that name a moment are kept apart from delays, which are lengths of
time. -/
inductive Answer where
  | nothing
  | done
  | flag (value : Bool)
  | moment (tick : Tick)
  | moments (ticks : List Tick)
  | delay (ticks : Tick)
  | delays (ticks : List Tick)
  | count (number : Nat)
  | element (value : Int)
  | text (content : String)
  | slice (count : Nat) (elements : List Int)
  | refused (refusal : Refusal)
  deriving DecidableEq

abbrev Outcome := Except Failure Answer

-- the core library decides no equality of `Except`
instance Outcome.decidableEq : DecidableEq Outcome
  | .ok first, .ok second => decidable_of_iff (first = second) (by rw [Except.ok.injEq])
  | .error first, .error second => decidable_of_iff (first = second) (by rw [Except.error.injEq])
  | .ok _, .error _ => .isFalse nofun
  | .error _, .ok _ => .isFalse nofun

/-- The answer that is there, or nothing. -/
def Answer.ofOption {α : Type} (answer : α → Answer) : Option α → Answer
  | none => .nothing
  | some value => answer value

/-- Success, or the reason why the call is turned down. -/
def Answer.ofExcept : Except Refusal Unit → Answer
  | .ok () => .done
  | .error refusal => .refused refusal

end TimedWaits
