import TimedWaits.System.Signals
import TimedWaits.System.Clocks
import TimedWaits.System.Alarms
import TimedWaits.System.Selectors
import TimedWaits.System.Workers
import TimedWaits.System.Rings
import TimedWaits.System.Items

/-!
The atomic changes of a system as data. Nothing else runs while a command is applied, so what every
command keeps holds at each moment of every run.
-/

set_option autoImplicit false

namespace TimedWaits

inductive Command where
  | log (notice : Notice)
  | requestStop (value : Bool)
  | setClock (clock : Nat) (tick : Tick)
  | advance (clock : Nat) (delay : Tick)
  | addRearm (target : Nat) (delay : Tick)
  | clearRearms (target : Nat)
  | kick (clock : Nat) (delay : Tick)
  | sleepUntilKick (clock : Nat) (delay : Tick)
  | raise (signal : SignalRef)
  | take (signal : SignalRef)
  | beginPost (signal : SignalRef)
  | attach (signal : Nat) (observer : Observer) (token : Nat)
  | detach (signal : Nat) (observer : Observer)
  | createAlarm (queue : Nat) (signal : SignalRef) (deadline : Tick) (owned : Bool)
  | insertAlarm (queue alarm : Nat)
  | fireFirst (queue : Nat) (now : Tick)
  | withdrawAlarm (queue alarm : Nat)
  | dropAlarm (alarm : Nat)
  | createSelector (selector capacity : Nat) (backend : Backend)
  | watch (selector signal : Nat)
  | unwatch (selector signal : Nat)
  | markReady (selector token : Nat)
  | takeReady (selector : Nat)
  | takeWakeup (selector : Nat)
  | dropSelector (selector : Nat)
  | createWorker (worker : Nat) (backend : Backend)
  | putJob (worker job : Nat)
  | nextJob (worker : Nat)
  | takeTurn (worker : Nat)
  | kill (worker : Nat)
  | dropWorker (worker : Nat)
  | store (ring : Nat) (elements : List Int)
  | fetch (ring count : Nat)
  | resetRing (ring : Nat)
  | associate (ring signal : Nat)
  | dissociate (ring : Nat)
  | pushFront (list item : Nat)
  | pushBack (list item : Nat)
  | insertItem (list item : Nat) (order : ItemOrder)
  | popFront (list : Nat)
  | popFrontIf (list : Nat) (filter : ItemFilter)
  | removeItem (list item : Nat)
  | searchList (list : Nat) (filter : ItemFilter)
  | dropList (list : Nat)
  | createList (list : Nat)

namespace Command

abbrev Reply : Command → Type
  | .take _ | .detach _ _ | .sleepUntilKick _ _ | .withdrawAlarm _ _ | .unwatch _ _ | .putJob _ _
  | .dissociate _ | .pushFront _ _ | .pushBack _ _ | .removeItem _ _ => Bool
  | .beginPost _ => Option Attachment
  | .attach _ _ _ | .watch _ _ | .associate _ _ => Except Refusal Unit
  | .createAlarm _ _ _ _ => Nat
  | .fireFirst _ _ => Option FiredAlarm
  | .insertAlarm _ _ | .takeReady _ | .takeWakeup _ | .nextJob _ | .insertItem _ _ _ | .popFront _
  | .popFrontIf _ _ | .searchList _ _ => Option Nat
  | .takeTurn _ => Turn
  | .store _ _ => Stored
  | .fetch _ _ => List Int
  | _ => Unit

def apply : (command : Command) → System → command.Reply × System
  | .log notice, system => ((), system.log notice)
  | .requestStop value, system => ((), { system with stopRequested := value })
  | .setClock clock tick, system => ((), system.setClock clock tick)
  | .advance clock delay, system => ((), system.advance clock delay)
  | .addRearm target delay, system => ((), system.addRearm target delay)
  | .clearRearms target, system => ((), system.clearRearms target)
  | .kick clock delay, system => ((), system.kick clock delay)
  | .sleepUntilKick clock delay, system => system.sleepUntilKick clock delay
  | .raise signal, system => ((), system.raise signal)
  | .take signal, system => system.take signal
  | .beginPost signal, system => system.beginPost signal none
  | .attach signal observer token, system => system.attach signal observer token
  | .detach signal observer, system => system.detach signal observer
  | .createAlarm queue signal deadline owned, system =>
    system.createAlarm queue signal deadline owned
  | .insertAlarm queue alarm, system => system.insertAlarm queue alarm
  | .fireFirst queue now, system => system.fireFirst queue now
  | .withdrawAlarm queue alarm, system => system.withdrawAlarm queue alarm
  | .dropAlarm alarm, system => ((), system.dropAlarm alarm)
  | .createSelector selector capacity backend, system =>
    ((), system.createSelector selector capacity backend)
  | .watch selector signal, system => system.watch selector signal
  | .unwatch selector signal, system => system.unwatch selector signal
  | .markReady selector token, system => ((), system.markReady selector token)
  | .takeReady selector, system => system.takeReady selector
  | .takeWakeup selector, system => system.takeWakeup selector
  | .dropSelector selector, system => ((), system.dropSelector selector)
  | .createWorker worker backend, system => ((), system.createWorker worker backend)
  | .putJob worker job, system => system.putJob worker job
  | .nextJob worker, system => system.nextJob worker
  | .takeTurn worker, system => system.takeTurn worker
  | .kill worker, system => ((), system.kill worker)
  | .dropWorker worker, system => ((), system.dropWorker worker)
  | .store ring elements, system => system.store ring elements
  | .fetch ring count, system => system.fetch ring count
  | .resetRing ring, system => ((), system.resetRing ring)
  | .associate ring signal, system => system.associate ring signal
  | .dissociate ring, system => system.dissociate ring
  | .pushFront list item, system => system.pushFront list item
  | .pushBack list item, system => system.pushBack list item
  | .insertItem list item order, system => system.insertItem list item order
  | .popFront list, system => system.popFront list
  | .popFrontIf list filter, system => system.popFrontIf list filter
  | .removeItem list item, system => system.removeItem list item
  | .searchList list filter, system => system.searchList list filter
  | .dropList list, system => ((), system.dropList list)
  | .createList list, system => ((), system.createList list)

end Command

end TimedWaits
