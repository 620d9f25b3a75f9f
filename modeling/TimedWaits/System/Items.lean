import TimedWaits.System.Basic

/-!
Atomic changes to plain lists of items. The comparisons of a sorted insertion and the members that
a predicate looks at are part of the history.
-/

set_option autoImplicit false

namespace TimedWaits

/-- A way to order items: by key in either direction, as ticks, or all items alike. -/
inductive ItemOrder where
  | ascending
  | descending
  | ticks
  | always (result : Ordering)
  deriving DecidableEq

def ItemOrder.compare (order : ItemOrder) (first second : Item) : Ordering :=
  match order with
  | .ascending => Ord.compare first.key second.key
  | .descending => Ord.compare second.key first.key
  | .ticks => Tick.order first.key second.key
  | .always result => result

/-- A property of items. Keys are compared with a number of any size, which need not be a key. -/
inductive ItemFilter where
  | keyIs (number : Nat)
  | keyBelow (number : Nat)
  | keyAbove (number : Nat)
  | tagIs (tag : String)
  | any
  | never
  deriving DecidableEq

def ItemFilter.accepts (filter : ItemFilter) (item : Item) : Bool :=
  match filter with
  | .keyIs number => item.key.toNat == number
  | .keyBelow number => item.key.toNat < number
  | .keyAbove number => number < item.key.toNat
  | .tagIs tag => item.tag == tag
  | .any => true
  | .never => false

namespace Items

def order (items : Items) (order : ItemOrder) (first second : Nat) : Ordering :=
  order.compare (items.items.get first) (items.items.get second)

def accepts (items : Items) (filter : ItemFilter) (item : Nat) : Bool :=
  filter.accepts (items.items.get item)

def tag (items : Items) (item : Nat) : String := (items.items.get item).tag

end Items

namespace System

def setItemLists (system : System) (lists : LinkedLists) : System :=
  { system with items := { system.items with lists } }

/-- Puts an item at the front of a list, and says whether it was in none. -/
def pushFront (system : System) (list item : Nat) : Bool × System :=
  match system.items.lists.pushFront? list item with
  | none => (false, system)
  | some lists => (true, system.setItemLists lists)

/-- Puts an item at the back of a list, and says whether it was in none. -/
def pushBack (system : System) (list item : Nat) : Bool × System :=
  match system.items.lists.pushBack? list item with
  | none => (false, system)
  | some lists => (true, system.setItemLists lists)

/-- Puts an item before the first member that it is less than, and says at which position, unless
it was in a list. -/
def insertItem (system : System) (list item : Nat) (order : ItemOrder) : Option Nat × System :=
  let items := system.items
  let compared := items.lists.compared list item (items.order order)
  let noted := system.recordAll (compared.map (Occurrence.compared item))
  match items.lists.insertSorted? list item (items.order order) with
  | none => (none, noted)
  | some (position, lists) => (some position, noted.setItemLists lists)

def popFront (system : System) (list : Nat) : Option Nat × System :=
  match system.items.lists.popFront? list with
  | none => (none, system)
  | some (item, lists) => (some item, system.setItemLists lists)

def popFrontIf (system : System) (list : Nat) (filter : ItemFilter) : Option Nat × System :=
  let items := system.items
  let noted := system.recordAll
    ((items.lists.front? list).toList.map Occurrence.examined)
  match items.lists.popFrontIf? list (items.accepts filter) with
  | none => (none, noted)
  | some (item, lists) => (some item, noted.setItemLists lists)

/-- Takes an item out of a list, and says whether it was in it. -/
def removeItem (system : System) (list item : Nat) : Bool × System :=
  match system.items.lists.remove? list item with
  | none => (false, system)
  | some lists => (true, system.setItemLists lists)

/-- Looks through a list for the first member that has a property. -/
def searchList (system : System) (list : Nat) (filter : ItemFilter) : Option Nat × System :=
  let items := system.items
  let accepts := items.accepts filter
  (items.lists.find? list accepts,
    system.recordAll ((items.lists.examined list accepts).map Occurrence.examined))

def dropList (system : System) (list : Nat) : System :=
  { system with
    items := { system.items with
      live := system.items.live.set list false
      lists := system.items.lists.release list } }

/-- Makes an empty list. One that is live in its place is dropped. -/
def createList (system : System) (list : Nat) : System :=
  let dropped := system.dropList list
  { dropped with items := { dropped.items with live := dropped.items.live.set list true } }

end System

end TimedWaits
