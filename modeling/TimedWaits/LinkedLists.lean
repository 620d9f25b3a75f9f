import TimedWaits.Table

/-!
Singly linked lists threaded through their members. Every member carries its own forward link and
a mark that says whether it is in a list at all; a list keeps its first member, its last member
and its length. Several lists share one set of members, and the mark makes a member that is in any
of them refuse to enter another.

`LinkedLists.members` reads a list as the sequence that the forward links spell out.
-/

set_option autoImplicit false

namespace TimedWaits

/-- What a member carries: its successor, and whether it is in some list. -/
structure Link where
  next : Option Nat := none
  linked : Bool := false
  deriving DecidableEq

/-- What a list keeps: its first and its last member, and how many there are. -/
structure Chain where
  head : Option Nat := none
  tail : Option Nat := none
  length : Nat := 0
  deriving DecidableEq

/-- Any number of lists over one set of members. -/
structure LinkedLists where
  chains : Table Chain := { fallback := {} }
  links : Table Link := { fallback := {} }

namespace LinkedLists

/-- The members met in at most the given number of steps along the forward links. -/
def follow (links : Table Link) : Nat → Option Nat → List Nat
  | 0, _ => []
  | _ + 1, none => []
  | steps + 1, some node => node :: follow links steps (links.get node).next

/-- The members of a list in order: a walk from its head, as many steps as the list has members. -/
def members (lists : LinkedLists) (list : Nat) : List Nat :=
  follow lists.links (lists.chains.get list).length (lists.chains.get list).head

def length (lists : LinkedLists) (list : Nat) : Nat := (lists.chains.get list).length

def isEmpty (lists : LinkedLists) (list : Nat) : Bool := (lists.chains.get list).head.isNone

def front? (lists : LinkedLists) (list : Nat) : Option Nat := (lists.chains.get list).head

def isLinked (lists : LinkedLists) (node : Nat) : Bool := (lists.links.get node).linked

def contains (lists : LinkedLists) (list node : Nat) : Bool := (lists.members list).contains node

/-- Marks a node as linked and threads it in behind a member, or at the front if none is given. -/
def insertAfter (lists : LinkedLists) (list : Nat) (before : Option Nat) (node : Nat) :
    LinkedLists :=
  let chain := lists.chains.get list
  let next := match before with
    | none => chain.head
    | some member => (lists.links.get member).next
  let links := match before with
    | none => lists.links
    | some member => lists.links.modify member ({ · with next := some node })
  { chains := lists.chains.set list
      { head := if before.isNone then some node else chain.head
        tail := if next.isNone then some node else chain.tail
        length := chain.length + 1 }
    links := links.set node { next, linked := true } }

/-- Takes a member out of a list, given the member before it, and clears its link and mark. -/
def unlink (lists : LinkedLists) (list : Nat) (before : Option Nat) (node : Nat) : LinkedLists :=
  let chain := lists.chains.get list
  let next := (lists.links.get node).next
  let links := match before with
    | none => lists.links
    | some member => lists.links.modify member ({ · with next })
  { chains := lists.chains.set list
      { head := if before.isNone then next else chain.head
        tail := if chain.tail = some node then before else chain.tail
        length := chain.length - 1 }
    links := links.set node {} }

/-- Puts a node at the front; refused if it is in any list. -/
def pushFront? (lists : LinkedLists) (list node : Nat) : Option LinkedLists :=
  if lists.isLinked node then none else some (lists.insertAfter list none node)

/-- Puts a node at the back; refused if it is in any list. -/
def pushBack? (lists : LinkedLists) (list node : Nat) : Option LinkedLists :=
  if lists.isLinked node then none
  else some (lists.insertAfter list (lists.chains.get list).tail node)

/-- The members that a new node goes behind: all before the first one that it is less than. -/
def ahead (members : List Nat) (order : Nat → Nat → Ordering) (node : Nat) : List Nat :=
  members.takeWhile fun member => order node member != .lt

/-- Puts a node before the first member that it is less than, and says at which position; refused
if the node is in any list. -/
def insertSorted? (lists : LinkedLists) (list node : Nat) (order : Nat → Nat → Ordering) :
    Option (Nat × LinkedLists) :=
  if lists.isLinked node then none
  else
    let passed := ahead (lists.members list) order node
    some (passed.length, lists.insertAfter list passed.getLast? node)

/-- The members that a sorted insertion compares the node with: all that the node goes behind, and
the one that it stops at. A node that is in a list is compared with none. -/
def compared (lists : LinkedLists) (list node : Nat) (order : Nat → Nat → Ordering) : List Nat :=
  if lists.isLinked node then []
  else
    let members := lists.members list
    members.take ((ahead members order node).length + 1)

def popFront? (lists : LinkedLists) (list : Nat) : Option (Nat × LinkedLists) :=
  (lists.front? list).map fun node => (node, lists.unlink list none node)

/-- Takes the first member out if it satisfies a predicate. -/
def popFrontIf? (lists : LinkedLists) (list : Nat) (accepts : Nat → Bool) :
    Option (Nat × LinkedLists) :=
  (lists.front? list).bind fun node =>
    if accepts node then some (node, lists.unlink list none node) else none

/-- The member before the wanted one in a walk, where the first has none before it; nothing if the
walk does not meet the wanted one. -/
def predecessor? (wanted : Nat) (before : Option Nat) : List Nat → Option (Option Nat)
  | [] => none
  | node :: rest => if node = wanted then some before else predecessor? wanted (some node) rest

/-- Takes a node out of a list; refused if it is not in that list. -/
def remove? (lists : LinkedLists) (list node : Nat) : Option LinkedLists :=
  (predecessor? node none (lists.members list)).map fun before => lists.unlink list before node

def popMany (lists : LinkedLists) (list : Nat) : Nat → LinkedLists
  | 0 => lists
  | count + 1 =>
    match lists.popFront? list with
    | none => lists
    | some (_, rest) => rest.popMany list count

def release (lists : LinkedLists) (list : Nat) : LinkedLists :=
  lists.popMany list (lists.length list)

/-- The first member that satisfies a predicate. -/
def find? (lists : LinkedLists) (list : Nat) (accepts : Nat → Bool) : Option Nat :=
  (lists.members list).find? accepts

/-- The members that a search looks at: all up to the first one that satisfies the predicate. -/
def examined (lists : LinkedLists) (list : Nat) (accepts : Nat → Bool) : List Nat :=
  let members := lists.members list
  members.take ((members.takeWhile fun node => !accepts node).length + 1)

end LinkedLists

end TimedWaits
