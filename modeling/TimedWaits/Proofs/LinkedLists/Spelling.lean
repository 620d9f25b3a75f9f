import Mathlib.Logic.Function.Basic
import Mathlib.Data.List.Nodup
import Mathlib.Tactic.SplitIfs
import TimedWaits.LinkedLists

/-! When linked lists spell out given sequences, and what the two primitive changes of a chain do
to what is spelled. Both give a node a link of its own and redirect the one before it, and what that
keeps is shown for any such change. Nothing here depends on how a member was found. -/

set_option autoImplicit false

namespace TimedWaits.LinkedLists

/-- The forward links lead from one place to another through exactly the given nodes. -/
def Threads (links : Table Link) : Option Nat → List Nat → Option Nat → Prop
  | start, [], finish => start = finish
  | start, node :: rest, finish =>
      start = some node ∧ Threads links (links.get node).next rest finish

/-- Lists spell out a sequence for each list: the links lead through its nodes and end, the last
node and the number of nodes are those kept, no node is met twice, the mark of a node says
whether it is met at all, and a node that is not met leads nowhere. -/
structure Spells (lists : LinkedLists) (sequence : Nat → List Nat) : Prop where
  threads : ∀ list, Threads lists.links (lists.chains.get list).head (sequence list) none
  nodup : ∀ list, (sequence list).Nodup
  tail : ∀ list, (lists.chains.get list).tail = (sequence list).getLast?
  length : ∀ list, (lists.chains.get list).length = (sequence list).length
  disjoint : ∀ {list other node}, node ∈ sequence list → node ∈ sequence other → list = other
  linked : ∀ node, (lists.links.get node).linked = true ↔ ∃ list, node ∈ sequence list
  loose : ∀ node, (lists.links.get node).linked = false → (lists.links.get node).next = none

variable {links : Table Link} {lists : LinkedLists} {sequence : Nat → List Nat}

theorem threads_append {start finish : Option Nat} {before after : List Nat} :
    Threads links start (before ++ after) finish ↔
      ∃ middle, Threads links start before middle ∧ Threads links middle after finish := by
  induction before generalizing start with
  | nil => simp [Threads]
  | cons node rest ih => simp [Threads, ih, and_assoc]

theorem threads_singleton {start finish : Option Nat} {node : Nat} :
    Threads links start [node] finish ↔ start = some node ∧ (links.get node).next = finish := by
  simp [Threads]

theorem Threads.congr {other : Table Link} {start finish : Option Nat} {nodes : List Nat}
    (threads : Threads links start nodes finish)
    (agree : ∀ node ∈ nodes, (other.get node).next = (links.get node).next) :
    Threads other start nodes finish := by
  induction nodes generalizing start with
  | nil => exact threads
  | cons node rest ih =>
      obtain ⟨here, onward⟩ := threads
      refine ⟨here, ?_⟩
      rw [agree node List.mem_cons_self]
      exact ih onward fun later member => agree later (List.mem_cons_of_mem _ member)

theorem Threads.eq_nil_iff {start : Option Nat} {nodes : List Nat}
    (threads : Threads links start nodes none) : nodes = [] ↔ start = none := by
  cases nodes with
  | nil => simpa [Threads] using threads
  | cons node rest => simp [threads.1]

theorem Threads.head? {start : Option Nat} {nodes : List Nat}
    (threads : Threads links start nodes none) : start = nodes.head? := by
  cases nodes with
  | nil => simpa [Threads] using threads
  | cons node rest => simp [threads.1]

private theorem Threads.follow_length {start : Option Nat} {nodes : List Nat}
    (threads : Threads links start nodes none) : follow links nodes.length start = nodes := by
  induction nodes generalizing start with
  | nil => rfl
  | cons node rest ih =>
      obtain ⟨rfl, onward⟩ := threads
      simp [follow, ih onward]

/-- A walk takes another way after its last node once that node leads there. -/
private theorem Threads.retarget {other : Table Link} {start finish target : Option Nat}
    {before : List Nat} (threads : Threads links start before finish) (nodup : before.Nodup)
    (agree : ∀ node ∈ before, (other.get node).next =
      if before.getLast? = some node then target else (links.get node).next) :
    Threads other (if before = [] then target else start) before target := by
  rcases List.eq_nil_or_concat before with rfl | ⟨front, last, rfl⟩
  · rfl
  · rw [List.concat_eq_append] at threads nodup agree ⊢
    obtain ⟨middle, toLast, atLast⟩ := threads_append.mp threads
    rw [threads_singleton] at atLast
    have apart : last ∉ front := by
      intro member
      exact (List.nodup_append.mp nodup).2.2 last member last (by simp) rfl
    rw [if_neg (by simp)]
    refine threads_append.mpr ⟨some last, atLast.1 ▸ toLast.congr ?_, ?_⟩
    · intro node member
      have differ : last ≠ node := fun same => apart (same ▸ member)
      rw [agree node (List.mem_append_left _ member)]
      simp [differ]
    · rw [threads_singleton, agree last (by simp)]
      simp

namespace Spells

theorem members_eq (spells : lists.Spells sequence) (list : Nat) :
    lists.members list = sequence list := by
  rw [members, spells.length]
  exact (spells.threads list).follow_length

theorem front?_eq (spells : lists.Spells sequence) (list : Nat) :
    lists.front? list = (sequence list).head? :=
  (spells.threads list).head?

theorem isLinked_eq_false (spells : lists.Spells sequence) {node : Nat} :
    lists.isLinked node = false ↔ ∀ list, node ∉ sequence list := by
  have linked := spells.linked node
  rw [isLinked, Bool.eq_false_iff, ne_eq, linked, not_exists]

end Spells

/-- Where the link behind a member leads, or the head if no member is given. -/
def behind (lists : LinkedLists) (list : Nat) : Option Nat → Option Nat
  | none => (lists.chains.get list).head
  | some member => (lists.links.get member).next

/-- A change at one node of a list. The node gets a link of its own, and the member before it, or the head
if there is none, leads to a given place. No other link is touched, and no other list. -/
structure Redirects (lists changed : LinkedLists) (list : Nat) (before target : Option Nat) (node : Nat)
    (own : Link) : Prop where
  chains : ∀ other, other ≠ list → changed.chains.get other = lists.chains.get other
  head : (changed.chains.get list).head =
    if before = none then target else (lists.chains.get list).head
  own : changed.links.get node = own
  links : ∀ met, met ≠ node → changed.links.get met =
    if before = some met then { lists.links.get met with next := target } else lists.links.get met

theorem insertAfter_chain (list : Nat) (before : Option Nat) (node other : Nat) :
    (lists.insertAfter list before node).chains.get other =
      if other = list then
        { head := if before.isNone then some node else (lists.chains.get list).head
          tail := if (lists.behind list before).isNone then some node
            else (lists.chains.get list).tail
          length := (lists.chains.get list).length + 1 }
      else lists.chains.get other := by
  cases before <;> simp [insertAfter, behind, Table.get_set]

private theorem insertAfter_redirects (list : Nat) (before : Option Nat) (node : Nat) :
    lists.Redirects (lists.insertAfter list before node) list before (some node) node
      { next := lists.behind list before, linked := true } where
  chains other differ := by rw [insertAfter_chain, if_neg differ]
  head := by simp [insertAfter_chain]
  own := by cases before <;> exact Table.get_set_same _ _ _
  links met differ := by
    cases before with
    | none => simp [insertAfter, Table.get_set, differ]
    | some member =>
        by_cases same : met = member
        · subst same
          simp [insertAfter, Table.get_set, Table.get_modify, differ]
        · simp [insertAfter, Table.get_set, Table.get_modify, differ, same, Ne.symm same]

theorem unlink_chain (list : Nat) (before : Option Nat) (node other : Nat) :
    (lists.unlink list before node).chains.get other =
      if other = list then
        { head := if before.isNone then (lists.links.get node).next
            else (lists.chains.get list).head
          tail := if (lists.chains.get list).tail = some node then before
            else (lists.chains.get list).tail
          length := (lists.chains.get list).length - 1 }
      else lists.chains.get other := by
  simp [unlink, Table.get_set]

private theorem unlink_redirects (list : Nat) (before : Option Nat) (node : Nat) :
    lists.Redirects (lists.unlink list before node) list before (lists.links.get node).next node {} where
  chains other differ := by rw [unlink_chain, if_neg differ]
  head := by simp [unlink_chain]
  own := Table.get_set_same _ _ _
  links met differ := by
    cases before with
    | none => simp [unlink, Table.get_set, differ]
    | some member =>
        by_cases same : met = member
        · subst same
          simp [unlink, Table.get_set, Table.get_modify, differ]
        · simp [unlink, Table.get_set, Table.get_modify, differ, same, Ne.symm same]

theorem Spells.threads_split (spells : lists.Spells sequence) {list : Nat}
    {before after : List Nat} (split : sequence list = before ++ after) :
    Threads lists.links (lists.chains.get list).head before after.head? ∧
      Threads lists.links after.head? after none ∧
      lists.behind list before.getLast? = after.head? := by
  have whole := spells.threads list
  rw [split] at whole
  obtain ⟨middle, front, back⟩ := threads_append.mp whole
  obtain rfl := back.head?
  refine ⟨front, back, ?_⟩
  rcases List.eq_nil_or_concat before with rfl | ⟨rest, last, rfl⟩
  · exact front
  · rw [List.concat_eq_append] at front ⊢
    obtain ⟨_, _, atLast⟩ := threads_append.mp front
    rw [List.getLast?_concat]
    exact (threads_singleton.mp atLast).2

/-- A change of one list keeps what is spelled if it leaves the other lists and their nodes alone,
spells the new sequence of its own, and keeps the marks of all nodes right. -/
private theorem Spells.change (spells : lists.Spells sequence) {changed : LinkedLists} {list : Nat}
    {members : List Nat}
    (chains : ∀ other, other ≠ list → changed.chains.get other = lists.chains.get other)
    (links : ∀ other, other ≠ list → ∀ node ∈ sequence other,
      changed.links.get node = lists.links.get node)
    (apart : ∀ other, other ≠ list → ∀ node ∈ sequence other, node ∉ members)
    (threads : Threads changed.links (changed.chains.get list).head members none)
    (nodup : members.Nodup)
    (tail : (changed.chains.get list).tail = members.getLast?)
    (length : (changed.chains.get list).length = members.length)
    (linked : ∀ node, (changed.links.get node).linked = true ↔
      node ∈ members ∨ ∃ other, other ≠ list ∧ node ∈ sequence other)
    (loose : ∀ node, (changed.links.get node).linked = false →
      (changed.links.get node).next = none) :
    changed.Spells (Function.update sequence list members) := by
  constructor
  case threads =>
    intro other
    rw [Function.update_apply]
    split_ifs with same
    · exact same ▸ threads
    · rw [chains other same]
      exact (spells.threads other).congr fun node member => by rw [links other same node member]
  case nodup =>
    intro other
    rw [Function.update_apply]
    split_ifs
    · exact nodup
    · exact spells.nodup other
  case tail =>
    intro other
    rw [Function.update_apply]
    split_ifs with same
    · exact same ▸ tail
    · rw [chains other same, spells.tail other]
  case length =>
    intro other
    rw [Function.update_apply]
    split_ifs with same
    · exact same ▸ length
    · rw [chains other same, spells.length other]
  case disjoint =>
    intro left right node inLeft inRight
    rw [Function.update_apply] at inLeft inRight
    split_ifs at inLeft inRight with isLeft isRight isRight
    · rw [isLeft, isRight]
    · exact absurd inLeft (apart right isRight node inRight)
    · exact absurd inRight (apart left isLeft node inLeft)
    · exact spells.disjoint inLeft inRight
  case linked =>
    intro node
    rw [linked node]
    constructor
    · rintro (member | ⟨other, differ, member⟩)
      · exact ⟨list, by simpa using member⟩
      · exact ⟨other, by simpa [differ] using member⟩
    · rintro ⟨other, member⟩
      rw [Function.update_apply] at member
      split_ifs at member with same
      · exact .inl member
      · exact .inr ⟨other, same, member⟩
  case loose => exact loose

/-- The way through a list that is redirected at one node: up to there as before, then where it is led. -/
private theorem Redirects.threads {changed : LinkedLists} {list node : Nat} {own : Link}
    {target place next : Option Nat} {before between after : List Nat}
    (redirects : lists.Redirects changed list before.getLast? target node own)
    (front : Threads lists.links (lists.chains.get list).head before place)
    (inside : Threads changed.links target between next)
    (back : Threads lists.links next after none)
    (nodup : (before ++ (between ++ after)).Nodup) (notBefore : node ∉ before) (notAfter : node ∉ after) :
    Threads changed.links (changed.chains.get list).head (before ++ (between ++ after)) none := by
  obtain ⟨nodupBefore, -, apart⟩ := List.nodup_append.mp nodup
  have first : Threads changed.links (changed.chains.get list).head before target := by
    rw [redirects.head]
    simp only [List.getLast?_eq_none_iff]
    refine front.retarget nodupBefore fun met member => ?_
    have notNode : met ≠ node := fun same => notBefore (same ▸ member)
    rw [redirects.links met notNode]
    split_ifs <;> rfl
  have last : Threads changed.links next after none := by
    refine back.congr fun met member => ?_
    have notNode : met ≠ node := fun same => notAfter (same ▸ member)
    have notLast : before.getLast? ≠ some met := fun found =>
      apart met (List.mem_of_getLast? found) met (List.mem_append_right _ member) rfl
    rw [redirects.links met notNode, if_neg notLast]
  exact threads_append.mpr ⟨target, first, threads_append.mpr ⟨next, inside, last⟩⟩

/-- What is spelled stays in order if one list changes at one node. All other nodes keep their marks, so
only the mark of that node has to be right. -/
theorem Spells.redirect (spells : lists.Spells sequence) {changed : LinkedLists} {list node : Nat}
    {own : Link} {target place next : Option Nat} {before after : List Nat} (between : List Nat)
    (redirects : lists.Redirects changed list before.getLast? target node own)
    (others : ∀ met, met ≠ node → (met ∈ sequence list ↔ met ∈ before ++ after))
    (absent : node ∉ before ++ after)
    (elsewhere : ∀ other, other ≠ list → node ∉ sequence other)
    (only : ∀ met ∈ between, met = node)
    (front : Threads lists.links (lists.chains.get list).head before place)
    (inside : Threads changed.links target between next)
    (back : Threads lists.links next after none)
    (nodup : (before ++ (between ++ after)).Nodup)
    (tail : (changed.chains.get list).tail = (before ++ (between ++ after)).getLast?)
    (length : (changed.chains.get list).length = (before ++ (between ++ after)).length)
    (mark : own.linked = true ↔ node ∈ between)
    (bare : own.linked = false → own.next = none) :
    changed.Spells (Function.update sequence list (before ++ (between ++ after))) := by
  have notBefore : node ∉ before := fun member => absent (List.mem_append_left _ member)
  have notAfter : node ∉ after := fun member => absent (List.mem_append_right _ member)
  have members {met : Nat} (differ : met ≠ node) :
      met ∈ before ++ (between ++ after) ↔ met ∈ sequence list := by
    have notBetween : met ∉ between := fun member => differ (only met member)
    rw [others met differ, List.mem_append, List.mem_append, List.mem_append,
      or_iff_right notBetween]
  have lastInside {last : Nat} (found : before.getLast? = some last) : last ∈ sequence list := by
    have member := List.mem_of_getLast? found
    have differ : last ≠ node := fun same => notBefore (same ▸ member)
    exact (others last differ).mpr (List.mem_append_left _ member)
  have kept {met : Nat} (differ : met ≠ node) :
      (changed.links.get met).linked = (lists.links.get met).linked := by
    rw [redirects.links met differ]
    split_ifs <;> rfl
  apply spells.change
  case chains => exact redirects.chains
  case links =>
    intro other differ met member
    have notNode : met ≠ node := fun same => elsewhere other differ (same ▸ member)
    have notLast : before.getLast? ≠ some met := fun found =>
      differ (spells.disjoint member (lastInside found))
    rw [redirects.links met notNode, if_neg notLast]
  case apart =>
    intro other differ met member inside
    have notNode : met ≠ node := fun same => elsewhere other differ (same ▸ member)
    exact differ (spells.disjoint member ((members notNode).mp inside))
  case threads => exact redirects.threads front inside back nodup notBefore notAfter
  case nodup => exact nodup
  case tail => exact tail
  case length => exact length
  case linked =>
    intro met
    by_cases same : met = node
    · subst same
      have inMembers : met ∈ before ++ (between ++ after) ↔ met ∈ between := by
        rw [List.mem_append, List.mem_append, or_iff_right notBefore, or_iff_left notAfter]
      rw [redirects.own, mark, inMembers, or_iff_left]
      rintro ⟨other, differ, member⟩
      exact elsewhere other differ member
    · rw [kept same, spells.linked, members same]
      constructor
      · rintro ⟨other, member⟩
        by_cases here : other = list
        · exact .inl (here ▸ member)
        · exact .inr ⟨other, here, member⟩
      · rintro (member | ⟨other, -, member⟩)
        · exact ⟨list, member⟩
        · exact ⟨other, member⟩
  case loose =>
    intro met unlinked
    by_cases same : met = node
    · subst same
      rw [redirects.own] at unlinked ⊢
      exact bare unlinked
    · rw [kept same] at unlinked
      have notLast : before.getLast? ≠ some met := fun found => by
        have marked := (spells.linked met).mpr ⟨list, lastInside found⟩
        rw [unlinked] at marked
        cases marked
      rw [redirects.links met same, if_neg notLast]
      exact spells.loose met unlinked

theorem Spells.insertAfter (spells : lists.Spells sequence) {list node : Nat}
    {before after : List Nat} (split : sequence list = before ++ after)
    (fresh : ∀ other, node ∉ sequence other) :
    (lists.insertAfter list before.getLast? node).Spells
      (Function.update sequence list (before ++ node :: after)) := by
  obtain ⟨front, back, place⟩ := spells.threads_split split
  have absent : node ∉ before ++ after := split ▸ fresh list
  have redirects := lists.insertAfter_redirects list before.getLast? node
  rw [place] at redirects
  refine spells.redirect [node] redirects (fun met _ => by rw [split]) absent
    (fun other _ => fresh other) (by simp) front ?inside back ?nodup ?tail ?length (by simp) (by simp)
  case inside => exact threads_singleton.mpr ⟨rfl, congrArg Link.next redirects.own⟩
  case nodup => exact List.nodup_middle.mpr (List.nodup_cons.mpr ⟨absent, split ▸ spells.nodup list⟩)
  case tail =>
    rw [insertAfter_chain, if_pos rfl, place]
    cases after with
    | nil => simp
    | cons first rest => simp [spells.tail, split, List.getLast?_cons]
  case length =>
    rw [insertAfter_chain, if_pos rfl]
    simp [spells.length, split, Nat.add_assoc]

theorem Spells.unlink (spells : lists.Spells sequence) {list node : Nat}
    {before after : List Nat} (split : sequence list = before ++ node :: after) :
    (lists.unlink list before.getLast? node).Spells
      (Function.update sequence list (before ++ after)) := by
  obtain ⟨front, ⟨_, back⟩, -⟩ := spells.threads_split split
  have inList {met : Nat} : met ∈ sequence list ↔ met = node ∨ met ∈ before ++ after := by
    rw [split, List.mem_append, List.mem_cons, or_left_comm, ← List.mem_append]
  obtain ⟨absent, nodup⟩ :=
    List.nodup_cons.mp (List.nodup_middle.mp (split ▸ spells.nodup list))
  refine spells.redirect [] (lists.unlink_redirects list before.getLast? node)
    (fun met differ => inList.trans (or_iff_right differ)) absent ?elsewhere (by simp) front rfl back
    nodup ?tail ?length (by simp) (fun _ => rfl)
  case elsewhere =>
    exact fun other differ member => differ (spells.disjoint member (inList.mpr (.inl rfl)))
  case tail =>
    rw [unlink_chain, if_pos rfl, spells.tail, split, List.nil_append]
    cases after with
    | nil => simp
    | cons first rest =>
        have differ : (first :: rest).getLast? ≠ some node := fun found =>
          absent (List.mem_append_right _ (List.mem_of_getLast? found))
        have whole : (before ++ node :: first :: rest).getLast? = (first :: rest).getLast? := by
          simp [List.getLast?_cons]
        have kept : (before ++ first :: rest).getLast? = (first :: rest).getLast? := by
          simp [List.getLast?_cons]
        rw [whole, kept, if_neg differ]
  case length =>
    rw [unlink_chain, if_pos rfl]
    simp [spells.length, split]

theorem spells_empty : ({} : LinkedLists).Spells fun _ => [] where
  threads _ := rfl
  nodup _ := List.nodup_nil
  tail _ := rfl
  length _ := rfl
  disjoint member _ := by simp at member
  linked node := by simp [Table.get]
  loose _ _ := rfl

end TimedWaits.LinkedLists
