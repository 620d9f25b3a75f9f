import TimedWaits.Proofs.Tick.Window

/-! Ticks within half the range of a base behave as plain numbers do: they are ordered, due, and apart
by as much as their offsets say. Half the range is also where this ends. Two ticks exactly that far
apart each seem to lie behind the other, and so a delay of more than the longest one is over at once. -/

set_option autoImplicit false

namespace TimedWaits.Tick

variable {base first second now delay : Tick}

@[simp] theorem offset_add (base tick : Tick) : offset base (base + tick) = tick.toNat := by
  have same : base + tick - base = tick := by grind
  rw [offset, same]

private theorem inWindow_add (base : Tick) (short : first.toNat < halfRange) :
    InWindow base (base + first) := by
  rwa [InWindow, offset_add]

theorem distance_add (shortFirst : first.toNat < halfRange) (shortSecond : second.toNat < halfRange) :
    distance (base + first) (base + second) = first.toNat - second.toNat := by
  rw [(inWindow_add base shortFirst).distance_eq (inWindow_add base shortSecond), offset_add,
    offset_add]

private theorem compare_toNat (first second : Tick) :
    compare first.toNat second.toNat = compare first second := by
  simp only [compare, compareOfLessAndEq, UInt32.lt_iff_toNat_lt, UInt32.toNat_inj]

private theorem order_add (shortFirst : first.toNat < halfRange) (shortSecond : second.toNat < halfRange) :
    order (base + first) (base + second) = compare first second := by
  rw [order, distance_add shortFirst shortSecond, ← compare_toNat]
  rcases Nat.lt_trichotomy first.toNat second.toNat with less | same | more
  · rw [Nat.compare_eq_lt.mpr less, Int.compare_eq_lt]
    omega
  · rw [same, Int.sub_self, Nat.compare_eq_eq.mpr rfl]
    rfl
  · rw [Nat.compare_eq_gt.mpr more, Int.compare_eq_gt]
    omega

theorem isDue_add (shortFirst : first.toNat < halfRange) (shortSecond : second.toNat < halfRange) :
    isDue (base + first) (base + second) = decide (first ≤ second) := by
  rw [isDue, distance_add shortFirst shortSecond, decide_eq_decide, UInt32.le_iff_toNat_le]
  omega

theorem remaining_add (shortFirst : first.toNat < halfRange) (shortSecond : second.toNat < halfRange) :
    remaining (base + first) (base + second) = if second < first then first - second else 0 := by
  have apart : base + first - (base + second) = first - second := by grind
  rw [remaining, isDue_add shortFirst shortSecond, apart]
  by_cases later : second < first
  · have early : ¬ first ≤ second := UInt32.not_le.mpr later
    simp [later, early]
  · have due : first ≤ second := UInt32.not_lt.mp later
    simp [later, due]

/-- What is left until a deadline leads from now to the deadline, or nowhere if that has passed. -/
private theorem after_remaining_add (shortFirst : first.toNat < halfRange)
    (shortSecond : second.toNat < halfRange) :
    after (base + second) (remaining (base + first) (base + second)) = base + max first second := by
  have greater : max first second = if first ≤ second then second else first := rfl
  rw [remaining_add shortFirst shortSecond, after, greater]
  by_cases later : second < first
  · rw [if_pos later, if_neg (UInt32.not_le.mpr later)]
    grind
  · rw [if_neg later, if_pos (UInt32.not_lt.mp later), UInt32.add_zero]

private theorem distance_after_self (now delay : Tick) :
    distance (after now delay) now =
      if delay.toNat < halfRange then (delay.toNat : Int) else delay.toNat - 4294967296 := by
  rw [distance_eq, after, offset_add]

private theorem farthest_lt_iff : farthest < delay ↔ halfRange ≤ delay.toNat := by
  rw [UInt32.lt_iff_toNat_lt]
  exact Nat.lt_iff_add_one_le

/-- A delay ends at a moment that is due if it is none, or longer than any that ends ahead. -/
private theorem isDue_after : isDue (after now delay) now = true ↔ delay = 0 ∨ farthest < delay := by
  have none : delay = 0 ↔ delay.toNat = 0 := UInt32.toNat_inj.symm
  have bound := delay.toNat_lt
  rw [isDue, decide_eq_true_iff, distance_after_self, farthest_lt_iff, none, halfRange]
  split <;> omega

private theorem remaining_after (ahead : ¬ isDue (after now delay) now = true) :
    remaining (after now delay) now = delay := by
  rw [remaining, if_neg ahead, after]
  grind

private theorem distance_swap (apart : first - second ≠ 2147483648) :
    distance first second = -distance second first := by
  have notHalf : offset second first ≠ 2147483648 := fun half =>
    apart (UInt32.toNat_inj.mp half)
  have bound := offset_lt second first
  have boundOther := offset_lt first second
  rw [distance_eq, distance_eq, halfRange, offset_rebase second second first, offset_self]
  split <;> split <;> split <;> omega

private theorem distance_half (apart : first - second = 2147483648) :
    distance first second = -2147483648 ∧ distance second first = -2147483648 := by
  have half : offset second first = 2147483648 := congrArg UInt32.toNat apart
  rw [distance_eq, distance_eq, halfRange, offset_rebase second second first, offset_self, half]
  decide

private theorem order_swap (apart : first - second ≠ 2147483648) :
    order first second = (order second first).swap := by
  rw [order, order, distance_swap apart]
  rcases Int.lt_trichotomy (distance second first) 0 with behind | same | ahead
  · rw [Int.compare_eq_lt.mpr behind]
    exact Int.compare_eq_gt.mpr (by omega)
  · rw [same]
    rfl
  · rw [Int.compare_eq_gt.mpr ahead]
    exact Int.compare_eq_lt.mpr (by omega)

private theorem order_half (apart : first - second = 2147483648) :
    order first second = .lt ∧ order second first = .lt := by
  rw [order, order, (distance_half apart).1, (distance_half apart).2]
  decide

/-- Within half the range of a base, ticks are ordered, due, and left until as their offsets are. A
delay ends ahead of now exactly if it is at least one tick and at most the longest, and then all of it
is left. The order of two ticks turns around with them unless they are exactly half the range apart,
where each comes before the other. -/
theorem exact_in_half_range :
    (∀ base first second : Tick, first.toNat < halfRange → second.toNat < halfRange →
      order (base + first) (base + second) = compare first second ∧
      (isDue (base + first) (base + second) = true ↔ first ≤ second) ∧
      remaining (base + first) (base + second) = (if second < first then first - second else 0) ∧
      after (base + second) (remaining (base + first) (base + second)) = base + max first second) ∧
    (∀ now delay : Tick,
      (isDue (after now delay) now = true ↔ delay = 0 ∨ farthest < delay) ∧
      (¬ isDue (after now delay) now = true → remaining (after now delay) now = delay)) ∧
    (∀ first second : Tick,
      (first - second ≠ 2147483648 → order first second = (order second first).swap) ∧
      (first - second = 2147483648 → order first second = .lt ∧ order second first = .lt)) := by
  refine ⟨fun base first second shortFirst shortSecond => ⟨?_, ?_, ?_, ?_⟩,
    fun now delay => ⟨isDue_after, remaining_after⟩, fun first second => ⟨order_swap, order_half⟩⟩
  · exact order_add shortFirst shortSecond
  · rw [isDue_add shortFirst shortSecond, decide_eq_true_iff]
  · exact remaining_add shortFirst shortSecond
  · exact after_remaining_add shortFirst shortSecond

/-- The last two ticks of a window that runs through the end of the count: the base lies six ticks
before it, and all but two of the ticks of the window after it. -/
theorem last_ticks_of_window_exact :
    order (4294967290 + 2147483646) (4294967290 + 2147483647) = .lt ∧
      remaining (4294967290 + 2147483647) (4294967290 + 2147483646) = 1 ∧
      remaining (after 4294967290 farthest) 4294967290 = farthest ∧
      order 5 4294967290 = (order 4294967290 5).swap ∧ order 0 2147483648 = .lt := by
  obtain ⟨window, delays, orders⟩ := exact_in_half_range
  obtain ⟨before, -, -, -⟩ := window 4294967290 2147483646 2147483647 (by decide) (by decide)
  obtain ⟨-, -, left, -⟩ := window 4294967290 2147483647 2147483646 (by decide) (by decide)
  exact ⟨before, left, (delays 4294967290 farthest).2 (by decide), (orders 5 4294967290).1 (by decide),
    ((orders 0 2147483648).2 (by decide)).1⟩

end TimedWaits.Tick
