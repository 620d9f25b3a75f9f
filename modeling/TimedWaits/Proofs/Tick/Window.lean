import TimedWaits.Tick

/-!
Ticks that lie close together. Distances wrap, so ticks are not ordered as a whole; those within
half the range of a base tick are, by how far each of them lies behind the base.
-/

set_option autoImplicit false

namespace TimedWaits.Tick

def halfRange : Nat := 2147483648

/-- How many ticks a tick lies behind a base, counted through the wrap. -/
def offset (base tick : Tick) : Nat := (tick - base).toNat

/-- The half of the range that begins at a base holds a tick. -/
def InWindow (base tick : Tick) : Prop := offset base tick < halfRange

instance (base tick : Tick) : Decidable (InWindow base tick) :=
  inferInstanceAs (Decidable (_ < _))

variable {base deadline now tick reference : Tick}

theorem offset_lt (base tick : Tick) : offset base tick < 4294967296 := (tick - base).toNat_lt

@[simp] theorem offset_self (base : Tick) : offset base base = 0 := by simp [offset]

theorem offset_inj (same : offset base tick = offset base reference) : tick = reference := by
  have equal : tick - base = reference - base := UInt32.toNat_inj.mp same
  grind

private theorem distance_eq_toInt (tick reference : Tick) :
    distance tick reference = (tick - reference).toBitVec.toInt := rfl

/-- A distance is the wrapped difference, less the whole range if that exceeds half of it. -/
theorem distance_eq (tick reference : Tick) :
    distance tick reference =
      if offset reference tick < halfRange then (offset reference tick : Int)
      else offset reference tick - 4294967296 := by
  have signed := BitVec.toInt_eq_toNat_cond (tick - reference).toBitVec
  rw [UInt32.toNat_toBitVec] at signed
  rw [distance_eq_toInt, signed, offset, halfRange]
  split <;> split <;> omega

/-- Moving the base shifts an offset, wrapping once if the new base lies behind the tick. -/
theorem offset_rebase (base tick reference : Tick) :
    offset reference tick =
      if offset base reference ≤ offset base tick then offset base tick - offset base reference
      else offset base tick + 4294967296 - offset base reference := by
  have through : tick - reference = (tick - base) - (reference - base) := by grind
  have wrapped : offset reference tick =
      (4294967296 - offset base reference + offset base tick) % 4294967296 := by
    rw [offset, through, UInt32.toNat_sub]
    rfl
  have bound := offset_lt base tick
  have boundReference := offset_lt base reference
  split <;> omega

theorem InWindow.distance_eq (within : InWindow base tick)
    (withinReference : InWindow base reference) :
    distance tick reference = offset base tick - offset base reference := by
  simp only [InWindow, halfRange] at within withinReference
  rw [Tick.distance_eq, offset_rebase base tick reference, halfRange]
  split <;> split <;> omega

theorem InWindow.isDue_iff (within : InWindow base deadline) (withinNow : InWindow base now) :
    isDue deadline now = true ↔ offset base deadline ≤ offset base now := by
  rw [isDue, within.distance_eq withinNow, decide_eq_true_iff]
  omega

theorem InWindow.offset_remaining (within : InWindow base deadline)
    (withinNow : InWindow base now) (ahead : isDue deadline now = false) :
    offset base now + (remaining deadline now).toNat = offset base deadline ∧
      0 < (remaining deadline now).toNat := by
  have later : offset base now < offset base deadline := by
    have undue : ¬ isDue deadline now = true := by simp [ahead]
    rw [within.isDue_iff withinNow] at undue
    omega
  have left : (remaining deadline now).toNat = offset now deadline := by
    simp [remaining, ahead, offset]
  rw [left, offset_rebase base deadline now]
  split <;> omega

theorem max_one (positive : 0 < tick.toNat) : max tick 1 = tick := by
  change (if tick ≤ 1 then 1 else tick) = tick
  split
  · next small =>
    have least : tick.toNat ≤ 1 := UInt32.le_iff_toNat_le.mp small
    exact UInt32.toNat_inj.mp (Nat.le_antisymm positive least)
  · rfl

/-- A sorted insertion passes a tick of its window unless that tick lies behind the new one. -/
theorem InWindow.order_ne_lt_iff (within : InWindow base tick)
    (withinReference : InWindow base reference) :
    (order tick reference != .lt) = true ↔ offset base reference ≤ offset base tick := by
  rw [order, within.distance_eq withinReference, bne_iff_ne, Int.compare_ne_lt]
  omega

theorem distance_bounds (tick reference : Tick) :
    -2147483648 ≤ distance tick reference ∧ distance tick reference < 2147483648 := by
  have bound := offset_lt reference tick
  rw [distance_eq, halfRange]
  split <;> omega

@[simp] theorem distance_self (tick : Tick) : distance tick tick = 0 := by
  simp [distance_eq, halfRange]

/-- An offset is the difference of the distances from any third tick, unless that is negative. -/
theorem offset_of_distances (tick base now : Tick)
    (order : distance base now ≤ distance tick now) :
    (offset base tick : Int) = distance tick now - distance base now := by
  have bound := offset_lt now base
  have boundTick := offset_lt now tick
  rw [distance_eq, distance_eq, halfRange] at order ⊢
  rw [offset_rebase now tick base]
  split <;> split <;> split <;> omega

/-- A tick that lies half the range or more ahead of another seems to lie behind it. -/
theorem distance_neg_of_far {now : Tick}
    (far : 2147483648 ≤ distance tick now - distance reference now) :
    distance tick reference < 0 := by
  have offset := offset_of_distances tick reference now (by omega)
  have bound := offset_lt reference tick
  rw [distance_eq, halfRange]
  split <;> omega

theorem after_sub (now tick : Tick) : after now (tick - now) = tick := by
  rw [after]
  grind

theorem distance_after {deadline now delay : Tick}
    (near : -2147483648 ≤ distance deadline now - delay.toNat) :
    distance deadline (after now delay) = distance deadline now - delay.toNat := by
  have passed : offset now (after now delay) = delay.toNat := by
    have same : now + delay - now = delay := by grind
    rw [offset, after, same]
  have bound := offset_lt now deadline
  rw [distance_eq, halfRange] at near
  rw [distance_eq, distance_eq, halfRange, offset_rebase now deadline, passed]
  split at near <;> split <;> split <;> omega

theorem distance_deadlineAfter (now delay : Tick) :
    distance (deadlineAfter now delay) now = min delay.toNat 2147483647 := by
  have same : now + min delay farthest - now = min delay farthest := by grind
  have cut : (min delay farthest).toNat = min delay.toNat 2147483647 := by
    change (if delay ≤ farthest then delay else farthest).toNat = _
    have longest : farthest.toNat = 2147483647 := rfl
    split
    · next short =>
      have shorter := UInt32.le_iff_toNat_le.mp short
      omega
    · next long =>
      have longer := (not_congr UInt32.le_iff_toNat_le).mp long
      omega
  rw [distance_eq, halfRange, deadlineAfter, after, offset, same, cut]
  split <;> omega

/-- A moment that is not due is the deadline of a delay. -/
theorem deadlineAfter_of_not_isDue {deadline now : Tick} (ahead : isDue deadline now = false) :
    deadlineAfter now (deadline - now) = deadline := by
  rw [isDue, decide_eq_false_iff_not, distance_eq] at ahead
  have short : (deadline - now).toNat ≤ 2147483647 := by
    change offset now deadline ≤ 2147483647
    have bound := offset_lt now deadline
    rw [halfRange] at ahead
    split at ahead <;> omega
  have uncut : min (deadline - now) farthest = deadline - now :=
    if_pos (UInt32.le_iff_toNat_le.mpr short)
  rw [deadlineAfter, uncut, after_sub]

end TimedWaits.Tick
