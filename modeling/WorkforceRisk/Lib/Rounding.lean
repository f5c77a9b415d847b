/-
  WorkforceRisk.Lib.Rounding — rounding to the nearest integer, halves to the even one.

  `roundEven` gives the floor or the integer after it, whichever is nearer
  (`roundEven_cases`), so that it is within one half of the number (`abs_roundEven_sub`).
  It keeps integers and it keeps the order (`roundEven_mono`): a number rounds to between
  the integers it lies between.
-/

import Mathlib.Algebra.Order.Floor.Ring
import Mathlib.Tactic.Linarith

namespace WorkforceRisk.Lib

variable {α : Type*} [Field α] [LinearOrder α] [IsStrictOrderedRing α] [FloorRing α]

def roundEven (q : α) : Int :=
  if Int.fract q < 1 / 2 then ⌊q⌋
  else if 1 / 2 < Int.fract q then ⌊q⌋ + 1
  else if ⌊q⌋ % 2 = 0 then ⌊q⌋
  else ⌊q⌋ + 1

omit [IsStrictOrderedRing α] in
theorem roundEven_cases (q : α) :
    roundEven q = ⌊q⌋ ∧ Int.fract q ≤ 1 / 2 ∨ roundEven q = ⌊q⌋ + 1 ∧ 1 / 2 ≤ Int.fract q := by
  unfold roundEven
  split
  · rename_i h
    exact Or.inl ⟨rfl, h.le⟩
  · rename_i hle
    split
    · rename_i h
      exact Or.inr ⟨rfl, h.le⟩
    · rename_i hge
      split
      · exact Or.inl ⟨rfl, not_lt.mp hge⟩
      · exact Or.inr ⟨rfl, not_lt.mp hle⟩

theorem abs_roundEven_sub (q : α) : |(roundEven q : α) - q| ≤ 1 / 2 := by
  have hq := Int.floor_add_fract q
  have hfract := Int.fract_lt_one q
  rw [abs_le]
  rcases roundEven_cases q with ⟨h, hle⟩ | ⟨h, hle⟩
  · have := Int.fract_nonneg q
    rw [h]
    constructor
    · linarith
    · linarith
  · rw [h, Int.cast_add, Int.cast_one]
    constructor
    · linarith
    · linarith

/-- Of two numbers that are rounded past each other, each is a half away, and they are one number. -/
theorem roundEven_mono {q r : α} (h : q ≤ r) : roundEven q ≤ roundEven r := by
  by_contra hlt
  have hstep : roundEven r + 1 ≤ roundEven q := by omega
  have hcast : (roundEven r : α) + 1 ≤ (roundEven q : α) := by
    rw [← Int.cast_one, ← Int.cast_add]
    exact Int.cast_le.mpr hstep
  have hq := (abs_le.mp (abs_roundEven_sub q)).2
  have hr := (abs_le.mp (abs_roundEven_sub r)).1
  obtain rfl : q = r := by linarith
  exact hlt le_rfl

@[simp] theorem roundEven_intCast (n : Int) : roundEven (n : α) = n := by
  unfold roundEven
  rw [Int.fract_intCast, if_pos one_half_pos, Int.floor_intCast]

theorem le_roundEven {n : Int} {q : α} (h : (n : α) ≤ q) : n ≤ roundEven q := by
  rw [← roundEven_intCast (α := α) n]
  exact roundEven_mono h

theorem roundEven_le {n : Int} {q : α} (h : q ≤ (n : α)) : roundEven q ≤ n := by
  rw [← roundEven_intCast (α := α) n]
  exact roundEven_mono h

/-- What is past the half before an integer rounds to no less. -/
theorem le_roundEven_of_half {n : Int} {q : α} (h : (n : α) - 1 / 2 < q) : n ≤ roundEven q := by
  have habs := (abs_le.mp (abs_roundEven_sub q)).1
  have hlt : ((n - 1 : Int) : α) < (roundEven q : α) := by
    rw [Int.cast_sub, Int.cast_one]
    linarith
  have := Int.cast_lt.mp hlt
  omega

end WorkforceRisk.Lib
