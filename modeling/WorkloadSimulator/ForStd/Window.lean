import Mathlib

/-!
# Batches in a window of time

How many batches can have begun when they begin at least a period apart. Some begin as soon as
something is received, whenever the batch before them has begun.

## Key results

- `capacity_succ_le`: a period later there is room for one more batch
- `capacity_le`: the room in a window of so many periods
-/

namespace Window

variable {K : Type*} [Field K] [LinearOrder K] [FloorSemiring K] {p a b t : K} {r r' m : Nat}

/-- The batches that can have begun up to the time `t`, of those that are not over at the time
    `a`, where `r` of them did not wait for a period. -/
def capacity (p a t : K) (r : Nat) : Nat := if t < a then 1 else 2 + r + ⌊(t - a) / p⌋₊

/-- There is always room for one batch. -/
theorem one_le_capacity (p a t : K) (r : Nat) : 1 ≤ capacity p a t r := by
  unfold capacity
  split <;> omega

/-- The room at a time in the window. -/
theorem capacity_of_le (h : a ≤ t) : capacity p a t r = 2 + r + ⌊(t - a) / p⌋₊ :=
  if_neg (not_lt.mpr h)

variable [IsStrictOrderedRing K]

/-- Room is not lost. -/
theorem capacity_mono (hp : 0 < p) (hbt : b ≤ t) (hr : r ≤ r') :
    capacity p a b r ≤ capacity p a t r' := by
  -- before the window there is room for one, in it for more the later it is
  by_cases hb : b < a
  · rw [capacity, if_pos hb]
    exact one_le_capacity p a t r'
  · have hab := not_lt.mp hb
    rw [capacity_of_le hab, capacity_of_le (hab.trans hbt)]
    have hfloor : ⌊(b - a) / p⌋₊ ≤ ⌊(t - a) / p⌋₊ :=
      Nat.floor_le_floor (div_le_div_of_nonneg_right (sub_le_sub_right hbt a) hp.le)
    omega

/-- A period later there is room for one more batch. -/
theorem capacity_succ_le (hp : 0 < p) (hbt : b + p ≤ t) (hat : a ≤ t) (hr : r ≤ r') :
    capacity p a b r + 1 ≤ capacity p a t r' := by
  rw [capacity_of_le hat]
  -- from before the window, or from a time in it, where the floor grows by one
  by_cases hb : b < a
  · rw [capacity, if_pos hb]
    omega
  · have hab := not_lt.mp hb
    rw [capacity_of_le hab]
    have hstep : ⌊(b - a) / p⌋₊ + 1 ≤ ⌊(t - a) / p⌋₊ := by
      rw [← Nat.floor_add_one (div_nonneg (sub_nonneg.mpr hab) hp.le)]
      apply Nat.floor_le_floor
      rw [div_add_one hp.ne']
      exact div_le_div_of_nonneg_right (by linarith) hp.le
    omega

/-- So there is when something is received. -/
theorem capacity_succ_le_of_received (hp : 0 < p) (hbt : b ≤ t) (hat : a ≤ t) (hr : r < r') :
    capacity p a b r + 1 ≤ capacity p a t r' := by
  have hmono := capacity_mono (a := a) hp hbt (le_refl r)
  rw [capacity_of_le hat] at hmono ⊢
  omega

/-- The room in a window of `m` periods. -/
theorem capacity_le (hp : 0 < p) (hat : a ≤ t) (ht : t < a + m * p) :
    capacity p a t r ≤ m + 1 + r := by
  have hfloor : ⌊(t - a) / p⌋₊ < m := by
    rw [Nat.floor_lt (div_nonneg (sub_nonneg.mpr hat) hp.le), div_lt_iff₀ hp]
    linarith
  rw [capacity_of_le hat]
  omega

end Window
