import Mathlib

/-!
# Bisection, and drawing by weight

`bisectRight` is the binary search for the first element above a value. Over the running sums
of a list of weights it draws a place of the list: the places divide the line into intervals
whose lengths are the weights.

## Key results

- `bisectRight_eq_findIdx`: in an ascending list, the search finds the first element above
- `findIdx_runningSums_eq_iff`: the interval of each place
- `findIdx_runningSums_lt`: a value below the last sum draws a place
-/

namespace List

variable {α : Type*} [LinearOrder α]

/-- The search between `lo` and `hi`. -/
def bisectRight.go (a : List α) (x : α) (lo hi : Nat) (hhi : hi ≤ a.length) : Nat :=
  if h : lo < hi then
    have hmid : (lo + hi) / 2 < a.length := by omega
    if x < a[(lo + hi) / 2] then go a x lo ((lo + hi) / 2) hmid.le
    else go a x ((lo + hi) / 2 + 1) hi hhi
  else lo
termination_by hi - lo

/-- `bisect.bisect_right` -/
def bisectRight (a : List α) (x : α) : Nat := bisectRight.go a x 0 a.length le_rfl

/-- The search between `lo` and `hi` ends at the first element above `x`. -/
theorem bisectRight.go_eq_findIdx {a : List α} (ha : a.Pairwise (· ≤ ·)) (x : α) {lo hi : Nat}
    (hhi : hi ≤ a.length) (hlo : lo ≤ a.findIdx fun y => x < y)
    (hle : a.findIdx (fun y => x < y) ≤ hi) :
    bisectRight.go a x lo hi hhi = a.findIdx fun y => x < y := by
  induction hn : hi - lo using Nat.strong_induction_on generalizing lo hi with
  | _ n ih =>
    rw [bisectRight.go]
    split
    · rename_i hlt
      have hmid : (lo + hi) / 2 < a.length := by omega
      dsimp only
      split
      · -- the first element above is not behind the middle
        rename_i habove
        refine ih _ ?_ _ hlo ?_ rfl
        · omega
        · by_contra hbehind
          have hnot := not_of_lt_findIdx (not_le.mp hbehind)
          exact of_decide_eq_false hnot habove
      · -- and here nothing up to the middle is above
        rename_i hbelow
        refine ih _ ?_ hhi ?_ hle rfl
        · omega
        · refine lt_findIdx_of_not hmid fun j hj => ?_
          have hj' : a[j] ≤ a[(lo + hi) / 2] := by
            rcases Nat.eq_or_lt_of_le hj with rfl | hj
            · exact le_rfl
            · exact pairwise_iff_getElem.mp ha j _ _ _ hj
          simpa using hj'.trans (not_lt.mp hbelow)
    · omega

/-- In an ascending list, the search finds the first element above. -/
theorem bisectRight_eq_findIdx {a : List α} (ha : a.Pairwise (· ≤ ·)) (x : α) :
    bisectRight a x = a.findIdx fun y => x < y :=
  bisectRight.go_eq_findIdx ha x le_rfl (Nat.zero_le _) findIdx_le_length

/-! ## Running sums -/

variable {M : Type*} [AddCommGroup M]

/-- The sums of `p` and the weights up to each of them. -/
def runningSums (p : M) : List M → List M
  | [] => []
  | w :: ws => (p + w) :: runningSums (p + w) ws

@[simp] theorem length_runningSums (p : M) (ws : List M) :
    (runningSums p ws).length = ws.length := by
  induction ws generalizing p with
  | nil => rfl
  | cons w ws ih => simp [runningSums, ih]

variable [LinearOrder M] [IsOrderedAddMonoid M]

/-- Without negative weights no sum is below the start. -/
theorem le_of_mem_runningSums {p : M} {ws : List M} (hws : ∀ w ∈ ws, 0 ≤ w) :
    ∀ q ∈ runningSums p ws, p ≤ q := by
  induction ws generalizing p with
  | nil => exact fun q hq => absurd hq not_mem_nil
  | cons w ws ih =>
    rw [forall_mem_cons] at hws
    have hp : p ≤ p + w := le_add_of_nonneg_right hws.1
    intro q hq
    rcases mem_cons.mp hq with rfl | hq
    · exact hp
    · exact hp.trans (ih hws.2 q hq)

/-- Without negative weights the sums ascend. -/
theorem pairwise_runningSums {p : M} {ws : List M} (hws : ∀ w ∈ ws, 0 ≤ w) :
    (runningSums p ws).Pairwise (· ≤ ·) := by
  induction ws generalizing p with
  | nil => exact .nil
  | cons w ws ih =>
    rw [forall_mem_cons] at hws
    exact .cons (le_of_mem_runningSums hws.2) (ih hws.2)

/-- A place is drawn by the values from the sum before it up to the sum with it. -/
theorem findIdx_runningSums_eq_iff {p u : M} {ws : List M} (hws : ∀ w ∈ ws, 0 ≤ w)
    (hp : p ≤ u) {i : Nat} (hi : i < ws.length) :
    (runningSums p ws).findIdx (fun q => u < q) = i ↔
      p + (ws.take i).sum ≤ u ∧ u < p + (ws.take (i + 1)).sum := by
  induction ws generalizing p i with
  | nil => exact absurd hi (Nat.not_lt_zero i)
  | cons w ws ih =>
    rw [forall_mem_cons] at hws
    rw [runningSums, findIdx_cons, Bool.cond_eq_ite]
    -- the first sum is beyond `u`, or the search goes on with it as the offset
    by_cases hu : u < p + w
    · rw [if_pos (decide_eq_true hu)]
      cases i with
      | zero => simp [hp, hu]
      | succ i =>
        refine iff_of_false (Nat.succ_ne_zero i).symm ?_
        rintro ⟨hle, -⟩
        -- later sums are no smaller than the first one
        have hsum : 0 ≤ (ws.take i).sum := sum_nonneg fun x hx => hws.2 x (mem_of_mem_take hx)
        rw [take_succ_cons, sum_cons, ← add_assoc] at hle
        exact absurd (hu.trans_le (le_add_of_nonneg_right hsum)) (not_lt.mpr hle)
    · rw [if_neg (by simpa using hu)]
      cases i with
      | zero => simp [hu]
      | succ i =>
        rw [Nat.succ_inj, ih hws.2 (not_lt.mp hu) (Nat.lt_of_succ_lt_succ hi), take_succ_cons,
          take_succ_cons, sum_cons, sum_cons, ← add_assoc p, ← add_assoc p]

omit [IsOrderedAddMonoid M] in
/-- A value below the sum of all weights draws a place. -/
theorem findIdx_runningSums_lt {p u : M} {ws : List M} (hp : p ≤ u) (hu : u < p + ws.sum) :
    (runningSums p ws).findIdx (fun q => u < q) < ws.length := by
  induction ws generalizing p with
  | nil => exact absurd hu (by simpa using hp)
  | cons w ws ih =>
    rw [runningSums, findIdx_cons, Bool.cond_eq_ite]
    -- the first sum is above the value, or the place is behind it
    split
    · exact Nat.succ_pos _
    · rename_i hle
      rw [sum_cons, ← add_assoc] at hu
      exact Nat.succ_lt_succ (ih (by simpa using hle) hu)

end List
