import WorkloadSimulator.Spec.WeightedSampling

/-!
# The load that the workers offer

Each worker rounds its share of the rate up to whole queries in a period, but it takes its
share by a division of integers, which has rounded down before.

## Key results

- `workerQps_spec`: the share in tenths, rounded up
- `offered_load_iff`: the workers offer the load of the dials exactly when the division loses
  nothing that matters
-/

namespace WorkloadSimulator.Stress.QueryTable

variable {κ τ : Type} {t : QueryTable κ τ} {n : Nat}

/-- The queries of a worker are its share in tenths, rounded up. -/
theorem workerQps_spec (t : QueryTable κ τ) (n : Nat) :
    (t.totalQps + 1).fdiv n ≤ 10 * t.workerQps n ∧
      10 * t.workerQps n < (t.totalQps + 1).fdiv n + 10 := by
  -- the number is a ceiling, so it is less than one above its argument
  have hle := Int.le_ceil (((t.totalQps + 1).fdiv n : ℚ) * period)
  have hlt := Int.ceil_lt_add_one (((t.totalQps + 1).fdiv n : ℚ) * period)
  rw [← workerQps] at hle hlt
  unfold period at hle hlt
  constructor
  · have h : ((t.totalQps + 1).fdiv n : ℚ) ≤ 10 * t.workerQps n := by linarith
    exact_mod_cast h
  · have h : (10 * t.workerQps n : ℚ) < (t.totalQps + 1).fdiv n + 10 := by linarith
    exact_mod_cast h

/-- All workers together send `n` times what one of them sends. -/
theorem scheduled_eq (h : 0 ≤ t.workerQps n) : (t.scheduled n : Int) = n * t.workerQps n := by
  simp [scheduled, h]

/-- The workers together offer the load of the dials, and some query at all. -/
def OffersLoad (t : QueryTable κ τ) (n : Nat) : Prop :=
  t.totalQps * period ≤ (t.scheduled n : ℚ) ∧ 0 < t.scheduled n

/-- Where something is asked for, offering the load means offering some query. -/
theorem offersLoad_iff (htotal : 1 ≤ t.totalQps) :
    t.OffersLoad n ↔ t.totalQps ≤ 10 * t.scheduled n := by
  have hload : t.totalQps * period ≤ (t.scheduled n : ℚ) ↔
      t.totalQps ≤ 10 * (t.scheduled n : Int) := by
    have hcast : (t.totalQps : ℚ) ≤ 10 * t.scheduled n ↔
        t.totalQps ≤ 10 * (t.scheduled n : Int) := by
      exact_mod_cast Iff.rfl
    rw [← hcast, period]
    constructor <;> intro h <;> linarith
  rw [OffersLoad, hload]
  omega

/-- The workers offer the load of the dials exactly when the share of each is not a multiple
    of ten, or the division leaves no more than the one that was added before. -/
theorem offered_load_iff (htotal : 1 ≤ t.totalQps) (hn : 1 ≤ n) :
    t.OffersLoad n ↔
      ¬ 10 ∣ (t.totalQps + 1).fdiv n ∨ (t.totalQps + 1).fmod n ≤ 1 := by
  obtain ⟨hle, hlt⟩ := workerQps_spec t n
  -- the divisor is positive, so both ways of dividing agree
  have hdiv : (t.totalQps + 1).fdiv n = (t.totalQps + 1) / n :=
    Int.fdiv_eq_ediv_of_nonneg _ (Int.natCast_nonneg n)
  have hmod : (t.totalQps + 1).fmod n = (t.totalQps + 1) % n :=
    Int.fmod_eq_emod_of_nonneg _ (Int.natCast_nonneg n)
  rw [hdiv] at hle hlt ⊢
  have hn' : (0 : Int) < n := by omega
  have hq : 0 ≤ (t.totalQps + 1) / (n : Int) := Int.ediv_nonneg (by omega) hn'.le
  have hsplit := Int.mul_ediv_add_emod (t.totalQps + 1) n
  have hr := Int.emod_nonneg (t.totalQps + 1) hn'.ne'
  have hrn := Int.emod_lt_of_pos (t.totalQps + 1) hn'
  rw [offersLoad_iff htotal, scheduled_eq (by omega), hmod]
  -- `q` is the share, `r` what the division leaves, and `c` the number of queries
  generalize (t.totalQps + 1) / (n : Int) = q at hle hlt hq hsplit ⊢
  generalize (t.totalQps + 1) % (n : Int) = r at hsplit hr hrn ⊢
  generalize t.workerQps n = c at hle hlt ⊢
  constructor
  · intro hload
    by_contra hnot
    obtain ⟨⟨k, rfl⟩, hr1⟩ : 10 ∣ q ∧ 1 < r := by simpa using hnot
    -- the share is rounded to itself, and what the division has left is missing
    obtain rfl : c = k := by omega
    linarith
  · rintro (hten | hr1)
    · -- the share is rounded up by one for each worker at least
      have hc : q + 1 ≤ 10 * c := by
        rcases hle.eq_or_lt with heq | hlt
        · exact absurd ⟨c, heq⟩ hten
        · omega
      have hmul := mul_le_mul_of_nonneg_left hc hn'.le
      linarith
    · have hmul := mul_le_mul_of_nonneg_left hle hn'.le
      linarith

/-- The total of a table is that of its workload. -/
theorem totalQps_of_new {workload : List (κ × QueryInfo)} {qpsQueryTable : κ → Option τ}
    (ht : new workload qpsQueryTable = some t) : t.totalQps = sumQps workload := by
  unfold new at ht
  split at ht
  · cases ht
  · obtain ⟨added, -, ht⟩ := Option.bind_eq_some_iff.mp ht
    rw [← Option.some.inj ht]

/-- One query a second and three workers: each of them schedules none. -/
theorem no_load_of_three_workers :
    ¬ ∀ (workload : List (Nat × QueryInfo)) (qpsQueryTable : Nat → Option Nat) t n,
      new workload qpsQueryTable = some t → 1 ≤ t.totalQps → 1 ≤ n → t.OffersLoad n := by
  intro hall
  obtain ⟨t, ht⟩ : ∃ t : QueryTable Nat Nat, new [(0, ⟨1, "select 1"⟩)] some = some t :=
    exists_new (by decide) (by decide +kernel)
  have htotal : t.totalQps = 1 := totalQps_of_new ht
  obtain ⟨hle, hlt⟩ := workerQps_spec t 3
  -- two thirds of a query a second are rounded down before they are scaled
  have hshare : (t.totalQps + 1).fdiv (3 : Nat) = 0 := by
    rw [htotal]
    decide
  have hnone : t.workerQps 3 = 0 := by omega
  have hsome := (hall _ _ t 3 ht htotal.ge (by decide)).2
  simp [scheduled, hnone] at hsome

/-- Five queries a second and two workers. -/
theorem load_of_two_workers :
    ∃ t : QueryTable Nat Nat, new [(0, ⟨5, "select 1"⟩)] some = some t ∧ t.OffersLoad 2 := by
  obtain ⟨t, ht⟩ : ∃ t : QueryTable Nat Nat, new [(0, ⟨5, "select 1"⟩)] some = some t :=
    exists_new (by decide) (by decide +kernel)
  have htotal : t.totalQps = 5 := totalQps_of_new ht
  refine ⟨t, ht, (offered_load_iff (by omega) (by decide)).mpr ?_⟩
  rw [htotal]
  decide

end WorkloadSimulator.Stress.QueryTable
