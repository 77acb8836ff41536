import WorkloadSimulator.Stress.QueryTable

/-!
# Drawing queries by their rates

A query table draws a query by searching the running sums of the probabilities. The queries
are sorted by their rates, so those without a rate come first, and the probability that the
table starts over with at each of them is the sum so far.

## Key results

- `exists_new`: when the constructor returns
- `probabilities_eq`: the probabilities are the running sums of the rates over their total
- `draws_iff`: the values that draw the query at each place
- `weighted_sampling`: every value below one draws one query, which has a rate, and each query
  is drawn by an interval whose length is its share of the total rate
-/

namespace WorkloadSimulator.Stress.QueryTable

variable {κ τ : Type} {qpsQueryTable : κ → Option τ} {workload l : List (κ × QueryInfo)}
  {added : List (ℚ × QueryGen κ τ)} {t : QueryTable κ τ} {total : Int} {p u : ℚ}

/-! ## The sorted items -/

theorem sorted_perm (workload : List (κ × QueryInfo)) : (sorted workload).Perm workload :=
  List.mergeSort_perm _ _

/-- The rates ascend. -/
theorem pairwise_sorted (workload : List (κ × QueryInfo)) :
    (sorted workload).Pairwise fun x y => x.2.qps ≤ y.2.qps := by
  refine (List.pairwise_mergeSort ?_ ?_ workload).imp fun h => of_decide_eq_true h
  · intro x y z hxy hyz
    exact decide_eq_true ((of_decide_eq_true hxy).trans (of_decide_eq_true hyz))
  · intro x y
    simpa using le_total x.2.qps y.2.qps

/-! ## The loop of the constructor -/

/-- The query object is that of the item `x`. -/
def IsGenOf (qpsQueryTable : κ → Option τ) (x : κ × QueryInfo) (gen : QueryGen κ τ) : Prop :=
  gen.queryId = x.1 ∧ generateQueryFunction x.2.query.toList = some gen.queryF ∧
    qpsQueryTable x.1 = some gen.stats

/-- One round of the loop. -/
theorem addQueries_cons {x : κ × QueryInfo}
    (h : addQueries qpsQueryTable total p (x :: l) = some added) :
    ∃ q gen rest, nextProb total p x.2.qps = some q ∧ IsGenOf qpsQueryTable x gen ∧
      addQueries qpsQueryTable total q l = some rest ∧ added = (q, gen) :: rest := by
  -- the steps of the round, of which each may raise an error
  obtain ⟨q, hq, h⟩ := Option.bind_eq_some_iff.mp h
  obtain ⟨stats, hstats, h⟩ := Option.bind_eq_some_iff.mp h
  obtain ⟨f, hf, h⟩ := Option.bind_eq_some_iff.mp h
  obtain ⟨rest, hrest, h⟩ := Option.bind_eq_some_iff.mp h
  exact ⟨q, ⟨x.1, f, stats⟩, rest, hq, ⟨rfl, hf, hstats⟩, hrest, (Option.some.inj h).symm⟩

/-- The loop makes one query object for each item. -/
theorem forall₂_addQueries (h : addQueries qpsQueryTable total p l = some added) :
    List.Forall₂ (fun x y => IsGenOf qpsQueryTable x y.2) l added := by
  induction l generalizing p added with
  | nil =>
    obtain rfl := Option.some.inj h
    exact .nil
  | cons x l ih =>
    obtain ⟨q, gen, rest, -, hgen, hrest, rfl⟩ := addQueries_cons h
    exact .cons hgen (ih hrest)

/-- A loop that returns has compiled the texts of all items. -/
theorem compiles_of_addQueries (h : addQueries qpsQueryTable total p l = some added) :
    ∀ x ∈ l, (generateQueryFunction x.2.query.toList).isSome = true := by
  induction l generalizing p added with
  | nil => exact fun x hx => absurd hx List.not_mem_nil
  | cons x l ih =>
    obtain ⟨q, gen, rest, -, ⟨-, hf, -⟩, hrest, -⟩ := addQueries_cons h
    exact List.forall_mem_cons.mpr ⟨by rw [hf]; rfl, ih hrest⟩

/-- The loop ends when every query can be compiled and has an array, and no rate is divided
    by zero. -/
theorem exists_addQueries (htotal : ∀ x ∈ l, total = 0 → x.2.qps = 0)
    (h : ∀ x ∈ l, (generateQueryFunction x.2.query.toList).isSome = true ∧
      (qpsQueryTable x.1).isSome = true) (p : ℚ) :
    ∃ added, addQueries qpsQueryTable total p l = some added := by
  induction l generalizing p with
  | nil => exact ⟨[], rfl⟩
  | cons x l ih =>
    rw [List.forall_mem_cons] at h htotal
    obtain ⟨f, hf⟩ := Option.isSome_iff_exists.mp h.1.1
    obtain ⟨stats, hstats⟩ := Option.isSome_iff_exists.mp h.1.2
    -- without a total all rates are zero, so that nothing is divided by it
    obtain ⟨q, hq⟩ : ∃ q, nextProb total p x.2.qps = some q := by
      unfold nextProb
      split
      · exact ⟨0, rfl⟩
      · rename_i hne
        rw [if_neg fun hzero => hne (htotal.1 hzero)]
        exact ⟨_, rfl⟩
    obtain ⟨rest, hrest⟩ := ih htotal.2 h.2 q
    exact ⟨_, by simp [addQueries, hq, hstats, hf, hrest]; rfl⟩

/-- The share of an item of the total rate. -/
def share (total : Int) (x : κ × QueryInfo) : ℚ := x.2.qps / total

/-- The probabilities are running sums: where a rate is zero, nothing has been added yet. -/
theorem probabilities_eq (h : addQueries qpsQueryTable total p l = some added)
    (hsorted : l.Pairwise fun x y => x.2.qps ≤ y.2.qps) (hnonneg : ∀ x ∈ l, 0 ≤ x.2.qps)
    (hp : p = 0 ∨ ∀ x ∈ l, 0 < x.2.qps) :
    added.map Prod.fst = List.runningSums p (l.map (share total)) := by
  induction l generalizing p added with
  | nil =>
    obtain rfl := Option.some.inj h
    rfl
  | cons x l ih =>
    obtain ⟨q, gen, rest, hq, -, hrest, rfl⟩ := addQueries_cons h
    rw [List.forall_mem_cons] at hnonneg
    obtain ⟨hle, hsorted⟩ := List.pairwise_cons.mp hsorted
    -- the sum stays zero through the queries without a rate, which come first
    have hstep : q = p + share total x ∧ (q = 0 ∨ ∀ y ∈ l, 0 < y.2.qps) := by
      unfold nextProb at hq
      split at hq
      · rename_i hzero
        obtain rfl := Option.some.inj hq
        -- a query with a rate would be behind this one, which has none
        have hp0 : p = 0 := hp.resolve_right fun hpos => by
          have hx := hpos x (List.mem_cons_self ..)
          omega
        exact ⟨by simp [hp0, share, hzero], .inl rfl⟩
      · rename_i hne
        split at hq
        · cases hq
        · obtain rfl := Option.some.inj hq
          refine ⟨rfl, .inr ?_⟩
          intro y hy
          have hxy := hle y hy
          omega
    rw [List.map_cons, List.map_cons, List.runningSums, ih hrest hsorted hnonneg.2 hstep.2,
      hstep.1]

/-- Rates that are not negative and add up to zero are zero. -/
theorem qps_eq_zero (hnonneg : ∀ x ∈ workload, 0 ≤ x.2.qps) (hsum : sumQps workload = 0) :
    ∀ x ∈ workload, x.2.qps = 0 := by
  induction workload with
  | nil => exact fun x hx => absurd hx List.not_mem_nil
  | cons x l ih =>
    rw [List.forall_mem_cons] at hnonneg ⊢
    have hl : 0 ≤ sumQps l := by
      -- a sum of rates is not negative, so each rate is at most the whole sum
      refine List.sum_nonneg fun q hq => ?_
      obtain ⟨y, hy, rfl⟩ := List.mem_map.mp hq
      exact hnonneg.2 y hy
    have hcons : x.2.qps + sumQps l = 0 := hsum
    exact ⟨by omega, ih hnonneg.2 (by omega)⟩

/-- The constructor returns exactly when every query can be compiled. -/
theorem isSome_new_iff (hne : workload ≠ []) (hnonneg : ∀ x ∈ workload, 0 ≤ x.2.qps)
    (htable : ∀ x ∈ workload, (qpsQueryTable x.1).isSome = true) :
    (new workload qpsQueryTable).isSome = true ↔
      ∀ x ∈ workload, (generateQueryFunction x.2.query.toList).isSome = true := by
  have hmem := fun x => (sorted_perm workload).mem_iff (a := x)
  -- the loop goes over the same items in another order
  rw [new, if_neg (by simpa using hne)]
  constructor
  · intro h x hx
    obtain ⟨t, ht⟩ := Option.isSome_iff_exists.mp h
    obtain ⟨added, hadded, -⟩ := Option.bind_eq_some_iff.mp ht
    exact compiles_of_addQueries hadded x ((hmem x).mpr hx)
  · intro h
    obtain ⟨added, hadded⟩ := exists_addQueries
      (fun x hx hzero => qps_eq_zero hnonneg hzero x ((hmem x).mp hx))
      (fun x hx => ⟨h x ((hmem x).mp hx), htable x ((hmem x).mp hx)⟩) 0
    rw [hadded]
    rfl

/-- The constructor returns when every query can be compiled and has an array. -/
theorem exists_new (htotal : 0 < sumQps workload)
    (h : ∀ x ∈ workload, (generateQueryFunction x.2.query.toList).isSome = true ∧
      (qpsQueryTable x.1).isSome = true) : ∃ t, new workload qpsQueryTable = some t := by
  -- without items the sum would be zero
  have hne : workload ≠ [] := by
    rintro rfl
    exact absurd htotal (lt_irrefl 0)
  obtain ⟨added, hadded⟩ := exists_addQueries (fun _ _ hzero => absurd hzero htotal.ne')
    (fun x hx => h x ((sorted_perm workload).mem_iff.mp hx)) 0
  exact ⟨_, by rw [new, if_neg (by simpa using hne), hadded]; rfl⟩

/-! ## The query that a value draws -/

/-- The value `u` draws the query of the item `x`. -/
def Draws (t : QueryTable κ τ) (qpsQueryTable : κ → Option τ) (u : ℚ) (x : κ × QueryInfo) :
    Prop :=
  ∃ gen, t.getRandomQuery u = some gen ∧ IsGenOf qpsQueryTable x gen

/-- The shares of the sorted items. -/
def shares (workload : List (κ × QueryInfo)) : List ℚ :=
  (sorted workload).map (share (sumQps workload))

theorem length_shares (workload : List (κ × QueryInfo)) :
    (shares workload).length = (sorted workload).length :=
  List.length_map _

/-- A share is not negative. -/
theorem shares_nonneg (hnonneg : ∀ x ∈ workload, 0 ≤ x.2.qps) :
    ∀ w ∈ shares workload, 0 ≤ w := by
  intro w hw
  obtain ⟨x, hx, rfl⟩ := List.mem_map.mp hw
  have htotal : 0 ≤ sumQps workload :=
    List.sum_nonneg (List.forall_mem_map.mpr hnonneg)
  exact div_nonneg (by exact_mod_cast hnonneg x ((sorted_perm workload).mem_iff.mp hx))
    (by exact_mod_cast htotal)

/-- The shares add up to one. -/
theorem sum_shares (htotal : 0 < sumQps workload) : (shares workload).sum = 1 := by
  have hperm : (shares workload).sum = (workload.map (share (sumQps workload))).sum :=
    ((sorted_perm workload).map _).sum_eq
  have hsum : (workload.map fun x => (x.2.qps : ℚ)).sum = sumQps workload := by
    simp [sumQps, List.map_map, Function.comp_def]
  have hne : (sumQps workload : ℚ) ≠ 0 := by exact_mod_cast htotal.ne'
  calc (shares workload).sum
      = (workload.map fun x => (x.2.qps : ℚ) * (sumQps workload : ℚ)⁻¹).sum := by
        rw [hperm]
        rfl
    _ = 1 := by rw [List.sum_map_mul_right, hsum, mul_inv_cancel₀ hne]

/-- The values of the place `i`. -/
def place (workload : List (κ × QueryInfo)) (i : Nat) : Set ℚ :=
  Set.Ico ((shares workload).take i).sum ((shares workload).take (i + 1)).sum

/-- Every value below one has a place. -/
theorem exists_place (htotal : 0 < sumQps workload) (hnonneg : ∀ x ∈ workload, 0 ≤ x.2.qps)
    (hu : u ∈ Set.Ico 0 1) : ∃ i, ∃ _ : i < (sorted workload).length, u ∈ place workload i := by
  have hlt := List.findIdx_runningSums_lt (p := 0) hu.1
    (by rw [zero_add, sum_shares htotal]; exact hu.2)
  have hplace := (List.findIdx_runningSums_eq_iff (shares_nonneg hnonneg) hu.1 hlt).mp rfl
  rw [zero_add, zero_add] at hplace
  rw [length_shares] at hlt
  exact ⟨_, hlt, hplace⟩

/-- A value draws the query at its place. -/
theorem draws_of_mem_place (ht : new workload qpsQueryTable = some t)
    (hnonneg : ∀ x ∈ workload, 0 ≤ x.2.qps) (hu : 0 ≤ u) {i : Nat}
    (hi : i < (sorted workload).length) (hplace : u ∈ place workload i) :
    t.Draws qpsQueryTable u (sorted workload)[i] := by
  unfold new at ht
  split at ht
  · cases ht
  · obtain ⟨added, hadded, ht⟩ := Option.bind_eq_some_iff.mp ht
    obtain rfl := Option.some.inj ht
    have hprob : added.map Prod.fst = List.runningSums 0 (shares workload) :=
      probabilities_eq hadded (pairwise_sorted workload)
        (fun x hx => hnonneg x ((sorted_perm workload).mem_iff.mp hx)) (.inl rfl)
    have hgens := forall₂_addQueries hadded
    have hlt : i < (shares workload).length := by rwa [length_shares]
    -- the sums are sorted, so the search finds the place of `u`
    have hfind : (added.map Prod.fst).bisectRight u = i := by
      have hsums := List.pairwise_runningSums (p := 0) (shares_nonneg hnonneg)
      rw [hprob, List.bisectRight_eq_findIdx hsums]
      refine (List.findIdx_runningSums_eq_iff (shares_nonneg hnonneg) hu hlt).mpr ?_
      rw [zero_add, zero_add]
      exact hplace
    have hi' : i < added.length := hgens.length_eq ▸ hi
    refine ⟨added[i].2, ?_, hgens.get hi hi'⟩
    rw [getRandomQuery, hfind, List.getElem?_map, List.getElem?_eq_getElem hi']
    rfl

/-- A query is drawn by the values of its place and no others. -/
theorem draws_iff (ht : new workload qpsQueryTable = some t)
    (hkeys : (workload.map Prod.fst).Nodup) (hnonneg : ∀ x ∈ workload, 0 ≤ x.2.qps)
    (htotal : 0 < sumQps workload) (hu : u ∈ Set.Ico 0 1) {i : Nat}
    (hi : i < (sorted workload).length) :
    t.Draws qpsQueryTable u (sorted workload)[i] ↔ u ∈ place workload i := by
  constructor
  · rintro ⟨gen, hgen, hid, -⟩
    obtain ⟨j, hj, hplace⟩ := exists_place htotal hnonneg hu
    obtain ⟨gen', hgen', hid', -⟩ := draws_of_mem_place ht hnonneg hu.1 hj hplace
    obtain rfl := Option.some.inj (hgen.symm.trans hgen')
    -- the two places have the same key
    have hnodup : ((sorted workload).map Prod.fst).Nodup :=
      (((sorted_perm workload).map _).nodup_iff).mpr hkeys
    have hij : i = j := by
      refine (List.getElem?_inj (by simpa using hi) hnodup).mp ?_
      simpa [hi, hj] using hid.symm.trans hid'
    exact hij ▸ hplace
  · exact draws_of_mem_place ht hnonneg hu.1 hi

/-- The values of a place are an interval whose length is the share of its item. -/
theorem place_eq {i : Nat} (hi : i < (sorted workload).length) :
    place workload i = Set.Ico ((shares workload).take i).sum
      (((shares workload).take i).sum + share (sumQps workload) (sorted workload)[i]) := by
  rw [place, List.sum_take_succ _ i (by rwa [length_shares])]
  simp [shares]

/-- The values of a place are between zero and one. -/
theorem place_subset (hnonneg : ∀ x ∈ workload, 0 ≤ x.2.qps) (htotal : 0 < sumQps workload)
    (i : Nat) : place workload i ⊆ Set.Ico 0 1 := by
  have hnonneg := shares_nonneg hnonneg
  -- the place begins after the shares before it, and the shares behind it are what is left of one
  have hlo : 0 ≤ ((shares workload).take i).sum :=
    List.sum_nonneg fun w hw => hnonneg w (List.mem_of_mem_take hw)
  have hrest : 0 ≤ ((shares workload).drop (i + 1)).sum :=
    List.sum_nonneg fun w hw => hnonneg w (List.mem_of_mem_drop hw)
  have hhi : ((shares workload).take (i + 1)).sum ≤ 1 := by
    rw [← sum_shares htotal, ← List.sum_take_add_sum_drop (shares workload) (i + 1)]
    exact le_add_of_nonneg_right hrest
  exact Set.Ico_subset_Ico hlo hhi

/-- For a workload without negative rates, not all zero: every value below one draws one
    query, which has a rate, and each query is drawn by the values of an interval whose length
    is its share of the total rate. -/
theorem weighted_sampling (ht : new workload qpsQueryTable = some t)
    (hkeys : (workload.map Prod.fst).Nodup) (hnonneg : ∀ x ∈ workload, 0 ≤ x.2.qps)
    (htotal : 0 < sumQps workload) :
    (∀ u ∈ Set.Ico 0 1, ∃ x ∈ workload, 0 < x.2.qps ∧ t.Draws qpsQueryTable u x ∧
        ∀ y ∈ workload, t.Draws qpsQueryTable u y → y = x) ∧
      ∀ x ∈ workload, ∃ lo : ℚ, {u | u ∈ Set.Ico 0 1 ∧ t.Draws qpsQueryTable u x} =
        Set.Ico lo (lo + x.2.qps / sumQps workload) := by
  constructor
  -- the places fill the interval from zero to one, and the ids are distinct
  · intro u hu
    obtain ⟨i, hi, hplace⟩ := exists_place htotal hnonneg hu
    have hmem : (sorted workload)[i] ∈ workload :=
      (sorted_perm workload).mem_iff.mp (List.getElem_mem hi)
    have hdraws := draws_of_mem_place ht hnonneg hu.1 hi hplace
    refine ⟨(sorted workload)[i], hmem, ?_, hdraws, ?_⟩
    · -- without a rate its interval is empty
      refine lt_of_le_of_ne (hnonneg _ hmem) fun hzero => ?_
      rw [place_eq hi, share, ← hzero] at hplace
      simp at hplace
    · rintro y hy ⟨gen, hgen, hid, -⟩
      obtain ⟨gen', hgen', hid', -⟩ := hdraws
      obtain rfl := Option.some.inj (hgen.symm.trans hgen')
      exact List.inj_on_of_nodup_map hkeys hy hmem (hid.symm.trans hid')
  -- the place of a query is its interval
  · intro x hx
    obtain ⟨i, hi, rfl⟩ := List.getElem_of_mem ((sorted_perm workload).mem_iff.mpr hx)
    refine ⟨((shares workload).take i).sum, ?_⟩
    ext u
    show u ∈ Set.Ico 0 1 ∧ t.Draws qpsQueryTable u (sorted workload)[i] ↔ _
    have hplace := place_eq hi
    rw [share] at hplace
    rw [← hplace]
    constructor
    · rintro ⟨hu, hdraws⟩
      exact (draws_iff ht hkeys hnonneg htotal hu hi).mp hdraws
    · intro hmem
      have hu := place_subset hnonneg htotal i hmem
      exact ⟨hu, (draws_iff ht hkeys hnonneg htotal hu hi).mpr hmem⟩

/-- Three queries, one of them without a rate. -/
def threeQueries : List (Nat × QueryInfo) := [(0, ⟨3, "a"⟩), (1, ⟨0, "b"⟩), (2, ⟨1, "c"⟩)]

/-- One query without a rate, and two with rates. -/
theorem weighted_sampling_of_three :
    ∃ t : QueryTable Nat Nat, new threeQueries some = some t ∧
      (∀ u ∈ Set.Ico 0 1, ∃ x ∈ threeQueries, 0 < x.2.qps ∧ t.Draws some u x ∧
        ∀ y ∈ threeQueries, t.Draws some u y → y = x) ∧
      ∀ x ∈ threeQueries, ∃ lo : ℚ, {u | u ∈ Set.Ico 0 1 ∧ t.Draws some u x} =
        Set.Ico lo (lo + x.2.qps / sumQps threeQueries) := by
  have htotal : 0 < sumQps threeQueries := by decide
  obtain ⟨t, ht⟩ : ∃ t, new threeQueries some = some t := exists_new htotal (by decide +kernel)
  exact ⟨t, ht, weighted_sampling ht (by decide) (by decide) htotal⟩

end WorkloadSimulator.Stress.QueryTable
