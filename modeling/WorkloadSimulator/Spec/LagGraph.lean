import WorkloadSimulator.Spec.ClientStep
import WorkloadSimulator.Spec.RunningFlag

/-!
# The point on the Requests Lag graph

The number of completed requests goes through three loops: the monitor keeps a count for
each model, `handleStats` copies the counts, and the page adds them up. The monitor leaves
the total of all models under the model of each `Stat`, and the page adds the count of the
last key of `stats` once for each key of `rdone`.

## Key results

- `after_requestLagDone_concat`: what the monitor leaves under a model
- `totalRdone_eq`: what the page adds up
- `recorded_total_iff`: the point recorded is the number of completed predictions, made of
  counts of one model each, exactly when all `Stat`s are of one model or none completed
  anything
-/

/-- A map whose only key is `k`. -/
theorem AList.keys_eq_singleton {α : Type*} {β : α → Type*} {m : AList β} {k : α}
    (hk : k ∈ m) (hall : ∀ j ∈ m, j = k) : m.keys = [k] := by
  -- two lists of distinct keys with the same members are permutations of each other
  have hperm : m.keys.Perm [k] := by
    refine (List.perm_ext_iff_of_nodup m.keys_nodup (List.nodup_singleton k)).mpr fun j => ?_
    rw [← AList.mem_keys, List.mem_singleton]
    constructor
    · exact hall j
    · rintro rfl
      exact hk
  exact List.perm_singleton.mp hperm

namespace WorkloadSimulator

/-- The completed predictions in a list of `Stat`s. -/
def totalDone (sts : List Stat) : Nat := (sts.map Stat.nreqDone).sum

namespace StatsMonitor

/-- A `Stat` leaves the total of all models under its own model. -/
theorem after_requestLagDone_concat (sts : List Stat) (st : Stat) (m : String) :
    (after (sts ++ [st])).requestLagDone.lookup m =
      if m = st.workload.modelId then some (totalDone (sts ++ [st]))
      else (after sts).requestLagDone.lookup m := by
  have htotal : (after sts).idone + st.nreqDone = totalDone (sts ++ [st]) := by
    rw [after_idone, totalDone, List.map_append, List.sum_append]
    simp
  rw [after_concat]
  -- the monitor writes the total of all models under the model of the last `Stat`
  show ((after sts).requestLagDone.insert st.workload.modelId _).lookup m = _
  split
  · rename_i hm
    rw [hm, AList.lookup_insert, htotal]
  · rename_i hm
    rw [AList.lookup_insert_ne hm]

/-- What is left under a model is at most the total. -/
theorem after_requestLagDone_le {sts : List Stat} {m : String} {n : Nat}
    (h : (after sts).requestLagDone.lookup m = some n) : n ≤ totalDone sts := by
  induction sts using List.reverseRecOn with
  | nil => cases h
  | append_singleton sts st ih =>
    -- the model of the last `Stat` has the total, and the others what they had
    rw [after_requestLagDone_concat] at h
    split at h
    · rw [← Option.some.inj h]
    · have hle : totalDone sts ≤ totalDone (sts ++ [st]) := by simp [totalDone]
      exact (ih h).trans hle

end StatsMonitor

/-- The count under a model, or zero. -/
def count (rdone : GoMap Nat) (m : String) : Nat := (rdone.lookup m).getD 0

/-- The point `y` on the graph and the counts in `rdone` count what `sts` completed. -/
structure LagCorrect (sts : List Stat) (rdone : GoMap Nat) (y : Option ℚ) : Prop where
  /-- The point is the number of completed predictions. -/
  total : y = some (totalDone sts : ℚ)
  /-- A model's entry counts its own predictions only. -/
  perModel : ∀ m, count rdone m = totalDone (sts.filter (Stat.ofModel m))
  /-- Each entry is added once. -/
  once : y = some (((rdone.keys.map (count rdone)).sum : Nat) : ℚ)

/-- What the page decodes from an answer of `handleStats`: the same maps, their entries in
    any order. -/
structure StatsReply.Decodes (data : StatsReply) (stats rdone : GoMap Nat) : Prop where
  running : data.running = true
  stats : ∀ m, data.stats.lookup m = (stats.lookup m).map (↑)
  rdone : ∀ m, data.rdone.lookup m = (rdone.lookup m).map (↑)

/-- The page decodes the same entries, in any order. -/
theorem StatsReply.decodes_of_perm {data : StatsReply} {stats rdone : GoMap Nat}
    (hrun : data.running = true)
    (hstats : data.stats.entries.Perm (stats.entries.map fun x => ⟨x.1, (x.2 : ℚ)⟩))
    (hrdone : data.rdone.entries.Perm (rdone.entries.map fun x => ⟨x.1, (x.2 : ℚ)⟩)) :
    data.Decodes stats rdone := by
  -- entries in another order are the same map
  have hlookup : ∀ {a : GoMap ℚ} {b : GoMap Nat},
      a.entries.Perm (b.entries.map fun x => ⟨x.1, (x.2 : ℚ)⟩) →
      ∀ m, a.lookup m = (b.lookup m).map (↑) := by
    intro a b hperm m
    rw [AList.lookup, List.perm_dlookup m a.nodupKeys hperm]
    exact List.dlookup_map₂ (f := fun _ (n : Nat) => (n : ℚ)) m
  exact ⟨hrun, hlookup hstats, hlookup hrdone⟩

namespace StatsReply.Decodes

variable {data : StatsReply} {stats rdone : GoMap Nat}

theorem mem_stats (h : data.Decodes stats rdone) {m : String} : m ∈ data.stats ↔ m ∈ stats := by
  rw [← AList.lookup_isSome, h.stats, Option.isSome_map, AList.lookup_isSome]

theorem mem_rdone (h : data.Decodes stats rdone) {m : String} : m ∈ data.rdone ↔ m ∈ rdone := by
  rw [← AList.lookup_isSome, h.rdone, Option.isSome_map, AList.lookup_isSome]

theorem length_rdone (h : data.Decodes stats rdone) :
    data.rdone.keys.length = rdone.keys.length := by
  refine List.Perm.length_eq ?_
  refine (List.perm_ext_iff_of_nodup data.rdone.keys_nodup rdone.keys_nodup).mpr fun m => ?_
  rw [← AList.mem_keys, ← AList.mem_keys, h.mem_rdone]

end StatsReply.Decodes

namespace Client

/-! ## The loop over `rdone` -/

/-- A loop that adds the same number in each pass. -/
theorem foldl_bind_const {α : Type*} (l : List α) (v : Option ℚ) (a : ℚ) :
    l.foldl (fun total _ => total.bind fun t => v.map fun n => t + n) (some a) =
      if l = [] then some a else v.map fun n => a + l.length * n := by
  induction l generalizing a with
  | nil => simp
  | cons x xs ih =>
    cases v with
    | none =>
      -- not a number from the first pass on
      have hnone : ∀ ys : List α, ys.foldl (fun total _ => total.bind fun t =>
          (none : Option ℚ).map fun n => t + n) none = none := by
        intro ys
        induction ys with
        | nil => rfl
        | cons y ys ih => exact ih
      exact hnone xs
    | some n =>
      rw [List.foldl_cons]
      show xs.foldl _ (some (a + n)) = _
      rw [ih]
      split
      · rename_i hnil
        subst hnil
        simp
      · simp only [Option.map_some, reduceCtorEq, ↓reduceIte, List.length_cons]
        push_cast
        ring_nf

/-- What the page adds up: the entry under the last key of `stats`, as often as `rdone` has
    keys. -/
theorem totalRdone_eq (stats rdone : GoMap ℚ) :
    totalRdone stats rdone =
      if rdone.keys = [] then some 0
      else (rdone.lookup (stats.keys.getLast?.getD "undefined")).map
        fun n => (rdone.keys.length : ℚ) * n := by
  rw [totalRdone, foldl_bind_const]
  simp

/-- A point that is recorded is what the page adds up. -/
theorem eq_totalRdone_of_recorded {c : Client} {data : StatsReply} {y : Option ℚ}
    (h : (c.onWorkloadReceive .app data).rLagGraph = c.rLagGraph ++ [y]) :
    y = totalRdone data.stats data.rdone := by
  have hreceives := receives .app c data
  generalize c.onWorkloadReceive .app data = c' at h hreceives
  cases hreceives with
  | shown hr hd hshow =>
    have hpoint := List.append_cancel_left h
    exact (List.singleton_inj.mp hpoint).symm
  | ignored | errorThrown | stopped | thrown =>
    -- nothing is recorded
    exact absurd h (by simp [pause])

end Client

/-! ## The point recorded -/

section

variable {sts : List Stat} {data : StatsReply}

/-- What the page records for the counts of the monitor: the count of one model, as often
    as there are models; zero without models. -/
theorem totalRdone_after
    (h : data.Decodes (StatsMonitor.after sts).requestPerSec
      (StatsMonitor.after sts).requestLagDone) (hne : sts ≠ []) :
    ∃ m n, (StatsMonitor.after sts).requestLagDone.lookup m = some n ∧
      Client.totalRdone data.stats data.rdone =
        some (((StatsMonitor.after sts).requestLagDone.keys.length : ℚ) * n) := by
  obtain ⟨st, hst⟩ := List.exists_mem_of_ne_nil sts hne
  have hmem : ∀ m, m ∈ data.stats ↔ m ∈ data.rdone := by
    intro m
    rw [h.mem_stats, h.mem_rdone, StatsMonitor.mem_after_requestPerSec,
      StatsMonitor.mem_after_requestLagDone]
  have hmodel : st.workload.modelId ∈ data.rdone :=
    h.mem_rdone.mpr ((StatsMonitor.mem_after_requestLagDone sts _).mpr ⟨st, hst, rfl⟩)
  -- the last key of `stats` is a model with a count
  have hkeys : data.rdone.keys ≠ [] := List.ne_nil_of_mem (AList.mem_keys.mp hmodel)
  have hstats : data.stats.keys ≠ [] :=
    List.ne_nil_of_mem (AList.mem_keys.mp ((hmem _).mpr hmodel))
  have hlast : data.stats.keys.getLast hstats ∈ data.rdone :=
    (hmem _).mp (AList.mem_keys.mpr (List.getLast_mem hstats))
  obtain ⟨n, hn⟩ := Option.isSome_iff_exists.mp
    (AList.lookup_isSome.mpr (h.mem_rdone.mp hlast))
  refine ⟨data.stats.keys.getLast hstats, n, hn, ?_⟩
  rw [Client.totalRdone_eq, if_neg hkeys, List.getLast?_eq_some_getLast hstats,
    Option.getD_some, h.rdone, hn, h.length_rdone]
  rfl

/-- Without `Stat`s nothing is added up. -/
theorem totalRdone_after_nil
    (h : data.Decodes (StatsMonitor.after []).requestPerSec
      (StatsMonitor.after []).requestLagDone) :
    Client.totalRdone data.stats data.rdone = some 0 := by
  have hkeys : data.rdone.keys = [] := by
    rw [← List.length_eq_zero_iff, h.length_rdone]
    rfl
  rw [Client.totalRdone_eq, if_pos hkeys]

/-- The point and the counts are right when all `Stat`s are of one model. -/
theorem lagCorrect_of_one_model
    (h : data.Decodes (StatsMonitor.after sts).requestPerSec
      (StatsMonitor.after sts).requestLagDone)
    (hone : ∀ st ∈ sts, ∀ st' ∈ sts, st.workload.modelId = st'.workload.modelId) :
    LagCorrect sts (StatsMonitor.after sts).requestLagDone
      (Client.totalRdone data.stats data.rdone) := by
  rcases List.eq_nil_or_append_singleton sts with rfl | ⟨pre, st, rfl⟩
  · rw [totalRdone_after_nil h]
    exact ⟨by simp [totalDone], fun _ => rfl, by simp [StatsMonitor.init]⟩
  · obtain ⟨m, n, hn, hpoint⟩ := totalRdone_after h (by simp)
    have hmodel : ∀ m ∈ (StatsMonitor.after (pre ++ [st])).requestLagDone,
        m = st.workload.modelId := by
      intro m hm
      obtain ⟨st', hst', rfl⟩ := (StatsMonitor.mem_after_requestLagDone _ m).mp hm
      exact hone st' hst' st (by simp)
    have hlast := StatsMonitor.after_requestLagDone_concat pre st st.workload.modelId
    rw [if_pos rfl] at hlast
    have hmem := AList.lookup_isSome.mp (Option.isSome_iff_exists.mpr ⟨_, hlast⟩)
    have hkeys := AList.keys_eq_singleton hmem hmodel
    -- there is one key, and its count is the total
    obtain rfl := hmodel m (AList.lookup_isSome.mp (Option.isSome_iff_exists.mpr ⟨_, hn⟩))
    obtain rfl := Option.some.inj (hlast.symm.trans hn)
    -- the count that the last `Stat` left
    have hcount : count (StatsMonitor.after (pre ++ [st])).requestLagDone
        st.workload.modelId = totalDone (pre ++ [st]) := by
      rw [count, hlast]
      rfl
    have htotal : Client.totalRdone data.stats data.rdone =
        some (totalDone (pre ++ [st]) : ℚ) := by
      rw [hpoint, hkeys]
      simp
    refine ⟨htotal, fun m => ?_, ?_⟩
    · by_cases hm : m = st.workload.modelId
      · subst hm
        rw [hcount, List.filter_eq_self.mpr]
        intro st' hst'
        exact Stat.ofModel_iff.mpr (hone st' hst' st (by simp))
      · -- the other models have neither a count nor a `Stat`
        have hno : m ∉ (StatsMonitor.after (pre ++ [st])).requestLagDone :=
          fun hm' => hm (hmodel m hm')
        rw [count, AList.lookup_eq_none.mpr hno, List.filter_eq_nil_iff.mpr]
        · rfl
        · intro st' hst' hof
          exact hm ((Stat.ofModel_iff.mp hof).symm.trans (hone st' hst' st (by simp)))
    · rw [htotal, hkeys, List.map_singleton, List.sum_singleton, hcount]

/-- They are right when nothing was completed. -/
theorem lagCorrect_of_none_done
    (h : data.Decodes (StatsMonitor.after sts).requestPerSec
      (StatsMonitor.after sts).requestLagDone)
    (hzero : ∀ st ∈ sts, st.nreqDone = 0) :
    LagCorrect sts (StatsMonitor.after sts).requestLagDone
      (Client.totalRdone data.stats data.rdone) := by
  -- any of the `Stat`s add up to zero
  have htotal : ∀ l : List Stat, (∀ st ∈ l, st ∈ sts) → totalDone l = 0 := by
    intro l hl
    exact (List.sum_map_eq_zero _ l).mpr fun st hst => hzero st (hl st hst)
  have hsts := htotal sts fun _ hst => hst
  -- no count is above the total
  have hcount : ∀ m, count (StatsMonitor.after sts).requestLagDone m = 0 := by
    intro m
    cases hm : (StatsMonitor.after sts).requestLagDone.lookup m with
    | none => rw [count, hm]; rfl
    | some n =>
      have hle := StatsMonitor.after_requestLagDone_le hm
      rw [count, hm]
      show n = 0
      omega
  have hpoint : Client.totalRdone data.stats data.rdone = some 0 := by
    by_cases hnil : sts = []
    · subst hnil
      exact totalRdone_after_nil h
    · obtain ⟨m, n, hn, hpoint⟩ := totalRdone_after h hnil
      have hle := StatsMonitor.after_requestLagDone_le hn
      obtain rfl : n = 0 := by omega
      rw [hpoint]
      simp
  refine ⟨by simp [hpoint, hsts], fun m => ?_, ?_⟩
  · rw [hcount, htotal _ fun _ hst => List.mem_of_mem_filter hst]
  · have hsum : ((StatsMonitor.after sts).requestLagDone.keys.map
        (count (StatsMonitor.after sts).requestLagDone)).sum = 0 :=
      (List.sum_map_eq_zero _ _).mpr fun m _ => hcount m
    rw [hpoint, hsum]
    simp

/-- The predictions of two models are among those of all. -/
theorem totalDone_filter_add_le {m m' : String} (hm : m ≠ m') (sts : List Stat) :
    totalDone (sts.filter (Stat.ofModel m)) + totalDone (sts.filter (Stat.ofModel m')) ≤
      totalDone sts := by
  induction sts with
  | nil => exact le_rfl
  | cons st sts ih =>
    -- no `Stat` is of both models
    have hnot : ¬ (st.ofModel m = true ∧ st.ofModel m' = true) := by
      rintro ⟨h, h'⟩
      exact hm ((Stat.ofModel_iff.mp h).symm.trans (Stat.ofModel_iff.mp h'))
    have hcons : totalDone (st :: sts) = st.nreqDone + totalDone sts := List.sum_cons
    rw [List.filter_cons, List.filter_cons, hcons]
    split <;> split <;> simp_all [totalDone] <;> omega

/-- They are not right otherwise: the model of the last `Stat` has the total of all. -/
theorem of_lagCorrect
    (h : data.Decodes (StatsMonitor.after sts).requestPerSec
      (StatsMonitor.after sts).requestLagDone)
    (hc : LagCorrect sts (StatsMonitor.after sts).requestLagDone
      (Client.totalRdone data.stats data.rdone)) :
    (∀ st ∈ sts, ∀ st' ∈ sts, st.workload.modelId = st'.workload.modelId) ∨
      ∀ st ∈ sts, st.nreqDone = 0 := by
  rcases List.eq_nil_or_append_singleton sts with rfl | ⟨pre, st, rfl⟩
  · exact .inl (by simp)
  · by_cases hzero : totalDone (pre ++ [st]) = 0
    · exact .inr ((List.sum_map_eq_zero _ _).mp hzero)
    · left
      -- the count of the last model is the total, and should be the predictions of that model
      have hlast := StatsMonitor.after_requestLagDone_concat pre st st.workload.modelId
      rw [if_pos rfl] at hlast
      have hown := hc.perModel st.workload.modelId
      rw [count, hlast, Option.getD_some] at hown
      -- the point is `k` times the count of a model, and it is the total
      obtain ⟨m, n, hn, hpoint⟩ := totalRdone_after h (by simp)
      have htotal : (((StatsMonitor.after (pre ++ [st])).requestLagDone.keys.length : ℚ) * n) =
          totalDone (pre ++ [st]) := Option.some.inj (hpoint.symm.trans hc.total)
      have htotal : (StatsMonitor.after (pre ++ [st])).requestLagDone.keys.length * n =
          totalDone (pre ++ [st]) := by exact_mod_cast htotal
      by_cases hm : m = st.workload.modelId
      · -- the count is the total, so there is one key
        subst hm
        obtain rfl := Option.some.inj (hlast.symm.trans hn)
        have hlen := Nat.eq_of_mul_eq_mul_right (Nat.pos_of_ne_zero hzero)
          (htotal.trans (Nat.one_mul _).symm)
        obtain ⟨k, hk⟩ := List.length_eq_one_iff.mp hlen
        have hkey : ∀ x ∈ pre ++ [st], x.workload.modelId = k := by
          intro x hx
          have hmem := (StatsMonitor.mem_after_requestLagDone _ _).mpr ⟨x, hx, rfl⟩
          rw [AList.mem_keys, hk] at hmem
          exact List.mem_singleton.mp hmem
        intro x hx y hy
        rw [hkey x hx, hkey y hy]
      · -- a model that has completed nothing, since the last one has completed everything
        have hother := hc.perModel m
        rw [count, hn, Option.getD_some] at hother
        have hle := totalDone_filter_add_le hm (pre ++ [st])
        obtain rfl : n = 0 := by omega
        exact absurd htotal.symm (by simpa using hzero)

end

namespace App

variable {dir : String} {es : List Event} {s : App}

/-- The point that the page records for an answer of `handleStats` is the number of
    predictions completed in the `Stat`s that the monitor had received, made of counts of
    one model each that are added once each, exactly when these `Stat`s are all of one
    model or none of them completed anything. -/
theorem recorded_total_iff (h : Runs dir es s) {i : Nat} {x : Handler}
    {stats rdone : GoMap Nat} (hget : s.handlers[i]? = some x)
    (hx : x.statsAnswer? = some (stats, rdone)) {c : Client} {data : StatsReply}
    {y : Option ℚ} (hdata : data.Decodes stats rdone)
    (hrec : (c.onWorkloadReceive .app data).rLagGraph = c.rLagGraph ++ [y]) :
    LagCorrect (collected dir es i) rdone y ↔
      (∀ st ∈ collected dir es i, ∀ st' ∈ collected dir es i,
          st.workload.modelId = st'.workload.modelId) ∨
        ∀ st ∈ collected dir es i, st.nreqDone = 0 := by
  obtain ⟨rfl, rfl⟩ := answered_eq_after h hget hx
  obtain rfl := Client.eq_totalRdone_of_recorded hrec
  constructor
  · exact of_lagCorrect hdata
  -- with one model the total is that of the model; without requests both are zero
  · rintro (hone | hzero)
    · exact lagCorrect_of_one_model hdata hone
    · exact lagCorrect_of_none_done hdata hzero

/-- The page that has played a workload of two widgets. -/
def playedTwo : List Client.Event :=
  [.newWidget, .editQuery 0 "a", .editQuery 1 "b", .click, .played 0 true]

/-- The answer for the models of `rates` and `done`, in the order of these lists. -/
def reply (rates done : List (Sigma fun _ : String => ℚ)) : StatsReply :=
  ⟨true, none, rates.toAList, done.toAList⟩

/-- Two models with one completed prediction each: the page records four. -/
theorem total_counted_per_model :
    ¬ ∀ dir es s (i : Nat) (x : Handler) stats rdone m cache fs c data y, Runs dir es s →
      s.handlers[i]? = some x → x.statsAnswer? = some (stats, rdone) →
      Client.Runs .app m cache fs c → data.Decodes stats rdone →
      (c.onWorkloadReceive .app data).rLagGraph = c.rLagGraph ++ [y] →
      LagCorrect (collected dir es i) rdone y := by
  intro hall
  -- two workers with a model each make one request each, and both report
  obtain ⟨s, hs, hp⟩ := Machine.exists_run_of_map App.step (init "reports")
    (submit 0 (sampleForm [("0", "m"), ("1", "n")] "5" "2") "b" [0, 1] ++ predicts 0 ++
      predicts 1 ++ reports 0 ++ reports 1 ++ collects 1)
    (fun s => ((s.handlers[1]?).bind Handler.statsAnswer?).any fun p =>
      p.1.entries == [⟨"1", 2⟩, ⟨"0", 2⟩] && p.2.entries == [⟨"1", 2⟩, ⟨"0", 1⟩]) (by decide)
  obtain ⟨⟨stats, rdone⟩, hp, hentries⟩ := (Option.any_eq_true _ _).mp hp
  obtain ⟨x, hget, hx⟩ := Option.bind_eq_some_iff.mp hp
  obtain ⟨c, hc, hrec⟩ := Machine.exists_run_of_map (Client.step .app) (Client.init 10000 none)
    playedTwo (fun c => (c.onWorkloadReceive .app (reply [⟨"0", 2⟩, ⟨"1", 2⟩]
      [⟨"0", 1⟩, ⟨"1", 2⟩])).rLagGraph == c.rLagGraph ++ [some 4]) (by decide +kernel)
  simp only [Bool.and_eq_true, beq_iff_eq] at hentries hrec
  have hdata : (reply [⟨"0", 2⟩, ⟨"1", 2⟩] [⟨"0", 1⟩, ⟨"1", 2⟩]).Decodes stats rdone := by
    refine StatsReply.decodes_of_perm rfl ?_ ?_
    · rw [hentries.1]
      exact .swap _ _ _
    · rw [hentries.2]
      exact .swap _ _ _
  -- two requests have been completed, of which one is counted twice
  have hcorrect := hall _ _ s 1 x stats rdone 10000 none playedTwo c _ _ hs hget hx hc hdata hrec
  have hdone : totalDone (collected "reports" (submit 0 (sampleForm [("0", "m"), ("1", "n")] "5"
      "2") "b" [0, 1] ++ predicts 0 ++ predicts 1 ++ reports 0 ++ reports 1 ++ collects 1) 1) =
      2 := by decide
  have htotal := hcorrect.total
  rw [hdone] at htotal
  norm_num at htotal

/-- Two workers of one model: the page records the two predictions that they report. -/
theorem total_of_one_model :
    ∃ s x stats rdone c y, Runs "reports" (submit 0 (sampleForm [("0", "m")] "5" "2") "b" [0, 0] ++
        predicts 0 ++ predicts 1 ++ reports 0 ++ reports 1 ++ collects 1) s ∧
      s.handlers[1]? = some x ∧ x.statsAnswer? = some (stats, rdone) ∧
      Client.Runs .app 10000 none playedTwo c ∧
      (c.onWorkloadReceive .app (reply [⟨"0", 2⟩] [⟨"0", 2⟩])).rLagGraph = c.rLagGraph ++ [y] ∧
      LagCorrect (collected "reports" (submit 0 (sampleForm [("0", "m")] "5" "2") "b" [0, 0] ++
        predicts 0 ++ predicts 1 ++ reports 0 ++ reports 1 ++ collects 1) 1) rdone y := by
  obtain ⟨s, hs, hp⟩ := Machine.exists_run_of_map App.step (init "reports")
    (submit 0 (sampleForm [("0", "m")] "5" "2") "b" [0, 0] ++
      predicts 0 ++ predicts 1 ++ reports 0 ++ reports 1 ++ collects 1)
    (fun s => ((s.handlers[1]?).bind Handler.statsAnswer?).any fun p =>
      p.1.entries == [⟨"0", 2⟩] && p.2.entries == [⟨"0", 2⟩]) (by decide)
  obtain ⟨⟨stats, rdone⟩, hp, hentries⟩ := (Option.any_eq_true _ _).mp hp
  obtain ⟨x, hget, hx⟩ := Option.bind_eq_some_iff.mp hp
  obtain ⟨c, hc, hrec⟩ := Machine.exists_run_of_map (Client.step .app) (Client.init 10000 none)
    playedTwo (fun c => (c.onWorkloadReceive .app (reply [⟨"0", 2⟩] [⟨"0", 2⟩])).rLagGraph ==
      c.rLagGraph ++ [some 2]) (by decide +kernel)
  simp only [Bool.and_eq_true, beq_iff_eq] at hentries hrec
  have hdata : (reply [⟨"0", 2⟩] [⟨"0", 2⟩]).Decodes stats rdone := by
    refine StatsReply.decodes_of_perm rfl ?_ ?_
    · rw [hentries.1]
      exact .refl _
    · rw [hentries.2]
      exact .refl _
  -- both workers have the one model, which is the first case of the condition
  refine ⟨s, x, stats, rdone, c, _, hs, hget, hx, hc, hrec,
    (recorded_total_iff hs hget hx hdata hrec).mpr (.inl ?_)⟩
  have hmodels : ∀ st ∈ collected "reports" (submit 0 (sampleForm [("0", "m")] "5" "2") "b" [0, 0] ++
      predicts 0 ++ predicts 1 ++ reports 0 ++ reports 1 ++ collects 1) 1,
      st.workload.modelId = "0" := by decide
  intro st hst st' hst'
  rw [hmodels st hst, hmodels st' hst']

end App

end WorkloadSimulator
