import WorkloadSimulator.Spec.RequestAccounting

/-!
# What a report says

A `Report` against the `Stat`s that the monitor has received. The monitor lives as long
as the process and never resets anything: its counters and its keys come from every batch
there has been, and the rate of a model is that of one of its workers.

## Key results

- `isolated_iff`: a report holds data of its own batch only exactly when no other batch
  has reported since the process started
- `requestPerSec_eq_sum_iff`: a model's rate is the sum of its workers' rates exactly when
  its workers other than the last one to report have completed nothing in their last batch
-/

namespace WorkloadSimulator

/-- Whether a `Stat` is of a worker of the batch `b`. -/
def Stat.ofBatch (b : String) (st : Stat) : Bool := st.workload.batchId == b

/-- The report `r`, made from `sts`, carries only data of its own batch. -/
structure Report.Isolated (r : Report) (sts : List Stat) : Prop where
  sent : r.requestSent = ((sts.filter (Stat.ofBatch r.batchId)).map Stat.nreqSent).sum
  done : r.requestDone = ((sts.filter (Stat.ofBatch r.batchId)).map Stat.nreqDone).sum
  perS : ∀ m ∈ r.requestPerS, ∃ st ∈ sts, st.ofBatch r.batchId ∧ st.ofModel m
  lagDone : ∀ m ∈ r.requestLagDone, ∃ st ∈ sts, st.ofBatch r.batchId ∧ st.ofModel m

/-- Completed requests per second, as the worker measured them. -/
def Stat.rate (st : Stat) : ℚ := st.nreqDone / (st.workload.dt / 1000)

namespace App

variable {dir : String} {es : List Event} {s : App}

/-! ## Batches -/

/-- Every `Stat` counts a request sent, even the one of a worker that has sent none. -/
theorem nreqSent_pos (h : Runs dir es s) : ∀ st ∈ statList dir es, 0 < st.nreqSent := by
  intro st hst
  obtain ⟨w, hw⟩ := mem_statList.mp hst
  refine forall_mem_stats (P := fun _ st => 0 < st.nreqSent) ?_ h _ hw
  intro es s w wk st h hget hst
  exact Nat.zero_lt_of_lt (started_lt_nreqSent h hget hst)

/-- A report carries only data of its own batch exactly when all `Stat`s so far are of
    workers of one batch. -/
theorem isolated_iff (h : Runs dir es s) {r : Report} (hr : s.monitor.reporting = some r) :
    r.Isolated (statList dir es) ↔
      ∀ x ∈ statList dir es, ∀ y ∈ statList dir es,
        x.workload.batchId = y.workload.batchId := by
  have hpos := nreqSent_pos h
  obtain rfl := reporting_eq_after h hr
  generalize statList dir es = sts at hpos
  have hsent : (StatsMonitor.after sts).makeReport.requestSent = (sts.map Stat.nreqSent).sum :=
    StatsMonitor.after_isent sts
  have hdone : (StatsMonitor.after sts).makeReport.requestDone = (sts.map Stat.nreqDone).sum :=
    StatsMonitor.after_idone sts
  constructor
  · -- a `Stat` of another batch adds at least one to `requestSent`
    intro hiso
    have hall := (List.sum_map_filter_eq_iff _ hpos).mp (hiso.sent.symm.trans hsent)
    intro x hx y hy
    have hbx := hall x hx
    have hby := hall y hy
    rw [Stat.ofBatch, beq_iff_eq] at hbx hby
    rw [hbx, hby]
  · intro hsame
    have hall : ∀ st ∈ sts,
        -- the batch of the report is that of the last `Stat`
        st.ofBatch (StatsMonitor.after sts).makeReport.batchId = true := by
      rcases List.eq_nil_or_append_singleton sts with rfl | ⟨sts', last, rfl⟩
      · simp
      · intro st hst
        rw [Stat.ofBatch, beq_iff_eq, hsame st hst last (by simp)]
        exact (StatsMonitor.after_bid sts' last).symm
    have hkey : ∀ m, (∃ st ∈ sts, st.workload.modelId = m) → ∃ st ∈ sts,
        st.ofBatch (StatsMonitor.after sts).makeReport.batchId ∧ st.ofModel m := by
      rintro m ⟨st, hst, hm⟩
      exact ⟨st, hst, hall st hst, Stat.ofModel_iff.mpr hm⟩
    have hfilter := List.filter_eq_self.mpr hall
    refine ⟨?_, ?_, ?_, ?_⟩
    · rw [hfilter, hsent]
    · rw [hfilter, hdone]
    · intro m hm
      exact hkey m ((StatsMonitor.mem_after_requestPerSec sts m).mp hm)
    · intro m hm
      exact hkey m ((StatsMonitor.mem_after_requestLagDone sts m).mp hm)

/-- The first report after a second batch has reported counts the requests of both. -/
theorem report_mixes_batches :
    ¬ ∀ dir es s r, Runs dir es s → s.monitor.reporting = some r →
      r.Isolated (statList dir es) := by
  intro hall
  obtain ⟨s, hs, hp⟩ := Machine.exists_run_of_map App.step (init "reports")
    (submit 0 (sampleForm [("0", "m")] "5" "1") "b1" [0] ++ reports 0 ++
      submit 1 (sampleForm [("0", "m")] "5" "1") "b2" [0] ++ reports 1 ++ [.monitorTick])
    (fun s => (s.monitor.reporting.map fun r => (r.batchId, r.requestSent)) ==
      some ("b2", 2)) (by decide)
  -- the monitor's count goes on from the first batch
  obtain ⟨r, hr, hbr⟩ := Option.map_eq_some_iff.mp (beq_iff_eq.mp hp)
  obtain ⟨hb, hsent⟩ := Prod.mk.inj hbr
  have hiso := (hall _ _ s r hs hr).sent
  rw [hb, hsent] at hiso
  exact absurd hiso (by decide)

/-- A report made while only the first batch has reported. -/
theorem report_of_one_batch :
    ∃ s r, Runs "reports" (submit 0 (sampleForm [("0", "m")] "5" "1") "b1" [0] ++
      reports 0 ++ [.monitorTick]) s ∧ s.monitor.reporting = some r ∧
      r.Isolated (statList "reports" (submit 0 (sampleForm [("0", "m")] "5" "1") "b1" [0] ++
        reports 0 ++ [.monitorTick])) := by
  obtain ⟨s, hs, hp⟩ := Machine.exists_run_of_map App.step (init "reports")
    (submit 0 (sampleForm [("0", "m")] "5" "1") "b1" [0] ++ reports 0 ++ [.monitorTick])
    (fun s => s.monitor.reporting.isSome) (by decide)
  obtain ⟨r, hr⟩ := Option.isSome_iff_exists.mp hp
  -- all `Stat`s of the run are of the one batch
  have hb : ∀ st ∈ statList "reports" (submit 0 (sampleForm [("0", "m")] "5" "1") "b1" [0] ++
      reports 0 ++ [.monitorTick]), st.workload.batchId = "b1" := by decide
  exact ⟨s, r, hs, hr, (isolated_iff hs hr).mpr fun x hx y hy => by rw [hb x hx, hb y hy]⟩

/-! ## Rates -/

/-- The last `Stat` of the worker `w` that the monitor has received. -/
def latestStat (dir : String) (es : List Event) (w : Nat) : Option Stat :=
  ((stats dir es).findRev? fun x => x.1 == w).map Prod.snd

/-- The worker whose `Stat` the monitor has last received for the model `m`. -/
def lastReporter (dir : String) (es : List Event) (m : String) : Option Nat :=
  ((stats dir es).findRev? fun x => x.2.ofModel m).map Prod.fst

/-- The workers that were assigned the model `m`. -/
def modelWorkers (s : App) (m : String) : Finset Nat :=
  (Finset.range s.workers.length).filter fun w =>
    (s.workers[w]?).any (·.w.modelId == m)

/-- The workers of a model, each by its number. -/
theorem mem_modelWorkers {m : String} {w : Nat} :
    w ∈ s.modelWorkers m ↔ ∃ wk, s.workers[w]? = some wk ∧ wk.w.modelId = m := by
  rw [modelWorkers, Finset.mem_filter, Finset.mem_range]
  constructor
  · rintro ⟨hw, hm⟩
    rw [List.getElem?_eq_getElem hw] at hm ⊢
    exact ⟨_, rfl, by simpa using hm⟩
  · rintro ⟨wk, hget, hm⟩
    refine ⟨(List.getElem?_eq_some_iff.mp hget).1, ?_⟩
    simp [hget, hm]

/-- The latest `Stat` of a worker has been received. -/
theorem mem_stats_of_latestStat {w : Nat} {st : Stat} (h : latestStat dir es w = some st) :
    (w, st) ∈ stats dir es := by
  obtain ⟨⟨v, st'⟩, hx, rfl⟩ := Option.map_eq_some_iff.mp h
  obtain ⟨hmem, hv⟩ := List.of_findRev?_eq_some hx
  obtain rfl := beq_iff_eq.mp hv
  exact hmem

/-- A worker measures over half a second. -/
theorem dt_of_mem_stats (h : Runs dir es s) : ∀ x ∈ stats dir es, x.2.workload.dt = 500 := by
  intro x hx
  obtain ⟨wk, hget, hw⟩ := exists_worker_of_mem_stats h x hx
  rw [hw, workload_dt h hget]

/-- The rate of a `Stat` is twice its batch. -/
theorem rate_of_mem (h : Runs dir es s) : ∀ x ∈ stats dir es, x.2.rate = 2 * x.2.nreqDone := by
  intro x hx
  rw [Stat.rate, dt_of_mem_stats h x hx]
  push_cast
  ring

/-- The monitor's rate is exact: nothing is lost by the truncation to an integer. -/
theorem reqPerS_of_mem (h : Runs dir es s) :
    ∀ x ∈ stats dir es, (x.2.reqPerS : ℚ) = x.2.rate := by
  intro x hx
  -- in half a second each request counts for two
  have hnat : x.2.reqPerS = 2 * x.2.nreqDone := by
    rw [Stat.reqPerS, dt_of_mem_stats h x hx]
    omega
  rw [rate_of_mem h x hx, hnat]
  push_cast
  ring

/-- The last `Stat` of a model is the latest one of the worker that sent it. -/
theorem latestStat_of_last (h : Runs dir es s) {m : String} {w : Nat} {st : Stat}
    (hlast : (stats dir es).findRev? (fun x => x.2.ofModel m) = some (w, st)) :
    latestStat dir es w = some st := by
  obtain ⟨hmem, hm⟩ := List.of_findRev?_eq_some hlast
  obtain ⟨wk, hget, hw⟩ := exists_worker_of_mem_stats h _ hmem
  -- the last of the model is the last of the worker: its `Stat`s are among the model's
  have hfind : (stats dir es).findRev? (fun x => x.1 == w) = some (w, st) := by
    refine List.findRev?_of_imp hlast (by simp) fun x hx hxw => ?_
    -- all `Stat`s of a worker are of its model
    obtain ⟨wk', hget', hw'⟩ := exists_worker_of_mem_stats h x hx
    rw [beq_iff_eq.mp hxw] at hget'
    obtain rfl := Option.some.inj (hget.symm.trans hget')
    rw [Stat.ofModel_iff] at hm ⊢
    rw [hw', ← hw, hm]
  rw [latestStat, hfind]
  rfl

/-- The workers of a model are those whose `Stat`s are of the model. -/
theorem mem_modelWorkers_iff (h : Runs dir es s) {w : Nat} {st : Stat}
    (hst : latestStat dir es w = some st) (m : String) :
    w ∈ s.modelWorkers m ↔ st.workload.modelId = m := by
  -- a number has one worker
  obtain ⟨wk, hget, hw⟩ := exists_worker_of_mem_stats h _ (mem_stats_of_latestStat hst)
  rw [mem_modelWorkers, hw]
  constructor
  · rintro ⟨wk', hget', hm⟩
    obtain rfl := Option.some.inj (hget.symm.trans hget')
    exact hm
  · intro hm
    exact ⟨wk, hget, hm⟩

/-- The rate in a worker's latest `Stat`, or zero before its first. -/
def latestRate (dir : String) (es : List Event) (w : Nat) : ℚ :=
  ((latestStat dir es w).map Stat.rate).getD 0

/-- The latest rate of a worker that has reported. -/
theorem latestRate_of_some (h : Runs dir es s) {w : Nat} {st : Stat}
    (hst : latestStat dir es w = some st) : latestRate dir es w = 2 * st.nreqDone := by
  rw [latestRate, hst]
  exact rate_of_mem h _ (mem_stats_of_latestStat hst)

/-- A rate is not negative, and a worker that has not reported has none. -/
theorem latestRate_nonneg (h : Runs dir es s) (w : Nat) : 0 ≤ latestRate dir es w := by
  cases hst : latestStat dir es w with
  | none =>
    rw [latestRate, hst]
    simp
  | some st =>
    rw [latestRate_of_some h hst]
    positivity

/-- A worker's rate is zero when it completed nothing in its last batch. -/
theorem latestRate_eq_zero (h : Runs dir es s) (w : Nat) :
    latestRate dir es w = 0 ↔ ∀ st, latestStat dir es w = some st → st.nreqDone = 0 := by
  cases hst : latestStat dir es w with
  | none => simp [latestRate, hst]
  | some st =>
    rw [latestRate_of_some h hst]
    simp

/-- What the report gives for a model is the rate in the model's last `Stat`. -/
theorem requestPerS_of_last (h : Runs dir es s) {r : Report}
    (hr : s.monitor.reporting = some r) (m : String) :
    r.requestPerS.lookup m =
      ((stats dir es).findRev? fun x => x.2.ofModel m).map fun x => x.2.reqPerS := by
  rw [reporting_eq_after h hr]
  show (StatsMonitor.after (statList dir es)).requestPerSec.lookup m = _
  -- the monitor sees the `Stat`s without their senders
  rw [StatsMonitor.after_requestPerSec, statList, List.findRev?_eq_find?_reverse,
    List.findRev?_eq_find?_reverse, ← List.map_reverse, List.find?_map, Option.map_map]
  rfl

/-- The rate that a report gives for a model is the sum of the rates in the latest `Stat`s
    of the model's workers exactly when only the worker that reported last for the model
    has a rate above zero. -/
theorem requestPerSec_eq_sum_iff (h : Runs dir es s) {r : Report}
    (hr : s.monitor.reporting = some r) (m : String) :
    (((r.requestPerS.lookup m).getD 0 : Nat) : ℚ) =
        ∑ w ∈ s.modelWorkers m, latestRate dir es w ↔
      ∀ w ∈ s.modelWorkers m, ∀ st, latestStat dir es w = some st → 0 < st.nreqDone →
        lastReporter dir es m = some w := by
  rw [requestPerS_of_last h hr m]
  cases hlast : (stats dir es).findRev? fun x => x.2.ofModel m with
  | none =>
    -- no worker of the model has reported
    have hno : ∀ w ∈ s.modelWorkers m, latestStat dir es w = none := by
      intro w hw
      by_contra hne
      obtain ⟨st, hst⟩ := Option.ne_none_iff_exists'.mp hne
      have hm := (mem_modelWorkers_iff h hst m).mp hw
      have hfalse := List.findRev?_eq_none.mp hlast _ (mem_stats_of_latestStat hst)
      exact absurd (Stat.ofModel_iff.mpr hm) (by simp [hfalse])
    have hsum : ∑ w ∈ s.modelWorkers m, latestRate dir es w = 0 :=
      Finset.sum_eq_zero fun w hw => by rw [latestRate, hno w hw]; rfl
    rw [hsum]
    constructor
    · intro _ w hw st hst
      rw [hno w hw] at hst
      exact nomatch hst
    · intro _
      rfl
  | some x =>
    obtain ⟨v, last⟩ := x
    have hlatest := latestStat_of_last h hlast
    obtain ⟨hmem, hlm⟩ := List.of_findRev?_eq_some hlast
    have hv : v ∈ s.modelWorkers m :=
      (mem_modelWorkers_iff h hlatest m).mpr (Stat.ofModel_iff.mp hlm)
    have hreporter : lastReporter dir es m = some v := by
      rw [lastReporter, hlast]
      rfl
    have hrate : (last.reqPerS : ℚ) = latestRate dir es v := by
      rw [reqPerS_of_mem h _ hmem, latestRate, hlatest]
      rfl
    -- the others must add nothing
    rw [← Finset.add_sum_erase _ _ hv, hreporter]
    show (last.reqPerS : ℚ) = _ ↔ _
    rw [hrate, left_eq_add, Finset.sum_eq_zero_iff_of_nonneg fun w _ => latestRate_nonneg h w]
    constructor
    · intro hzero w hw st hst hdone
      by_contra hne
      have hw' : w ∈ (s.modelWorkers m).erase v :=
        Finset.mem_erase.mpr ⟨fun heq => hne (by rw [heq]), hw⟩
      have hst0 := (latestRate_eq_zero h w).mp (hzero w hw') st hst
      omega
    · intro hall w hw
      obtain ⟨hne, hw⟩ := Finset.mem_erase.mp hw
      refine (latestRate_eq_zero h w).mpr fun st hst => ?_
      by_contra hdone
      have heq := Option.some.inj (hall w hw st hst (by omega))
      exact hne heq.symm

/-- Two workers of one model that completed one request each: the report has the rate of
    the one that reported last. -/
theorem requestPerSec_of_one_worker :
    ¬ ∀ dir es s r m, Runs dir es s → s.monitor.reporting = some r →
      (∀ w wk, s.workers[w]? = some wk → wk.live = true → latestStat dir es w ≠ none) →
      (((r.requestPerS.lookup m).getD 0 : Nat) : ℚ) =
        ∑ w ∈ s.modelWorkers m, latestRate dir es w := by
  intro hall
  obtain ⟨s, hs, hp⟩ := Machine.exists_run_of_map App.step (init "reports")
    (submit 0 (sampleForm [("0", "m")] "5" "2") "b" [0, 0] ++ predicts 0 ++ predicts 1 ++
      reports 0 ++ reports 1 ++ [.monitorTick])
    (fun s => (s.monitor.reporting.map fun r => r.requestPerS.lookup "0") == some (some 2) &&
      s.workers.length == 2 && s.modelWorkers "0" == {0, 1}) (by decide)
  simp only [Bool.and_eq_true, beq_iff_eq, Option.map_eq_some_iff] at hp
  obtain ⟨⟨⟨r, hr, hlookup⟩, hlen⟩, hws⟩ := hp
  -- the last statistic of each worker has one request
  have hlatest : ∀ w < 2, ((latestStat "reports" (submit 0 (sampleForm [("0", "m")] "5" "2")
      "b" [0, 0] ++ predicts 0 ++ predicts 1 ++ reports 0 ++ reports 1 ++
      [.monitorTick]) w).map Stat.nreqDone) = some 1 := by decide
  have hrate : ∀ w < 2, latestRate "reports" (submit 0 (sampleForm [("0", "m")] "5" "2")
      "b" [0, 0] ++ predicts 0 ++ predicts 1 ++ reports 0 ++ reports 1 ++
      [.monitorTick]) w = 2 := by
    intro w hw
    obtain ⟨st, hst, hdone⟩ := Option.map_eq_some_iff.mp (hlatest w hw)
    rw [latestRate_of_some hs hst, hdone]
    simp
  have heq := hall _ _ s r "0" hs hr fun w wk hget _ hnone => by
    have hw := (List.getElem?_eq_some_iff.mp hget).1
    have hsome := hlatest w (by omega)
    rw [hnone] at hsome
    exact nomatch hsome
  -- the rate of the one worker would be that of both
  rw [hlookup, hws, Finset.sum_pair (by decide), hrate 0 (by decide), hrate 1 (by decide)] at heq
  norm_num at heq

/-- One worker for each of two models: each rate is that of its worker. -/
theorem requestPerSec_of_distinct_models :
    ∃ s r, Runs "reports" (submit 0 (sampleForm [("0", "m"), ("1", "n")] "5" "2") "b" [0, 1] ++
        predicts 0 ++ predicts 1 ++ reports 0 ++ reports 1 ++ [.monitorTick]) s ∧
      s.monitor.reporting = some r ∧
      (((r.requestPerS.lookup "0").getD 0 : Nat) : ℚ) = ∑ w ∈ s.modelWorkers "0",
        latestRate "reports" (submit 0 (sampleForm [("0", "m"), ("1", "n")] "5" "2") "b" [0, 1] ++
          predicts 0 ++ predicts 1 ++ reports 0 ++ reports 1 ++ [.monitorTick]) w := by
  obtain ⟨s, hs, hp⟩ := Machine.exists_run_of_map App.step (init "reports")
    (submit 0 (sampleForm [("0", "m"), ("1", "n")] "5" "2") "b" [0, 1] ++
      predicts 0 ++ predicts 1 ++ reports 0 ++ reports 1 ++ [.monitorTick])
    (fun s => s.monitor.reporting.isSome && s.modelWorkers "0" == {0}) (by decide)
  simp only [Bool.and_eq_true, beq_iff_eq] at hp
  obtain ⟨r, hr⟩ := Option.isSome_iff_exists.mp hp.1
  refine ⟨s, r, hs, hr, (requestPerSec_eq_sum_iff hs hr "0").mpr fun w hw _ _ _ => ?_⟩
  -- the one worker of the model has reported last
  rw [hp.2, Finset.mem_singleton] at hw
  subst hw
  decide

end App

end WorkloadSimulator
