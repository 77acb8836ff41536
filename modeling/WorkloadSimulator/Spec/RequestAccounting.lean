import WorkloadSimulator.Spec.AppRun

/-!
# Accounting of requests

What the totals of the monitor have to do with the predictions that the workers made.
A worker sends the number of predictions completed since its last `Stat` and resets it;
it sends the number of requests sent since it started, which it never resets and which
also counts the passes of its loop that make no request.

## Key results

- `idone_add_unreported`: the monitor's `idone` and the batches that the workers have not
  reported add up to the completed predictions, in every run
- `idone_eq_completed_iff`: `idone` is the number of completed predictions exactly when
  no worker completed one after its last `Stat`; workers exit without a last `Stat`
- `requestSent_eq_started_iff`: a report's `requestSent` is the number of requests started
  before the last `Stat`s exactly when no `Stat` has been received
-/

namespace WorkloadSimulator

/-! ## What the events say -/

namespace Event

/-- Whether the monitor receives a `Stat` of the worker `w`. -/
def isStat (w : Nat) : Event → Bool
  | .stat v => v == w
  | _ => false

/-- Whether the worker `w` starts a `Predict` call. -/
def isBegin (w : Nat) : Event → Bool
  | .worker v .begin => v == w
  | _ => false

/-- Whether a `Predict` call of the worker `w` returns without an error. -/
def isOk (w : Nat) : Event → Bool
  | .worker v (.predict .ok) => v == w
  | _ => false

/-- Whether a `Predict` call of some worker returns without an error. -/
def completes : Event → Bool
  | .worker _ (.predict .ok) => true
  | _ => false

/-- Whether the monitor receives a `Stat`. -/
def delivers : Event → Bool
  | .stat _ => true
  | _ => false

/-- A prediction is completed, and a `Stat` received, in core events only. -/
theorem completes_of_core {e : Event} (h : e.core = false) : e.completes = false := by
  cases e <;> first | rfl | exact nomatch h

/-- An event that takes no `Stat` delivers none. -/
theorem delivers_of_core {e : Event} (h : e.core = false) : e.delivers = false := by
  cases e <;> first | rfl | exact nomatch h

/-- A `Stat` is received from the worker that takes part in the event. -/
theorem isStat_of_worker?_ne {w : Nat} {e : Event} (h : e.worker? ≠ some w) :
    e.isStat w = false := by
  cases e <;> simp_all [isStat, worker?]

/-- A prediction is begun by the worker that takes part in the event. -/
theorem isBegin_of_worker?_ne {w : Nat} {e : Event} (h : e.worker? ≠ some w) :
    e.isBegin w = false := by
  unfold isBegin
  split <;> simp_all [worker?]

/-- So it is completed. -/
theorem isOk_of_worker?_ne {w : Nat} {e : Event} (h : e.worker? ≠ some w) :
    e.isOk w = false := by
  unfold isOk
  split <;> simp_all [worker?]

end Event

namespace App

/-- The `Predict` calls that returned without an error. -/
def completed (es : List Event) : Nat := es.countP Event.completes

/-- The `Predict` calls of the worker `w` that returned without an error after the
    monitor last received a `Stat` of it. -/
def unreported (w : Nat) (es : List Event) : Nat :=
  (es.rtakeWhile fun e => !e.isStat w).countP (Event.isOk w)

/-- The `Predict` calls that the worker `w` started. -/
def started (w : Nat) (es : List Event) : Nat := es.countP (Event.isBegin w)

/-- The `Predict` calls that the worker `w` had started when the monitor last received a
    `Stat` of it. -/
def startedAtStat (w : Nat) (es : List Event) : Nat :=
  started w (es.rdropWhile fun e => !e.isStat w)

theorem completed_concat (es : List Event) (e : Event) :
    completed (es ++ [e]) = completed es + e.completes.toNat := by
  cases h : e.completes <;> simp [completed, List.countP_append, h]

theorem started_concat (w : Nat) (es : List Event) (e : Event) :
    started w (es ++ [e]) = started w es + (e.isBegin w).toNat := by
  cases h : e.isBegin w <;> simp [started, List.countP_append, h]

/-- A `Stat` reports all that has been completed. -/
theorem unreported_concat (w : Nat) (es : List Event) (e : Event) :
    unreported w (es ++ [e]) =
      if e.isStat w then 0 else unreported w es + (e.isOk w).toNat := by
  unfold unreported
  rw [List.rtakeWhile_concat]
  cases hs : e.isStat w
  · cases h : e.isOk w <;> simp [List.countP_append, h]
  · simp

/-- A `Stat` takes note of all that has been begun. -/
theorem startedAtStat_concat (w : Nat) (es : List Event) (e : Event) :
    startedAtStat w (es ++ [e]) =
      if e.isStat w then started w (es ++ [e]) else startedAtStat w es := by
  unfold startedAtStat
  rw [List.rdropWhile_concat]
  cases e.isStat w <;> simp

/-- An event of another goroutine leaves the counts of a worker as they are. -/
theorem unreported_frame {w : Nat} {e : Event} (es : List Event) (h : e.worker? ≠ some w) :
    unreported w (es ++ [e]) = unreported w es := by
  simp [unreported_concat, Event.isStat_of_worker?_ne h, Event.isOk_of_worker?_ne h]

theorem started_frame {w : Nat} {e : Event} (es : List Event) (h : e.worker? ≠ some w) :
    started w (es ++ [e]) = started w es := by
  simp [started_concat, Event.isBegin_of_worker?_ne h]

/-- A worker that has taken part in no event has counted nothing. -/
theorem unreported_of_forall {w : Nat} {es : List Event}
    (h : ∀ e ∈ es, e.worker? ≠ some w) : unreported w es = 0 := by
  refine List.countP_eq_zero.mpr fun e he => ?_
  simp [Event.isOk_of_worker?_ne (h e ((List.rtakeWhile_suffix _ _).subset he))]

/-- A worker that has taken part in no event has begun nothing. -/
theorem started_of_forall {w : Nat} {es : List Event}
    (h : ∀ e ∈ es, e.worker? ≠ some w) : started w es = 0 :=
  List.countP_eq_zero.mpr fun e he => by simp [Event.isBegin_of_worker?_ne (h e he)]

/-- Nor has it reported anything. -/
theorem startedAtStat_of_forall {w : Nat} {es : List Event}
    (h : ∀ e ∈ es, e.worker? ≠ some w) : startedAtStat w es = 0 :=
  started_of_forall fun e he => h e ((List.rdropWhile_prefix _ _).subset he)

/-! ## Completed requests -/

variable {dir : String} {es : List Event} {s : App}

/-- A worker's request counter holds the completed predictions it has not reported. -/
theorem predCount_eq_unreported (h : Runs dir es s) {w : Nat} {wk : Worker}
    (hget : s.workers[w]? = some wk) : wk.predCount = unreported w es := by
  -- the history of one worker: launched, untouched, its own step, a kill, or the receipt of its
  -- `Stat`
  refine run_forall_worker_history (Q := fun w es wk => wk.predCount = unreported w es)
    ?_ ?_ ?_ ?_ ?_ h w wk hget
  · intro w es wl _ hno
    simp [unreported_of_forall hno]
  · intro w es e wk hne hwk
    rw [unreported_frame es hne, hwk]
  · -- a completed prediction adds one to both sides
    intro w es a wk wk' hwk ha
    rw [unreported_concat]
    rcases Worker.step_cases ha with ⟨rfl, -, -, rfl⟩ | ⟨rfl, -, -, rfl⟩ | ⟨rfl, -, rfl⟩ |
      ⟨rfl, -, rfl⟩ | ⟨rfl, -, rfl⟩ | ⟨rfl, -, rfl⟩ | ⟨rfl, -, rfl⟩ <;>
      simp [Event.isStat, Event.isOk, hwk]
  · intro w es h wk hwk _
    simp [unreported_concat, Event.isStat, Event.isOk, hwk]
  · -- the receipt of the `Stat` resets both
    intro w es st wk _ _
    simp [unreported_concat, Event.isStat]

/-- **Conservation.** What the monitor has counted and what the workers have still to
    report add up to the completed predictions. -/
theorem idone_add_unreported (h : Runs dir es s) :
    s.monitor.idone + (s.workers.map Worker.predCount).sum = completed es := by
  refine Machine.run_history (P := fun es s =>
    s.monitor.idone + (s.workers.map Worker.predCount).sum = completed es) rfl ?_ h
  intro es t e u ht ih he
  rw [completed_concat]
  cases coreMove_of_step he with
  | other hcore hws hmon =>
    rw [hws, hmon, ih, Event.completes_of_core hcore, Bool.toNat_false, Nat.add_zero]
  | launch h r wl hdt hid hws hmon =>
    -- a new worker has nothing to report
    rw [hws, hmon, List.map_append, List.sum_append]
    simpa [Event.completes] using ih
  | panic _ _ hws hmon => rw [hws, hmon]; exact ih
  | @worker w a wk wk' hget ha hws hmon =>
    have hset := List.sum_map_set Worker.predCount wk' hget
    have hcount : wk'.predCount = wk.predCount + (Event.worker w a).completes.toNat := by
      rcases Worker.step_cases ha with ⟨rfl, -, -, rfl⟩ | ⟨rfl, -, -, rfl⟩ | ⟨rfl, -, rfl⟩ |
        ⟨rfl, -, rfl⟩ | ⟨rfl, -, rfl⟩ | ⟨rfl, -, rfl⟩ | ⟨rfl, -, rfl⟩ <;> rfl
    rw [hws, hmon]
    omega
  | @kill h w wk hget hsel hws hmon =>
    -- the worker keeps what it has not reported, for ever
    have hset := List.sum_map_set Worker.predCount wk.killed hget
    rw [hws, hmon]
    rw [Worker.killed_predCount] at hset
    have hno : (Event.kill h w).completes.toNat = 0 := rfl
    omega
  | @stat w wk st hget hst hsel hws hmon =>
    -- the batch moves from the worker to the monitor
    have hset := List.sum_map_set Worker.predCount wk.sent hget
    have hdone : st.nreqDone = wk.predCount := by rw [consistent ht hget st hst]
    have hidone : u.monitor.idone = t.monitor.idone + st.nreqDone := by rw [hmon]; rfl
    rw [hws, hidone]
    rw [Worker.sent_predCount] at hset
    have hno : (Event.stat w).completes.toNat = 0 := rfl
    omega
  | tick hsel hws hmon => rw [hws, hmon]; exact ih
  | report hr hws hmon => rw [hws, hmon]; exact ih

/-- The monitor has counted every completed prediction exactly when no worker completed
    one after the last `Stat` received from it. This is so in every state, and so it is
    once all workers have exited. -/
theorem idone_eq_completed_iff (h : Runs dir es s) :
    s.monitor.idone = completed es ↔ ∀ w < s.workers.length, unreported w es = 0 := by
  -- what the monitor has not seen is what the workers hold back, and no count is negative
  have hsum := idone_add_unreported h
  have hzero : s.monitor.idone = completed es ↔ (s.workers.map Worker.predCount).sum = 0 := by
    omega
  rw [hzero, List.sum_map_eq_zero]
  constructor
  · intro hall w hw
    have hget := List.getElem?_eq_getElem hw
    rw [← predCount_eq_unreported h hget]
    exact hall _ (List.getElem_mem hw)
  · intro hall wk hwk
    obtain ⟨w, hw, rfl⟩ := List.mem_iff_getElem.mp hwk
    rw [predCount_eq_unreported h (List.getElem?_eq_getElem hw)]
    exact hall w hw

/-- A worker that exits between two ticks takes its batch with it: one prediction is
    completed, all workers have exited, and the monitor has counted none. -/
theorem idone_loses_last_batch :
    ¬ ∀ dir es s, Runs dir es s → (∀ wk ∈ s.workers, wk.live = false) →
      s.monitor.idone = completed es := by
  -- the run has one prediction and ends before a tick
  intro hall
  obtain ⟨s, hs, hp⟩ := Machine.exists_run_of_map App.step (init "reports")
    (submit 0 (sampleForm [("0", "m")] "1" "1") "b" [0] ++ predicts 0 ++ [.worker 0 .finish])
    (fun s => s.workers.all (fun wk => !wk.live) && s.monitor.idone == 0) (by decide)
  simp only [Bool.and_eq_true, List.all_eq_true, Bool.not_eq_true', beq_iff_eq] at hp
  have hidone := hall _ _ s hs hp.1
  rw [hp.2] at hidone
  exact absurd hidone (by decide)

/-- A worker that reports before it exits loses nothing. -/
theorem idone_counts_reported_batch :
    ∃ s, Runs "reports" (submit 0 (sampleForm [("0", "m")] "2" "1") "b" [0] ++ predicts 0 ++
      reports 0 ++ [.worker 0 .finish]) s ∧ (∀ wk ∈ s.workers, wk.live = false) ∧
      s.monitor.idone = 1 := by
  -- the run is computed, and its only worker has nothing that is not reported
  obtain ⟨s, hs, hp⟩ := Machine.exists_run_of_map App.step (init "reports")
    (submit 0 (sampleForm [("0", "m")] "2" "1") "b" [0] ++ predicts 0 ++ reports 0 ++
      [.worker 0 .finish])
    (fun s => s.workers.all (fun wk => !wk.live) && s.workers.length == 1) (by decide)
  simp only [Bool.and_eq_true, List.all_eq_true, Bool.not_eq_true', beq_iff_eq] at hp
  refine ⟨s, hs, hp.1, (idone_eq_completed_iff hs).mpr fun w hw => ?_⟩
  obtain rfl : w = 0 := by omega
  decide

/-! ## Sent requests -/

/-- The pass of its loop that a worker has counted in `predSent` without having started a
    request in it. -/
def pass (wk : Worker) : Nat :=
  match wk.pc with
  | .select | .send _ => 1
  | _ => 0

/-- `predSent` counts every request that the worker started, and the current pass. -/
theorem started_le_predSent (h : Runs dir es s) {w : Nat} {wk : Worker}
    (hget : s.workers[w]? = some wk) : started w es + pass wk ≤ wk.predSent := by
  refine run_forall_worker_history (Q := fun w es wk => started w es + pass wk ≤ wk.predSent)
    ?_ ?_ ?_ ?_ ?_ h w wk hget
  -- the history of one worker, as before
  · intro w es wl _ hno
    simp [started_of_forall hno, pass]
  · intro w es e wk hne hwk
    rwa [started_frame es hne]
  · -- `begin` turns the pass into a request; the other steps keep the order
    intro w es a wk wk' hwk ha
    rw [started_concat]
    rcases Worker.step_cases ha with ⟨rfl, hpc, -, rfl⟩ | ⟨rfl, hpc, -, rfl⟩ |
      ⟨rfl, hpc, rfl⟩ | ⟨rfl, hpc, rfl⟩ | ⟨rfl, hpc, rfl⟩ | ⟨rfl, hpc, rfl⟩ |
      ⟨rfl, hpc, rfl⟩ <;>
      simp [pass, hpc, Event.isBegin] at hwk ⊢ <;> omega
  -- a kill takes the worker at the `select`, so its pass does not count any more
  · intro w es h wk hwk _
    rw [started_concat]
    simp only [pass, Worker.killed_pc, Event.isBegin, Bool.toNat_false]
    exact le_trans (by omega) hwk
  -- after the receipt the worker begins a new pass, as after a prediction
  · intro w es st wk hwk _
    rw [started_concat]
    simp only [pass, Worker.sent_pc, Worker.sent_predSent, Event.isBegin, Bool.toNat_false]
    exact le_trans (by omega) hwk

/-- A `Stat` under way counts at least one request more than the worker started. -/
theorem started_lt_nreqSent (h : Runs dir es s) {w : Nat} {wk : Worker} {st : Stat}
    (hget : s.workers[w]? = some wk) (hst : wk.pending = some st) :
    started w es < st.nreqSent := by
  have hle := started_le_predSent h hget
  have hpass : pass wk = 1 := by simp [pass, Worker.pending_eq_some.mp hst]
  rw [consistent h hget st hst]
  show started w es < wk.predSent
  omega

/-- Only the receipt of a `Stat` moves the point up to which requests are counted. -/
theorem startedAtStat_frame {e : Event} (he : e.delivers = false) (w : Nat)
    (es : List Event) : startedAtStat w (es ++ [e]) = startedAtStat w es := by
  have hno : e.isStat w = false := by
    cases e <;> first | rfl | exact nomatch he
  rw [startedAtStat_concat, hno]
  rfl

/-- The monitor's `isent` exceeds the requests started up to the last `Stat`s by at least
    one for each received `Stat`. -/
theorem sum_startedAtStat_le (h : Runs dir es s) :
    ∑ w ∈ Finset.range s.workers.length, startedAtStat w es + es.countP Event.delivers ≤
      s.monitor.isent := by
  refine Machine.run_history (P := fun es s =>
    ∑ w ∈ Finset.range s.workers.length, startedAtStat w es + es.countP Event.delivers ≤
      s.monitor.isent) (by simp [init]) ?_ h
  intro es t e u ht ih he
  -- what a step that receives no `Stat` and launches no worker leaves unchanged
  have hquiet : e.delivers = false → u.workers.length = t.workers.length →
      u.monitor.isent = t.monitor.isent →
      ∑ w ∈ Finset.range u.workers.length, startedAtStat w (es ++ [e]) +
        (es ++ [e]).countP Event.delivers ≤ u.monitor.isent := by
    intro hno hlen hisent
    simp only [hlen, hisent, startedAtStat_frame hno, List.countP_append,
      List.countP_singleton, hno, Bool.false_eq_true, if_false, Nat.add_zero]
    exact ih
  -- only a launch adds a term to the sum, and only a `Stat` changes one
  cases coreMove_of_step he with
  | other hcore hws hmon =>
    exact hquiet (Event.delivers_of_core hcore) (by rw [hws]) (by rw [hmon])
  | launch h r wl hdt hid hws hmon =>
    -- the new worker has taken part in no event
    have hnew : startedAtStat t.workers.length es = 0 :=
      startedAtStat_of_forall fun f hf hfw =>
        absurd (lt_length_of_event ht f hf _ hfw) (lt_irrefl _)
    have hno : (Event.launch h r).delivers = false := rfl
    rw [hws, hmon, List.length_append, List.length_singleton, Finset.sum_range_succ,
      startedAtStat_frame hno, hnew, List.countP_append, List.countP_singleton]
    simpa [startedAtStat_frame hno, hno] using ih
  | panic _ _ hws hmon => exact hquiet rfl (by rw [hws]) (by rw [hmon])
  | worker hget ha hws hmon => exact hquiet rfl (by simp [hws]) (by rw [hmon])
  | kill hget hsel hws hmon => exact hquiet rfl (by simp [hws]) (by rw [hmon])
  | tick hsel hws hmon => exact hquiet rfl (by rw [hws]) (by rw [hmon]; rfl)
  | report hr hws hmon => exact hquiet rfl (by rw [hws]) (by rw [hmon]; rfl)
  | @stat w wk st hget hst hsel hws hmon =>
    -- `isent` grows by more than the requests started so far, and only one term changes
    have hsent := started_lt_nreqSent ht hget hst
    have hisent : u.monitor.isent = t.monitor.isent + st.nreqSent := by rw [hmon]; rfl
    have hself : startedAtStat w (es ++ [.stat w]) = started w es := by
      simp [startedAtStat_concat, started_concat, Event.isStat, Event.isBegin]
    have hoff : ∀ v ∈ Finset.range t.workers.length, v ≠ w →
        startedAtStat v (es ++ [.stat w]) = startedAtStat v es := by
      intro v _ hvw
      simp [startedAtStat_concat, Event.isStat, Ne.symm hvw]
    have hsum := Finset.sum_le_sum_add_of_eq_off (Finset.range t.workers.length) w hoff
    have hcount : (es ++ [Event.stat w]).countP Event.delivers =
        es.countP Event.delivers + 1 := by
      simp [List.countP_append, Event.delivers]
    rw [hws, List.length_set, hisent, hcount]
    omega

/-- A monitor that has received no `Stat` has counted nothing. -/
theorem isent_eq_zero (h : Runs dir es s) (hno : ∀ e ∈ es, e.delivers = false) :
    s.monitor.isent = 0 := by
  refine Machine.run_history (P := fun es s => (∀ e ∈ es, e.delivers = false) →
    s.monitor.isent = 0) (fun _ => rfl) ?_ h hno
  -- by the events so far: none of them is the receipt of a `Stat`, which alone adds to `isent`
  intro es t e u _ ih he hno
  have ht := ih fun f hf => hno f (List.mem_append_left _ hf)
  cases coreMove_of_step he with
  | @stat w wk st hget hst hsel hws hmon =>
    exact nomatch hno (.stat w) (List.mem_append_right _ (List.mem_singleton_self _))
  | other _ hws hmon | launch _ _ _ hdt hid hws hmon | panic _ _ hws hmon
  | worker hget ha hws hmon | kill hget hsel hws hmon => rw [hmon, ht]
  | tick hsel hws hmon | report hr hws hmon => rw [hmon]; exact ht

/-- The `requestSent` of a `Report` is the number of requests that each worker had started
    when the monitor last received a `Stat` of it exactly when no `Stat` has been received. -/
theorem requestSent_eq_started_iff (h : Runs dir es s) {r : Report}
    (hr : s.monitor.reporting = some r) :
    r.requestSent = ∑ w ∈ Finset.range s.workers.length, startedAtStat w es ↔
      ∀ w, Event.stat w ∉ es := by
  have hle := sum_startedAtStat_le h
  have hisent : r.requestSent = s.monitor.isent := by rw [eq_makeReport h hr]; rfl
  rw [hisent]
  constructor
  · intro heq w hw
    have hpos : 0 < es.countP Event.delivers := List.countP_pos_iff.mpr ⟨_, hw, rfl⟩
    omega
  · intro hno
    -- nothing received: both sides are zero
    have hstats : ∀ e ∈ es, e.delivers = false := by
      intro e he
      cases e with
      | stat w => exact absurd he (hno w)
      | _ => rfl
    have hzero := isent_eq_zero h hstats
    rw [hzero] at hle ⊢
    omega

/-- The first `Stat` of a worker that has started one request reports two. -/
theorem requestSent_counts_passes :
    ¬ ∀ dir es s r, Runs dir es s → s.monitor.reporting = some r →
      r.requestSent = ∑ w ∈ Finset.range s.workers.length, startedAtStat w es := by
  intro hall
  obtain ⟨s, hs, hp⟩ := Machine.exists_run_of_map App.step (init "reports")
    (submit 0 (sampleForm [("0", "m")] "5" "1") "b" [0] ++ predicts 0 ++ reports 0 ++
      [.monitorTick])
    (fun s => s.workers.length == 1 && (s.monitor.reporting.map (·.requestSent)) == some 2)
    (by decide)
  simp only [Bool.and_eq_true, beq_iff_eq, Option.map_eq_some_iff] at hp
  obtain ⟨hlen, r, hr, hsent⟩ := hp
  -- one request has been started, but the second pass has begun when the worker reports
  have heq := hall _ _ s r hs hr
  rw [hlen, hsent] at heq
  exact absurd heq (by decide)

/-- Before the first `Stat` the counts agree: no request is reported. -/
theorem requestSent_before_first_stat :
    ∃ s r, Runs "reports" (submit 0 (sampleForm [("0", "m")] "5" "1") "b" [0] ++
      predicts 0 ++ [.monitorTick]) s ∧ s.monitor.reporting = some r ∧
      r.requestSent = ∑ w ∈ Finset.range s.workers.length, startedAtStat w
        (submit 0 (sampleForm [("0", "m")] "5" "1") "b" [0] ++ predicts 0 ++
          [.monitorTick]) := by
  -- the run is computed; nobody has sent a `Stat` in it
  obtain ⟨s, hs, hp⟩ := Machine.exists_run_of_map App.step (init "reports")
    (submit 0 (sampleForm [("0", "m")] "5" "1") "b" [0] ++ predicts 0 ++ [.monitorTick])
    (fun s => s.monitor.reporting.isSome) (by decide)
  obtain ⟨r, hr⟩ := Option.isSome_iff_exists.mp hp
  refine ⟨s, r, hs, hr, (requestSent_eq_started_iff hs hr).mpr ?_⟩
  simp [submit, predicts]

end App

end WorkloadSimulator
