import WorkloadSimulator.Spec.AppStep
import WorkloadSimulator.Spec.StatsMonitorCorrect

/-!
# Runs of the app

The rules by which facts about one worker, and about the monitor, are lifted to every run
of the app, and what they give for the data that the goroutines exchange.

## Key results

- `run_forall_worker`: what spawning and every step of a worker keep holds of all workers
- `run_forall_worker_history`: the same for what the events so far say about a worker
- `Worker.Consistent`: a `Stat` under way holds the worker's own counters
- `delivered_eq_after`: the monitor is determined by the `Stat`s it has received
- `reporting_eq_after`: so is a `Report` under way, since the monitor receives nothing
  before it is collected
-/

namespace WorkloadSimulator

/-- The worker that takes part in an event. -/
def Event.worker? : Event → Option Nat
  | .worker w _ => some w
  | .kill _ w => some w
  | .stat w => some w
  | _ => none

/-- A worker takes part in core events only. -/
theorem Event.worker?_of_core {e : Event} (h : e.core = false) : e.worker? = none := by
  cases e <;> first | rfl | exact nomatch h

namespace App

/-- `es` is a run of the process that reaches `s`. -/
abbrev Runs (dir : String) (es : List Event) (s : App) : Prop :=
  Machine.run App.step (init dir) es = some s

variable {dir : String} {es : List Event} {s : App}

/-! ## Workers -/

/-- Only a worker that has been launched takes part in events. -/
theorem lt_length_of_event (h : Runs dir es s) :
    ∀ e ∈ es, ∀ w, e.worker? = some w → w < s.workers.length := by
  refine Machine.run_history (P := fun es s => ∀ e ∈ es, ∀ w, e.worker? = some w →
    w < s.workers.length) (by simp) ?_ h
  intro es t e u _ ih hstep f hf w hw
  rw [List.mem_append, List.mem_singleton] at hf
  -- an earlier event (the list of workers only grows), or the last one
  have hlen : ∀ w wk, t.workers[w]? = some wk → w < t.workers.length :=
    fun w wk hget => (List.getElem?_eq_some_iff.mp hget).1
  cases coreMove_of_step hstep with
  | other he hws hmon =>
    rcases hf with hf | rfl
    · exact hws ▸ ih f hf w hw
    · rw [Event.worker?_of_core he] at hw
      exact nomatch hw
  | launch h r wl hdt hid hws hmon =>
    rcases hf with hf | rfl
    · rw [hws, List.length_append]
      exact Nat.lt_add_right _ (ih f hf w hw)
    · simp [Event.worker?] at hw
  | panic h r hws hmon =>
    rcases hf with hf | rfl
    · exact hws ▸ ih f hf w hw
    · simp [Event.worker?] at hw
  | worker hget ha hws hmon | kill hget hsel hws hmon | stat hget hst hsel hws hmon =>
    rw [hws, List.length_set]
    rcases hf with hf | rfl
    · exact ih f hf w hw
    · obtain rfl := Option.some.inj hw
      exact hlen _ _ hget
  | tick hsel hws hmon | report hr hws hmon =>
    rcases hf with hf | rfl
    · exact hws ▸ ih f hf w hw
    · simp [Event.worker?] at hw

/-- What the events so far say about a worker: it holds of a worker that has just been
    spawned, an event of another goroutine keeps it, and so does each of its own. -/
theorem run_forall_worker_history {Q : Nat → List Event → Worker → Prop}
    (hspawn : ∀ w es wl, wl.dt = 500 → (∀ e ∈ es, e.worker? ≠ some w) → Q w es (Worker.spawn wl))
    (hframe : ∀ w es e wk, e.worker? ≠ some w → Q w es wk → Q w (es ++ [e]) wk)
    (hstep : ∀ w es a wk wk', Q w es wk → wk.step a = some wk' →
      Q w (es ++ [.worker w a]) wk')
    (hkill : ∀ w es h wk, Q w es wk → wk.selecting = true → Q w (es ++ [.kill h w]) wk.killed)
    (hstat : ∀ w es st wk, Q w es wk → wk.pending = some st → Q w (es ++ [.stat w]) wk.sent)
    (h : Runs dir es s) : ∀ w wk, s.workers[w]? = some wk → Q w es wk := by
  refine Machine.run_history (P := fun es s => ∀ w wk, s.workers[w]? = some wk → Q w es wk)
    (by simp [init]) ?_ h
  intro es t e u ht ih he w wk hget
  -- an event in which no worker takes part
  have hnone : e.worker? = none → t.workers[w]? = some wk → Q w (es ++ [e]) wk :=
    fun hno hold => hframe w es e wk (by simp [hno]) (ih w wk hold)
  cases coreMove_of_step he with
  | other hcore hws hmon => exact hnone (Event.worker?_of_core hcore) (hws ▸ hget)
  | launch h' r wl hdt hid hws hmon =>
    rcases List.getElem?_concat_eq_some (hws ▸ hget) with hold | ⟨rfl, rfl⟩
    · exact hnone rfl hold
    · -- the worker's index was free, so no event has named it
      refine hframe _ es _ _ (by simp [Event.worker?]) (hspawn _ es wl hdt ?_)
      intro f hf hfw
      exact absurd (lt_length_of_event ht f hf _ hfw) (lt_irrefl _)
  | panic h' r hws hmon => exact hnone rfl (hws ▸ hget)
  | @worker v a wk₀ wk' hold ha hws hmon =>
    rcases List.getElem?_set_eq_some (hws ▸ hget) with ⟨rfl, rfl⟩ | ⟨hne, hold'⟩
    · exact hstep v es a wk₀ _ (ih v wk₀ hold) ha
    · exact hframe w es _ wk (by simpa [Event.worker?] using hne) (ih w wk hold')
  | @kill h' v wk₀ hold hsel hws hmon =>
    rcases List.getElem?_set_eq_some (hws ▸ hget) with ⟨rfl, rfl⟩ | ⟨hne, hold'⟩
    · exact hkill v es h' wk₀ (ih v wk₀ hold) hsel
    · exact hframe w es _ wk (by simpa [Event.worker?] using hne) (ih w wk hold')
  | @stat v wk₀ st hold hst hsel hws hmon =>
    rcases List.getElem?_set_eq_some (hws ▸ hget) with ⟨rfl, rfl⟩ | ⟨hne, hold'⟩
    · exact hstat v es st wk₀ (ih v wk₀ hold) hst
    · exact hframe w es _ wk (by simpa [Event.worker?] using hne) (ih w wk hold')
  | tick hsel hws hmon | report hr hws hmon => exact hnone rfl (hws ▸ hget)

/-- What spawning gives and every step of a worker keeps holds of all workers. -/
theorem run_forall_worker {P : Worker → Prop}
    (hspawn : ∀ wl, wl.dt = 500 → P (Worker.spawn wl))
    (hstep : ∀ a wk wk', P wk → wk.step a = some wk' → P wk')
    (hkill : ∀ wk, P wk → wk.selecting = true → P wk.killed)
    (hstat : ∀ st wk, P wk → wk.pending = some st → P wk.sent)
    (h : Runs dir es s) : ∀ (w : Nat) wk, s.workers[w]? = some wk → P wk :=
  -- the history is not looked at
  run_forall_worker_history (Q := fun _ _ wk => P wk) (fun _ _ wl hdt _ => hspawn wl hdt)
    (fun _ _ _ _ _ hQ => hQ) (fun _ _ a wk wk' hQ ha => hstep a wk wk' hQ ha)
    (fun _ _ _ wk hQ hsel => hkill wk hQ hsel) (fun _ _ st wk hQ hst => hstat st wk hQ hst) h

end App

/-- A `Stat` under way is made of the worker's own workload and counters. -/
def Worker.Consistent (wk : Worker) : Prop :=
  ∀ st, wk.pending = some st → st = ⟨wk.w, wk.predSent, wk.predCount⟩

namespace App

variable {dir : String} {es : List Event} {s : App}

/-- Every worker of a run is consistent. -/
theorem consistent (h : Runs dir es s) {w : Nat} {wk : Worker}
    (hget : s.workers[w]? = some wk) : wk.Consistent := by
  refine run_forall_worker (P := Worker.Consistent) ?_ ?_ ?_ ?_ h w wk hget
  · intro wl _ st hst
    simp [Worker.pending] at hst
  · intro a wk wk' hwk ha st hst
    rcases Worker.step_cases ha with ⟨-, -, -, rfl⟩ | ⟨-, -, -, rfl⟩ | ⟨-, -, rfl⟩ |
      ⟨-, -, rfl⟩ | ⟨-, -, rfl⟩ | ⟨-, -, rfl⟩ | ⟨-, -, rfl⟩
    -- the tick builds the `Stat`; a fatal prediction leaves the worker as it is
    case inr.inr.inl => simpa [Worker.pending] using hst.symm
    case inr.inr.inr.inr.inr.inr => exact hwk st hst
    all_goals simp [Worker.pending] at hst
  · intro wk _ _ st hst
    simp [Worker.pending] at hst
  · intro _ wk _ _ st hst
    simp [Worker.pending] at hst

/-- Every worker reports twice a second. -/
theorem workload_dt (h : Runs dir es s) {w : Nat} {wk : Worker}
    (hget : s.workers[w]? = some wk) : wk.w.dt = 500 :=
  run_forall_worker (P := fun wk => wk.w.dt = 500) (fun _ hdt => hdt)
    (fun _ _ _ hwk ha => Worker.step_w ha ▸ hwk) (fun _ hwk _ => hwk) (fun _ _ hwk _ => hwk)
    h w wk hget

/-! ## The monitor -/

/-- What a step gives the monitor: the `Stat` of a worker. -/
def received (s : App) : Event → List (Nat × Stat)
  | .stat w => (((s.workers[w]?).bind Worker.pending).map (w, ·)).toList
  | _ => []

/-- The `Stat`s that the monitor receives in a run, each with the worker that sent it. -/
def stats (dir : String) (es : List Event) : List (Nat × Stat) :=
  Machine.emits App.step received (init dir) es

theorem stats_nil : stats dir [] = [] := rfl

/-- A received `Stat` is appended; the other steps add nothing. -/
theorem stats_concat (h : Runs dir es s) (e : Event) :
    stats dir (es ++ [e]) = stats dir es ++ s.received e :=
  Machine.emits_concat received e h

/-- The monitor receives what the worker has pending. -/
theorem received_stat {w : Nat} {wk : Worker} {st : Stat} (hget : s.workers[w]? = some wk)
    (hst : wk.pending = some st) : s.received (.stat w) = [(w, st)] := by
  simp [received, hget, hst]

/-- The monitor receives something in core events only. -/
theorem received_of_core {e : Event} (h : e.core = false) : s.received e = [] := by
  cases e <;> first | rfl | exact nomatch h

theorem received_of_ne {e : Event} (h : ∀ w, e ≠ .stat w) : s.received e = [] := by
  cases e <;> simp_all [received]

/-- What holds of every `Stat` that a worker can send holds of all that are received. -/
theorem forall_mem_stats {P : Nat → Stat → Prop}
    (hP : ∀ es s w wk st, Runs dir es s → s.workers[w]? = some wk → wk.pending = some st →
      P w st) (h : Runs dir es s) : ∀ x ∈ stats dir es, P x.1 x.2 := by
  refine Machine.run_history (P := fun es _ => ∀ x ∈ stats dir es, P x.1 x.2)
    (by simp [stats_nil]) ?_ h
  intro es t e u ht ih he x hx
  rw [stats_concat ht e, List.mem_append] at hx
  -- a `Stat` received before, or the one of the last event
  rcases hx with hx | hx
  · exact ih x hx
  · cases coreMove_of_step he with
    | @stat w wk st hget hst hsel hws hmon =>
      rw [received_stat hget hst, List.mem_singleton] at hx
      subst hx
      exact hP es t w wk st ht hget hst
    | other hcore hws hmon =>
      rw [received_of_core hcore] at hx
      exact absurd hx List.not_mem_nil
    | _ => simp [received] at hx

/-- A worker that has sent a `Stat` is there, with the workload of the `Stat`. -/
theorem exists_worker_of_mem_stats (h : Runs dir es s) :
    ∀ x ∈ stats dir es, ∃ wk, s.workers[x.1]? = some wk ∧ x.2.workload = wk.w := by
  refine Machine.run_history (P := fun es s => ∀ x ∈ stats dir es, ∃ wk,
    s.workers[x.1]? = some wk ∧ x.2.workload = wk.w) (by simp [stats_nil]) ?_ h
  intro es t e u ht ih he x hx
  rw [stats_concat ht e, List.mem_append] at hx
  -- a worker keeps its place and its workload
  have hset : ∀ {v : Nat} {wk wk' : Worker}, t.workers[v]? = some wk → wk'.w = wk.w →
      u.workers = t.workers.set v wk' → x ∈ stats dir es →
      ∃ wk, u.workers[x.1]? = some wk ∧ x.2.workload = wk.w := by
    intro v wk wk' hget hw hws hx
    obtain ⟨wkx, hgetx, hwx⟩ := ih x hx
    by_cases hv : v = x.1
    · subst hv
      obtain rfl := Option.some.inj (hget.symm.trans hgetx)
      exact ⟨wk', by rw [hws, List.getElem?_set_of_some _ hget], by rw [hwx, hw]⟩
    · exact ⟨wkx, by rw [hws, List.getElem?_set_of_ne _ hv, hgetx], hwx⟩
  cases coreMove_of_step he with
  | other hcore hws hmon =>
    rw [received_of_core hcore, or_iff_left List.not_mem_nil] at hx
    exact hws ▸ ih x hx
  | launch h r wl hdt hid hws hmon =>
    obtain ⟨wk, hget, hw⟩ := ih x (hx.resolve_right (by simp [received]))
    have hlt := (List.getElem?_eq_some_iff.mp hget).1
    exact ⟨wk, by rw [hws, List.getElem?_append_left hlt, hget], hw⟩
  | worker hget ha hws hmon =>
    exact hset hget (Worker.step_w ha) hws (hx.resolve_right (by simp [received]))
  | kill hget hsel hws hmon =>
    exact hset hget (Worker.killed_w _) hws (hx.resolve_right (by simp [received]))
  | @stat w wk st hget hst hsel hws hmon =>
    rcases hx with hx | hx
    · exact hset hget (Worker.sent_w _) hws hx
    · rw [received_stat hget hst, List.mem_singleton] at hx
      subst hx
      refine ⟨wk.sent, by rw [hws, List.getElem?_set_of_some _ hget], ?_⟩
      rw [consistent ht hget st hst, Worker.sent_w]
  | panic _ _ hws hmon | tick hsel hws hmon | report hr hws hmon =>
    exact hws ▸ ih x (hx.resolve_right (by simp [received]))

/-- The `Stat`s that the monitor receives in a run, without their senders. -/
def statList (dir : String) (es : List Event) : List Stat := (stats dir es).map Prod.snd

theorem mem_statList {st : Stat} : st ∈ statList dir es ↔ ∃ w, (w, st) ∈ stats dir es := by
  simp [statList]

/-- The monitor, but for its program point, is determined by the received `Stat`s. -/
theorem delivered_eq_after (h : Runs dir es s) :
    s.monitor.delivered = .after (statList dir es) := by
  refine Machine.run_history (P := fun es s =>
    s.monitor.delivered = .after (statList dir es)) rfl ?_ h
  intro es t e u ht ih he
  rw [statList, stats_concat ht e, List.map_append, ← statList]
  cases coreMove_of_step he with
  | other hcore hws hmon =>
    rw [received_of_core hcore, List.map_nil, List.append_nil, hmon, ih]
  | @stat w wk st hget hst hsel hws hmon =>
    rw [received_stat hget hst, List.map_singleton, StatsMonitor.after_concat, ← ih, hmon]
    rfl
  | tick hsel hws hmon | report hr hws hmon =>
    -- only the program point changes
    rw [received_of_ne (by simp), List.map_nil, List.append_nil, hmon, ← ih]
    rfl
  | launch _ _ _ hdt hid hws hmon | panic _ _ hws hmon | worker hget ha hws hmon
  | kill hget hsel hws hmon =>
    rw [received_of_ne (by simp), List.map_nil, List.append_nil, hmon, ih]

/-- The monitor receives nothing while a `Report` is under way, so the `Report` is the one
    it would make now. -/
theorem eq_makeReport (h : Runs dir es s) {r : Report}
    (hr : s.monitor.reporting = some r) : r = s.monitor.makeReport := by
  refine Machine.run_invariant (P := fun s => ∀ r, s.monitor.reporting = some r →
    r = s.monitor.makeReport) (by simp [init]) ?_ h r hr
  intro t e u ih he r hr
  cases coreMove_of_step he with
  | stat hget hst hsel hws hmon =>
    -- the monitor is at its `select`
    rw [hmon, StatsMonitor.receive_reporting, StatsMonitor.reporting_eq_none.mpr hsel] at hr
    exact nomatch hr
  | tick hsel hws hmon =>
    rw [hmon] at hr ⊢
    exact (Option.some.inj hr).symm
  | report hr' hws hmon =>
    rw [hmon] at hr
    exact nomatch hr
  | other _ hws hmon | launch _ _ _ hdt hid hws hmon | panic _ _ hws hmon
  | worker hget ha hws hmon | kill hget hsel hws hmon =>
    rw [hmon] at hr ⊢
    exact ih r hr

/-- The `Report` under way is a function of the received `Stat`s. -/
theorem reporting_eq_after (h : Runs dir es s) {r : Report}
    (hr : s.monitor.reporting = some r) :
    r = (StatsMonitor.after (statList dir es)).makeReport := by
  rw [eq_makeReport h hr, ← delivered_eq_after h, StatsMonitor.delivered_makeReport]

/-! ## Concrete requests

What the concrete runs of this development are made of. -/

/-- A `/workload` request with one widget for each pair of a key and a model name, each
    asking for `qps` requests. -/
def sampleForm (models : List (String × String)) (qps workers : String) : Request :=
  .workload
    { post := true
      workload := ⟨models.map fun x => (x.1, ⟨⟨⟨x.2, ∅⟩, false⟩, qps⟩), false⟩
      settings := ⟨⟨"http://ops", "key", "user", 10, workers⟩, false⟩ }

/-- The events of the `h`-th request, a `/workload` for the batch `b` with these draws. -/
def submit (h : Nat) (req : Request) (b : String) (draws : List Nat) : List Event :=
  [.request req, .openReport h b true, .readWorkers h] ++ draws.map (.launch h) ++
    [.respond h]

/-- The events of one successful prediction of the worker `w`. -/
def predicts (w : Nat) : List Event :=
  [.worker w .iterate, .worker w .begin, .worker w (.predict .ok)]

/-- The events by which the worker `w` reports to the monitor. -/
def reports (w : Nat) : List Event :=
  [.worker w .iterate, .worker w .tick, .stat w]

end App

end WorkloadSimulator
