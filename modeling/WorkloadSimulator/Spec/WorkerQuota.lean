import WorkloadSimulator.Spec.RequestAccounting

/-!
# The quota of a worker

A worker is given `nrequests` requests to make. Its loop counts the passes around the
`select`, and a pass in which the ticker has fired makes no request.

## Key results

- `quota_of_run`: the requests and the ticks of a worker are the passes of its loop
- `started_eq_nrequests_iff`: an undisturbed worker makes its whole quota exactly when its
  ticker fires at none of its `select`s
-/

namespace WorkloadSimulator

/-- Whether the worker `w` takes the branch of its ticker. -/
def Event.isWorkerTick (w : Nat) : Event → Bool
  | .worker v .tick => v == w
  | _ => false

/-- An event of another worker is no tick of this one. -/
theorem Event.isWorkerTick_of_worker?_ne {w : Nat} {e : Event} (h : e.worker? ≠ some w) :
    e.isWorkerTick w = false := by
  unfold isWorkerTick
  split <;> simp_all [worker?]

/-- The pass of its loop that a worker has spent on a request or on its ticker, but not
    counted in `i` yet. -/
def Worker.spent (wk : Worker) : Nat :=
  match wk.pc with
  | .predict | .send _ => 1
  | _ => 0

namespace App

variable {dir : String} {es : List Event} {s : App}

/-- How often the ticker of the worker `w` has fired at its `select`. -/
def ticked (w : Nat) (es : List Event) : Nat := es.countP (Event.isWorkerTick w)

theorem ticked_concat (w : Nat) (es : List Event) (e : Event) :
    ticked w (es ++ [e]) = ticked w es + (e.isWorkerTick w).toNat := by
  cases h : e.isWorkerTick w <;> simp [ticked, List.countP_append, h]

/-- No tick has been counted when there is none. -/
theorem ticked_eq_zero_iff {w : Nat} : ticked w es = 0 ↔ .worker w .tick ∉ es := by
  rw [ticked, List.countP_eq_zero]
  constructor
  · intro h hmem
    simpa [Event.isWorkerTick] using h _ hmem
  · rintro h e he htick
    unfold Event.isWorkerTick at htick
    split at htick
    · obtain rfl := beq_iff_eq.mp htick
      exact h he
    · cases htick

/-- The worker `w` receives no kill, and its predictions all succeed. -/
def Undisturbed (w : Nat) (es : List Event) : Prop :=
  (∀ h, .kill h w ∉ es) ∧ ∀ r, .worker w (.predict r) ∈ es → r = .ok

theorem Undisturbed.of_append {w : Nat} {es' : List Event} (h : Undisturbed w (es ++ es')) :
    Undisturbed w es :=
  ⟨fun k hk => h.1 k (List.mem_append_left _ hk), fun r hr => h.2 r (List.mem_append_left _ hr)⟩

/-- The account of a worker: its passes so far are requests and ticks, it makes no more
    passes than it was given, and when it has returned it has made them all. -/
structure Quota (w : Nat) (es : List Event) (wk : Worker) : Prop where
  passes : started w es + ticked w es = wk.i + wk.spent
  le : 0 ≤ wk.w.nrequests → (wk.i + wk.spent : Int) ≤ wk.w.nrequests
  lt : wk.selecting = true → (wk.i : Int) < wk.w.nrequests
  ge : wk.live = false → wk.w.nrequests ≤ wk.i ∧ wk.spent = 0

/-- A new worker has made no pass. -/
theorem quota_spawn {w : Nat} (wl : Workload) (hes : ∀ e ∈ es, e.worker? ≠ some w) :
    Quota w es (Worker.spawn wl) where
  passes := by
    have hticked : ticked w es = 0 :=
      List.countP_eq_zero.mpr fun e he => by simp [Event.isWorkerTick_of_worker?_ne (hes e he)]
    rw [started_of_forall hes, hticked]
    rfl
  le h := h
  lt h := by cases h
  ge h := by cases h

/-- An event of another goroutine keeps the account. -/
theorem Quota.frame {w : Nat} {wk : Worker} (h : Quota w es wk) {e : Event}
    (he : e.worker? ≠ some w) : Quota w (es ++ [e]) wk where
  passes := by
    rw [started_frame es he, ticked_concat, Event.isWorkerTick_of_worker?_ne he]
    exact h.passes
  le := h.le
  lt := h.lt
  ge := h.ge

/-- A step of an undisturbed worker keeps the account. -/
theorem Quota.step {w : Nat} {a : WorkerStep} {wk wk' : Worker} (h : Quota w es wk)
    (ha : wk.step a = some wk') (hok : ∀ r, a = .predict r → r = .ok) :
    Quota w (es ++ [.worker w a]) wk' := by
  obtain ⟨hpasses, hle, hlt, -⟩ := h
  rcases Worker.step_cases ha with ⟨rfl, hpc, hi, rfl⟩ | ⟨rfl, hpc, hi, rfl⟩ | ⟨rfl, hpc, rfl⟩ |
    ⟨rfl, hpc, rfl⟩ | ⟨rfl, hpc, rfl⟩ | ⟨rfl, -, -⟩ | ⟨rfl, -, -⟩
  case inr.inr.inr.inr.inr.inl => cases hok _ rfl
  case inr.inr.inr.inr.inr.inr => cases hok _ rfl
  -- a request and a tick are spent in their pass, and counted in `i` at its end
  all_goals
    simp only [Worker.spent, Worker.selecting, hpc, forall_const] at hpasses hle hlt
    refine ⟨?_, ?_, ?_, ?_⟩ <;>
      simp [started_concat, ticked_concat, Event.isBegin, Event.isWorkerTick, Worker.spent,
        Worker.selecting, Worker.live] <;> omega

/-- When the monitor has received the `Stat` of a worker, its pass is over. -/
theorem Quota.sent {w : Nat} {wk : Worker} {st : Stat} (h : Quota w es wk)
    (hst : wk.pending = some st) : Quota w (es ++ [.stat w]) wk.sent := by
  obtain ⟨hpasses, hle, -, -⟩ := h
  have hpc := Worker.pending_eq_some.mp hst
  simp only [Worker.spent, hpc] at hpasses hle
  refine ⟨?_, ?_, fun h => (by cases h), fun h => (by cases h)⟩
  · simpa [started_concat, ticked_concat, Event.isBegin, Event.isWorkerTick, Worker.spent,
      Worker.sent] using hpasses
  · simpa [Worker.spent, Worker.sent] using hle

/-- The requests and the ticks of an undisturbed worker are the passes of its loop. -/
theorem quota_of_run (h : Runs dir es s) {w : Nat} {wk : Worker}
    (hget : s.workers[w]? = some wk) (hun : Undisturbed w es) : Quota w es wk := by
  refine run_forall_worker_history (Q := fun w es wk => Undisturbed w es → Quota w es wk)
    ?_ ?_ ?_ ?_ ?_ h w wk hget hun
  -- each way in which a worker can change has its lemma
  · exact fun w es wl _ hes _ => quota_spawn wl hes
  · exact fun w es e wk he ih hun => (ih hun.of_append).frame he
  · intro w es a wk wk' ih ha hun
    refine (ih hun.of_append).step ha fun r hr => hun.2 r ?_
    simp [hr]
  · intro w es h wk _ _ hun
    exact absurd (by simp) (hun.1 h)
  · exact fun w es st wk ih hst hun => (ih hun.of_append).sent hst

/-- A worker that is not killed and whose predictions all succeed has made its whole quota of
    requests when it returns, exactly when its ticker has not fired at its `select`. -/
theorem started_eq_nrequests_iff (h : Runs dir es s) {w : Nat} {wk : Worker}
    (hget : s.workers[w]? = some wk) (hexit : wk.live = false) (hn : 0 ≤ wk.w.nrequests)
    (hun : Undisturbed w es) :
    (started w es : Int) = wk.w.nrequests ↔ .worker w .tick ∉ es := by
  -- the passes are the requests and the ticks together
  obtain ⟨hpasses, hle, -, hge⟩ := quota_of_run h hget hun
  obtain ⟨hge, hspent⟩ := hge hexit
  have hle := hle hn
  rw [← ticked_eq_zero_iff]
  omega

/-- A ticker that fires once in a quota of two: one request is made. -/
theorem quota_loses_tick :
    ¬ ∀ dir es s w wk, Runs dir es s → s.workers[w]? = some wk → wk.live = false →
      0 ≤ wk.w.nrequests → Undisturbed w es → (started w es : Int) = wk.w.nrequests := by
  intro hall
  obtain ⟨s, hs, hp⟩ := Machine.exists_run_of_map App.step (init "reports")
    (submit 0 (sampleForm [("0", "m")] "2" "1") "b" [0] ++ predicts 0 ++ reports 0 ++
      ([.worker 0 .finish] : List Event))
    (fun s => (s.workers[0]?).any fun wk => !wk.live && wk.w.nrequests == 2) (by decide)
  obtain ⟨wk, hget, hwk⟩ := (Option.any_eq_true _ _).mp hp
  simp only [Bool.and_eq_true, Bool.not_eq_true', beq_iff_eq] at hwk
  -- the pass of the tick is counted, and starts no request
  have hquota := hall _ _ s 0 wk hs hget hwk.1 (by omega)
    (by simp [Undisturbed, submit, predicts, reports])
  rw [hwk.2] at hquota
  exact absurd hquota (by decide)

/-- Two requests without a tick. -/
theorem quota_without_tick :
    ∃ s wk, Runs "reports" (submit 0 (sampleForm [("0", "m")] "2" "1") "b" [0] ++ predicts 0 ++
        predicts 0 ++ [.worker 0 .finish]) s ∧ s.workers[0]? = some wk ∧
      ((started 0 (submit 0 (sampleForm [("0", "m")] "2" "1") "b" [0] ++ predicts 0 ++
        predicts 0 ++ [.worker 0 .finish]) : Nat) : Int) = wk.w.nrequests := by
  obtain ⟨s, hs, hp⟩ := Machine.exists_run_of_map App.step (init "reports")
    (submit 0 (sampleForm [("0", "m")] "2" "1") "b" [0] ++ predicts 0 ++ predicts 0 ++
      ([.worker 0 .finish] : List Event))
    (fun s => (s.workers[0]?).any fun wk => !wk.live && wk.w.nrequests == 2) (by decide)
  -- the worker has returned, with two passes to make
  obtain ⟨wk, hget, hwk⟩ := (Option.any_eq_true _ _).mp hp
  simp only [Bool.and_eq_true, Bool.not_eq_true', beq_iff_eq] at hwk
  exact ⟨s, wk, hs, hget, (started_eq_nrequests_iff hs hget hwk.1 (by omega)
    (by simp [Undisturbed, submit, predicts])).mpr
    (by simp [submit, predicts])⟩

end App

end WorkloadSimulator
