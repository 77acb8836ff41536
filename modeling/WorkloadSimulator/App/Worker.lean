import WorkloadSimulator.App.Types

/-!
# The worker goroutine

`app/worker.go`. A worker makes `nrequests` passes of a loop around a `select` with three
branches: its ticker (send the statistics, reset the request counter), a kill (return)
and `default` (make a prediction). The ticker may have fired at any time, and a handler
that has kills to send may not have reached its send yet, so each of the branches is
open to a worker at the `select`; a kill takes a handler as well and is a step of the
whole app.

The counters are `int`s in the source and naturals here, without the overflow at `2 ^ 63`
passes.
-/

namespace WorkloadSimulator

/-- How a call of `Predict` ends: it returns no error or an error, or `log.Fatal` in
    `opsPredictHTTP` ends the process. -/
inductive PredictResult where
  | ok
  | error
  | fatal
  deriving DecidableEq

/-- The program points of a worker. -/
inductive WorkerPc where
  /-- At the loop test `i < n`. -/
  | loop
  /-- At the `select`, with `predSent` already incremented. -/
  | select
  /-- In `w.Predict()`. -/
  | predict
  /-- At `stats <- s`. -/
  | send (s : Stat)
  /-- The goroutine has returned. -/
  | exited

/-- A worker goroutine: its workload and its local variables. -/
structure Worker where
  w : Workload
  i : Nat
  predCount : Nat
  predSent : Nat
  pc : WorkerPc

/-- The steps a worker takes on its own. -/
inductive WorkerStep where
  /-- The loop test succeeds. -/
  | iterate
  /-- The loop test fails, and the worker is done. -/
  | finish
  /-- The ticker branch builds a `Stat`. -/
  | tick
  /-- The `default` branch calls `Predict`. -/
  | begin
  | predict (r : PredictResult)
  deriving DecidableEq

namespace Worker

/-- The goroutine that `Worker(stats, kill, w)` spawns. -/
def spawn (w : Workload) : Worker :=
  { w, i := 0, predCount := 0, predSent := 0, pc := .loop }

/-- Whether the goroutine has not returned. -/
def live (wk : Worker) : Bool :=
  match wk.pc with
  | .exited => false
  | _ => true

/-- Whether the worker stands at its `select`. -/
def selecting (wk : Worker) : Bool :=
  match wk.pc with
  | .select => true
  | _ => false

/-- The `Stat` that the worker is sending. -/
def pending (wk : Worker) : Option Stat :=
  match wk.pc with
  | .send s => some s
  | _ => none

/-- A step of the worker on its own. -/
def step (wk : Worker) (a : WorkerStep) : Option Worker :=
  match a, wk.pc with
  -- `predSent` counts the pass before the `select` knows what it will be
  | .iterate, .loop =>
    if (wk.i : Int) < wk.w.nrequests then
      some { wk with predSent := wk.predSent + 1, pc := .select }
    else none
  | .finish, .loop =>
    if (wk.i : Int) < wk.w.nrequests then none else some { wk with pc := .exited }
  -- `predSent` stays; `predCount` is reset once the `Stat` is received
  | .tick, .select => some { wk with pc := .send ⟨wk.w, wk.predSent, wk.predCount⟩ }
  | .begin, .select => some { wk with pc := .predict }
  | .predict .ok, .predict =>
    some { wk with predCount := wk.predCount + 1, i := wk.i + 1, pc := .loop }
  -- a failed prediction is not counted and ends the worker without a `Stat`
  | .predict .error, .predict => some { wk with pc := .exited }
  -- the process is gone, and the worker with it
  | .predict .fatal, .predict => some wk
  | _, _ => none

/-- The worker after the monitor has received its `Stat`. -/
def sent (wk : Worker) : Worker :=
  { wk with predCount := 0, i := wk.i + 1, pc := .loop }

/-- The worker after it has received a kill. -/
def killed (wk : Worker) : Worker :=
  { wk with pc := .exited }

/-! ## What the steps do -/

@[simp] theorem spawn_pc (w : Workload) : (spawn w).pc = .loop := rfl
@[simp] theorem spawn_predCount (w : Workload) : (spawn w).predCount = 0 := rfl
@[simp] theorem spawn_live (w : Workload) : (spawn w).live = true := rfl
@[simp] theorem sent_w (wk : Worker) : wk.sent.w = wk.w := rfl
@[simp] theorem sent_pc (wk : Worker) : wk.sent.pc = .loop := rfl
@[simp] theorem sent_predCount (wk : Worker) : wk.sent.predCount = 0 := rfl
@[simp] theorem sent_predSent (wk : Worker) : wk.sent.predSent = wk.predSent := rfl
@[simp] theorem sent_live (wk : Worker) : wk.sent.live = true := rfl
@[simp] theorem killed_w (wk : Worker) : wk.killed.w = wk.w := rfl
@[simp] theorem killed_pc (wk : Worker) : wk.killed.pc = .exited := rfl
@[simp] theorem killed_predCount (wk : Worker) : wk.killed.predCount = wk.predCount := rfl
@[simp] theorem killed_live (wk : Worker) : wk.killed.live = false := rfl

/-- A worker is at the `select` by its program point. -/
theorem selecting_iff {wk : Worker} : wk.selecting = true ↔ wk.pc = .select := by
  unfold selecting
  split <;> simp_all

/-- A worker has a `Stat` to send by its program point. -/
theorem pending_eq_some {wk : Worker} {st : Stat} :
    wk.pending = some st ↔ wk.pc = .send st := by
  unfold pending
  split <;> simp_all

/-- A worker at the `select` has not ended. -/
theorem live_of_selecting {wk : Worker} (h : wk.selecting = true) : wk.live = true := by
  simp [live, selecting_iff.mp h]

/-- Nor has one with a `Stat` to send. -/
theorem live_of_pending {wk : Worker} {st : Stat} (h : wk.pending = some st) :
    wk.live = true := by
  simp [live, pending_eq_some.mp h]

/-- Every step of a worker, with the program points it leads between. -/
theorem step_cases {wk wk' : Worker} {a : WorkerStep} (h : wk.step a = some wk') :
    (a = .iterate ∧ wk.pc = .loop ∧ (wk.i : Int) < wk.w.nrequests ∧
      wk' = { wk with predSent := wk.predSent + 1, pc := .select }) ∨
    (a = .finish ∧ wk.pc = .loop ∧ ¬ (wk.i : Int) < wk.w.nrequests ∧
      wk' = { wk with pc := .exited }) ∨
    (a = .tick ∧ wk.pc = .select ∧
      wk' = { wk with pc := .send ⟨wk.w, wk.predSent, wk.predCount⟩ }) ∨
    (a = .begin ∧ wk.pc = .select ∧ wk' = { wk with pc := .predict }) ∨
    (a = .predict .ok ∧ wk.pc = .predict ∧
      wk' = { wk with predCount := wk.predCount + 1, i := wk.i + 1, pc := .loop }) ∨
    (a = .predict .error ∧ wk.pc = .predict ∧ wk' = { wk with pc := .exited }) ∨
    (a = .predict .fatal ∧ wk.pc = .predict ∧ wk' = wk) := by
  -- one case for each row of the table of `step`
  unfold step at h
  split at h <;> simp_all

/-- A worker keeps its workload. -/
theorem step_w {wk wk' : Worker} {a : WorkerStep} (h : wk.step a = some wk') :
    wk'.w = wk.w := by
  rcases step_cases h with ⟨-, -, -, rfl⟩ | ⟨-, -, -, rfl⟩ | ⟨-, -, rfl⟩ | ⟨-, -, rfl⟩ |
    ⟨-, -, rfl⟩ | ⟨-, -, rfl⟩ | ⟨-, -, rfl⟩ <;> rfl

/-- Only a live worker takes a step. -/
theorem live_of_step {wk wk' : Worker} {a : WorkerStep} (h : wk.step a = some wk') :
    wk.live = true := by
  rcases step_cases h with ⟨-, hpc, -⟩ | ⟨-, hpc, -⟩ | ⟨-, hpc, -⟩ | ⟨-, hpc, -⟩ |
    ⟨-, hpc, -⟩ | ⟨-, hpc, -⟩ | ⟨-, hpc, -⟩ <;> simp [live, hpc]

/-- Whether a step ends the worker: its requests are done, or a prediction failed. -/
def leaves : WorkerStep → Bool
  | .finish => true
  | .predict .error => true
  | _ => false

/-- A step leaves the worker alive unless it finishes or its prediction fails. -/
theorem live_step {wk wk' : Worker} {a : WorkerStep} (h : wk.step a = some wk') :
    wk'.live = !leaves a := by
  rcases step_cases h with ⟨rfl, hpc, -, rfl⟩ | ⟨rfl, hpc, -, rfl⟩ | ⟨rfl, hpc, rfl⟩ |
    ⟨rfl, hpc, rfl⟩ | ⟨rfl, hpc, rfl⟩ | ⟨rfl, hpc, rfl⟩ | ⟨rfl, hpc, rfl⟩ <;>
    simp [live, leaves, hpc]

/-- A live worker can always take a step on its own, unless it is sending a `Stat`. -/
theorem exists_step {wk : Worker} (hlive : wk.live = true) (hpend : wk.pending = none) :
    ∃ a, (wk.step a).isSome = true := by
  cases hpc : wk.pc with
  | loop =>
    -- the loop test goes one way or the other
    by_cases hi : (wk.i : Int) < wk.w.nrequests
    · exact ⟨.iterate, by simp [step, hpc, hi]⟩
    · exact ⟨.finish, by simp [step, hpc, hi]⟩
  | select => exact ⟨.begin, by simp [step, hpc]⟩
  | predict => exact ⟨.predict .ok, by simp [step, hpc]⟩
  | send st => simp [pending, hpc] at hpend
  | exited => simp [live, hpc] at hlive

/-- A worker that is sending a `Stat` takes no step on its own. -/
theorem step_of_pending {wk : Worker} {st : Stat} (h : wk.pending = some st)
    (a : WorkerStep) : wk.step a = none := by
  rw [pending_eq_some] at h
  unfold step
  split <;> simp_all

end Worker

end WorkloadSimulator
