import WorkloadSimulator.ForStd.Machine
import WorkloadSimulator.Stress.Server

/-!
# The processes of the server's pools

`WorkerPool.__init__`, `is_alive` and `clear` in `stress/worker.py`, and the places of
`stress/server.py` that call them. `Stress/Server.lean` takes from outside whether a pool is
alive and whether a constructor returns; here both follow from the processes.

Processes are numbered in the order of their starts. One that is alive may die at any time.
-/

namespace WorkloadSimulator.Stress

/-! ## The constructor -/

/-- What the operating system does for a constructor. -/
structure Launches where
  /-- The shared arrays can be made. -/
  arrays : Bool
  /-- The pipe and the process `i` can be made, where `stat_loop` comes after the workers. -/
  starts : Nat → Bool

/-- The list `workers` of a pool, `None` where no process has been started. -/
abbrev Workers := List (Option Nat)

/-- `_launch_worker(i)`, after the processes `started`. An exception leaves these behind. -/
def launchWorker (os : Launches) (next : Nat) (pool : List Nat × Workers) (i : Nat) :
    Except (List Nat) (List Nat × Workers) :=
  if os.starts i then .ok (pool.1 ++ [next + i], pool.2.set i (some (next + i)))
  else .error pool.1

/-- `_launch_stat_proc`, after `n` workers: the process is started before it is put into the
    list. -/
def launchStatProc (os : Launches) (next n : Nat) (pool : List Nat × Workers) :
    Except (List Nat) (List Nat × Workers) :=
  if os.starts n then
    let started := pool.1 ++ [next + n]
    match pool.2 with
    -- `IndexError`
    | [] => .error started
    | workers => .ok (started, workers.set (workers.length - 1) (some (next + n)))
  else .error pool.1

/-- `WorkerPool(settings)`, where the next process gets the number `next`. -/
def construct (os : Launches) (next : Nat) (nworkers : Option Int) :
    Except (List Nat) (List Nat × Workers) :=
  match nworkers with
  -- `[0]*None`
  | none => .error []
  | some n =>
    if os.arrays then do
      let pool ← (List.range n.toNat).foldlM (launchWorker os next)
        ([], List.replicate (n + 1).toNat none)
      launchStatProc os next n.toNat pool
    else .error []

/-! ## The server and its processes -/

/-- The server, with the processes of its pools that are alive. -/
structure Host (σ : Type) where
  server : Server σ
  /-- `g_workers.workers`, empty when there is no pool. -/
  workers : Workers
  live : List Nat
  next : Nat

/-- What happens in the course of a request, apart from what the processes decide. -/
structure Course where
  os : Launches
  /-- Whether a process lives on: to the first `is_alive()` of the request, to that of
      `check_workers`, and to the end. -/
  lives : Nat → Nat → Bool

namespace Host

variable {σ : Type}

/-- What `is_alive` returns. -/
def isAlive (h : Host σ) : Bool := h.workers.all fun w => w.any fun p => h.live.contains p

/-- `clear`: every process in the list is terminated. -/
def clear (h : Host σ) : Host σ :=
  { h with live := h.live.filter fun p => !h.workers.contains (some p) }

/-- `is_alive`, which clears a pool with a process that has died. -/
def afterIsAlive (h : Host σ) : Host σ := if h.isAlive then h else h.clear

/-- The processes that die before the point `k` of a request are gone. -/
def passes (h : Host σ) (c : Course) (k : Nat) : Host σ :=
  { h with live := h.live.filter (c.lives k) }

/-- The settings with which `submit_workload` looks at the pool, if it gets there. -/
def reachesPool (form : Form σ) : Option σ :=
  match form.workload with
  | none => none
  | some items => match fill ∅ items with
    | (_, some _) => none
    | (g, none) => if g.keys.length = 0 then none else form.settings.toOption

variable [DecidableEq σ] (nworkers : σ → Option Int)

/-- Whether `submit_workload` keeps the pool for these settings. -/
def keeps (h : Host σ) (settings : σ) : Bool :=
  h.isAlive && h.server.gWorkers.any fun pool => pool.settingsDict == settings

/-- `check_workers` and what comes after it. -/
def checked (h : Host σ) (c : Course) : Host σ := ((h.passes c 1).afterIsAlive).passes c 2

/-- `submit_workload`. The constructor either returns, or ends the request. -/
def submitWorkload (h : Host σ) (form : Form σ) (env : Env) (c : Course) : Host σ :=
  let h := h.passes c 0
  let server (created checked : Bool) : Server σ :=
    (h.server.submitWorkload form { env with
      alive := h.isAlive, created, aliveChecked := checked }).1
  match reachesPool form with
  | none => { (h.passes c 1).passes c 2 with server := server true true }
  | some settings =>
    if h.keeps settings then
      { h.checked c with server := server true (h.passes c 1).isAlive }
    else
      -- `reset_workers`
      let old := h.clear
      match construct c.os h.next (nworkers settings) with
      | .ok (started, workers) =>
        let h := { old with workers, live := old.live ++ started, next := old.next + started.length }
        { h.checked c with server := server true (h.passes c 1).isAlive }
      | .error started =>
        let h := { old with live := old.live ++ started, next := old.next + started.length }
        { (h.passes c 1).passes c 2 with server := server false true }

/-- Whether `/pause`, `/stats` and `/status` get to `check_workers`. -/
def checks (s : Server σ) : Server.Request σ → Bool
  | .workload _ _ => false
  | .pause _ => s.gWorkers.any fun pool => !pool.paused
  | .stats _ => s.gWorkers.isSome && s.statCheckCount % Server.fullCheckPeriod == 0
  | .status _ => s.gWorkers.isSome

/-- A request to `/pause`, `/stats` or `/status`, whose environment the processes decide. -/
def withAlive (alive : Bool) : Server.Request σ → Server.Request σ
  | .pause env => .pause { env with aliveChecked := alive }
  | .stats env => .stats { env with aliveChecked := alive }
  | .status env => .status { env with aliveChecked := alive }
  | r => r

/-- One request. -/
def step (h : Host σ) : Server.Request σ × Course → Option (Host σ)
  | (.workload form env, c) => some (h.submitWorkload nworkers form env c)
  | (r, c) =>
    let h := h.passes c 0
    let server := (h.server.handle (withAlive (h.passes c 1).isAlive r)).1
    some { if checks h.server r then h.checked c else (h.passes c 1).passes c 2 with server }

/-- The server when it starts. -/
def init (settings : σ) : Host σ :=
  { server := .init settings, workers := [], live := [], next := 0 }

end Host

end WorkloadSimulator.Stress
