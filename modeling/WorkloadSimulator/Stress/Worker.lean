import Mathlib

/-!
# The worker pool of the stress tool

`stress/worker.py`: a parent process with one worker process for each index below
`nworkers` and one more for `stat_loop`, a two-way pipe to each, and `SIGINT` to interrupt
them. Any process may be interrupted at any of its program points once a signal is
pending. The parent is cut at each of its accesses to a process.
-/

namespace WorkloadSimulator.Stress

/-- The entry of one query in a workload. -/
structure QueryInfo where
  qps : Int
  query : String

/-- A workload, by query id. -/
abbrev Workload := List (Nat × QueryInfo)

/-- `workload.keys()` -/
def Workload.keys (w : Workload) : List Nat := w.map Prod.fst

/-! ## Processes -/

/-- The program points of a process of the pool. -/
inductive ProcPc where
  /-- Before the loop: the process starts, and a worker connects to the database. -/
  | starting
  /-- At `send(True)`, outside the inner `try`. -/
  | sending
  /-- After `send(True)`: before the inner `try` is entered, or in it at `recv()`. -/
  | recv (inTry : Bool)
  /-- In the loop on a workload. -/
  | running (w : Workload)
  /-- In the `KeyboardInterrupt` handler. -/
  | handler
  | dead

/-- A process, with the two directions of its pipe. Only `True` is sent to the parent, so
    `outbox` counts. -/
structure Proc where
  pc : ProcPc
  inbox : List Workload
  outbox : Nat
  sigint : Bool
  workload : Option Workload

/-- The steps of a process. -/
inductive ProcStep where
  /-- The process reaches its loop. -/
  | start
  | send
  | enterTry
  | read
  /-- A worker executes a query, or `stat_loop` updates `qps_array` with these rates. -/
  | work (rates : Nat → Nat)
  /-- An exception that the process does not catch. -/
  | raises
  /-- The handler is done. -/
  | resume
  /-- The pending signal raises `KeyboardInterrupt`. -/
  | interrupt

namespace Proc

/-- A process that has been started. -/
def spawn : Proc :=
  { pc := .starting, inbox := [], outbox := 0, sigint := false, workload := none }

/-- `is_alive()` -/
def isAlive (p : Proc) : Bool :=
  match p.pc with
  | .dead => false
  | _ => true

/-- Where `KeyboardInterrupt` takes a process: only the inner `try` catches it. -/
def interrupted : ProcPc → ProcPc
  | .recv true => .handler
  | .running _ => .handler
  | _ => .dead

/-- A step of a process, on its own state and its pipe. -/
def step (p : Proc) (a : ProcStep) : Option Proc :=
  match a, p.pc with
  | .start, .starting => some { p with pc := .sending }
  -- a signal before the inner `try` is entered again is not caught
  | .send, .sending => some { p with pc := .recv false, outbox := p.outbox + 1 }
  | .enterTry, .recv false => some { p with pc := .recv true }
  | .read, .recv true =>
    match p.inbox with
    | w :: ws => some { p with pc := .running w, inbox := ws, workload := some w }
    | [] => none
  | .work _, .running _ => some p
  | .raises, .starting => some { p with pc := .dead }
  | .raises, .running _ => some { p with pc := .dead }
  | .raises, .handler => some { p with pc := .dead }
  | .resume, .handler => some { p with pc := .sending }
  -- a pending signal may be raised at any program point
  | .interrupt, pc =>
    if p.sigint ∧ p.isAlive then some { p with pc := interrupted pc, sigint := false } else none
  | _, _ => none

end Proc

/-! ## The pool -/

/-- Where `_sync` returns to. -/
inductive Caller where
  /-- `_launch_worker` and `_launch_stat_proc`, which drop the result. -/
  | launch
  /-- `pause`, with `success` so far. -/
  | pause (success : Bool)

/-- The program points of the parent. -/
inductive ParentPc where
  /-- In the constructor, before the next process is started. -/
  | launch
  /-- Between two calls. `result` is what the last one returned, if it was `pause`. -/
  | idle (result : Option Bool)
  /-- In `send_workload`, at the process `i`. -/
  | send (w : Workload) (i : Nat)
  /-- In the first loop of `pause`, at the process `i`. -/
  | signal (i : Nat)
  /-- In the second loop of `pause`, where it asks whether the process `i` is alive. -/
  | check (i : Nat) (success : Bool)
  /-- In `_sync`, at `p.poll` or, when there was nothing, at `w.is_alive()`. -/
  | sync (i : Nat) (polled : Bool) (caller : Caller)

structure Pool where
  nworkers : Nat
  procs : List Proc
  parent : ParentPc
  paused : Bool
  workload : Option Workload
  qpsArray : Nat → Nat
  /-- The queries that have been executed: the worker and the workload it was on. -/
  queries : List (Nat × Workload)

inductive Event where
  | callSend (w : Workload)
  | callPause
  /-- The next step of the parent in the call it is in. -/
  | parent
  | proc (i : Nat) (a : ProcStep)

namespace Pool

/-- The constructor, before it has started a process. -/
def init (nworkers : Nat) : Pool :=
  { nworkers, procs := [], parent := .launch, paused := true, workload := none,
    qpsArray := fun _ => 0, queries := [] }

def setProc (s : Pool) (i : Nat) (p : Proc) : Pool := { s with procs := s.procs.set i p }

/-- The array with the rates `f` at the keys of a workload. -/
def update (s : Pool) (w : Workload) (f : Nat → Nat) : Nat → Nat :=
  fun k => if k ∈ w.keys then f k else s.qpsArray k

/-- What a step of the process `i` does to the shared arrays. The process after the workers
    is `stat_loop`. -/
def effect (s : Pool) (i : Nat) (p : Proc) (a : ProcStep) : Pool :=
  match a, p.pc with
  | .work rates, .running w =>
    -- `stat_loop` publishes rates, a worker executes a query
    if i = s.nworkers then { s with qpsArray := s.update w rates }
    else { s with queries := s.queries ++ [(i, w)] }
  | .resume, _ =>
    -- only the handler of `stat_loop` touches the rates: `if workload: … = 0`
    match p.workload with
    | some w => if i = s.nworkers then { s with qpsArray := s.update w fun _ => 0 } else s
    | none => s
  | _, _ => s

def procStep (s : Pool) (i : Nat) (a : ProcStep) : Option Pool :=
  match s.procs[i]? with
  | some p => (p.step a).map fun p' => (s.effect i p a).setProc i p'
  | none => none

/-- `_sync` on the process `i` returns `result`. -/
def returnSync (s : Pool) (i : Nat) (result : Bool) : Caller → Pool
  | .launch => { s with parent := if i < s.nworkers then .launch else .idle none }
  | .pause success => { s with parent := .check (i + 1) (success && result) }

/-- The next step of the parent. -/
def parentStep (s : Pool) : Option Pool :=
  match s.parent with
  | .launch =>
    some { s with procs := s.procs ++ [.spawn], parent := .sync s.procs.length false .launch }
  | .idle _ => none
  | .send w i =>
    match s.procs[i]? with
    | some p =>
      -- `living_workers` passes over a process that is gone
      let p' := if p.isAlive then { p with inbox := p.inbox ++ [w] } else p
      some { s.setProc i p' with parent := .send w (i + 1) }
    | none => some { s with parent := .idle none }
  | .signal i =>
    match s.procs[i]? with
    | some p =>
      let p' := if p.isAlive then { p with sigint := true } else p
      some { s.setProc i p' with parent := .signal (i + 1) }
    | none => some { s with parent := .check 0 true }
  | .check i success =>
    match s.procs[i]? with
    | some p =>
      -- a process that has died since it was signalled is not asked for its `True`
      some { s with
        parent := if p.isAlive then .sync i false (.pause success) else .check (i + 1) success }
    | none => some { s with parent := .idle (some success) }
  | .sync i polled caller =>
    match s.procs[i]? with
    | some p =>
      -- there was nothing to receive: go round, unless the process is gone
      if polled then
        some (if p.isAlive then { s with parent := .sync i false caller }
          else s.returnSync i false caller)
      else match p.outbox with
        | n + 1 => some ((s.setProc i { p with outbox := n }).returnSync i true caller)
        | 0 => some { s with parent := .sync i true caller }
    | none => none

/-- One step of the pool. -/
def step (s : Pool) (e : Event) : Option Pool :=
  match e, s.parent with
  | .callSend w, .idle _ =>
    some { s with workload := some w, paused := false, parent := .send w 0 }
  | .callPause, .idle _ => some { s with paused := true, parent := .signal 0 }
  | .parent, _ => s.parentStep
  | .proc i a, _ => s.procStep i a
  | _, _ => none

end Pool

end WorkloadSimulator.Stress
