import WorkloadSimulator.Stress.QueryTable
import WorkloadSimulator.Stress.Server
import WorkloadSimulator.Stress.Worker

/-!
# The pace of the workers

The loop of `worker` in `stress/worker.py` with its clock. A worker sends its queries in
batches and sleeps for what is left of a period when a batch is over. `Stress/Worker.lean` has
the pipes and signals of the processes; here a signal is an event of the worker, and so is a
workload that it receives.

All workers have the same clock. Time passes between any two steps, and `time.sleep` does not
return early.
-/

namespace WorkloadSimulator.Stress

/-- The program points of a worker, with the time at which its batch has begun and the queries
    that it has still to send. -/
inductive PacePc where
  /-- At `info_pipe.recv()`. -/
  | recv
  /-- At a `time.sleep` that does not return before `wake`. -/
  | sleeping (wake : ℚ)
  | looping (start : ℚ) (left : Nat)
  /-- At `conn.query`, for a query that it has drawn. -/
  | asking (start : ℚ) (left : Nat) (queryId : Nat)
  /-- At `_mysql.connect`, as the server has gone. -/
  | reconnecting (start : ℚ) (left : Nat) (queryId : Nat)
  /-- In the `KeyboardInterrupt` handler. -/
  | handler
  | dead

/-- What the database answers to a query. -/
inductive QueryOutcome where
  | ok
  /-- A `MySQLError` with this number. -/
  | error (n : Nat)

/-- A worker, with `query_table` and what it has counted for each query. -/
structure PacedWorker where
  pc : PacePc
  table : Option (QueryTable Nat Nat)
  stats : Nat → Nat

inductive PaceStep where
  | receive (workload : Workload)
  /-- `start_time = time.time()` -/
  | begin
  /-- `get_random_query`, with the value of `random.random()`, and the query is sent. -/
  | draw (u : ℚ)
  | answer (outcome : QueryOutcome)
  /-- `_mysql.connect` returns, or raises an exception. -/
  | reconnect (ok : Bool)
  /-- The batch is over. -/
  | finish
  /-- `KeyboardInterrupt` -/
  | interrupt
  /-- The handler is over, with a connection. -/
  | resume
  /-- An exception that nothing catches. -/
  | die

/-- `worker.ER_SERVER_GONE` -/
def ER_SERVER_GONE : Nat := 2006

/-- `qps_query_table`, of which there are `MAX_QUERIES`. -/
def qpsQueryTable (queryId : Nat) : Option Nat := if queryId < 500 then some queryId else none

namespace PacedWorker

/-- `query_gen.stats[index] += 1`, and the next query. -/
def counted (wk : PacedWorker) (start : ℚ) (left queryId : Nat) : PacedWorker :=
  { wk with
    pc := .looping start left
    stats := Function.update wk.stats queryId (wk.stats queryId + 1) }

/-- A query that has failed is counted all the same, unless its error is raised again. -/
def answered (wk : PacedWorker) (start : ℚ) (left queryId : Nat) : QueryOutcome → PacedWorker
  | .ok => wk.counted start left queryId
  | .error n =>
    if n = ER_SERVER_GONE then { wk with pc := .reconnecting start left queryId }
    else if n ∈ uncaughtErrors then { wk with pc := .dead }
    else wk.counted start left queryId

/-- `time.sleep(PERIOD - diff)`, if that is positive. -/
def wakeTime (now start : ℚ) : ℚ :=
  let sleepTime := QueryTable.period - (now - start)
  if 0 < sleepTime then now + sleepTime else now

/-- A step of the worker `index` of `nworkers` at the time `now`. -/
def step (nworkers index : Nat) (now : ℚ) (wk : PacedWorker) (a : PaceStep) : Option PacedWorker :=
  match a, wk.pc with
  | .receive workload, .recv => match QueryTable.new workload qpsQueryTable with
    | some table =>
      -- the workers begin one after the other
      some { wk with table, pc := .sleeping (now + index * (11 / 10) / nworkers) }
    | none => some { wk with pc := .dead }
  | .begin, .sleeping wake =>
    if wake ≤ now then wk.table.map fun table =>
      { wk with pc := .looping now (table.workerQps nworkers).toNat }
    else none
  | .draw u, .looping start (left + 1) =>
    if 0 ≤ u ∧ u < 1 then wk.table.map fun table =>
      match table.getRandomQuery u with
      | some gen => { wk with pc := .asking start left gen.queryId }
      -- `IndexError`
      | none => { wk with pc := .dead }
    else none
  | .answer outcome, .asking start left queryId => some (wk.answered start left queryId outcome)
  | .reconnect ok, .reconnecting start left queryId =>
    some (if ok then wk.counted start left queryId else { wk with pc := .dead })
  | .finish, .looping start 0 => some { wk with pc := .sleeping (wakeTime now start) }
  | .interrupt, .handler | .interrupt, .dead => none
  | .interrupt, _ => some { wk with pc := .handler }
  | .resume, .handler => some { wk with pc := .recv }
  | .die, _ => some { wk with pc := .dead }
  | _, _ => none

/-- The query that a worker has sent and not counted yet. -/
def underWay (wk : PacedWorker) : Option Nat :=
  match wk.pc with
  | .asking _ _ queryId | .reconnecting _ _ queryId => some queryId
  | _ => none

end PacedWorker

/-- The workers, with what they have sent and received so far: when, which worker, and which
    query. -/
structure PacedPool where
  now : ℚ
  workers : List PacedWorker
  sent : List (ℚ × Nat × Nat)
  received : List (ℚ × Nat)

namespace PacedPool

inductive Event where
  /-- Time passes. -/
  | pass (d : ℚ)
  | worker (i : Nat) (a : PaceStep)

/-- What a step of the worker `i`, from `wk` to `wk'`, sends to the database. -/
def sends (s : PacedPool) (i : Nat) (wk' : PacedWorker) : PaceStep → List (ℚ × Nat × Nat)
  | .draw _ => wk'.underWay.toList.map fun queryId => (s.now, i, queryId)
  | _ => []

def receives (s : PacedPool) (i : Nat) : PaceStep → List (ℚ × Nat)
  | .receive _ => [(s.now, i)]
  | _ => []

def step (s : PacedPool) : Event → Option PacedPool
  | .pass d => if 0 ≤ d then some { s with now := s.now + d } else none
  | .worker i a => match s.workers[i]? with
    | some wk => (wk.step s.workers.length i s.now a).map fun wk' =>
      { s with
        workers := s.workers.set i wk'
        sent := s.sent ++ s.sends i wk' a
        received := s.received ++ s.receives i a }
    | none => none

/-- The pool when its workers have started. -/
def init (nworkers : Nat) : PacedPool :=
  { now := 0, workers := List.replicate nworkers ⟨.recv, none, fun _ => 0⟩, sent := []
    received := [] }

end PacedPool

end WorkloadSimulator.Stress
