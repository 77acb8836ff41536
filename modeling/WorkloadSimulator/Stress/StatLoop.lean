import WorkloadSimulator.Stress.Worker

/-!
# The polling of the query counters

`stat_loop` of `stress/worker.py`, cut at each of its accesses to what it shares with the
workers, between which they execute queries. `KeyboardInterrupt` may be raised anywhere.

The rates are exact, and so are the counters.
-/

namespace WorkloadSimulator.Stress

/-- `MAX_QUERIES`, which is also the length of `prev_qs` and of `qps_array`. -/
def maxQueries : Nat := 500

/-- The program points of `stat_loop`. -/
inductive StatPc where
  /-- At `send(True)`, outside the `try`. -/
  | sending
  /-- At `recv()`. -/
  | recv
  /-- Before `time.sleep`. -/
  | window (w : Workload)
  | sleeping (w : Workload)
  /-- In the loop over the keys, of which `keys` are left. `elapsed` is `now - prev_time`. -/
  | polling (w : Workload) (elapsed : ℚ) (keys : List Nat)
  /-- In `sum(stats)`, at the worker `i`. -/
  | summing (w : Workload) (elapsed : ℚ) (q : Nat) (keys : List Nat) (i sum : Nat)
  /-- With `diff`, before it is added to `prev_qs[q]`. -/
  | counted (w : Workload) (elapsed : ℚ) (q : Nat) (keys : List Nat) (diff : Int)
  /-- Before `qps_array[q]` is assigned. -/
  | publishing (w : Workload) (elapsed : ℚ) (q : Nat) (keys : List Nat) (diff : Int)
  /-- In the `KeyboardInterrupt` handler. -/
  | handler
  | dead

structure StatLoop where
  nworkers : Nat
  /-- `qps_query_table` -/
  qpsQueryTable : Nat → Nat → Nat
  qpsArray : Nat → ℚ
  prevQs : Nat → Int
  workload : Option Workload
  pc : StatPc

inductive StatEvent where
  /-- `query_gen.stats[index] += 1` in the worker `i`, for the query `q`. -/
  | execute (q i : Nat)
  | send
  | recv (w : Workload)
  | sleep
  /-- The end of `time.sleep`, after `elapsed` seconds. -/
  | wake (elapsed : ℚ)
  /-- The next key, or the next window. -/
  | next
  /-- The counter of the next worker is read, or the sum is done. -/
  | read
  /-- `prev_qs[i] += diff` -/
  | advance
  /-- `qps_array[i] = (diff) / (now - prev_time)` -/
  | publish
  | interrupt
  /-- The handler is done. -/
  | resume

/-- Add one to the counter of the query `q` in the worker `i`. -/
def increment (f : Nat → Nat → Nat) (q i : Nat) : Nat → Nat → Nat :=
  Function.update f q (Function.update (f q) i (f q i + 1))

namespace StatLoop

def init (nworkers : Nat) : StatLoop :=
  { nworkers, qpsQueryTable := fun _ _ => 0, qpsArray := fun _ => 0, prevQs := fun _ => 0
    workload := none, pc := .sending }

/-- Where `KeyboardInterrupt` takes `stat_loop`: only the `try` catches it. -/
def interrupted : StatPc → StatPc
  | .sending | .handler | .dead => .dead
  | _ => .handler

/-- One step of `stat_loop` or of a worker. -/
def step (s : StatLoop) (e : StatEvent) : Option StatLoop :=
  match e, s.pc with
  | .execute q i, _ =>
    if q < maxQueries ∧ i < s.nworkers then
      some { s with qpsQueryTable := increment s.qpsQueryTable q i }
    else none
  | .send, .sending => some { s with pc := .recv }
  | .recv w, .recv =>
    -- a dictionary has each key once
    if w.keys.Nodup then some { s with workload := some w, pc := .window w } else none
  | .sleep, .window w => some { s with pc := .sleeping w }
  | .wake elapsed, .sleeping w => some { s with pc := .polling w elapsed w.keys }
  | .next, .polling w elapsed (q :: keys) =>
    -- `IndexError`
    if q < maxQueries then some { s with pc := .summing w elapsed q keys 0 0 }
    else some { s with pc := .dead }
  | .next, .polling w _ [] => some { s with pc := .window w }
  | .read, .summing w elapsed q keys i sum =>
    if i < s.nworkers then
      some { s with pc := .summing w elapsed q keys (i + 1) (sum + s.qpsQueryTable q i) }
    else some { s with pc := .counted w elapsed q keys (sum - s.prevQs q) }
  | .advance, .counted w elapsed q keys diff =>
    some { s with
      prevQs := Function.update s.prevQs q (s.prevQs q + diff)
      pc := .publishing w elapsed q keys diff }
  | .publish, .publishing w elapsed q keys diff =>
    -- `ZeroDivisionError`
    if elapsed = 0 then some { s with pc := .dead }
    else some { s with
      qpsArray := Function.update s.qpsArray q (diff / elapsed)
      pc := .polling w elapsed keys }
  | .interrupt, pc => some { s with pc := interrupted pc }
  | .resume, .handler =>
    match s.workload with
    | none => some { s with pc := .sending }
    | some w =>
      if ∀ q ∈ w.keys, q < maxQueries then
        some { s with
          qpsArray := fun q => if q ∈ w.keys then 0 else s.qpsArray q
          pc := .sending }
      else some { s with pc := .dead }
  | _, _ => none

end StatLoop

end WorkloadSimulator.Stress
