import WorkloadSimulator.App.Types

/-!
# The statistics monitor

`StatsMonitor` of `app/stats.go`: one goroutine for the whole process that adds up the
`Stat`s of all workers and, at each tick of its ticker, sends a `Report`. Both channels
are unbuffered, so the monitor stays at `report <- …` until a `/stats` handler receives.

The totals are `int`s in the source and naturals here: what happens after an overflow at
`2 ^ 63` requests is left out.
-/

namespace WorkloadSimulator

/-- The program points of the monitor. -/
inductive MonitorPc where
  /-- At the `select`. -/
  | select
  /-- At `report <- r`. -/
  | report (r : Report)

/-- The monitor goroutine and its local variables. -/
structure StatsMonitor where
  isent : Nat
  idone : Nat
  bid : String
  mid : String
  mn : String
  host : String
  user : String
  requestPerSec : GoMap Nat
  requestLagDone : GoMap Nat
  requestMetrics : GoMap Metric
  pc : MonitorPc

/-- `int(float64(s.nreqDone) / tt.Seconds())`: the quotient of two naturals, truncated. -/
def Stat.reqPerS (s : Stat) : Nat := s.nreqDone * 1000 / s.workload.dt

namespace StatsMonitor

/-- The monitor when it starts. -/
def init : StatsMonitor :=
  { isent := 0, idone := 0, bid := "", mid := "", mn := "", host := "", user := "",
    requestPerSec := ∅, requestLagDone := ∅, requestMetrics := ∅, pc := .select }

/-- The `Report` that a tick builds. -/
def makeReport (m : StatsMonitor) : Report :=
  { batchId := m.bid, modelName := m.mn, modelId := m.mid, opsHost := m.host,
    user := m.user, requestPerS := m.requestPerSec, requestLagDone := m.requestLagDone,
    requestSent := m.isent, requestDone := m.idone }

/-- The ticker branch. -/
def tick (m : StatsMonitor) : StatsMonitor :=
  { m with pc := .report m.makeReport }

/-- The branch that receives a `Stat`. -/
def receive (m : StatsMonitor) (s : Stat) : StatsMonitor :=
  -- nothing resets the totals, and `nreqSent` is a running total itself
  let isent := m.isent + s.nreqSent
  let idone := m.idone + s.nreqDone
  let mid := s.workload.modelId
  { m with
    bid := s.workload.batchId
    mn := s.workload.modelName
    mid
    host := s.workload.opsHost
    user := s.workload.user
    isent
    idone
    requestMetrics := m.requestMetrics.insert mid ⟨isent, idone, s.reqPerS⟩
    -- what another worker of the model left here is replaced
    requestPerSec := m.requestPerSec.insert mid s.reqPerS
    -- the total of all models, under the key of this one
    requestLagDone := m.requestLagDone.insert mid idone }

/-- The monitor after a `/stats` handler has received its `Report`. -/
def delivered (m : StatsMonitor) : StatsMonitor :=
  { m with pc := .select }

/-- Whether the monitor stands at its `select`. -/
def selecting (m : StatsMonitor) : Bool :=
  match m.pc with
  | .select => true
  | .report _ => false

/-- The `Report` that the monitor is sending. -/
def reporting (m : StatsMonitor) : Option Report :=
  match m.pc with
  | .select => none
  | .report r => some r

/-- The monitor is at the `select` by its program point. -/
theorem selecting_iff {m : StatsMonitor} : m.selecting = true ↔ m.pc = .select := by
  unfold selecting
  split <;> simp_all

/-- It has no report to send exactly there. -/
theorem reporting_eq_none {m : StatsMonitor} : m.reporting = none ↔ m.selecting = true := by
  unfold reporting selecting
  split <;> simp

@[simp] theorem init_reporting : init.reporting = none := rfl
@[simp] theorem receive_reporting (m : StatsMonitor) (s : Stat) :
    (m.receive s).reporting = m.reporting := rfl
@[simp] theorem delivered_makeReport (m : StatsMonitor) :
    m.delivered.makeReport = m.makeReport := rfl

end StatsMonitor

end WorkloadSimulator
