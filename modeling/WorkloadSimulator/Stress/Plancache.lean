import Mathlib

/-!
# The polling of the plancache

`save_plancache_loop` of `stress/plancache.py`. The counters of the database are numbers that
only grow, and a query counts whether the plancache still has its plan or not; what a poll is
shown are the plans that the plancache has then. The rates are exact.
-/

namespace WorkloadSimulator.Stress

/-- A row of `show plancache`. -/
structure PlancacheRow where
  queryText : String
  database : Option String
  commits : Option Nat
  rollbacks : Option Nat

/-- A row of `show status extended`. -/
structure StatusRow where
  variableName : String
  value : String

/-- The variables of the loop, and the two dictionaries that it shares. -/
structure PlancacheLoop where
  prevTime : ℚ
  prevPc : AList fun _ : String => Nat
  stats : AList fun _ : String => ℚ
  metrics : AList fun _ : String => String

def PlancacheRow.execs (row : PlancacheRow) : Nat := row.commits.getD 0 + row.rollbacks.getD 0

/-- The rows of the configured database. -/
def shown (memsqlDb : Option String) (rows : List PlancacheRow) : List PlancacheRow :=
  rows.filter fun row => row.database = memsqlDb

namespace PlancacheLoop

/-- What a row of the configured database does to `stats`. -/
def rate (p : PlancacheLoop) (currentTime : ℚ) (query : String) (execs : Nat) :
    AList fun _ : String => ℚ :=
  match p.prevPc.lookup query with
  | some prev =>
    if query ∈ p.stats ∨ execs ≠ prev then
      p.stats.insert query (((execs : ℚ) - prev) / (currentTime - p.prevTime))
    else p.stats
  | none => p.stats

/-- The loop over the plancache. -/
def fetchPlancache (memsqlDb : Option String) (currentTime : ℚ) (p : PlancacheLoop)
    (row : PlancacheRow) : PlancacheLoop :=
  if row.database ≠ memsqlDb then p
  else { p with
    stats := p.rate currentTime row.queryText row.execs
    prevPc := p.prevPc.insert row.queryText row.execs }

/-- The loop over the metrics. -/
def fetchMetrics (p : PlancacheLoop) (row : StatusRow) : PlancacheLoop :=
  { p with metrics := p.metrics.insert row.variableName row.value }

/-- One round of `save_plancache_loop`. -/
def poll (p : PlancacheLoop) (memsqlDb : Option String) (currentTime : ℚ)
    (rowsPc : List PlancacheRow) (rowsMets : List StatusRow) : PlancacheLoop :=
  let p := rowsPc.foldl (fetchPlancache memsqlDb currentTime) p
  let p := rowsMets.foldl fetchMetrics p
  { p with prevTime := currentTime }

def init : PlancacheLoop := { prevTime := 0, prevPc := ∅, stats := ∅, metrics := ∅ }

end PlancacheLoop

/-! ## The database -/

/-- A poll: its time, how often each query has been executed since the poll before, and what
    the database answers. -/
structure Snapshot where
  time : ℚ
  executed : String → Nat
  rowsPc : List PlancacheRow
  rowsMets : List StatusRow

/-- The loop and the database at the last poll. -/
structure Polling where
  loop : PlancacheLoop
  polledAt : Option ℚ
  /-- How often each query has been executed. -/
  execs : String → Nat

namespace Polling

/-- A poll comes after the one before. It shows no query of the database twice, and how often
    each has been executed. -/
def Admits (memsqlDb : Option String) (s : Polling) (e : Snapshot) : Prop :=
  (∀ t ∈ s.polledAt, t < e.time) ∧ ((shown memsqlDb e.rowsPc).map (·.queryText)).Nodup ∧
    ∀ row ∈ shown memsqlDb e.rowsPc, row.execs = s.execs row.queryText + e.executed row.queryText

instance (memsqlDb : Option String) (s : Polling) (e : Snapshot) :
    Decidable (s.Admits memsqlDb e) := inferInstanceAs (Decidable (_ ∧ _ ∧ _))

def step (memsqlDb : Option String) (s : Polling) (e : Snapshot) : Option Polling :=
  if s.Admits memsqlDb e then some
    { loop := s.loop.poll memsqlDb e.time e.rowsPc e.rowsMets
      polledAt := some e.time
      execs := fun query => s.execs query + e.executed query }
  else none

def init : Polling := { loop := .init, polledAt := none, execs := fun _ => 0 }

end Polling

end WorkloadSimulator.Stress
