import WorkloadSimulator.App.Handlers
import WorkloadSimulator.ForStd.Machine

/-!
# The app

The shared state of `app/app.go` with every goroutine of the process: the workers, the
monitor and the handlers. `App.step` is one step of one of them, or of two that meet on
an unbuffered channel. A run of the app (`Machine.run App.step`) is any interleaving.
-/

namespace WorkloadSimulator

/-- The state of the process. A worker and a handler are known by their place in the
    lists, which only grow. `written` is what has been written to report files, each row
    with the name of its file. -/
structure App where
  reportDir : String
  currentWorkers : Int
  reportfile : Option String
  written : List (String × CsvMetric)
  workers : List Worker
  monitor : StatsMonitor
  handlers : List Handler
  exited : Bool

/-- The steps of the app. -/
inductive Event where
  /-- A request arrives, and its handler starts. -/
  | request (r : Request)
  /-- `handleWorkload` draws a batch id and installs a report file for it, or `nil` when
      the file cannot be created. -/
  | openReport (h : Nat) (batchId : String) (created : Bool)
  /-- `handleWorkload` checks the workload and sets the worker count. -/
  | readWorkers (h : Nat)
  /-- `handleWorkload` draws `r` and launches a worker. -/
  | launch (h : Nat) (r : Nat)
  /-- The loop of `handleWorkload`, `handlePause` or `handleKill` is over. -/
  | respond (h : Nat)
  /-- `handleStats` gives up after a second. -/
  | timeout (h : Nat)
  /-- `handleStats` writes its records and responds. -/
  | writeCsv (h : Nat)
  /-- The worker `w` takes a step on its own. -/
  | worker (w : Nat) (a : WorkerStep)
  /-- The monitor's ticker fires. -/
  | monitorTick
  /-- On `Killc`: the handler `h` kills the worker `w`. -/
  | kill (h w : Nat)
  /-- On `Statc`: the monitor receives the `Stat` of the worker `w`. -/
  | stat (w : Nat)
  /-- On `Reportc`: the handler `h` receives the `Report` of the monitor, at time `ts`. -/
  | report (h ts : Nat)

namespace App

/-- The process when it starts to serve. -/
def init (reportDir : String) : App :=
  { reportDir, currentWorkers := 0, reportfile := none, written := [], workers := [],
    monitor := .init, handlers := [], exited := false }

/-- The handler that a request starts. -/
def start (s : App) : Request → Handler
  | .workload form => readForm form
  -- the count is read once, before the loop; a negative one sends no kill
  | .pause => .killing true s.currentWorkers.toNat
  | .kill => .killing false s.currentWorkers.toNat
  | .stats => .polling

def setHandler (s : App) (h : Nat) (x : Handler) : App :=
  { s with handlers := s.handlers.set h x }

def setWorker (s : App) (w : Nat) (wk : Worker) : App :=
  { s with workers := s.workers.set w wk }

/-- What `handleStats` writes to the report file that is in place. -/
def reportRows (s : App) (records : List CsvMetric) : List (String × CsvMetric) :=
  match s.reportfile with
  | some file => records.map fun row => (file, row)
  | none => []

def openReport (s : App) (h : Nat) (batchId : String) (created : Bool) : Option App :=
  match s.handlers[h]? with
  | some (.parsed settings wrk out) =>
    let outfile := if created then some (reportName s.reportDir batchId) else none
    -- the file that was in place is not closed
    some { s.setHandler h (.opened settings wrk batchId out) with reportfile := outfile }
  | _ => none

def readWorkers (s : App) (h : Nat) : Option App :=
  match s.handlers[h]? with
  | some (.opened settings wrk batchId out) =>
    -- an error from here on leaves the new report file in place
    if workCount wrk = 0 then
      some (s.setHandler h (.done (out ++ [.error "no work to be done" 500])))
    else match atoi settings.Workers with
      | none => some (s.setHandler h (.done (out ++ [.error "error parsing worker count" 500])))
      | some nw =>
        some { s.setHandler h (.launching settings wrk batchId nw 0 out) with
          currentWorkers := nw }
  | _ => none

def launch (s : App) (h r : Nat) : Option App :=
  match s.handlers[h]? with
  | some (.launching settings wrk batchId nw i out) =>
    if (i : Int) < nw ∧ r < workCount wrk then
      match wrk.lookup (itoa r) with
      | some model =>
        some { s.setHandler h (.launching settings wrk batchId nw (i + 1) out) with
          workers := s.workers ++
            [Worker.spawn (workerWorkload settings batchId i (itoa r) model)] }
      -- `model.qps` of a nil model
      | none => some (s.setHandler h (.panicked out))
    else none
  | _ => none

def respond (s : App) (h : Nat) : Option App :=
  match s.handlers[h]? with
  | some (.launching _ _ _ nw i out) =>
    if (i : Int) < nw then none
    else some (s.setHandler h (.done (out ++ [.running true])))
  | some (.killing closes 0) =>
    -- the file of whichever request opened one last
    some { s.setHandler h (.done [.ok]) with
      reportfile := if closes then none else s.reportfile }
  | _ => none

def timeout (s : App) (h : Nat) : Option App :=
  match s.handlers[h]? with
  | some .polling => some (s.setHandler h (.done [.running false]))
  | _ => none

def writeCsv (s : App) (h : Nat) : Option App :=
  match s.handlers[h]? with
  | some (.writing records resp) =>
    -- the file in place now, not the one in place when the rows were built
    some { s.setHandler h (.done [resp]) with written := s.written ++ s.reportRows records }
  | _ => none

def workerStep (s : App) (w : Nat) (a : WorkerStep) : Option App :=
  match s.workers[w]? with
  | some wk => (wk.step a).map fun wk' =>
      { s.setWorker w wk' with exited := decide (a = .predict .fatal) }
  | none => none

def monitorTick (s : App) : Option App :=
  if s.monitor.selecting then some { s with monitor := s.monitor.tick } else none

def kill (s : App) (h w : Nat) : Option App :=
  match s.handlers[h]?, s.workers[w]? with
  | some (.killing closes (left + 1)), some wk =>
    -- any worker at its `select` may be the one that receives
    if wk.selecting then some ((s.setHandler h (.killing closes left)).setWorker w wk.killed)
    else none
  | _, _ => none

def stat (s : App) (w : Nat) : Option App :=
  match s.workers[w]? with
  | some wk =>
    match wk.pending with
    | some st =>
      if s.monitor.selecting then
        some { s.setWorker w wk.sent with monitor := s.monitor.receive st }
      else none
    | none => none
  | none => none

def report (s : App) (h ts : Nat) : Option App :=
  match s.handlers[h]?, s.monitor.reporting with
  | some .polling, some r =>
    -- the worker count is the present one, whatever batch the report is of
    some { s.setHandler h (.writing (csvRows ts s.currentWorkers r)
        (.stats r.requestPerS r.requestLagDone)) with
      monitor := s.monitor.delivered }
  | _, _ => none

/-- One step of the app. -/
def step (s : App) (e : Event) : Option App :=
  if s.exited then none
  else match e with
    | .request r => some { s with handlers := s.handlers ++ [s.start r] }
    | .openReport h batchId created => s.openReport h batchId created
    | .readWorkers h => s.readWorkers h
    | .launch h r => s.launch h r
    | .respond h => s.respond h
    | .timeout h => s.timeout h
    | .writeCsv h => s.writeCsv h
    | .worker w a => s.workerStep w a
    | .monitorTick => s.monitorTick
    | .kill h w => s.kill h w
    | .stat w => s.stat w
    | .report h ts => s.report h ts

end App

end WorkloadSimulator
