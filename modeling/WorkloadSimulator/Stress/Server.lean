import WorkloadSimulator.Stress.Worker

/-!
# The server of the stress tool

`/workload`, `/pause`, `/stats` and `/status` in `stress/server.py`. The server keeps a
workload, a pool and settings in globals and handles one request at a time. What Python's
conversions give and what the database and the processes do in a request is part of the
event (`Form`, `Env`); an exception that is no `ServerException` ends a request with the
status 500 and leaves the globals as they are at that point.

`Stress/Worker.lean` has the processes of a pool; here a pool is what the server reads of it.
-/

namespace WorkloadSimulator.Stress

/-! ## Requests -/

/-- Exceptions of Python: a `ValueError` is caught in some places. -/
inductive PyError where
  | valueError
  | other
  deriving DecidableEq

/-- One entry of the posted workload. -/
structure Posted where
  /-- `int(query_id)` -/
  queryId : Except PyError Int
  /-- `int(info['qps'])` -/
  qps : Except PyError Int
  /-- `int(float(info['qps']))` -/
  qpsFloat : Except PyError Int
  query : String

/-- A request to `/workload`. `σ` is what `get_dict` gives for settings. -/
structure Form (σ : Type) where
  /-- The entries in the order of `items()`, unless `json.loads` raises. -/
  workload : Option (List Posted)
  /-- `Settings(json.loads(…))`, with `valueError` only for an `int` in `Settings`, which
      catches it. -/
  settings : Except PyError σ

/-- What `check_connection_settings` finds. -/
inductive Connection where
  | fails (n : Nat) (text : String)
  /-- `show tables` fails. -/
  | noTables (text : String)
  | ok

/-- What validating a workload meets. -/
inductive Validation where
  /-- `_mysql.connect` fails. -/
  | noConnection
  /-- `QueryTable` raises an exception, or a query function does. -/
  | raises
  /-- The error that the database gives for each query, if any. -/
  | answers (error : Int → Option (Nat × String))

/-- What the processes and the database do in the course of a request. -/
structure Env where
  /-- `g_workers.is_alive()` before `reset_workers` -/
  alive : Bool
  /-- The constructor of `WorkerPool` returns. -/
  created : Bool
  /-- `g_workers.is_alive()` in `check_workers` -/
  aliveChecked : Bool
  connection : Connection
  validation : Validation
  /-- What `g_workers.pause()` returns. -/
  pauses : Bool
  /-- No `p.send` of `send_workload` raises an exception. -/
  sends : Bool
  /-- `g_workers.qps_array`, with `none` beyond its ends. -/
  qpsArray : Int → Option ℚ

/-! ## Exceptions and responses -/

structure ServerException where
  message : String
  n : Nat
  queryMap : List (Int × String)
  deriving DecidableEq

namespace ServerException

def ER_UNKNOWN : Nat := 0
def ER_DBCONN : Nat := 1
def ER_DBNAME : Nat := 2
def ER_JS : Nat := 3
def ER_QUERY : Nat := 4
def ER_SETTINGS : Nat := 5

/-- `ServerException(message, n)` -/
def plain (message : String) (n : Nat) : ServerException := ⟨message, n, []⟩

/-- `WorkloadException(id_to_error)` -/
def workload (idToError : List (Int × String)) : ServerException :=
  ⟨"Invalid queries in workload", ER_QUERY, idToError⟩

end ServerException

open ServerException

inductive Response where
  /-- `format_response(running, error)` -/
  | running (b : Bool) (error : Option ServerException)
  /-- `format_response(True, None, stats=ret)` -/
  | stats (ret : List (Int × ℚ))
  /-- An exception that nothing catches. -/
  | internalError

/-! ## The globals -/

/-- The workload that the server builds, a dictionary. -/
abbrev QueryMap := AList fun _ : Int => QueryInfo

/-- What the server reads of a `WorkerPool`. -/
structure WorkerPool (σ : Type) where
  settingsDict : σ
  paused : Bool
  workload : Option QueryMap

namespace WorkerPool

variable {σ : Type}

/-- A pool after its constructor. -/
def new (settings : σ) : WorkerPool σ :=
  { settingsDict := settings, paused := true, workload := none }

/-- `pause`, and `clear`, which begins with it. -/
def pause (pool : WorkerPool σ) : WorkerPool σ := { pool with paused := true }

/-- `is_alive`, which clears a pool with a process that has died. -/
def isAlive (pool : WorkerPool σ) (alive : Bool) : WorkerPool σ :=
  if alive then pool else pool.pause

def sendWorkload (pool : WorkerPool σ) (workload : QueryMap) : WorkerPool σ :=
  { pool with workload := some workload, paused := false }

end WorkerPool

structure Server (σ : Type) where
  gWorkload : Option QueryMap
  gWorkers : Option (WorkerPool σ)
  gSettings : Option σ
  statCheckCount : Nat

/-! ## Parts of the handlers -/

/-- The rate of an entry: `int(info['qps'])`, or else `int(float(info['qps']))`. -/
def Posted.parseQps (p : Posted) : Except PyError Int :=
  match p.qps with
  | .error .valueError => p.qpsFloat
  | r => r

/-- The loop that fills `g_workload`, up to the first entry that raises an exception. -/
def fill (g : QueryMap) : List Posted → QueryMap × Option PyError
  | [] => (g, none)
  | p :: ps =>
    match p.parseQps with
    | .error e => (g, some e)
    | .ok qps => match p.queryId with
      | .error e => (g, some e)
      | .ok id => fill (g.insert id ⟨qps, p.query⟩) ps

/-- `worker.ER_DB_DNE` -/
def ER_DB_DNE : Nat := 1049

/-- `worker.uncaught_errors` -/
def uncaughtErrors : List Nat := [1046, 1146, 1064, 1707, 1136, 1720, 1054]

def checkConnectionSettings : Connection → Option ServerException
  | .fails n text => some (plain text (if n = ER_DB_DNE then ER_DBNAME else ER_DBCONN))
  | .noTables text => some (plain text ER_DBNAME)
  | .ok => none

/-- `check_workers`, once `is_alive` has returned `alive`. -/
def checkWorkers (alive : Bool) (connection : Connection) : Option ServerException :=
  if alive then none
  else some ((checkConnectionSettings connection).getD
    (plain "Unable to initialize workers." ER_UNKNOWN))

/-- How `validate_workload` ends: with an exception of its own, with another, or well. -/
def validateWorkload (g : QueryMap) (connection : Connection) :
    Validation → Except (Option ServerException) Unit
  | .noConnection => .error (some ((checkConnectionSettings connection).getD
      (plain "Unable to validate workload. Could not connect to database." ER_UNKNOWN)))
  | .raises => .error none
  | .answers error =>
    let failedQueries := g.entries.filterMap fun x => (error x.1).bind fun e =>
      if e.1 ∈ uncaughtErrors then some (x.1, e.2) else none
    if failedQueries ≠ [] then .error (some (.workload failedQueries))
    -- `qt.is_empty()`
    else if (g.entries.map fun x => x.2.qps).sum = 0 then
      .error (some (plain "Workload is empty. Adjust the dial to indicate how many times to run the query per-second." ER_JS))
    else .ok ()

/-! ## The handlers -/

namespace Server

variable {σ : Type} [DecidableEq σ]

/-- `submit_workload` from `check_workers` on, with the pool that there is then. -/
def submitTo (s : Server σ) (g : QueryMap) (pool : WorkerPool σ) (env : Env) :
    Server σ × Response :=
  let pool := pool.isAlive env.aliveChecked
  let s := { s with gWorkers := some pool }
  match checkWorkers env.aliveChecked env.connection with
  | some e => (s, .running false e)
  | none => match validateWorkload g env.connection env.validation with
    | .error (some e) => (s, .running false e)
    | .error none => (s, .internalError)
    | .ok () =>
      let pool := pool.pause
      if !env.pauses then
        ({ s with gWorkers := some pool },
          .running false (plain "Unknown Error- workers failed" ER_UNKNOWN))
      else
        ({ s with gWorkers := some (pool.sendWorkload g) },
          if env.sends then .running true none else .internalError)

def submitWorkload (s : Server σ) (form : Form σ) (env : Env) : Server σ × Response :=
  match form.workload with
  | none => ({ s with gWorkload := some ∅ }, .internalError)
  | some items => match fill ∅ items with
    | (g, some _) => ({ s with gWorkload := some g }, .internalError)
    | (g, none) =>
      let s := { s with gWorkload := some g }
      if g.keys.length = 0 then
        (s, .running false (plain "The workload table is empty. Use the workspace below to add new queries." ER_JS))
      else match form.settings with
        | .error .valueError =>
          (s, .running false (plain "Invalid settings. Please verify port number and workers processes" ER_SETTINGS))
        | .error .other => (s, .internalError)
        | .ok settings =>
          let s := { s with gSettings := some settings }
          let old := s.gWorkers.map fun pool => pool.isAlive env.alive
          match old.filter fun pool => env.alive && pool.settingsDict == settings with
          | some pool => s.submitTo g pool env
          -- `reset_workers`
          | none =>
            if env.created then s.submitTo g (.new settings) env
            else ({ s with gWorkers := old.map .pause }, .internalError)

def pause (s : Server σ) (env : Env) : Server σ × Response :=
  match s.gWorkers with
  | none => (s, .running false none)
  | some pool =>
    if pool.paused then (s, .running false none)
    else
      let pool := pool.isAlive env.aliveChecked
      match checkWorkers env.aliveChecked env.connection with
      | some e => ({ s with gWorkers := some pool }, .running false e)
      | none => ({ s with gWorkers := some pool.pause }, .running false none)

/-- `full_check_period` -/
def fullCheckPeriod : Nat := 10

def getStats (s : Server σ) (env : Env) : Server σ × Response :=
  match s.gWorkers with
  | none => (s, .running false none)
  | some pool =>
    let checks := s.statCheckCount % fullCheckPeriod = 0
    let s := if checks then { s with gWorkers := some (pool.isAlive env.aliveChecked) } else s
    match if checks then checkWorkers env.aliveChecked env.connection else none with
    | some e => (s, .running false e)
    | none =>
      let s := { s with statCheckCount := s.statCheckCount + 1 }
      match s.gWorkload with
      | none => (s, .internalError)
      | some g =>
        match g.entries.mapM fun x => (env.qpsArray x.1).map fun v => (x.1, max 0 v) with
        | some ret => (s, .stats ret)
        | none => (s, .internalError)

def getStatus (s : Server σ) (env : Env) : Server σ × Response :=
  match s.gWorkers with
  | none => (s, .running false none)
  | some pool =>
    let s := { s with gWorkers := some (pool.isAlive env.aliveChecked) }
    match checkWorkers env.aliveChecked env.connection with
    | some e => (s, .running false e)
    | none => (s, .running (!pool.paused) none)

/-! ## Runs -/

inductive Request (σ : Type) where
  | workload (form : Form σ) (env : Env)
  | pause (env : Env)
  | stats (env : Env)
  | status (env : Env)

def handle (s : Server σ) : Request σ → Server σ × Response
  | .workload form env => s.submitWorkload form env
  | .pause env => s.pause env
  | .stats env => s.getStats env
  | .status env => s.getStatus env

/-- One request. -/
def step (s : Server σ) (r : Request σ) : Option (Server σ) := some (s.handle r).1

/-- The server when it starts, with the settings of its command line. -/
def init (settings : σ) : Server σ :=
  { gWorkload := none, gWorkers := none, gSettings := some settings, statCheckCount := 0 }

end Server

end WorkloadSimulator.Stress
