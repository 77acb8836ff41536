import WorkloadSimulator.App.Stats
import WorkloadSimulator.App.Worker

/-!
# The request handlers

The handlers of `app/handlers.go` that work on the shared state. A handler is cut at the
points where other goroutines can see or change what it does: it reads the request, then
it goes from one `Handler` to the next by the steps of the app (`App.step`).
-/

namespace WorkloadSimulator

/-- A request to one of the endpoints that work on the shared state. -/
inductive Request where
  | workload (form : WorkloadForm)
  | pause
  | kill
  | stats

/-- A handler in progress, with the local variables it still needs. `out` is what the
    handler has written to its response so far. -/
inductive Handler where
  /-- `handleWorkload` has built `wrk`. -/
  | parsed (settings : Settings) (wrk : GoMap ModelInput) (out : List Response)
  /-- `handleWorkload` has installed the report file. -/
  | opened (settings : Settings) (wrk : GoMap ModelInput) (batchId : String)
      (out : List Response)
  /-- `handleWorkload` has launched `i` of `nw` workers. -/
  | launching (settings : Settings) (wrk : GoMap ModelInput) (batchId : String)
      (nw : Int) (i : Nat) (out : List Response)
  /-- `handlePause` (which closes the report file) or `handleKill` has `left` kills to
      send. -/
  | killing (closes : Bool) (left : Nat)
  /-- `handleStats` is at its `select`. -/
  | polling
  /-- `handleStats` has built its records. -/
  | writing (records : List CsvMetric) (resp : Response)
  /-- The handler has returned. -/
  | done (out : List Response)
  /-- The handler has panicked. -/
  | panicked (out : List Response)

namespace Handler

/-- Whether the handler has not ended. -/
def active : Handler → Bool
  | .done _ => false
  | .panicked _ => false
  | _ => true

/-- The kills that the handler has still to send. -/
def kills : Handler → Nat
  | .killing _ left => left
  | _ => 0

/-- The workers that the handler has still to launch. -/
def launches : Handler → Nat
  | .launching _ _ _ nw i _ => (nw - i).toNat
  | _ => 0

/-- Whether the handler waits for a `Report`. -/
def waits : Handler → Bool
  | .polling => true
  | _ => false

/-- Whether the handler is about to write the rows of a `Report`. -/
def writes : Handler → Bool
  | .writing _ (.stats _ _) => true
  | _ => false

@[simp] theorem launches_done (out : List Response) : (done out).launches = 0 := rfl
@[simp] theorem launches_killing (c : Bool) (n : Nat) : (killing c n).launches = 0 := rfl
@[simp] theorem kills_killing (c : Bool) (n : Nat) : (killing c n).kills = n := rfl

/-- A handler that has ended launches no more workers. -/
theorem launches_of_not_active {x : Handler} (h : x.active = false) : x.launches = 0 := by
  cases x <;> simp_all [active, launches]

/-- A handler that writes rows has a report, and not a timeout. -/
theorem writes_iff {x : Handler} :
    x.writes = true ↔ ∃ records rates lag, x = .writing records (.stats rates lag) := by
  unfold writes
  split <;> simp_all

end Handler

/-! ## `handleWorkload` -/

/-- The loop over the posted entries that builds `wrk`, with what it writes to the
    response. A malformed `Query` text is answered and then used as far as it was
    decoded; a malformed `QPS` text ends the request. -/
def buildWork : List (String × ModelData) → GoMap ModelInput → List Response →
    Option (GoMap ModelInput) × List Response
  | [], wrk, out => (some wrk, out)
  | (k, v) :: work, wrk, out =>
    let out := if v.Query.err then out ++ [.running false] else out
    match atoi v.QPS with
    -- the request ends here, with what has been written so far
    | none => (none, out)
    | some iqps => buildWork work (wrk.insert k ⟨v.Query.val.Model, v.Query.val.Input, iqps⟩) out

/-- `handleWorkload` up to the point where it opens the report file. -/
def readForm (form : WorkloadForm) : Handler :=
  if form.post then
    if form.workload.err then .done []
    -- malformed settings are logged and then used
    else match buildWork form.workload.val ∅ [] with
      | (none, out) => .done out
      | (some wrk, out) => .parsed form.settings.val wrk out
  -- the `default` branch falls through to the response
  else .done [.error "I only respond to POSTs." 501, .running true]

/-- A `/workload` handler that has not ended has built its workload. -/
theorem readForm_cases (form : WorkloadForm) :
    (∃ settings wrk out, readForm form = .parsed settings wrk out) ∨
      ∃ out, readForm form = .done out := by
  unfold readForm
  split
  · split
    · exact .inr ⟨_, rfl⟩
    · split
      · exact .inr ⟨_, rfl⟩
      · exact .inl ⟨_, _, _, rfl⟩
  · exact .inr ⟨_, rfl⟩

/-- The number of windows in the workload, `len(wrk)`. -/
def workCount (wrk : GoMap ModelInput) : Nat := wrk.keys.length

/-- The workload of the `i`-th worker of a batch, for a model of the batch. -/
def workerWorkload (settings : Settings) (batchId : String) (i : Nat) (modelId : String)
    (model : ModelInput) : Workload :=
  { dt := 500
    batchId
    workerId := i
    opsHost := settings.OpsHost
    apiKey := settings.ApiKey
    user := settings.User
    nrequests := model.qps
    modelId
    modelName := model.name
    modelInput := model.input }

/-- The name of the report file of a batch. -/
def reportName (reportDir batchId : String) : String :=
  reportDir ++ "/" ++ "workload_data_" ++ batchId

/-! ## `handleStats` -/

/-- The row for one entry `k ↦ v` of the report's rates. -/
def csvRow (ts : Nat) (nWorkers : Int) (r : Report) (v : Nat) : CsvMetric :=
  { ts
    batchId := r.batchId
    opsHost := r.opsHost
    opsUser := r.user
    opsModelName := r.modelName
    nWorkers
    reqSent := r.requestSent
    reqComplete := r.requestDone
    reqPerSec := v }

/-- The rows for a report, one for each model in its rates. -/
def csvRows (ts : Nat) (nWorkers : Int) (r : Report) : List CsvMetric :=
  r.requestPerS.entries.map fun entry => csvRow ts nWorkers r entry.2

@[simp] theorem csvRow_batchId (ts : Nat) (nw : Int) (r : Report) (v : Nat) :
    (csvRow ts nw r v).batchId = r.batchId := rfl

@[simp] theorem csvRow_opsModelName (ts : Nat) (nw : Int) (r : Report) (v : Nat) :
    (csvRow ts nw r v).opsModelName = r.modelName := rfl

/-- Every row of a report carries the report's batch. -/
theorem batchId_of_mem_csvRows {ts : Nat} {nw : Int} {r : Report} {row : CsvMetric}
    (h : row ∈ csvRows ts nw r) : row.batchId = r.batchId := by
  obtain ⟨entry, -, rfl⟩ := List.mem_map.mp h
  rfl

end WorkloadSimulator
