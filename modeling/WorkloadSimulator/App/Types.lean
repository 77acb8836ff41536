import Mathlib

/-!
# Data of the load generator

The structures of `app/worker.go`, `app/stats.go` and `app/handlers.go` that the
goroutines and the handlers pass around. A Go map is an association list without
duplicate keys; Go ranges over a map in an unspecified order, and nothing below depends
on the one the list has. Counters are natural numbers; durations are in milliseconds.
-/

namespace WorkloadSimulator

/-- A Go `map[string]β`. -/
abbrev GoMap (β : Type) := AList fun _ : String => β

/-- What `json.Unmarshal` leaves in the variable it decodes into, and whether it
    returned an error. -/
structure Decoded (α : Type) where
  val : α
  err : Bool

/-! ## Work and statistics -/

/-- A value of the type `interface{}` as `json.Unmarshal` makes one: every number is a
    `float64`. The entries of a `map[string]interface{}` have keys of their own. -/
inductive GoValue where
  | nil
  | bool (b : Bool)
  | float64 (x : Float.Model)
  | string (s : String)
  | slice (items : List GoValue)
  | map (entries : List (String × GoValue))

/-- The work of one worker (`worker.go`). -/
structure Workload where
  dt : Nat
  batchId : String
  workerId : Nat
  opsHost : String
  apiKey : String
  user : String
  nrequests : Int
  modelId : String
  modelName : String
  modelInput : GoMap GoValue

/-- Request statistics that a worker sends to the `StatsMonitor`. -/
structure Stat where
  workload : Workload
  nreqSent : Nat
  nreqDone : Nat

structure Metric where
  reqSent : Nat
  reqComplete : Nat
  reqPerSec : Nat

/-- What the `StatsMonitor` hands to `/stats`. The two maps travel as JSON text, which
    `handleStats` decodes to the same maps; here they are the maps themselves. -/
structure Report where
  batchId : String
  modelName : String
  modelId : String
  opsHost : String
  user : String
  requestPerS : GoMap Nat
  requestLagDone : GoMap Nat
  requestSent : Nat
  requestDone : Nat

/-- One row of a report file. -/
structure CsvMetric where
  ts : Nat
  batchId : String
  opsHost : String
  opsUser : String
  opsModelName : String
  nWorkers : Int
  reqSent : Nat
  reqComplete : Nat
  reqPerSec : Nat

/-! ## Requests to `/workload` -/

/-- The `Query` text of a widget, decoded. -/
structure QueryData where
  Model : String
  Input : GoMap GoValue

/-- One entry of the posted workload: the outcome of decoding its `Query` text, and its
    `QPS` text. -/
structure ModelData where
  Query : Decoded QueryData
  QPS : String

structure Settings where
  OpsHost : String
  ApiKey : String
  User : String
  MaxDialVal : Int
  Workers : String

structure ModelInput where
  name : String
  input : GoMap GoValue
  qps : Int

/-- The form values of a `/workload` request after decoding. The entries stand in the
    order in which `handleWorkload` ranges over them. -/
structure WorkloadForm where
  post : Bool
  workload : Decoded (List (String × ModelData))
  settings : Decoded Settings

/-- The bodies that the handlers write. -/
inductive Response where
  /-- `{"running": b}` -/
  | running (b : Bool)
  /-- `{"running": true, "stats": …, "rdone": …}` -/
  | stats (stats rdone : GoMap Nat)
  /-- `http.Error` -/
  | error (msg : String) (status : Nat)
  | ok

/-! ## Numbers in decimal -/

/-- The value of a digit. -/
def digit? (c : Char) : Option Nat :=
  if '0' ≤ c ∧ c ≤ '9' then some (c.toNat - '0'.toNat) else none

/-- The value of a nonempty list of digits. -/
def digits? : List Char → Option Nat
  | [] => none
  | c :: cs => cs.foldl (fun acc d => acc.bind fun n => (digit? d).map (10 * n + ·)) (digit? c)

/-- `strconv.Atoi`: an optional sign and digits, for an `int` of 64 bits. -/
def atoi (s : String) : Option Int :=
  let value : Option Int := match s.toList with
    | '-' :: cs => (digits? cs).map fun n => -(n : Int)
    | '+' :: cs => (digits? cs).map fun n => (n : Int)
    | cs => (digits? cs).map fun n => (n : Int)
  value.filter fun v => -2 ^ 63 ≤ v ∧ v < 2 ^ 63

/-- `strconv.Itoa` on a natural number. -/
def itoa (n : Nat) : String := Nat.repr n

example : atoi "-12" = some (-12) := by decide
example : atoi "9223372036854775808" = none := by decide
example : atoi "1 2" = none := by decide

end WorkloadSimulator
