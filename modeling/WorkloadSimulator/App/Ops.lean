import WorkloadSimulator.App.System

/-!
# Predictions

`Workload.Predict` and `opsPredictHTTP` of `app/worker.go`. A prediction is made by
`json.Marshal`, `http.NewRequest` and `http.DefaultClient.Do`, one after the other, and each
of them may fail. The first two are functions of their arguments and come as a parameter, as
`App.Library`; what the network does is part of the event in which a prediction ends.

`App.stepOps` is the app whose predictions are made by this code: its other events are those
of `App.step`.
-/

namespace WorkloadSimulator

/-- How a call of Go code ends: without an error, with one, or in `log.Fatal`. -/
inductive Outcome where
  | ok
  | error (msg : String)
  | fatal (msg : String)
  deriving DecidableEq

/-- The worker's view of it. -/
def Outcome.result : Outcome → PredictResult
  | .ok => .ok
  | .error _ => .error
  | .fatal _ => .fatal

/-- A `POST` request for a prediction. -/
structure OpsRequest where
  url : String
  username : String
  apikey : String
  contentType : String
  body : String

/-- The functions of the standard library that `opsPredictHTTP` prepares its request with. -/
structure App.Library where
  /-- `json.Marshal`: the text of the input, or an error. -/
  marshal : GoMap GoValue → Except String String
  /-- `http.NewRequest` of a `POST` to the URL: its error, if it returns one. -/
  newRequest : String → Option String

/-- What `http.DefaultClient.Do` makes of a request: its error, if it returns one. -/
abbrev Network := OpsRequest → Option String

/-- The URL that `opsPredictHTTP` posts to. -/
def opsURL (username model host : String) : String :=
  host ++ "/" ++ username ++ "/models/" ++ model ++ "/"

/-- `opsPredictHTTP`, but for the response, which its caller drops. -/
def opsPredictHTTP (lib : App.Library) (network : Network)
    (username model apikey host : String) (input : GoMap GoValue) : Outcome :=
  let url := opsURL username model host
  match lib.marshal input with
  | .error err => .error ("could not josn marshal input data: " ++ err ++ "\n")
  | .ok sinput =>
    match lib.newRequest url with
    -- `log.Fatal(err)`, where the failures before and after return an error
    | some err => .fatal err
    | none =>
      match network ⟨url, username, apikey, "application/json", sinput⟩ with
      | some err => .error ("ops prediction request failed: " ++ err)
      | none => .ok

/-- `w.Predict()`. -/
def Workload.predict (lib : App.Library) (network : Network) (w : Workload) : Outcome :=
  match opsPredictHTTP lib network w.user w.modelName w.apiKey w.opsHost w.modelInput with
  | .error err => .error ("yhat prediction failed: " ++ err)
  | o => o

/-- The steps of the app whose predictions are made by `Workload.predict`. -/
inductive OpsEvent where
  /-- The prediction of the worker `w` ends. -/
  | predict (w : Nat) (network : Network)
  /-- Anything else. -/
  | other (e : Event)

/-- Whether a prediction ends in the event. -/
def Event.predicts : Event → Bool
  | .worker _ (.predict _) => true
  | _ => false

namespace App

/-- The event that it is for `App.step`, which knows only how a prediction ends. -/
def resolve (lib : Library) (s : App) : OpsEvent → Option Event
  | .predict w network =>
    (s.workers[w]?).map fun wk => .worker w (.predict (wk.w.predict lib network).result)
  | .other e => if e.predicts then none else some e

/-- One step of the app with its predictions. -/
def stepOps (lib : Library) (s : App) (e : OpsEvent) : Option App :=
  (s.resolve lib e).bind s.step

end App

end WorkloadSimulator
