import WorkloadSimulator.Page.Client
import WorkloadSimulator.Stress.Server

/-!
# A page and its server

The index page of the stress tool (`static/js/stress.js`) together with `stress/server.py`. A
request of the page to `/workload`, `/pause` or `/stats` is handled when it reaches the server,
and its answer arrives at the page later, or not at all; requests overtake each other, and so do
answers. Other requests come from other pages, or are those that the page has given up.

When the page begins, the `/pause` at the end of its script has been handled: it is synchronous.
-/

namespace WorkloadSimulator.Stress

/-! ## What goes between them -/

/-- What the server has of an entry that is posted. The text of its rate is a whole number. -/
def postedEntry (x : Nat × WidgetInfo) : Posted :=
  { queryId := .ok x.1
    qps := .ok ⌊x.2.qps⌋
    qpsFloat := .ok ⌊x.2.qps⌋
    query := x.2.query }

/-- The request in which the entries of a workload come in this order. -/
def formOf {σ : Type} (order : List (Nat × WidgetInfo)) (settings : Except PyError σ) : Form σ :=
  ⟨some (order.map postedEntry), settings⟩

namespace Response

/-- `data['running']`, unless the status is 500. -/
def running? : Response → Option Bool
  | .running b _ => some b
  | .stats _ => some true
  | .internalError => none

/-- The page's data of a response to `/stats`, where `stats` are its rates in the order of
    `for … in`. -/
def statsReply? (stats : GoMap ℚ) : Response → Option StatsReply
  | .running b error =>
    some ⟨b, error.map fun e => ⟨e.n, e.queryMap.map fun x => toString x.1⟩, ∅, ∅⟩
  | .stats ret =>
    if stats.entries.Perm (ret.map fun x => ⟨toString x.1, x.2⟩) then some ⟨true, none, stats, ∅⟩
    else none
  | .internalError => none

end Response

/-! ## The two together -/

/-- For each request under way there is what the server has answered, or `none` as long as it
    has not reached the server. They are in the order of the page's requests. -/
structure PlaySession (σ : Type) where
  client : Client
  server : Server σ
  workloadAnswers : List (Option Response)
  pauseAnswers : List (Option Response)
  statsAnswers : List (Option Response)

namespace PlaySession

inductive Event (σ : Type) where
  /-- The user does something, or a timer fires. -/
  | browser (e : Client.Event)
  /-- The `n`-th of the requests to `/workload` reaches the server. -/
  | workload (n : Nat) (order : List (Nat × WidgetInfo)) (settings : Except PyError σ) (env : Env)
  | pause (n : Nat) (env : Env)
  | stats (n : Nat) (env : Env)
  /-- A request that the page does not wait for. -/
  | other (r : Server.Request σ)
  /-- The answer to the `n`-th of the requests to `/workload` reaches the page. -/
  | workloadAnswer (n : Nat)
  | pauseAnswer (n : Nat)
  | statsAnswer (n : Nat) (stats : GoMap ℚ)
  /-- The page gets no answer. -/
  | workloadFails (n : Nat)
  | pauseFails (n : Nat)
  | statsFails (n : Nat)

/-- What the browser does with an answer. -/
def isAnswer : Client.Event → Bool
  | .played _ _ | .playError _ | .paused _ | .pauseError | .stats _ | .statsError => true
  | _ => false

/-- Requests that are new have no answer. -/
def awaited (answers : List (Option Response)) (n : Nat) : List (Option Response) :=
  answers ++ List.replicate (n - answers.length) none

variable {σ : Type} [DecidableEq σ]

/-- The page has become `c`. -/
def browse (s : PlaySession σ) (c : Client) : PlaySession σ :=
  { s with
    client := c
    workloadAnswers := awaited s.workloadAnswers c.workloadRequests.length
    pauseAnswers := awaited s.pauseAnswers c.pauseRequests
    statsAnswers := awaited s.statsAnswers c.statsRequests }

def step (s : PlaySession σ) : Event σ → Option (PlaySession σ)
  | .browser e => if isAnswer e then none else (s.client.step .stress e).map s.browse
  | .workload n order settings env =>
    match s.client.workloadRequests[n]?, s.workloadAnswers[n]? with
    | some workload, some none =>
      if order.Perm workload then
        let x := s.server.submitWorkload (formOf order settings) env
        some { s with server := x.1, workloadAnswers := s.workloadAnswers.set n (some x.2) }
      else none
    | _, _ => none
  | .pause n env =>
    match s.pauseAnswers[n]? with
    | some none =>
      let x := s.server.pause env
      some { s with server := x.1, pauseAnswers := s.pauseAnswers.set n (some x.2) }
    | _ => none
  | .stats n env =>
    match s.statsAnswers[n]? with
    | some none =>
      let x := s.server.getStats env
      some { s with server := x.1, statsAnswers := s.statsAnswers.set n (some x.2) }
    | _ => none
  | .other r => some { s with server := (s.server.handle r).1 }
  | .workloadAnswer n =>
    match s.workloadAnswers[n]? with
    | some (some r) =>
      (s.client.step .stress (r.running?.elim (.playError n) (.played n))).map
        { s with workloadAnswers := s.workloadAnswers.eraseIdx n }.browse
    | _ => none
  | .pauseAnswer n =>
    match s.pauseAnswers[n]? with
    | some (some r) =>
      -- the page takes the answer as a text, which has no `running`
      (s.client.step .stress (r.running?.elim .pauseError fun _ => .paused false)).map
        { s with pauseAnswers := s.pauseAnswers.eraseIdx n }.browse
    | _ => none
  | .statsAnswer n stats =>
    match s.statsAnswers[n]? with
    | some (some r) => (r.statsReply? stats).bind fun data =>
      (s.client.step .stress (.stats data)).map
        { s with statsAnswers := s.statsAnswers.eraseIdx n }.browse
    | _ => none
  | .workloadFails n =>
    (s.client.step .stress (.playError n)).map
      { s with workloadAnswers := s.workloadAnswers.eraseIdx n }.browse
  | .pauseFails n =>
    if n < s.pauseAnswers.length then
      (s.client.step .stress .pauseError).map
        { s with pauseAnswers := s.pauseAnswers.eraseIdx n }.browse
    else none
  | .statsFails n =>
    if n < s.statsAnswers.length then
      (s.client.step .stress .statsError).map
        { s with statsAnswers := s.statsAnswers.eraseIdx n }.browse
    else none

/-- The page when it has loaded, with what its first `/pause` leaves of a server. -/
def init (dialMaxValue : Int) (cache : Option (AList fun _ : Nat => WidgetInfo))
    (server : Server σ) (env : Env) : PlaySession σ :=
  { client := .init dialMaxValue cache, server := (server.pause env).1
    workloadAnswers := [], pauseAnswers := [], statsAnswers := [] }

end PlaySession

end WorkloadSimulator.Stress
