import WorkloadSimulator.App.Types
import WorkloadSimulator.ForStd.Machine
import WorkloadSimulator.ForStd.Numbered
import WorkloadSimulator.Page.Dial

/-!
# The page in the browser

`stress.js`, `query_dial.js` and the workload part of `common.js`: the widgets, the play
button, and the requests and timers that are under way. The two servers deliver the same
page; only that of the Go app draws a second graph (`Site`).

`Client.step` is one event of the browser: something the user does, a response, or a timer.
Scripts run one at a time, so a run (`Machine.run (Client.step site)`) is any order of these
events, with responses to concurrent requests in any order. The widgets are those of `Page`
with the values of their dials (`Spec/PageWidgets`).
-/

namespace WorkloadSimulator

/-- The server whose page it is. -/
inductive Site where
  /-- `app/public/js`: the page draws completed requests as well. -/
  | app
  /-- `stress/static/js`. -/
  | stress
  deriving DecidableEq

/-- The `error` of a response: its number, and the widgets that its `query_map` names. -/
structure PageError where
  errno : Nat
  queryMap : List String

/-- A response to `/stats`. The entries of a map stand in the order of `for … in`. -/
structure StatsReply where
  running : Bool
  error : Option PageError
  stats : GoMap ℚ
  rdone : GoMap ℚ

/-- The page, with its requests under way and timers. `running` is the flag of the play
    button. A graph holds the points recorded, `none` for a point that is not a number.
    `played` holds the numbers of the widgets that were submitted by the last play that
    succeeded. -/
structure Client where
  queryWidgetMap : Numbered Widget
  dialMaxValue : Int
  dialValueEnabled : Bool
  running : Bool
  qpsGraph : List ℚ
  rLagGraph : List (Option ℚ)
  workloadCache : Option (List (Nat × WidgetInfo))
  /-- The requests to `/workload` without an answer, each with the workload posted. -/
  workloadRequests : List (List (Nat × WidgetInfo))
  pauseRequests : Nat
  statsRequests : Nat
  timers : Nat
  played : List Nat

namespace Client

/-! ## Widgets and workloads -/

/-- The widget under the key `i` of a response, `query_widget_map[i]`. -/
def widgetId? (ws : Numbered Widget) (i : String) : Option Nat :=
  ws.ids.find? fun id => itoa id == i

/-- `cacheWorkload`: every widget. -/
def allWidgets (ws : Numbered Widget) : List (Nat × WidgetInfo) :=
  ws.entries.map fun x => (x.1, x.2.info)

/-- `getWorkload`: the widgets with a text. -/
def getWorkload (s : Client) : List (Nat × WidgetInfo) :=
  (allWidgets s.queryWidgetMap).filter fun x => x.2.query != ""

def cacheWorkload (s : Client) : Client :=
  { s with workloadCache := some (allWidgets s.queryWidgetMap) }

/-- A click on `#new-widget`. -/
def newWidget (s : Client) : Client :=
  if s.running then s
  else { s with queryWidgetMap := s.queryWidgetMap.add (.new s.dialMaxValue) }

/-- `clearQueryWidgets`: every widget is deleted, and the counter goes back to zero. -/
def clearQueryWidgets (s : Client) : Client :=
  { s with queryWidgetMap := .empty }

/-- The widgets that `loadWorkload` makes, by ascending key. The keys are not kept. -/
def loadWidgets (dialMaxValue : Int) (workload : AList fun _ : Nat => WidgetInfo) :
    Numbered Widget :=
  let maxIndex := workload.keys.foldl Max.max 0
  (List.range (maxIndex + 1)).foldl
    (fun ws i => match workload.lookup i with
      | some entry => ws.add (.load dialMaxValue entry)
      | none => ws)
    .empty

def loadWorkload (s : Client) (workload : AList fun _ : Nat => WidgetInfo) : Client :=
  { s.clearQueryWidgets with queryWidgetMap := loadWidgets s.dialMaxValue workload }

def clearWorkload (s : Client) : Client :=
  { s.clearQueryWidgets with workloadCache := none }

/-- `reloadDialMaxValue`, which also makes the dials writable. -/
def reloadDialMaxValue (s : Client) : Client :=
  { s with queryWidgetMap := s.queryWidgetMap.map (Widget.reloadDial s.dialMaxValue) }

/-- The next multiple of 5000 above or below, or one in place of zero. -/
def nextDialMaxValue (dialMaxValue : Int) (plus : Bool) : Int :=
  let m := dialMaxValue + (5000 - 1)
  let m := m - m.tmod 5000
  let m := if plus then m + 5000 else m - 5000
  if m = 0 then 1 else m

def updateDialValue (s : Client) (plus : Bool) : Client :=
  if s.dialValueEnabled then
    { s with dialMaxValue := nextDialMaxValue s.dialMaxValue plus }.reloadDialMaxValue
  else s

/-- `handleUpload` of a well-formed file: its settings, of which `dial_max_value` is the
    one that matters here, and its workload. -/
def handleUpload (s : Client) (dialMaxValue : Int)
    (workload : AList fun _ : Nat => WidgetInfo) : Client :=
  ({ s with dialMaxValue }.reloadDialMaxValue.loadWorkload workload).cacheWorkload

/-! ## The play button -/

def freezeAllQueryWidgets (s : Client) : Client :=
  { s with queryWidgetMap := s.queryWidgetMap.map (Widget.freeze s.dialMaxValue) }

def unfreezeAllQueryWidgets (s : Client) : Client :=
  { s with queryWidgetMap := s.queryWidgetMap.map (Widget.unfreeze s.dialMaxValue) }

/-- `updateWorkloadLoop`: a request to `/stats`. -/
def updateWorkloadLoop (s : Client) : Client :=
  { s with statsRequests := s.statsRequests + 1 }

/-- `resetButton`: the polling starts where the button becomes PAUSE. -/
def resetButton (s : Client) : Client :=
  if s.running then s.updateWorkloadLoop else s

/-- `play`: a request to `/workload`. -/
def play (s : Client) : Client :=
  { s with workloadRequests := s.workloadRequests ++ [s.getWorkload] }

/-- `pause`: a request to `/pause`. -/
def pause (s : Client) : Client :=
  { s with pauseRequests := s.pauseRequests + 1 }

/-- A click on the button. -/
def click (s : Client) : Client :=
  if s.running then s.pause else s.play

/-- The success handler of `play`, for the workload that was posted. The error of the
    response is shown last, so nothing depends on it. -/
def onPlay (s : Client) (workload : List (Nat × WidgetInfo)) (running : Bool) : Client :=
  if running then
    { { s with running := true, qpsGraph := [] }.freezeAllQueryWidgets with
      dialValueEnabled := false
      played := workload.map Prod.fst }.resetButton
  -- the dials stay as they are
  else { s with running := false }

/-- The success handler of `pause`. -/
def onPause (s : Client) (running : Bool) : Client :=
  if running then s
  else { { s with running := false }.unfreezeAllQueryWidgets with
    dialValueEnabled := true }.resetButton

/-! ## The responses to `/stats` -/

/-- Whether `createError` ends with an exception: a query error names a widget that is not
    there. -/
def createErrorThrows (ws : Numbered Widget) (err : PageError) : Bool :=
  err.errno == 4 && err.queryMap.any fun i => (widgetId? ws i).isNone

/-- The loop over `stats` that shows each rate on its widget and adds up the rates. It ends
    with an exception, without a total, at the first key that has no widget. -/
def showStats : List (Sigma fun _ : String => ℚ) → Numbered Widget → ℚ →
    Numbered Widget × Option ℚ
  | [], ws, total => (ws, some total)
  | ⟨i, qps⟩ :: stats, ws, total =>
    match widgetId? ws i with
    | some id => showStats stats (ws.modify id (Widget.setDialValue qps)) (total + qps)
    | none => (ws, none)

/-- The loop over `rdone`. What it adds in each pass is the entry under `i`, the last key
    of the loop before. -/
def totalRdone (stats rdone : GoMap ℚ) : Option ℚ :=
  let i := stats.keys.getLast?.getD "undefined"
  rdone.keys.foldl (fun total _ => total.bind fun t => (rdone.lookup i).map fun n => t + n)
    (some 0)

variable (site : Site)

/-- `onWorkloadReceive`. -/
def onWorkloadReceive (s : Client) (data : StatsReply) : Client :=
  if !s.running then s
  else if !data.running then
    if data.error.any (createErrorThrows s.queryWidgetMap) then s else s.pause
  else match showStats data.stats.entries s.queryWidgetMap 0 with
    -- the exception leaves the rates shown so far
    | (ws, none) => { s with queryWidgetMap := ws }
    | (ws, some totalQps) =>
      { s with
        queryWidgetMap := ws
        qpsGraph := s.qpsGraph ++ [totalQps]
        rLagGraph := match site with
          | .app => s.rLagGraph ++ [totalRdone data.stats data.rdone]
          | .stress => s.rLagGraph
        timers := s.timers + 1 }

/-! ## Events -/

/-- The events of the browser. -/
inductive Event where
  | newWidget
  | editQuery (id : Nat) (text : String)
  /-- The user sets the dial of a widget. -/
  | setDial (id : Nat) (v : Int)
  | closeWidget (id : Nat)
  /-- The dialog of the clear button is confirmed. -/
  | clearWorkload
  | upload (dialMaxValue : Int) (workload : AList fun _ : Nat => WidgetInfo)
  /-- A click on `#dial-up` or `#dial-down`. -/
  | dialMax (plus : Bool)
  /-- A click on the play button. -/
  | click
  /-- An answer to the `n`-th of the requests to `/workload` under way. -/
  | played (n : Nat) (running : Bool)
  | playError (n : Nat)
  | paused (running : Bool)
  | pauseError
  | stats (data : StatsReply)
  | statsError
  /-- The 100 ms are over. -/
  | timer
  /-- `autoSave(cacheWorkload)`: every second and at every click. -/
  | autoSave
  | save

def step (s : Client) : Event → Option Client
  | .newWidget => some s.newWidget
  | .editQuery id text =>
    match s.queryWidgetMap.get? id with
    | some w => if w.readOnly then none
      else some { s with queryWidgetMap := s.queryWidgetMap.modify id (Widget.edit text) }
    | none => none
  | .setDial id v =>
    match s.queryWidgetMap.get? id with
    | some w => if w.dial.readOnly then none
      else some { s with queryWidgetMap := s.queryWidgetMap.modify id (Widget.turn v) }
    | none => none
  | .closeWidget id =>
    match s.queryWidgetMap.get? id with
    | some _ => some { s with queryWidgetMap := s.queryWidgetMap.erase id }
    | none => none
  | .clearWorkload => some s.clearWorkload
  | .upload dialMaxValue workload => some (s.handleUpload dialMaxValue workload)
  | .dialMax plus => some (s.updateDialValue plus)
  | .click => some s.click
  | .played n running =>
    match s.workloadRequests[n]? with
    | some workload => some ({ s with
        workloadRequests := s.workloadRequests.eraseIdx n }.onPlay workload running)
    | none => none
  | .playError n =>
    if n < s.workloadRequests.length then
      some { s with workloadRequests := s.workloadRequests.eraseIdx n }
    else none
  | .paused running =>
    if 0 < s.pauseRequests then
      some ({ s with pauseRequests := s.pauseRequests - 1 }.onPause running)
    else none
  | .pauseError =>
    if 0 < s.pauseRequests then some { s with pauseRequests := s.pauseRequests - 1 } else none
  | .stats data =>
    if 0 < s.statsRequests then
      some ({ s with statsRequests := s.statsRequests - 1 }.onWorkloadReceive site data)
    else none
  | .statsError =>
    if 0 < s.statsRequests then some { s with statsRequests := s.statsRequests - 1 } else none
  | .timer =>
    if 0 < s.timers then some { s with timers := s.timers - 1 }.updateWorkloadLoop else none
  | .autoSave => some s.cacheWorkload
  | .save => some s

/-- The page when it has loaded, with the workload in the cache or with one new widget. The
    `pause` at the end of the page's script is synchronous and changes nothing here. -/
def init (dialMaxValue : Int) (cache : Option (AList fun _ : Nat => WidgetInfo)) : Client :=
  { queryWidgetMap := match cache with
      | some workload => loadWidgets dialMaxValue workload
      | none => Numbered.empty.add (.new dialMaxValue)
    dialMaxValue, dialValueEnabled := true, running := false, qpsGraph := [], rLagGraph := []
    workloadCache := none, workloadRequests := [], pauseRequests := 0, statsRequests := 0
    timers := 0, played := [] }

end Client

end WorkloadSimulator
