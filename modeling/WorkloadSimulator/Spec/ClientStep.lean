import WorkloadSimulator.ForStd.List
import WorkloadSimulator.Page.Client

/-!
# What an event of the browser does

`Client.Moves` lists the events with their guards and the page they lead to, and
`Client.Receives` the ways in which `onWorkloadReceive` can end, so that proofs about the
page split into named cases and unfold neither `Client.step` nor the handlers.

## Key results

- `moves_of_step`: every step is one of the `Moves`
- `loadWidgets_eq`, `ids_loadWidgets`: the widgets of a workload that is loaded
- `receives`: every response to `/stats` is received in one of five ways
- `showStats_isSome_iff`: showing the rates ends without an exception exactly when every
  key has a widget
-/

namespace WorkloadSimulator.Client

variable {site : Site} {s s' : Client}

/-- `es` is a run of the page from its loading that reaches `s`. -/
abbrev Runs (site : Site) (dialMaxValue : Int)
    (cache : Option (AList fun _ : Nat => WidgetInfo)) (es : List Event) (s : Client) : Prop :=
  Machine.run (Client.step site) (init dialMaxValue cache) es = some s

/-! ## The steps -/

/-- The steps of the page in the state `s`. -/
inductive Moves (site : Site) (s : Client) : Event → Client → Prop where
  | newWidget : Moves site s .newWidget s.newWidget
  | editQuery {id : Nat} {w : Widget} (text : String)
      (hw : s.queryWidgetMap.get? id = some w) (hro : w.readOnly = false) :
      Moves site s (.editQuery id text)
        { s with queryWidgetMap := s.queryWidgetMap.modify id (.edit text) }
  | setDial {id : Nat} {w : Widget} (v : Int) (hw : s.queryWidgetMap.get? id = some w)
      (hro : w.dial.readOnly = false) :
      Moves site s (.setDial id v)
        { s with queryWidgetMap := s.queryWidgetMap.modify id (.turn v) }
  | closeWidget {id : Nat} {w : Widget} (hw : s.queryWidgetMap.get? id = some w) :
      Moves site s (.closeWidget id) { s with queryWidgetMap := s.queryWidgetMap.erase id }
  | clearWorkload : Moves site s .clearWorkload s.clearWorkload
  | upload (m : Int) (workload : AList fun _ : Nat => WidgetInfo) :
      Moves site s (.upload m workload) (s.handleUpload m workload)
  | dialMax (plus : Bool) : Moves site s (.dialMax plus) (s.updateDialValue plus)
  | click : Moves site s .click s.click
  | played {n : Nat} {workload : List (Nat × WidgetInfo)} (running : Bool)
      (hw : s.workloadRequests[n]? = some workload) :
      Moves site s (.played n running)
        ({ s with workloadRequests := s.workloadRequests.eraseIdx n }.onPlay workload running)
  | playError {n : Nat} (hn : n < s.workloadRequests.length) :
      Moves site s (.playError n)
        { s with workloadRequests := s.workloadRequests.eraseIdx n }
  | paused (running : Bool) (hp : 0 < s.pauseRequests) :
      Moves site s (.paused running)
        ({ s with pauseRequests := s.pauseRequests - 1 }.onPause running)
  | pauseError (hp : 0 < s.pauseRequests) :
      Moves site s .pauseError { s with pauseRequests := s.pauseRequests - 1 }
  | stats (data : StatsReply) (hs : 0 < s.statsRequests) :
      Moves site s (.stats data)
        ({ s with statsRequests := s.statsRequests - 1 }.onWorkloadReceive site data)
  | statsError (hs : 0 < s.statsRequests) :
      Moves site s .statsError { s with statsRequests := s.statsRequests - 1 }
  | timer (ht : 0 < s.timers) :
      Moves site s .timer
        { s with timers := s.timers - 1, statsRequests := s.statsRequests + 1 }
  | autoSave : Moves site s .autoSave s.cacheWorkload
  | save : Moves site s .save s

/-- Every step is one of the `Moves`. -/
theorem moves_of_step {e : Event} (h : s.step site e = some s') : Moves site s e s' := by
  cases e with
  | newWidget => obtain rfl := Option.some.inj h; exact .newWidget
  -- an action on a widget needs one that is there, and a dial that is not read-only
  | editQuery id text =>
    simp only [step] at h
    split at h
    · rename_i w hw
      split at h
      · cases h
      · rename_i hro; obtain rfl := Option.some.inj h; exact .editQuery text hw (by simpa using hro)
    · cases h
  | setDial id v =>
    simp only [step] at h
    split at h
    · rename_i w hw
      split at h
      · cases h
      · rename_i hro; obtain rfl := Option.some.inj h; exact .setDial v hw (by simpa using hro)
    · cases h
  | closeWidget id =>
    simp only [step] at h
    split at h
    · rename_i w hw; obtain rfl := Option.some.inj h; exact .closeWidget hw
    · cases h
  | clearWorkload => obtain rfl := Option.some.inj h; exact .clearWorkload
  | upload m workload => obtain rfl := Option.some.inj h; exact .upload m workload
  | dialMax plus => obtain rfl := Option.some.inj h; exact .dialMax plus
  | click => obtain rfl := Option.some.inj h; exact .click
  -- an answer needs the request that it answers
  | played n running =>
    simp only [step] at h
    split at h
    · rename_i hw; obtain rfl := Option.some.inj h; exact .played running hw
    · cases h
  | playError n =>
    simp only [step] at h
    split at h
    · rename_i hn; obtain rfl := Option.some.inj h; exact .playError hn
    · cases h
  | paused running =>
    simp only [step] at h
    split at h
    · rename_i hp; obtain rfl := Option.some.inj h; exact .paused running hp
    · cases h
  | pauseError =>
    simp only [step] at h
    split at h
    · rename_i hp; obtain rfl := Option.some.inj h; exact .pauseError hp
    · cases h
  | stats data =>
    simp only [step] at h
    split at h
    · rename_i hs; obtain rfl := Option.some.inj h; exact .stats data hs
    · cases h
  | statsError =>
    simp only [step] at h
    split at h
    · rename_i hs; obtain rfl := Option.some.inj h; exact .statsError hs
    · cases h
  | timer =>
    simp only [step] at h
    split at h
    · rename_i ht; obtain rfl := Option.some.inj h; exact .timer ht
    · cases h
  | autoSave => obtain rfl := Option.some.inj h; exact .autoSave
  | save => obtain rfl := Option.some.inj h; exact .save

/-! ## The widgets of a workload that is loaded -/

/-- The entries of a workload, by ascending key. -/
def ordered (workload : AList fun _ : Nat => WidgetInfo) : List WidgetInfo :=
  (List.range (workload.keys.foldl Max.max 0 + 1)).filterMap fun i => workload.lookup i

/-- A workload that is loaded has its entries by ascending key, numbered from zero on. -/
theorem loadWidgets_eq (m : Int) (workload : AList fun _ : Nat => WidgetInfo) :
    loadWidgets m workload = .ofList ((ordered workload).map (Widget.load m)) := by
  rw [← Numbered.foldl_add, List.foldl_map, ordered, List.foldl_filterMap, loadWidgets]
  congr 1
  funext ws i
  cases AList.lookup i workload <;> rfl

/-- Loading a workload makes one widget for each key. -/
theorem length_ordered (workload : AList fun _ : Nat => WidgetInfo) :
    (ordered workload).length = workload.keys.length := by
  -- a key is found exactly when it is there
  have hmem : ∀ i, (workload.lookup i).isSome = decide (i ∈ workload.keys) := by
    intro i
    rw [Bool.eq_iff_iff, AList.lookup_isSome, decide_eq_true_iff, AList.mem_keys]
  -- the loop goes as far as the greatest key
  have hlt : ∀ i ∈ workload.keys, i < workload.keys.foldl Max.max 0 + 1 :=
    fun i hi => Nat.lt_succ_of_le (List.le_foldl_max 0 (.inl hi))
  rw [ordered, List.length_filterMap_eq_countP]
  simp only [hmem]
  exact List.countP_range_mem workload.keys_nodup hlt

/-- A workload that is loaded has the numbers below its size. -/
theorem ids_loadWidgets (m : Int) (workload : AList fun _ : Nat => WidgetInfo) :
    (loadWidgets m workload).ids = List.range workload.keys.length := by
  rw [loadWidgets_eq, Numbered.ids_ofList, List.length_map, length_ordered]

/-! ## Responses to `/stats` -/

/-- The ways in which the page receives a response to `/stats`. -/
inductive Receives (site : Site) (s : Client) (data : StatsReply) : Client → Prop where
  /-- The button has been set to PLAY in the meantime. -/
  | ignored (hr : s.running = false) : Receives site s data s
  /-- The error of the response names a widget that is not there. -/
  | errorThrown (hr : s.running = true) (hd : data.running = false)
      (herr : data.error.any (createErrorThrows s.queryWidgetMap) = true) :
      Receives site s data s
  | stopped (hr : s.running = true) (hd : data.running = false)
      (herr : data.error.any (createErrorThrows s.queryWidgetMap) = false) :
      Receives site s data s.pause
  /-- A rate has no widget. -/
  | thrown {ws : Numbered Widget} (hr : s.running = true) (hd : data.running = true)
      (hshow : showStats data.stats.entries s.queryWidgetMap 0 = (ws, none)) :
      Receives site s data { s with queryWidgetMap := ws }
  | shown {ws : Numbered Widget} {total : ℚ} (hr : s.running = true) (hd : data.running = true)
      (hshow : showStats data.stats.entries s.queryWidgetMap 0 = (ws, some total)) :
      Receives site s data
        { s with
          queryWidgetMap := ws
          qpsGraph := s.qpsGraph ++ [total]
          rLagGraph := match site with
            | .app => s.rLagGraph ++ [totalRdone data.stats data.rdone]
            | .stress => s.rLagGraph
          timers := s.timers + 1 }

/-- Every response is received in one of these ways. -/
theorem receives (site : Site) (s : Client) (data : StatsReply) :
    Receives site s data (s.onWorkloadReceive site data) := by
  unfold onWorkloadReceive
  split
  · rename_i hr
    exact .ignored (by simpa using hr)
  · rename_i hr
    have hr : s.running = true := by simpa using hr
    split
    -- the server has stopped: its error is shown, where the site can show it
    · rename_i hd
      have hd : data.running = false := by simpa using hd
      split
      · rename_i herr
        exact .errorThrown hr hd herr
      · rename_i herr
        exact .stopped hr hd (by simpa using herr)
    · rename_i hd
      have hd : data.running = true := by simpa using hd
      split
      · rename_i hshow
        exact .thrown hr hd hshow
      · rename_i hshow
        exact .shown hr hd hshow

/-! ## Showing the rates -/

/-- Showing rates does not change which widgets there are. -/
theorem ids_showStats (stats : List (Sigma fun _ : String => ℚ)) (ws : Numbered Widget)
    (total : ℚ) : (showStats stats ws total).1.ids = ws.ids := by
  -- each rate changes one widget at most
  induction stats generalizing ws total with
  | nil => rfl
  | cons x stats ih =>
    rw [showStats]
    split
    · rw [ih, Numbered.ids_modify]
    · rfl

/-- The widget of a key depends on the numbers of the widgets only. -/
theorem widgetId?_congr {ws ws' : Numbered Widget} (h : ws.ids = ws'.ids) (i : String) :
    widgetId? ws i = widgetId? ws' i := by
  rw [widgetId?, widgetId?, h]

/-- Showing the rates ends without an exception exactly when every key has a widget. -/
theorem showStats_isSome_iff {stats : List (Sigma fun _ : String => ℚ)}
    {ws : Numbered Widget} {total : ℚ} :
    (showStats stats ws total).2.isSome = true ↔
      ∀ x ∈ stats, (widgetId? ws x.1).isSome = true := by
  induction stats generalizing ws total with
  | nil => simp [showStats]
  | cons x stats ih =>
    rw [showStats, List.forall_mem_cons]
    split
    · rename_i id hid
      rw [ih]
      -- the widgets that remain are the same ones
      simp only [widgetId?_congr (Numbered.ids_modify ws id _), hid, Option.isSome_some, true_and]
    · rename_i hid
      simp [hid]

end WorkloadSimulator.Client
