import WorkloadSimulator.ForStd.Decimal
import WorkloadSimulator.Page.Client

/-!
# Saving and loading on the page

`cacheWorkload`, the save button and `handleUpload` in `common.js` and `stress.js`, with the
settings that go into a file. `JSON.stringify` writes the ids as keys, and the server and the
cache give the entries back in any order.

`getSettings` returns `g_settings`, which `updateSettings` makes anew: when the settings form is
closed and when settings are loaded. Of the settings only `dial_max_value` matters here.
-/

namespace WorkloadSimulator

/-! ## Objects -/

/-- A workload as an object of JavaScript. -/
abbrev SavedObject := AList fun _ : String => WidgetInfo

/-- The entries of the object that is made of a workload. -/
def toObject (workload : List (Nat × WidgetInfo)) : List (Sigma fun _ : String => WidgetInfo) :=
  workload.map fun x => ⟨itoa x.1, x.2⟩

/-- The number of a key, for `Math.max`. -/
def keyNumber (i : String) : Nat := Nat.ofDigitChars 10 i.toList 0

namespace Client

/-- The widgets that `loadWorkload` makes of an object. -/
def loadObject (dialMaxValue : Int) (workload : SavedObject) : Numbered Widget :=
  let maxIndex := (workload.keys.map keyNumber).foldl max 0
  (List.range (maxIndex + 1)).foldl
    (fun ws i => match workload.lookup (itoa i) with
      | some entry => ws.add (.load dialMaxValue entry)
      | none => ws)
    .empty

end Client

/-! ## The page and its settings -/

/-- The page with the `dial_max_value` of `g_settings`. -/
structure StressPage where
  client : Client
  settingsDialMax : Int

namespace StressPage

inductive Event where
  | client (e : Client.Event)
  /-- The settings form is closed. -/
  | settingsUpdated

/-- The settings after an event of the page. -/
def nextSettings (p : StressPage) : Client.Event → Int
  | .upload dialMaxValue _ => dialMaxValue
  | _ => p.settingsDialMax

def step (p : StressPage) : Event → Option StressPage
  | .client e => (p.client.step .stress e).map fun client =>
      { client, settingsDialMax := p.nextSettings e }
  | .settingsUpdated => some { p with settingsDialMax := p.client.dialMaxValue }

/-- The page when it has loaded its settings and its workload. -/
def init (dialMaxValue : Int) (cache : Option (AList fun _ : Nat => WidgetInfo)) : StressPage :=
  { client := .init dialMaxValue cache, settingsDialMax := dialMaxValue }

/-- A file has the settings and the workload of the page. -/
structure SessionFile where
  dialMaxValue : Int
  workload : List (Sigma fun _ : String => WidgetInfo)

/-- What the save button sends to `/save`. -/
def save (p : StressPage) : SessionFile :=
  { dialMaxValue := p.settingsDialMax, workload := toObject p.client.getWorkload }

end StressPage

end WorkloadSimulator
