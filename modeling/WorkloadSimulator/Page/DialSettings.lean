import WorkloadSimulator.ForStd.JsNumber
import WorkloadSimulator.Page.Client

/-!
# The maximum of the dials and the settings

`dial_max_value` in `common.js`, `query_dial.js` and `stress.js` (`app/public/js`), and in the
page that loads them. It is a number of JavaScript, and it goes into `g_settings`, from there
as a JSON text into the cache of the browser or into a file, and back. JSON has no `NaN` and
no infinities, and leaves out what is undefined. Of the settings only `dial_max_value` is kept
here; that of `g_settings` is only as new as the last `updateSettings`.

The Go app has no settings for its page: it puts a `g_settings` without `dial_max_value` into
it. Its `/save` makes no file.
-/

namespace WorkloadSimulator

/-- What `dial_max_value` can be. -/
inductive JsValue where
  | undefined
  | null
  | number (x : JsNumber)

namespace JsValue

/-- The number as which a value is added. -/
def toNumber : JsValue → JsNumber
  | .undefined => .nan
  | .null => .ofInt 0
  | .number x => x

/-- A value that is written and read as the value of a key in a JSON text. -/
def json : JsValue → JsValue
  | .number (.int n h) => .number (.int n h)
  | .number _ => .null
  | v => v

end JsValue

/-- The `dial_max_value` of the page, of `g_settings`, of the cache and of the files saved. -/
structure DialSettings where
  dialMaxValue : JsValue
  gSettings : JsValue
  settingsCache : Option JsValue
  files : List JsValue
  dialValueEnabled : Bool

namespace DialSettings

variable (site : Site)

def updateSettings (s : DialSettings) : DialSettings := { s with gSettings := s.dialMaxValue }

/-- `JSON.stringify(getSettings())` is put into `localStorage`. -/
def cacheSettings (s : DialSettings) : DialSettings :=
  { s with settingsCache := some s.gSettings.json }

/-- A click on `#save-workload`. -/
def saveWorkload (s : DialSettings) : DialSettings :=
  match site with
  | .app => s
  | .stress => { s with files := s.files ++ [s.gSettings.json] }

def loadSettings (s : DialSettings) (dialMaxValue : JsValue) : DialSettings :=
  { s with dialMaxValue }.updateSettings

def loadCachedSettings (s : DialSettings) : DialSettings :=
  match s.settingsCache with
  | some settings => s.loadSettings settings
  | none => s

/-- `handleUpload`, for a file that the page has saved. -/
def handleUpload (s : DialSettings) (settings : JsValue) : DialSettings :=
  (s.loadSettings settings).cacheSettings

/-- `g_settings` as the page is delivered, when `dial_max_value` has this value. -/
def deliveredSettings (dialMaxValue : JsValue) : JsValue :=
  match site with
  | .app => .undefined
  | .stress => dialMaxValue

/-- The page is loaded again. -/
def reload (s : DialSettings) : DialSettings :=
  { s with
    dialMaxValue := .number (.ofInt 10000)
    gSettings := deliveredSettings site (.number (.ofInt 10000))
    dialValueEnabled := true }.loadCachedSettings

/-- The next multiple of 5000 above or below, or one in place of zero. -/
def nextDialMaxValue (x : JsNumber) (plus : Bool) : JsNumber :=
  let x := x.add (.ofInt (5000 - 1))
  let x := x.sub (x.rem (.ofInt 5000))
  let x := if plus then x.add (.ofInt 5000) else x.sub (.ofInt 5000)
  if x.eq (.ofInt 0) then .ofInt 1 else x

def updateDialValue (s : DialSettings) (plus : Bool) : DialSettings :=
  if !s.dialValueEnabled then s
  else { s with dialMaxValue := .number (nextDialMaxValue s.dialMaxValue.toNumber plus) }

def setMaxDialValue (s : DialSettings) (v : String) : DialSettings :=
  let vInt := JsNumber.parseInt v
  if vInt.eq .nan then s else { s with dialMaxValue := .number vInt }

inductive Event where
  | updateDialValue (plus : Bool)
  | setMaxDialValue (v : String)
  /-- The settings form is closed. -/
  | settingsUpdated
  /-- `autoSave(cacheSettings)`: every second and at every click. -/
  | cacheSettings
  | saveWorkload
  /-- The `n`-th of the files saved is loaded. -/
  | upload (n : Nat)
  | reload
  /-- `activateDialValue` or `deactivateDialValue`. -/
  | enable (enabled : Bool)

def step (s : DialSettings) : Event → Option DialSettings
  | .updateDialValue plus => some (s.updateDialValue plus)
  | .setMaxDialValue v => some (s.setMaxDialValue v)
  | .settingsUpdated => some s.updateSettings
  | .cacheSettings => some s.cacheSettings
  | .saveWorkload => some (s.saveWorkload site)
  | .upload n => s.files[n]?.map s.handleUpload
  | .reload => some (s.reload site)
  | .enable enabled => some { s with dialValueEnabled := enabled }

/-- The page with the maximum `x`, and nothing saved. -/
def init (x : JsNumber) : DialSettings :=
  { dialMaxValue := .number x, gSettings := deliveredSettings site (.number x)
    settingsCache := none, files := [], dialValueEnabled := true }

end DialSettings

end WorkloadSimulator
