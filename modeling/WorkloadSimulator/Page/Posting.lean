import WorkloadSimulator.ForStd.FormUrl
import WorkloadSimulator.ForStd.JsonWriters
import WorkloadSimulator.Page.SavedSession
import WorkloadSimulator.Page.Widgets

/-!
# The texts of the page

What `stress.js` and `common.js` send, the body that the play button posts to `/workload` and
the query of `/save`, and what they read of a file. `JSON.stringify` writes the members of a
workload in the order of their ids.
-/

namespace WorkloadSimulator

/-- `JSON.stringify` -/
def stringify (v : Json) : List Char := Json.print Json.jsStyle v

/-- The member of a workload for a widget. -/
def entryJson (x : String × QueryWidget) : List Char × Json :=
  (x.1.toList, .obj [("query".toList, .str x.2.query.toList), ("qps".toList, .str x.2.qps.toList)])

/-- A workload as an object. -/
def workloadJson (workload : List (String × QueryWidget)) : Json := .obj (workload.map entryJson)

/-- The properties that the page sends. -/
def postedFields (workload : List (String × QueryWidget)) (settings : Json) :
    List (List Char × List Char) :=
  [("workload".toList, stringify (workloadJson workload)),
    ("settings".toList, stringify settings)]

/-- The body of the request to `/workload`. -/
def playBody (workload : List (String × QueryWidget)) (settings : Json) : List Char :=
  FormUrl.param (postedFields workload settings)

/-- What stands behind `/save?`. -/
def saveQuery (workload : List (String × QueryWidget)) (settings : Json) : List Char :=
  "settings=".toList ++ FormUrl.encodeURIComponent (stringify settings) ++ "&workload=".toList ++
    FormUrl.encodeURIComponent (stringify (workloadJson workload))

/-- An entry of a workload with its texts: `attr('value')` of a dial is a whole number. -/
def WidgetInfo.texts (entry : WidgetInfo) : QueryWidget :=
  ⟨entry.query, itoa ⌊entry.qps⌋.toNat⟩

/-- `getWorkload()` with the texts of the widgets. -/
def Client.postedWorkload (s : Client) : List (String × QueryWidget) :=
  s.getWorkload.map fun x => (itoa x.1, x.2.texts)

/-- `g_settings`, after `dial_max_value` has been set: the values before are those that the page
    was delivered with, of any type, or those of `updateSettings`. -/
def settingsJson (values : List (List Char × Json)) (dialMaxValue : Int) : List (List Char × Json) :=
  Json.items (values ++ [("dial_max_value".toList, .ofInt dialMaxValue)])

/-- The values that `updateSettings` takes from the inputs of the settings form. -/
def inputsJson (inputs : List (String × String)) : List (List Char × Json) :=
  inputs.map fun x => (x.1.toList, .str x.2.toList)

/-! ## Files -/

/-- The settings and the workload of a file, if they are objects. -/
def readSessionFile (contents : List Char) :
    Option (List (List Char × Json) × List (List Char × Json)) :=
  match Json.decode contents with
  | some (.obj members) =>
    match Json.get? members "settings".toList, Json.get? members "workload".toList with
    | some (.obj settings), some (.obj workload) => some (settings, workload)
    | _, _ => none
  | _ => none

/-- A rate, as a text or a number. -/
def readRate : Json → Option ℚ
  | .str s => (Nat.ofNumeral? s).map fun n : Nat => (n : ℚ)
  | v => v.int?.map fun n => (n : ℚ)

/-- The entry of a workload for a member, if that has a text and a rate. -/
def readEntry (x : List Char × Json) : Option (Σ _ : String, WidgetInfo) :=
  match x.2 with
  | .obj members => match Json.get? members "query".toList with
    | some (.str query) => (Json.get? members "qps".toList).bind fun rate =>
        (readRate rate).map fun qps => ⟨.ofList x.1, .ofList query, qps⟩
    | _ => none
  | _ => none

/-- The workload of a file, if all its members are entries. -/
def readObject (members : List (List Char × Json)) : Option SavedObject :=
  ((Json.items members).mapM readEntry).map List.toAList

end WorkloadSimulator
