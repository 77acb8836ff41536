import WorkloadSimulator.App.Forms
import WorkloadSimulator.ForStd.JsNumber
import WorkloadSimulator.Page.Client

/-!
# The texts of reports and replies

The maps of the monitor are written twice before the page has them: `StatsMonitor` of
`app/stats.go` puts them into a `Report` as texts, which `handleStats` of `app/handlers.go`
reads, copies and writes into its reply. `json.Marshal` writes a map in the order of its keys.
-/

namespace WorkloadSimulator

/-! ## Maps -/

/-- `json.Marshal` of a `map[string]interface{}`. -/
def marshalMap (m : List (Σ _ : String, Json)) : Json :=
  .obj ((m.mergeSort fun x y => x.1 ≤ y.1).map fun x => (x.1.toList, x.2))

/-- `json.Marshal` of a `map[string]int`. -/
def marshalCounts (m : GoMap Int) : Json := marshalMap (m.entries.map fun x => ⟨x.1, .ofInt x.2⟩)

/-- A `map[string]int` out of a text. A number that is no `int` leaves a zero, and an error. -/
def unmarshalCounts (text : List Char) : Decoded (GoMap Int) :=
  let members := unmarshal text
  ⟨members.val.foldl (fun m x => m.insert (.ofList x.1) (readInt 0 x.2).val) ∅,
    members.err || members.val.any fun x => (readInt 0 x.2).err⟩

/-! ## The monitor -/

/-- A counter as the `int` that has it. -/
def asInt (n : Nat) : Int := (n : Int).bmod (2 ^ 64)

/-- A map of the monitor with its `int`s. -/
def asInts (m : GoMap Nat) : GoMap Int :=
  (m.entries.map fun x => (⟨x.1, asInt x.2⟩ : Σ _ : String, Int)).toAList

/-- `requestPerS` of a `Report` -/
def Report.requestPerSText (r : Report) : List Char :=
  (marshalCounts (asInts r.requestPerS)).print Json.goStyle

/-- `requestLagDone` of a `Report` -/
def Report.requestLagDoneText (r : Report) : List Char :=
  (marshalCounts (asInts r.requestLagDone)).print Json.goStyle

/-! ## `handleStats` -/

/-- The two maps of a report, or what the reply says of it. -/
def readReportMaps (requestPerS requestLagDone : List Char) :
    Except String (GoMap Int × GoMap Int) :=
  let r := unmarshalCounts requestPerS
  let rd := unmarshalCounts requestLagDone
  if r.err then .error "Stats error"
  else if rd.err then .error "Stats error"
  else .ok (r.val, rd.val)

/-- The reply with the maps `stats` and `rdone`. -/
def statsBody (stats rdone : GoMap Int) : List Char :=
  (marshalMap [⟨"running", .bool true⟩, ⟨"stats", marshalCounts stats⟩,
    ⟨"rdone", marshalCounts rdone⟩]).print Json.goStyle

/-- What `handleStats` replies to a report. -/
def Report.reply (r : Report) : Except String (List Char) :=
  (readReportMaps r.requestPerSText r.requestLagDoneText).map fun x => statsBody x.1 x.2

/-! ## The page -/

/-- A whole number of a reply, rounded to a number of JavaScript. -/
def readCount (v : Json) : Option ℚ :=
  match v.int?.map JsNumber.ofInt with
  | some (.int n _) => some n
  | _ => none

/-- The counts of an object, if all its members are whole numbers. -/
def readCounts : Json → Option (GoMap ℚ)
  | .obj members => ((Json.items members).mapM fun x =>
      (readCount x.2).map fun n => (⟨.ofList x.1, n⟩ : Σ _ : String, ℚ)).map List.toAList
  | _ => none

/-- A reply of the app, which has no `error`. -/
def readReply (text : List Char) : Option StatsReply :=
  match Json.decode text with
  | some (.obj members) => match Json.get? members "running".toList with
    | some (.bool true) => do
      let stats ← (Json.get? members "stats".toList).bind readCounts
      let rdone ← (Json.get? members "rdone".toList).bind readCounts
      return ⟨true, none, stats, rdone⟩
    | some (.bool false) => some ⟨false, none, ∅, ∅⟩
    | _ => none
  | _ => none

/-- The reply that a text stands for, with the entries of its maps in any order. -/
def StatsReply.ReadFrom (text : List Char) (data : StatsReply) : Prop :=
  ∃ read, readReply text = some read ∧ data.running = read.running ∧ data.error = read.error ∧
    data.stats.entries.Perm read.stats.entries ∧ data.rdone.entries.Perm read.rdone.entries

end WorkloadSimulator
