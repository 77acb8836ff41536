import WorkloadSimulator.App.Handlers
import WorkloadSimulator.ForStd.FormUrl
import WorkloadSimulator.ForStd.JsonWriters

/-!
# The texts of requests to the app

How `handleWorkload` of `app/handlers.go` gets a `WorkloadForm` out of the body of a request.
`json.Unmarshal` looks for the name of a field without regard to case. It goes on behind a value
of a wrong type and reports it at the end, and it leaves everything as it is when the text is
no JSON.
-/

namespace WorkloadSimulator

/-! ## `json.Unmarshal` -/

/-- A character of a key, as keys are compared: two more characters count as letters. -/
def foldChar (c : Char) : Char :=
  if c = '\u017f' then 's' else if c = '\u212a' then 'k' else c.toLower

/-- The key stands for the field of this name. -/
def isField (name : String) (key : List Char) : Bool := key.map foldChar == name.toList.map foldChar

/-- The values for a field, one after the other. -/
def setField {α : Type} (read : α → Json → Decoded α) (zero : α) (name : String)
    (members : List (List Char × Json)) : Decoded α :=
  members.foldl (fun d x =>
    if isField name x.1 then ⟨(read d.val x.2).val, d.err || (read d.val x.2).err⟩ else d)
    ⟨zero, false⟩

/-- A `string`, which `null` leaves as it is. -/
def readText (old : String) : Json → Decoded String
  | .str s => ⟨.ofList s, false⟩
  | .null => ⟨old, false⟩
  | _ => ⟨old, true⟩

/-- An `int`. -/
def readInt (old : Int) : Json → Decoded Int
  | .num lit => match atoi (.ofList lit) with
    | some n => ⟨n, false⟩
    | none => ⟨old, true⟩
  | .null => ⟨old, false⟩
  | _ => ⟨old, true⟩

/-- `strconv.ParseFloat` of a number literal, if it is in range. -/
def parseFloat (lit : List Char) : Option Float.Model :=
  if (Json.toFloat lit).isInf then none else some (Json.toFloat lit)

mutual

/-- An `interface{}`. There is none for a number that is out of range. -/
def readValue : Json → Decoded GoValue
  | .null => ⟨.nil, false⟩
  | .bool b => ⟨.bool b, false⟩
  | .num lit => match parseFloat lit with
    | some x => ⟨.float64 x, false⟩
    | none => ⟨.nil, true⟩
  | .str s => ⟨.string (.ofList s), false⟩
  | .arr items =>
    let values := readItems items
    ⟨.slice (values.map Decoded.val), values.any Decoded.err⟩
  | .obj members =>
    let values := readMembers members
    ⟨.map ((Json.items values).map fun x => (.ofList x.1, x.2.val)), values.any fun x => x.2.err⟩
termination_by structural v => v

def readItems : List Json → List (Decoded GoValue)
  | [] => []
  | v :: items => readValue v :: readItems items
termination_by structural items => items

def readMembers : List (List Char × Json) → List (List Char × Decoded GoValue)
  | [] => []
  | m :: members => readMember m :: readMembers members
termination_by structural members => members

def readMember : List Char × Json → List Char × Decoded GoValue
  | (key, v) => (key, readValue v)
termination_by structural m => m

end

/-- A `map[string]interface{}`. A map that is there is added to, and `null` puts none in its
    place. -/
def readMap (old : GoMap GoValue) : Json → Decoded (GoMap GoValue)
  | .obj members => ⟨members.foldl (fun m x => m.insert (.ofList x.1) (readValue x.2).val) old,
      members.any fun x => (readValue x.2).err⟩
  | .null => ⟨∅, false⟩
  | _ => ⟨old, true⟩

/-- The members of the object that a text is, and whether it is anything else. -/
def unmarshal (text : List Char) : Decoded (List (List Char × Json)) :=
  match Json.decode text with
  | some (.obj members) => ⟨members, false⟩
  | some .null => ⟨[], false⟩
  | _ => ⟨[], true⟩

/-- `queryData` -/
def unmarshalQuery (text : String) : Decoded QueryData :=
  let members := unmarshal text.toList
  let model := setField readText "" "Model" members.val
  let input := setField readMap ∅ "Input" members.val
  ⟨⟨model.val, input.val⟩, members.err || model.err || input.err⟩

/-- `settings` -/
def unmarshalSettings (text : List Char) : Decoded Settings :=
  let members := unmarshal text
  let opsHost := setField readText "" "ops_host" members.val
  let apiKey := setField readText "" "ops_apikey" members.val
  let user := setField readText "" "ops_user" members.val
  let maxDialVal := setField readInt 0 "dial_max_value" members.val
  let workers := setField readText "" "workers" members.val
  ⟨⟨opsHost.val, apiKey.val, user.val, maxDialVal.val, workers.val⟩,
    members.err || opsHost.err || apiKey.err || user.err || maxDialVal.err || workers.err⟩

/-- The fields `Query` and `QPS` of a `modelData`. -/
def readModelData : Json → Decoded (String × String)
  | .obj members =>
    let query := setField readText "" "Query" members
    let qps := setField readText "" "QPS" members
    ⟨(query.val, qps.val), query.err || qps.err⟩
  | .null => ⟨("", ""), false⟩
  | _ => ⟨("", ""), true⟩

/-- The `map[string]modelData`, and the texts of its `Query` fields decoded. -/
def unmarshalWork (text : List Char) : Decoded (List (String × ModelData)) :=
  let members := unmarshal text
  ⟨(Json.items members.val).map fun x =>
      (.ofList x.1, ⟨unmarshalQuery (readModelData x.2).val.1, (readModelData x.2).val.2⟩),
    members.err || members.val.any fun x => (readModelData x.2).err⟩

/-! ## `r.FormValue` -/

/-- `r.FormValue(name)` -/
def formValue (form : List Char) (name : String) : List Char :=
  ((FormUrl.decodeForm form).bind fun fields => fields.lookup name.toList).getD []

/-- The request that a body stands for, with the entries of the map in any order. -/
structure WorkloadForm.ReadFrom (body : List Char) (form : WorkloadForm) : Prop where
  post : form.post = true
  err : form.workload.err = (unmarshalWork (formValue body "workload")).err
  val : form.workload.val.Perm (unmarshalWork (formValue body "workload")).val
  settings : form.settings = unmarshalSettings (formValue body "settings")

end WorkloadSimulator
