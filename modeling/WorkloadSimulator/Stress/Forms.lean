import WorkloadSimulator.ForStd.FormUrl
import WorkloadSimulator.ForStd.JsonWriters
import WorkloadSimulator.Stress.Server

/-!
# The texts of requests to the stress tool

How `stress/server.py` gets a `Form` out of the body of a request, and the file that `/save`
gives back. What `int` and `float` make of a text is left open. A dictionary that is read from
an object has the last of the members with the same key, and gives its items in any order; it
is written in that order.
-/

namespace WorkloadSimulator.Stress

/-- What conversions of Python make of texts and of literals of numbers. -/
structure Conversions where
  /-- `int` of a text: `none` is a `ValueError`. -/
  textInt : List Char → Option Int
  /-- `int` of `float` of a text. -/
  textFloat : List Char → Except PyError Int
  numInt : List Char → Except PyError Int
  /-- The literal that a number is written as, for that of which it has been read. -/
  literal : List Char → List Char

/-! ## `/workload` -/

variable (conv : Conversions)

/-- `int(info[key])` -/
def itemInt (info : List (List Char × Json)) (key : String) : Except PyError Int :=
  match Json.get? info key.toList with
  | some (.str s) => (conv.textInt s).elim (.error .valueError) .ok
  | some (.num lit) => conv.numInt lit
  | some (.bool b) => .ok (if b then 1 else 0)
  -- `KeyError`, or `TypeError`
  | _ => .error .other

/-- `int(float(info[key]))`, for what `int` has raised a `ValueError` for. -/
def itemFloat (info : List (List Char × Json)) (key : String) : Except PyError Int :=
  match Json.get? info key.toList with
  | some (.str s) => conv.textFloat s
  | _ => .error .other

/-- An item of the posted workload, if its query is a text. -/
def Posted.ofItem (x : List Char × Json) : Option Posted :=
  match x.2 with
  | .obj info => match Json.get? info "query".toList with
    | some (.str query) => some
        { queryId := (conv.textInt x.1).elim (.error .valueError) .ok
          qps := itemInt conv info "qps"
          qpsFloat := itemFloat conv info "qps"
          query := .ofList query }
    | _ => none
  | _ => none

/-- `request.values.get(name)` -/
def requestValue (form : List Char) (name : String) : Option (List Char) :=
  (FormUrl.decodeForm form).bind fun fields => fields.lookup name.toList

/-- `json.loads(request.values.get(name))`, with `none` for an exception. -/
def loadValue (form : List Char) (name : String) : Option Json :=
  (requestValue form name).bind Json.decode

/-- The items of the posted workload, unless an exception is raised. -/
def loadWorkload (form : List Char) : Option (List Posted) :=
  match loadValue form "workload" with
  | some (.obj members) => (Json.items members).mapM (Posted.ofItem conv)
  | _ => none

/-- The request that a body stands for. `create` is `Settings` for an object. -/
structure Form.ReadFrom {σ : Type} (create : Json → Except PyError σ) (body : List Char)
    (form : Form σ) : Prop where
  workload : match loadWorkload conv body with
    | some items => ∃ order, order.Perm items ∧ form.workload = some order
    | none => form.workload = none
  settings : form.settings = match loadValue body "settings" with
    | some v => create v
    | none => .error .other

/-! ## `/save` -/

/-- A value has been read and is written again. -/
inductive Rewritten : Json → Json → Prop where
  | null : Rewritten .null .null
  | bool (b : Bool) : Rewritten (.bool b) (.bool b)
  | num (lit : List Char) : Rewritten (.num lit) (.num (conv.literal lit))
  | str (s : List Char) : Rewritten (.str s) (.str s)
  | arr {items items' : List Json} (h : List.Forall₂ Rewritten items items') :
      Rewritten (.arr items) (.arr items')
  | obj {members order members' : List (List Char × Json)}
      (horder : order.Perm (Json.items members))
      (hkeys : order.map Prod.fst = members'.map Prod.fst)
      (h : List.Forall₂ Rewritten (order.map Prod.snd) (members'.map Prod.snd)) :
      Rewritten (.obj members) (.obj members')

/-- What `/save` gives back for a query, if it has settings and a workload. The dictionaries
    are written in any order. -/
inductive SaveContents (query : List Char) : List Char → Prop where
  | mk {settings workload settings' workload' : Json} {members : List (List Char × Json)}
      (hsettings : loadValue query "settings" = some settings)
      (hworkload : loadValue query "workload" = some workload)
      (hsettings' : Rewritten conv settings settings') (hworkload' : Rewritten conv workload workload')
      (hmembers : members.Perm
        [("settings".toList, settings'), ("workload".toList, workload')]) :
      SaveContents query (Json.print Json.pyStyle (.obj members))

end WorkloadSimulator.Stress
