import WorkloadSimulator.ForStd.PyValue
import WorkloadSimulator.Stress.Server

/-!
# The settings of the stress tool

The class `Settings` of `stress/server.py`. It is a class of the old style: an instance has
the attributes of its dictionary, then those of the class, and two that are neither, its
class and the dictionary itself. What `int` makes of a text is left open.

No JSON value can be called, so a method that an attribute hides cannot be used any more.
-/

namespace WorkloadSimulator.Stress.Settings

/-! ## Attributes -/

/-- The fields that the constructor sets to `None`. -/
def fields : List String :=
  ["memsql_host", "memsql_port", "memsql_user", "memsql_pass", "memsql_db", "workers"]

def methods : List String :=
  ["__init__", "__eq__", "__hash__", "get_db_conn", "get_dict", "get_client_arguments"]

inductive Attribute where
  | value (v : PyValue)
  | method

/-- The attributes of the class. -/
def classAttribute (name : String) : Option Attribute :=
  if name ∈ methods then some .method
  else if name = "__doc__" then some (.value .null)
  else if name = "__module__" then some (.value (.str "__main__"))
  else none

/-- `getattr(self, name)`, with `none` for `AttributeError`, for an instance with the
    dictionary `self`. -/
def getattr (self : String → Option PyValue) (name : String) : Option Attribute :=
  match self name with
  | some v => some (.value v)
  | none => classAttribute name

/-- `getattr(self, key) != setting` -/
def Attribute.ne : Attribute → PyValue → Bool
  | .value current, setting => !current.eq setting
  | .method, _ => true

/-! ## The constructor -/

variable (textInt : PyValue → Option Int)

/-- `int(setting)`. For a text, `none` is a `ValueError`. -/
def toInt : PyValue → Except PyError Int
  | .bool b => .ok (if b then 1 else 0)
  | .int n => .ok n
  | .float q => .ok (if 0 ≤ q then ⌊q⌋ else ⌈q⌉)
  -- `OverflowError`
  | .infinity _ => .error .other
  | .str s => (textInt (.str s)).elim (.error .valueError) .ok
  | .unicode s => (textInt (.unicode s)).elim (.error .valueError) .ok
  -- `TypeError`
  | .null | .list _ | .dict _ => .error .other

/-- The value that an attribute is set to. -/
def convert (key : String) (setting : PyValue) : Except PyError PyValue :=
  if key ∈ ["memsql_port", "workers"] then (toInt textInt setting.strip).map .int
  else .ok setting.strip

/-- One round of the loop over `d.items()`, for an instance with the dictionary `self`. -/
def assign (self : PyDict) (key : String) (setting : PyValue) : Except PyError PyDict :=
  -- `UnicodeEncodeError`
  if !PyValue.isAscii key then .error .valueError
  -- `TypeError`, since the class can only be set to a class
  else if key = "__class__" then .error .other
  else if key = "__dict__" then
    match setting with
    | .dict items =>
      .ok (if (PyValue.dict self.items).eq setting then self else .ofItems items)
    | _ => .error .other
  else match getattr (self.lookup ·) key with
    | none => .ok self
    | some current =>
      match convert textInt key setting with
      | .error e => .error e
      | .ok setting => .ok (if current.ne setting then self.insert key setting else self)

/-- An instance before the loop. -/
def empty : PyDict := .ofItems (fields.map fun field => (field, .null))

/-- `Settings(d)`, with the exception if it raises `ServerException`. -/
def create (d : PyDict) : Except (Option ServerException) PyDict :=
  match d.entries.foldlM (fun self x => assign textInt self x.1 x.2) empty with
  | .ok self => .ok self
  | .error .valueError => .error (some (.plain
      "Invalid settings. Please verify port number and workers processes"
      ServerException.ER_SETTINGS))
  | .error .other => .error none

/-! ## The methods -/

/-- A method that returns values of fields under other names, if it can be called and no field
    is missing. -/
def returnFields (self : PyDict) (method : String) (names : List (String × String)) :
    Option (List (String × PyValue)) :=
  if method ∈ self then none
  else names.mapM fun (name, field) => (self.lookup field).map fun v => (name, v)

def getDict (self : PyDict) : Option (List (String × PyValue)) :=
  returnFields self "get_dict" [("memsql_host", "memsql_host"), ("memsql_port", "memsql_port"),
    ("memsql_user", "memsql_user"), ("memsql_pass", "memsql_pass"), ("memsql_db", "memsql_db"),
    ("workers", "workers")]

def getClientArguments (self : PyDict) : Option (List (String × PyValue)) :=
  (returnFields self "get_client_arguments" [("host", "memsql_host"), ("port", "memsql_port"),
    ("user", "memsql_user"), ("passwd", "memsql_pass"), ("db", "memsql_db")]).map fun arguments =>
      arguments ++ [("unix_socket", .str "/tmp/memsql.sock")]

/-- The arguments with which `get_db_conn` calls the function of that name in `utils`. -/
def getDbConn (self : PyDict) : Option (List (String × PyValue)) :=
  returnFields self "get_db_conn" [("host", "memsql_host"), ("port", "memsql_port"),
    ("user", "memsql_user"), ("password", "memsql_pass"), ("database", "memsql_db")]

end WorkloadSimulator.Stress.Settings
