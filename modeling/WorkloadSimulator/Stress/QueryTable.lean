import WorkloadSimulator.ForStd.Bisect
import WorkloadSimulator.ForStd.List
import WorkloadSimulator.ForStd.Split
import WorkloadSimulator.Stress.Worker

/-!
# Query templates and the query table

`stress/query_table.py`. A query text is split at its parameter tokens, and compiled to the
source of a function that puts the values of the generators in their place. The list in that
source is modelled by its expressions (`Expr`), and evaluating it by evaluating them from left
to right. A table draws its queries by their rates.

An exception is `none`: of a query without a first word (`IndexError`), of a clock beyond the
year 9999 (`OverflowError`), and those of the constructor of a table. The probabilities are
exact.
-/

namespace WorkloadSimulator.Stress

abbrev Text := List Char

/-! ## Tokens -/

def stringToken : Text := ['^']
def numberToken : Text := ['@']
def timeToken : Text := ['@', 'T']
def markToken : Text := ['@', 'M']

def allParamTokens : List Text := [markToken, timeToken, numberToken, stringToken]

/-- Whether `re.escape(c)` matches at the beginning of `s`, with `re.IGNORECASE`: the case of
    letters beyond ASCII counts. -/
def matchesToken (c s : Text) : Bool := (c.map Char.toLower).isPrefixOf (s.map Char.toLower)

/-- `split_and_fold`: the pieces of `s`, with `c` between them. -/
def splitAndFold (s c : Text) : List Text :=
  (s.splitHits c.length (matchesToken c)).intersperse c

/-- One pass of `tokenize_query`, for the token `c` after the tokens `done`. -/
def tokenizePass (done : List Text) (c : Text) (stringList : List Text) : List Text :=
  stringList.flatMap fun s => if s ∈ done then [s] else splitAndFold s c

/-- The passes for the tokens `cs` after the tokens `done`. -/
def tokenizeLoop (done : List Text) : List Text → List Text → List Text
  | [], stringList => stringList
  | c :: cs, stringList => tokenizeLoop (done ++ [c]) cs (tokenizePass done c stringList)

def tokenizeQuery (query : Text) : List Text := tokenizeLoop [] allParamTokens [query]

/-! ## Parsing -/

/-- The entries of the list that `parse_query` returns. -/
inductive Parsed where
  | oldString
  | newString
  | oldNumber
  | newNumber
  | text (q : Text)

/-- `unicode.isspace` -/
def isSpace (c : Char) : Bool :=
  let n := c.toNat
  (9 ≤ n ∧ n ≤ 13) ∨ (28 ≤ n ∧ n ≤ 32) ∨ (0x2000 ≤ n ∧ n ≤ 0x200a) ∨
    n ∈ [0x85, 0xa0, 0x1680, 0x180e, 0x2028, 0x2029, 0x202f, 0x205f, 0x3000]

/-- `s.lstrip().split()[0]` -/
def firstWord (s : Text) : Option Text :=
  match (s.dropWhile isSpace).takeWhile fun c => !isSpace c with
  | [] => none
  | w => some w

/-- `qtype == "select"`. No letter beyond ASCII has a letter of `select` as its lower case. -/
def isSelect (w : Text) : Bool := w.map Char.toLower == "select".toList

/-- What `parse_query` makes of an element. -/
def parsePiece (select : Bool) (q : Text) : Parsed :=
  if q = stringToken then (if select then .oldString else .newString)
  else if q = numberToken then (if select then .oldNumber else .newNumber)
  else .text q

def parseQuery (qlist : List Text) : Option (List Parsed) := do
  let q ← qlist.head?
  let w ← firstWord q
  return qlist.map (parsePiece (isSelect w))

/-! ## The clock -/

def isLeap (year : Nat) : Bool := year % 4 = 0 ∧ (year % 100 ≠ 0 ∨ year % 400 = 0)

def daysInMonth (year month : Nat) : Nat :=
  if month = 2 then (if isLeap year then 29 else 28)
  else if month ∈ [4, 6, 9, 11] then 30 else 31

/-- Every month has a day. -/
theorem daysInMonth_pos (year month : Nat) : 0 < daysInMonth year month := by
  unfold daysInMonth
  split
  · split <;> decide
  · split <;> decide

/-- A `datetime`, without its microseconds, which nothing reads. -/
structure DateTime where
  year : Nat
  month : Nat
  day : Nat
  hour : Nat
  minute : Nat
  second : Nat
  year_pos : 0 < year
  year_le : year ≤ 9999
  month_pos : 0 < month
  month_le : month ≤ 12
  day_pos : 0 < day
  day_le : day ≤ daysInMonth year month
  hour_lt : hour < 24
  minute_lt : minute < 60
  second_lt : second < 60

namespace DateTime

/-- `datetime.min` -/
instance : Inhabited DateTime where
  default :=
    { year := 1, month := 1, day := 1, hour := 0, minute := 0, second := 0
      year_pos := by decide, year_le := by decide, month_pos := by decide, month_le := by decide
      day_pos := by decide, day_le := by decide, hour_lt := by decide, minute_lt := by decide
      second_lt := by decide }

/-- Adding `timedelta(seconds = 1)`, unless it overflows. -/
def addSecond (t : DateTime) : Option DateTime :=
  if hs : t.second + 1 < 60 then some { t with second := t.second + 1, second_lt := hs }
  else
    let t : DateTime := { t with second := 0, second_lt := by decide }
    if hm : t.minute + 1 < 60 then some { t with minute := t.minute + 1, minute_lt := hm }
    else
      let t : DateTime := { t with minute := 0, minute_lt := by decide }
      if hh : t.hour + 1 < 24 then some { t with hour := t.hour + 1, hour_lt := hh }
      else
        let t : DateTime := { t with hour := 0, hour_lt := by decide }
        if hd : t.day + 1 ≤ daysInMonth t.year t.month then
          some { t with day := t.day + 1, day_pos := Nat.succ_pos _, day_le := hd }
        else if hmo : t.month + 1 ≤ 12 then
          some { t with
            month := t.month + 1, month_pos := Nat.succ_pos _, month_le := hmo
            day := 1, day_pos := Nat.one_pos, day_le := daysInMonth_pos _ _ }
        else if hy : t.year + 1 ≤ 9999 then
          some { t with
            year := t.year + 1, year_pos := Nat.succ_pos _, year_le := hy
            month := 1, month_pos := Nat.one_pos, month_le := by decide
            day := 1, day_pos := Nat.one_pos, day_le := daysInMonth_pos _ _ }
        else none

/-- `int("%.4d%.2d%.2d%.2d%.2d%.2d" % t.timetuple()[:6])`: all fields but the year have two
    digits. -/
def currentTime (t : DateTime) : Nat :=
  ((((t.year * 100 + t.month) * 100 + t.day) * 100 + t.hour) * 100 + t.minute) * 100 + t.second

end DateTime

/-! ## Value generators -/

/-- The globals of the generators: `counter`, `global_time` and the numbers that
    `random.randint` has yet to draw. -/
structure GenState where
  counter : Nat
  globalTime : DateTime
  random : Nat → Nat

/-- A computation on the globals that may raise an exception. -/
abbrev Gen := StateT GenState Option

/-- `str(n)` -/
def str (n : Nat) : Text := (Nat.repr n).toList

/-- The value of `counter`, which is then one greater. -/
def nextCounter : Gen Nat := fun g => some (g.counter, { g with counter := g.counter + 1 })

/-- `random.randint(a, b)`: any number from `a` to `b`. -/
def randint (a b : Nat) : Gen Nat := fun g =>
  some (a + g.random 0 % (b - a + 1), { g with random := fun n => g.random (n + 1) })

def getNewRandomNumber (pfx : Text) : Gen Text := do
  let ret ← nextCounter
  return pfx ++ str ret

def getOldRandomNumber (pfx : Text) : Gen Text := do
  let g ← get
  let ret ← randint 1 (max g.counter 2)
  return pfx ++ str ret

def getRandomString (pfx : Text) (n : Nat) : Gen Text := do
  let ret ← nextCounter
  return (pfx ++ '|' :: str ret).take n

def getGlobalMarker (pfx : Text) : Gen Text := return pfx

def getRandomTime : Gen Text := do
  let g ← get
  let globalTime ← g.globalTime.addSecond
  set { g with globalTime }
  return str g.globalTime.currentTime

/-- `uuid.uuid4().int & (2**16-1)`, where `uuid.uuid4().int` is `uuid`. -/
def prefixNumber (uuid : Nat) : Nat := uuid &&& (2 ^ 16 - 1)

/-- What `worker` passes to its query functions. -/
def workerPrefix (uuid : Nat) : Text := str (prefixNumber uuid)

/-! ## Query functions -/

/-- The expressions in the list of a query function. -/
inductive Expr where
  | repr (s : Text)
  | getRandomString (n : Nat)
  | getOldRandomNumber
  | getNewRandomNumber
  | getRandomTime
  | getGlobalMarker

/-- `"'"` -/
def quote : Text := "'".toList

/-- What `generate_query_function` appends to `build` for an element. -/
def buildPiece : Parsed → List Expr
  | .oldString | .newString => [.repr quote, .getRandomString 32, .repr quote]
  | .oldNumber => [.getOldRandomNumber]
  | .newNumber => [.getNewRandomNumber]
  | .text q =>
    if q = timeToken then [.getRandomTime]
    else if q = markToken then [.getGlobalMarker]
    else [.repr q]

/-- `generate_query_function` -/
def generateQueryFunction (query : Text) : Option (List Expr) :=
  (parseQuery (tokenizeQuery query)).map fun qlist => qlist.flatMap buildPiece

def Expr.eval (pfx : Text) : Expr → Gen Text
  | .repr s => return s
  | .getRandomString n => Stress.getRandomString pfx n
  | .getOldRandomNumber => Stress.getOldRandomNumber pfx
  | .getNewRandomNumber => Stress.getNewRandomNumber pfx
  | .getRandomTime => Stress.getRandomTime
  | .getGlobalMarker => Stress.getGlobalMarker pfx

/-- `lambda prefix: "".join([…])` -/
def queryF (build : List Expr) (pfx : Text) : Gen Text := List.concatM (Expr.eval pfx) build

/-! ## The query table -/

/-- `QueryGen`: the query `queryId` with its function, and the array that counts its runs. -/
structure QueryGen (κ τ : Type) where
  queryId : κ
  queryF : List Expr
  stats : τ

structure QueryTable (κ τ : Type) where
  totalQps : Int
  probabilities : List ℚ
  queryObjects : List (QueryGen κ τ)

variable {κ τ : Type}

/-- The probability up to a query with the rate `qps`, after `qpsProb`. -/
def nextProb (totalQps : Int) (qpsProb : ℚ) (qps : Int) : Option ℚ :=
  if qps = 0 then some 0
  -- `ZeroDivisionError`
  else if totalQps = 0 then none
  else some (qpsProb + qps / totalQps)

/-- The loop of the constructor over the sorted items. -/
def addQueries (qpsQueryTable : κ → Option τ) (totalQps : Int) :
    ℚ → List (κ × QueryInfo) → Option (List (ℚ × QueryGen κ τ))
  | _, [] => some []
  | qpsProb, (queryId, info) :: workloadL => do
    let qpsProb ← nextProb totalQps qpsProb info.qps
    let stats ← qpsQueryTable queryId
    let queryF ← generateQueryFunction info.query.toList
    let added ← addQueries qpsQueryTable totalQps qpsProb workloadL
    return (qpsProb, ⟨queryId, queryF, stats⟩) :: added

/-- `sum([int(info['qps']) for info in workload.values()])` -/
def sumQps (workload : List (κ × QueryInfo)) : Int := (workload.map fun x => x.2.qps).sum

namespace QueryTable

/-- The items of a workload, sorted by their rates. -/
def sorted (workload : List (κ × QueryInfo)) : List (κ × QueryInfo) :=
  workload.mergeSort fun x y => x.2.qps ≤ y.2.qps

/-- The constructor, where `qpsQueryTable q` is `qps_query_table[q]`. Nothing reads `qps` and
    `max_query_id`; as the keys are numbers, the latter raises for an empty workload only. -/
def new (workload : List (κ × QueryInfo)) (qpsQueryTable : κ → Option τ) :
    Option (QueryTable κ τ) :=
  -- `max([])`
  if workload.isEmpty then none
  else do
    let added ← addQueries qpsQueryTable (sumQps workload) 0 (sorted workload)
    return {
      totalQps := sumQps workload
      probabilities := added.map Prod.fst
      queryObjects := added.map Prod.snd }

/-- `get_random_query`, where `random.random()` returns `u`. -/
def getRandomQuery (t : QueryTable κ τ) (u : ℚ) : Option (QueryGen κ τ) :=
  t.queryObjects[t.probabilities.bisectRight u]?

/-! ## The share of a worker -/

/-- `PERIOD`, in seconds. -/
def period : ℚ := 1 / 10

/-- `worker_qps`, the queries of each of `nworkers` workers in a period. The first division is
    one of integers. -/
def workerQps (t : QueryTable κ τ) (nworkers : Nat) : Int :=
  ⌈((t.totalQps + 1).fdiv nworkers : ℚ) * period⌉

/-- The queries that all workers together schedule in a period: each runs
    `xrange(worker_qps)`. -/
def scheduled (t : QueryTable κ τ) (nworkers : Nat) : Nat :=
  ((List.range nworkers).map fun _ => (t.workerQps nworkers).toNat).sum

end QueryTable

end WorkloadSimulator.Stress
