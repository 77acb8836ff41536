import WorkloadSimulator.App.System
import WorkloadSimulator.ForStd.Csv
import WorkloadSimulator.ForStd.Decimal

/-!
# The texts of the report files

`WriteHeader` and `WriteCsv` of `app/stats.go`, and the process with the texts of its report
files. `handleWorkload` writes the header of a file after it has put the file in place, so
that another handler may write rows, or close the file, before.
-/

namespace WorkloadSimulator

/-! ## Rows -/

/-- `ConvertCsvMetric`, where `timeText` is what `String` makes of a time. -/
def convertCsvMetric (timeText : Nat → String) (c : CsvMetric) : List (List Char) :=
  [(timeText c.ts).toList, c.batchId.toList, c.opsHost.toList, c.opsUser.toList,
    c.opsModelName.toList, Int.numeral c.nWorkers, Int.numeral c.reqSent,
    Int.numeral c.reqComplete, Int.numeral c.reqPerSec]

def headerFields : List (List Char) :=
  ["timestamp".toList, "batch_id".toList, "ops_host".toList, "ops_user".toList,
    "model_name".toList, "workers".toList, "requests_sent".toList,
    "requests_completed".toList, "requests_per_second".toList]

def writeHeader : List Char := Csv.write headerFields

def writeCsv (timeText : Nat → String) (records : List CsvMetric) : List Char :=
  Csv.writeAll (records.map (convertCsvMetric timeText))

/-! ## Files -/

namespace App

/-- What a step writes to report files. -/
def rowsOfStep (s : App) : Event → List (String × CsvMetric)
  | .writeCsv h => match s.handlers[h]? with
    | some (.writing records _) => s.reportRows records
    | _ => []
  | _ => []

/-- The rows of a report file. -/
def rowsTo (file : String) (written : List (String × CsvMetric)) : List CsvMetric :=
  (written.filter fun x => x.1 == file).map Prod.snd

/-- The file that a step closes. -/
def closedByStep (s : App) : Event → Option String
  | .respond h => match s.handlers[h]? with
    | some (.killing true 0) => s.reportfile
    | _ => none
  | _ => none

end App

/-- The process with its report files. -/
structure ReportFiles where
  app : App
  /-- The handlers that have still to write the header of a file. -/
  unheaded : List (Nat × String)
  closed : List String
  text : String → List Char

namespace ReportFiles

variable (timeText : Nat → String)

inductive Event where
  | app (e : WorkloadSimulator.Event)
  /-- `WriteHeader` in the handler `h`. -/
  | header (h : Nat)

def append (s : ReportFiles) (file : String) (t : List Char) : String → List Char :=
  Function.update s.text file (s.text file ++ t)

/-- The header of a file that has been closed is not written. -/
def header (s : ReportFiles) (h : Nat) : Option ReportFiles :=
  match s.unheaded.lookup h with
  | some file => some { s with
      unheaded := s.unheaded.filter fun x => x.1 != h
      text := if file ∈ s.closed then s.text else s.append file writeHeader }
  | none => none

/-- The handler has still to write a header before this step. -/
def waits (s : ReportFiles) : WorkloadSimulator.Event → Bool
  | .readWorkers h => (s.unheaded.lookup h).isSome
  | _ => false

/-- What a step of the app does to the files: it creates one, writes to one, or closes one. -/
def afterStep (s : ReportFiles) (app : App) (e : WorkloadSimulator.Event) : ReportFiles :=
  match e with
  | .openReport h batchId true =>
    let file := reportName s.app.reportDir batchId
    { app
      unheaded := (h, file) :: s.unheaded
      closed := s.closed.filter fun x => x != file
      text := Function.update s.text file [] }
  | e => { s with
      app
      closed := s.closed ++ (s.app.closedByStep e).toList
      text := fun file => s.text file ++
        writeCsv timeText (App.rowsTo file (s.app.rowsOfStep e)) }

def step (s : ReportFiles) : Event → Option ReportFiles
  | .header h => if s.app.exited then none else s.header h
  | .app e => if s.waits e then none else (s.app.step e).map fun app => s.afterStep timeText app e

/-- The process when it starts to serve. -/
def init (reportDir : String) : ReportFiles :=
  { app := .init reportDir, unheaded := [], closed := [], text := fun _ => [] }

end ReportFiles

/-! ## Reading a report -/

/-- The row of a report, where `parseTime` reads the time. -/
def readMetric (parseTime : String → Option Nat) : List (List Char) → Option CsvMetric
  | [ts, batchId, opsHost, opsUser, opsModelName, nWorkers, reqSent, reqComplete, reqPerSec] => do
    return {
      ts := ← parseTime (.ofList ts)
      batchId := .ofList batchId
      opsHost := .ofList opsHost
      opsUser := .ofList opsUser
      opsModelName := .ofList opsModelName
      nWorkers := ← Int.ofNumeral? nWorkers
      reqSent := ← Nat.ofNumeral? reqSent
      reqComplete := ← Nat.ofNumeral? reqComplete
      reqPerSec := ← Nat.ofNumeral? reqPerSec }
  | _ => none

/-- The rows of a report behind its header. -/
def readReport (parseTime : String → Option Nat) (text : List Char) : Option (List CsvMetric) :=
  match Csv.read text with
  | some (first :: rows) => if first = headerFields then rows.mapM (readMetric parseTime) else none
  | _ => none

end WorkloadSimulator
