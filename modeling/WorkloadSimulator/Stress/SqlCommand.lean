import WorkloadSimulator.ForStd.PyValue
import WorkloadSimulator.ForStd.Shell
import WorkloadSimulator.Stress.QueryTable
import WorkloadSimulator.Stress.Server

/-!
# The SQL console

`run_sql_command` of `stress/server.py`: a statement is given to the `mysql` client, whose
command line is made from the settings and handed to the shell. If the client does not know the
database, it is started once more without one.

The settings are those of a request whose texts are texts and whose port is a number. What
becomes of a process is a parameter, `popen`: its exit code and output for a command line and
an input, or `none` for an exception.
-/

namespace WorkloadSimulator.Stress.SqlConsole

open PyValue (isByteSpace)

/-- What the dictionary that `Settings.get_client_arguments` returns has of the settings. -/
structure ClientArguments where
  host : Text
  port : Int
  user : Text
  passwd : Text
  db : Text

/-- The entry `unix_socket`, which is the same for all settings. -/
def unixSocket : Text := "/tmp/memsql.sock".toList

/-- A process that has ended. -/
structure Finished where
  exitCode : Int
  stdout : Text
  stderr : Text

/-- `'%d' % n` -/
def decimal (n : Int) : Text := if n < 0 then '-' :: str n.natAbs else str n.natAbs

/-- The command line for `mysql`. -/
def command (args : ClientArguments) : Text :=
  "mysql -h ".toList ++ args.host ++ " --socket=".toList ++ unixSocket ++
    " --port=".toList ++ decimal args.port ++ " -u ".toList ++ args.user ++
    " --password=".toList ++ args.passwd ++ " ".toList ++ args.db ++ " --table -vvv;".toList

/-- The commands that `Popen` runs for a line with `shell=True`, if the line can be an argument
    of a process and the shell reads it without looking anywhere else. -/
def shellCommands (line : Text) : Option (List (List Text)) :=
  if '\x00' ∈ line then none else Shell.commands line

/-! ## What is made of the output -/

/-- `s.lstrip().rstrip()`, for the white space `space`. -/
def strip (space : Char → Bool) (s : Text) : Text :=
  ((s.dropWhile space).reverse.dropWhile space).reverse

/-- The third piece of the output between the lines of dashes. The newlines at its ends are
    left out, since it is stripped afterwards. -/
def thirdPiece (output : Text) : Option Text :=
  let rule : Text := "--------------".toList
  (((output.splitOn '\n').splitOn rule)[2]?).map fun lines => List.intercalate ['\n'] lines

/-- `output.split('Bye')[0]` -/
def beforeBye (output : Text) : Text :=
  (output.splitHits 3 fun s => "Bye".toList.isPrefixOf s).headD []

/-- What a successful client has put out. -/
def clientOutput (stdout : Text) : Text :=
  let output := strip isByteSpace (beforeBye ((thirdPiece stdout).getD stdout))
  if output ≠ [] then output ++ ['\n'] else output

/-- `get_use_db`: the name in a `use` statement, where the name has no white space. -/
def getUseDb (cmd : Text) : Option Text :=
  let cmd := strip isSpace cmd
  if "use".toList.isPrefixOf cmd ∧ cmd.getLast? = some ';' ∧
      ((cmd.drop 3).head?).any isByteSpace then
    let rest := ((cmd.drop 3).dropWhile isByteSpace).dropLast
    let name := rest.takeWhile fun c => !isByteSpace c
    if (rest.drop name.length).all isByteSpace then some name else none
  else none

/-! ## The request -/

/-- `re.sub(r'"', r'\\"', command)` -/
def escapeQuotes (sql : Text) : Text := sql.flatMap fun c => if c = '"' then ['\\', '"'] else [c]

/-- The answer to a request. -/
inductive SqlResponse where
  | output (output : Text) (db : Option Text)
  | error (e : ServerException)

variable (popen : Text → Text → Option Finished)

/-- The loop of `run_sql_command`: the arguments of its rounds, and the answer unless `Popen`
    raises an exception. -/
def runLoop (sqlCommand : Text) (args : ClientArguments) :
    List ClientArguments × Option SqlResponse :=
  match popen (command args) sqlCommand with
  | none => ([args], none)
  | some p =>
    if p.exitCode = 0 then
      match getUseDb sqlCommand with
      | some (c :: db) =>
        ([args], some (.output "Database Changed".toList (some (c :: db))))
      | _ => ([args], some (.output (clientOutput p.stdout) none))
    else if _h : "ERROR 1049".toList.isPrefixOf p.stderr ∧ args.db ≠ [] then
      let (rounds, answer) := runLoop sqlCommand { args with db := [] }
      (args :: rounds, answer)
    else if "ERROR 2003".toList.isPrefixOf p.stderr then
      ([args], some (.error (.plain (String.ofList p.stderr) ServerException.ER_DBCONN)))
    else ([args], some (.output p.stderr none))
  termination_by args.db.length
  decreasing_by exact List.length_pos_of_ne_nil _h.2

/-- `run_sql_command`, for a request with the statement `sql`. -/
def runSqlCommand (sql : Text) (args : ClientArguments) :
    List ClientArguments × Option SqlResponse :=
  runLoop popen (escapeQuotes sql) args

end WorkloadSimulator.Stress.SqlConsole
