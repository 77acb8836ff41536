import WorkloadSimulator.Stress.SqlCommand

/-!
# What the SQL console runs

The settings stand in the command line as they are, and the shell reads the line. It runs the
`mysql` client with the settings as its arguments, and nothing else, exactly when none of them
has a character that means something to the shell, and neither the host nor the user is empty.
Words are not compared with file names here: a password `a[b` or `p*q` is a word as it stands.

A setting that is read as something else could be made up for by what stands behind it in the
line; that it never is, is `Shell.isWord_of_lex`.

## Key results

- `lex_command`: how the line of plain settings is read
- `plain_of_shellCommands`: settings that are read unchanged are plain
- `runs_mysql_iff`: every round of `run_sql_command` runs that client and no more exactly when
  the settings are plain
-/

namespace WorkloadSimulator.Stress.SqlConsole

/-- The words of the command that is meant: no word for the database stands for none. -/
def mysqlWords (args : ClientArguments) : List Text :=
  ["mysql".toList, "-h".toList, args.host, "--socket=".toList ++ unixSocket,
    "--port=".toList ++ decimal args.port, "-u".toList, args.user,
    "--password=".toList ++ args.passwd] ++
  (if args.db = [] then [] else [args.db]) ++ ["--table".toList, "-vvv".toList]

/-- The settings mean nothing to the shell. -/
structure PlainSettings (args : ClientArguments) : Prop where
  host : Shell.IsWord args.host
  user : Shell.IsWord args.user
  passwd : Shell.isPlainText args.passwd = true
  db : args.db = [] ∨ Shell.IsWord args.db

variable {args : ClientArguments}

/-! ## The line -/

/-- The shell reads a port as it stands. -/
theorem isPlainText_decimal (n : Int) : Shell.isPlainText (decimal n) = true := by
  -- digits are ordinary characters
  have hstr : ∀ m : Nat, Shell.isPlainText (str m) = true := by
    intro m
    apply Shell.isPlainText_of_isDigit
    intro c hc
    rw [str, Nat.toList_repr] at hc
    exact Nat.isDigit_of_mem_toDigits (by decide) (by decide) hc
  unfold decimal
  split
  · exact Shell.isPlainText_append (w := ['-']) (by decide) (by decide) (hstr _)
  · exact hstr _

/-- The line as its words, with the spaces between them. -/
theorem command_eq (args : ClientArguments) : command args =
    "mysql".toList ++ ' ' :: ("-h".toList ++ ' ' :: (args.host ++ ' ' ::
    (("--socket=".toList ++ unixSocket) ++ ' ' :: (("--port=".toList ++ decimal args.port) ++ ' ' ::
    ("-u".toList ++ ' ' :: (args.user ++ ' ' :: (("--password=".toList ++ args.passwd) ++ ' ' ::
    (args.db ++ ' ' :: ("--table".toList ++ ' ' :: ("-vvv".toList ++ [';'])))))))))) := by
  have hhost : "mysql -h ".toList = "mysql".toList ++ ' ' :: ("-h".toList ++ [' ']) := rfl
  have hsocket : " --socket=".toList = ' ' :: "--socket=".toList := rfl
  have hport : " --port=".toList = ' ' :: "--port=".toList := rfl
  have huser : " -u ".toList = ' ' :: ("-u".toList ++ [' ']) := rfl
  have hpasswd : " --password=".toList = ' ' :: "--password=".toList := rfl
  have hdb : " ".toList = [' '] := rfl
  have hend : " --table -vvv;".toList =
      ' ' :: ("--table".toList ++ ' ' :: ("-vvv".toList ++ [';'])) := rfl
  unfold command
  simp only [hhost, hsocket, hport, huser, hpasswd, hdb, hend, List.append_assoc,
    List.cons_append, List.nil_append]

theorem isWord_socket : Shell.IsWord ("--socket=".toList ++ unixSocket) := by decide

theorem isWord_port (n : Int) : Shell.IsWord ("--port=".toList ++ decimal n) :=
  Shell.IsWord.append (by decide) (by decide) (isPlainText_decimal n)

/-- How the line of plain settings is read. -/
theorem lex_command (h : PlainSettings args) :
    Shell.lex .gap (command args) = some ((mysqlWords args).map .word ++ [.ends]) := by
  -- the word of the password is never empty, because of what stands before it
  have hpasswd : Shell.IsWord ("--password=".toList ++ args.passwd) :=
    Shell.IsWord.append (by decide) (by decide) h.passwd
  have hlast : Shell.lex .gap ("-vvv".toList ++ [';']) = some [.word "-vvv".toList, .ends] := by
    decide
  rw [command_eq, Shell.lex_gap_append (by decide), Shell.lex_gap_append (by decide),
    Shell.lex_gap_append h.host, Shell.lex_gap_append isWord_socket,
    Shell.lex_gap_append (isWord_port _), Shell.lex_gap_append (by decide),
    Shell.lex_gap_append h.user, Shell.lex_gap_append hpasswd]
  -- an empty database leaves two spaces, and no word
  by_cases hdb : args.db = []
  · rw [hdb, List.nil_append, Shell.lex_gap_space, Shell.lex_gap_append (by decide), hlast]
    simp only [mysqlWords, if_pos hdb]
    rfl
  · rw [Shell.lex_gap_append (h.db.resolve_left hdb), Shell.lex_gap_append (by decide), hlast]
    simp only [mysqlWords, if_neg hdb]
    rfl

/-- The line of plain settings is one that a process can have as an argument. -/
theorem nul_not_mem_command (h : PlainSettings args) : '\x00' ∉ command args := by
  -- a plain text has no such character
  have hplain : ∀ {t : Text}, Shell.isPlainText t = true → '\x00' ∉ t :=
    fun ht => Shell.not_mem_of_isPlainText (by intro next; rfl) ht
  have hdb : '\x00' ∉ args.db := by
    rcases h.db with hdb | hdb
    · simp [hdb]
    · exact hplain hdb.plain
  rw [command_eq]
  simp only [List.mem_append, List.mem_cons, hplain h.host.plain, hplain h.user.plain,
    hplain h.passwd, hplain (isPlainText_decimal args.port), hdb, false_or, or_false]
  decide

/-- Plain settings are given to the client, and no other command is run. -/
theorem shellCommands_of_plain (h : PlainSettings args) :
    shellCommands (command args) = some [mysqlWords args] := by
  rw [shellCommands, if_neg (nul_not_mem_command h)]
  exact Shell.commands_of_lex (lex_command h) (by simp [mysqlWords])

/-- Settings that are read unchanged are plain. -/
theorem plain_of_shellCommands (h : shellCommands (command args) = some [mysqlWords args]) :
    PlainSettings args := by
  unfold shellCommands at h
  split at h
  · cases h
  · rw [command_eq] at h
    -- the words that the shell reads are those that are meant, one after the other
    obtain ⟨u, r, hwords, hlex⟩ := Shell.lex_of_commands (by decide) h
    obtain rfl := (List.cons.inj hwords).2
    have hlex := Shell.lex_of_lex_gap_append (by decide) hlex
    obtain ⟨hhost, hlex⟩ := Shell.isWord_of_lex rfl hlex
    have hlex := Shell.lex_of_lex_gap_append isWord_socket hlex
    have hlex := Shell.lex_of_lex_gap_append (isWord_port _) hlex
    have hlex := Shell.lex_of_lex_gap_append (by decide) hlex
    obtain ⟨huser, hlex⟩ := Shell.isWord_of_lex rfl hlex
    -- the password stands behind the beginning of its word
    rw [List.append_assoc, Shell.lex_gap_word (by decide) (.inl (by decide))] at hlex
    obtain ⟨hpasswd, hlex⟩ := Shell.isPlain_of_lex_word hlex
    refine ⟨hhost, huser, hpasswd, ?_⟩
    by_cases hdb : args.db = []
    · exact .inl hdb
    · rw [if_neg hdb] at hlex
      exact .inr (Shell.isWord_of_lex rfl hlex).1

/-! ## The rounds -/

/-- There is a second round at most, and it has no database. -/
theorem rounds_runLoop (popen : Text → Text → Option Finished) (sql : Text)
    (args : ClientArguments) : (runLoop popen sql args).1 = [args] ∨
    (runLoop popen sql args).1 = [args, { args with db := [] }] := by
  -- without a database there is no other round
  have hdone : ∀ args : ClientArguments, args.db = [] → (runLoop popen sql args).1 = [args] := by
    intro args hdb
    rw [runLoop]
    split
    · rfl
    · split
      · split <;> rfl
      · rw [dif_neg (fun h => h.2 hdb)]
        split <;> rfl
  rw [runLoop]
  split
  · exact .inl rfl
  · split
    · split <;> exact .inl rfl
    · split
      · -- the database is not known
        exact .inr (congrArg (args :: ·) (hdone _ rfl))
      · split <;> exact .inl rfl

/-- Whatever becomes of its processes, every round runs one command, the client with the
    settings as its words, exactly when the settings are plain. -/
theorem runs_mysql_iff (popen : Text → Text → Option Finished) (sql : Text)
    (args : ClientArguments) :
    -- the first round has the arguments as they were given
    (∀ round ∈ (runSqlCommand popen sql args).1,
        shellCommands (command round) = some [mysqlWords round]) ↔ PlainSettings args := by
  constructor
  · intro h
    apply plain_of_shellCommands
    apply h
    rcases rounds_runLoop popen (escapeQuotes sql) args with hr | hr <;>
      simp [runSqlCommand, hr]
  · intro h round hround
    apply shellCommands_of_plain
    have hdone : PlainSettings { args with db := [] } := ⟨h.host, h.user, h.passwd, .inl rfl⟩
    -- the second round is made without a database
    rcases rounds_runLoop popen (escapeQuotes sql) args with hr | hr
    · rw [runSqlCommand, hr, List.mem_singleton] at hround
      exact hround ▸ h
    · rw [runSqlCommand, hr, List.mem_cons, List.mem_singleton] at hround
      rcases hround with rfl | rfl
      · exact h
      · exact hdone

/-- Settings with a semicolon in the password. -/
def semicolonSettings : ClientArguments where
  host := "127.0.0.1".toList
  port := 3306
  user := "root".toList
  passwd := "p;reboot".toList
  db := "test".toList

/-- The shell runs a second command. -/
theorem reboot_after_mysql :
    shellCommands (command semicolonSettings) =
        some [["mysql".toList, "-h".toList, "127.0.0.1".toList, "--socket=/tmp/memsql.sock".toList,
            "--port=3306".toList, "-u".toList, "root".toList, "--password=p".toList],
          ["reboot".toList, "test".toList, "--table".toList, "-vvv".toList]] ∧
      ¬ ∀ popen sql args, ∀ round ∈ (runSqlCommand popen sql args).1,
        shellCommands (command round) = some [mysqlWords round] := by
  refine ⟨by decide +kernel, fun hall => ?_⟩
  -- the first round would have a plain password
  have h := hall (fun _ _ => none) [] semicolonSettings semicolonSettings
    (by simp [runSqlCommand, runLoop])
  exact absurd (plain_of_shellCommands h).passwd (by decide)

end WorkloadSimulator.Stress.SqlConsole
