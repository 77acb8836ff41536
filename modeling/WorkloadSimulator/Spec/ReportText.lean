import WorkloadSimulator.App.ReportText
import WorkloadSimulator.Spec.ReportFile

/-!
# Reading the report files back

Whether the text of a report file is read as the rows that have been written to it. A row that
is written before the header, or a file that is closed before, leaves a text without a header
in its place.

## Key results

- `readReport_fileLines`: a text is a report exactly when its header stands before its rows
- `report_reads_iff`: when the text of a report file is read as its rows, in any interleaving
-/

namespace WorkloadSimulator

variable {timeText : Nat → String} {parseTime : String → Option Nat}

/-! ## Rows -/

/-- A row is read as it was written. -/
theorem readMetric_convertCsvMetric (htime : ∀ ts, parseTime (timeText ts) = some ts)
    (c : CsvMetric) : readMetric parseTime (convertCsvMetric timeText c) = some c := by
  -- a count in decimal digits is read as itself
  have hnat : ∀ n : Nat, Nat.ofNumeral? (Int.numeral n) = some n := by
    intro n
    rw [Int.numeral, if_neg (by omega), Int.natAbs_natCast, Nat.ofNumeral?_toDigits]
  simp [readMetric, convertCsvMetric, htime, hnat]

/-- A row has fields, so that it is no empty line. -/
theorem convertCsvMetric_ne_nil (c : CsvMetric) : convertCsvMetric timeText c ≠ [] :=
  List.cons_ne_nil _ _

/-- A row is no header. -/
theorem convertCsvMetric_ne_headerFields (c : CsvMetric) :
    convertCsvMetric timeText c ≠ headerFields := by
  intro h
  have hworkers : Int.numeral c.nWorkers = "workers".toList := by
    -- the number of workers stands where the header has a word, which is no number
    have hget := congrArg (fun l => l[5]?) h
    exact Option.some.inj hget
  have hnone : Int.ofNumeral? "workers".toList = none := by decide
  have hnumeral := Int.ofNumeral?_numeral c.nWorkers
  rw [hworkers, hnone] at hnumeral
  cases hnumeral

/-- The lines of a file: the rows before its header, and its header with the rows behind it if
    it has one. -/
def fileLines (timeText : Nat → String) (early : List CsvMetric) (late : Option (List CsvMetric)) :
    List (List (List Char)) :=
  early.map (convertCsvMetric timeText) ++
    late.elim [] fun rows => headerFields :: rows.map (convertCsvMetric timeText)

/-- A report is read exactly when its header stands before its rows. -/
theorem readReport_fileLines (htime : ∀ ts, parseTime (timeText ts) = some ts)
    (early : List CsvMetric) (late : Option (List CsvMetric)) :
    readReport parseTime (Csv.writeAll (fileLines timeText early late)) =
      if early = [] then late else none := by
  -- neither a row nor the header is an empty line
  have hne : ∀ r ∈ fileLines timeText early late, r ≠ [] := by
    intro r hr
    rcases List.mem_append.mp hr with hr | hr
    · obtain ⟨c, -, rfl⟩ := List.mem_map.mp hr
      exact convertCsvMetric_ne_nil c
    · cases late with
      | none => cases hr
      | some rows =>
        rcases List.mem_cons.mp hr with rfl | hr
        · exact List.cons_ne_nil _ _
        · obtain ⟨c, -, rfl⟩ := List.mem_map.mp hr
          exact convertCsvMetric_ne_nil c
  rw [readReport, Csv.read_writeAll hne]
  -- by the first line: the header, a row or none
  cases early with
  | nil =>
    cases late with
    | none => rfl
    | some rows =>
      have hrows : (rows.map (convertCsvMetric timeText)).mapM (readMetric parseTime) =
          some rows := by
        -- each row is read as itself
        rw [List.mapM_map]
        have hmap := List.mapM_eq_some_map (f := readMetric parseTime ∘ convertCsvMetric timeText)
          (g := id) (l := rows) |>.mpr fun c _ => readMetric_convertCsvMetric htime c
        rwa [List.map_id] at hmap
      show (if headerFields = headerFields then _ else none) = _
      rw [if_pos rfl, hrows]
      rfl
  | cons c early => exact if_neg (convertCsvMetric_ne_headerFields c)

/-! ## Steps -/

namespace App

variable {s s' : App} {e : Event}

/-- The rows of a file are picked one by one. -/
theorem rowsTo_append (file : String) (written written' : List (String × CsvMetric)) :
    rowsTo file (written ++ written') = rowsTo file written ++ rowsTo file written' := by
  simp [rowsTo]

/-- What a step writes. -/
theorem written_of_step (h : s.step e = some s') : s'.written = s.written ++ s.rowsOfStep e := by
  -- a handler that is writing adds its rows, and no other step writes
  obtain ⟨-, hm⟩ := moves_of_step h
  cases hm with
  | writeCsv hh => simp only [rowsOfStep, hh]
  | _ => exact (List.append_nil _).symm

/-- The directory of the reports stays the one that the process was started with. -/
theorem reportDir_of_step (h : s.step e = some s') : s'.reportDir = s.reportDir := by
  obtain ⟨-, hm⟩ := moves_of_step h
  cases hm <;> rfl

/-- Rows are only written to the file that is in place. -/
theorem rowsTo_rowsOfStep {file : String} (hfile : s.reportfile ≠ some file) :
    rowsTo file (s.rowsOfStep e) = [] := by
  -- the rows of a step are all for the file in place, which is another one
  have hnone : ∀ x ∈ s.rowsOfStep e, (x.1 == file) = false := by
    intro x hx
    cases e with
    | writeCsv h =>
      simp only [rowsOfStep] at hx
      split at hx
      · obtain ⟨hplace, -⟩ := mem_reportRows.mp (show (x.1, x.2) ∈ _ from hx)
        rw [beq_eq_false_iff_ne]
        rintro rfl
        exact hfile hplace
      · cases hx
    | _ => cases hx
  rw [rowsTo, List.filter_eq_nil_iff.mpr fun x hx => by simp [hnone x hx], List.map_nil]

/-- A file is in place because it was before, or because it has just been created. -/
theorem reportfile_of_step {file : String} (h : s.step e = some s')
    (hfile : s'.reportfile = some file) :
    s.reportfile = some file ∨ ∃ i b, e = .openReport i b true ∧ file = reportName s.reportDir b := by
  obtain ⟨-, hm⟩ := moves_of_step h
  cases hm with
  | openReport b c hh =>
    cases c with
    | false => cases hfile
    | true => exact .inr ⟨_, b, rfl, (Option.some.inj hfile).symm⟩
  -- a handler that ends may close the file, and then none is in place
  | @killed h closes hh =>
    cases closes with
    | false => exact .inl hfile
    | true => cases hfile
  | _ => exact .inl hfile

end App

namespace ReportFiles

variable {dir : String} {s s' : ReportFiles}

/-- A step of the process with its files is one of the process. -/
theorem app_of_step {e : WorkloadSimulator.Event} (h : s.step timeText (.app e) = some s') :
    ∃ app, s.app.step e = some app ∧ s' = s.afterStep timeText app e := by
  unfold step at h
  dsimp only at h
  split at h
  · cases h
  · obtain ⟨app, happ, rfl⟩ := Option.map_eq_some_iff.mp h
    exact ⟨app, happ, rfl⟩

/-- A header is written by a handler that has one to write, to a file that may be closed by then. -/
theorem header_of_step {h : Nat} (hstep : s.step timeText (.header h) = some s') :
    ∃ file, s.unheaded.lookup h = some file ∧ s' = { s with
      unheaded := s.unheaded.filter fun x => x.1 != h
      text := if file ∈ s.closed then s.text else s.append file writeHeader } := by
  unfold step at hstep
  dsimp only at hstep
  split at hstep
  · cases hstep
  · unfold header at hstep
    split at hstep
    · rename_i file hfile
      exact ⟨file, hfile, (Option.some.inj hstep).symm⟩
    · cases hstep

/-- The batch of a file that a step creates. -/
def Event.created : Event → Option String
  | .app (.openReport _ batchId true) => some batchId
  | _ => none

/-- The batches of the files that have been created. -/
def created (es : List Event) : List String := es.filterMap Event.created

/-- What a step of the process leaves of a file that it does not create. -/
theorem text_afterStep {app : App} {e : WorkloadSimulator.Event} {file : String}
    (hnew : ∀ b, (Event.app e).created = some b → reportName s.app.reportDir b ≠ file) :
    (s.afterStep timeText app e).text file =
      s.text file ++ writeCsv timeText (App.rowsTo file (s.app.rowsOfStep e)) := by
  -- a step that creates a file empties that one only; the others add their rows
  unfold afterStep
  split
  · rename_i h b
    have hne : file ≠ reportName s.app.reportDir b := (hnew b rfl).symm
    show Function.update s.text (reportName s.app.reportDir b) [] file = _
    rw [Function.update_of_ne hne]
    simp [App.rowsOfStep, App.rowsTo, writeCsv, Csv.writeAll]
  · rfl

/-- The process takes its own step. -/
theorem app_afterStep (s : ReportFiles) (app : App) (e : WorkloadSimulator.Event) :
    (s.afterStep timeText app e).app = app := by
  unfold afterStep
  split <;> rfl

/-- A step that creates no file leaves the headers that are still to be written. -/
theorem unheaded_afterStep {app : App} {e : WorkloadSimulator.Event}
    (hnone : (Event.app e).created = none) :
    (s.afterStep timeText app e).unheaded = s.unheaded := by
  unfold afterStep
  split
  · cases hnone
  · rfl

/-- Only `openReport` with success creates a file. -/
theorem eq_openReport {e : WorkloadSimulator.Event} {b : String}
    (h : (Event.app e).created = some b) : ∃ i, e = .openReport i b true := by
  unfold Event.created at h
  split at h
  · rename_i i b' heq
    cases heq
    cases h
    exact ⟨i, rfl⟩
  · cases h

/-- Rows are added behind those of a file that is not created anew. -/
theorem text_of_step {app : App} {e : WorkloadSimulator.Event} {file : String}
    (happ : s.app.step e = some app)
    (hnew : ∀ b, (Event.app e).created = some b → reportName s.app.reportDir b ≠ file) :
    App.rowsTo file app.written =
        App.rowsTo file s.app.written ++ App.rowsTo file (s.app.rowsOfStep e) ∧
      (s.afterStep timeText app e).text file =
        s.text file ++ writeCsv timeText (App.rowsTo file (s.app.rowsOfStep e)) := by
  rw [App.written_of_step happ, App.rowsTo_append]
  exact ⟨rfl, text_afterStep hnew⟩

/-- Rows are written one behind the other. -/
theorem writeCsv_append (rows rows' : List CsvMetric) :
    writeCsv timeText (rows ++ rows') = writeCsv timeText rows ++ writeCsv timeText rows' := by
  simp [writeCsv, Csv.writeAll]

/-- The files of a run in which no batch is drawn twice, as long as they have no header. -/
structure Unheaded (timeText : Nat → String) (dir : String) (es : List Event) (s : ReportFiles) :
    Prop where
  reportDir : s.app.reportDir = dir
  fresh : ∀ file, (∀ b ∈ created es, reportName dir b ≠ file) →
    App.rowsTo file s.app.written = [] ∧ s.text file = [] ∧ s.app.reportfile ≠ some file
  created : ∀ x ∈ s.unheaded, ∃ b ∈ ReportFiles.created es, reportName dir b = x.2
  nodup : (s.unheaded.map Prod.snd).Nodup
  text : ∀ x ∈ s.unheaded, s.text x.2 = writeCsv timeText (App.rowsTo x.2 s.app.written)

/-- Nothing has been written when the process starts. -/
theorem unheaded_init : Unheaded timeText dir [] (init dir) where
  reportDir := rfl
  fresh _ _ := ⟨rfl, rfl, by simp [init, App.init]⟩
  created x hx := by cases hx
  nodup := List.nodup_nil
  text x hx := by cases hx

/-- What a lookup finds is an entry. -/
theorem mem_of_lookup {l : List (Nat × String)} {h : Nat} {file : String}
    (hl : l.lookup h = some file) : (h, file) ∈ l := by
  obtain ⟨before, behind, rfl, -⟩ := List.lookup_eq_some_iff.mp hl
  simp

/-- The other files that have no header yet are not the one that gets it. -/
theorem ne_of_mem_filter {l : List (Nat × String)} (hl : (l.map Prod.snd).Nodup) {h : Nat}
    {file : String} (hmem : (h, file) ∈ l) {x : Nat × String}
    (hx : x ∈ l.filter fun x => x.1 != h) : x ∈ l ∧ x.2 ≠ file := by
  obtain ⟨hxl, hne⟩ := List.mem_filter.mp hx
  refine ⟨hxl, fun heq => ?_⟩
  -- no two handlers write the header of one file
  have hsame := List.inj_on_of_nodup_map hl hxl hmem heq
  rw [hsame] at hne
  simp at hne

/-- A header leaves the other files as they are. -/
theorem Unheaded.header {es : List Event} {h : Nat} (hs : Unheaded timeText dir es s)
    (hstep : s.step timeText (.header h) = some s') :
    Unheaded timeText dir (es ++ [.header h]) s' := by
  obtain ⟨file, hfile, rfl⟩ := header_of_step hstep
  have hmem := mem_of_lookup hfile
  have hcreated : ReportFiles.created (es ++ [.header h]) = ReportFiles.created es := by
    simp [ReportFiles.created, Event.created]
  -- only the text of the file with the header changes
  have htext : ∀ f, f ≠ file →
      (if file ∈ s.closed then s.text else s.append file writeHeader) f = s.text f := by
    intro f hf
    split
    · rfl
    · exact Function.update_of_ne hf _ _
  refine ⟨hs.reportDir, ?_, ?_, ?_, ?_⟩
  -- a file that has not been created is not the one with the header
  · intro f hf
    rw [hcreated] at hf
    obtain ⟨hrows, hempty, hplace⟩ := hs.fresh f hf
    obtain ⟨b, hb, hname⟩ := hs.created _ hmem
    refine ⟨hrows, ?_, hplace⟩
    exact (htext f fun heq => hf b hb (hname.trans heq.symm)).trans hempty
  · intro x hx
    rw [hcreated]
    exact hs.created x (List.mem_filter.mp hx).1
  · exact hs.nodup.sublist (List.filter_sublist.map _)
  -- a file that still has no header is another one
  · intro x hx
    obtain ⟨hxl, hne⟩ := ne_of_mem_filter hs.nodup hmem hx
    exact (htext x.2 hne).trans (hs.text x hxl)

/-- The batches after one event more. -/
theorem created_concat (es : List Event) (e : Event) :
    created (es ++ [e]) = created es ++ e.created.toList := by
  rw [created, List.filterMap_append]
  cases h : e.created <;> simp [created, h]

/-- A step that creates no file. -/
theorem Unheaded.of_none {es : List Event} {e : WorkloadSimulator.Event}
    (hs : Unheaded timeText dir es s) (hnone : (Event.app e).created = none)
    (hstep : s.step timeText (.app e) = some s') :
    Unheaded timeText dir (es ++ [.app e]) s' := by
  obtain ⟨app, happ, rfl⟩ := app_of_step hstep
  have hcreated : ReportFiles.created (es ++ [.app e]) = ReportFiles.created es := by
    rw [created_concat, hnone, Option.toList_none, List.append_nil]
  have htext : ∀ file, App.rowsTo file app.written = _ ∧
      (s.afterStep timeText app e).text file = _ := fun file =>
    text_of_step happ fun b hb => by
      rw [hnone] at hb
      cases hb
  -- the five fields of `Unheaded`, with the text last
  refine ⟨?_, ?_, ?_, ?_, ?_⟩
  · rw [app_afterStep]
    exact (App.reportDir_of_step happ).trans hs.reportDir
  · intro file hfile
    rw [hcreated] at hfile
    obtain ⟨hrows, hempty, hplace⟩ := hs.fresh file hfile
    obtain ⟨hrows', htext'⟩ := htext file
    -- nothing is written to a file that is not in place
    have hnew : App.rowsTo file (s.app.rowsOfStep e) = [] := App.rowsTo_rowsOfStep hplace
    rw [hnew] at hrows' htext'
    rw [app_afterStep, hrows', htext', hrows, hempty]
    refine ⟨rfl, rfl, fun hplace' => ?_⟩
    rcases App.reportfile_of_step happ hplace' with hplace' | ⟨i, b, rfl, -⟩
    · exact hplace hplace'
    · cases hnone
  · rw [unheaded_afterStep hnone, hcreated]
    exact hs.created
  · rw [unheaded_afterStep hnone]
    exact hs.nodup
  · rw [unheaded_afterStep hnone, app_afterStep]
    intro x hx
    rw [(htext x.2).1, (htext x.2).2, writeCsv_append, hs.text x hx]

/-- A step that creates a file. -/
theorem Unheaded.of_openReport {es : List Event} {i : Nat} {b : String}
    (hs : Unheaded timeText dir es s) (hfresh : b ∉ ReportFiles.created es)
    (hstep : s.step timeText (.app (.openReport i b true)) = some s') :
    Unheaded timeText dir (es ++ [.app (.openReport i b true)]) s' := by
  obtain ⟨app, happ, rfl⟩ := app_of_step hstep
  have hcreated : ReportFiles.created (es ++ [.app (.openReport i b true)]) =
      ReportFiles.created es ++ [b] := created_concat _ _
  -- the name of a file tells its batch
  have hother : ∀ b' ∈ ReportFiles.created es, reportName dir b' ≠ reportName dir b := by
    intro b' hb' heq
    exact hfresh (reportName_inj heq ▸ hb')
  -- creating a file writes no row
  have hwritten : app.written = s.app.written := by
    rw [App.written_of_step happ]
    exact List.append_nil _
  obtain ⟨hrows, -, -⟩ := hs.fresh (reportName dir b) hother
  have hname : reportName s.app.reportDir b = reportName dir b := by rw [hs.reportDir]
  show Unheaded timeText dir _ (ReportFiles.mk app ((i, reportName s.app.reportDir b) :: s.unheaded)
    (s.closed.filter fun x => x != reportName s.app.reportDir b)
    (Function.update s.text (reportName s.app.reportDir b) []))
  rw [hname]
  refine ⟨?_, ?_, ?_, ?_, ?_⟩
  · exact (App.reportDir_of_step happ).trans hs.reportDir
  · intro file hfile
    rw [hcreated] at hfile
    have hne : file ≠ reportName dir b := (hfile b (by simp)).symm
    obtain ⟨hrows, hempty, hplace⟩ := hs.fresh file fun b' hb' =>
      hfile b' (List.mem_append_left _ hb')
    refine ⟨?_, ?_, fun hplace' => ?_⟩
    · show App.rowsTo file app.written = []
      rw [hwritten, hrows]
    · exact (Function.update_of_ne hne _ _).trans hempty
    · rcases App.reportfile_of_step happ hplace' with hplace' | ⟨i', b', heq, hfile'⟩
      · exact hplace hplace'
      · cases heq
        exact hne (hfile'.trans hname)
  -- the new file is the one of this batch, the others those of before
  · intro x hx
    rw [hcreated]
    rcases List.mem_cons.mp hx with rfl | hx
    · exact ⟨b, by simp, rfl⟩
    · obtain ⟨b', hb', heq⟩ := hs.created x hx
      exact ⟨b', List.mem_append_left _ hb', heq⟩
  -- the batch is new, so its file has not been waiting for a header
  · refine List.nodup_cons.mpr ⟨fun hmem => ?_, hs.nodup⟩
    obtain ⟨x, hx, heq⟩ := List.mem_map.mp hmem
    obtain ⟨b', hb', heq'⟩ := hs.created x hx
    exact hother b' hb' (heq'.trans heq)
  · intro x hx
    show Function.update s.text (reportName dir b) [] x.2 =
      writeCsv timeText (App.rowsTo x.2 app.written)
    rw [hwritten]
    -- the new file is empty, and no row is for it; the texts of the others stay
    rcases List.mem_cons.mp hx with rfl | hx
    · rw [hrows]
      exact Function.update_self _ _ _
    · obtain ⟨b', hb', heq⟩ := hs.created x hx
      rw [Function.update_of_ne fun hsame => hother b' hb' (heq.trans hsame), hs.text x hx]

/-- The files of a run in which no batch is drawn twice. -/
theorem unheaded_of_run {es : List Event} (hfresh : (created es).Nodup)
    (h : Machine.run (step timeText) (init dir) es = some s) : Unheaded timeText dir es s := by
  -- the events are those of a run, in which the batch of the last one is new
  revert hfresh
  refine Machine.run_history (P := fun es s => (created es).Nodup → Unheaded timeText dir es s)
    (fun _ => unheaded_init) ?_ h
  intro es t e u _ ih hstep hfresh
  rw [created_concat] at hfresh
  have ht := ih hfresh.of_append_left
  cases e with
  | header i => exact ht.header hstep
  | app e =>
    cases hcreated : (Event.app e).created with
    | none => exact ht.of_none hcreated hstep
    | some b =>
      obtain ⟨i, rfl⟩ := eq_openReport hcreated
      refine ht.of_openReport (fun hmem => ?_) hstep
      exact List.disjoint_of_nodup_append hfresh hmem (by simp [hcreated])

/-- The text of a file from its header on, with the rows `early` before. -/
structure Headed (timeText : Nat → String) (dir file : String) (early : List CsvMetric)
    (headed : Bool) (s : ReportFiles) : Prop where
  reportDir : s.app.reportDir = dir
  unheaded : ∀ x ∈ s.unheaded, x.2 ≠ file
  text : ∃ late, App.rowsTo file s.app.written = early ++ late ∧
    s.text file = Csv.writeAll (fileLines timeText (if headed then early else early ++ late)
      (if headed then some late else none))

variable {file : String} {early : List CsvMetric} {headed : Bool}

/-- The file stays as it is but for rows at its end. -/
theorem Headed.step {e : Event} (hs : Headed timeText dir file early headed s)
    (hnew : ∀ b ∈ e.created, reportName dir b ≠ file)
    (hstep : s.step timeText e = some s') : Headed timeText dir file early headed s' := by
  -- another header, or a step of the process that may write rows
  cases e with
  | header h =>
    obtain ⟨f, hf, rfl⟩ := header_of_step hstep
    have hne : file ≠ f := (hs.unheaded _ (mem_of_lookup hf)).symm
    -- the header of another file
    refine ⟨hs.reportDir, fun x hx => hs.unheaded x (List.mem_filter.mp hx).1, ?_⟩
    obtain ⟨late, hrows, htext⟩ := hs.text
    refine ⟨late, hrows, Eq.trans ?_ htext⟩
    dsimp only
    split
    · rfl
    · exact Function.update_of_ne hne _ _
  | app e =>
    obtain ⟨app, happ, rfl⟩ := app_of_step hstep
    -- the file is not created anew
    have hname : ∀ b, (Event.app e).created = some b → reportName s.app.reportDir b ≠ file := by
      intro b hb
      rw [hs.reportDir]
      exact hnew b hb
    obtain ⟨hrows', htext'⟩ : App.rowsTo file app.written = _ ∧
        (s.afterStep timeText app e).text file = _ := text_of_step happ hname
    refine ⟨?_, ?_, ?_⟩
    · rw [app_afterStep]
      exact (App.reportDir_of_step happ).trans hs.reportDir
    · cases hcreated : (Event.app e).created with
      | none =>
        rw [unheaded_afterStep hcreated]
        exact hs.unheaded
      | some b =>
        obtain ⟨i, rfl⟩ := eq_openReport hcreated
        intro x hx
        rcases List.mem_cons.mp hx with rfl | hx
        · exact hname b hcreated
        · exact hs.unheaded x hx
    · obtain ⟨late, hrows, htext⟩ := hs.text
      -- the rows of the step stand behind the late ones
      refine ⟨late ++ App.rowsTo file (s.app.rowsOfStep e), ?_, ?_⟩
      · rw [app_afterStep, hrows', hrows, List.append_assoc]
      · rw [htext', htext]
        cases headed <;> simp [fileLines, writeCsv, Csv.writeAll]

/-- The header is written behind the rows that are there. -/
theorem Unheaded.writeHeader {es : List Event} {h : Nat} (hs : Unheaded timeText dir es s)
    (hfile : s.unheaded.lookup h = some file) (hstep : s.step timeText (.header h) = some s') :
    Headed timeText dir file (App.rowsTo file s.app.written) (decide (file ∉ s.closed)) s' := by
  obtain ⟨f, hf, rfl⟩ := header_of_step hstep
  obtain rfl : file = f := Option.some.inj (hfile.symm.trans hf)
  have hmem := mem_of_lookup hfile
  -- the file has had its header now, and no other handler has one for it
  refine ⟨hs.reportDir, fun x hx => (ne_of_mem_filter hs.nodup hmem hx).2, [], ?_, ?_⟩
  · rw [List.append_nil]
  · have htext := hs.text _ hmem
    dsimp only at htext ⊢
    -- a file that is closed gets no header; an open one gets it behind the early rows
    split
    · rename_i hclosed
      rw [htext]
      simp [hclosed, fileLines, writeCsv]
    · rename_i hclosed
      rw [append, Function.update_self, htext]
      simp [hclosed, fileLines, writeCsv, WorkloadSimulator.writeHeader, Csv.writeAll]

/-- In a run in which no batch is drawn twice, a report file is read as the rows that have been
    written to it, at any time from the write of its header on, exactly when the header was
    written before any row, and before the file was closed. -/
theorem report_reads_iff (htime : ∀ ts, parseTime (timeText ts) = some ts) {t : ReportFiles}
    {pre post : List Event} {h : Nat} (hfresh : (created (pre ++ .header h :: post)).Nodup)
    (hpre : Machine.run (step timeText) (init dir) pre = some t)
    (hfile : t.unheaded.lookup h = some file)
    (hrun : Machine.run (step timeText) (init dir) (pre ++ .header h :: post) = some s) :
    readReport parseTime (s.text file) = some (App.rowsTo file s.app.written) ↔
      App.rowsTo file t.app.written = [] ∧ file ∉ t.closed := by
  -- the run up to the header, its step, and the run from there
  obtain ⟨t', ht', hrun⟩ := (Machine.run_append_eq_some (step timeText)).mp hrun
  obtain rfl := Option.some.inj (hpre.symm.trans ht')
  obtain ⟨u, hu, hrun⟩ := Option.bind_eq_some_iff.mp hrun
  have hcreated : created (pre ++ .header h :: post) = created pre ++ created post := by
    rw [created, List.filterMap_append, List.filterMap_cons_none rfl]
    rfl
  rw [hcreated] at hfresh
  have ht := unheaded_of_run hfresh.of_append_left hpre
  -- the file is not created again
  have hnew : ∀ b ∈ created post, reportName dir b ≠ file := by
    obtain ⟨b, hb, hname⟩ := ht.created _ (mem_of_lookup hfile)
    intro b' hb' heq
    obtain rfl := reportName_inj (hname.trans heq.symm)
    exact List.disjoint_of_nodup_append hfresh hb hb'
  -- from the header on the file is only appended to
  have hs := Machine.run_history (P := fun es s => (∀ b ∈ created es, reportName dir b ≠ file) →
      Headed timeText dir file (App.rowsTo file t.app.written) (decide (file ∉ t.closed)) s)
    (fun _ => ht.writeHeader hfile hu) (fun es v e w _ ih hstep hnew => by
      rw [created_concat] at hnew
      refine (ih fun b hb => hnew b (List.mem_append_left _ hb)).step (fun b hb => ?_) hstep
      exact hnew b (List.mem_append_right _ (Option.mem_toList.mpr hb))) hrun hnew
  obtain ⟨late, hrows, htext⟩ := hs.text
  rw [htext, readReport_fileLines htime, hrows]
  -- with a closed file the text has no header; else it is read if no row is early
  by_cases hclosed : file ∈ t.closed
  · simp [hclosed]
  · simp only [hclosed, not_false_eq_true, decide_true, if_true, and_true]
    split
    · rename_i hnil
      simp [hnil]
    · rename_i hne
      simp [hne]

/-- A request for a batch, up to the header of its file. -/
def submission : List Event :=
  [.app (.request (App.sampleForm [("0", "m,1")] "5" "1")), .app (.openReport 0 "b" true)]

/-- A report of that batch, and the file of another one. -/
def collection : List Event :=
  [.app (.readWorkers 0), .app (.launch 0 0)] ++ (App.reports 0 ++ App.collects 1).map .app ++
    [.app (.writeCsv 1), .app (.request (App.sampleForm [("0", "m")] "5" "1")),
      .app (.openReport 2 "c" true)]

/-- The row of a model with a comma in its name. -/
theorem report_with_comma_reads :
    ∃ t s, Machine.run (step itoa) (init "reports") submission = some t ∧
      Machine.run (step itoa) (init "reports") (submission ++ .header 0 :: collection) = some s ∧
      (App.rowsTo (reportName "reports" "b") s.app.written).map (fun c => c.opsModelName) =
        ["m,1"] ∧
      readReport (fun text => Nat.ofNumeral? text.toList) (s.text (reportName "reports" "b")) =
        some (App.rowsTo (reportName "reports" "b") s.app.written) := by
  -- the two runs are computed
  obtain ⟨t, ht, hp⟩ := Machine.exists_run_of_map (step itoa) (init "reports") submission
    (fun t => t.unheaded.lookup 0 == some (reportName "reports" "b") && t.closed.isEmpty &&
      t.app.written.isEmpty) (by decide +kernel)
  obtain ⟨s, hs, hq⟩ := Machine.exists_run_of_map (step itoa) (init "reports")
    (submission ++ .header 0 :: collection)
    (fun s => (App.rowsTo (reportName "reports" "b") s.app.written).map (fun c => c.opsModelName) ==
      ["m,1"]) (by decide +kernel)
  simp only [Bool.and_eq_true, beq_iff_eq, List.isEmpty_iff] at hp hq
  refine ⟨t, s, ht, hs, hq, (report_reads_iff (fun ts => ?_) ?_ ht hp.1.1 hs).mpr ?_⟩
  · rw [itoa, Nat.toList_repr, Nat.ofNumeral?_toDigits]
  · decide
  · rw [hp.1.2, hp.2]
    exact ⟨rfl, List.not_mem_nil⟩

end ReportFiles

end WorkloadSimulator
