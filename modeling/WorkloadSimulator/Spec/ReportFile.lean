import WorkloadSimulator.Spec.AppRun

/-!
# What is written to the report files

`handleStats` builds its rows from a `Report` and writes them later, to the report file
that is in place then. The rows are a function of the `Stat`s the monitor had received
when it built the `Report`; the file is the one of the last `/workload` request.

## Key results

- `rows_eq_csvRows`: the rows of a handler are those of the `Stat`s it collected
- `rows_coherent_iff`: each row names the model of its rate exactly when all models that
  have reported have one name
- `written_own_batch_iff`: the files hold rows of their own batch only exactly when, at
  every write, the file in place is that of the batch of the last `Stat` collected
-/

namespace WorkloadSimulator

/-- Whether the handler `h` receives a `Report`. -/
def Event.isReport (h : Nat) : Event → Bool
  | .report h' _ => h' == h
  | _ => false

/-- Batches with different ids have different report files. -/
theorem reportName_inj {dir b b' : String} (h : reportName dir b = reportName dir b') :
    b = b' := by
  unfold reportName at h
  exact (String.append_right_inj _).mp h

namespace App

/-- The `Stat`s that the monitor had received when the handler `h` received a `Report`. -/
def collected (dir : String) (es : List Event) (h : Nat) : List Stat :=
  statList dir (es.rdropWhile fun e => !e.isReport h)

variable {dir : String} {es : List Event} {s : App}

/-- The handler collects what has been received so far. -/
theorem collected_report (h : Runs dir es s) (i ts : Nat) :
    collected dir (es ++ [.report i ts]) i = statList dir es := by
  rw [collected, List.rdropWhile_concat_neg _ _ _ (by simp [Event.isReport]), statList,
    stats_concat h, received_of_ne (by simp), List.append_nil]
  rfl

theorem collected_of_ne {i : Nat} {e : Event} (h : e.isReport i = false) :
    collected dir (es ++ [e]) i = collected dir es i := by
  rw [collected, List.rdropWhile_concat_pos _ _ _ (by simp [h])]
  rfl

/-! ## Rows -/

/-- A handler has its rows since before a step, or receives its `Report` in it. -/
theorem writing_of_step {t u : App} {e : Event} {i : Nat} {records : List CsvMetric}
    {resp : Response} (he : t.step e = some u)
    (hu : u.handlers[i]? = some (.writing records resp)) :
    (t.handlers[i]? = some (.writing records resp) ∧ e.isReport i = false) ∨
      ∃ ts r, e = .report i ts ∧ t.monitor.reporting = some r ∧
        records = csvRows ts t.currentWorkers r ∧
        resp = .stats r.requestPerS r.requestLagDone := by
  obtain ⟨-, hm⟩ := moves_of_step he
  cases hm with
  | request r =>
    -- no handler starts with rows
    rcases List.getElem?_concat_eq_some hu with hold | ⟨-, hnew⟩
    · exact .inl ⟨hold, rfl⟩
    · cases r with
      | workload form =>
        rcases readForm_cases form with ⟨_, _, _, hform⟩ | ⟨_, hform⟩
        · exact nomatch hnew.trans hform
        · exact nomatch hnew.trans hform
      | pause | kill | stats => exact nomatch hnew
  | report hh hr =>
    rename_i ts r
    rcases List.getElem?_set_eq_some hu with ⟨rfl, hx⟩ | ⟨hne, hold⟩
    · obtain ⟨rfl, rfl⟩ := Handler.writing.inj hx
      exact .inr ⟨ts, r, rfl, hr, rfl, rfl⟩
    · exact .inl ⟨hold, by simpa [Event.isReport] using hne⟩
  -- the other parties touch no handler
  | worker hw ha | monitorTick hm | stat hw hst hm => exact .inl ⟨hu, rfl⟩
  | openReport b c hh | noWork hh hn | badWorkers hh hn hnw | setWorkers hh hn hnw
  | launch hh hi hr hm | panic hh hi hr hm | launched hh hi | killed hh | timeout hh
  | writeCsv hh | kill hh hw hsel =>
    rcases List.getElem?_set_eq_some hu with ⟨-, hx⟩ | ⟨-, hold⟩
    · exact nomatch hx
    · exact .inl ⟨hold, rfl⟩

/-- The rows of a handler, and its response, are those of the report that the monitor makes
    of the `Stat`s collected. -/
theorem rows_eq_csvRows (h : Runs dir es s) {i : Nat} {records : List CsvMetric}
    {resp : Response} (hh : s.handlers[i]? = some (.writing records resp)) :
    ∃ r ts nw, r = (StatsMonitor.after (collected dir es i)).makeReport ∧
      records = csvRows ts nw r ∧ resp = .stats r.requestPerS r.requestLagDone := by
  -- the rows are made once, in the step in which the report is received
  refine Machine.run_history (P := fun es s => ∀ i records resp,
    s.handlers[i]? = some (.writing records resp) →
      ∃ r ts nw, r = (StatsMonitor.after (collected dir es i)).makeReport ∧
        records = csvRows ts nw r ∧ resp = .stats r.requestPerS r.requestLagDone)
    (by simp [init]) ?_ h i records resp hh
  intro es t e u ht ih he i records resp hu
  rcases writing_of_step he hu with ⟨hold, hne⟩ | ⟨ts, r, rfl, hr, hrec, hresp⟩
  · rw [collected_of_ne hne]
    exact ih i records resp hold
  · rw [collected_report ht]
    exact ⟨r, ts, t.currentWorkers, reporting_eq_after ht hr, hrec, hresp⟩

/-! ## Model names -/

/-- The name of the model `m` in the last `Stat` of it, the one its rate is taken from. -/
def modelName? (sts : List Stat) (m : String) : Option String :=
  (sts.findRev? (Stat.ofModel m)).map (·.workload.modelName)

/-- The row is made for the entry of the rates, and names the model of its key. -/
structure RowOf (sts : List Stat) (entry : Sigma fun _ : String => Nat) (row : CsvMetric) :
    Prop where
  rate : row.reqPerSec = entry.2
  name : modelName? sts entry.1 = some row.opsModelName

/-- The models with a rate are those with a name. -/
theorem modelName?_isSome {sts : List Stat} {m : String} :
    (modelName? sts m).isSome ↔ m ∈ (StatsMonitor.after sts).requestPerSec := by
  rw [← AList.lookup_isSome, StatsMonitor.after_requestPerSec, modelName?, Option.isSome_map,
    Option.isSome_map]

/-- A report carries the name of the model that reported last. -/
theorem modelName?_of_last (sts : List Stat) (last : Stat) :
    modelName? (sts ++ [last]) last.workload.modelId =
      some (StatsMonitor.after (sts ++ [last])).mn := by
  rw [modelName?, List.findRev?_concat, if_pos (Stat.ofModel_iff.mpr rfl),
    StatsMonitor.after_mn]
  rfl

/-- Rows that name the model of their rate all have the name of the report. -/
theorem modelName?_eq_of_rows (h : Runs dir es s) {i : Nat} {records : List CsvMetric}
    {rates lag : GoMap Nat} (hh : s.handlers[i]? = some (.writing records (.stats rates lag)))
    (hrows : List.Forall₂ (RowOf (collected dir es i)) rates.entries records)
    {m m' n n' : String} (hn : modelName? (collected dir es i) m = some n)
    (hn' : modelName? (collected dir es i) m' = some n') : n = n' := by
  obtain ⟨r, ts, nw, hr, rfl, hresp⟩ := rows_eq_csvRows h hh
  obtain ⟨rfl, -⟩ := Response.stats.inj hresp
  rw [csvRows, List.forall₂_map_right_iff, List.forall₂_same] at hrows
  have hname : ∀ m n, modelName? (collected dir es i) m = some n → n = r.modelName := by
    intro m n hn
    -- every model that has reported has a row
    have hmem : m ∈ r.requestPerS := by
      rw [hr]
      exact modelName?_isSome.mp (by rw [hn]; rfl)
    obtain ⟨v, hv⟩ := Option.isSome_iff_exists.mp (AList.lookup_isSome.mpr hmem)
    have hrow := (hrows _ (AList.mem_lookup_iff.mp hv)).name
    rw [hn, csvRow_opsModelName] at hrow
    exact Option.some.inj hrow
  rw [hname m n hn, hname m' n' hn']

/-- Rows name the model of their rate when there is only one name. -/
theorem rows_of_modelName?_eq (h : Runs dir es s) {i : Nat} {records : List CsvMetric}
    {rates lag : GoMap Nat} (hh : s.handlers[i]? = some (.writing records (.stats rates lag)))
    (hsame : ∀ m m' n n', modelName? (collected dir es i) m = some n →
      modelName? (collected dir es i) m' = some n' → n = n') :
    List.Forall₂ (RowOf (collected dir es i)) rates.entries records := by
  obtain ⟨r, ts, nw, hr, rfl, hresp⟩ := rows_eq_csvRows h hh
  obtain ⟨rfl, -⟩ := Response.stats.inj hresp
  generalize collected dir es i = sts at hr hsame ⊢
  -- each row is made of one entry of the report
  rw [csvRows, List.forall₂_map_right_iff, List.forall₂_same]
  intro entry hentry
  have hmem : entry.1 ∈ (StatsMonitor.after sts).requestPerSec := by
    rw [hr] at hentry
    exact AList.lookup_isSome.mp
      (Option.isSome_iff_exists.mpr ⟨entry.2, AList.mem_lookup_iff.mpr hentry⟩)
  obtain ⟨n, hn⟩ := Option.isSome_iff_exists.mp (modelName?_isSome.mpr hmem)
  refine ⟨rfl, ?_⟩
  rw [hn, csvRow_opsModelName]
  rcases List.eq_nil_or_append_singleton sts with rfl | ⟨sts', last, rfl⟩
  · cases hn
  · -- the name in the report is that of the last model
    rw [hsame _ _ _ _ hn (modelName?_of_last sts' last), hr]
    rfl

/-- Each row of `handleStats` names the model its rate is taken from exactly when all the
    models that have reported have the same name. -/
theorem rows_coherent_iff (h : Runs dir es s) {i : Nat} {records : List CsvMetric}
    {rates lag : GoMap Nat} (hh : s.handlers[i]? = some (.writing records (.stats rates lag))) :
    List.Forall₂ (RowOf (collected dir es i)) rates.entries records ↔
      ∀ m m' n n', modelName? (collected dir es i) m = some n →
        modelName? (collected dir es i) m' = some n' → n = n' :=
  ⟨fun hrows _ _ _ _ => modelName?_eq_of_rows h hh hrows, rows_of_modelName?_eq h hh⟩

/-- The events by which the handler `h` of a `/stats` request gets its rows. -/
def collects (h : Nat) : List Event := [.request .stats, .monitorTick, .report h 7]

/-- Two models of one batch: the row of the first has the name of the second, which
    reported last. -/
theorem row_names_last_model :
    ¬ ∀ dir es s i records rates lag, Runs dir es s →
      s.handlers[i]? = some (.writing records (.stats rates lag)) →
      List.Forall₂ (RowOf (collected dir es i)) rates.entries records := by
  intro hall
  obtain ⟨s, hs, hp⟩ := Machine.exists_run_of_map App.step (init "reports")
    (submit 0 (sampleForm [("0", "m"), ("1", "n")] "5" "2") "b" [0, 1] ++ reports 0 ++
      reports 1 ++ collects 1)
    (fun s => (s.handlers[1]?).any Handler.writes) (by decide)
  obtain ⟨x, hh, hx⟩ := (Option.any_eq_true _ _).mp hp
  obtain ⟨records, rates, lag, rfl⟩ := Handler.writes_iff.mp hx
  have hrows := hall _ _ s 1 records rates lag hs hh
  -- both rates carry the name of the worker that reported last
  have h0 : modelName? (collected "reports" (submit 0 (sampleForm [("0", "m"), ("1", "n")] "5"
      "2") "b" [0, 1] ++ reports 0 ++ reports 1 ++ collects 1) 1) "0" = some "m" := by decide
  have h1 : modelName? (collected "reports" (submit 0 (sampleForm [("0", "m"), ("1", "n")] "5"
      "2") "b" [0, 1] ++ reports 0 ++ reports 1 ++ collects 1) 1) "1" = some "n" := by decide
  exact absurd (modelName?_eq_of_rows hs hh hrows h0 h1) (by decide)

/-- Two models that have the same name, each with a worker that reports. -/
def twoOfOneName : List Event :=
  submit 0 (sampleForm [("0", "m"), ("1", "m")] "5" "2") "b" [0, 1] ++ reports 0 ++ reports 1 ++
    collects 1

/-- Both rows have that name. -/
theorem rows_of_one_name :
    ∃ s records rates lag, Runs "reports" twoOfOneName s ∧
      s.handlers[1]? = some (.writing records (.stats rates lag)) ∧
      modelName? (collected "reports" twoOfOneName 1) "0" = some "m" ∧
      modelName? (collected "reports" twoOfOneName 1) "1" = some "m" ∧
      List.Forall₂ (RowOf (collected "reports" twoOfOneName 1)) rates.entries records := by
  obtain ⟨s, hs, hp⟩ := Machine.exists_run_of_map App.step (init "reports") twoOfOneName
    (fun s => (s.handlers[1]?).any Handler.writes) (by decide)
  obtain ⟨x, hh, hx⟩ := (Option.any_eq_true _ _).mp hp
  obtain ⟨records, rates, lag, rfl⟩ := Handler.writes_iff.mp hx
  refine ⟨s, records, rates, lag, hs, hh, by decide, by decide, (rows_coherent_iff hs hh).mpr ?_⟩
  -- all statistics name the same model
  have hm : ∀ st ∈ collected "reports" twoOfOneName 1, st.workload.modelName = "m" := by decide
  intro m m' n n' hn hn'
  obtain ⟨st, hst, rfl⟩ := Option.map_eq_some_iff.mp hn
  obtain ⟨st', hst', rfl⟩ := Option.map_eq_some_iff.mp hn'
  rw [hm st (List.of_findRev?_eq_some hst).1, hm st' (List.of_findRev?_eq_some hst').1]

/-! ## Files -/

/-- A row is written to the file in place when its handler writes. -/
theorem mem_reportRows {records : List CsvMetric} {file : String} {row : CsvMetric} :
    (file, row) ∈ s.reportRows records ↔ s.reportfile = some file ∧ row ∈ records := by
  unfold reportRows
  split
  -- there is a file in place
  · rename_i f hf
    rw [List.mem_map]
    constructor
    · rintro ⟨row', hrow, heq⟩
      obtain ⟨rfl, rfl⟩ := Prod.mk.inj heq
      exact ⟨hf, hrow⟩
    · rintro ⟨hf', hrow⟩
      obtain rfl := Option.some.inj (hf.symm.trans hf')
      exact ⟨row, hrow, rfl⟩
  -- without a file nothing is written
  · rename_i hf
    simp [hf]

/-- What a handler is about to write has the batch of the last `Stat` it collected. -/
theorem batchId_of_mem_rows (h : Runs dir es s) {i : Nat} {records : List CsvMetric}
    {resp : Response} (hh : s.handlers[i]? = some (.writing records resp)) {row : CsvMetric}
    (hrow : row ∈ records) :
    ∃ last, (collected dir es i).getLast? = some last ∧
      row.batchId = last.workload.batchId := by
  obtain ⟨r, ts, nw, hr, rfl, -⟩ := rows_eq_csvRows h hh
  have hb := batchId_of_mem_csvRows hrow
  rcases List.eq_nil_or_append_singleton (collected dir es i) with hnil | ⟨sts, last, hlast⟩
  · -- nothing collected, no row
    rw [hnil] at hr
    subst hr
    exact nomatch hrow
  · rw [hlast] at hr ⊢
    refine ⟨last, by simp, ?_⟩
    rw [hb, hr]
    exact StatsMonitor.after_bid sts last

/-- A handler that has collected something writes a row. -/
theorem exists_row (h : Runs dir es s) {i : Nat} {records : List CsvMetric} {resp : Response}
    (hh : s.handlers[i]? = some (.writing records resp)) {last : Stat}
    (hlast : (collected dir es i).getLast? = some last) :
    ∃ row ∈ records, row.batchId = last.workload.batchId := by
  obtain ⟨r, ts, nw, hr, rfl, -⟩ := rows_eq_csvRows h hh
  obtain ⟨sts, hsts⟩ := List.getLast?_eq_some_iff.mp hlast
  have hmem : last.workload.modelId ∈ (StatsMonitor.after (collected dir es i)).requestPerSec :=
    (StatsMonitor.mem_after_requestPerSec _ _).mpr ⟨last, by rw [hsts]; simp, rfl⟩
  obtain ⟨v, hv⟩ := Option.isSome_iff_exists.mp (AList.lookup_isSome.mpr hmem)
  -- the row of the model of that `Stat`
  refine ⟨csvRow ts nw r v, List.mem_map.mpr ⟨⟨last.workload.modelId, v⟩, ?_, rfl⟩, ?_⟩
  · rw [hr]
    exact AList.mem_lookup_iff.mp hv
  · rw [csvRow_batchId, hr, hsts]
    exact StatsMonitor.after_bid sts last

/-- The step is no write of `handleStats`, or it writes to the file of the batch of the
    last `Stat` collected. -/
def OwnFile (dir : String) (es : List Event) (s : App) (e : Event) : Prop :=
  ∀ i b last, e = .writeCsv i → s.reportfile = some (reportName dir b) →
    (collected dir es i).getLast? = some last → last.workload.batchId = b

/-- All rows in the report files are of the file's batch exactly when, at every write, the
    file in place was that of the batch of the last `Stat` collected. -/
theorem written_own_batch_iff (h : Runs dir es s) :
    (∀ b row, (reportName dir b, row) ∈ s.written → row.batchId = b) ↔
      Machine.Meets App.step (OwnFile dir) (init dir) es := by
  refine Machine.run_history (P := fun es s =>
    (∀ b row, (reportName dir b, row) ∈ s.written → row.batchId = b) ↔
      Machine.Meets App.step (OwnFile dir) (init dir) es) ?_ ?_ h
  · exact iff_of_true (by simp [init]) (Machine.meets_nil _ _)
  intro es t e u ht ih he
  rw [Machine.meets_concat, ← ih]
  -- the step before which we look at the file is the last one
  have hlast : (∀ t', Runs dir es t' → OwnFile dir es t' e) ↔ OwnFile dir es t e :=
    ⟨fun hall => hall t ht, fun hown t' ht' => Option.some.inj (ht.symm.trans ht') ▸ hown⟩
  rw [hlast]
  by_cases hw : ∃ i, e = .writeCsv i
  · obtain ⟨i, rfl⟩ := hw
    obtain ⟨-, hm⟩ := moves_of_step he
    cases hm with
    | @writeCsv _ records resp hh =>
      -- the old rows, and those of the handler
      show (∀ b row, (reportName dir b, row) ∈ t.written ++ t.reportRows records →
        row.batchId = b) ↔ _
      constructor
      · intro hall
        refine ⟨fun b row hrow => hall b row (List.mem_append_left _ hrow), ?_⟩
        intro j b last hj hfile hcol
        obtain rfl := Event.writeCsv.inj hj
        obtain ⟨row, hrow, hb⟩ := exists_row ht hh hcol
        rw [← hb]
        exact hall b row (List.mem_append_right _ (mem_reportRows.mpr ⟨hfile, hrow⟩))
      · rintro ⟨hold, hown⟩ b row hrow
        rcases List.mem_append.mp hrow with hrow | hrow
        · exact hold b row hrow
        · obtain ⟨hfile, hrow⟩ := mem_reportRows.mp hrow
          obtain ⟨last, hcol, hb⟩ := batchId_of_mem_rows ht hh hrow
          rw [hb]
          exact hown i b last rfl hfile hcol
  · -- nothing is written
    have hwritten : u.written = t.written := by
      obtain ⟨-, hm⟩ := moves_of_step he
      cases hm with
      | writeCsv hh => exact absurd ⟨_, rfl⟩ hw
      | _ => rfl
    have hown : OwnFile dir es t e := fun i b last hi => absurd ⟨i, hi⟩ hw
    rw [hwritten]
    exact (and_iff_left hown).symm

/-- After a pause and a second `/workload`, the monitor still reports the first batch, and
    the row goes to the file of the second. -/
theorem written_row_of_earlier_batch :
    ¬ ∀ dir es s, Runs dir es s →
      ∀ b row, (reportName dir b, row) ∈ s.written → row.batchId = b := by
  intro hall
  obtain ⟨s, hs, hp⟩ := Machine.exists_run_of_map App.step (init "reports")
    (submit 0 (sampleForm [("0", "m")] "5" "1") "b1" [0] ++ reports 0 ++
      ([.request .pause, .worker 0 .iterate, .kill 1 0, .respond 1] : List Event) ++
      submit 2 (sampleForm [("0", "m")] "5" "1") "b2" [0] ++ collects 3 ++
      ([.writeCsv 3] : List Event))
    (fun s => s.written.any fun x => x.1 == reportName "reports" "b2" && x.2.batchId == "b1")
    (by decide)
  -- the batch of a row is that of the last `Stat`, the file that of the last submission
  obtain ⟨⟨file, row⟩, hmem, hrow⟩ := List.any_eq_true.mp hp
  rw [Bool.and_eq_true, beq_iff_eq, beq_iff_eq] at hrow
  obtain ⟨hfile, hb⟩ := hrow
  have hown := hall _ _ s hs "b2" row (hfile ▸ hmem)
  rw [hb] at hown
  exact absurd hown (by decide)

/-- A row that is written while its batch runs. -/
theorem written_row_of_own_batch :
    ∃ s, Runs "reports" (submit 0 (sampleForm [("0", "m")] "5" "1") "b1" [0] ++ reports 0 ++
        collects 1 ++ [.writeCsv 1]) s ∧
      ∀ b row, (reportName "reports" b, row) ∈ s.written → row.batchId = b := by
  obtain ⟨s, hs, -⟩ := Machine.exists_run_of_map App.step (init "reports")
    (submit 0 (sampleForm [("0", "m")] "5" "1") "b1" [0] ++ reports 0 ++ collects 1 ++
      [.writeCsv 1]) (fun _ => true) (by decide)
  refine ⟨s, hs, (written_own_batch_iff hs).mpr (Machine.meets_concat.mpr ⟨?_, ?_⟩)⟩
  · -- no write before the last step
    refine Machine.meets_of_forall_mem fun e he pre t i b last hw => ?_
    subst hw
    simp [submit, reports, collects] at he
  · intro t ht i b last hi hfile hlast
    obtain rfl := Event.writeCsv.inj hi
    have hplace : (Machine.run App.step (init "reports") (submit 0 (sampleForm [("0", "m")] "5"
        "1") "b1" [0] ++ reports 0 ++ collects 1)).map (·.reportfile) =
          some (some (reportName "reports" "b1")) := by decide
    rw [ht, Option.map_some, hfile] at hplace
    have hb := reportName_inj (Option.some.inj (Option.some.inj hplace))
    -- both the file and the `Stat`s are of the batch `b1`
    have hone : ∀ st ∈ collected "reports" (submit 0 (sampleForm [("0", "m")] "5" "1") "b1" [0] ++
        reports 0 ++ collects 1) 1, st.workload.batchId = "b1" := by decide
    rw [hb, hone last (List.mem_of_getLast? hlast)]

end App

end WorkloadSimulator
