import WorkloadSimulator.App.System

/-!
# What a step of the app does

`App.Moves` lists every step once, with its guards and the state it leads to, so that a
proof about the app splits into named cases and never unfolds `App.step`. `CoreMove` is
its view of the workers and the monitor alone, for what does not depend on the handlers.

## Key results

- `moves_of_step`, `step_of_moves`: the steps of a process that has not exited are exactly the
  `Moves`
- `coreMove_of_step`: what a step does to the workers and the monitor
-/

namespace WorkloadSimulator.App

/-! ## The steps -/

/-- The steps of the app in the state `s`. -/
inductive Moves (s : App) : Event → App → Prop where
  | request (r : Request) :
      Moves s (.request r) { s with handlers := s.handlers ++ [s.start r] }
  | openReport {h : Nat} {settings : Settings} {wrk : GoMap ModelInput}
      {out : List Response} (batchId : String) (created : Bool)
      (hh : s.handlers[h]? = some (.parsed settings wrk out)) :
      Moves s (.openReport h batchId created)
        { s.setHandler h (.opened settings wrk batchId out) with
          reportfile := if created then some (reportName s.reportDir batchId) else none }
  | noWork {h : Nat} {settings : Settings} {wrk : GoMap ModelInput} {batchId : String}
      {out : List Response} (hh : s.handlers[h]? = some (.opened settings wrk batchId out))
      (hn : workCount wrk = 0) :
      Moves s (.readWorkers h)
        (s.setHandler h (.done (out ++ [.error "no work to be done" 500])))
  | badWorkers {h : Nat} {settings : Settings} {wrk : GoMap ModelInput} {batchId : String}
      {out : List Response} (hh : s.handlers[h]? = some (.opened settings wrk batchId out))
      (hn : workCount wrk ≠ 0) (hnw : atoi settings.Workers = none) :
      Moves s (.readWorkers h)
        (s.setHandler h (.done (out ++ [.error "error parsing worker count" 500])))
  | setWorkers {h : Nat} {settings : Settings} {wrk : GoMap ModelInput} {batchId : String}
      {out : List Response} {nw : Int}
      (hh : s.handlers[h]? = some (.opened settings wrk batchId out))
      (hn : workCount wrk ≠ 0) (hnw : atoi settings.Workers = some nw) :
      Moves s (.readWorkers h)
        { s.setHandler h (.launching settings wrk batchId nw 0 out) with
          currentWorkers := nw }
  | launch {h r : Nat} {settings : Settings} {wrk : GoMap ModelInput} {batchId : String}
      {nw : Int} {i : Nat} {out : List Response} {model : ModelInput}
      (hh : s.handlers[h]? = some (.launching settings wrk batchId nw i out))
      (hi : (i : Int) < nw) (hr : r < workCount wrk)
      (hm : wrk.lookup (itoa r) = some model) :
      Moves s (.launch h r)
        { s.setHandler h (.launching settings wrk batchId nw (i + 1) out) with
          workers := s.workers ++
            [Worker.spawn (workerWorkload settings batchId i (itoa r) model)] }
  | panic {h r : Nat} {settings : Settings} {wrk : GoMap ModelInput} {batchId : String}
      {nw : Int} {i : Nat} {out : List Response}
      (hh : s.handlers[h]? = some (.launching settings wrk batchId nw i out))
      (hi : (i : Int) < nw) (hr : r < workCount wrk) (hm : wrk.lookup (itoa r) = none) :
      Moves s (.launch h r) (s.setHandler h (.panicked out))
  | launched {h : Nat} {settings : Settings} {wrk : GoMap ModelInput} {batchId : String}
      {nw : Int} {i : Nat} {out : List Response}
      (hh : s.handlers[h]? = some (.launching settings wrk batchId nw i out))
      (hi : ¬ (i : Int) < nw) :
      Moves s (.respond h) (s.setHandler h (.done (out ++ [.running true])))
  | killed {h : Nat} {closes : Bool} (hh : s.handlers[h]? = some (.killing closes 0)) :
      Moves s (.respond h)
        { s.setHandler h (.done [.ok]) with
          reportfile := if closes then none else s.reportfile }
  | timeout {h : Nat} (hh : s.handlers[h]? = some .polling) :
      Moves s (.timeout h) (s.setHandler h (.done [.running false]))
  | writeCsv {h : Nat} {records : List CsvMetric} {resp : Response}
      (hh : s.handlers[h]? = some (.writing records resp)) :
      Moves s (.writeCsv h)
        { s.setHandler h (.done [resp]) with written := s.written ++ s.reportRows records }
  | worker {w : Nat} {a : WorkerStep} {wk wk' : Worker} (hw : s.workers[w]? = some wk)
      (ha : wk.step a = some wk') :
      Moves s (.worker w a)
        { s.setWorker w wk' with exited := decide (a = .predict .fatal) }
  | monitorTick (hm : s.monitor.selecting = true) :
      Moves s .monitorTick { s with monitor := s.monitor.tick }
  | kill {h w left : Nat} {closes : Bool} {wk : Worker}
      (hh : s.handlers[h]? = some (.killing closes (left + 1)))
      (hw : s.workers[w]? = some wk) (hsel : wk.selecting = true) :
      Moves s (.kill h w) ((s.setHandler h (.killing closes left)).setWorker w wk.killed)
  | stat {w : Nat} {wk : Worker} {st : Stat} (hw : s.workers[w]? = some wk)
      (hst : wk.pending = some st) (hm : s.monitor.selecting = true) :
      Moves s (.stat w) { s.setWorker w wk.sent with monitor := s.monitor.receive st }
  | report {h ts : Nat} {r : Report} (hh : s.handlers[h]? = some .polling)
      (hr : s.monitor.reporting = some r) :
      Moves s (.report h ts)
        { s.setHandler h (.writing (csvRows ts s.currentWorkers r)
            (.stats r.requestPerS r.requestLagDone)) with
          monitor := s.monitor.delivered }

/-- Every step is one of the `Moves`. -/
theorem moves_of_step {s s' : App} {e : Event} (h : s.step e = some s') :
    s.exited = false ∧ Moves s e s' := by
  unfold step at h
  split at h
  · exact nomatch h
  · rename_i hx
    refine ⟨by simpa using hx, ?_⟩
    -- each event looks up its goroutines and then checks its guards
    cases e with
    | request r => obtain rfl := Option.some.inj h; exact .request r
    | openReport h' b c =>
      simp only [openReport] at h
      split at h
      · rename_i hh; obtain rfl := Option.some.inj h; exact .openReport b c hh
      · exact nomatch h
    | readWorkers h' =>
      simp only [readWorkers] at h
      split at h
      · rename_i hh
        split at h
        · rename_i hn; obtain rfl := Option.some.inj h; exact .noWork hh hn
        · rename_i hn
          split at h
          · rename_i hnw; obtain rfl := Option.some.inj h; exact .badWorkers hh hn hnw
          · rename_i hnw; obtain rfl := Option.some.inj h; exact .setWorkers hh hn hnw
      · exact nomatch h
    | launch h' r =>
      simp only [launch] at h
      split at h
      · rename_i hh
        split at h
        · rename_i hg
          split at h
          · rename_i hm; obtain rfl := Option.some.inj h; exact .launch hh hg.1 hg.2 hm
          · rename_i hm; obtain rfl := Option.some.inj h; exact .panic hh hg.1 hg.2 hm
        · exact nomatch h
      · exact nomatch h
    | respond h' =>
      simp only [respond] at h
      split at h
      · rename_i hh
        split at h
        · exact nomatch h
        · rename_i hi; obtain rfl := Option.some.inj h; exact .launched hh hi
      · rename_i hh; obtain rfl := Option.some.inj h; exact .killed hh
      · exact nomatch h
    | timeout h' =>
      simp only [timeout] at h
      split at h
      · rename_i hh; obtain rfl := Option.some.inj h; exact .timeout hh
      · exact nomatch h
    | writeCsv h' =>
      simp only [writeCsv] at h
      split at h
      · rename_i hh; obtain rfl := Option.some.inj h; exact .writeCsv hh
      · exact nomatch h
    | worker w a =>
      simp only [workerStep] at h
      split at h
      · rename_i hw
        obtain ⟨wk', ha, rfl⟩ := Option.map_eq_some_iff.mp h
        exact .worker hw ha
      · exact nomatch h
    | monitorTick =>
      simp only [monitorTick] at h
      split at h
      · rename_i hm; obtain rfl := Option.some.inj h; exact .monitorTick hm
      · exact nomatch h
    | kill h' w =>
      simp only [kill] at h
      split at h
      · rename_i hh hw
        split at h
        · rename_i hsel; obtain rfl := Option.some.inj h; exact .kill hh hw hsel
        · exact nomatch h
      · exact nomatch h
    | stat w =>
      simp only [stat] at h
      split at h
      · rename_i hw
        split at h
        · rename_i hst
          split at h
          · rename_i hm; obtain rfl := Option.some.inj h; exact .stat hw hst hm
          · exact nomatch h
        · exact nomatch h
      · exact nomatch h
    | report h' ts =>
      simp only [report] at h
      split at h
      · rename_i hh hr; obtain rfl := Option.some.inj h; exact .report hh hr
      · exact nomatch h

/-- Every one of the `Moves` is a step of a process that has not exited. -/
theorem step_of_moves {s s' : App} {e : Event} (hx : s.exited = false) (h : Moves s e s') :
    s.step e = some s' := by
  simp only [step, hx, Bool.false_eq_true, ↓reduceIte]
  -- the guards of a move are those of its function
  cases h with
  | request r => simp [hx]
  | openReport b c hh => simp [openReport, hh]
  | noWork hh hn => simp [readWorkers, hh, hn]
  | badWorkers hh hn hnw => simp [readWorkers, hh, hn, hnw]
  | setWorkers hh hn hnw => simp [readWorkers, hh, hn, hnw]
  | launch hh hi hr hm => simp [launch, hh, hi, hr, hm]
  | panic hh hi hr hm => simp [launch, hh, hi, hr, hm]
  | launched hh hi => simp [respond, hh, hi]
  | killed hh => simp [respond, hh]
  | timeout hh => simp [timeout, hh]
  | writeCsv hh => simp [writeCsv, hh]
  | worker hw ha => simp [workerStep, hw, ha]
  | monitorTick hm => simp [monitorTick, hm]
  | kill hh hw hsel => simp [kill, hh, hw, hsel]
  | stat hw hst hm => simp [stat, hw, hst, hm]
  | report hh hr => simp [report, hh, hr]

/-! ## The workers and the monitor -/

end WorkloadSimulator.App

namespace WorkloadSimulator

/-- Whether an event can change a worker or the monitor. -/
def Event.core : Event → Bool
  | .launch _ _ | .worker _ _ | .monitorTick | .kill _ _ | .stat _ | .report _ _ => true
  | _ => false

namespace App

/-- What a step of the app from `s` to `s'` does to the workers and the monitor. -/
inductive CoreMove (s s' : App) : Event → Prop where
  | other {e : Event} (he : e.core = false) (hws : s'.workers = s.workers)
      (hmon : s'.monitor = s.monitor) : CoreMove s s' e
  | launch (h r : Nat) (w : Workload) (hdt : w.dt = 500) (hid : w.modelId = itoa r)
      (hws : s'.workers = s.workers ++ [Worker.spawn w]) (hmon : s'.monitor = s.monitor) :
      CoreMove s s' (.launch h r)
  | panic (h r : Nat) (hws : s'.workers = s.workers) (hmon : s'.monitor = s.monitor) :
      CoreMove s s' (.launch h r)
  | worker {w : Nat} {a : WorkerStep} {wk wk' : Worker} (hw : s.workers[w]? = some wk)
      (ha : wk.step a = some wk') (hws : s'.workers = s.workers.set w wk')
      (hmon : s'.monitor = s.monitor) : CoreMove s s' (.worker w a)
  | kill {h w : Nat} {wk : Worker} (hw : s.workers[w]? = some wk)
      (hsel : wk.selecting = true) (hws : s'.workers = s.workers.set w wk.killed)
      (hmon : s'.monitor = s.monitor) : CoreMove s s' (.kill h w)
  | stat {w : Nat} {wk : Worker} {st : Stat} (hw : s.workers[w]? = some wk)
      (hst : wk.pending = some st) (hsel : s.monitor.selecting = true)
      (hws : s'.workers = s.workers.set w wk.sent)
      (hmon : s'.monitor = s.monitor.receive st) : CoreMove s s' (.stat w)
  | tick (hsel : s.monitor.selecting = true) (hws : s'.workers = s.workers)
      (hmon : s'.monitor = s.monitor.tick) : CoreMove s s' .monitorTick
  | report {h ts : Nat} {r : Report} (hr : s.monitor.reporting = some r)
      (hws : s'.workers = s.workers) (hmon : s'.monitor = s.monitor.delivered) :
      CoreMove s s' (.report h ts)

/-- What a step does to the workers and the monitor. -/
theorem coreMove_of_step {s s' : App} {e : Event} (h : s.step e = some s') :
    CoreMove s s' e := by
  obtain ⟨-, hm⟩ := moves_of_step h
  -- only these touch a worker or the monitor
  cases hm with
  | launch hh hi hr hm => exact .launch _ _ _ rfl rfl rfl rfl
  | panic hh hi hr hm => exact .panic _ _ rfl rfl
  | worker hw ha => exact .worker hw ha rfl rfl
  | monitorTick hsel => exact .tick hsel rfl rfl
  | kill hh hw hsel => exact .kill hw hsel rfl rfl
  | stat hw hst hsel => exact .stat hw hst hsel rfl rfl
  | report hh hr => exact .report hr rfl rfl
  | _ => exact .other rfl rfl rfl

end App

end WorkloadSimulator
