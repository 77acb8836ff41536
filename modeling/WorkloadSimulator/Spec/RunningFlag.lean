import WorkloadSimulator.Spec.ReportFile
import WorkloadSimulator.Spec.WorkerLifecycle
import WorkloadSimulator.Spec.WorkloadResponse

/-!
# What `running:true` says

`handleStats` answers `running:true` when a `Report` arrives within a second. The monitor
makes one at every tick, for as long as the process lives, and keeps the rates of workers
that have exited, so an answer says nothing about the workers unless its `Report` was made
while one was alive.

## Key results

- `answered_of_step`: a handler has its answer since before a step, or receives its
  `Report` in it
- `madeAt_of_answered`: every answer is that of a `Report` made at a tick before
- `running_flag_iff`: whatever polls follow, `running:true` comes from `Report`s made while
  a worker was alive exactly when the monitor ticks only while one is alive
-/

namespace WorkloadSimulator

/-! ## Answers -/

/-- The `stats` and `rdone` of an answer with `running:true`, about to be written or
    written. -/
def Handler.statsAnswer? : Handler → Option (GoMap Nat × GoMap Nat)
  | .writing _ (.stats stats rdone) => some (stats, rdone)
  | .done [.stats stats rdone] => some (stats, rdone)
  | _ => none

/-- The handlers of other requests end with something else. -/
theorem Handler.statsAnswer?_concat (out : List Response) {r : Response}
    (hr : ∀ stats rdone, r ≠ .stats stats rdone) :
    (Handler.done (out ++ [r])).statsAnswer? = none := by
  match out with
  | [] => cases r <;> first | rfl | exact absurd rfl (hr _ _)
  -- two answers are no answer
  | [x] => cases x <;> rfl
  | x :: _ :: _ => cases x <;> rfl

/-- Writing an answer keeps it. -/
theorem Handler.statsAnswer?_writing (records : List CsvMetric) (resp : Response) :
    (Handler.writing records resp).statsAnswer? = (Handler.done [resp]).statsAnswer? := by
  cases resp <;> rfl

/-- A handler of `/workload` has no such answer. -/
theorem Handler.statsAnswer?_readForm (form : WorkloadForm) :
    (readForm form).statsAnswer? = none := by
  -- the handler goes on with the workload, or has answered with an error
  rcases readForm_cases form with ⟨settings, wrk, out, hform⟩ | ⟨out, hform⟩
  · rw [hform]
    rfl
  · rw [hform]
    rcases of_readForm_done hform with ⟨-, rfl⟩ | ⟨-, rfl⟩ | ⟨-, -, -, rfl⟩
    · rfl
    · rfl
    · match queryErrors form.workload.val with
      | 0 => rfl
      | 1 => rfl
      | _ + 2 => rfl

def Event.isTick : Event → Bool
  | .monitorTick => true
  | _ => false

/-- The events of `/stats` requests. -/
def Event.isPoll : Event → Bool
  | .request .stats | .report _ _ | .timeout _ | .writeCsv _ => true
  | _ => false

namespace App

variable {dir : String} {es : List Event} {s : App}

/-- A handler has its answer since before a step, or receives its `Report` in it. -/
theorem answered_of_step {t u : App} {e : Event} {i : Nat} {x : Handler}
    {stats rdone : GoMap Nat} (he : t.step e = some u) (hu : u.handlers[i]? = some x)
    (hx : x.statsAnswer? = some (stats, rdone)) :
    (e.isReport i = false ∧ ∃ y, t.handlers[i]? = some y ∧
        y.statsAnswer? = some (stats, rdone)) ∨
      ∃ ts r, e = .report i ts ∧ t.monitor.reporting = some r ∧ stats = r.requestPerS ∧
        rdone = r.requestLagDone := by
  obtain ⟨-, hm⟩ := moves_of_step he
  -- the other handlers keep theirs
  have hset : ∀ {j : Nat} {y y' : Handler}, e.isReport i = false →
      t.handlers[j]? = some y → (t.handlers.set j y')[i]? = some x →
      (y'.statsAnswer? = some (stats, rdone) → y.statsAnswer? = some (stats, rdone)) →
      e.isReport i = false ∧ ∃ y, t.handlers[i]? = some y ∧
        y.statsAnswer? = some (stats, rdone) := by
    intro j y y' hno hj hget hkeep
    rcases List.getElem?_set_eq_some hget with ⟨rfl, rfl⟩ | ⟨-, hold⟩
    · exact ⟨hno, y, hj, hkeep hx⟩
    · exact ⟨hno, x, hold, hx⟩
  cases hm with
  | request r =>
    rcases List.getElem?_concat_eq_some hu with hold | ⟨-, rfl⟩
    · exact .inl ⟨rfl, x, hold, hx⟩
    · cases r with
      | workload form =>
        rw [start, Handler.statsAnswer?_readForm] at hx
        cases hx
      | pause | kill | stats => cases hx
  | openReport b c hh | setWorkers hh hn hnw | launch hh hi hr hm | panic hh hi hr hm
  | killed hh | timeout hh | kill hh hw hsel =>
    refine .inl (hset rfl hh hu fun hy => ?_)
    cases hy
  | noWork hh hn | badWorkers hh hn hnw | launched hh hi =>
    refine .inl (hset rfl hh hu fun hy => ?_)
    rw [Handler.statsAnswer?_concat _ (by simp)] at hy
    cases hy
  | writeCsv hh =>
    refine .inl (hset rfl hh hu fun hy => ?_)
    rw [Handler.statsAnswer?_writing]
    exact hy
  | @report _ ts r hh hr =>
    rcases List.getElem?_set_eq_some hu with ⟨rfl, rfl⟩ | ⟨hne, hold⟩
    · obtain ⟨rfl, rfl⟩ := Prod.mk.inj (Option.some.inj hx)
      exact .inr ⟨ts, r, rfl, hr, rfl, rfl⟩
    · exact .inl ⟨by simpa [Event.isReport] using hne, x, hold, hx⟩
  | worker hw ha | monitorTick hm | stat hw hst hm => exact .inl ⟨rfl, x, hu, hx⟩

/-- An answer is that of the report of the `Stat`s collected. -/
theorem answered_eq_after (h : Runs dir es s) {i : Nat} {x : Handler}
    {stats rdone : GoMap Nat} (hget : s.handlers[i]? = some x)
    (hx : x.statsAnswer? = some (stats, rdone)) :
    stats = (StatsMonitor.after (collected dir es i)).requestPerSec ∧
      rdone = (StatsMonitor.after (collected dir es i)).requestLagDone := by
  -- an answer is fixed when the report is received and never changed afterwards
  refine Machine.run_history (P := fun es s => ∀ (i : Nat) x stats rdone,
    s.handlers[i]? = some x → x.statsAnswer? = some (stats, rdone) →
      stats = (StatsMonitor.after (collected dir es i)).requestPerSec ∧
        rdone = (StatsMonitor.after (collected dir es i)).requestLagDone)
    (by simp [init]) ?_ h i x stats rdone hget hx
  intro es t e u ht ih he i x stats rdone hget hx
  rcases answered_of_step he hget hx with ⟨hne, y, hold, hy⟩ | ⟨ts, r, rfl, hr, rfl, rfl⟩
  · rw [collected_of_ne hne]
    exact ih i y stats rdone hold hy
  · rw [collected_report ht, reporting_eq_after ht hr]
    exact ⟨rfl, rfl⟩

/-! ## Where an answer comes from -/

/-- The handler `h` has collected the report that the monitor made in the state `t`, in the
    tick after the events `pre`. -/
structure MadeAt (dir : String) (es : List Event) (h : Nat) (pre : List Event) (t : App) :
    Prop where
  runs : Runs dir pre t
  /-- The tick is the last one before the handler's last report. -/
  split : ∃ mid ts post, es = pre ++ .monitorTick :: (mid ++ .report h ts :: post) ∧
    (∀ e ∈ mid, e.isTick = false) ∧ ∀ e ∈ post, e.isReport h = false

/-- Events that are not the report itself can follow. -/
theorem MadeAt.concat {h : Nat} {pre : List Event} {t : App} (hmade : MadeAt dir es h pre t)
    {e : Event} (he : e.isReport h = false) : MadeAt dir (es ++ [e]) h pre t := by
  obtain ⟨hpre, mid, ts, post, rfl, hmid, hpost⟩ := hmade
  refine ⟨hpre, mid, ts, post ++ [e], by simp, hmid, ?_⟩
  intro f hf
  rcases List.mem_append.mp hf with hf | hf
  · exact hpost f hf
  · rw [List.mem_singleton.mp hf, he]

/-- The report of a handler was made in one state. -/
theorem MadeAt.unique {h : Nat} {pre pre' : List Event} {t t' : App}
    (hmade : MadeAt dir es h pre t) (hmade' : MadeAt dir es h pre' t') :
    pre = pre' ∧ t = t' := by
  obtain ⟨hpre, mid, ts, post, heq, hmid, hpost⟩ := hmade
  obtain ⟨hpre', mid', ts', post', heq', hmid', hpost'⟩ := hmade'
  -- first the last report of the handler, then the last tick before it
  have hsplit : (pre ++ .monitorTick :: mid) ++ .report h ts :: post =
      (pre' ++ .monitorTick :: mid') ++ .report h ts' :: post' := by
    simpa using heq.symm.trans heq'
  obtain ⟨htick, -, -⟩ := List.append_cons_inj_of_last (p := Event.isReport h) hsplit
    (by simp [Event.isReport]) (by simp [Event.isReport]) hpost hpost'
  obtain ⟨rfl, -, -⟩ := List.append_cons_inj_of_last (p := Event.isTick) htick rfl rfl hmid hmid'
  exact ⟨rfl, Option.some.inj (hpre.symm.trans hpre')⟩

/-- A report under way was made at the last tick. -/
theorem exists_tick (h : Runs dir es s) {r : Report} (hr : s.monitor.reporting = some r) :
    ∃ pre t mid, Runs dir pre t ∧ es = pre ++ .monitorTick :: mid ∧
      (∀ e ∈ mid, e.isTick = false) ∧ r = t.monitor.makeReport := by
  refine Machine.run_history (P := fun es s => ∀ r, s.monitor.reporting = some r →
    ∃ pre t mid, Runs dir pre t ∧ es = pre ++ .monitorTick :: mid ∧
      (∀ e ∈ mid, e.isTick = false) ∧ r = t.monitor.makeReport) (by simp [init]) ?_ h r hr
  intro es t e u ht ih he r hr
  -- a step that is no tick leaves the report of the last tick
  have hkeep : e.isTick = false → t.monitor.reporting = some r →
      ∃ pre t mid, Runs dir pre t ∧ es ++ [e] = pre ++ .monitorTick :: mid ∧
        (∀ e ∈ mid, e.isTick = false) ∧ r = t.monitor.makeReport := by
    intro hne hold
    obtain ⟨pre, t', mid, hpre, rfl, hmid, hmake⟩ := ih r hold
    refine ⟨pre, t', mid ++ [e], hpre, by simp, fun f hf => ?_, hmake⟩
    rcases List.mem_append.mp hf with hf | hf
    · exact hmid f hf
    · rw [List.mem_singleton.mp hf, hne]
  cases coreMove_of_step he with
  | tick hsel hws hmon =>
    rw [hmon] at hr
    exact ⟨es, t, [], ht, rfl, by simp, (Option.some.inj hr).symm⟩
  | report hr' hws hmon =>
    rw [hmon] at hr
    cases hr
  | other hcore hws hmon =>
    refine hkeep ?_ (hmon ▸ hr)
    cases e <;> first | rfl | cases hcore
  | stat hget hst hsel hws hmon =>
    rw [hmon, StatsMonitor.receive_reporting] at hr
    exact hkeep rfl hr
  | launch _ _ _ hdt hid hws hmon | panic _ _ hws hmon | worker hget ha hws hmon
  | kill hget hsel hws hmon => exact hkeep rfl (hmon ▸ hr)

/-- Every answer is that of a report made at a tick before. -/
theorem madeAt_of_answered (h : Runs dir es s) {i : Nat} {x : Handler}
    {stats rdone : GoMap Nat} (hget : s.handlers[i]? = some x)
    (hx : x.statsAnswer? = some (stats, rdone)) :
    ∃ pre t, MadeAt dir es i pre t ∧ stats = t.monitor.requestPerSec ∧
      rdone = t.monitor.requestLagDone := by
  refine Machine.run_history (P := fun es s => ∀ (i : Nat) x stats rdone,
    s.handlers[i]? = some x → x.statsAnswer? = some (stats, rdone) →
      ∃ pre t, MadeAt dir es i pre t ∧ stats = t.monitor.requestPerSec ∧
        rdone = t.monitor.requestLagDone) (by simp [init]) ?_ h i x stats rdone hget hx
  intro es t e u ht ih he i x stats rdone hget hx
  rcases answered_of_step he hget hx with ⟨hne, y, hold, hy⟩ | ⟨ts, r, rfl, hr, rfl, rfl⟩
  · obtain ⟨pre, t', hmade, hstats, hrdone⟩ := ih i y stats rdone hold hy
    exact ⟨pre, t', hmade.concat hne, hstats, hrdone⟩
  -- the report was made by the monitor's last tick before it was received
  · obtain ⟨pre, t', mid, hpre, rfl, hmid, rfl⟩ := exists_tick ht hr
    exact ⟨pre, t', ⟨hpre, mid, ts, [], by simp, hmid, by simp⟩, rfl, rfl⟩

/-- Every answer with `running:true` comes from a report made while a worker was alive. -/
def AnswersAlive (dir : String) (es : List Event) (s : App) : Prop :=
  ∀ (i : Nat) x stats rdone, s.handlers[i]? = some x →
    x.statsAnswer? = some (stats, rdone) → ∃ pre t, MadeAt dir es i pre t ∧ 0 < t.live

/-- The monitor ticks while a worker is alive. -/
def TicksAlive (s : App) : Event → Prop
  | .monitorTick => 0 < s.live
  | _ => True

instance (s : App) : (e : Event) → Decidable (TicksAlive s e)
  | .monitorTick => inferInstanceAs (Decidable (0 < s.live))
  | .request _ | .openReport .. | .readWorkers _ | .launch .. | .respond _ | .timeout _
  | .writeCsv _ | .worker .. | .kill .. | .stat _ | .report .. => .isTrue trivial

/-- Ticks while a worker is alive give answers that say so. -/
theorem answersAlive_of_meets (h : Runs dir es s)
    (hC : Machine.Meets App.step (fun _ => TicksAlive) (init dir) es) :
    AnswersAlive dir es s := by
  intro i x stats rdone hget hx
  obtain ⟨pre, t, hmade, -, -⟩ := madeAt_of_answered h hget hx
  refine ⟨pre, t, hmade, ?_⟩
  obtain ⟨hpre, mid, ts, post, rfl, -, -⟩ := hmade
  exact hC pre .monitorTick _ rfl t hpre

/-- A tick without a live worker: the next `/stats` is answered `running:true` all the
    same. -/
theorem dead_tick_answers (h : Runs dir es s) (hexit : s.exited = false)
    (hsel : s.monitor.selecting = true) (hdead : s.live = 0) :
    ∃ fs u, (∀ e ∈ fs, Event.isPoll e = true) ∧
      Runs dir ((es ++ ([.monitorTick] : List Event)) ++ fs) u ∧
      ¬ AnswersAlive dir ((es ++ ([.monitorTick] : List Event)) ++ fs) u := by
  -- the tick, the request, and the report that meets it
  have htick := runs_of_moves h hexit (.monitorTick hsel)
  have hreq := runs_of_moves htick hexit (.request .stats)
  have hpolling : (s.handlers ++ [Handler.polling])[s.handlers.length]? = some .polling :=
    List.getElem?_concat_length
  have hreport := runs_of_moves (e := .report s.handlers.length 0) hreq hexit (.report hpolling rfl)
  refine ⟨[.request .stats, .report s.handlers.length 0], _, by simp [Event.isPoll],
    by simpa using hreport, fun halive => ?_⟩
  obtain ⟨pre, t, hmade, hlive⟩ := halive s.handlers.length _ _ _
    (List.getElem?_set_of_some _ hpolling) rfl
  -- its report is that of the tick, made in `s`
  have hmade' : MadeAt dir ((es ++ ([.monitorTick] : List Event)) ++
      ([.request .stats, .report s.handlers.length 0] : List Event)) s.handlers.length es s :=
    ⟨h, [.request .stats], 0, [], by simp, by simp [Event.isTick], by simp⟩
  obtain ⟨-, rfl⟩ := hmade.unique hmade'
  omega

/-- Whatever `/stats` requests follow, at any point of a run, `running:true` is answered
    only from reports made while a worker was alive, exactly when the monitor ticks only
    while a worker is alive. -/
theorem running_flag_iff (h : Runs dir es s) :
    (∀ pre post, es = pre ++ post → ∀ fs u, (∀ e ∈ fs, Event.isPoll e = true) →
        Runs dir (pre ++ fs) u → AnswersAlive dir (pre ++ fs) u) ↔
      Machine.Meets App.step (fun _ => TicksAlive) (init dir) es := by
  constructor
  · intro hall pre e post heq t ht
    cases e with
    | monitorTick =>
      by_contra hdead
      -- the tick has happened, so the monitor was at its `select`
      rw [heq] at h
      obtain ⟨t', ht', hrest⟩ := (Machine.run_append_eq_some App.step).mp h
      obtain rfl := Option.some.inj (ht.symm.trans ht')
      obtain ⟨u, hu, -⟩ := Option.bind_eq_some_iff.mp hrest
      obtain ⟨hexit, hm⟩ := moves_of_step hu
      cases hm with
      | monitorTick hsel =>
        obtain ⟨fs, v, hfs, hv, hbad⟩ :=
          dead_tick_answers ht hexit hsel (by simpa [TicksAlive] using hdead)
        exact hbad (hall (pre ++ [.monitorTick]) post (by simpa using heq) fs v hfs hv)
    | _ => trivial
  · rintro hmeets pre post rfl fs u hfs hu
    refine answersAlive_of_meets hu (Machine.meets_append_of_forall_mem
      (Machine.meets_of_append hmeets) fun e he pre t => ?_)
    cases e with
    | monitorTick => cases hfs _ he
    | _ => trivial

/-- A worker reports and exits: the next `/stats` is answered with its rate. -/
theorem running_after_exit :
    ¬ ∀ dir es s, Runs dir es s → AnswersAlive dir es s := by
  intro hall
  obtain ⟨s, hs, hp⟩ := Machine.exists_run_of_map App.step (init "reports")
    (submit 0 (sampleForm [("0", "m")] "2" "1") "b" [0] ++ predicts 0 ++ reports 0 ++
      ([.worker 0 .finish] : List Event))
    (fun s => !s.exited && s.monitor.selecting && s.live == 0) (by decide)
  -- the worker has gone, and the monitor is at its `select`
  simp only [Bool.and_eq_true, Bool.not_eq_true', beq_iff_eq] at hp
  obtain ⟨⟨hexit, hsel⟩, hdead⟩ := hp
  obtain ⟨fs, u, -, hu, hbad⟩ := dead_tick_answers hs hexit hsel hdead
  exact hbad (hall _ _ u hu)

/-- A worker that is alive at the tick: the answers to it are right. -/
theorem running_while_alive :
    ∃ s, Runs "reports" (submit 0 (sampleForm [("0", "m")] "2" "1") "b" [0] ++ predicts 0 ++
        reports 0 ++ [.monitorTick]) s ∧
      ∀ fs u, (∀ e ∈ fs, Event.isPoll e = true) →
        Runs "reports" ((submit 0 (sampleForm [("0", "m")] "2" "1") "b" [0] ++ predicts 0 ++
          reports 0 ++ [.monitorTick]) ++ fs) u →
        AnswersAlive "reports" ((submit 0 (sampleForm [("0", "m")] "2" "1") "b" [0] ++
          predicts 0 ++ reports 0 ++ [.monitorTick]) ++ fs) u := by
  obtain ⟨s, hs, -⟩ := Machine.exists_run_of_map App.step (init "reports")
    (submit 0 (sampleForm [("0", "m")] "2" "1") "b" [0] ++ predicts 0 ++ reports 0 ++
      ([.monitorTick] : List Event)) (fun _ => true) (by decide)
  refine ⟨s, hs, (running_flag_iff hs).mpr ?_ _ [] (by simp)⟩
  -- the worker is alive at the tick
  exact Machine.meets_of_check (c := fun s e => decide (TicksAlive s e))
    (fun _ _ _ hc => of_decide_eq_true hc) (by decide)

end App

end WorkloadSimulator
