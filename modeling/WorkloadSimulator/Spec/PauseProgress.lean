import WorkloadSimulator.Spec.WorkerLifecycle

/-!
# Whether a pause gets on without a client

The wait chain of a `/pause`: the handler is at `Killc`, the workers may all be at `Statc`,
and the monitor may be at `Reportc`, where only a `/stats` handler receives.

## Key results

- `canStep_iff`: a handler with kills left, the workers and the monitor can go on exactly
  when the monitor is at its `select`, a `/stats` handler waits, or a live worker is not
  sending a `Stat`
- `progress_iff`: this is so all along a run exactly when no step that takes away the last
  of these three is taken while kills are left
-/

namespace WorkloadSimulator

/-- Whether the handler `h`, a worker or the monitor takes the step. A `/stats` handler
    that already waits receives in a step of the monitor. -/
def Event.ofParty (h : Nat) : Event → Bool
  | .worker _ _ | .monitorTick | .stat _ | .report _ _ => true
  | .kill h' _ => h' == h
  | .respond h' => h' == h
  | _ => false

/-- Whether the worker is alive and not sending a `Stat`. -/
def Worker.free (wk : Worker) : Bool := wk.live && wk.pending.isNone

namespace Worker

theorem free_of_selecting {wk : Worker} (h : wk.selecting = true) : wk.free = true := by
  have hpc := selecting_iff.mp h
  simp [free, live, pending, hpc]

/-- Only a free worker takes a step on its own. -/
theorem free_of_step {wk wk' : Worker} {a : WorkerStep} (h : wk.step a = some wk') :
    wk.free = true := by
  -- a worker that waits to send takes no step
  have hpend : wk.pending = none := by
    cases hst : wk.pending with
    | none => rfl
    | some st =>
      rw [step_of_pending hst] at h
      exact nomatch h
  rw [free, live_of_step h, hpend]
  rfl

/-- A worker is free after a step unless it sends a `Stat` or leaves. -/
theorem free_step {wk wk' : Worker} {a : WorkerStep} (h : wk.step a = some wk') :
    wk'.free = !(decide (a = .tick) || leaves a) := by
  rcases step_cases h with ⟨rfl, hpc, -, rfl⟩ | ⟨rfl, hpc, -, rfl⟩ | ⟨rfl, hpc, rfl⟩ |
    ⟨rfl, hpc, rfl⟩ | ⟨rfl, hpc, rfl⟩ | ⟨rfl, hpc, rfl⟩ | ⟨rfl, hpc, rfl⟩ <;>
    simp [free, live, pending, leaves, hpc]

end Worker

namespace App

/-- The kills that the handlers have still to send. -/
def kills (s : App) : Nat := (s.handlers.map Handler.kills).sum

/-- Whether a `/stats` handler waits for a `Report`. -/
def polled (s : App) : Bool := s.handlers.any Handler.waits

/-- Whether a worker is alive and not sending a `Stat`. -/
def hasFree (s : App) : Bool := s.workers.any Worker.free

/-- Whether the wait chain is open at one of its ends. -/
def chainOpen (s : App) : Bool := s.monitor.selecting || s.polled || s.hasFree

/-- The handler `h`, a worker or the monitor can take a step. -/
def CanStep (s : App) (h : Nat) : Prop := ∃ e, e.ofParty h = true ∧ (s.step e).isSome = true

/-- While the process serves, a handler with a kill left does not wait for a client. -/
def Progress (s : App) : Prop :=
  s.exited = false → ∀ h closes left, s.handlers[h]? = some (.killing closes (left + 1)) →
    s.CanStep h

/-- The step does not close the wait chain while kills are left. -/
def KeepsOpen (s : App) : Event → Prop
  | .request .pause | .request .kill => 0 < s.currentWorkers → s.chainOpen = true
  | .monitorTick => 0 < s.kills → (s.polled || s.hasFree) = true
  | .timeout h => 0 < s.kills →
      (s.monitor.selecting || (s.handlers.eraseIdx h).any Handler.waits || s.hasFree) = true
  | .worker w a => 0 < s.kills → a = .tick ∨ Worker.leaves a = true →
      (s.monitor.selecting || s.polled || (s.workers.eraseIdx w).any Worker.free) = true
  | .kill _ w => 1 < s.kills →
      (s.monitor.selecting || s.polled || (s.workers.eraseIdx w).any Worker.free) = true
  | _ => True

instance (s : App) : (e : Event) → Decidable (KeepsOpen s e)
  | .request .pause | .request .kill | .monitorTick | .timeout _ | .worker _ _ | .kill _ _ =>
    inferInstanceAs (Decidable (_ → _))
  | .request (.workload _) | .request .stats | .openReport .. | .readWorkers _ | .launch ..
  | .respond _ | .writeCsv _ | .stat _ | .report .. => .isTrue trivial

variable {s s' : App}

/-! ## When the parties can step -/

/-- A move of an app that has not exited is a step. -/
theorem isSome_step {e : Event} (hx : s.exited = false) (hm : Moves s e s') :
    (s.step e).isSome = true := by
  rw [step_of_moves hx hm]
  rfl

/-- A handler with a kill left, the workers and the monitor can go on exactly when the wait
    chain is open. -/
theorem canStep_iff (hx : s.exited = false) {h left : Nat} {closes : Bool}
    (hh : s.handlers[h]? = some (.killing closes (left + 1))) :
    s.CanStep h ↔ s.chainOpen = true := by
  unfold chainOpen
  rw [Bool.or_eq_true, Bool.or_eq_true]
  constructor
  · -- every step of these parties needs one of the three ends
    rintro ⟨e, he, hsome⟩
    obtain ⟨s', hstep⟩ := Option.isSome_iff_exists.mp hsome
    obtain ⟨-, hm⟩ := moves_of_step hstep
    -- a worker that takes a step is free
    have hfree : ∀ {w : Nat} {wk : Worker}, s.workers[w]? = some wk → wk.free = true →
        s.hasFree = true :=
      fun hget hf => List.any_eq_true.mpr ⟨_, List.mem_of_getElem? hget, hf⟩
    cases hm with
    | worker hw ha => exact .inr (hfree hw (Worker.free_of_step ha))
    | monitorTick hsel => exact .inl (.inl hsel)
    | stat hw hst hsel => exact .inl (.inl hsel)
    | report hp hr => exact .inl (.inr (List.any_eq_true.mpr ⟨_, List.mem_of_getElem? hp, rfl⟩))
    | kill hk hw hsel => exact .inr (hfree hw (Worker.free_of_selecting hsel))
    | launched hl hi =>
      obtain rfl := beq_iff_eq.mp he
      rw [hh] at hl
      exact nomatch hl
    | killed hl =>
      -- the handler still has a kill to send
      obtain rfl := beq_iff_eq.mp he
      rw [hh] at hl
      exact nomatch hl
    | _ => exact nomatch he
  · -- and each end gives a step: a tick, a report, or a step of the free worker
    rintro ((hsel | hpolled) | hfree)
    · exact ⟨.monitorTick, rfl, isSome_step hx (.monitorTick hsel)⟩
    · by_cases hsel : s.monitor.selecting = true
      · exact ⟨.monitorTick, rfl, isSome_step hx (.monitorTick hsel)⟩
      · -- the monitor is at `report <- r`
        obtain ⟨x, hx', hwaits⟩ := List.any_eq_true.mp hpolled
        obtain ⟨j, hj⟩ := List.mem_iff_getElem?.mp hx'
        obtain ⟨r, hr⟩ : ∃ r, s.monitor.reporting = some r := by
          refine Option.ne_none_iff_exists'.mp fun hnone => ?_
          exact hsel (StatsMonitor.reporting_eq_none.mp hnone)
        have hpoll : x = .polling := by
          cases x <;> first | rfl | exact nomatch hwaits
        subst hpoll
        exact ⟨.report j 0, rfl, isSome_step hx (.report hj hr)⟩
    · obtain ⟨wk, hwk, hf⟩ := List.any_eq_true.mp hfree
      obtain ⟨w, hw⟩ := List.mem_iff_getElem?.mp hwk
      obtain ⟨hlive, hpend⟩ := Bool.and_eq_true_iff.mp hf
      obtain ⟨a, ha⟩ := Worker.exists_step hlive (Option.isNone_iff_eq_none.mp hpend)
      obtain ⟨wk', ha⟩ := Option.isSome_iff_exists.mp ha
      exact ⟨.worker w a, rfl, isSome_step hx (.worker hw ha)⟩

/-- Some handler has a kill left when there are kills to send. -/
theorem kills_pos : 0 < s.kills ↔
    ∃ (h : Nat) (closes : Bool) (left : Nat),
      s.handlers[h]? = some (.killing closes (left + 1)) := by
  rw [Nat.pos_iff_ne_zero, kills, ne_eq, List.sum_map_eq_zero]
  -- a sum is positive when one of its terms is
  constructor
  · intro hne
    obtain ⟨x, hx, hpos⟩ := not_forall₂.mp hne
    obtain ⟨h, hh⟩ := List.mem_iff_getElem?.mp hx
    cases x with
    | killing closes n =>
      obtain ⟨left, rfl⟩ := Nat.exists_eq_succ_of_ne_zero hpos
      exact ⟨h, closes, left, hh⟩
    | _ => exact absurd rfl hpos
  · rintro ⟨h, closes, left, hh⟩ hall
    exact absurd (hall _ (List.mem_of_getElem? hh)) (Nat.succ_ne_zero left)

/-- A blocked handler is one behind a closed chain. -/
theorem progress_iff_chainOpen :
    s.Progress ↔ (s.exited = false → 0 < s.kills → s.chainOpen = true) := by
  constructor
  · intro hp hx hk
    obtain ⟨h, closes, left, hh⟩ := kills_pos.mp hk
    exact (canStep_iff hx hh).mp (hp hx h closes left hh)
  · intro hopen hx h closes left hh
    exact (canStep_iff hx hh).mpr (hopen hx (kills_pos.mpr ⟨h, closes, left, hh⟩))

/-! ## What keeps the chain open -/

/-- The kills of one handler are exchanged. -/
theorem kills_setHandler {h : Nat} {x : Handler} (x' : Handler)
    (hget : s.handlers[h]? = some x) :
    (s.setHandler h x').kills + x.kills = s.kills + x'.kills :=
  List.sum_map_set Handler.kills x' hget

/-- The handlers that wait are the others and the one that is set. -/
theorem polled_setHandler {h : Nat} {x : Handler} (x' : Handler)
    (hget : s.handlers[h]? = some x) :
    (s.setHandler h x').polled = (x'.waits || (s.handlers.eraseIdx h).any Handler.waits) :=
  List.any_set Handler.waits x' hget

/-- A handler that had no kills and did not wait, and does neither afterwards, leaves the
    chain as it is. -/
theorem open_of_set (hopen : 0 < s.kills → s.chainOpen = true) {h : Nat} {x x' : Handler}
    (hh : s.handlers[h]? = some x) (hhs : s'.handlers = s.handlers.set h x')
    (hk : x'.kills = x.kills) (hw : x'.waits = x.waits) (hmon : s'.monitor = s.monitor)
    (hfree : s.hasFree = true → s'.hasFree = true) :
    0 < s'.kills → s'.chainOpen = true := by
  -- the pauses and the handlers that wait are those of `s`, so only the monitor matters
  have hkills : s'.kills = s.kills := by
    have hset := kills_setHandler x' hh
    have heq : s'.kills = (s.setHandler h x').kills := by
      unfold kills
      rw [hhs]
      rfl
    omega
  have hpolled : s'.polled = s.polled := by
    unfold polled
    rw [hhs, List.any_set_of_eq hh hw]
  intro hpos
  rw [hkills] at hpos
  have hold := hopen hpos
  unfold chainOpen at hold ⊢
  rw [hmon, hpolled]
  rw [Bool.or_eq_true] at hold ⊢
  exact hold.imp_right hfree

/-- A `/pause` or `/kill` with a worker to kill must find the chain open. -/
theorem open_request_iff (hopen : 0 < s.kills → s.chainOpen = true) (r : Request) :
    (0 < App.kills { s with handlers := s.handlers ++ [s.start r] } →
      App.chainOpen { s with handlers := s.handlers ++ [s.start r] } = true) ↔
        KeepsOpen s (.request r) := by
  -- the new handler is the last one
  have hkills : App.kills { s with handlers := s.handlers ++ [s.start r] } =
      s.kills + (s.start r).kills := by
    unfold kills
    rw [List.map_append, List.sum_append, List.map_singleton, List.sum_singleton]
  have hchain : App.chainOpen { s with handlers := s.handlers ++ [s.start r] } =
      (s.chainOpen || (s.start r).waits) := by
    unfold chainOpen polled
    rw [List.any_append, ← Bool.or_assoc, Bool.or_right_comm]
    simp only [List.any_cons, List.any_nil, Bool.or_false]
    rfl
  -- with a kill left the chain is open already
  have hpause : (0 < s.kills + s.currentWorkers.toNat → s.chainOpen = true) ↔
      (0 < s.currentWorkers → s.chainOpen = true) := by
    constructor
    · intro hgood hpos
      exact hgood (by omega)
    · intro hgood hpos
      by_cases hcount : 0 < s.currentWorkers
      · exact hgood hcount
      · exact hopen (by omega)
  rw [hkills, hchain]
  cases r with
  | pause | kill =>
    show (0 < s.kills + s.currentWorkers.toNat → (s.chainOpen || false) = true) ↔
      (0 < s.currentWorkers → s.chainOpen = true)
    rw [Bool.or_false]
    exact hpause
  | stats => exact iff_of_true (fun _ => Bool.or_true _) trivial
  | workload form =>
    -- a `/workload` handler has no kills
    have hzero : (s.start (.workload form)).kills = 0 := by
      show (readForm form).kills = 0
      rcases readForm_cases form with ⟨_, _, _, hform⟩ | ⟨_, hform⟩ <;> rw [hform] <;> rfl
    rw [hzero]
    exact iff_of_true (fun hpos => by rw [hopen hpos, Bool.true_or]) trivial

/-- While the process serves, a step of an open chain leaves it open exactly when it is one
    that keeps it open. -/
theorem open_step_iff {e : Event} (hopen : 0 < s.kills → s.chainOpen = true)
    (he : s.step e = some s') :
    (s'.exited = false → 0 < s'.kills → s'.chainOpen = true) ↔ KeepsOpen s e := by
  obtain ⟨hx, hm⟩ := moves_of_step he
  have hsame : s.hasFree = true → s.hasFree = true := id
  cases hm with
  | request r =>
    have hiff := open_request_iff hopen r
    exact ⟨fun hgood => hiff.mp (hgood hx), fun hgood _ => hiff.mpr hgood⟩
  | openReport _ _ hh =>
    exact iff_of_true (fun _ => open_of_set hopen hh rfl rfl rfl rfl hsame) trivial
  | noWork hh | badWorkers hh | setWorkers hh | panic hh | launched hh | killed hh | writeCsv hh =>
    -- the handler goes on, with the same kills left and the same waiting
    exact iff_of_true (fun _ => open_of_set hopen hh rfl rfl rfl rfl hsame) trivial
  | @launch h r settings wrk b nw i out model hh hi hr hmod =>
    -- the new worker is free
    refine iff_of_true (fun _ _ => ?_) trivial
    show (_ || (s.workers ++ [Worker.spawn _]).any Worker.free) = true
    have hnew : [Worker.spawn (workerWorkload settings b i (itoa r) model)].any Worker.free =
      true := rfl
    rw [List.any_append, hnew, Bool.or_true, Bool.or_true]
  | @timeout h hh =>
    -- the handler no longer waits; the kills are the same
    have hset := kills_setHandler (.done [.running false]) hh
    have hkills : (s.setHandler h (.done [.running false])).kills = s.kills := hset
    have hchain : (s.setHandler h (.done [.running false])).chainOpen = (s.monitor.selecting ||
        (s.handlers.eraseIdx h).any Handler.waits || s.hasFree) := by
      unfold chainOpen
      rw [polled_setHandler _ hh]
      rfl
    rw [hkills, hchain]
    exact ⟨fun hgood => hgood hx, fun hgood _ => hgood⟩
  | @worker w a wk wk' hw ha =>
    have hfree : (s.setWorker w wk').hasFree =
        (wk'.free || (s.workers.eraseIdx w).any Worker.free) := List.any_set _ _ hw
    rw [Worker.free_step ha] at hfree
    show (decide (a = .predict .fatal) = false → 0 < s.kills →
      (s.monitor.selecting || s.polled || (s.setWorker w wk').hasFree) = true) ↔ _
    rw [hfree]
    by_cases hgone : a = .tick ∨ Worker.leaves a = true
    · -- the worker is no longer free
      have hserves : decide (a = .predict .fatal) = false := by
        rcases hgone with rfl | hleaves
        · rfl
        · rw [decide_eq_false_iff_not]
          rintro rfl
          exact nomatch hleaves
      have hnot : (!(decide (a = .tick) || Worker.leaves a)) = false := by
        simpa [imp_iff_not_or] using hgone
      rw [hnot, Bool.false_or]
      exact ⟨fun hgood hpos _ => hgood hserves hpos, fun hgood _ hpos => hgood hpos hgone⟩
    · have hyes : (!(decide (a = .tick) || Worker.leaves a)) = true := by
        simpa using hgone
      rw [hyes, Bool.true_or, Bool.or_true]
      exact iff_of_true (fun _ _ => rfl) fun _ hgone' => absurd hgone' hgone
  | monitorTick hsel =>
    -- the monitor leaves its `select`
    show (s.exited = false → 0 < s.kills → (false || s.polled || s.hasFree) = true) ↔ _
    rw [Bool.false_or]
    exact ⟨fun hgood => hgood hx, fun hgood _ => hgood⟩
  | @kill h w left closes wk hh hw hsel =>
    -- one kill less, and the worker is gone
    have hset := kills_setHandler (.killing closes left) hh
    rw [Handler.kills_killing, Handler.kills_killing] at hset
    have hfree : (s.setWorker w wk.killed).hasFree =
        (wk.killed.free || (s.workers.eraseIdx w).any Worker.free) := List.any_set _ _ hw
    have hpolled : (s.setHandler h (.killing closes left)).polled = s.polled :=
      List.any_set_of_eq hh rfl
    show (s.exited = false → 0 < (s.setHandler h (.killing closes left)).kills →
      (s.monitor.selecting || (s.setHandler h (.killing closes left)).polled ||
        (s.setWorker w wk.killed).hasFree) = true) ↔ (1 < s.kills → _)
    rw [hpolled, hfree]
    have hgone : wk.killed.free = false := rfl
    rw [hgone, Bool.false_or]
    constructor
    · intro hgood hpos
      exact hgood hx (by omega)
    · intro hgood _ hpos
      exact hgood (by omega)
  | @stat w wk st hw hst hsel =>
    -- the monitor is back at its `select`
    refine iff_of_true (fun _ _ => ?_) trivial
    have hback : (s.monitor.receive st).selecting = true := hsel
    show ((s.monitor.receive st).selecting || _ || _) = true
    rw [hback, Bool.true_or, Bool.true_or]
  | report hh hr => exact iff_of_true (fun _ _ => rfl) trivial

/-! ## Runs -/

variable {dir : String} {es : List Event}

/-- All along a run no `/pause` or `/kill` with a kill left waits for a client exactly when
    every step keeps the wait chain open while kills are left. -/
theorem progress_iff (h : Runs dir es s) :
    Machine.Always App.step Progress (init dir) es ↔
      Machine.Meets App.step (fun _ => KeepsOpen) (init dir) es := by
  refine Machine.always_iff_meets ?_ ?_ h
  -- no handler has a kill left at the start
  · intro _ h closes left hh
    exact nomatch hh
  · intro t e u ht he
    obtain ⟨hx, -⟩ := moves_of_step he
    rw [progress_iff_chainOpen] at ht ⊢
    exact open_step_iff (ht hx) he

/-- One worker with work left when the `/pause` arrives: the monitor ticks, the worker
    ticks, and all three wait. -/
theorem pause_waits_for_client :
    ¬ ∀ dir pre post t s, Runs dir pre t →
      (t.currentWorkers = t.live ∧ ∀ wk ∈ t.workers, wk.live = true → (wk.i : Int) < wk.w.nrequests) →
      (∀ e ∈ post, e.ofParty t.handlers.length = true ∧
        ∀ w r, e = .worker w (.predict r) → r = .ok) →
      Runs dir (pre ++ [.request .pause] ++ post) s →
      ∀ closes left, s.handlers[t.handlers.length]? = some (.killing closes (left + 1)) →
        s.CanStep t.handlers.length := by
  intro hall
  obtain ⟨t, ht, hp⟩ := Machine.exists_run_of_map App.step (init "reports")
    (submit 0 (sampleForm [("0", "m")] "5" "1") "b" [0] ++ ([.worker 0 .iterate] : List Event))
    (fun t => t.currentWorkers == t.live && t.handlers.length == 1 &&
      t.workers.all fun wk => decide ((wk.i : Int) < wk.w.nrequests)) (by decide)
  simp only [Bool.and_eq_true, beq_iff_eq, List.all_eq_true, decide_eq_true_eq] at hp
  obtain ⟨⟨hcount, hlen⟩, hwork⟩ := hp
  -- without a client that polls, the worker's last statistic finds nobody
  obtain ⟨s, hs, hq⟩ := Machine.exists_run_of_map App.step (init "reports")
    (submit 0 (sampleForm [("0", "m")] "5" "1") "b" [0] ++ ([.worker 0 .iterate] : List Event) ++
      ([.request .pause] : List Event) ++ ([.monitorTick, .worker 0 .tick] : List Event))
    (fun s => !s.exited && !s.chainOpen &&
      ((s.handlers[1]?).any fun x => x.isKilling && x.kills == 1)) (by decide)
  simp only [Bool.and_eq_true, Bool.not_eq_true', Option.any_eq_true, beq_iff_eq] at hq
  obtain ⟨⟨hx, hclosed⟩, x, hh, hk, hleft⟩ := hq
  cases x with
  | killing closes n =>
    obtain rfl : n = 1 := hleft
    have hcan := hall _ _ _ t s ht ⟨hcount, fun wk hwk _ => hwork wk hwk⟩
      (by simp [Event.ofParty]) hs closes 0 (by rw [hlen]; exact hh)
    rw [hlen, canStep_iff hx hh, hclosed] at hcan
    exact nomatch hcan
  | _ => exact nomatch hk

/-- With a `/stats` handler waiting, the same steps leave the monitor free to go on. -/
theorem pause_goes_on_with_client :
    ∃ s, Runs "reports" (submit 0 (sampleForm [("0", "m")] "5" "1") "b" [0] ++
        [.worker 0 .iterate, .request .stats, .request .pause, .monitorTick,
          .worker 0 .tick]) s ∧
      Machine.Always App.step Progress (init "reports")
        (submit 0 (sampleForm [("0", "m")] "5" "1") "b" [0] ++
          [.worker 0 .iterate, .request .stats, .request .pause, .monitorTick,
            .worker 0 .tick]) := by
  obtain ⟨s, hs, -⟩ := Machine.exists_run_of_map App.step (init "reports")
    -- the condition is checked along the run
    (submit 0 (sampleForm [("0", "m")] "5" "1") "b" [0] ++ ([.worker 0 .iterate,
      .request .stats, .request .pause, .monitorTick, .worker 0 .tick] : List Event))
    (fun _ => true) (by decide)
  exact ⟨s, hs, (progress_iff hs).mpr (Machine.meets_of_check
    (c := fun s e => decide (KeepsOpen s e))
    (fun _ _ _ hc => of_decide_eq_true hc) (by decide))⟩

end App

end WorkloadSimulator
