import WorkloadSimulator.Spec.AppRun

/-!
# Workers and the worker count

`currentWorkers` is what `/pause` and `/kill` go by: they send that many kills. It is set
by `/workload` and by nothing else, while a worker can leave in three ways, so the count
is right only as long as nobody leaves, or until the next `/workload` sets it.

## Key results

- `killInv_step`: what keeps every `/pause` and `/kill` in progress matched with as many
  live workers as it has kills left
- `countInv_step`: what keeps the count equal to the live workers and the launches to
  come, or about to be set
- `killed_of_meets`: over any number of pauses, a matched `/pause` never waits for a worker
  that is gone and leaves none alive
- `lifecycle_of_meets`: while the count is kept, it is right whenever no handler is in
  progress, and every `/pause` is matched
-/

namespace WorkloadSimulator

namespace Handler

/-- Whether this is `handlePause` or `handleKill`. -/
def isKilling : Handler → Bool
  | .killing _ _ => true
  | _ => false

/-- The worker count that `handleWorkload` is about to set. -/
def sets : Handler → Option Int
  | .opened settings wrk _ _ => if workCount wrk = 0 then none else atoi settings.Workers
  | _ => none

/-- Whether the draw `r` gives `handleWorkload` a model. -/
def draws (r : Nat) : Handler → Bool
  | .launching _ wrk _ _ _ _ => (wrk.lookup (itoa r)).isSome
  | _ => false

theorem kills_of_not_isKilling {x : Handler} (h : x.isKilling = false) : x.kills = 0 := by
  cases x <;> first | rfl | exact nomatch h

/-- A handler with a kill left is one of `/pause` or `/kill`. -/
theorem isKilling_of_kills_pos {x : Handler} (h : 0 < x.kills) : x.isKilling = true := by
  by_contra hno
  rw [kills_of_not_isKilling (by simpa using hno)] at h
  exact absurd h (lt_irrefl 0)

/-- A handler that is about to set the count is in progress. -/
theorem active_of_sets {x : Handler} (h : x.sets.isSome = true) : x.active = true := by
  cases x <;> first | rfl | exact nomatch h

end Handler

namespace App

/-- The number of live workers. -/
def live (s : App) : Nat := s.workers.countP Worker.live

/-- The workers that the handlers have still to launch. -/
def launches (s : App) : Nat := (s.handlers.map Handler.launches).sum

/-- Whether a `/pause` or `/kill` is in progress. -/
def killing (s : App) : Bool := s.handlers.any Handler.isKilling

/-- Whether a `/workload` in progress is about to set the worker count. -/
def resets (s : App) : Bool := s.handlers.any fun x => x.sets.isSome

/-- What the worker count is for. -/
structure Lifecycle (s : App) : Prop where
  /-- With no handler in progress, the count is the number of live workers. -/
  counter : (∀ x ∈ s.handlers, x.active = false) → s.currentWorkers = s.live
  /-- A handler with a kill left has a live worker to receive it. -/
  receiver : ∀ x ∈ s.handlers, 0 < x.kills → 0 < s.live
  /-- When the kills are sent, no worker is alive. -/
  killed : ∀ closes, .killing closes 0 ∈ s.handlers → s.live = 0

/-! ## What keeps the lifecycle -/

/-- A `/pause` or `/kill` arrives when the count is the number of live workers, with no
    launches and no other kills to come, and while it is in progress no worker leaves on
    its own and no `/workload` sets the count. -/
def KillsMatched (s : App) : Event → Prop
  | .request .pause | .request .kill =>
    s.currentWorkers.toNat = s.live ∧ s.launches = 0 ∧ ∀ x ∈ s.handlers, x.kills = 0
  | .worker _ a => Worker.leaves a = true → s.killing = false
  | .readWorkers h => ((s.handlers[h]?).bind Handler.sets).isSome = true → s.killing = false
  | _ => True

/-- A worker leaves, or a launch panics, only while a `/workload` is still to set the count.
    The last one to set it finds no worker alive or to be launched. A `/pause` or `/kill`
    arrives between launches and after the kills of another. -/
def CountKept (s : App) : Event → Prop
  | .request .pause | .request .kill =>
    s.launches = 0 ∧ (∀ x ∈ s.handlers, x.kills = 0) ∧
      (s.resets = true → s.currentWorkers.toNat = s.live)
  | .worker _ a => Worker.leaves a = true → s.resets = true ∧ s.killing = false
  | .kill _ _ => s.resets = true
  | .launch h r => s.resets = true ∨ (s.handlers[h]?).any (Handler.draws r) = true
  | .readWorkers h => ∀ nw ∈ (s.handlers[h]?).bind Handler.sets, s.killing = false ∧
      (((s.handlers.eraseIdx h).any fun x => x.sets.isSome) = true ∨
        0 ≤ nw ∧ s.live = 0 ∧ s.launches = 0)
  | _ => True

instance (s : App) : (e : Event) → Decidable (KillsMatched s e)
  | .request .pause | .request .kill => inferInstanceAs (Decidable (_ ∧ _ ∧ _))
  | .worker _ _ | .readWorkers _ => inferInstanceAs (Decidable (_ → _))
  | .request (.workload _) | .request .stats | .openReport .. | .launch .. | .respond _
  | .timeout _ | .writeCsv _ | .monitorTick | .kill .. | .stat _ | .report .. => .isTrue trivial

instance (s : App) : (e : Event) → Decidable (CountKept s e)
  | .request .pause | .request .kill => inferInstanceAs (Decidable (_ ∧ _ ∧ _))
  | .worker _ _ => inferInstanceAs (Decidable (_ → _))
  | .kill _ _ => inferInstanceAs (Decidable (_ = _))
  | .launch _ _ => inferInstanceAs (Decidable (_ ∨ _))
  | .readWorkers _ => inferInstanceAs (Decidable (∀ nw ∈ _, _))
  | .request (.workload _) | .request .stats | .openReport .. | .respond _ | .timeout _
  | .writeCsv _ | .monitorTick | .stat _ | .report .. => .isTrue trivial

/-! ## Counting -/

variable {s s' : App}

theorem live_setWorker {w : Nat} {wk : Worker} (wk' : Worker) (hget : s.workers[w]? = some wk) :
    (s.setWorker w wk').live + wk.live.toNat = s.live + wk'.live.toNat :=
  List.countP_set_add Worker.live wk' hget

theorem launches_setHandler {h : Nat} {x : Handler} (x' : Handler)
    (hget : s.handlers[h]? = some x) :
    (s.setHandler h x').launches + x.launches = s.launches + x'.launches :=
  List.sum_map_set Handler.launches x' hget

/-- The launches to come are a matter of the handlers alone. -/
theorem launches_congr (hhs : s'.handlers = s.handlers) : s'.launches = s.launches := by
  unfold launches
  rw [hhs]

/-- A handler's launches are among those to come. -/
theorem launches_le {h : Nat} {x : Handler} (hget : s.handlers[h]? = some x) :
    x.launches ≤ s.launches := by
  have hset := launches_setHandler (.done []) hget
  rw [Handler.launches_done] at hset
  omega

/-- Nobody launches a worker on arrival. -/
theorem start_launches (s : App) (r : Request) : (s.start r).launches = 0 := by
  cases r with
  | workload form =>
    show (readForm form).launches = 0
    rcases readForm_cases form with ⟨_, _, _, hform⟩ | ⟨_, hform⟩ <;> rw [hform] <;> rfl
  | pause | kill | stats => rfl

theorem launches_request (s : App) (r : Request) :
    App.launches { s with handlers := s.handlers ++ [s.start r] } = s.launches := by
  unfold launches
  rw [List.map_append, List.sum_append, List.map_singleton, List.sum_singleton,
    start_launches, Nat.add_zero]

/-- A step of a worker that does not leave, and the receipt of a `Stat`, keep all workers
    alive. -/
theorem live_worker {w : Nat} {a : WorkerStep} {wk wk' : Worker}
    (hget : s.workers[w]? = some wk) (ha : wk.step a = some wk')
    (hstay : Worker.leaves a = false) : (s.setWorker w wk').live = s.live := by
  have hset := live_setWorker wk' hget
  rw [Worker.live_of_step ha, Worker.live_step ha, hstay] at hset
  simpa using hset

/-- A worker that has sent its `Stat` lives on. -/
theorem live_stat {w : Nat} {wk : Worker} {st : Stat} (hget : s.workers[w]? = some wk)
    (hst : wk.pending = some st) : (s.setWorker w wk.sent).live = s.live := by
  have hset := live_setWorker wk.sent hget
  rw [Worker.live_of_pending hst, Worker.sent_live] at hset
  omega

/-- A kill takes one live worker. -/
theorem live_kill {w : Nat} {wk : Worker} (hget : s.workers[w]? = some wk)
    (hsel : wk.selecting = true) : (s.setWorker w wk.killed).live + 1 = s.live := by
  have hset := live_setWorker wk.killed hget
  rw [Worker.live_of_selecting hsel, Worker.killed_live] at hset
  simpa using hset

/-! ## Kills -/

/-- Every `/pause` or `/kill` in progress has as many kills left as there are live workers,
    with no launches to come, and at most one of them has any. -/
structure KillInv (s : App) : Prop where
  exact : ∀ (i : Nat) x, s.handlers[i]? = some x → x.isKilling = true →
    x.kills = s.live ∧ s.launches = 0
  unique : ∀ (i j : Nat) x y, s.handlers[i]? = some x → s.handlers[j]? = some y →
    0 < x.kills → 0 < y.kills → i = j

/-- A `/pause` or `/kill` in progress is a killing handler. -/
theorem not_isKilling_of_killing (h : s.killing = false) {i : Nat} {x : Handler}
    (hget : s.handlers[i]? = some x) : x.isKilling = false := by
  have hall := List.any_eq_false.mp h x (List.mem_of_getElem? hget)
  simpa using hall

/-- No `/pause` or `/kill` begins when a handler goes on to something else. -/
theorem killing_of_set (h : s.killing = false) {i : Nat} {x : Handler}
    (hhs : s'.handlers = s.handlers.set i x) (hx : x.isKilling = false) :
    s'.killing = false := by
  apply List.any_eq_false.mpr
  intro y hy
  rw [hhs] at hy
  rcases List.mem_or_eq_of_mem_set hy with hy | rfl
  · exact List.any_eq_false.mp h y hy
  · simp [hx]

/-- Without a `/pause` or `/kill` in progress there is nothing to match. -/
theorem KillInv.of_not_killing (h : s.killing = false) : KillInv s where
  exact i x hget hx := by
    rw [not_isKilling_of_killing h hget] at hx
    exact nomatch hx
  unique i j x y hi hj hpos _ := by
    rw [Handler.kills_of_not_isKilling (not_isKilling_of_killing h hi)] at hpos
    exact absurd hpos (lt_irrefl 0)

/-- A handler that is no `/pause` or `/kill` afterwards and adds no launches keeps the
    invariant. -/
theorem KillInv.of_set (hinv : KillInv s) {h : Nat} {x x' : Handler}
    (hh : s.handlers[h]? = some x) (hhs : s'.handlers = s.handlers.set h x')
    (hlive : s'.live = s.live) (hk : x'.isKilling = false) (hl : x'.launches ≤ x.launches) :
    KillInv s' := by
  have hlaunch : s'.launches ≤ s.launches := by
    have hset := launches_setHandler x' hh
    have heq : s'.launches = (s.setHandler h x').launches := launches_congr hhs
    omega
  -- the others have not changed
  have hold : ∀ (i : Nat) y, s'.handlers[i]? = some y → y.isKilling = true →
      s.handlers[i]? = some y := by
    intro i y hget hy
    rcases List.getElem?_set_eq_some (hhs ▸ hget) with ⟨-, rfl⟩ | ⟨-, hget⟩
    · rw [hk] at hy
      exact nomatch hy
    · exact hget
  constructor
  · intro i y hget hy
    obtain ⟨hkills, hzero⟩ := hinv.exact i y (hold i y hget hy) hy
    exact ⟨by rw [hkills, hlive], by omega⟩
  · intro i j y z hi hj hy hz
    have hi' := hold i y hi (Handler.isKilling_of_kills_pos hy)
    have hj' := hold j z hj (Handler.isKilling_of_kills_pos hz)
    exact hinv.unique i j y z hi' hj' hy hz

/-- So does a step of the workers or the monitor alone. -/
theorem KillInv.of_live (hinv : KillInv s) {ws : List Worker} {m : StatsMonitor} {x : Bool}
    (hlive : ws.countP Worker.live = s.live) :
    KillInv { s with workers := ws, monitor := m, exited := x } where
  exact i y hget hy := by
    obtain ⟨hkills, hzero⟩ := hinv.exact i y hget hy
    exact ⟨hkills.trans hlive.symm, hzero⟩
  unique := hinv.unique

/-- A new handler keeps the invariant if the kills it has to send are the live workers. -/
theorem KillInv.of_start (hinv : KillInv s) (r : Request) (hC : KillsMatched s (.request r)) :
    KillInv { s with handlers := s.handlers ++ [s.start r] } := by
  -- a `/stats` or `/workload` handler has no kills
  have hnew : (s.start r).isKilling = true →
      (s.start r).kills = s.live ∧ s.launches = 0 ∧ ∀ x ∈ s.handlers, x.kills = 0 := by
    intro hk
    cases r with
    | pause => exact hC
    | kill => exact hC
    | stats => exact nomatch hk
    | workload form =>
      rcases readForm_cases form with ⟨_, _, _, hform⟩ | ⟨_, hform⟩ <;>
        exact nomatch (congrArg Handler.isKilling hform).symm.trans hk
  constructor
  · -- the new one is matched by the condition, the others were before
    intro i x hget hx
    rw [launches_request]
    rcases List.getElem?_concat_eq_some hget with hold | ⟨-, rfl⟩
    · exact hinv.exact i x hold hx
    · exact ⟨(hnew hx).1, (hnew hx).2.1⟩
  · -- a new handler with kills is the only one
    intro i j x y hi hj hx hy
    have honly : ∀ z : Handler, 0 < z.kills → z = s.start r →
        ∀ u ∈ s.handlers, ¬ 0 < u.kills := by
      rintro z hz rfl u hu
      rw [(hnew (Handler.isKilling_of_kills_pos hz)).2.2 u hu]
      exact lt_irrefl 0
    rcases List.getElem?_concat_eq_some hi with hi | ⟨rfl, rfl⟩ <;>
      rcases List.getElem?_concat_eq_some hj with hj | ⟨rfl, rfl⟩
    · exact hinv.unique i j x y hi hj hx hy
    · exact absurd hx (honly _ hy rfl x (List.mem_of_getElem? hi))
    · exact absurd hy (honly _ hx rfl y (List.mem_of_getElem? hj))
    · rfl

/-- A step that keeps the kills matched keeps the invariant. -/
theorem killInv_step {e : Event} (hinv : KillInv s) (hC : KillsMatched s e)
    (he : s.step e = some s') : KillInv s' := by
  obtain ⟨-, hm⟩ := moves_of_step he
  cases hm with
  | request r => exact hinv.of_start r hC
  | openReport _ _ hh => exact hinv.of_set hh rfl rfl rfl (le_refl 0)
  | noWork hh hn => exact hinv.of_set hh rfl rfl rfl (le_refl 0)
  | badWorkers hh hn hnw => exact hinv.of_set hh rfl rfl rfl (le_refl 0)
  | setWorkers hh hn hnw =>
    -- no kills are in progress, and none start
    have hk : s.killing = false := hC (by simp [hh, Handler.sets, hn, hnw])
    exact KillInv.of_not_killing (killing_of_set hk rfl rfl)
  | @launch h r settings wrk b nw i out model hh hi hr hmod =>
    -- a launch is to come, so no kills are in progress
    have hk : s.killing = false := by
      refine List.any_eq_false.mpr fun y hy => ?_
      obtain ⟨j, hj⟩ := List.mem_iff_getElem?.mp hy
      intro hyk
      have hzero := (hinv.exact j y hj hyk).2
      have hle := launches_le hh
      have hpos : 0 < (Handler.launching settings wrk b nw i out).launches := by
        show 0 < (nw - i).toNat
        omega
      omega
    exact KillInv.of_not_killing (killing_of_set hk rfl rfl)
  | panic hh hi hr hm => exact hinv.of_set hh rfl rfl rfl (Nat.zero_le _)
  | launched hh hi => exact hinv.of_set hh rfl rfl rfl (Nat.zero_le _)
  -- a `/pause` that is over has matched its kills
  | killed hh => exact hinv.of_set hh rfl rfl rfl (le_refl 0)
  | timeout hh => exact hinv.of_set hh rfl rfl rfl (le_refl 0)
  | writeCsv hh => exact hinv.of_set hh rfl rfl rfl (le_refl 0)
  | report hh hr => exact hinv.of_set hh rfl rfl rfl (le_refl 0)
  | monitorTick hsel => exact ⟨hinv.exact, hinv.unique⟩
  | @worker w a wk wk' hw ha =>
    -- a worker leaves only when no kills are in progress
    by_cases hleaves : Worker.leaves a = true
    · exact KillInv.of_not_killing (hC hleaves)
    · exact hinv.of_live (live_worker hw ha (by simpa using hleaves))
  | stat hw hst hsel => exact hinv.of_live (live_stat hw hst)
  | @kill h w left closes wk hh hw hsel =>
    obtain ⟨hkills, hzero⟩ := hinv.exact h _ hh rfl
    have hlive := live_kill hw hsel
    have hlaunch := launches_setHandler (.killing closes left) hh
    rw [Handler.launches_killing, Handler.launches_killing] at hlaunch
    rw [Handler.kills_killing] at hkills
    -- the handler is the only one with kills left, so the others have stopped at none
    have hother : ∀ (i : Nat) x, i ≠ h → s.handlers[i]? = some x → x.kills = 0 := by
      intro i x hne hget
      by_contra hpos
      exact hne (hinv.unique i h x _ hget hh (by omega) (Nat.succ_pos left))
    constructor
    · intro i x hget hx
      show x.kills = (s.setWorker w wk.killed).live ∧ (s.setHandler h _).launches = 0
      rcases List.getElem?_set_eq_some hget with ⟨-, rfl⟩ | ⟨hne, hget⟩
      · rw [Handler.kills_killing]
        omega
      · have hkills' := (hinv.exact i x hget hx).1
        rw [hother i x (Ne.symm hne) hget] at hkills'
        omega
    · intro i j x y hi hj hx hy
      rcases List.getElem?_set_eq_some hi with ⟨rfl, -⟩ | ⟨hne, hi⟩
      · rcases List.getElem?_set_eq_some hj with ⟨rfl, -⟩ | ⟨hne, hj⟩
        · rfl
        · rw [hother j y (Ne.symm hne) hj] at hy
          exact absurd hy (lt_irrefl 0)
      · rw [hother i x (Ne.symm hne) hi] at hx
        exact absurd hx (lt_irrefl 0)

/-! ## The count -/

/-- The count is that of the live workers and the launches to come, or it is about to be
    set. -/
def CountInv (s : App) : Prop :=
  s.resets = true ∨ s.currentWorkers = s.live + s.launches

/-- A handler that was not about to set the count, and launches nobody, keeps the
    invariant. -/
theorem CountInv.of_set (hinv : CountInv s) {h : Nat} {x x' : Handler}
    (hh : s.handlers[h]? = some x) (hhs : s'.handlers = s.handlers.set h x')
    (hlive : s'.live = s.live) (hcount : s'.currentWorkers = s.currentWorkers)
    (hx : x.sets = none) (hl : x'.launches = x.launches) : CountInv s' := by
  -- the handler is not the one that is about to set the count
  rcases hinv with hreset | heq
  · exact .inl (by rw [resets, hhs, List.any_set_of_any _ hh (by simp [hx]) hreset])
  · right
    have hset := launches_setHandler x' hh
    have hlaunch : s'.launches = (s.setHandler h x').launches := launches_congr hhs
    omega

/-- A step of the workers or the monitor alone. -/
theorem CountInv.of_live (hinv : CountInv s) (hhs : s'.handlers = s.handlers)
    (hlive : s'.live = s.live) (hcount : s'.currentWorkers = s.currentWorkers) :
    CountInv s' := by
  unfold CountInv resets launches
  rw [hhs, hlive, hcount]
  exact hinv

/-- A step that keeps the count keeps the invariant. -/
theorem countInv_step {e : Event} (hinv : CountInv s) (hC : CountKept s e)
    (he : s.step e = some s') : CountInv s' := by
  obtain ⟨-, hm⟩ := moves_of_step he
  cases hm with
  -- a new handler launches nobody yet, and sets nothing
  | request r =>
    rcases hinv with hreset | heq
    · left
      show (s.handlers ++ [s.start r]).any _ = true
      rw [List.any_append, Bool.or_eq_true]
      exact .inl hreset
    · right
      rw [launches_request]
      exact heq
  | openReport _ _ hh => exact hinv.of_set hh rfl rfl rfl rfl rfl
  | noWork hh hn => exact hinv.of_set hh rfl rfl rfl (by simp [Handler.sets, hn]) rfl
  | badWorkers hh hn hnw => exact hinv.of_set hh rfl rfl rfl (by simp [Handler.sets, hn, hnw]) rfl
  | @setWorkers h settings wrk b out nw hh hn hnw =>
    have hsets : (s.handlers[h]?).bind Handler.sets = some nw := by
      simp [hh, Handler.sets, hn, hnw]
    rcases (hC nw hsets).2 with hother | ⟨hpos, hlive, hlaunch⟩
    · left
      show (s.handlers.set h _).any _ = true
      rw [List.any_set _ _ hh, hother, Bool.or_true]
    · -- the count and the launches to come are both `nw`
      right
      have hset := launches_setHandler (.launching settings wrk b nw 0 out) hh
      have hnew : (Handler.launching settings wrk b nw 0 out).launches = nw.toNat := by
        simp [Handler.launches]
      have hold : (Handler.opened settings wrk b out).launches = 0 := rfl
      show nw = (s.live + (s.setHandler h _).launches : Int)
      omega
  | @launch h r settings wrk b nw i out model hh hi hr hmod =>
    rcases hinv with hreset | heq
    · exact .inl (List.any_set_of_any _ hh rfl hreset)
    · -- one launch less to come, one live worker more
      right
      have hset := launches_setHandler (.launching settings wrk b nw (i + 1) out) hh
      have hold : (Handler.launching settings wrk b nw i out).launches = (nw - i).toNat := rfl
      have hnew : (Handler.launching settings wrk b nw (i + 1) out).launches =
        (nw - (i + 1 : Nat)).toNat := rfl
      show s.currentWorkers = (((s.workers ++ [Worker.spawn _]).countP Worker.live : Nat) +
        (s.setHandler h _).launches : Int)
      rw [List.countP_append, List.countP_singleton, Worker.spawn_live, if_pos rfl]
      unfold live at heq
      omega
  | panic hh hi hr hmod =>
    -- the launches to come are lost, so the count must be about to be set
    have hreset : s.resets = true := by
      refine hC.resolve_right ?_
      simp [hh, Handler.draws, hmod]
    exact .inl (List.any_set_of_any _ hh rfl hreset)
  -- no launches are left
  | launched hh hi =>
    refine hinv.of_set hh rfl rfl rfl rfl ?_
    rw [Handler.launches_done, Handler.launches]
    omega
  | killed hh => exact hinv.of_set hh rfl rfl rfl rfl rfl
  | timeout hh => exact hinv.of_set hh rfl rfl rfl rfl rfl
  | writeCsv hh => exact hinv.of_set hh rfl rfl rfl rfl rfl
  | report hh hr => exact hinv.of_set hh rfl rfl rfl rfl rfl
  | monitorTick hsel => exact hinv
  -- the worker leaves, or goes on
  | @worker w a wk wk' hw ha =>
    by_cases hleaves : Worker.leaves a = true
    · exact .inl (hC hleaves).1
    · exact hinv.of_live rfl (live_worker hw ha (by simpa using hleaves)) rfl
  | stat hw hst hsel => exact hinv.of_live rfl (live_stat hw hst) rfl
  | kill hh hw hsel => exact .inl (List.any_set_of_any _ hh rfl hC)

/-- With the count right, the kills of a `/pause` or `/kill` are matched. -/
theorem killsMatched_of_countKept {e : Event} (hinv : CountInv s) (hC : CountKept s e) :
    KillsMatched s e := by
  have hrequest : (s.launches = 0 ∧ (∀ x ∈ s.handlers, x.kills = 0) ∧
      (s.resets = true → s.currentWorkers.toNat = s.live)) →
      s.currentWorkers.toNat = s.live ∧ s.launches = 0 ∧ ∀ x ∈ s.handlers, x.kills = 0 := by
    rintro ⟨hlaunch, hkills, hreset⟩
    refine ⟨?_, hlaunch, hkills⟩
    -- either the count is about to be reset, or no launch is left and it is that of the live ones
    rcases hinv with hr | heq
    · exact hreset hr
    · omega
  match e with
  | .request .pause => exact hrequest hC
  | .request .kill => exact hrequest hC
  | .worker w a => exact fun hleaves => (hC hleaves).2
  | .readWorkers h =>
    intro hsets
    obtain ⟨nw, hnw⟩ := Option.isSome_iff_exists.mp hsets
    exact (hC nw hnw).1
  | .request (.workload _) | .request .stats | .openReport .. | .launch .. | .respond _
  | .timeout _ | .writeCsv _ | .monitorTick | .kill .. | .stat _ | .report .. => trivial

/-! ## Runs -/

variable {dir : String} {es : List Event}

/-- What the kills in progress are matched with. -/
theorem KillInv.matched (hinv : KillInv s) :
    (∀ x ∈ s.handlers, 0 < x.kills → 0 < s.live) ∧
      ∀ closes, .killing closes 0 ∈ s.handlers → s.live = 0 := by
  constructor
  · intro x hx hpos
    obtain ⟨i, hi⟩ := List.mem_iff_getElem?.mp hx
    rw [← (hinv.exact i x hi (Handler.isKilling_of_kills_pos hpos)).1]
    exact hpos
  · intro closes hx
    obtain ⟨i, hi⟩ := List.mem_iff_getElem?.mp hx
    exact (hinv.exact i _ hi rfl).1.symm

/-- A handler's kills are received, and leave no worker, in every run in which each `/pause`
    and `/kill` is matched: over any number of workloads and pauses. -/
theorem killed_of_meets (h : Runs dir es s)
    -- the invariant is that of a single step
    (hC : Machine.Meets App.step (fun _ => KillsMatched) (init dir) es) :
    (∀ x ∈ s.handlers, 0 < x.kills → 0 < s.live) ∧
      ∀ closes, .killing closes 0 ∈ s.handlers → s.live = 0 := by
  have hinv : KillInv s := by
    refine Machine.run_invariant_of_meets (P := KillInv) (.of_not_killing rfl) ?_ hC h
    intro es t e u ht hc he
    exact killInv_step ht hc he
  exact hinv.matched

/-- Two workloads, each with its pause, are matched, though the count stays at one after the
    first pause. -/
example : Machine.check App.step (fun s e => decide (KillsMatched s e)) (init "reports")
    (submit 0 (sampleForm [("0", "m")] "5" "1") "b" [0] ++
      [.request .pause, .worker 0 .iterate, .kill 1 0, .respond 1] ++
      submit 2 (sampleForm [("0", "m")] "5" "1") "c" [0] ++
      [.request .pause, .worker 1 .iterate, .kill 3 1, .respond 3]) = true := by decide

/-- In every run in which the count is kept, it is right whenever no handler is in progress,
    and the kills reach live workers until none is left. -/
theorem lifecycle_of_meets (h : Runs dir es s)
    (hC : Machine.Meets App.step (fun _ => CountKept) (init dir) es) : Lifecycle s := by
  have hinv : KillInv s ∧ CountInv s := by
    refine Machine.run_invariant_of_meets (P := fun s => KillInv s ∧ CountInv s)
      ⟨.of_not_killing rfl, .inr rfl⟩ ?_ hC h
    intro es t e u ⟨hkill, hcount⟩ hc he
    exact ⟨killInv_step hkill (killsMatched_of_countKept hcount hc) he,
      countInv_step hcount hc he⟩
  obtain ⟨hreceiver, hkilled⟩ := hinv.1.matched
  refine ⟨fun hquiet => ?_, hreceiver, hkilled⟩
  -- a handler that resets the count or launches is still active
  have hno : s.resets = false := by
    refine List.any_eq_false.mpr fun x hx hsets => ?_
    have hactive := Handler.active_of_sets hsets
    rw [hquiet x hx] at hactive
    exact nomatch hactive
  have hzero : s.launches = 0 :=
    (List.sum_map_eq_zero _ _).mpr fun x hx => Handler.launches_of_not_active (hquiet x hx)
  have heq := hinv.2.resolve_left (by simp [hno])
  rw [hzero] at heq
  simpa using heq

/-- A worker that has done its requests leaves the count as it is, and the next `/pause`
    waits for it. -/
theorem count_keeps_finished_worker : ¬ ∀ dir es s, Runs dir es s → Lifecycle s := by
  intro hall
  obtain ⟨s, hs, hp⟩ := Machine.exists_run_of_map App.step (init "reports")
    (submit 0 (sampleForm [("0", "m")] "1" "1") "b" [0] ++ predicts 0 ++ [.worker 0 .finish])
    (fun s => s.handlers.all (fun x => !x.active) && s.currentWorkers == 1 && s.live == 0)
    (by decide)
  simp only [Bool.and_eq_true, List.all_eq_true, Bool.not_eq_true', beq_iff_eq] at hp
  obtain ⟨⟨hquiet, hcount⟩, hlive⟩ := hp
  -- the count is one, and no worker is left
  have heq := (hall _ _ s hs).counter hquiet
  rw [hcount, hlive] at heq
  exact absurd heq (by decide)

/-- A workload of two workers, and a second one that is paused before it sets the count. -/
def pausedSubmission : List Event :=
  submit 0 (sampleForm [("0", "m")] "5" "2") "b" [0, 0] ++
    [.request (sampleForm [("0", "m")] "5" "1"), .openReport 1 "c" true, .request .pause,
      .worker 0 .iterate, .kill 2 0, .worker 1 .iterate, .kill 2 1, .respond 2, .readWorkers 1,
      .launch 1 0, .respond 1]

/-- On the way one kill is left for one worker, then none, and in the end the count is that of
    the second workload. -/
theorem lifecycle_of_pause :
    ∃ s t u, Runs "reports" (pausedSubmission.take 11) s ∧
      Runs "reports" (pausedSubmission.take 13) t ∧ Runs "reports" pausedSubmission u ∧
      (∃ x ∈ s.handlers, 0 < x.kills) ∧ (∃ x ∈ t.handlers, x.active = true ∧ x.kills = 0) ∧
      ((∀ x ∈ u.handlers, x.active = false) ∧ u.currentWorkers = 1) ∧
      Lifecycle s ∧ Lifecycle t ∧ Lifecycle u := by
  -- each step of the run is checked, and with it each part of it
  have hkept : ∀ {es v}, Runs "reports" es v →
      Machine.check App.step (fun s e => decide (CountKept s e)) (init "reports") es = true →
      Lifecycle v := fun h hcheck =>
    lifecycle_of_meets h (Machine.meets_of_check (fun _ _ _ hc => of_decide_eq_true hc) hcheck)
  obtain ⟨s, hs, hkills⟩ := Machine.exists_run_of_map App.step (init "reports")
    (pausedSubmission.take 11) (fun s => s.handlers.any fun x => 0 < x.kills) (by decide)
  obtain ⟨t, ht, hkilled⟩ := Machine.exists_run_of_map App.step (init "reports")
    (pausedSubmission.take 13) (fun t => t.handlers.any fun x => x.active && x.kills == 0)
    (by decide)
  obtain ⟨u, hu, hend⟩ := Machine.exists_run_of_map App.step (init "reports") pausedSubmission
    (fun u => u.handlers.all (fun x => !x.active) && u.currentWorkers == 1) (by decide)
  simp only [List.any_eq_true, decide_eq_true_eq] at hkills
  simp only [List.any_eq_true, Bool.and_eq_true, beq_iff_eq] at hkilled
  simp only [Bool.and_eq_true, List.all_eq_true, Bool.not_eq_true', beq_iff_eq] at hend
  exact ⟨s, t, u, hs, ht, hu, hkills, hkilled, hend, hkept hs (by decide), hkept ht (by decide),
    hkept hu (by decide)⟩

end App

end WorkloadSimulator
