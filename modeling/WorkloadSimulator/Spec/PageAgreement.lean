import WorkloadSimulator.Spec.ClientStep
import WorkloadSimulator.Spec.PlayRequest
import WorkloadSimulator.Stress.PlaySession

/-!
# What the page shows and what the server does

The button of the page changes when an answer arrives, and the pool when a request is handled, so
the two need not agree while a request to `/workload` or `/pause` is under way. They agree again
when it is answered, as long as the user presses PLAY only while there are no such requests.

## Key results

- `submitWorkload_formOf`: what a play posts is handled as the requests of a session are
- `agrees_of_run`: what the button says of the pool
- `stopped_while_running`: a play that overtakes a pause
-/

namespace WorkloadSimulator

/-! ## The page -/

namespace Client

variable {site : Site} {s s' : Client}

/-- What is left as it is by an event that is neither a click on the button nor an answer. -/
structure SamePlay (s s' : Client) : Prop where
  running : s'.running = s.running
  workloadRequests : s'.workloadRequests = s.workloadRequests
  pauseRequests : s'.pauseRequests = s.pauseRequests
  played : s'.played = s.played

theorem SamePlay.refl (s : Client) : SamePlay s s := ⟨rfl, rfl, rfl, rfl⟩

/-- An event of the browser that is no answer. -/
theorem samePlay_of_step {e : Event} (he : Stress.PlaySession.isAnswer e = false)
    (h : s.step site e = some s') : (e = .click ∧ s' = s.click) ∨ SamePlay s s' := by
  cases moves_of_step h with
  | click => exact .inl ⟨rfl, rfl⟩
  | played | playError | paused | pauseError | stats | statsError => cases he
  -- a new widget or a full page: the play is in none of the fields that change
  | newWidget =>
    refine .inr ?_
    unfold newWidget
    split <;> exact ⟨rfl, rfl, rfl, rfl⟩
  | dialMax plus =>
    refine .inr ?_
    unfold updateDialValue
    split <;> exact ⟨rfl, rfl, rfl, rfl⟩
  | editQuery | setDial | closeWidget | clearWorkload | upload | timer | autoSave | save =>
    exact .inr ⟨rfl, rfl, rfl, rfl⟩

/-- A response to `/stats` may end in a pause. -/
theorem samePlay_of_stats {data : StatsReply} (h : s.step site (.stats data) = some s') :
    SamePlay s s' ∨ (s.running = true ∧ s'.running = true ∧ s'.played = s.played ∧
      s'.workloadRequests = s.workloadRequests ∧ s'.pauseRequests = s.pauseRequests + 1) := by
  cases moves_of_step h with
  | stats _ hs =>
    have hreceives := receives site { s with statsRequests := s.statsRequests - 1 } data
    generalize onWorkloadReceive site { s with statsRequests := s.statsRequests - 1 } data = t
      at hreceives
    -- only a response that says the workload is not running, to a page that is, asks for a pause
    cases hreceives with
    | stopped hr => exact .inr ⟨hr, hr, rfl, rfl, rfl⟩
    | ignored | errorThrown | thrown | shown => exact .inl ⟨rfl, rfl, rfl, rfl⟩

end Client

namespace Stress

/-! ## The server -/

namespace Server

variable {σ : Type} {s : Server σ}

/-- No pool runs. -/
def Stopped (s : Server σ) : Prop := ∀ pool ∈ s.gWorkers, pool.paused = true

/-- The request only reads, but for pools with a dead process, which it clears. -/
def Request.reads : Request σ → Bool
  | .workload _ _ | .pause _ => false
  | .stats _ | .status _ => true

/-- A check in the course of the request would find a dead process. -/
def Request.meetsDead : Request σ → Bool
  | .workload _ env | .pause env | .stats env | .status env => !env.aliveChecked

/-- However the request ends, a server that has handled `/pause` runs no pool. -/
theorem stopped_pause (s : Server σ) (env : Env) : (s.pause env).1.Stopped := by
  unfold pause
  split
  · rename_i hnone
    intro pool hpool
    rw [hnone] at hpool
    -- a pool that is paused already is left as it is
    cases hpool
  · rename_i pool hsome
    split
    · rename_i hpaused
      intro p hp
      obtain rfl := Option.some.inj (hsome.symm.trans hp)
      exact hpaused
    -- the pool is paused, or cleared where a process has died
    · cases halive : env.aliveChecked with
      | false =>
        rintro p ⟨⟩
        rfl
      | true =>
        rintro p ⟨⟩
        rfl

variable [DecidableEq σ]

/-- A request that reads leaves the pool, or clears it. -/
theorem gWorkers_of_reads {r : Request σ} (hr : r.reads = true) :
    (s.handle r).1.gWorkers = s.gWorkers ∨
      (r.meetsDead = true ∧ (s.handle r).1.gWorkers = s.gWorkers.map .pause) := by
  -- what `is_alive` leaves: the pool, or a pool that has been cleared
  have hcheck : ∀ (pool : WorkerPool σ) (alive : Bool), s.gWorkers = some pool →
      some (pool.isAlive alive) = s.gWorkers ∨
        ((!alive) = true ∧ some (pool.isAlive alive) = s.gWorkers.map .pause) := by
    intro pool alive hpool
    rw [hpool]
    cases alive with
    | true => exact .inl rfl
    | false => exact .inr ⟨rfl, rfl⟩
  cases r with
  | workload | pause => cases hr
  | stats env =>
    show (s.getStats env).1.gWorkers = _ ∨ _ ∧ (s.getStats env).1.gWorkers = _
    unfold getStats
    split
    · exact .inl rfl
    · rename_i pool hpool
      -- only every so many requests check the pool
      have hchecked : (if s.statCheckCount % fullCheckPeriod = 0 then
            { s with gWorkers := some (pool.isAlive env.aliveChecked) } else s).gWorkers =
          s.gWorkers ∨ ((!env.aliveChecked) = true ∧
          (if s.statCheckCount % fullCheckPeriod = 0 then
            { s with gWorkers := some (pool.isAlive env.aliveChecked) } else s).gWorkers =
          s.gWorkers.map .pause) := by
        split
        · exact hcheck pool env.aliveChecked hpool
        · exact .inl rfl
      dsimp only
      generalize (if s.statCheckCount % fullCheckPeriod = 0 then
        { s with gWorkers := some (pool.isAlive env.aliveChecked) } else s) = u at hchecked
      -- what is read after the check changes no pool
      repeat' split
      all_goals exact hchecked
  | status env =>
    show (s.getStatus env).1.gWorkers = _ ∨ _ ∧ (s.getStatus env).1.gWorkers = _
    unfold getStatus
    split
    · exact .inl rfl
    · rename_i pool hpool
      have hcheck := hcheck pool env.aliveChecked hpool
      split <;> exact hcheck

/-- A request that reads lets no pool run. -/
theorem Stopped.reads {r : Request σ} (h : s.Stopped) (hr : r.reads = true) :
    (s.handle r).1.Stopped := by
  intro pool hpool
  rcases gWorkers_of_reads hr with heq | ⟨-, heq⟩
  · exact h pool (heq ▸ hpool)
  · rw [heq] at hpool
    obtain ⟨p, -, rfl⟩ := Option.map_eq_some_iff.mp hpool
    rfl

omit [DecidableEq σ] in
/-- What becomes of a workload that is handed to a pool that is paused. -/
theorem submitTo_answer {g : QueryMap} {pool : WorkerPool σ} {env : Env}
    (hsends : env.sends = true) (hpaused : pool.paused = true) :
    ((s.submitTo g pool env).2.running? = some true ∧ ∃ p : WorkerPool σ,
        (s.submitTo g pool env).1.gWorkers = some p ∧ p.paused = false ∧ p.workload = some g) ∨
      ((s.submitTo g pool env).2.running? ≠ some true ∧ (s.submitTo g pool env).1.Stopped) := by
  -- `is_alive` does not make a paused pool run
  have halive : (pool.isAlive env.aliveChecked).paused = true := by
    unfold WorkerPool.isAlive
    split
    · exact hpaused
    · rfl
  have hstopped : ∀ t : Server σ, t.gWorkers = some (pool.isAlive env.aliveChecked) →
      t.Stopped := by
    intro t ht p hp
    obtain rfl := Option.some.inj (ht.symm.trans hp)
    exact halive
  unfold submitTo
  dsimp only
  -- a dead pool, no message received or a failing `pause` each leave a pool that is paused
  split
  · exact .inr ⟨by simp [Response.running?], hstopped _ rfl⟩
  · split
    · exact .inr ⟨by simp [Response.running?], hstopped _ rfl⟩
    · exact .inr ⟨by simp [Response.running?], hstopped _ rfl⟩
    · split
      · refine .inr ⟨by simp [Response.running?], ?_⟩
        rintro p ⟨⟩
        rfl
      · exact .inl ⟨rfl, _, rfl, rfl, rfl⟩

/-- A submission to a server without a pool that runs is accepted, or there is still none. -/
theorem submitWorkload_answer {form : Form σ} {env : Env} (h : s.Stopped)
    (hsends : env.sends = true) :
    ((s.submitWorkload form env).2.running? = some true ∧ ∃ p : WorkerPool σ,
        (s.submitWorkload form env).1.gWorkers = some p ∧ p.paused = false ∧
        p.workload = some (filled form)) ∨
      ((s.submitWorkload form env).2.running? ≠ some true ∧
        (s.submitWorkload form env).1.Stopped) := by
  unfold submitWorkload
  split
  -- no text, an entry that cannot be read, wrong settings, a query that fails: the pool stays
  · exact .inr ⟨by simp [Response.running?], h⟩
  · rename_i items hform
    split
    · exact .inr ⟨by simp [Response.running?], h⟩
    · rename_i g hfill
      obtain rfl : filled form = g := by simp [filled, hform, hfill]
      dsimp only
      split
      · exact .inr ⟨by simp [Response.running?], h⟩
      · split
        · exact .inr ⟨by simp [Response.running?], h⟩
        · exact .inr ⟨by simp [Response.running?], h⟩
        -- the pool of before is paused, whatever the check of its processes finds
        · have hold : ∀ p ∈ s.gWorkers.map fun pool => pool.isAlive env.alive, p.paused = true := by
            intro p hp
            obtain ⟨pool, hpool, rfl⟩ := Option.map_eq_some_iff.mp hp
            unfold WorkerPool.isAlive
            split
            · exact h pool hpool
            · rfl
          -- the pool of before is used again, or a new one takes its place, or none can be made
          split
          · rename_i pool hpool
            exact submitTo_answer hsends (hold pool (Option.mem_filter_iff.mp hpool).1)
          · split
            · exact submitTo_answer hsends rfl
            · refine .inr ⟨by simp [Response.running?], ?_⟩
              intro p hp
              obtain ⟨pool, -, rfl⟩ := Option.map_eq_some_iff.mp hp
              rfl

end Server

/-! ## What is posted -/

/-- The loop over the entries reads each of them by three values only. -/
theorem fill_map_congr {α : Type} {f f' : α → Posted} {l : List α}
    (h : ∀ x ∈ l, (f x).parseQps = (f' x).parseQps ∧ (f x).queryId = (f' x).queryId ∧
      (f x).query = (f' x).query) (g : QueryMap) : fill g (l.map f) = fill g (l.map f') := by
  -- induction on the entries, for every map of those before
  induction l generalizing g with
  | nil => rfl
  | cons x l ih =>
    rw [List.forall_mem_cons] at h
    obtain ⟨⟨hqps, hid, hquery⟩, hl⟩ := h
    simp only [List.map_cons, fill, hqps, hid, hquery, ih hl]

variable {σ : Type} [DecidableEq σ]

/-- A form matters only by what the loop over its entries makes of them. -/
theorem submitWorkload_congr {settings : Except PyError σ} {items items' : List Posted}
    (h : fill ∅ items = fill ∅ items') (s : Server σ) (env : Env) :
    s.submitWorkload ⟨some items, settings⟩ env = s.submitWorkload ⟨some items', settings⟩ env := by
  simp only [Server.submitWorkload, h]

/-- The entry that a play posts for a widget: its id, its text and its rate without fraction. -/
theorem converts_postedEntry (x : Nat × WidgetInfo) :
    (postedEntry x).Converts ∧ (postedEntry x).entry = ⟨x.1, ⌊x.2.qps⌋, x.2.query⟩ :=
  ⟨⟨⟨_, rfl⟩, _, rfl⟩, rfl⟩

/-- The server handles the body of a play as it handles the entries of its page, in some order. -/
theorem submitWorkload_formOf {conv : Conversions} {create : Json → Except PyError σ} {v : Json}
    {c : Client} {form : Form σ} (hconv : conv.ReadsDecimals) (hv : v.Valid)
    (hform : form.ReadFrom conv create (playBody c.postedWorkload v)) :
    ∃ order, order.Perm c.getWorkload ∧ ∀ (s : Server σ) env,
      s.submitWorkload form env = s.submitWorkload (formOf order (create v)) env := by
  obtain ⟨hworkload, hsettings⟩ := hform
  -- the body that is read is the one that the page has written
  rw [loadWorkload_playBody (nodup_postedWorkload c) hv] at hworkload
  rw [(loadValue_playBody hv).2] at hsettings
  obtain ⟨items, hperm, hitems⟩ := hworkload
  rw [Client.postedWorkload, List.map_map] at hperm
  -- the entries that are read are those of the widgets, in another order
  obtain ⟨order, rfl, horder⟩ := (congrFun₂ (List.eq_map_comp_perm _) _ _).mpr hperm
  refine ⟨order, horder, fun s env => ?_⟩
  obtain ⟨workload, settings⟩ := form
  obtain rfl : workload = _ := hitems
  obtain rfl : settings = _ := hsettings
  refine submitWorkload_congr (fill_map_congr (fun x hx => ?_) ∅) s env
  -- both are read as the entry shows
  obtain ⟨⟨⟨qps, hqps⟩, id, hid⟩, hentry⟩ := entry_postedOf hconv (horder.mem_iff.mp hx)
  rw [Posted.entry, hqps, hid] at hentry
  cases hentry
  exact ⟨hqps, hid, rfl⟩

namespace PlaySession

variable {dialMaxValue : Int} {cache : Option (AList fun _ : Nat => WidgetInfo)}
  {server : Server σ} {env : Env} {es : List (Event σ)} {s s' : PlaySession σ} {e : Event σ}
  {workload : List (Nat × WidgetInfo)}

/-- The session from a page that has just loaded. -/
abbrev Runs (dialMaxValue : Int) (cache : Option (AList fun _ : Nat => WidgetInfo))
    (server : Server σ) (env : Env) (es : List (Event σ)) (s : PlaySession σ) : Prop :=
  Machine.run step (init dialMaxValue cache server env) es = some s

/-! ## Conditions and conclusions -/

/-- The user presses PLAY only while no request to `/workload` or `/pause` is under way, and no
    answer to them gets lost. Others submit and pause nothing, and workloads that are sent to the
    pool are received. -/
def Careful (s : PlaySession σ) : Event σ → Prop
  | .browser .click => s.client.running = true ∨
      (s.client.workloadRequests = [] ∧ s.client.pauseRequests = 0)
  | .workload _ _ _ env => env.sends = true
  | .other r => r.reads = true
  | .workloadFails _ | .pauseFails _ => False
  | _ => True

def Event.isWorkload : Event σ → Bool
  | .workload _ _ _ _ => true
  | _ => false

/-- A check in the course of the event would find a dead process. -/
def Event.meetsDead : Event σ → Bool
  | .stats _ env | .pause _ env => !env.aliveChecked
  | .other r => r.meetsDead
  | _ => false

/-- The last request to `/workload` that has reached the server has posted this workload, and
    `post` has come after it. -/
def LastWorkload (start : PlaySession σ) (es : List (Event σ)) (workload : List (Nat × WidgetInfo))
    (post : List (Event σ)) : Prop :=
  ∃ pre n order settings env t, es = pre ++ .workload n order settings env :: post ∧
    (∀ e ∈ post, e.isWorkload = false) ∧ Machine.run step start pre = some t ∧
    t.client.workloadRequests[n]? = some workload

/-- The items of a workload, as the server has them. -/
def itemsOf (workload : List (Nat × WidgetInfo)) : List (Σ _ : Int, QueryInfo) :=
  workload.map fun x => ⟨x.1, ⌊x.2.qps⌋, x.2.query⟩

/-- The pool runs this workload, and it is the last one that has reached the server. Only for a
    process that has died since, the pool may have been cleared. -/
def Plays (start : PlaySession σ) (es : List (Event σ)) (server : Server σ)
    (workload : List (Nat × WidgetInfo)) : Prop :=
  ∃ post pool g, LastWorkload start es workload post ∧ server.gWorkers = some pool ∧
    pool.workload = some g ∧ g.entries.Perm (itemsOf workload) ∧
    (pool.paused = true → ∃ e ∈ post, e.meetsDead = true)

/-- Each request to `/pause` under way has a place, and none is answered with an error. -/
structure Pauses (s : PlaySession σ) : Prop where
  length : s.pauseAnswers.length = s.client.pauseRequests
  running : ∀ r, some r ∈ s.pauseAnswers → r.running?.isSome = true

/-- Where a session is between two plays. -/
inductive Phase (start : PlaySession σ) (es : List (Event σ)) (s : PlaySession σ) : Prop where
  | stopped (hr : s.client.running = false) (hw : s.client.workloadRequests = [])
      (hwa : s.workloadAnswers = []) (hp : s.Pauses) (hs : s.server.Stopped)
  /-- The request of a play is on its way to the server. -/
  | posted (workload : List (Nat × WidgetInfo)) (hr : s.client.running = false)
      (hw : s.client.workloadRequests = [workload]) (hwa : s.workloadAnswers = [none])
      (hnodup : (workload.map Prod.fst).Nodup) (hp : s.Pauses) (hpa : s.pauseAnswers = [])
      (hs : s.server.Stopped)
  /-- Its answer is on its way back. -/
  | answered (workload : List (Nat × WidgetInfo)) (r : Response) (hr : s.client.running = false)
      (hw : s.client.workloadRequests = [workload]) (hwa : s.workloadAnswers = [some r])
      (hp : s.Pauses) (hpa : s.pauseAnswers = [])
      (hs : if r.running? = some true then Plays start es s.server workload
        else s.server.Stopped)
  | running (workload : List (Nat × WidgetInfo)) (hr : s.client.running = true)
      (hplayed : s.client.played = workload.map Prod.fst) (hw : s.client.workloadRequests = [])
      (hwa : s.workloadAnswers = []) (hp : s.Pauses)
      (hs : if ∀ a ∈ s.pauseAnswers, a = none then Plays start es s.server workload
        else s.server.Stopped)

/-! ## The steps -/

/-- A page with no new request awaits no new answer. -/
theorem awaited_of_le {answers : List (Option Response)} {n : Nat} (h : n ≤ answers.length) :
    awaited answers n = answers := by
  rw [awaited, Nat.sub_eq_zero_of_le h, List.replicate_zero, List.append_nil]

/-- A new request awaits an answer behind the others. -/
theorem awaited_succ (answers : List (Option Response)) :
    awaited answers (answers.length + 1) = answers ++ [none] := by
  rw [awaited, Nat.add_sub_cancel_left, List.replicate_one]

omit [DecidableEq σ] in
/-- The requests to `/pause` are the same ones for the page as it has become. -/
theorem pauses_browse {c : Client} (hlength : s.pauseAnswers.length = c.pauseRequests)
    (hrunning : ∀ r, some r ∈ s.pauseAnswers → r.running?.isSome = true) :
    (s.browse c).pauseAnswers = s.pauseAnswers ∧ (s.browse c).Pauses := by
  -- nothing new is awaited
  have hpa : (s.browse c).pauseAnswers = s.pauseAnswers := awaited_of_le hlength.ge
  refine ⟨hpa, ?_, ?_⟩
  · rw [hpa]
    exact hlength
  · rwa [hpa]

/-- What an event does to the server that is no request of the page to `/workload` or `/pause`. -/
inductive Reads (e : Event σ) (server : Server σ) : Server σ → Prop where
  | none : Reads e server server
  | handle {r : Server.Request σ} (hr : r.reads = true) (hdead : r.meetsDead = e.meetsDead) :
      Reads e server (server.handle r).1

variable {start : PlaySession σ} {t : Server σ}

/-- Such a request lets no pool run. -/
theorem Reads.stopped (h : Reads e server t) (hs : server.Stopped) : t.Stopped := by
  cases h with
  | none => exact hs
  | handle hr => exact hs.reads hr

/-- Such a request leaves a pool that plays, but for a dead process. -/
theorem Plays.reads (hs : Plays start es server workload) (h : Reads e server t)
    (he : e.isWorkload = false) : Plays start (es ++ [e]) t workload := by
  obtain ⟨post, pool, g, ⟨pre, n, order, settings, env, u, rfl, hpost, hu, hw⟩, hpool, hg, hperm,
    hdead⟩ := hs
  -- the event comes behind the last submission and is none itself
  have hlast : LastWorkload start (pre ++ .workload n order settings env :: post ++ [e]) workload
      (post ++ [e]) := by
    refine ⟨pre, n, order, settings, env, u, by simp, fun f hf => ?_, hu, hw⟩
    rcases List.mem_append.mp hf with hf | hf
    · exact hpost f hf
    · rwa [List.mem_singleton.mp hf]
  have hstays : pool.paused = true → ∃ f ∈ post ++ [e], f.meetsDead = true := fun hpaused =>
    (hdead hpaused).imp fun f hf => ⟨List.mem_append_left _ hf.1, hf.2⟩
  cases h with
  | none => exact ⟨_, pool, g, hlast, hpool, hg, hperm, hstays⟩
  | handle hr hmeets =>
    rcases Server.gWorkers_of_reads (s := server) hr with heq | ⟨hfound, heq⟩
    · exact ⟨_, pool, g, hlast, heq.trans hpool, hg, hperm, hstays⟩
    · -- the check has found a dead process and cleared the pool
      rw [hpool] at heq
      exact ⟨_, pool.pause, g, hlast, heq, hg, hperm, fun _ =>
        ⟨e, List.mem_append_right _ (List.mem_singleton_self e), hmeets ▸ hfound⟩⟩

/-- The page is as it was, and so are its requests. -/
theorem Phase.same (h : Phase start es s) (hc : Client.SamePlay s.client s'.client)
    (hwa : s'.workloadAnswers = s.workloadAnswers) (hpa : s'.pauseAnswers = s.pauseAnswers)
    (hs : Reads e s.server s'.server) (he : e.isWorkload = false) :
    Phase start (es ++ [e]) s' := by
  have hpauses : s.Pauses → s'.Pauses := by
    rintro ⟨hlength, hrunning⟩
    exact ⟨by rw [hpa, hc.pauseRequests, hlength], by rwa [hpa]⟩
  -- by the phase, which stays: only the server may have read
  cases h with
  | stopped hr hw hwa' hp hstopped =>
    exact .stopped (hc.running.trans hr) (hc.workloadRequests.trans hw) (hwa.trans hwa')
      (hpauses hp) (hs.stopped hstopped)
  | posted workload hr hw hwa' hnodup hp hnil hstopped =>
    exact .posted workload (hc.running.trans hr) (hc.workloadRequests.trans hw) (hwa.trans hwa')
      hnodup (hpauses hp) (hpa.trans hnil) (hs.stopped hstopped)
  | answered workload r hr hw hwa' hp hnil hplays =>
    refine .answered workload r (hc.running.trans hr) (hc.workloadRequests.trans hw)
      (hwa.trans hwa') (hpauses hp) (hpa.trans hnil) ?_
    -- the answer is the same one, and with it what holds of the server
    split
    · rename_i hyes
      rw [if_pos hyes] at hplays
      exact hplays.reads hs he
    · rename_i hno
      rw [if_neg hno] at hplays
      exact hs.stopped hplays
  | running workload hr hplayed hw hwa' hp hplays =>
    refine .running workload (hc.running.trans hr) (hc.played.trans hplayed)
      (hc.workloadRequests.trans hw) (hwa.trans hwa') (hpauses hp) ?_
    -- whether one of the pauses has been handled has not changed
    rw [hpa]
    split
    · rename_i hnone
      rw [if_pos hnone] at hplays
      exact hplays.reads hs he
    · rename_i hsome
      rw [if_neg hsome] at hplays
      exact hs.stopped hplays

/-- The page asks for a pause. -/
theorem Phase.pauses (h : Phase start es s) (hr : s.client.running = true)
    (hr' : s'.client.running = true) (hplayed : s'.client.played = s.client.played)
    (hw : s'.client.workloadRequests = s.client.workloadRequests)
    (hp : s'.client.pauseRequests = s.client.pauseRequests + 1)
    (hwa : s'.workloadAnswers = s.workloadAnswers) (hpa : s'.pauseAnswers = s.pauseAnswers ++ [none])
    (hs : s'.server = s.server) (he : e.isWorkload = false) : Phase start (es ++ [e]) s' := by
  cases h with
  -- only a page that shows PAUSE asks for one
  | stopped hno | posted _ hno | answered _ _ hno => exact absurd (hno.symm.trans hr) (by simp)
  | running workload _ hplayed' hw' hwa' hpauses hplays =>
    refine .running workload hr' (hplayed.trans hplayed') (hw.trans hw') (hwa.trans hwa')
      ⟨by rw [hpa, List.length_append, hpauses.length, hp, List.length_singleton], ?_⟩ ?_
    · intro r hmem
      rw [hpa] at hmem
      exact hpauses.running r (by simpa using hmem)
    -- the new request has not been handled yet, so the answers tell the same
    · have hall : (∀ a ∈ s'.pauseAnswers, a = none) ↔ ∀ a ∈ s.pauseAnswers, a = none := by
        simp [hpa, or_imp]
      rw [hs]
      split
      · rename_i hnone
        rw [if_pos (hall.mp hnone)] at hplays
        exact hplays.reads .none he
      · rename_i hsome
        rwa [if_neg (fun hnone => hsome (hall.mpr hnone))] at hplays

/-- In every phase each request to `/workload` has a place for its answer. -/
theorem Phase.lengths (h : Phase start es s) :
    s.workloadAnswers.length = s.client.workloadRequests.length ∧ s.Pauses := by
  cases h with
  | stopped _ hw hwa hp | posted _ _ hw hwa _ hp | answered _ _ _ hw hwa hp
  | running _ _ _ hw hwa hp => exact ⟨by rw [hw, hwa]; rfl, hp⟩

/-- The page as it is after an event that may ask for a pause. -/
theorem Phase.browse {c : Client} {answers : List (Option Response)} (h : Phase start es s)
    (hc : Client.SamePlay s.client c ∨ (s.client.running = true ∧ c.running = true ∧
      c.played = s.client.played ∧ c.workloadRequests = s.client.workloadRequests ∧
      c.pauseRequests = s.client.pauseRequests + 1)) (he : e.isWorkload = false) :
    Phase start (es ++ [e]) ({ s with statsAnswers := answers }.browse c) := by
  obtain ⟨hlength, hp⟩ := h.lengths
  rcases hc with hsame | ⟨hr, hr', hplayed, hw, hpauses⟩
  -- the same play: nothing new is awaited
  · have hwa : awaited s.workloadAnswers c.workloadRequests.length = s.workloadAnswers :=
      awaited_of_le (by rw [hsame.workloadRequests, hlength])
    have hpa : awaited s.pauseAnswers c.pauseRequests = s.pauseAnswers :=
      awaited_of_le (by rw [hsame.pauseRequests, hp.length])
    exact h.same hsame hwa hpa .none he
  -- one pause more: its answer is awaited behind the others
  · have hwa : awaited s.workloadAnswers c.workloadRequests.length = s.workloadAnswers :=
      awaited_of_le (by rw [hw, hlength])
    have hpa : awaited s.pauseAnswers c.pauseRequests = s.pauseAnswers ++ [none] := by
      rw [hpauses, ← hp.length, awaited_succ]
    exact h.pauses hr hr' hplayed hw hpauses hwa hpa rfl he

/-- The user presses PLAY. -/
theorem Phase.play (h : Phase start es s) (hr : s.client.running = false)
    (hw : s.client.workloadRequests = []) (hp : s.client.pauseRequests = 0) :
    Phase start (es ++ [e]) (s.browse s.client.click) := by
  have hclick : s.client.click = s.client.play := by rw [Client.click, hr]; rfl
  obtain ⟨hlength, hpauses⟩ := h.lengths
  -- no request is under way, so no answer is awaited
  have hwa : s.workloadAnswers = [] := List.length_eq_zero_iff.mp (by rw [hlength, hw]; rfl)
  have hpa : s.pauseAnswers = [] := List.length_eq_zero_iff.mp (by rw [hpauses.length, hp])
  have hbrowse : awaited s.workloadAnswers s.client.play.workloadRequests.length = [none] := by
    rw [hwa, Client.play, hw]
    rfl
  obtain ⟨hpauses', hp'⟩ := pauses_browse (c := s.client.play) hpauses.length hpauses.running
  rw [hclick]
  -- only a page at rest shows PLAY with nothing under way
  cases h with
  | running _ hno => exact absurd (hno.symm.trans hr) (by simp)
  | posted _ _ hno | answered _ _ _ hno => exact absurd (hno.symm.trans hw) (by simp)
  | stopped _ _ _ _ hs =>
    refine .posted s.client.getWorkload hr ?_ hbrowse (nodup_ids s.client) hp' (hpauses'.trans hpa)
      hs
    show s.client.workloadRequests ++ [s.client.getWorkload] = _
    rw [hw, List.nil_append]

omit [DecidableEq σ] in
/-- The workload that the server makes of the entries, in whatever order they come. -/
theorem filled_formOf {order : List (Nat × WidgetInfo)} (settings : Except PyError σ)
    (hnodup : (workload.map Prod.fst).Nodup) (horder : order.Perm workload) :
    (Server.filled (formOf order settings)).entries.Perm (itemsOf workload) := by
  -- the entries are read as the items they show, under ids that differ and were not there before
  have hentries : (order.map postedEntry).map Posted.entry = itemsOf order := by
    rw [List.map_map]
    rfl
  have hids : ((order.map postedEntry).map fun p => p.entry.1).Nodup := by
    have hcast := ((horder.map Prod.fst).nodup_iff.mpr hnodup).map (Nat.cast_injective (R := Int))
    rw [List.map_map] at hcast ⊢
    exact hcast
  have hconverts : ∀ p ∈ order.map postedEntry, p.Converts := by
    intro p hp
    obtain ⟨x, -, rfl⟩ := List.mem_map.mp hp
    exact (converts_postedEntry x).1
  obtain ⟨-, hperm⟩ := fill_of_converts (g := ∅) hconverts hids (by simp)
  rw [hentries, AList.empty_entries, List.append_nil] at hperm
  exact hperm.trans (horder.map _)

/-- The request of a play reaches the server. -/
theorem Phase.handled {n : Nat} {order : List (Nat × WidgetInfo)} {settings : Except PyError σ}
    {env : Env} (h : Phase start es s) (hrun : Machine.run step start es = some s)
    (hsends : env.sends = true) (hstep : s.step (.workload n order settings env) = some s') :
    Phase start (es ++ [.workload n order settings env]) s' := by
  simp only [step] at hstep
  split at hstep
  · rename_i workload hn hunanswered
    split at hstep
    · rename_i horder
      obtain rfl := Option.some.inj hstep
      -- the request is the one of the phase `posted`; in the others there is none or it has been
      -- handled
      cases h with
      | stopped _ hw | running _ _ _ hw =>
        rw [hw] at hn
        cases hn
      | answered _ r _ _ hwa =>
        rw [hwa] at hunanswered
        cases n with
        | zero => cases hunanswered
        | succ n => cases hunanswered
      | posted workload' hr hw hwa hnodup hp hpa hs =>
        cases n with
        | succ n =>
          rw [hw] at hn
          cases hn
        | zero =>
          have hworkload : s.client.workloadRequests[0]? = some workload := hn
          rw [hw] at hn
          obtain rfl := Option.some.inj hn
          refine .answered workload' _ hr hw (by rw [hwa]; rfl) ⟨hp.length, hp.running⟩ hpa ?_
          rcases Server.submitWorkload_answer hs hsends with
            ⟨hyes, pool, hpool, hpaused, hg⟩ | ⟨hno, hstopped⟩
          · rw [if_pos hyes]
            -- nothing has come after this request, and the pool that has taken the workload is
            -- running
            refine ⟨[], pool, _, ⟨es, 0, order, settings, env, s, rfl, by simp, hrun, hworkload⟩,
              hpool, hg, filled_formOf settings hnodup horder, fun htrue => ?_⟩
            rw [hpaused] at htrue
            cases htrue
          · rw [if_neg hno]
            exact hstopped
    · cases hstep
  · cases hstep

omit [DecidableEq σ] in
/-- Every answer to `/pause` says whether a workload is running. -/
theorem pause_answers (server : Server σ) (env : Env) :
    (server.pause env).2.running?.isSome = true := by
  unfold Server.pause
  repeat' split
  all_goals rfl

/-- A request to `/pause` reaches the server. -/
theorem Phase.pauseHandled {n : Nat} {env : Env} (h : Phase start es s)
    (hstep : s.step (.pause n env) = some s') : Phase start (es ++ [.pause n env]) s' := by
  simp only [step] at hstep
  split at hstep
  · rename_i hn
    obtain rfl := Option.some.inj hstep
    -- the answer is put in the place of its request
    have hpauses : s.Pauses → Pauses { s with
        server := (s.server.pause env).1
        pauseAnswers := s.pauseAnswers.set n (some (s.server.pause env).2) } := by
      rintro ⟨hlength, hrunning⟩
      refine ⟨by rw [← hlength]; exact List.length_set, fun r hr => ?_⟩
      rcases List.mem_or_eq_of_mem_set hr with hr | hr
      · exact hrunning r hr
      · obtain rfl := Option.some.inj hr
        exact pause_answers s.server env
    -- a pause comes only in the phases in which one may be under way
    cases h with
    | posted _ _ _ _ _ _ hpa | answered _ _ _ _ _ _ hpa =>
      rw [hpa] at hn
      cases hn
    | stopped hr hw hwa hp hs =>
      exact .stopped hr hw hwa (hpauses hp) (Server.stopped_pause s.server env)
    | running workload hr hplayed hw hwa hp hs =>
      refine .running workload hr hplayed hw hwa (hpauses hp) ?_
      rw [if_neg]
      · exact Server.stopped_pause s.server env
      -- the place of the request has an answer now
      · intro hnone
        have hmem := List.mem_set (List.getElem?_eq_some_iff.mp hn).1
          (some (s.server.pause env).2)
        cases hnone _ hmem
  · cases hstep

/-- The page after the answer to the only play under way. -/
theorem client_of_play {c c' : Client} {r : Response} (hr : c.running = false)
    (hw : c.workloadRequests = [workload])
    (h : c.step .stress (r.running?.elim (.playError 0) (.played 0)) = some c') :
    c'.workloadRequests = [] ∧ c'.pauseRequests = c.pauseRequests ∧
      (c'.running = true ↔ r.running? = some true) ∧
      (c'.running = true → c'.played = workload.map Prod.fst) := by
  have herase : c.workloadRequests.eraseIdx 0 = [] := by
    rw [hw]
    rfl
  -- an answer with an error, or one that says whether the workload is running
  cases hb : r.running? with
  | none =>
    rw [hb] at h
    cases Client.moves_of_step h with
    | playError => exact ⟨herase, rfl, by simp [hr], fun hyes => absurd (hr.symm.trans hyes) (by simp)⟩
  | some b =>
    rw [hb] at h
    cases Client.moves_of_step h with
    | @played _ posted _ hposted =>
      rw [hw] at hposted
      obtain rfl := Option.some.inj hposted
      cases b with
      | false => exact ⟨herase, rfl, by simp [Client.onPlay], fun hyes => by cases hyes⟩
      | true => exact ⟨herase, rfl, iff_of_true rfl rfl, fun _ => rfl⟩

/-- The answer to a play arrives. -/
theorem Phase.playAnswered {n : Nat} (h : Phase start es s)
    (hstep : s.step (.workloadAnswer n) = some s') :
    Phase start (es ++ [.workloadAnswer n]) s' := by
  simp only [step] at hstep
  split at hstep
  · rename_i r hn
    obtain ⟨c, hc, rfl⟩ := Option.map_eq_some_iff.mp hstep
    -- the answer is the one of the phase `answered`; in the others there is none
    cases h with
    | stopped _ _ hwa | running _ _ _ _ hwa =>
      rw [hwa] at hn
      cases hn
    | posted _ _ _ hwa =>
      rw [hwa] at hn
      cases n with
      | zero => cases hn
      | succ n => cases hn
    | answered workload r' hr hw hwa hp hpa hs =>
      rw [hwa] at hn
      cases n with
      | succ n => cases hn
      | zero =>
        obtain rfl : r' = r := Option.some.inj (Option.some.inj hn)
        obtain ⟨hw', hpr, hrunning, hplayed⟩ := client_of_play hr hw hc
        -- with this answer no request to `/workload` is left
        have hwa' : awaited (s.workloadAnswers.eraseIdx 0) c.workloadRequests.length = [] := by
          rw [hwa, hw']
          rfl
        obtain ⟨hpa', hp'⟩ := pauses_browse
          (s := { s with workloadAnswers := s.workloadAnswers.eraseIdx 0 })
          (hp.length.trans hpr.symm) hp.running
        -- the phase that follows is what the answer says of the pool
        by_cases hyes : r'.running? = some true
        · rw [if_pos hyes] at hs
          refine .running workload (hrunning.mpr hyes) (hplayed (hrunning.mpr hyes)) hw' hwa' hp' ?_
          rw [if_pos]
          · exact hs.reads .none rfl
          · rw [hpa', hpa]
            simp
        · rw [if_neg hyes] at hs
          exact .stopped (Bool.eq_false_of_not_eq_true fun htrue => hyes (hrunning.mp htrue)) hw'
            hwa' hp' hs
  · cases hstep

/-- The answer to a pause arrives. -/
theorem Phase.pauseAnswered {n : Nat} (h : Phase start es s)
    (hstep : s.step (.pauseAnswer n) = some s') : Phase start (es ++ [.pauseAnswer n]) s' := by
  simp only [step] at hstep
  split at hstep
  · rename_i r hn
    obtain ⟨c, hc, rfl⟩ := Option.map_eq_some_iff.mp hstep
    obtain ⟨hlength, hp⟩ := h.lengths
    obtain ⟨b, hb⟩ := Option.isSome_iff_exists.mp (hp.running r (List.mem_of_getElem? hn))
    rw [hb] at hc
    -- the page shows PLAY then, whatever the answer says
    obtain ⟨hr, hw, hpr⟩ : c.running = false ∧ c.workloadRequests = s.client.workloadRequests ∧
        c.pauseRequests = s.client.pauseRequests - 1 := by
      cases Client.moves_of_step hc with
      | paused => exact ⟨rfl, rfl, rfl⟩
    have hlt : n < s.pauseAnswers.length := (List.getElem?_eq_some_iff.mp hn).1
    have herase : (s.pauseAnswers.eraseIdx n).length = c.pauseRequests := by
      rw [List.length_eraseIdx_of_lt hlt, hp.length, hpr]
    obtain ⟨-, hp'⟩ := pauses_browse (s := { s with pauseAnswers := s.pauseAnswers.eraseIdx n })
      herase fun r hmem => hp.running r ((List.eraseIdx_sublist _ _).mem hmem)
    -- a pause that has been answered has stopped the pool
    have hstop : s.workloadAnswers = [] → s.client.workloadRequests = [] → s.server.Stopped →
        Phase start (es ++ [.pauseAnswer n])
          ({ s with pauseAnswers := s.pauseAnswers.eraseIdx n }.browse c) := by
      intro hwa hnone hs
      refine .stopped hr (hw.trans hnone) ?_ hp' hs
      show awaited s.workloadAnswers c.workloadRequests.length = []
      rw [hwa, hw, hnone]
      rfl
    -- a pause that has been answered is one of the phase `running`, or of a page at rest
    cases h with
    | posted _ _ _ _ _ _ hnil | answered _ _ _ _ _ _ hnil =>
      rw [hnil] at hn
      cases hn
    | stopped _ hnone hwa _ hs => exact hstop hwa hnone hs
    | running workload _ _ hnone hwa _ hs =>
      rw [if_neg] at hs
      · exact hstop hwa hnone hs
      · intro hall
        cases hall _ (List.mem_of_getElem? hn)
  · cases hstep

/-- A step that is taken with care. -/
theorem Phase.step (h : Phase start es s) (hrun : Machine.run step start es = some s)
    (hcare : Careful s e) (hstep : s.step e = some s') : Phase start (es ++ [e]) s' := by
  cases e with
  | browser e =>
    simp only [PlaySession.step] at hstep
    split at hstep
    · cases hstep
    · rename_i he
      obtain ⟨c, hc, rfl⟩ := Option.map_eq_some_iff.mp hstep
      -- a click on the button, or an event that leaves the play alone
      rcases Client.samePlay_of_step (Bool.eq_false_of_not_eq_true he) hc with ⟨rfl, rfl⟩ | hsame
      · cases hr : s.client.running with
        | true =>
          have hclick : s.client.click = s.client.pause := by rw [Client.click, if_pos hr]
          rw [hclick]
          exact h.browse (.inr ⟨hr, hr, rfl, rfl, rfl⟩) rfl
        | false =>
          obtain ⟨hw, hp⟩ := hcare.resolve_left (by simp [hr])
          exact h.play hr hw hp
      · exact h.browse (.inl hsame) rfl
  -- requests of the page reach the server
  | workload n order settings env => exact h.handled hrun hcare hstep
  | pause n env => exact h.pauseHandled hstep
  | stats n env =>
    simp only [PlaySession.step] at hstep
    split at hstep
    · obtain rfl := Option.some.inj hstep
      exact h.same (.refl _) rfl rfl (.handle (r := .stats env) rfl rfl) rfl
    · cases hstep
  | other r =>
    obtain rfl := Option.some.inj hstep
    exact h.same (.refl _) rfl rfl (.handle hcare rfl) rfl
  -- answers reach the page, or get lost
  | workloadAnswer n => exact h.playAnswered hstep
  | pauseAnswer n => exact h.pauseAnswered hstep
  | statsAnswer n stats =>
    simp only [PlaySession.step] at hstep
    split at hstep
    · obtain ⟨data, -, hstep⟩ := Option.bind_eq_some_iff.mp hstep
      obtain ⟨c, hc, rfl⟩ := Option.map_eq_some_iff.mp hstep
      exact h.browse (Client.samePlay_of_stats hc) rfl
    · cases hstep
  | workloadFails | pauseFails => exact hcare.elim
  | statsFails n =>
    simp only [PlaySession.step] at hstep
    split at hstep
    · obtain ⟨c, hc, rfl⟩ := Option.map_eq_some_iff.mp hstep
      refine h.browse (.inl ?_) rfl
      cases Client.moves_of_step hc with
      | statsError => exact ⟨rfl, rfl, rfl, rfl⟩
    · cases hstep

/-- The phases hold in every careful run, by induction over its events. -/
theorem phase_of_run (h : Runs dialMaxValue cache server env es s)
    (hcare : Machine.Meets PlaySession.step (fun _ => Careful) (init dialMaxValue cache server env)
      es) : Phase (init dialMaxValue cache server env) es s := by
  have hrun := Machine.run_history (P := fun es s =>
    Machine.Meets PlaySession.step (fun _ => Careful) (init dialMaxValue cache server env) es →
      Phase (init dialMaxValue cache server env) es s) ?_ ?_ h
  · exact hrun hcare
  -- a page that has just loaded is at rest, and its request to `/pause` has been handled
  · exact fun _ => .stopped rfl rfl rfl ⟨rfl, by simp [init]⟩ (Server.stopped_pause server env)
  · intro es t e u ht ih he hmeets
    obtain ⟨hes, hlast⟩ := Machine.meets_concat.mp hmeets
    exact (ih hes).step ht (hlast t ht) he

/-- When the button says PLAY and no play is under way, no pool runs. When it says PAUSE and no
    pause is under way, the pool runs the workload that the page has posted last, unless a process
    has died. -/
theorem agrees_of_run (h : Runs dialMaxValue cache server env es s)
    (hcare : Machine.Meets PlaySession.step (fun _ => Careful) (init dialMaxValue cache server env)
      es) :
    (s.client.running = false → s.client.workloadRequests = [] → s.server.Stopped) ∧
      (s.client.running = true → s.client.pauseRequests = 0 → ∃ workload,
        s.client.played = workload.map Prod.fst ∧
        Plays (init dialMaxValue cache server env) es s.server workload) := by
  cases phase_of_run h hcare with
  | stopped hr hw hwa hp hs =>
    exact ⟨fun _ _ => hs, fun hyes => absurd (hr.symm.trans hyes) (by simp)⟩
  | posted _ hr hw | answered _ _ hr hw =>
    exact ⟨fun _ hnone => absurd (hw.symm.trans hnone) (by simp),
      fun hyes => absurd (hr.symm.trans hyes) (by simp)⟩
  | running workload hr hplayed hw hwa hp hs =>
    refine ⟨fun hno => absurd (hr.symm.trans hno) (by simp), fun _ hzero => ⟨workload, hplayed, ?_⟩⟩
    -- no pause is under way, so none has been handled
    have hnil : s.pauseAnswers = [] := List.length_eq_zero_iff.mp (by rw [hp.length, hzero])
    rwa [if_pos (by simp [hnil])] at hs

/-- A query is played, and its rate is shown. -/
def onePlay : List (Event Nat) :=
  [.browser (.editQuery 0 "select 1"), .browser (.setDial 0 5), .browser .click,
    .workload 0 [(0, ⟨"select 1", 5⟩)] (.ok 2) Server.calmEnv, .workloadAnswer 0,
    .stats 0 Server.calmEnv, .statsAnswer 0 ⟨[⟨"0", 0⟩], by simp⟩]

/-- The condition of a step, as a test. -/
def careful (s : PlaySession Nat) : Event Nat → Bool
  | .browser .click => s.client.running ||
      (s.client.workloadRequests.isEmpty && s.client.pauseRequests == 0)
  | .workload _ _ _ env => env.sends
  | .other r => r.reads
  | .workloadFails _ | .pauseFails _ => false
  | _ => true

/-- What the test allows is taken with care. -/
theorem careful_of_check {s : PlaySession Nat} {e : Event Nat} (h : careful s e = true) :
    Careful s e := by
  unfold careful at h
  unfold Careful
  split at h <;> simp_all

/-- The workload that a page shows as running after a play is the one that the pool runs. -/
theorem agrees_after_play :
    ∃ s, Runs 100 none (Server.init 2) Server.calmEnv onePlay s ∧ s.client.running = true ∧
      ∃ workload, s.client.played = workload.map Prod.fst ∧
        Plays (init 100 none (Server.init 2) Server.calmEnv) onePlay s.server workload := by
  obtain ⟨s, hs, hp⟩ := Machine.exists_run_of_map step
    -- the run is computed, and so is the care of its steps
    (init 100 none (Server.init 2) Server.calmEnv) onePlay
    (fun s => s.client.running && s.client.pauseRequests == 0) (by decide +kernel)
  obtain ⟨hrunning, hpauses⟩ := (Bool.and_eq_true _ _).mp hp
  have hcare : Machine.Meets step (fun _ => Careful)
      (init 100 none (Server.init 2) Server.calmEnv) onePlay :=
    Machine.meets_of_check (c := careful) (fun _ _ _ hc => careful_of_check hc) (by decide +kernel)
  exact ⟨s, hs, hrunning, (agrees_of_run hs hcare).2 hrunning (beq_iff_eq.mp hpauses)⟩

/-- The user presses PAUSE twice and plays again: the second pause comes after the play, and its
    answer before. Nothing is under way then, and the page goes on showing rates. -/
theorem stopped_while_running :
    ∃ s, Runs 100 none (Server.init 2) Server.calmEnv (onePlay ++
        [.browser .click, .browser .click, .pause 0 Server.calmEnv, .pauseAnswer 0,
          .browser .click, .workload 0 [(0, ⟨"select 1", 5⟩)] (.ok 2) Server.calmEnv,
          .pause 0 Server.calmEnv, .pauseAnswer 0, .workloadAnswer 0]) s ∧
      s.client.running = true ∧ s.client.workloadRequests = [] ∧ s.client.pauseRequests = 0 ∧
      s.server.Stopped := by
  obtain ⟨s, hs, hp⟩ := Machine.exists_run_of_map step
    (init 100 none (Server.init 2) Server.calmEnv) (onePlay ++
      [.browser .click, .browser .click, .pause 0 Server.calmEnv, .pauseAnswer 0,
        .browser .click, .workload 0 [(0, ⟨"select 1", 5⟩)] (.ok 2) Server.calmEnv,
        .pause 0 Server.calmEnv, .pauseAnswer 0, .workloadAnswer 0])
    (fun s => s.client.running && s.client.workloadRequests.isEmpty &&
      s.client.pauseRequests == 0 && s.server.gWorkers.all fun pool => pool.paused)
    (by decide +kernel)
  simp only [Bool.and_eq_true, List.isEmpty_iff, beq_iff_eq] at hp
  obtain ⟨⟨⟨hrunning, hnone⟩, hzero⟩, hpaused⟩ := hp
  refine ⟨s, hs, hrunning, hnone, hzero, fun pool hpool => ?_⟩
  -- the pool is read back from the test on the state
  rw [Option.mem_def.mp hpool] at hpaused
  exact hpaused

end PlaySession

end Stress

end WorkloadSimulator
