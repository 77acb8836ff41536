import WorkloadSimulator.ForStd.Machine
import WorkloadSimulator.Stress.LiveStats

/-!
# What `/live/stats` answers

The rates and the metrics of an answer are copied one after the other, so they need not be of the
same poll. A process that has ended stays in the registry: it is not started again, and whatever
the database does, there are no more rates for its settings.

## Key results

- `reply_of_polls`: the polls that the two parts of an answer are of
- `one_process`: the processes that are started, and what is answered when one has ended
-/

namespace WorkloadSimulator.Stress

variable {σ : Type} [DecidableEq σ]

/-- The polls for some settings. -/
def LiveEvent.pollOf (c : σ) : LiveEvent σ → Option (ℚ × List PlancacheRow × List StatusRow)
  | .poll settings currentTime rowsPc rowsMets =>
    if settings = c then some (currentTime, rowsPc, rowsMets) else none
  | _ => none

def LiveEvent.isRequest : LiveEvent σ → Bool
  | .request _ _ => true
  | _ => false

/-- The rates and the metrics of an answer that has them. -/
def LiveReply.parts :
    LiveReply → Option ((AList fun _ : String => ℚ) × AList fun _ : String => String)
  | .running plancache metrics => some (plancache, metrics)
  | _ => none

/-- Only an answer of a running server has rates and metrics. -/
theorem LiveReply.parts_eq_some {reply : LiveReply} {plancache : AList fun _ : String => ℚ}
    {metrics : AList fun _ : String => String} (h : reply.parts = some (plancache, metrics)) :
    reply = .running plancache metrics := by
  unfold parts at h
  split at h <;> cases h
  rfl

/-- The loop after these polls. -/
def PlancacheLoop.afterPolls (memsqlDb : Option String)
    (polls : List (ℚ × List PlancacheRow × List StatusRow)) : PlancacheLoop :=
  polls.foldl (fun p x => p.poll memsqlDb x.1 x.2.1 x.2.2) .init

namespace LiveServer

def pollsOf (c : σ) (es : List (LiveEvent σ)) : List (ℚ × List PlancacheRow × List StatusRow) :=
  es.filterMap (LiveEvent.pollOf c)

variable {memsqlDb : σ → Option String} {s s' : LiveServer σ} {e : LiveEvent σ} {c d : σ}
  {p : PlancacheStats} {f : PlancacheStats → PlancacheStats}

/-! ## The registry -/

/-- What `modify` leaves under each settings: it changes an instance that is there, and makes
    none. -/
theorem lookup_modify : (s.modify c f).gPlancaches.lookup d =
    if d = c then (s.gPlancaches.lookup c).map f else s.gPlancaches.lookup d := by
  unfold modify
  cases hc : s.gPlancaches.lookup c with
  | none =>
    by_cases hd : d = c
    · subst hd
      simp [hc]
    · simp [hd]
  | some p =>
    by_cases hd : d = c
    · subst hd
      simp
    · simp [hd, AList.lookup_insert_ne]

/-- `modify` neither adds nor removes an instance. -/
theorem mem_modify : d ∈ (s.modify c f).gPlancaches ↔ d ∈ s.gPlancaches := by
  rw [← AList.lookup_isSome, ← AList.lookup_isSome, lookup_modify]
  split
  · rename_i hdc
    rw [hdc, Option.isSome_map]
  · rfl

/-- `modify` does not touch the request that is being handled. -/
@[simp] theorem handler_modify : (s.modify c f).handler = s.handler := by
  unfold modify
  split <;> rfl

/-- The instance for settings that have one stays, and gets another for those that have none. -/
theorem lookup_plancacheFactory {starts : Bool} (h : s.plancacheFactory c starts = some s') :
    s'.handler = s.handler ∧ (∃ p, s'.gPlancaches.lookup c = some p) ∧
      ∀ d, s'.gPlancaches.lookup d = if d = c ∧ c ∉ s.gPlancaches then some .new
        else s.gPlancaches.lookup d := by
  unfold plancacheFactory at h
  split at h
  · rename_i p hp
    obtain rfl := Option.some.inj h
    -- the lookup has found an instance, so nothing is added
    have hmem : c ∈ s.gPlancaches := AList.lookup_isSome.mp (by simp [hp])
    exact ⟨rfl, ⟨p, hp⟩, fun d => by simp [hmem]⟩
  · rename_i hnone
    split at h
    · obtain rfl := Option.some.inj h
      have hmem : c ∉ s.gPlancaches := AList.lookup_eq_none.mp hnone
      refine ⟨rfl, ⟨.new, AList.lookup_insert _⟩, fun d => ?_⟩
      -- the new instance is found under its own settings, the others where they were
      by_cases hd : d = c
      · subst hd
        simp [hmem]
      · simp [hd, AList.lookup_insert_ne]
    · cases h

/-- The registry has one more key at most, the settings that are asked for. -/
theorem mem_plancacheFactory {starts : Bool} (h : s.plancacheFactory c starts = some s') :
    d ∈ s'.gPlancaches ↔ d ∈ s.gPlancaches ∨ d = c := by
  obtain ⟨-, -, hlookup⟩ := lookup_plancacheFactory h
  rw [← AList.lookup_isSome, hlookup]
  split
  · rename_i hd
    simp [hd.1]
  · rename_i hd
    rw [AList.lookup_isSome]
    -- an instance that is new was not there, so `d` is not `c` or is an old key
    have hstays : d = c → d ∈ s.gPlancaches := fun heq =>
      by_contra fun hnot => hd ⟨heq, heq ▸ hnot⟩
    exact (or_iff_left_of_imp hstays).symm

/-- There is no instance only where no process can be started for one. -/
theorem isSome_plancacheFactory {starts : Bool} :
    (s.plancacheFactory c starts).isSome ↔ c ∈ s.gPlancaches ∨ starts = true := by
  unfold plancacheFactory
  rw [← AList.lookup_isSome]
  split
  · rename_i hp
    simp [hp]
  · rename_i hnone
    simp [hnone]

/-! ## The steps -/

/-- The steps, with their guards. -/
inductive Moves (memsqlDb : σ → Option String) (s : LiveServer σ) :
    LiveEvent σ → LiveServer σ → Prop where
  | refused {settings : Except PyError σ} {starts : Bool} (hidle : s.handler = .idle)
      (hnone : ∀ c, settings = .ok c → s.plancacheFactory c starts = none) :
      Moves memsqlDb s (.request settings starts) s
  | request {c : σ} {starts : Bool} {t : LiveServer σ} (hidle : s.handler = .idle)
      (ht : s.plancacheFactory c starts = some t) :
      Moves memsqlDb s (.request (.ok c) starts) { t with handler := .getStats c }
  | getStats {c : σ} {connection : Connection} {p : PlancacheStats}
      (hs : s.handler = .getStats c) (hp : s.gPlancaches.lookup c = some p)
      (halive : p.isAlive = true) :
      Moves memsqlDb s (.access connection) { s with handler := .getMetrics c p.loop.stats }
  | answered {c : σ} {connection : Connection}
      (hs : s.handler = .getStats c ∨ ∃ stats, s.handler = .getMetrics c stats) :
      Moves memsqlDb s (.access connection) { s with handler := .idle }
  | poll {c : σ} {currentTime : ℚ} {rowsPc : List PlancacheRow} {rowsMets : List StatusRow}
      {p : PlancacheStats} (hp : s.gPlancaches.lookup c = some p) (halive : p.isAlive = true) :
      Moves memsqlDb s (.poll c currentTime rowsPc rowsMets) (s.modify c fun p =>
        { p with loop := p.loop.poll (memsqlDb c) currentTime rowsPc rowsMets })
  | procDies {c : σ} :
      Moves memsqlDb s (.procDies c) (s.modify c fun p => { p with pcProc := false })
  | managerDies {c : σ} :
      Moves memsqlDb s (.managerDies c) (s.modify c fun p => { p with manager := false })

omit [DecidableEq σ] in
theorem isIdle_iff : s.isIdle = true ↔ s.handler = .idle := by
  unfold isIdle
  split <;> simp_all

/-- Each step of the server is one of its moves. -/
theorem moves_of_step (h : s.step memsqlDb e = some s') : Moves memsqlDb s e s' := by
  cases e with
  | request settings starts =>
    cases settings with
    -- `Settings` has raised: the request has been answered with this error
    | error =>
      simp only [step] at h
      split at h
      · rename_i hidle
        obtain rfl := Option.some.inj h
        exact .refused (isIdle_iff.mp hidle) (by simp)
      · cases h
    | ok c =>
      simp only [step] at h
      split at h
      · rename_i hidle
        obtain rfl := Option.some.inj h
        -- with an instance the request goes on, without one `Process.start` has raised
        split
        · rename_i t ht
          exact .request (isIdle_iff.mp hidle) ht
        · rename_i hnone
          refine .refused (isIdle_iff.mp hidle) ?_
          rintro _ ⟨⟩
          exact hnone
      · cases h
  -- an access by the program point: nothing to read, the rates, or the metrics
  | access connection =>
    obtain ⟨⟨t, answer⟩, ht, rfl⟩ := Option.map_eq_some_iff.mp h
    unfold access at ht
    split at ht
    · cases ht
    · rename_i c hs
      obtain ⟨p, hp, heq⟩ := Option.map_eq_some_iff.mp ht
      split at heq
      · rename_i halive
        cases heq
        exact .getStats hs hp halive
      · cases heq
        exact .answered (.inl hs)
    · rename_i c stats hs
      obtain ⟨p, hp, heq⟩ := Option.map_eq_some_iff.mp ht
      cases heq
      exact .answered (.inr ⟨stats, hs⟩)
  -- a process polls only while it and its manager are there
  | poll c currentTime rowsPc rowsMets =>
    simp only [step] at h
    split at h
    · rename_i halive
      obtain ⟨p, hp, halive⟩ := (Option.any_eq_true _ _).mp halive
      obtain rfl := Option.some.inj h
      exact .poll hp halive
    · cases h
  | procDies c =>
    obtain rfl := Option.some.inj h
    exact .procDies
  | managerDies c =>
    obtain rfl := Option.some.inj h
    exact .managerDies

/-- The runs of the server. -/
abbrev Runs (memsqlDb : σ → Option String) (es : List (LiveEvent σ)) (s : LiveServer σ) : Prop :=
  Machine.run (step memsqlDb) init es = some s

/-! ## What a request has read -/

/-- The last request of a run is for the settings `c`, and `pre` has come before it. -/
def LastRequest (c : σ) (pre es : List (LiveEvent σ)) : Prop :=
  ∃ starts post, es = pre ++ .request (.ok c) starts :: post ∧
    ∀ e ∈ post, e.isRequest = false

/-- What a request has read, after the events `es`. -/
def HasRead (memsqlDb : σ → Option String) (es : List (LiveEvent σ)) : LiveHandler σ → Prop
  | .idle => True
  | .getStats c => ∃ pre, LastRequest c pre es
  | .getMetrics c stats => ∃ pre, LastRequest c pre es ∧ ∃ polls,
      pollsOf c pre <+: polls ∧ polls <+: pollsOf c es ∧
        stats = (PlancacheLoop.afterPolls (memsqlDb c) polls).stats

/-- Each process has made the polls for its settings. -/
structure Polled (memsqlDb : σ → Option String) (es : List (LiveEvent σ)) (s : LiveServer σ) :
    Prop where
  loop : ∀ c p, s.gPlancaches.lookup c = some p →
    p.loop = PlancacheLoop.afterPolls (memsqlDb c) (pollsOf c es)
  fresh : ∀ c, c ∉ s.gPlancaches → pollsOf c es = []
  handler : HasRead memsqlDb es s.handler

variable {es : List (LiveEvent σ)}

theorem pollsOf_concat (c : σ) (es : List (LiveEvent σ)) (e : LiveEvent σ) :
    pollsOf c (es ++ [e]) = pollsOf c es ++ (e.pollOf c).toList := by
  rw [pollsOf, List.filterMap_append]
  cases h : e.pollOf c <;> simp [pollsOf, h]

/-- Only a poll for the same settings counts. -/
theorem pollsOf_concat_of_none (h : e.pollOf d = none) : pollsOf d (es ++ [e]) = pollsOf d es := by
  rw [pollsOf_concat, h, Option.toList_none, List.append_nil]

omit [DecidableEq σ] in
/-- The last request stays the last one until the next. -/
theorem LastRequest.concat {pre : List (LiveEvent σ)} (h : LastRequest c pre es)
    (he : e.isRequest = false) : LastRequest c pre (es ++ [e]) := by
  obtain ⟨starts, post, rfl, hpost⟩ := h
  refine ⟨starts, post ++ [e], by simp, ?_⟩
  intro x hx
  rcases List.mem_append.mp hx with hx | hx
  · exact hpost x hx
  · rwa [List.mem_singleton.mp hx]

/-- What has been read stays read. -/
theorem HasRead.concat {handler : LiveHandler σ} (h : HasRead memsqlDb es handler)
    (he : e.isRequest = false) : HasRead memsqlDb (es ++ [e]) handler := by
  cases handler with
  | idle => trivial
  | getStats c =>
    obtain ⟨pre, hlast⟩ := h
    exact ⟨pre, hlast.concat he⟩
  | getMetrics c stats =>
    obtain ⟨pre, hlast, polls, hpre, hpolls, hstats⟩ := h
    -- the polls that the rates are of are still among the first, since polls are only added
    refine ⟨pre, hlast.concat he, polls, hpre, hpolls.trans ?_, hstats⟩
    rw [pollsOf_concat]
    exact List.prefix_append _ _

/-- Another program point of the request. -/
theorem Polled.reads (h : Polled memsqlDb es s) (he : ∀ d, e.pollOf d = none)
    {handler : LiveHandler σ} (hread : HasRead memsqlDb (es ++ [e]) handler) :
    Polled memsqlDb (es ++ [e]) { s with handler } := by
  -- the loops are those of before, and so are the polls
  refine ⟨fun d p hp => ?_, fun d hd => ?_, hread⟩
  · rw [pollsOf_concat_of_none (he d), h.loop d p hp]
  · rw [pollsOf_concat_of_none (he d), h.fresh d hd]

/-- A change that is no poll leaves the loops. -/
theorem Polled.modify (h : Polled memsqlDb es s) (he : ∀ d, e.pollOf d = none)
    (hreq : e.isRequest = false) (hf : ∀ p, (f p).loop = p.loop) :
    Polled memsqlDb (es ++ [e]) (s.modify c f) := by
  refine ⟨fun d p hp => ?_, fun d hd => ?_, ?_⟩
  · rw [pollsOf_concat_of_none (he d)]
    -- the instance is either the changed one, whose loop is kept, or an old one
    rw [lookup_modify] at hp
    split at hp
    · rename_i hdc
      subst hdc
      obtain ⟨old, hold, rfl⟩ := Option.map_eq_some_iff.mp hp
      rw [hf, h.loop d old hold]
    · exact h.loop d p hp
  · rw [pollsOf_concat_of_none (he d)]
    exact h.fresh d (mt mem_modify.mpr hd)
  · rw [handler_modify]
    exact h.handler.concat hreq

/-- A new process has made no poll. -/
theorem Polled.plancacheFactory {starts : Bool} {t : LiveServer σ} (h : Polled memsqlDb es s)
    (ht : s.plancacheFactory c starts = some t) :
    Polled memsqlDb (es ++ [.request (.ok c) starts]) { t with handler := .getStats c } := by
  obtain ⟨-, -, hlookup⟩ := lookup_plancacheFactory ht
  refine ⟨fun d p hp => ?_, fun d hd => ?_, ⟨es, starts, [], rfl, by simp⟩⟩
  -- an instance that was not there has the loop before any poll, as it has made none
  · rw [pollsOf_concat_of_none rfl]
    have hp : t.gPlancaches.lookup d = some p := hp
    rw [hlookup] at hp
    split at hp
    · rename_i hnew
      obtain rfl := Option.some.inj hp
      rw [h.fresh d (hnew.1 ▸ hnew.2)]
      rfl
    · exact h.loop d p hp
  · rw [pollsOf_concat_of_none rfl]
    exact h.fresh d fun hmem => hd ((mem_plancacheFactory ht).mpr (.inl hmem))

/-- The rates are copied after the polls that the process has made so far. -/
theorem Polled.getStats {connection : Connection} (h : Polled memsqlDb es s)
    (hs : s.handler = .getStats c) (hp : s.gPlancaches.lookup c = some p) :
    Polled memsqlDb (es ++ [.access connection])
      { s with handler := .getMetrics c p.loop.stats } := by
  have hread := h.handler
  rw [hs] at hread
  obtain ⟨pre, hlast⟩ := hread
  refine h.reads (fun _ => rfl)
    ⟨pre, hlast.concat rfl, pollsOf c es, ?_, ?_, by rw [h.loop c p hp]⟩
  -- the polls before the request are a prefix of those before the access
  · obtain ⟨starts, post, rfl, -⟩ := hlast
    rw [pollsOf, pollsOf, List.filterMap_append]
    exact List.prefix_append _ _
  · rw [pollsOf_concat_of_none rfl]

/-- The process for the settings `c` makes one poll more, and the others none. -/
theorem Polled.poll {currentTime : ℚ} {rowsPc : List PlancacheRow} {rowsMets : List StatusRow}
    (h : Polled memsqlDb es s) (hc : c ∈ s.gPlancaches) :
    Polled memsqlDb (es ++ [.poll c currentTime rowsPc rowsMets]) (s.modify c fun p =>
      { p with loop := p.loop.poll (memsqlDb c) currentTime rowsPc rowsMets }) := by
  -- the polls for other settings are the same
  have hother : ∀ d, c ≠ d →
      pollsOf d (es ++ [.poll c currentTime rowsPc rowsMets]) = pollsOf d es := by
    intro d hcd
    exact pollsOf_concat_of_none (by rw [LiveEvent.pollOf, if_neg hcd])
  refine ⟨fun d p hp => ?_, fun d hd => ?_, ?_⟩
  -- the loop that has polled is one step further, as is the fold over its polls
  · rw [lookup_modify] at hp
    split at hp
    · rename_i hdc
      subst hdc
      obtain ⟨old, hold, rfl⟩ := Option.map_eq_some_iff.mp hp
      rw [pollsOf_concat, LiveEvent.pollOf, if_pos rfl, PlancacheLoop.afterPolls,
        Option.toList_some, List.foldl_append]
      show old.loop.poll _ _ _ _ = _
      rw [h.loop d old hold]
      rfl
    · rename_i hdc
      rw [hother d (Ne.symm hdc), h.loop d p hp]
  -- settings without an instance have no poll, as `c` has one
  · have hd : d ∉ s.gPlancaches := mt mem_modify.mpr hd
    have hcd : c ≠ d := fun heq => hd (heq ▸ hc)
    rw [hother d hcd]
    exact h.fresh d hd
  · rw [handler_modify]
    exact h.handler.concat rfl

/-- Each step preserves `Polled`. Only a request and a poll change an instance's loop. -/
theorem Polled.step (h : Polled memsqlDb es s) (hstep : s.step memsqlDb e = some s') :
    Polled memsqlDb (es ++ [e]) s' := by
  cases moves_of_step hstep with
  | refused hidle _ =>
    refine h.reads (fun _ => rfl) ?_
    rw [hidle]
    trivial
  | request _ ht => exact h.plancacheFactory ht
  | getStats hs hp _ => exact h.getStats hs hp
  | answered _ => exact h.reads (fun _ => rfl) trivial
  | poll hp _ => exact h.poll (AList.lookup_isSome.mp (by rw [hp]; rfl))
  | procDies => exact h.modify (fun _ => rfl) rfl fun _ => rfl
  | managerDies => exact h.modify (fun _ => rfl) rfl fun _ => rfl

/-- `Polled` holds in every run, by induction over its events. -/
theorem polled_of_run (h : Runs memsqlDb es s) : Polled memsqlDb es s := by
  refine Machine.run_history (P := fun es s => Polled memsqlDb es s) ?_ ?_ h
  -- no instance at the beginning, and no poll
  · refine ⟨fun _ _ hp => ?_, fun _ _ => rfl, trivial⟩
    cases hp
  · exact fun es t e u _ ht he => ht.step he

/-- What an access can answer. -/
theorem of_answer {connection : Connection} {reply : LiveReply}
    (h : (s.access connection).bind Prod.snd = some (c, reply)) :
    ∃ p, s.gPlancaches.lookup c = some p ∧
      ((p.isAlive = true ∧ ∃ stats, s.handler = .getMetrics c stats ∧
          reply = .running stats p.loop.metrics) ∨
        p.isAlive = false ∧ reply = broken connection) := by
  -- by the program point: at `getStats` only a broken instance answers, at `getMetrics` both do
  unfold access at h
  split at h
  · cases h
  · rename_i d hs
    obtain ⟨x, hx, h⟩ := Option.bind_eq_some_iff.mp h
    obtain ⟨p, hp, rfl⟩ := Option.map_eq_some_iff.mp hx
    split at h
    · cases h
    · rename_i halive
      cases h
      exact ⟨p, hp, .inr ⟨Bool.eq_false_of_not_eq_true halive, rfl⟩⟩
  · rename_i d stats hs
    obtain ⟨x, hx, h⟩ := Option.bind_eq_some_iff.mp h
    obtain ⟨p, hp, rfl⟩ := Option.map_eq_some_iff.mp hx
    cases h
    refine ⟨p, hp, ?_⟩
    cases halive : p.isAlive with
    | true => exact .inl ⟨rfl, stats, hs, rfl⟩
    | false => exact .inr ⟨rfl, rfl⟩

/-- An answer for some settings is that of a request without a process, or of an access. -/
theorem answers_cases {reply : LiveReply} (h : (some c, reply) ∈ s.answers e) :
    (∃ starts, e = .request (.ok c) starts ∧ s.plancacheFactory c starts = none ∧
        reply = .internalError) ∨
      ∃ connection, e = .access connection ∧
        (s.access connection).bind Prod.snd = some (c, reply) := by
  unfold answers at h
  split at h
  · simp at h
  · rename_i d starts
    split at h
    · cases h
    · rename_i hnone
      cases List.mem_singleton.mp h
      exact .inl ⟨starts, rfl, by simpa using hnone, rfl⟩
  · rename_i connection
    obtain ⟨⟨d, answer⟩, hmem, heq⟩ := List.mem_map.mp h
    cases heq
    exact .inr ⟨connection, rfl, Option.mem_toList.mp hmem⟩
  · cases h

/-- A request whose process polls twice before the rates are copied, and once after. -/
def threePolls : List (LiveEvent String) :=
  [.request (.ok "s") true,
    .poll "s" 100 [⟨"select 1", some "db", some 5, none⟩] [⟨"Queries", "5"⟩],
    .poll "s" 101 [⟨"select 1", some "db", some 15, none⟩] [⟨"Queries", "15"⟩],
    .access .ok,
    .poll "s" 102 [⟨"select 1", some "db", some 19, none⟩] [⟨"Queries", "19"⟩]]

/-- The rates of an answer are those after a poll since the request has arrived, or the last one
    before, and the metrics those after the last poll. -/
theorem reply_of_polls (h : Runs memsqlDb es s) {plancache : AList fun _ : String => ℚ}
    {metrics : AList fun _ : String => String}
    (hreply : (some c, .running plancache metrics) ∈ s.answers e) :
    ∃ pre, LastRequest c pre es ∧ ∃ polls, pollsOf c pre <+: polls ∧ polls <+: pollsOf c es ∧
      plancache = (PlancacheLoop.afterPolls (memsqlDb c) polls).stats ∧
      metrics = (PlancacheLoop.afterPolls (memsqlDb c) (pollsOf c es)).metrics := by
  have hpolled := polled_of_run h
  rcases answers_cases hreply with ⟨starts, -, -, heq⟩ | ⟨connection, -, hanswer⟩
  · cases heq
  · obtain ⟨p, hp, ⟨-, stats, hs, heq⟩ | ⟨-, heq⟩⟩ := of_answer hanswer
    · cases heq
      -- the rates have been copied before, at polls that `HasRead` has kept
      have hread := hpolled.handler
      rw [hs] at hread
      obtain ⟨pre, hlast, polls, hpre, hpolls, hstats⟩ := hread
      exact ⟨pre, hlast, polls, hpre, hpolls, hstats, by rw [hpolled.loop c p hp]⟩
    · cases heq

/-- The process polls again between the two accesses of the request. -/
theorem reply_of_three_polls :
    ∃ s plancache metrics, Runs (fun _ => some "db") threePolls s ∧
      (some "s", .running plancache metrics) ∈ s.answers (.access .ok) ∧
      plancache.lookup "select 1" = some 10 ∧ metrics.lookup "Queries" = some "19" ∧
      ∃ pre, LastRequest "s" pre threePolls ∧ ∃ polls,
        pollsOf "s" pre <+: polls ∧ polls <+: pollsOf "s" threePolls ∧
        plancache = (PlancacheLoop.afterPolls (some "db") polls).stats ∧
        metrics = (PlancacheLoop.afterPolls (some "db") (pollsOf "s" threePolls)).metrics := by
  obtain ⟨s, hs, hp⟩ := Machine.exists_run_of_map (step fun _ => some "db") init threePolls
    (fun s => (s.answers (.access .ok)).any fun x => x.1 == some "s" && x.2.parts.any fun y =>
      y.1.lookup "select 1" == some 10 && y.2.lookup "Queries" == some "19") (by decide +kernel)
  -- read the parts of the answer back from the test on the state
  obtain ⟨⟨c, reply⟩, hmem, hp⟩ := List.any_eq_true.mp hp
  obtain ⟨hc, hp⟩ := (Bool.and_eq_true _ _).mp hp
  obtain ⟨⟨plancache, metrics⟩, hparts, hp⟩ := (Option.any_eq_true _ _).mp hp
  obtain ⟨hrate, hmetric⟩ := (Bool.and_eq_true _ _).mp hp
  obtain rfl : c = some "s" := beq_iff_eq.mp hc
  obtain rfl : reply = .running plancache metrics := LiveReply.parts_eq_some hparts
  exact ⟨s, plancache, metrics, hs, hmem, beq_iff_eq.mp hrate, beq_iff_eq.mp hmetric,
    reply_of_polls hs hmem⟩

/-! ## Processes that have ended -/

/-- The process for these settings has ended, or its manager has. -/
def Ended (s : LiveServer σ) (c : σ) : Prop :=
  ∃ p, s.gPlancaches.lookup c = some p ∧ p.isAlive = false

/-- A change that restarts nothing leaves an instance that has ended. -/
theorem Ended.modify (h : Ended s c) (hf : ∀ p, p.isAlive = false → (f p).isAlive = false) :
    Ended (s.modify d f) c := by
  obtain ⟨p, hp, halive⟩ := h
  by_cases hcd : c = d
  · subst hcd
    exact ⟨f p, by rw [lookup_modify, if_pos rfl, hp, Option.map_some], hf p halive⟩
  · exact ⟨p, by rw [lookup_modify, if_neg hcd, hp], halive⟩

/-- It stays so. -/
theorem Ended.step (h : Ended s c) (hstep : s.step memsqlDb e = some s') : Ended s' c := by
  cases moves_of_step hstep with
  | refused | getStats | answered => exact h
  | request hidle ht =>
    -- the factory finds the instance and returns it, so the lookup is the same
    obtain ⟨p, hp, halive⟩ := h
    obtain ⟨-, -, hlookup⟩ := lookup_plancacheFactory ht
    refine ⟨p, ?_, halive⟩
    have hmem : c ∈ s.gPlancaches := AList.lookup_isSome.mp (by rw [hp]; rfl)
    show AList.lookup c _ = _
    rw [hlookup, if_neg, hp]
    rintro ⟨rfl, hnot⟩
    exact hnot hmem
  | poll => exact h.modify fun _ halive => halive
  | procDies => exact h.modify fun _ _ => by simp [PlancacheStats.isAlive]
  | managerDies => exact h.modify fun _ _ => by simp [PlancacheStats.isAlive]

/-- Every answer is that of a broken plancache then. -/
theorem Ended.answer (h : Ended s c) {reply : LiveReply} (hreply : (some c, reply) ∈ s.answers e) :
    ∃ error, reply = .stopped error := by
  obtain ⟨p, hp, halive⟩ := h
  -- a request that is answered at once is one without an instance
  rcases answers_cases hreply with ⟨starts, -, hnone, -⟩ | ⟨connection, -, hanswer⟩
  · rw [plancacheFactory, hp] at hnone
    cases hnone
  -- an access finds the instance that has ended, so its answer is the error
  · obtain ⟨p', hp', ⟨halive', -⟩ | ⟨-, rfl⟩⟩ := of_answer hanswer
    · obtain rfl := Option.some.inj (hp.symm.trans hp')
      rw [halive] at halive'
      cases halive'
    · exact ⟨_, rfl⟩

/-- The settings for which processes are started in a run. -/
def started (memsqlDb : σ → Option String) (es : List (LiveEvent σ)) : List σ :=
  Machine.emits (step memsqlDb) starts init es

/-- A request starts a process if it can and the settings have no instance. -/
theorem starts_request (s : LiveServer σ) (c : σ) (b : Bool) :
    s.starts (.request (.ok c) b) = if b ∧ c ∉ s.gPlancaches then [c] else [] := by
  by_cases hc : c ∈ s.gPlancaches <;> cases b <;> simp [starts, hc]

/-- A step starts processes for settings without an instance only, and these have one from then
    on. -/
theorem mem_starts (h : s.step memsqlDb e = some s') :
    (s.starts e).Nodup ∧ (∀ d ∈ s.starts e, d ∉ s.gPlancaches) ∧
      ∀ d, d ∈ s'.gPlancaches ↔ d ∈ s.gPlancaches ∨ d ∈ s.starts e := by
  cases moves_of_step h with
  | @refused settings b hidle hnone =>
    have hnil : s.starts (.request settings b) = [] := by
      cases settings with
      | error => cases b <;> rfl
      | ok c =>
        -- a process that could be started would have been
        rw [starts_request, if_neg]
        rintro ⟨hb, -⟩
        have hsome : (s.plancacheFactory c b).isSome := isSome_plancacheFactory.mpr (.inr hb)
        rw [hnone c rfl] at hsome
        cases hsome
    simp [hnil]
  | @request c b t hidle ht =>
    have hmem : ∀ d, d ∈ t.gPlancaches ↔ d ∈ s.gPlancaches ∨ d = c := fun _ =>
      mem_plancacheFactory ht
    rw [starts_request]
    split
    -- a process is started, for these settings alone
    · rename_i hnew
      refine ⟨List.nodup_singleton c, fun d hd => ?_, fun d => ?_⟩
      · exact (List.mem_singleton.mp hd) ▸ hnew.2
      · rw [List.mem_singleton]
        exact hmem d
    · rename_i hold
      -- without a process to start, the settings have one
      have hc : c ∈ s.gPlancaches := by
        by_contra hnot
        have hsome := isSome_plancacheFactory.mp (Option.isSome_iff_exists.mpr ⟨t, ht⟩)
        exact hold ⟨hsome.resolve_left hnot, hnot⟩
      refine ⟨List.nodup_nil, by simp, fun d => ?_⟩
      rw [or_iff_left List.not_mem_nil]
      exact (hmem d).trans (or_iff_left_of_imp fun hd => hd ▸ hc)
  | getStats | answered => simp [starts]
  | poll | procDies | managerDies => simp [starts, mem_modify]

/-- The processes that have been started, each once, are those in the registry. -/
theorem started_of_run (h : Runs memsqlDb es s) :
    (started memsqlDb es).Nodup ∧ ∀ c, c ∈ s.gPlancaches ↔ c ∈ started memsqlDb es := by
  refine Machine.run_history (P := fun es s => (started memsqlDb es).Nodup ∧
    ∀ c, c ∈ s.gPlancaches ↔ c ∈ started memsqlDb es) ?_ ?_ h
  · exact ⟨List.nodup_nil, fun c => by simp [started, Machine.emits, init]⟩
  · intro es t e u ht ih he
    obtain ⟨hnodup, hmem⟩ := ih
    obtain ⟨hnew, hnot, hstarts⟩ := mem_starts he
    rw [started, Machine.emits_concat starts e ht, ← started]
    refine ⟨List.nodup_append'.mpr ⟨hnodup, hnew, fun c hc hc' => ?_⟩, fun c => ?_⟩
    -- a process that is started now was not in the registry, so it has not been started before
    · exact hnot c hc' ((hmem c).mpr hc)
    · rw [hstarts, hmem, List.mem_append]

/-- From then on no process is started for these settings, and each request with them is answered
    with an error. -/
theorem run_of_ended {es : List (LiveEvent σ)} (h : Ended s c)
    (hrun : Machine.run (step memsqlDb) s es = some s') :
    c ∉ Machine.emits (step memsqlDb) starts s es ∧
      ∀ reply, (some c, reply) ∈ Machine.emits (step memsqlDb) answers s es →
        ∃ error, reply = .stopped error := by
  induction es generalizing s with
  | nil => simp [Machine.emits]
  -- the first event, and then the rest from the state after it, where `c` has still ended
  | cons e es ih =>
    obtain ⟨u, hu, hrun⟩ := Option.bind_eq_some_iff.mp hrun
    obtain ⟨hstarts, hanswers⟩ := ih (h.step hu) hrun
    rw [Machine.emits, Machine.emits, hu, Option.elim_some, Option.elim_some]
    obtain ⟨p, hp, -⟩ := id h
    refine ⟨fun hmem => ?_, fun reply hmem => ?_⟩
    · rcases List.mem_append.mp hmem with hmem | hmem
      · -- the settings have an instance
        exact (mem_starts hu).2.1 c hmem (AList.lookup_isSome.mp (by rw [hp]; rfl))
      · exact hstarts hmem
    -- an answer of the first event is that of a broken instance, the others by the hypothesis
    · rcases List.mem_append.mp hmem with hmem | hmem
      · exact h.answer hmem
      · exact hanswers reply hmem

/-- In every run one process is started for settings at most. When it has ended, or its manager
    has, each request with these settings is answered with an error from then on, however the
    database is by then. -/
theorem one_process (h : Runs memsqlDb es s) :
    (started memsqlDb es).Nodup ∧
      ∀ pre post t c, es = pre ++ post → Runs memsqlDb pre t → Ended t c →
        c ∉ Machine.emits (step memsqlDb) starts t post ∧
          ∀ reply, (some c, reply) ∈ Machine.emits (step memsqlDb) answers t post →
            ∃ error, reply = .stopped error := by
  refine ⟨(started_of_run h).1, ?_⟩
  rintro pre post t c rfl ht hended
  -- the state after `pre` is the one state that its run leads to
  obtain ⟨t', ht', hpost⟩ := (Machine.run_append_eq_some _).mp h
  obtain rfl := Option.some.inj (ht.symm.trans ht')
  exact run_of_ended hended hpost

/-- The process ends after the first poll, with the database still there. -/
theorem one_process_ended :
    ∃ s t, Runs (fun _ => some "db") (threePolls.take 2 ++ [.procDies "s"]) s ∧ Ended s "s" ∧
      Runs (fun _ => some "db") (threePolls.take 2 ++ [.procDies "s"] ++
        [.access .ok, .request (.ok "s") true, .access .ok]) t ∧
      (Machine.emits (step fun _ => some "db") answers s
        [.access .ok, .request (.ok "s") true, .access .ok]).length = 2 ∧
      ∀ reply, (some "s", reply) ∈ Machine.emits (step fun _ => some "db") answers s
          [.access .ok, .request (.ok "s") true, .access .ok] →
        ∃ error, reply = .stopped error := by
  let es : List (LiveEvent String) := threePolls.take 2 ++ [.procDies "s"]
  let post : List (LiveEvent String) := [.access .ok, .request (.ok "s") true, .access .ok]
  obtain ⟨s, hs, hp⟩ := Machine.exists_run_of_map (step fun _ => some "db") init es
    (fun s => ((s.gPlancaches.lookup "s").any fun p => !p.isAlive) &&
      (Machine.emits (step fun _ => some "db") answers s post).length == 2) (by decide +kernel)
  obtain ⟨t, ht, -⟩ := Machine.exists_run_of_map (step fun _ => some "db") init (es ++ post)
    (fun _ => true) (by decide +kernel)
  obtain ⟨hended, hlength⟩ := (Bool.and_eq_true _ _).mp hp
  -- the instance is read back from the test on the state
  obtain ⟨p, hp, halive⟩ := (Option.any_eq_true _ _).mp hended
  have hended : Ended s "s" := ⟨p, hp, by simpa using halive⟩
  exact ⟨s, t, hs, hended, ht, beq_iff_eq.mp hlength,
    ((one_process ht).2 es post s "s" rfl hs hended).2⟩

end LiveServer

end WorkloadSimulator.Stress
