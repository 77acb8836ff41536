import WorkloadSimulator.Spec.ModelChoice

/-!
# Whether a response agrees with its effect

`handleWorkload` can fail in about ten places. Some of them end the request, one of them
without an answer, and some are answered and passed over, so that a second answer follows.
`Handler.Served` is what a `/workload` handler has done at each of its program points,
counted in the draws it has made and the workers it has launched.

## Key results

- `buildWork_out`: parsing the entries answers `running:false` once for each malformed
  `Query` text, up to the first malformed `QPS` text
- `served_of_run`: what a handler has done, in every run
- `response_agrees_iff`: a handler ends whatever the others do, and there is one answer
  that agrees with the workers launched exactly when the request is `Answerable`
-/

namespace WorkloadSimulator

/-! ## Reading the form -/

/-- The malformed `Query` texts up to and including the first entry with a malformed `QPS`
    text. -/
def queryErrors : List (String × ModelData) → Nat
  | [] => 0
  | (_, v) :: work =>
    (if v.Query.err then 1 else 0) + match atoi v.QPS with
      | some _ => queryErrors work
      | none => 0

/-- Parsing answers `running:false` once for each malformed `Query` text that it meets. -/
theorem buildWork_out (work : List (String × ModelData)) (acc : GoMap ModelInput)
    (out : List Response) :
    (buildWork work acc out).2 = out ++ .replicate (queryErrors work) (.running false) := by
  -- induction on the entries: a rate that cannot be read ends the parsing, an error in the query
  -- adds an answer
  induction work generalizing acc out with
  | nil => simp [buildWork, queryErrors]
  | cons x work ih =>
    rw [buildWork, queryErrors]
    cases hqps : atoi x.2.QPS with
    | none => cases x.2.Query.err <;> simp
    | some iqps =>
      show (buildWork work _ _).2 = _
      rw [ih]
      cases x.2.Query.err <;> simp [Nat.add_comm 1, List.replicate_succ]

/-- A malformed `QPS` text ends the request. -/
theorem buildWork_eq_none {work : List (String × ModelData)}
    (hqps : ∃ x ∈ work, atoi x.2.QPS = none) (acc : GoMap ModelInput) (out : List Response) :
    (buildWork work acc out).1 = none := by
  induction work generalizing acc out with
  | nil =>
    obtain ⟨x, hx, -⟩ := hqps
    exact absurd hx List.not_mem_nil
  | cons x work ih =>
    rw [buildWork]
    -- the first rate that cannot be read ends the loop
    cases hx : atoi x.2.QPS with
    | none => rfl
    | some iqps =>
      obtain ⟨y, hy, hnone⟩ := hqps
      rcases List.mem_cons.mp hy with rfl | hy
      · rw [hx] at hnone
        cases hnone
      · exact ih ⟨y, hy, hnone⟩ _ _

/-- Every `QPS` text of the form is a number. -/
def WorkloadForm.QpsParse (form : WorkloadForm) : Prop :=
  ∀ x ∈ form.workload.val, (atoi x.2.QPS).isSome = true

/-- A rate that cannot be read belongs to some entry. -/
theorem not_qpsParse {form : WorkloadForm} :
    ¬ form.QpsParse ↔ ∃ x ∈ form.workload.val, atoi x.2.QPS = none := by
  simp [WorkloadForm.QpsParse]

/-- The forms that get to the report file, and what their handlers then hold. -/
theorem of_readForm_parsed {form : WorkloadForm} {settings : Settings}
    {wrk : GoMap ModelInput} {out : List Response}
    (h : readForm form = .parsed settings wrk out) :
    form.post = true ∧ form.workload.err = false ∧ form.QpsParse ∧
      settings = form.settings.val ∧
      out = .replicate (queryErrors form.workload.val) (.running false) ∧
      ∀ k, k ∈ wrk ↔ k ∈ form.workload.val.map Prod.fst := by
  rw [readForm] at h
  split at h
  · rename_i hpost
    split at h
    · cases h
    · rename_i herr
      have hout := buildWork_out form.workload.val ∅ []
      -- the form is parsed only if every rate can be read
      by_cases hqps : form.QpsParse
      · obtain ⟨wrk', out', hbuild, hkeys⟩ := buildWork_eq_some hqps ∅ []
        rw [hbuild] at h hout
        obtain ⟨rfl, rfl, rfl⟩ := Handler.parsed.inj h
        exact ⟨hpost, by simpa using herr, hqps, rfl, by simpa using hout,
          fun k => by simp [hkeys]⟩
      · have hnone := buildWork_eq_none (not_qpsParse.mp hqps) ∅ []
        split at h
        · cases h
        · rename_i hbuild
          rw [hbuild] at hnone
          cases hnone
  · cases h

/-- The forms that do not get there, and their answers. -/
theorem of_readForm_done {form : WorkloadForm} {out : List Response}
    (h : readForm form = .done out) :
    (form.post = false ∧ out = [.error "I only respond to POSTs." 501, .running true]) ∨
      (form.workload.err = true ∧ out = []) ∨
      (form.post = true ∧ form.workload.err = false ∧ ¬ form.QpsParse ∧
        out = .replicate (queryErrors form.workload.val) (.running false)) := by
  rw [readForm] at h
  -- by the branch that has ended the request: its method, its workload, or a rate
  split at h
  · rename_i hpost
    split at h
    · rename_i herr
      exact .inr (.inl ⟨herr, (Handler.done.inj h).symm⟩)
    · rename_i herr
      have hout := buildWork_out form.workload.val ∅ []
      split at h
      · rename_i hbuild
        rw [hbuild] at hout
        obtain rfl := Handler.done.inj h
        refine .inr (.inr ⟨hpost, by simpa using herr, fun hqps => ?_, by simpa using hout⟩)
        obtain ⟨wrk, out', hsome, -⟩ := buildWork_eq_some hqps ∅ []
        rw [hbuild] at hsome
        cases hsome
      · cases h
  · rename_i hpost
    exact .inl ⟨by simpa using hpost, (Handler.done.inj h).symm⟩

/-- Whether there is an entry: the map has one for each key. -/
theorem workCount_eq_zero_iff {form : WorkloadForm} {wrk : GoMap ModelInput}
    (hkeys : ∀ k, k ∈ wrk ↔ k ∈ form.workload.val.map Prod.fst) :
    workCount wrk = 0 ↔ form.workload.val = [] := by
  rw [workCount, List.length_eq_zero_iff]
  -- a key of the map would be that of an entry, and an entry gives a key
  constructor
  · intro hnil
    by_contra hne
    obtain ⟨x, hx⟩ := List.exists_mem_of_ne_nil _ hne
    have hmem := AList.mem_keys.mp ((hkeys x.1).mpr (List.mem_map_of_mem hx))
    rw [hnil] at hmem
    exact absurd hmem List.not_mem_nil
  · intro hnil
    apply List.eq_nil_iff_forall_not_mem.mpr
    intro k hk
    have hmem := (hkeys k).mp (AList.mem_keys.mpr hk)
    rw [hnil] at hmem
    exact absurd hmem List.not_mem_nil

/-! ## What a handler has done -/

/-- The request that an event is the arrival of. -/
def Event.request? : Event → Option Request
  | .request r => some r
  | _ => none

/-- The number that the handler `h` draws in an event. -/
def Event.draw? (h : Nat) : Event → Option Nat
  | .launch h' r => if h' = h then some r else none
  | _ => none

/-- Whether an event is a step of the `/workload` handler `h`. -/
def Event.ofWorkload (h : Nat) : Event → Bool
  | .openReport h' _ _ | .readWorkers h' | .launch h' _ | .respond h' => h' == h
  | _ => false

/-- What a handler of `form` has done at its program point: the numbers it has drawn and
    how many workers it has launched. -/
inductive Handler.Served (form : WorkloadForm) (draws : List Nat) : Handler → Nat → Prop where
  | refused {out : List Response} (hform : readForm form = .done out) (hdraws : draws = []) :
      Served form draws (.done out) 0
  | parsed {settings : Settings} {wrk : GoMap ModelInput} {out : List Response}
      (hform : readForm form = .parsed settings wrk out) (hdraws : draws = []) :
      Served form draws (.parsed settings wrk out) 0
  | opened {settings : Settings} {wrk : GoMap ModelInput} {out : List Response}
      {batchId : String} (hform : readForm form = .parsed settings wrk out)
      (hdraws : draws = []) : Served form draws (.opened settings wrk batchId out) 0
  | noWork {settings : Settings} {wrk : GoMap ModelInput} {out : List Response}
      (hform : readForm form = .parsed settings wrk out) (hdraws : draws = [])
      (hn : workCount wrk = 0) :
      Served form draws (.done (out ++ [.error "no work to be done" 500])) 0
  | badWorkers {settings : Settings} {wrk : GoMap ModelInput} {out : List Response}
      (hform : readForm form = .parsed settings wrk out) (hdraws : draws = [])
      (hn : workCount wrk ≠ 0) (hnw : atoi settings.Workers = none) :
      Served form draws (.done (out ++ [.error "error parsing worker count" 500])) 0
  | launching {settings : Settings} {wrk : GoMap ModelInput} {out : List Response}
      {batchId : String} {nw : Int} {i : Nat}
      (hform : readForm form = .parsed settings wrk out) (hdraws : ∀ r ∈ draws, itoa r ∈ wrk)
      (hn : workCount wrk ≠ 0) (hnw : atoi settings.Workers = some nw) (hi : i ≤ nw.toNat) :
      Served form draws (.launching settings wrk batchId nw i out) i
  | launched {settings : Settings} {wrk : GoMap ModelInput} {out : List Response} {nw : Int}
      (hform : readForm form = .parsed settings wrk out) (hdraws : ∀ r ∈ draws, itoa r ∈ wrk)
      (hn : workCount wrk ≠ 0) (hnw : atoi settings.Workers = some nw) :
      Served form draws (.done (out ++ [.running true])) nw.toNat
  | panicked {settings : Settings} {wrk : GoMap ModelInput} {out : List Response} {nw : Int}
      {r n : Nat} (hform : readForm form = .parsed settings wrk out) (hr : r ∈ draws)
      (hno : itoa r ∉ wrk) (hn : workCount wrk ≠ 0) (hnw : atoi settings.Workers = some nw) :
      Served form draws (.panicked out) n

namespace App

/-- The requests that have arrived. The `h`-th of them is that of the handler `h`. -/
def requests (es : List Event) : List Request := es.filterMap Event.request?

/-- The numbers that the handler `h` has drawn. -/
def draws (es : List Event) (h : Nat) : List Nat := es.filterMap (Event.draw? h)

/-- The workers that a step of the handler `h` launches. -/
def launchedBy (h : Nat) (s : App) (e : Event) : List Worker :=
  if (e.draw? h).isSome then (s.step e).elim [] fun t => t.workers.drop s.workers.length
  else []

/-- The number of workers that the handler `h` has launched. -/
def launched (dir : String) (es : List Event) (h : Nat) : Nat :=
  (Machine.emits App.step (launchedBy h) (init dir) es).length

variable {dir : String} {es : List Event} {s : App}

theorem requests_concat (es : List Event) (e : Event) :
    requests (es ++ [e]) = requests es ++ e.request?.toList := by
  rw [requests, List.filterMap_append]
  cases h : e.request? <;> simp [h, requests]

theorem draws_concat (es : List Event) (e : Event) (h : Nat) :
    draws (es ++ [e]) h = draws es h ++ (e.draw? h).toList := by
  rw [draws, List.filterMap_append]
  cases hd : e.draw? h <;> simp [hd, draws]

theorem launched_concat (hs : Runs dir es s) (e : Event) (h : Nat) :
    launched dir (es ++ [e]) h = launched dir es h + (launchedBy h s e).length := by
  rw [launched, Machine.emits_concat _ _ hs, List.length_append, ← launched]

/-- An event in which the handler draws nothing adds nothing to what it has done. -/
theorem done_of_no_draw (hs : Runs dir es s) {e : Event} {h : Nat} (he : e.draw? h = none) :
    draws (es ++ [e]) h = draws es h ∧ launched dir (es ++ [e]) h = launched dir es h := by
  constructor
  · rw [draws_concat, he]
    exact List.append_nil _
  · rw [launched_concat hs, launchedBy, he]
    rfl

/-- A handler that starts has done nothing yet. -/
theorem served_start (form : WorkloadForm) : Handler.Served form [] (readForm form) 0 := by
  rcases readForm_cases form with ⟨settings, wrk, out, hform⟩ | ⟨out, hform⟩
  · rw [hform]
    exact .parsed hform rfl
  · rw [hform]
    exact .refused hform rfl

/-- The handlers of `/workload` requests have done what their program points say, and
    handlers that have not started have done nothing. -/
structure AllServed (dir : String) (es : List Event) (s : App) : Prop where
  length : (requests es).length = s.handlers.length
  fresh : ∀ h, s.handlers.length ≤ h → draws es h = [] ∧ launched dir es h = 0
  served : ∀ (h : Nat) (form : WorkloadForm) (x : Handler),
    (requests es)[h]? = some (.workload form) → s.handlers[h]? = some x →
      x.Served form (draws es h) (launched dir es h)

/-- A step of one handler, or of none, that is no draw. -/
theorem AllServed.set {t u : App} {e : Event} {j : Nat} {y y' : Handler}
    (ih : AllServed dir es t) (ht : Runs dir es t) (hreq : e.request? = none)
    (hdraw : ∀ h, e.draw? h = none) (hget : t.handlers[j]? = some y)
    (hu : u.handlers = t.handlers.set j y')
    (hserved : ∀ form ds n, y.Served form ds n → y'.Served form ds n) :
    AllServed dir (es ++ [e]) u := by
  -- without a draw, no request is new and no handler has launched more
  have hdone := fun h => done_of_no_draw ht (hdraw h)
  have hrequests : requests (es ++ [e]) = requests es := by simp [requests_concat, hreq]
  refine ⟨?_, fun h hh => ?_, fun h form x hform hx => ?_⟩
  · rw [hrequests, hu, List.length_set, ih.length]
  · rw [hu, List.length_set] at hh
    rw [(hdone h).1, (hdone h).2]
    exact ih.fresh h hh
  · rw [hrequests] at hform
    rw [(hdone h).1, (hdone h).2]
    rw [hu] at hx
    rcases List.getElem?_set_eq_some hx with ⟨rfl, rfl⟩ | ⟨-, hold⟩
    · exact hserved _ _ _ (ih.served j form y hform hget)
    · exact ih.served h form x hform hold

/-- A step that is no request and no draw, and changes no handler. -/
theorem AllServed.frame {t u : App} {e : Event} (ih : AllServed dir es t)
    (ht : Runs dir es t) (hreq : e.request? = none) (hdraw : ∀ h, e.draw? h = none)
    (hu : u.handlers = t.handlers) : AllServed dir (es ++ [e]) u := by
  have hdone := fun h => done_of_no_draw ht (hdraw h)
  have hrequests : requests (es ++ [e]) = requests es := by simp [requests_concat, hreq]
  refine ⟨?_, fun h hh => ?_, fun h form x hform hx => ?_⟩
  · rw [hrequests, hu, ih.length]
  · rw [(hdone h).1, (hdone h).2]
    exact ih.fresh h (hu ▸ hh)
  · rw [(hdone h).1, (hdone h).2]
    exact ih.served h form x (hrequests ▸ hform) (hu ▸ hx)

/-- A draw of the handler `j`, which launches `n` workers. -/
theorem AllServed.draw {t u : App} {j r n : Nat} {y y' : Handler} (ih : AllServed dir es t)
    (ht : Runs dir es t) (hstep : t.step (.launch j r) = some u)
    (hget : t.handlers[j]? = some y) (hu : u.handlers = t.handlers.set j y')
    (hn : u.workers.length = t.workers.length + n)
    (hserved : ∀ form ds k, y.Served form ds k → y'.Served form (ds ++ [r]) (k + n)) :
    AllServed dir (es ++ [.launch j r]) u := by
  have hrequests : requests (es ++ [.launch j r]) = requests es := by
    rw [requests_concat]
    exact List.append_nil _
  have hdone : ∀ h, j ≠ h → draws (es ++ [.launch j r]) h = draws es h ∧
      launched dir (es ++ [.launch j r]) h = launched dir es h :=
    fun h hj => done_of_no_draw ht (by simp [Event.draw?, hj])
  -- the handler that draws has drawn and launched more; the others have not
  refine ⟨?_, fun h hh => ?_, fun h form x hform hx => ?_⟩
  · rw [hrequests, hu, List.length_set, ih.length]
  · rw [hu, List.length_set] at hh
    have hj : j ≠ h := by
      have hlt := (List.getElem?_eq_some_iff.mp hget).1
      omega
    rw [(hdone h hj).1, (hdone h hj).2]
    exact ih.fresh h hh
  · rw [hrequests] at hform
    rw [hu] at hx
    rcases List.getElem?_set_eq_some hx with ⟨rfl, rfl⟩ | ⟨hj, hold⟩
    · -- the handler that draws
      have hds : draws (es ++ [.launch j r]) j = draws es j ++ [r] := by
        rw [draws_concat]
        simp [Event.draw?]
      have hlaunched : launched dir (es ++ [.launch j r]) j = launched dir es j + n := by
        rw [launched_concat ht, launchedBy, hstep]
        simp [Event.draw?, hn]
      rw [hds, hlaunched]
      exact hserved _ _ _ (ih.served j form y hform hget)
    · rw [(hdone h hj).1, (hdone h hj).2]
      exact ih.served h form x hform hold

/-- A request starts a handler, and the others stay. -/
theorem AllServed.request {t : App} {r : Request} (ih : AllServed dir es t)
    (ht : Runs dir es t) :
    AllServed dir (es ++ [.request r]) { t with handlers := t.handlers ++ [t.start r] } := by
  have hdone := fun h => done_of_no_draw (e := .request r) (h := h) ht rfl
  have hrequests : requests (es ++ [.request r]) = requests es ++ [r] := requests_concat es _
  -- a handler that was there has its request as before
  refine ⟨?_, fun h hh => ?_, fun h form x hform hx => ?_⟩
  · rw [hrequests, List.length_append, List.length_append, ih.length]
    rfl
  · rw [List.length_append] at hh
    rw [(hdone h).1, (hdone h).2]
    exact ih.fresh h (by omega)
  · rw [(hdone h).1, (hdone h).2]
    rw [hrequests] at hform
    rcases List.getElem?_concat_eq_some hx with hold | ⟨rfl, rfl⟩
    · have hlt := (List.getElem?_eq_some_iff.mp hold).1
      rw [List.getElem?_append_left (by rw [ih.length]; exact hlt)] at hform
      exact ih.served h form x hform hold
    · -- the new handler is that of the new request
      rw [← ih.length, List.getElem?_concat_length] at hform
      obtain rfl := Option.some.inj hform
      obtain ⟨hds, hlaunched⟩ := ih.fresh _ le_rfl
      rw [hds, hlaunched]
      exact served_start form

/-- Every step keeps what the handlers have done in step with their program points. -/
theorem AllServed.step {t u : App} {e : Event} (ih : AllServed dir es t)
    (ht : Runs dir es t) (he : t.step e = some u) : AllServed dir (es ++ [e]) u := by
  -- a step of a handler goes from one of its program points to the next
  obtain ⟨-, hm⟩ := moves_of_step he
  cases hm with
  | request r => exact ih.request ht
  | openReport b c hh =>
    refine ih.set ht rfl (fun _ => rfl) hh rfl fun form ds n hy => ?_
    cases hy with
    | parsed hform hdraws => exact .opened hform hdraws
  | noWork hh hn =>
    refine ih.set ht rfl (fun _ => rfl) hh rfl fun form ds n hy => ?_
    cases hy with
    | opened hform hdraws => exact .noWork hform hdraws hn
  | badWorkers hh hn hnw =>
    refine ih.set ht rfl (fun _ => rfl) hh rfl fun form ds n hy => ?_
    cases hy with
    | opened hform hdraws => exact .badWorkers hform hdraws hn hnw
  | setWorkers hh hn hnw =>
    refine ih.set ht rfl (fun _ => rfl) hh rfl fun form ds n hy => ?_
    cases hy with
    | opened hform hdraws => exact .launching hform (by simp [hdraws]) hn hnw (Nat.zero_le _)
  | launch hh hi hr hmod =>
    refine ih.draw ht he hh rfl (n := 1) (by simp) fun form ds k hy => ?_
    cases hy with
    | launching hform hdraws hn hnw hle =>
      refine .launching hform (fun r hr => ?_) hn hnw (by omega)
      rcases List.mem_append.mp hr with hr | hr
      · exact hdraws r hr
      · -- the draw that has found a model
        rw [List.mem_singleton.mp hr, ← AList.lookup_isSome, hmod]
        rfl
  | panic hh hi hr hmod =>
    refine ih.draw ht he hh rfl (n := 0) rfl fun form ds k hy => ?_
    cases hy with
    | launching hform hdraws hn hnw hle =>
      refine .panicked hform (List.mem_append_right _ List.mem_cons_self) ?_ hn hnw
      rw [← AList.lookup_isSome, hmod]
      simp
  | @launched _ _ _ _ nw i _ hh hi =>
    refine ih.set ht rfl (fun _ => rfl) hh rfl fun form ds n hy => ?_
    cases hy with
    | launching hform hdraws hn hnw hle =>
      -- the loop has counted to `nw`, or has not begun
      have hcount : i = nw.toNat := by omega
      rw [hcount]
      exact .launched hform hdraws hn hnw
  -- handlers of other requests serve no form
  | killed hh | timeout hh | writeCsv hh | report hh hr =>
    exact ih.set ht rfl (fun _ => rfl) hh rfl fun form ds n hy => nomatch hy
  | kill hh hw hsel => exact ih.set ht rfl (fun _ => rfl) hh rfl fun form ds n hy => nomatch hy
  | worker hw ha | monitorTick hm | stat hw hst hm =>
    exact ih.frame ht rfl (fun _ => rfl) rfl

/-- What a handler has done, in every run. -/
theorem served_of_run (h : Runs dir es s) : AllServed dir es s := by
  refine Machine.run_history (P := AllServed dir) ?_ ?_ h
  · exact ⟨rfl, fun _ _ => ⟨rfl, rfl⟩, by simp [requests]⟩
  · intro es t e u ht ih he
    exact ih.step ht he

/-! ## The end of a handler -/

/-- The handler `h` can end from here by its own steps. -/
def Ends (dir : String) (es : List Event) (h : Nat) : Prop :=
  ∃ fs s x, (∀ e ∈ fs, Event.ofWorkload h e = true) ∧ Runs dir (es ++ fs) s ∧
    s.handlers[h]? = some x ∧ x.active = false

/-- A handler that has ended ends by no step of its own. -/
theorem ends_of_not_active {h : Nat} {x : Handler} (hs : Runs dir es s)
    (hget : s.handlers[h]? = some x) (hx : x.active = false) : Ends dir es h :=
  ⟨[], s, x, by simp, by simpa using hs, hget, hx⟩

/-- A handler that ends after a step of its own ends. -/
theorem ends_of_concat {h : Nat} {e : Event} (he : Event.ofWorkload h e = true)
    (hends : Ends dir (es ++ [e]) h) : Ends dir es h := by
  obtain ⟨fs, s, x, hfs, hs, hget, hx⟩ := hends
  refine ⟨e :: fs, s, x, ?_, by simpa using hs, hget, hx⟩
  intro f hf
  rcases List.mem_cons.mp hf with rfl | hf
  · exact he
  · exact hfs f hf

/-- The run goes on with one of the `Moves`. -/
theorem runs_of_moves {t : App} {e : Event} (hs : Runs dir es s) (hexit : s.exited = false)
    (hm : Moves s e t) : Runs dir (es ++ [e]) t :=
  (Machine.run_concat App.step).mpr ⟨s, hs, step_of_moves hexit hm⟩

/-- The loop of `handleWorkload` ends: after at most `k` launches, or by a panic. -/
theorem ends_launching {h : Nat} {settings : Settings} {wrk : GoMap ModelInput}
    {batchId : String} {nw : Int} {i : Nat} {out : List Response} (hs : Runs dir es s)
    (hexit : s.exited = false)
    (hget : s.handlers[h]? = some (.launching settings wrk batchId nw i out))
    (hn : workCount wrk ≠ 0) (k : Nat) (hk : nw ≤ i + k) : Ends dir es h := by
  -- induction on the number of workers that are left to launch
  induction k generalizing es s i with
  | zero =>
    have hi : ¬ (i : Int) < nw := by omega
    have hrun := runs_of_moves hs hexit (.launched hget hi)
    exact ends_of_concat (by simp [Event.ofWorkload])
      (ends_of_not_active hrun (List.getElem?_set_of_some _ hget) rfl)
  | succ k ih =>
    by_cases hi : (i : Int) < nw
    · -- any draw will do
      refine ends_of_concat (e := .launch h 0) (by simp [Event.ofWorkload]) ?_
      cases hmod : wrk.lookup (itoa 0) with
      | none =>
        have hrun := runs_of_moves hs hexit (.panic hget hi (Nat.pos_of_ne_zero hn) hmod)
        exact ends_of_not_active hrun (List.getElem?_set_of_some _ hget) rfl
      | some model =>
        have hrun := runs_of_moves hs hexit (.launch hget hi (Nat.pos_of_ne_zero hn) hmod)
        exact ih hrun hexit (List.getElem?_set_of_some _ hget) (by push_cast; omega)
    · have hrun := runs_of_moves hs hexit (.launched hget hi)
      exact ends_of_concat (by simp [Event.ofWorkload])
        (ends_of_not_active hrun (List.getElem?_set_of_some _ hget) rfl)

/-- With its report file in place a handler ends: it looks at the workers, and may launch them. -/
theorem ends_opened {h : Nat} {settings : Settings} {wrk : GoMap ModelInput}
    {batchId : String} {out : List Response} (hs : Runs dir es s) (hexit : s.exited = false)
    (hget : s.handlers[h]? = some (.opened settings wrk batchId out)) : Ends dir es h := by
  refine ends_of_concat (e := .readWorkers h) (by simp [Event.ofWorkload]) ?_
  -- the handler stops without work or with a count that cannot be read
  by_cases hn : workCount wrk = 0
  · have hrun := runs_of_moves hs hexit (.noWork hget hn)
    exact ends_of_not_active hrun (List.getElem?_set_of_some _ hget) rfl
  · cases hnw : atoi settings.Workers with
    | none =>
      have hrun := runs_of_moves hs hexit (.badWorkers hget hn hnw)
      exact ends_of_not_active hrun (List.getElem?_set_of_some _ hget) rfl
    | some nw =>
      have hrun := runs_of_moves hs hexit (.setWorkers hget hn hnw)
      exact ends_launching hrun hexit (List.getElem?_set_of_some _ hget) hn nw.toNat (by omega)

/-- With its workload parsed a handler ends: it opens the report file next. -/
theorem ends_parsed {h : Nat} {settings : Settings} {wrk : GoMap ModelInput}
    {out : List Response} (hs : Runs dir es s) (hexit : s.exited = false)
    (hget : s.handlers[h]? = some (.parsed settings wrk out)) : Ends dir es h := by
  refine ends_of_concat (e := .openReport h "" true) (by simp [Event.ofWorkload]) ?_
  have hrun := runs_of_moves hs hexit (.openReport "" true hget)
  exact ends_opened hrun hexit (List.getElem?_set_of_some _ hget)

/-- A `/workload` handler ends by its own steps, whatever the others do: it waits for
    nobody. -/
theorem ends_of_served (h : Runs dir es s) (hexit : s.exited = false) {i : Nat}
    {form : WorkloadForm} {x : Handler} (hform : (requests es)[i]? = some (.workload form))
    (hget : s.handlers[i]? = some x) : Ends dir es i := by
  have hserved := (served_of_run h).served i form x hform hget
  generalize launched dir es i = n at hserved
  -- by its program point; in each the steps that are left are known
  cases hserved with
  | parsed hform hdraws => exact ends_parsed h hexit hget
  | opened hform hdraws => exact ends_opened h hexit hget
  | @launching _ _ _ _ nw n hform hdraws hn hnw hi =>
    apply ends_launching h hexit hget hn nw.toNat
    omega
  | refused | noWork | badWorkers | launched | panicked => exact ends_of_not_active h hget rfl

/-! ## Agreement -/

end App

/-- The handler has written one answer, and it agrees with the `n` workers launched. What a
    handler has written before it panics is not sent. -/
inductive Handler.Agrees (form : WorkloadForm) : Handler → Nat → Prop where
  | running {nw : Int} {n : Nat} (hnw : atoi form.settings.val.Workers = some nw)
      (hn : (n : Int) = nw) : Agrees form (.done [.running true]) n
  | notRunning : Agrees form (.done [.running false]) 0
  | error (msg : String) (status : Nat) : Agrees form (.done [.error msg status]) 0

/-- What a request must be like for `handleWorkload` to give it one answer that agrees: a
    `POST` with a workload that parses, and either its `QPS` texts are numbers, no `Query`
    text is malformed and, if there is work and a worker count, the count is not negative
    and each number drawn is a key; or a `QPS` text is malformed and up to it there is just
    one malformed `Query` text. -/
def WorkloadForm.Answerable (form : WorkloadForm) (draws : List Nat) : Prop :=
  form.post = true ∧ form.workload.err = false ∧
    ((form.QpsParse ∧ queryErrors form.workload.val = 0 ∧
        (form.workload.val ≠ [] → ∀ nw, atoi form.settings.val.Workers = some nw →
          0 ≤ nw ∧ ∀ r ∈ draws, itoa r ∈ form.workload.val.map Prod.fst)) ∨
      (¬ form.QpsParse ∧ queryErrors form.workload.val = 1))

namespace Handler

variable {form : WorkloadForm} {n : Nat}

/-- Only one answer agrees, so only one bad query may have been answered. -/
theorem agrees_replicate (q : Nat) :
    (done (.replicate q (.running false))).Agrees form 0 ↔ q = 1 := by
  constructor
  · intro h
    match q with
    | 0 => cases h
    | 1 => rfl
    | q + 2 => cases h
  · rintro rfl
    exact .notRunning

/-- An error after other answers is one too many. -/
theorem agrees_error (q : Nat) (msg : String) (status : Nat) :
    (done (.replicate q (.running false) ++ [.error msg status])).Agrees form 0 ↔ q = 0 := by
  constructor
  · intro h
    match q with
    | 0 => rfl
    | 1 => cases h
    | q + 2 => cases h
  · rintro rfl
    exact .error msg status

/-- After bad queries `running:true` is one answer too many. -/
theorem agrees_running (q : Nat) {nw : Int} (hnw : atoi form.settings.val.Workers = some nw) :
    (done (.replicate q (.running false) ++ [.running true])).Agrees form n ↔
      q = 0 ∧ (n : Int) = nw := by
  constructor
  · intro h
    -- each bad query adds an answer of its own
    match q with
    | 0 =>
      cases h with
      | running hnw' hn =>
        rw [hnw] at hnw'
        exact ⟨rfl, hn.trans (Option.some.inj hnw').symm⟩
    | 1 => cases h
    | q + 2 => cases h
  · rintro ⟨rfl, hn⟩
    exact .running hnw hn

/-- A handler that has ended has given one answer that agrees exactly when its request is
    answerable. -/
theorem agrees_iff_answerable {draws : List Nat} {x : Handler} (hx : x.Served form draws n)
    (hend : x.active = false) : x.Agrees form n ↔ form.Answerable draws := by
  -- by the way the handler has ended
  cases hx with
  | refused hform hdraws =>
    rcases of_readForm_done hform with ⟨hpost, rfl⟩ | ⟨herr, rfl⟩ | ⟨hpost, herr, hqps, rfl⟩
    · -- no `POST`: an error and `running:true`
      apply iff_of_false
      · intro h
        cases h
      · rintro ⟨hpost', -⟩
        rw [hpost] at hpost'
        cases hpost'
    · -- no answer at all
      apply iff_of_false
      · intro h
        cases h
      · rintro ⟨-, herr', -⟩
        rw [herr] at herr'
        cases herr'
    · rw [agrees_replicate, WorkloadForm.Answerable]
      simp [hpost, herr, hqps]
  -- no entry: an error is answered, besides what the bad queries have answered
  | noWork hform hdraws hn =>
    obtain ⟨hpost, herr, hqps, rfl, rfl, hkeys⟩ := of_readForm_parsed hform
    have hnil := (workCount_eq_zero_iff hkeys).mp hn
    rw [agrees_error, WorkloadForm.Answerable]
    simp [hpost, herr, hqps, hnil]
  | badWorkers hform hdraws hn hnw =>
    obtain ⟨hpost, herr, hqps, rfl, rfl, hkeys⟩ := of_readForm_parsed hform
    rw [agrees_error, WorkloadForm.Answerable]
    simp [hpost, herr, hqps, hnw]
  -- launched as many as asked for, unless the number is negative
  | @launched _ wrk _ nw hform hdraws hn hnw =>
    obtain ⟨hpost, herr, hqps, rfl, rfl, hkeys⟩ := of_readForm_parsed hform
    have hne : form.workload.val ≠ [] := fun hnil => hn ((workCount_eq_zero_iff hkeys).mpr hnil)
    have hdraws : ∀ r ∈ draws, itoa r ∈ form.workload.val.map Prod.fst :=
      fun r hr => (hkeys _).mp (hdraws r hr)
    have hcount : ((nw.toNat : Nat) : Int) = nw ↔ 0 ≤ nw := by omega
    rw [agrees_running _ hnw, hcount, WorkloadForm.Answerable, hnw]
    simp only [hpost, herr, hqps, hne, true_and, not_true_eq_false, false_and, or_false,
      ne_eq, not_false_eq_true, forall_const, Option.some.injEq, forall_eq']
    rw [and_iff_left hdraws]
  | @panicked _ wrk _ nw r _ hform hr hno hn hnw =>
    obtain ⟨hpost, herr, hqps, rfl, rfl, hkeys⟩ := of_readForm_parsed hform
    have hne : form.workload.val ≠ [] := fun hnil => hn ((workCount_eq_zero_iff hkeys).mpr hnil)
    apply iff_of_false
    · intro h
      cases h
    · -- the last draw is no key
      rintro ⟨-, -, ⟨-, -, hall⟩ | ⟨hnot, -⟩⟩
      · exact hno ((hkeys _).mpr ((hall hne nw hnw).2 r hr))
      · exact hnot hqps
  | parsed | opened | launching => cases hend

end Handler

namespace App

variable {dir : String} {es : List Event} {s : App}

/-- A `/workload` handler ends whatever the others do; and when it has ended, it has given
    one answer that agrees with the workers it launched exactly when the request is
    answerable. -/
theorem response_agrees_iff (h : Runs dir es s) {i : Nat} {form : WorkloadForm} {x : Handler}
    (hform : (requests es)[i]? = some (.workload form)) (hget : s.handlers[i]? = some x) :
    (s.exited = false → Ends dir es i) ∧
      (x.active = false →
        (x.Agrees form (launched dir es i) ↔ form.Answerable (draws es i))) :=
  ⟨fun hexit => ends_of_served h hexit hform hget, fun hend =>
    Handler.agrees_iff_answerable ((served_of_run h).served i form x hform hget) hend⟩

/-- A request that is no `POST` is answered twice, the second time with `running:true`
    although no worker was launched. -/
theorem get_answered_twice :
    ¬ ∀ dir es s (i : Nat) (form : WorkloadForm) (x : Handler), Runs dir es s →
      (requests es)[i]? = some (.workload form) → s.handlers[i]? = some x →
      x.active = false → x.Agrees form (launched dir es i) := by
  -- the form is no `POST`, and its handler has ended at once
  intro hall
  have hagrees := hall "reports"
    [.request (.workload ⟨false, ⟨[], false⟩, ⟨⟨"", "", "", 0, ""⟩, false⟩⟩)] _ 0 _ _ rfl rfl rfl
    rfl
  cases hagrees

/-- One widget and one worker: the answer is `running:true`, and one worker is launched. -/
theorem one_worker_answered :
    ∃ form s x, Runs "reports" (submit 0 (sampleForm [("0", "m")] "5" "1") "b" [0]) s ∧
      sampleForm [("0", "m")] "5" "1" = .workload form ∧ s.handlers[0]? = some x ∧
      x.Agrees form (launched "reports" (submit 0 (sampleForm [("0", "m")] "5" "1") "b" [0])
        0) := by
  -- the run is computed; its handler has ended, and its request is answerable
  obtain ⟨s, hs, hp⟩ := Machine.exists_run_of_map App.step (init "reports")
    (submit 0 (sampleForm [("0", "m")] "5" "1") "b" [0])
    (fun s => (s.handlers[0]?).any fun x => !x.active) (by decide)
  obtain ⟨x, hget, hx⟩ := (Option.any_eq_true _ _).mp hp
  refine ⟨_, s, x, hs, rfl, hget,
    ((response_agrees_iff hs rfl hget).2 (by simpa using hx)).mpr ⟨rfl, rfl, .inl ⟨?_, rfl, ?_⟩⟩⟩
  · simp only [WorkloadForm.QpsParse]
    decide
  · intro _ nw hnw
    obtain rfl : nw = 1 := Option.some.inj (hnw.symm.trans (by decide))
    decide

end App

end WorkloadSimulator
