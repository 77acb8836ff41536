import WorkloadSimulator.App.Ops
import WorkloadSimulator.Spec.AppRun

/-!
# What a failed prediction ends

Two of the three ways in which a prediction can fail return an error to the worker, which
exits. A URL that `http.NewRequest` rejects goes to `log.Fatal` instead and takes the whole
process with it, and the URL is made of strings that a client submits.

## Key results

- `App.exists_run_of_run_ops`: the runs with these predictions are runs of the app
- `Workload.result_eq_fatal_iff`: which predictions end the process
- `App.contained_iff`: every step of a run leaves the process and the other workers alone
  exactly when every worker that predicts has a URL that is accepted, or an input that
  cannot be marshalled
-/

namespace WorkloadSimulator

namespace Workload

/-- The prediction cannot build its request, or cannot send it. -/
inductive Fails (lib : App.Library) (network : Network) (w : Workload) : Prop where
  | marshal {err : String} (hm : lib.marshal w.modelInput = .error err)
  | newRequest {err : String}
      (hn : lib.newRequest (opsURL w.user w.modelName w.opsHost) = some err)
  | send {sinput err : String} (hm : lib.marshal w.modelInput = .ok sinput)
      (hs : network ⟨opsURL w.user w.modelName w.opsHost, w.user, w.apiKey,
        "application/json", sinput⟩ = some err)

/-- If the input can be marshalled, the request can be built. -/
def Buildable (lib : App.Library) (w : Workload) : Prop :=
  ∀ sinput, lib.marshal w.modelInput = .ok sinput →
    lib.newRequest (opsURL w.user w.modelName w.opsHost) = none

instance (lib : App.Library) (w : Workload) : Decidable (w.Buildable lib) :=
  match hm : lib.marshal w.modelInput with
  | .error _ => .isTrue (by simp [Buildable, hm])
  | .ok _ => decidable_of_iff (lib.newRequest (opsURL w.user w.modelName w.opsHost) = none)
      (by simp [Buildable, hm])

variable {lib : App.Library} {network : Network} {w : Workload}

/-- A prediction ends the process exactly when it can marshal its input and not build its
    request. -/
theorem result_eq_fatal_iff :
    (w.predict lib network).result = .fatal ↔ ¬ w.Buildable lib := by
  unfold predict opsPredictHTTP Buildable
  cases hm : lib.marshal w.modelInput with
  | error err => simp [Outcome.result]
  | ok sinput =>
    cases hn : lib.newRequest (opsURL w.user w.modelName w.opsHost) with
    | some err => simp [hn, Outcome.result]
    | none =>
      -- either answer of the network comes back to the worker
      cases hs : network ⟨opsURL w.user w.modelName w.opsHost, w.user, w.apiKey,
        "application/json", sinput⟩ <;> simp [hn, hs, Outcome.result]

/-- Any other failure comes back to the worker as an error. -/
theorem predict_of_fails (hb : w.Buildable lib) (hf : w.Fails lib network) :
    ∃ msg, w.predict lib network = .error msg := by
  unfold predict opsPredictHTTP
  cases hf with
  | marshal hm =>
    rw [hm]
    exact ⟨_, rfl⟩
  | newRequest hn =>
    cases hm : lib.marshal w.modelInput with
    | error err => exact ⟨_, rfl⟩
    -- a request can be built from each text that was marshalled
    | ok sinput =>
      rw [hb sinput hm] at hn
      cases hn
  | send hm hs =>
    simp only [hm, hb _ hm, hs]
    exact ⟨_, rfl⟩

end Workload

/-- A worker whose prediction fails exits. -/
theorem Worker.step_predict_error {wk wk' : Worker} (h : wk.step (.predict .error) = some wk') :
    wk' = { wk with pc := .exited } := by
  rcases step_cases h with ⟨ha, -⟩ | ⟨ha, -⟩ | ⟨ha, -⟩ | ⟨ha, -⟩ | ⟨ha, -⟩ | ⟨-, -, hwk⟩ | ⟨ha, -⟩
  case inr.inr.inr.inr.inr.inl => exact hwk
  all_goals cases ha

/-- The worker that takes part in the event. -/
def OpsEvent.worker? : OpsEvent → Option Nat
  | .predict w _ => some w
  | .other e => e.worker?

/-- Whether the event ends the process. -/
def Event.fatal : Event → Bool
  | .worker _ (.predict .fatal) => true
  | _ => false

namespace App

variable {lib : Library} {s u : App}

/-! ## One step -/

/-- The process exits in a fatal event and in no other. -/
theorem exited_of_step {e : Event} (h : s.step e = some u) : u.exited = e.fatal := by
  obtain ⟨hx, hm⟩ := moves_of_step h
  cases hm with
  | @worker w a wk wk' hw ha =>
    show decide (a = .predict .fatal) = _
    unfold Event.fatal
    split <;> simp_all
  | _ => exact hx

/-- A worker that takes no part in a step stays as it is. -/
theorem getElem?_workers_of_step {e : Event} (h : s.step e = some u) {v : Nat} {wk : Worker}
    (hget : s.workers[v]? = some wk) (hv : e.worker? ≠ some v) : u.workers[v]? = some wk := by
  -- a launch adds a worker, and another worker's step changes that worker only
  cases coreMove_of_step h with
  | launch h' r wl hdt hid hws hmon =>
    rw [hws, List.getElem?_append_left (List.getElem?_eq_some_iff.mp hget).1]
    exact hget
  | worker hw ha hws hmon | kill hw hsel hws hmon | stat hw hst hsel hws hmon =>
    rw [hws, List.getElem?_set_of_ne _ (by simpa [Event.worker?] using hv)]
    exact hget
  | other _ hws hmon | panic _ _ hws hmon | tick hsel hws hmon | report hr hws hmon =>
    exact hws ▸ hget

/-- The app with its predictions makes no step that `App.step` does not. -/
theorem step_of_stepOps {e : OpsEvent} (h : s.stepOps lib e = some u) :
    ∃ f, s.resolve lib e = some f ∧ s.step f = some u :=
  Option.bind_eq_some_iff.mp h

theorem resolve_other {e f : Event} :
    s.resolve lib (.other e) = some f ↔ e.predicts = false ∧ e = f := by
  show (if e.predicts then none else some e) = some f ↔ _
  cases e.predicts <;> simp

/-- The same worker takes part. -/
theorem worker?_of_resolve {e : OpsEvent} {f : Event} (h : s.resolve lib e = some f) :
    f.worker? = e.worker? := by
  -- a prediction is a step of its worker
  cases e with
  | predict w network =>
    obtain ⟨wk, -, rfl⟩ := Option.map_eq_some_iff.mp h
    rfl
  | other e =>
    obtain ⟨-, rfl⟩ := resolve_other.mp h
    rfl

/-- What the step from `s` to `u` leaves alone: the process goes on, every other worker stays
    as it is, and where a prediction fails its own worker has the error and exits. -/
structure Contained (lib : Library) (s : App) (e : OpsEvent) (u : App) : Prop where
  running : u.exited = false
  others : ∀ v wk, e.worker? ≠ some v → s.workers[v]? = some wk → u.workers[v]? = some wk
  failed : ∀ w network wk, e = .predict w network → s.workers[w]? = some wk →
    wk.w.Fails lib network → (∃ msg, wk.w.predict lib network = .error msg) ∧
      u.workers[w]? = some { wk with pc := .exited }

/-- The worker whose prediction ends has a request that can be built. -/
def PredictsBuildable (lib : Library) (s : App) : OpsEvent → Prop
  | .predict w _ => ∀ wk, s.workers[w]? = some wk → wk.w.Buildable lib
  | .other _ => True

instance (s : App) : (e : OpsEvent) → Decidable (s.PredictsBuildable lib e)
  | .predict w _ => inferInstanceAs (Decidable (∀ wk ∈ s.workers[w]?, wk.w.Buildable lib))
  | .other _ => .isTrue trivial

/-- Whether the event that the app takes for it is fatal. -/
theorem fatal_of_resolve {e : OpsEvent} {f : Event} (h : s.resolve lib e = some f) :
    f.fatal = false ↔ s.PredictsBuildable lib e := by
  cases e with
  | predict w network =>
    obtain ⟨wk, hget, rfl⟩ := Option.map_eq_some_iff.mp h
    have hfatal : (Event.worker w (.predict (wk.w.predict lib network).result)).fatal = false ↔
        ¬ (wk.w.predict lib network).result = .fatal := by
      cases (wk.w.predict lib network).result <;> simp [Event.fatal]
    rw [hfatal, Workload.result_eq_fatal_iff, not_not]
    show _ ↔ ∀ wk', s.workers[w]? = some wk' → wk'.w.Buildable lib
    simp [hget]
  | other e =>
    refine iff_of_true ?_ trivial
    obtain ⟨hp, rfl⟩ := resolve_other.mp h
    -- an event in which no prediction ends
    unfold Event.predicts at hp
    unfold Event.fatal
    split
    · cases hp
    · rfl

/-- A step leaves the process and the other workers alone exactly when the request of the
    prediction that ends in it, if one does, can be built. -/
theorem contained_step_iff {e : OpsEvent} (h : s.stepOps lib e = some u) :
    s.Contained lib e u ↔ s.PredictsBuildable lib e := by
  obtain ⟨f, hf, hstep⟩ := step_of_stepOps h
  rw [← fatal_of_resolve hf, ← exited_of_step hstep]
  constructor
  · exact Contained.running
  · intro hrun
    refine ⟨hrun, fun v wk hv hget => ?_, ?_⟩
    · rw [← worker?_of_resolve hf] at hv
      exact getElem?_workers_of_step hstep hget hv
    · rintro w network wk rfl hget hfails
      rw [exited_of_step hstep, fatal_of_resolve hf] at hrun
      obtain ⟨msg, hmsg⟩ := Workload.predict_of_fails (hrun wk hget) hfails
      refine ⟨⟨msg, hmsg⟩, ?_⟩
      -- the event is the one of a worker that gets an error
      simp only [resolve, hget, Option.map_some, hmsg, Outcome.result, Option.some.injEq] at hf
      subst hf
      cases coreMove_of_step hstep with
      | other hcore hws hmon => cases hcore
      | worker hw ha hws hmon =>
        obtain rfl := Option.some.inj (hw.symm.trans hget)
        rw [hws, List.getElem?_set_of_some _ hw, Worker.step_predict_error ha]

/-! ## Runs -/

/-- Every run of the app with its predictions is a run of the app. -/
theorem exists_run_of_run_ops {dir : String} {es : List OpsEvent}
    (h : Machine.run (stepOps lib) (init dir) es = some s) : ∃ fs, Runs dir fs s := by
  refine Machine.run_invariant (P := fun t => ∃ fs, Runs dir fs t) ⟨[], rfl⟩ ?_ h
  rintro t e u ⟨fs, hfs⟩ he
  obtain ⟨f, -, hf⟩ := step_of_stepOps he
  exact ⟨fs ++ [f], (Machine.run_concat _).mpr ⟨t, hfs, hf⟩⟩

/-- In every run each step leaves the process and the other workers alone exactly when each
    worker whose prediction ends has a request that can be built: its URL is accepted, or its
    input cannot be marshalled. -/
theorem contained_iff {dir : String} {es : List OpsEvent}
    (h : Machine.run (stepOps lib) (init dir) es = some s) :
    Machine.Meets (stepOps lib)
        (fun _ t e => ∀ u, t.stepOps lib e = some u → t.Contained lib e u) (init dir) es ↔
      Machine.Meets (stepOps lib) (fun _ => PredictsBuildable lib) (init dir) es := by
  refine Machine.meets_iff_meets (I := fun _ => True) trivial ?_ h
  intro t e u _ he
  refine ⟨trivial, ?_⟩
  -- a step has one result, so the condition on all results is that on `u`
  rw [← contained_step_iff he]
  constructor
  · intro hall
    exact hall u he
  · intro hu u' hu'
    obtain rfl := Option.some.inj (he.symm.trans hu')
    exact hu

/-! ## Concrete predictions -/

/-- The first percent sign that is not followed by two hexadecimal digits, with the two
    characters that follow it. -/
def badEscape? : List Char → Option (List Char)
  | [] => none
  | '%' :: cs =>
    if (cs.take 2).length = 2 ∧ (cs.take 2).all fun c => "0123456789abcdefABCDEF".toList.contains c
    then badEscape? cs else some ('%' :: cs.take 2)
  | _ :: cs => badEscape? cs

/-- The empty input is an object without members, and a URL is rejected for a bad escape only. -/
def sampleLibrary : Library where
  marshal input := if input.entries.isEmpty then .ok "\x7b\x7d" else .error "not supported"
  newRequest url := (badEscape? url.toList).map fun esc =>
    "parse " ++ url ++ ": invalid URL escape \"" ++ String.ofList esc ++ "\""

/-- Two workers are launched for the model `model`, and the first one calls `Predict`. -/
def twoWorkers (model : String) : List OpsEvent :=
  (submit 0 (sampleForm [("0", model)] "1" "2") "b" [0, 0] ++
    [Event.worker 0 .iterate, Event.worker 0 .begin]).map .other

/-- A client that names its model `%` ends the process. -/
theorem exits_on_percent :
    ¬ ∀ es s, Machine.run (stepOps sampleLibrary) (init "reports") es = some s →
      Machine.Meets (stepOps sampleLibrary)
        (fun _ t e => ∀ u, t.stepOps sampleLibrary e = some u → t.Contained sampleLibrary e u)
        (init "reports") es := by
  intro hall
  obtain ⟨u, hu, hexit⟩ := Machine.exists_run_of_map (stepOps sampleLibrary) (init "reports")
    (twoWorkers "%" ++ [.predict 0 fun _ => none]) App.exited (by decide +kernel)
  obtain ⟨t, ht, he⟩ := (Machine.run_concat _).mp hu
  -- the last event is the prediction, and the app has exited after it
  have hcontained := hall _ u hu _ _ [] rfl t ht u he
  rw [hcontained.running] at hexit
  cases hexit

/-- The connection of the first worker is refused, and the second one makes its prediction. -/
def refused : List OpsEvent :=
  twoWorkers "iris" ++ [.predict 0 fun _ => some "connection refused",
    .other (.worker 1 .iterate), .other (.worker 1 .begin), .predict 1 fun _ => none]

theorem contained_when_refused :
    ∃ s, Machine.run (stepOps sampleLibrary) (init "reports") refused = some s ∧
      Machine.Meets (stepOps sampleLibrary)
        (fun _ t e => ∀ u, t.stepOps sampleLibrary e = some u → t.Contained sampleLibrary e u)
        (init "reports") refused := by
  obtain ⟨s, hs, -⟩ := Machine.exists_run_of_map (stepOps sampleLibrary) (init "reports")
    refused (fun s => !s.exited) (by decide +kernel)
  -- no name of the run contains a percent sign
  refine ⟨s, hs, (contained_iff hs).mpr (Machine.meets_of_check
    (c := fun t e => decide (t.PredictsBuildable sampleLibrary e))
    (fun _ _ _ hc => of_decide_eq_true hc) ?_)⟩
  decide +kernel

end App

end WorkloadSimulator
