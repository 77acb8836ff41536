import WorkloadSimulator.Page.Widgets
import WorkloadSimulator.Spec.AppRun

/-!
# Whether every worker gets a model

`handleWorkload` draws a number below the number of posted entries and takes it for a key,
while the page posts its widgets under ids that it does not reuse.

## Key results

- `buildWork_eq_some`: a well-formed workload is parsed to a map with the posted keys
- `onWork_step`: a `/workload` handler keeps the map it has parsed, and does not panic if
  every draw is a key
- `no_panic_iff`: no draw makes the handler panic exactly when the ids of the widgets with
  a text are the numbers below their count
-/

namespace WorkloadSimulator

/-- Numbers are told apart by their decimals. -/
theorem itoa_injective : Function.Injective itoa := by
  intro m n h
  have hdigits : Nat.toDigits 10 m = Nat.toDigits 10 n := by
    rw [← Nat.toList_repr, ← Nat.toList_repr]
    exact congrArg String.toList h
  rw [← Nat.ofDigitChars_ten_toDigits (n := m), hdigits, Nat.ofDigitChars_ten_toDigits]

/-! ## The parsed workload -/

/-- A workload whose `QPS` texts are numbers is parsed to a map with its keys. -/
theorem buildWork_eq_some {work : List (String × ModelData)}
    (hqps : ∀ x ∈ work, (atoi x.2.QPS).isSome = true) (acc : GoMap ModelInput)
    (out : List Response) :
    ∃ wrk out', buildWork work acc out = (some wrk, out') ∧
      ∀ k, k ∈ wrk ↔ k ∈ acc ∨ k ∈ work.map Prod.fst := by
  induction work generalizing acc out with
  | nil => exact ⟨acc, out, rfl, by simp⟩
  | cons x work ih =>
    obtain ⟨iqps, hiqps⟩ := Option.isSome_iff_exists.mp (hqps x List.mem_cons_self)
    -- a rate that can be read adds its key
    obtain ⟨wrk, out', hbuild, hmem⟩ := ih (fun y hy => hqps y (List.mem_cons_of_mem x hy))
      (acc.insert x.1 ⟨x.2.Query.val.Model, x.2.Query.val.Input, iqps⟩)
      (if x.2.Query.err then out ++ [.running false] else out)
    refine ⟨wrk, out', ?_, fun k => ?_⟩
    · rw [buildWork, hiqps]
      exact hbuild
    · rw [hmem, AList.mem_insert, List.map_cons, List.mem_cons]
      tauto

namespace Page

/-- The entries that the page posts; the server decodes the text of each widget. -/
def entries (p : Page) (decode : String → Decoded QueryData) : List (String × ModelData) :=
  p.getWorkload.map fun x => (x.1, ⟨decode x.2.query, x.2.qps⟩)

/-- The posted entries are well formed. -/
def WellFormed (p : Page) (decode : String → Decoded QueryData) : Prop :=
  ∀ x ∈ p.entries decode, x.2.Query.err = false ∧ (atoi x.2.QPS).isSome = true

/-- The form is one that the page posts, with any settings. The entries stand in the order
    in which the server ranges over them. -/
structure Posts (p : Page) (decode : String → Decoded QueryData) (form : WorkloadForm) :
    Prop where
  post : form.post = true
  decoded : form.workload.err = false
  perm : form.workload.val.Perm (p.entries decode)

variable {p : Page} {decode : String → Decoded QueryData} {form : WorkloadForm}

theorem entries_keys (p : Page) (decode : String → Decoded QueryData) :
    (p.entries decode).map Prod.fst = p.submitted.map itoa := by
  rw [← getWorkload_keys, entries, List.map_map]
  rfl

/-- The handler of a well-formed workload gets a map whose keys are the submitted ids. -/
theorem readForm_of_posts (hwf : p.WellFormed decode) (hform : p.Posts decode form) :
    ∃ wrk out, readForm form = .parsed form.settings.val wrk out ∧
      wrk.keys.Perm (p.submitted.map itoa) := by
  have hqps : ∀ x ∈ form.workload.val, (atoi x.2.QPS).isSome = true :=
    fun x hx => (hwf x (hform.perm.mem_iff.mp hx)).2
  obtain ⟨wrk, out, hbuild, hmem⟩ := buildWork_eq_some hqps ∅ []
  refine ⟨wrk, out, ?_, ?_⟩
  · rw [readForm, if_pos hform.post, hform.decoded, hbuild]
    rfl
  · have hids : p.submitted.Nodup := p.submitted_sorted.imp fun h => Nat.ne_of_lt h
    have hnodup := hids.map itoa_injective
    -- the keys are those of the widgets, and neither list has one twice
    refine (List.perm_ext_iff_of_nodup wrk.keys_nodup hnodup).mpr fun k => ?_
    have hkeys := (hform.perm.map Prod.fst).mem_iff (a := k)
    rw [entries_keys] at hkeys
    rw [← AList.mem_keys, hmem, ← hkeys]
    simp

/-- Every draw is a key exactly when the submitted ids are the numbers below their count. -/
theorem forall_draw_iff {wrk : GoMap ModelInput} (hkeys : wrk.keys.Perm (p.submitted.map itoa)) :
    (∀ r < workCount wrk, itoa r ∈ wrk) ↔ p.submitted = List.range p.submitted.length := by
  have hcount : workCount wrk = p.submitted.length := by
    rw [workCount, hkeys.length_eq, List.length_map]
  have hmem : ∀ r, itoa r ∈ wrk ↔ r ∈ p.submitted := by
    intro r
    rw [AList.mem_keys, hkeys.mem_iff, List.mem_map_of_injective itoa_injective]
  rw [List.eq_range_iff p.submitted_sorted, hcount]
  simp only [hmem]

end Page

/-! ## The handler -/

/-- The handler works on the map `wrk`, or has ended without a panic. -/
def Handler.OnWork (wrk : GoMap ModelInput) : Handler → Prop
  | .parsed _ w _ | .opened _ w _ _ | .launching _ w _ _ _ _ => w = wrk
  | .done _ => True
  | _ => False

/-- Whether the handler has panicked. -/
def Handler.isPanicked : Handler → Bool
  | .panicked _ => true
  | _ => false

namespace App

variable {dir : String} {es : List Event} {s s' : App}

/-- A `/workload` handler keeps its map, and does not panic if every draw is a key. -/
theorem onWork_step {wrk : GoMap ModelInput} (hdraw : ∀ r < workCount wrk, itoa r ∈ wrk)
    {h : Nat} {e : Event} (hs : ∃ x, s.handlers[h]? = some x ∧ x.OnWork wrk)
    (he : s.step e = some s') : ∃ x, s'.handlers[h]? = some x ∧ x.OnWork wrk := by
  obtain ⟨x, hget, hx⟩ := hs
  -- another handler may change, or this one
  have hset : ∀ {i : Nat} {y y' : Handler}, s.handlers[i]? = some y →
      (y.OnWork wrk → y'.OnWork wrk) →
      ∃ x, (s.handlers.set i y')[h]? = some x ∧ x.OnWork wrk := by
    intro i y y' hi hkeep
    by_cases hih : i = h
    · subst hih
      obtain rfl := Option.some.inj (hi.symm.trans hget)
      exact ⟨y', List.getElem?_set_of_some _ hi, hkeep hx⟩
    · exact ⟨x, by rw [List.getElem?_set_of_ne _ hih, hget], hx⟩
  obtain ⟨-, hm⟩ := moves_of_step he
  cases hm with
  | request r =>
    have hlt := (List.getElem?_eq_some_iff.mp hget).1
    exact ⟨x, by rw [List.getElem?_append_left hlt, hget], hx⟩
  | openReport _ _ hh => exact hset hh id
  | noWork hh hn => exact hset hh fun _ => trivial
  | badWorkers hh hn hnw => exact hset hh fun _ => trivial
  | setWorkers hh hn hnw => exact hset hh id
  | launch hh hi hr hmod => exact hset hh id
  | panic hh hi hr hmod =>
    refine hset hh fun hw => ?_
    -- the draw is a key
    obtain rfl : _ = wrk := hw
    have hmem := hdraw _ hr
    rw [← AList.lookup_isSome, hmod] at hmem
    exact nomatch hmem
  | launched hh hi => exact hset hh fun _ => trivial
  | killed hh => exact hset hh fun _ => trivial
  | timeout hh => exact hset hh fun _ => trivial
  | writeCsv hh => exact hset hh fun _ => trivial
  | kill hh hw hsel => exact hset hh fun hk => hk.elim
  | report hh hr => exact hset hh fun hk => hk.elim
  | worker hw ha | monitorTick hm | stat hw hst hm => exact ⟨x, hget, hx⟩

/-- A draw that is no key makes the handler of the first request panic. -/
theorem exists_panic (dir : String) {form : WorkloadForm} {settings : Settings}
    {wrk : GoMap ModelInput} {out : List Response} {nw : Int} {r : Nat}
    (hform : readForm form = .parsed settings wrk out)
    (hnw : atoi settings.Workers = some nw) (hpos : 0 < nw) (hr : r < workCount wrk)
    (hno : itoa r ∉ wrk) :
    ∃ s, Runs dir [.request (.workload form), .openReport 0 "" true, .readWorkers 0,
      .launch 0 r] s ∧ s.handlers[0]? = some (.panicked out) := by
  have hlookup : wrk.lookup (itoa r) = none := by
    rw [← Option.not_isSome_iff_eq_none, AList.lookup_isSome]
    exact hno
  have hcount : workCount wrk ≠ 0 := by omega
  simp [Runs, Machine.run, step, init, start, hform, openReport, readWorkers, launch,
    setHandler, hnw, hcount, hpos, hr, hlookup]

/-- Whatever the draws, the worker count and the rest of the run, the handler of a
    well-formed workload does not panic, exactly when the ids of the widgets with a text are
    the numbers below their count. -/
theorem no_panic_iff {p : Page} {decode : String → Decoded QueryData}
    (hwf : p.WellFormed decode) :
    (∀ form, p.Posts decode form → ∀ dir pre post t s, Runs dir pre t →
        Runs dir (pre ++ .request (.workload form) :: post) s →
        ∀ out, s.handlers[t.handlers.length]? ≠ some (.panicked out)) ↔
      p.submitted = List.range p.submitted.length := by
  constructor
  · -- one worker suffices: each draw is the first of a run of its own
    intro hall
    have hposts : p.Posts decode
        ⟨true, ⟨p.entries decode, false⟩, ⟨⟨"", "", "", 0, "1"⟩, false⟩⟩ := ⟨rfl, rfl, .rfl⟩
    obtain ⟨wrk, out, hform, hkeys⟩ := Page.readForm_of_posts hwf hposts
    refine (Page.forall_draw_iff hkeys).mp fun r hr => ?_
    by_contra hno
    have hone : atoi "1" = some 1 := by decide
    obtain ⟨s, hs, hpanic⟩ := exists_panic "" hform hone (by decide) hr hno
    exact hall _ hposts "" [] _ (init "") s rfl hs out hpanic
  · -- the handler keeps the map it was started with
    intro hids form hposts dir pre post t s ht hs out hpanic
    obtain ⟨wrk, out', hform, hkeys⟩ := Page.readForm_of_posts hwf hposts
    have hdraw := (Page.forall_draw_iff hkeys).mpr hids
    obtain ⟨t', ht', hs⟩ := (Machine.run_append_eq_some App.step).mp hs
    obtain rfl := Option.some.inj (ht.symm.trans ht')
    obtain ⟨u, hu, hs⟩ := Option.bind_eq_some_iff.mp hs
    -- the new handler works on the map from its start
    have hstart : ∃ x, u.handlers[t.handlers.length]? = some x ∧ x.OnWork wrk := by
      obtain ⟨-, hm⟩ := moves_of_step hu
      cases hm with
      | request =>
        refine ⟨.parsed form.settings.val wrk out', ?_, rfl⟩
        show (t.handlers ++ [readForm form])[t.handlers.length]? = _
        rw [List.getElem?_concat_length, hform]
    obtain ⟨x, hx, hwork⟩ := Machine.run_invariant
      (P := fun s => ∃ x, s.handlers[t.handlers.length]? = some x ∧ x.OnWork wrk) hstart
      (fun _ _ _ hv he => onWork_step hdraw hv he) hs
    rw [hpanic] at hx
    obtain rfl := Option.some.inj hx
    exact hwork

/-- The form of a page whose texts are model names, for one worker. -/
def pageForm (p : Page) : WorkloadForm :=
  ⟨true, ⟨p.entries fun q => ⟨⟨q, ∅⟩, false⟩, false⟩, ⟨⟨"", "", "", 0, "1"⟩, false⟩⟩

/-- Two widgets, of which the first is closed: a draw of zero is no key. -/
theorem closed_widget_panics :
    ¬ ∀ users decode form dir pre post t s, (Page.after users).submitted ≠ [] →
      (Page.after users).WellFormed decode → (Page.after users).Posts decode form →
      Runs dir pre t → Runs dir (pre ++ .request (.workload form) :: post) s →
      ∀ out, s.handlers[t.handlers.length]? ≠ some (.panicked out) := by
  intro hall
  -- of two widgets the first one is closed, so that the key that is drawn is missing
  obtain ⟨s, hs, hp⟩ := Machine.exists_run_of_map App.step (init "reports")
    ([] ++ .request (.workload (pageForm (Page.after [.new, .new, .edit 0 ⟨"a", "1"⟩,
      .edit 1 ⟨"b", "1"⟩, .close 0]))) ::
      [.openReport 0 "b" true, .readWorkers 0, .launch 0 0])
    (fun s => (s.handlers[0]?).any Handler.isPanicked) (by decide)
  obtain ⟨x, hx, hpanic⟩ := (Option.any_eq_true _ _).mp hp
  cases x with
  | panicked out =>
    refine hall _ (fun q => ⟨⟨q, ∅⟩, false⟩) _ _ [] _ (init "reports") s ?_ ?_
      ⟨rfl, rfl, .rfl⟩ rfl hs out hx
    · decide
    · intro x hx
      revert x
      decide
  | _ => exact nomatch hpanic

/-- A page whose last widget has been closed. -/
def lastWidgetClosed : Page :=
  Page.after [.new, .new, .new, .edit 0 ⟨"a", "1"⟩, .edit 1 ⟨"b", "2"⟩, .edit 2 ⟨"c", "1"⟩, .close 2]

/-- Two widgets are left, and every draw is the id of one of them. -/
theorem two_widgets_never_panic :
    lastWidgetClosed.submitted = [0, 1] ∧
      lastWidgetClosed.WellFormed (fun q => ⟨⟨q, ∅⟩, false⟩) ∧
      ∀ form, lastWidgetClosed.Posts (fun q => ⟨⟨q, ∅⟩, false⟩) form →
        ∀ dir pre post t s, Runs dir pre t →
          Runs dir (pre ++ .request (.workload form) :: post) s →
          ∀ out, s.handlers[t.handlers.length]? ≠ some (.panicked out) := by
  have hwf : lastWidgetClosed.WellFormed (fun q => ⟨⟨q, ∅⟩, false⟩) := by
    intro x hx
    revert x
    decide
  exact ⟨by decide, hwf, (no_panic_iff hwf).mpr (by decide)⟩

end App

end WorkloadSimulator
