import Mathlib

/-!
# Partial step functions and their runs

A concurrent program is given here as a partial function `step : σ → ε → Option σ`:
`step s e` is the state after the event `e`, or `none` where `e` cannot happen in `s`.
An interleaving is then a list of events, and a run is a list of events that can all
happen one after the other.

## Key results

- `run_concat`: a run ends with one step from the state that the rest of it reaches
- `run_history`: a relation between the events so far and the state reached, proved of
  one step, holds along every run
- `run_history_of_meets`: the same for the runs whose steps all meet a condition
- `always_iff_meets`: a property holds all along a run exactly when each step meets the
  exact condition for keeping it
- `emits_concat`: what a run puts out, one step at a time
-/

namespace Machine

variable {σ ε ω : Type*} (step : σ → ε → Option σ)

/-- Let the events of a list happen in order. -/
def run (s : σ) : List ε → Option σ
  | [] => some s
  | e :: es => (step s e).bind fun t => run t es

@[simp] theorem run_nil (s : σ) : run step s [] = some s := rfl

@[simp] theorem run_cons (s : σ) (e : ε) (es : List ε) :
    run step s (e :: es) = (step s e).bind fun t => run step t es := rfl

/-- A run of `es ++ fs` is a run of `es` followed by a run of `fs`. -/
theorem run_append (s : σ) (es fs : List ε) :
    run step s (es ++ fs) = (run step s es).bind fun t => run step t fs := by
  -- induction on the first events, for every state they begin in
  induction es generalizing s with
  | nil => rfl
  | cons e es ih =>
    simp only [List.cons_append, run_cons, Option.bind_assoc]
    congr 1
    funext t
    exact ih t

/-- Where a run is cut, there is a state. -/
theorem run_append_eq_some {s u : σ} {es fs : List ε} :
    run step s (es ++ fs) = some u ↔
      ∃ t, run step s es = some t ∧ run step t fs = some u := by
  rw [run_append, Option.bind_eq_some_iff]

/-- The last event of a run is a step from the state the other events reach. -/
theorem run_concat {s u : σ} {es : List ε} {e : ε} :
    run step s (es ++ [e]) = some u ↔
      ∃ t, run step s es = some t ∧ step t e = some u := by
  simp [run_append_eq_some]

variable {step}

/-- What relates the events so far to the state reached is proved one step at a time. -/
theorem run_history {s : σ} {P : List ε → σ → Prop} (hnil : P [] s)
    (hstep : ∀ es t e u, run step s es = some t → P es t → step t e = some u → P (es ++ [e]) u)
    {es : List ε} {t : σ} (h : run step s es = some t) : P es t := by
  -- induction from the end of the run: its last step comes after the history of the others
  induction es using List.reverseRecOn generalizing t with
  | nil =>
    obtain rfl := Option.some.inj h
    exact hnil
  | append_singleton es e ih =>
    obtain ⟨m, hm, he⟩ := (run_concat step).mp h
    exact hstep es m e t hm (ih hm) he

/-- A property of states that every step preserves holds in every state of a run. -/
theorem run_invariant {s : σ} {P : σ → Prop} (hs : P s)
    (hstep : ∀ t e u, P t → step t e = some u → P u)
    {es : List ε} {t : σ} (h : run step s es = some t) : P t :=
  run_history (P := fun _ t => P t) hs (fun _ t e u _ ht he => hstep t e u ht he) h

variable (step) in
/-- A concrete run that ends in a state with `p`, by evaluation. -/
theorem exists_run_of_map (s : σ) (es : List ε) (p : σ → Bool)
    (h : (run step s es).map p = some true) : ∃ t, run step s es = some t ∧ p t = true :=
  Option.map_eq_some_iff.mp h

/-! ## Runs whose steps meet a condition -/

variable (step) in
/-- Every step of the run `es` from `s` meets `C`, which sees the events before the step,
    the state it is taken in and its event. -/
def Meets (C : List ε → σ → ε → Prop) (s : σ) (es : List ε) : Prop :=
  ∀ pre e post, es = pre ++ e :: post → ∀ t, run step s pre = some t → C pre t e

theorem meets_nil (C : List ε → σ → ε → Prop) (s : σ) : Meets step C s [] := by
  intro pre e post h
  simp at h

/-- The steps of `es ++ [e]` meet `C` when those of `es` do and the last one does. -/
theorem meets_concat {C : List ε → σ → ε → Prop} {s : σ} {es : List ε} {e : ε} :
    Meets step C s (es ++ [e]) ↔
      Meets step C s es ∧ ∀ t, run step s es = some t → C es t e := by
  -- cut the run at a step: it is the last one or one of those before
  constructor
  · intro h
    refine ⟨fun pre f post hes t ht => h pre f (post ++ [e]) (by simp [hes]) t ht,
      fun t ht => h es e [] rfl t ht⟩
  · rintro ⟨hes, he⟩ pre f post heq t ht
    rcases List.eq_nil_or_concat post with rfl | ⟨post, g, rfl⟩
    · -- the last step
      obtain ⟨rfl, hfe⟩ := List.append_inj' heq rfl
      obtain rfl : e = f := by simpa using hfe
      exact he t ht
    · -- a step of `es`
      have heq' : es ++ [e] = (pre ++ f :: post) ++ [g] := by simpa using heq
      exact hes pre f post (List.append_inj' heq' rfl).1 t ht

/-- The steps of `es ++ fs` meet `C` when those of `es` do and the events `fs` do in every
    state. -/
theorem meets_append_of_forall_mem {C : List ε → σ → ε → Prop} {s : σ} {es fs : List ε}
    (hes : Meets step C s es) (hfs : ∀ e ∈ fs, ∀ pre t, C pre t e) :
    Meets step C s (es ++ fs) := by
  -- from the end: the events `fs` are added one by one
  induction fs using List.reverseRecOn with
  | nil => simpa using hes
  | append_singleton fs f ih =>
    rw [← List.append_assoc, meets_concat]
    constructor
    · exact ih fun e he => hfs e (List.mem_append_left _ he)
    · intro t _
      exact hfs f (by simp) _ t

/-- The first steps of a run meet what all of them meet. -/
theorem meets_of_append {C : List ε → σ → ε → Prop} {s : σ} {es fs : List ε}
    (h : Meets step C s (es ++ fs)) : Meets step C s es := by
  intro pre e post heq t ht
  exact h pre e (post ++ fs) (by simp [heq]) t ht

/-- A run whose events meet the condition in every state meets it. -/
theorem meets_of_forall_mem {C : List ε → σ → ε → Prop} {s : σ} {es : List ε}
    (h : ∀ e ∈ es, ∀ pre t, C pre t e) : Meets step C s es := by
  intro pre e post hes t _
  exact h e (by simp [hes]) pre t

/-- A condition on an event and those before it, looked up at each place. -/
theorem meets_of_forall_getElem {C : List ε → ε → Prop} {s : σ} {es : List ε}
    (h : ∀ i : Fin es.length, C (es.take i) es[i]) : Meets step (fun pre _ e => C pre e) s es := by
  intro pre e post heq t _
  subst heq
  have hlt : pre.length < (pre ++ e :: post).length := by simp
  have hat := h ⟨pre.length, hlt⟩
  simpa using hat

variable (step) in
/-- Whether all steps of a run pass the test `c`. -/
def check (c : σ → ε → Bool) (s : σ) : List ε → Bool
  | [] => true
  | e :: es => c s e && (step s e).elim true fun t => check c t es

/-- A run of which each step passes a test meets what the test decides. -/
theorem meets_of_check {C : List ε → σ → ε → Prop} {c : σ → ε → Bool} {s : σ} {es : List ε}
    (hc : ∀ pre t e, c t e = true → C pre t e) (h : check step c s es = true) :
    Meets step C s es := by
  intro pre e post heq t ht
  refine hc pre t e ?_
  subst heq
  -- the test of the step after `pre` is one of those of the run
  induction pre generalizing s with
  | nil =>
    obtain rfl := Option.some.inj ht
    exact (Bool.and_eq_true_iff.mp h).1
  | cons f pre ih =>
    obtain ⟨m, hm, ht⟩ := Option.bind_eq_some_iff.mp ht
    have hrest := (Bool.and_eq_true_iff.mp h).2
    rw [hm] at hrest
    exact ih ht hrest

/-- `run_history` for the runs whose steps all meet `C`. -/
theorem run_history_of_meets {C : List ε → σ → ε → Prop} {s : σ} {P : List ε → σ → Prop}
    (hnil : P [] s)
    (hstep : ∀ es t e u, P es t → C es t e → step t e = some u → P (es ++ [e]) u)
    {es : List ε} {t : σ} (hC : Meets step C s es) (h : run step s es = some t) : P es t := by
  -- as for `run_history`, with the condition of the last step from `meets_concat`
  induction es using List.reverseRecOn generalizing t with
  | nil =>
    obtain rfl := Option.some.inj h
    exact hnil
  | append_singleton es e ih =>
    obtain ⟨m, hm, he⟩ := (run_concat step).mp h
    obtain ⟨hes, hlast⟩ := meets_concat.mp hC
    exact hstep es m e t (ih hes hm) (hlast m hm) he

/-- `run_invariant` for the runs whose steps all meet `C`. -/
theorem run_invariant_of_meets {C : List ε → σ → ε → Prop} {s : σ} {P : σ → Prop} (hs : P s)
    (hstep : ∀ es t e u, P t → C es t e → step t e = some u → P u)
    {es : List ε} {t : σ} (hC : Meets step C s es) (h : run step s es = some t) : P t :=
  run_history_of_meets (P := fun _ t => P t) hs (fun es t e u ht hc he => hstep es t e u ht hc he)
    hC h

/-- Along a run two conditions that agree where an invariant holds are met together. -/
theorem meets_iff_meets {I : σ → Prop} {C D : σ → ε → Prop} {s : σ} (hI : I s)
    (hstep : ∀ t e u, I t → step t e = some u → I u ∧ (C t e ↔ D t e))
    {es : List ε} {t : σ} (h : run step s es = some t) :
    Meets step (fun _ => C) s es ↔ Meets step (fun _ => D) s es := by
  -- the invariant is carried along, since the conditions agree only where it holds
  have hrun := run_history (P := fun es t =>
    I t ∧ (Meets step (fun _ => C) s es ↔ Meets step (fun _ => D) s es)) ?_ ?_ h
  · exact hrun.2
  · exact ⟨hI, iff_of_true (meets_nil _ s) (meets_nil _ s)⟩
  · rintro es t e u ht ⟨hIt, ih⟩ he
    obtain ⟨hIu, hCD⟩ := hstep t e u hIt he
    refine ⟨hIu, ?_⟩
    rw [meets_concat, meets_concat, ih]
    -- both conditions are about the one state that the rest of the run reaches
    refine and_congr_right fun _ => ?_
    constructor
    · intro hC t' ht'
      obtain rfl := Option.some.inj (ht.symm.trans ht')
      exact hCD.mp (hC t ht)
    · intro hD t' ht'
      obtain rfl := Option.some.inj (ht.symm.trans ht')
      exact hCD.mpr (hD t ht)

/-! ## What holds all along a run -/

variable (step) in
/-- `P` holds in every state that the run `es` from `s` goes through. -/
def Always (P : σ → Prop) (s : σ) (es : List ε) : Prop :=
  ∀ pre post, es = pre ++ post → ∀ t, run step s pre = some t → P t

/-- Before any event there is only the state that the run begins in. -/
theorem always_nil {P : σ → Prop} {s : σ} : Always step P s [] ↔ P s := by
  constructor
  · intro h
    exact h [] [] rfl s rfl
  · -- the empty run has one state
    intro hs pre post heq t ht
    obtain ⟨rfl, -⟩ := List.append_eq_nil_iff.mp heq.symm
    obtain rfl := Option.some.inj ht
    exact hs

/-- The last state of a run comes after those of the rest of it. -/
theorem always_concat {P : σ → Prop} {s u : σ} {es : List ε} {e : ε}
    (hu : run step s (es ++ [e]) = some u) :
    Always step P s (es ++ [e]) ↔ Always step P s es ∧ P u := by
  constructor
  · intro h
    refine ⟨fun pre post heq => ?_, h (es ++ [e]) [] (by simp) u hu⟩
    exact h pre (post ++ [e]) (by simp [heq])
  · rintro ⟨hes, hlast⟩ pre post heq t ht
    rcases List.eq_nil_or_concat post with rfl | ⟨post, f, rfl⟩
    · -- the whole run
      rw [List.append_nil] at heq
      rw [← heq, hu] at ht
      exact Option.some.inj ht ▸ hlast
    · have heq' : es ++ [e] = (pre ++ post) ++ [f] := by simpa using heq
      exact hes pre post (List.append_inj' heq' rfl).1 t ht

/-- The exact condition for `P` to hold all along a run, from the exact condition for a
    step to keep it. -/
theorem always_iff_meets {P : σ → Prop} {C : σ → ε → Prop} {s : σ} (hs : P s)
    (hstep : ∀ t e u, P t → step t e = some u → (P u ↔ C t e))
    {es : List ε} {t : σ} (h : run step s es = some t) :
    Always step P s es ↔ Meets step (fun _ => C) s es := by
  refine run_history (P := fun es _ => Always step P s es ↔ Meets step (fun _ => C) s es)
    ?_ ?_ h
  · exact iff_of_true (always_nil.mpr hs) (meets_nil _ s)
  · intro es t e u ht ih he
    have hu : run step s (es ++ [e]) = some u := (run_concat step).mpr ⟨t, ht, he⟩
    rw [always_concat hu, meets_concat, ← ih]
    -- the state before the last step has `P`, so `hstep` applies to it either way
    constructor
    · rintro ⟨hes, hlast⟩
      refine ⟨hes, fun t' ht' => ?_⟩
      obtain rfl := Option.some.inj (ht.symm.trans ht')
      exact (hstep t e u (hes es [] (by simp) t ht) he).mp hlast
    · rintro ⟨hes, hlast⟩
      exact ⟨hes, (hstep t e u (hes es [] (by simp) t ht) he).mpr (hlast t ht)⟩

/-- `always_iff_meets` with an invariant that the steps keep as long as `P` holds. -/
theorem always_iff_meets_of_invariant {I P : σ → Prop} {C : σ → ε → Prop} {s : σ} (hI : I s)
    (hs : P s) (hstep : ∀ t e u, I t → P t → step t e = some u → I u ∧ (P u ↔ C t e))
    {es : List ε} {t : σ} (h : run step s es = some t) :
    Always step P s es ↔ Meets step (fun _ => C) s es := by
  have hiff := always_iff_meets (P := fun t => I t ∧ P t) ⟨hI, hs⟩ (fun t e u ht he => by
    obtain ⟨hu, hiff⟩ := hstep t e u ht.1 ht.2 he
    rw [and_iff_right hu]
    exact hiff) h
  rw [← hiff]
  constructor
  · intro hP pre post heq t ht
    refine ⟨?_, hP pre post heq t ht⟩
    -- the invariant holds along a run whose states have `P`
    have hpre : Always step P s pre := fun a b hab => hP a (b ++ post) (by simp [heq, hab])
    revert hpre
    refine run_history (P := fun es t => Always step P s es → I t) (fun _ => hI) ?_ ht
    intro es t e u ht ih he hes
    obtain ⟨hes, -⟩ := (always_concat ((run_concat step).mpr ⟨t, ht, he⟩)).mp hes
    exact (hstep t e u (ih hes) (hes es [] (by simp) t ht) he).1
  · intro hP pre post heq t ht
    exact (hP pre post heq t ht).2

variable (step) in
/-- `P` holds of every state that the run `es` from `s` goes through and the events before it. -/
def AlwaysAfter (P : List ε → σ → Prop) (s : σ) (es : List ε) : Prop :=
  ∀ pre post, es = pre ++ post → ∀ t, run step s pre = some t → P pre t

/-- The last event of a run adds its own state to those that must hold. -/
theorem alwaysAfter_concat {P : List ε → σ → Prop} {s u : σ} {es : List ε} {e : ε}
    (hu : run step s (es ++ [e]) = some u) :
    AlwaysAfter step P s (es ++ [e]) ↔ AlwaysAfter step P s es ∧ P (es ++ [e]) u := by
  constructor
  · intro h
    refine ⟨fun pre post heq => ?_, h (es ++ [e]) [] (by simp) u hu⟩
    exact h pre (post ++ [e]) (by simp [heq])
  · rintro ⟨hes, hlast⟩ pre post heq t ht
    rcases List.eq_nil_or_concat post with rfl | ⟨post, f, rfl⟩
    · -- the whole run
      rw [List.append_nil] at heq
      subst heq
      obtain rfl := Option.some.inj (hu.symm.trans ht)
      exact hlast
    · have heq' : es ++ [e] = (pre ++ post) ++ [f] := by simpa using heq
      exact hes pre post (List.append_inj' heq' rfl).1 t ht

/-- The exact condition for `P` to hold all along a run, from the exact condition for a step,
    where the steps keep an invariant of the state and the events before it. -/
theorem alwaysAfter_iff_meets {I P : List ε → σ → Prop} {C : List ε → σ → ε → Prop} {s : σ}
    (hI : I [] s) (hP : P [] s)
    (hstep : ∀ es t e u, I es t → step t e = some u →
      I (es ++ [e]) u ∧ (P (es ++ [e]) u ↔ C es t e))
    {es : List ε} {t : σ} (h : run step s es = some t) :
    AlwaysAfter step P s es ↔ Meets step C s es := by
  have hrun := run_history (P := fun es t =>
    I es t ∧ (AlwaysAfter step P s es ↔ Meets step C s es)) ?_ ?_ h
  · exact hrun.2
  · refine ⟨hI, iff_of_true (fun pre post heq t ht => ?_) (meets_nil _ s)⟩
    obtain ⟨rfl, -⟩ := List.append_eq_nil_iff.mp heq.symm
    obtain rfl := Option.some.inj ht
    exact hP
  · rintro es t e u ht ⟨hIt, ih⟩ he
    obtain ⟨hIu, hiff⟩ := hstep es t e u hIt he
    refine ⟨hIu, ?_⟩
    rw [alwaysAfter_concat ((run_concat step).mpr ⟨t, ht, he⟩), meets_concat, ih, hiff]
    -- the condition is about the one state that the rest of the run reaches
    refine and_congr_right fun _ => ⟨fun hC t' ht' => ?_, fun hC => hC t ht⟩
    obtain rfl := Option.some.inj (ht.symm.trans ht')
    exact hC

/-! ## Runs with an observer -/

variable {γ : Type*}

variable (step) in
/-- The machine with an observer who keeps a note of type `γ`, changed at each step. -/
def observe (note : σ → ε → γ → γ) (p : σ × γ) (e : ε) : Option (σ × γ) :=
  (step p.1 e).map fun t => (t, note p.1 e p.2)

/-- The observer takes no part in the run. -/
theorem run_observe (note : σ → ε → γ → γ) (s : σ) (g : γ) (es : List ε) :
    (run (observe step note) (s, g) es).map Prod.fst = run step s es := by
  -- the observer is dropped at each step
  induction es generalizing s g with
  | nil => rfl
  | cons e es ih =>
    rw [run_cons, run_cons, observe]
    cases hs : step s e with
    | none => rfl
    | some t => exact ih t (note s e g)

/-- A run can be observed from any value on. -/
theorem exists_run_observe (note : σ → ε → γ → γ) {s t : σ} (g : γ) {es : List ε}
    (h : run step s es = some t) :
    ∃ g', run (observe step note) (s, g) es = some (t, g') := by
  rw [← run_observe note s g es] at h
  obtain ⟨⟨t', g'⟩, hrun, rfl⟩ := Option.map_eq_some_iff.mp h
  exact ⟨g', hrun⟩

/-- A condition on the states alone is met with the observer when it is met without. -/
theorem meets_observe (note : σ → ε → γ → γ) {C : List ε → σ → ε → Prop} {s : σ} {g : γ}
    {es : List ε} :
    Meets (observe step note) (fun pre p e => C pre p.1 e) (s, g) es ↔ Meets step C s es := by
  -- the runs with the observer are those without, by `run_observe`
  constructor
  · intro h pre e post heq t ht
    obtain ⟨g', hrun⟩ := exists_run_observe note g ht
    exact h pre e post heq (t, g') hrun
  · rintro h pre e post heq ⟨t, g'⟩ ht
    refine h pre e post heq t ?_
    rw [← run_observe note s g pre, ht]
    rfl

/-! ## What a run puts out -/

variable (step) in
/-- The outputs of a run, in order, where `out s e` is what the step `e` puts out in `s`. -/
def emits (out : σ → ε → List ω) (s : σ) : List ε → List ω
  | [] => []
  | e :: es => out s e ++ ((step s e).elim [] fun t => emits out t es)

/-- The last event of a run adds its own output. -/
theorem emits_concat (out : σ → ε → List ω) {s t : σ} {es : List ε} (e : ε)
    (h : run step s es = some t) :
    emits step out s (es ++ [e]) = emits step out s es ++ out t e := by
  -- induction on the events before the last one
  induction es generalizing s with
  | nil =>
    obtain rfl := Option.some.inj h
    cases hs : step s e <;> simp [emits, hs]
  | cons f es ih =>
    obtain ⟨m, hm, ht⟩ := Option.bind_eq_some_iff.mp h
    simp only [List.cons_append, emits, hm, Option.elim_some, ih ht, List.append_assoc]

end Machine
