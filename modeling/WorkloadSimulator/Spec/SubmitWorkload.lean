import WorkloadSimulator.ForStd.List
import WorkloadSimulator.ForStd.Machine
import WorkloadSimulator.Stress.Server

/-!
# Whether the server knows what its pool runs

`submit_workload` stops the pool only after it has checked the submission, but it puts the
new workload in `g_workload` before: when it rejects a submission while the pool runs, the
pool goes on with the old workload and `/stats` lists the new one.

## Key results

- `submits`: the three ways in which a submission leaves the globals
- `Consistent.stats`: `/stats` lists the queries that run
- `consistent_iff`: while the pool is not paused, `g_workload` is the workload that it runs,
  in every state of a run, exactly when each submission rejected while the pool runs has the
  entries of the workload that it runs
-/

namespace WorkloadSimulator.Stress.Server

variable {σ : Type} [DecidableEq σ] {s s' : Server σ} {form : Form σ} {env : Env}
  {pool : WorkerPool σ}

/-- While the pool is not paused, `g_workload` is the workload that was sent to it. -/
def Consistent (s : Server σ) : Prop :=
  ∀ pool ∈ s.gWorkers, pool.paused = false →
    ∃ g w, s.gWorkload = some g ∧ pool.workload = some w ∧ g.entries.Perm w.entries

/-! ## A submission -/

/-- The entries of a submission, up to the first one that raises an exception. -/
def filled (form : Form σ) : QueryMap :=
  match form.workload with
  | none => ∅
  | some items => (fill ∅ items).1

/-- Whether a submission is rejected before anything has stopped the pool: its workload is
    malformed or empty, or its settings are no settings, or they are those of the pool, all
    processes are alive, and the workload is not valid. -/
def rejects (pool : WorkerPool σ) (form : Form σ) (env : Env) : Bool :=
  match form.workload with
  | none => true
  | some items => match fill ∅ items with
    | (_, some _) => true
    | (g, none) => g.keys.length == 0 || match form.settings with
      | .error _ => true
      | .ok settings => env.alive && pool.settingsDict == settings && env.aliveChecked &&
          !(validateWorkload g env.connection env.validation).isOk

/-- What a submission leaves: it is rejected while the pool stays as it is, or there is no
    pool but one that is paused, or a pool runs the new workload. -/
inductive Submits (s : Server σ) (form : Form σ) (env : Env) : Server σ → Prop where
  | rejected (gSettings : Option σ) (h : ∀ pool ∈ s.gWorkers, rejects pool form env = true) :
      Submits s form env { s with gWorkload := some (filled form), gSettings }
  | stopped (gSettings : Option σ) {gWorkers : Option (WorkerPool σ)}
      (hpaused : ∀ pool ∈ gWorkers, pool.paused = true)
      (h : ∀ pool ∈ s.gWorkers, rejects pool form env = false) :
      Submits s form env { s with gWorkload := some (filled form), gWorkers, gSettings }
  | sent (gSettings : Option σ) (pool : WorkerPool σ)
      (h : ∀ pool ∈ s.gWorkers, rejects pool form env = false) :
      Submits s form env { s with
        gWorkload := some (filled form)
        gWorkers := some (pool.sendWorkload (filled form))
        gSettings }

omit [DecidableEq σ] in
/-- The end of a submission: the workload is not valid, or the pool has been paused, or it
    has been sent the workload. -/
theorem submitTo_cases (s : Server σ) (g : QueryMap) (pool : WorkerPool σ) (env : Env) :
    (env.aliveChecked = true ∧ (validateWorkload g env.connection env.validation).isOk = false ∧
        (s.submitTo g pool env).1 = { s with gWorkers := some pool }) ∨
      ((env.aliveChecked && !(validateWorkload g env.connection env.validation).isOk) = false ∧
        ((s.submitTo g pool env).1 = { s with gWorkers := some pool.pause } ∨
          (s.submitTo g pool env).1 = { s with gWorkers := some (pool.sendWorkload g) })) := by
  unfold submitTo checkWorkers
  cases env.aliveChecked with
  | false => exact .inr ⟨rfl, .inl rfl⟩
  | true =>
    -- a workload that is not valid leaves the pool as it is
    cases hv : validateWorkload g env.connection env.validation with
    | error e =>
      refine .inl ⟨rfl, rfl, ?_⟩
      cases e <;> rfl
    | ok =>
      refine .inr ⟨rfl, ?_⟩
      cases env.pauses with
      | false => exact .inl rfl
      | true => exact .inr rfl

/-- A submission to a pool that has just been made, in place of one that would not reject
    it. -/
theorem submits_new (settings : σ) (h : ∀ pool ∈ s.gWorkers, rejects pool form env = false) :
    Submits s form env
      (submitTo { s with gWorkload := some (filled form), gSettings := some settings }
        (filled form) (.new settings) env).1 := by
  have hpaused : ∀ p ∈ some (WorkerPool.new settings), p.paused = true := by
    rintro p ⟨⟩
    rfl
  -- the pool may not start, not validate the workload, or be sent it
  rcases submitTo_cases { s with gWorkload := some (filled form), gSettings := some settings }
    (filled form) (.new settings) env with ⟨-, -, heq⟩ | ⟨-, heq | heq⟩
  · rw [heq]
    exact .stopped _ hpaused h
  · rw [heq]
    exact .stopped _ hpaused h
  · rw [heq]
    exact .sent _ _ h

/-- A submission to the pool that is there. -/
theorem submits_same (settings : σ) (hpool : s.gWorkers = some pool)
    (h : rejects pool form env = (env.aliveChecked &&
      !(validateWorkload (filled form) env.connection env.validation).isOk)) :
    Submits s form env
      (submitTo { s with gWorkload := some (filled form), gSettings := some settings }
        (filled form) pool env).1 := by
  -- the pool is the one that was tested
  have hall : ∀ {b : Bool}, rejects pool form env = b →
      ∀ p ∈ s.gWorkers, rejects p form env = b := by
    intro b hb p hp
    rw [hpool] at hp
    obtain rfl := Option.some.inj hp
    exact hb
  rcases submitTo_cases { s with gWorkload := some (filled form), gSettings := some settings }
    (filled form) pool env with ⟨halive, hvalid, heq⟩ | ⟨hvalid, heq | heq⟩
  · rw [heq, ← hpool]
    exact .rejected _ (hall (by simp [h, halive, hvalid]))
  · rw [heq]
    refine .stopped _ ?_ (hall (h.trans hvalid))
    rintro p ⟨⟩
    rfl
  · rw [heq]
    exact .sent _ _ (hall (h.trans hvalid))

/-- Every submission ends in one of these ways. -/
theorem submits (s : Server σ) (form : Form σ) (env : Env) :
    Submits s form env (s.submitWorkload form env).1 := by
  -- the checks in the order of the source: the form, its queries, that there are any, and the
  -- settings
  unfold submitWorkload
  split
  · rename_i hform
    have hfilled : filled form = ∅ := by simp [filled, hform]
    rw [← hfilled]
    exact .rejected s.gSettings fun pool _ => by simp [rejects, hform]
  · rename_i items hform
    split
    · rename_i g e hfill
      have hfilled : filled form = g := by simp [filled, hform, hfill]
      rw [← hfilled]
      exact .rejected s.gSettings fun pool _ => by simp [rejects, hform, hfill]
    · rename_i g hfill
      obtain rfl : filled form = g := by simp [filled, hform, hfill]
      dsimp only
      split
      · rename_i hempty
        exact .rejected s.gSettings fun pool _ => by simp [rejects, hform, hfill, hempty]
      · rename_i hsome
        split
        · rename_i hsettings
          exact .rejected s.gSettings fun pool _ => by simp [rejects, hform, hfill, hsettings]
        · rename_i hsettings
          exact .rejected s.gSettings fun pool _ => by simp [rejects, hform, hfill, hsettings]
        · rename_i settings hsettings
          have hrejects : ∀ pool, rejects pool form env =
              (env.alive && pool.settingsDict == settings && env.aliveChecked &&
                !(validateWorkload (filled form) env.connection env.validation).isOk) := by
            intro pool
            simp [rejects, hform, hfill, hsettings, hsome]
          cases hpool : s.gWorkers with
          | none =>
            have hnone : ∀ pool ∈ s.gWorkers, rejects pool form env = false := by simp [hpool]
            dsimp only [Option.map_none, Option.filter_none]
            split
            · simpa [hpool] using submits_new settings hnone
            · exact .stopped _ (by simp) hnone
          | some pool =>
            cases hsame : env.alive && pool.settingsDict == settings with
            | true =>
              have hfilter : (some (pool.isAlive env.alive)).filter (fun pool =>
                  env.alive && pool.settingsDict == settings) = some pool := by
                simp_all [WorkerPool.isAlive]
              simp only [Option.map_some, hfilter]
              simpa [hpool] using
                submits_same settings hpool (by rw [hrejects, hsame, Bool.true_and])
            | false =>
              -- `reset_workers`: the old pool is cleared
              have hother : ∀ p ∈ s.gWorkers, rejects p form env = false := by
                intro p hp
                rw [hpool] at hp
                obtain rfl := Option.some.inj hp
                simp [hrejects, hsame]
              have hfilter : (some (pool.isAlive env.alive)).filter (fun pool =>
                  env.alive && pool.settingsDict == settings) = none := by
                cases halive : env.alive <;> simp_all [WorkerPool.isAlive]
              simp only [Option.map_some, hfilter]
              split
              · simpa [hpool] using submits_new settings hother
              · refine .stopped _ ?_ hother
                rintro p ⟨⟩
                rfl

/-! ## Consistency -/

/-- A submission that is rejected before the pool is stopped has, if the pool runs, the
    entries of the workload that it runs. -/
def RejectsSame (s : Server σ) : Request σ → Prop
  | .workload form env => ∀ pool ∈ s.gWorkers, pool.paused = false →
      rejects pool form env = true →
        ∀ w ∈ pool.workload, (filled form).entries.Perm w.entries
  | _ => True

omit [DecidableEq σ] in
/-- Requests that leave the workload, and the pool unless they pause it. -/
theorem Consistent.congr (hs : s.Consistent) (hg : s'.gWorkload = s.gWorkload)
    (hpool : ∀ p ∈ s'.gWorkers, p ∈ s.gWorkers ∨ p.paused = true) : s'.Consistent := by
  intro p hp hrun
  rcases hpool p hp with hold | hpaused
  · rw [hg]
    exact hs p hold hrun
  · rw [hpaused] at hrun
    cases hrun

omit [DecidableEq σ] in
/-- The pool is there as it was, or it has been cleared. -/
theorem mem_isAlive {p : WorkerPool σ} {alive : Bool} (hpool : s.gWorkers = some pool)
    (hp : p ∈ some (pool.isAlive alive)) : p ∈ s.gWorkers ∨ p.paused = true := by
  obtain rfl := Option.some.inj hp
  cases alive with
  | true => exact .inl hpool
  | false => exact .inr rfl

omit [DecidableEq σ] in
/-- `/stats` leaves the workload, and the pool unless it finds it dead. -/
theorem Consistent.getStats (hs : s.Consistent) (env : Env) :
    (s.getStats env).1.Consistent := by
  unfold Server.getStats
  split
  · exact hs
  · rename_i pool hpool
    -- the check may pause the pool, and changes nothing else
    have hchecked : Consistent (if s.statCheckCount % fullCheckPeriod = 0 then
        { s with gWorkers := some (pool.isAlive env.aliveChecked) } else s) := by
      split
      · exact hs.congr rfl fun p hp => mem_isAlive hpool hp
      · exact hs
    dsimp only
    generalize (if s.statCheckCount % fullCheckPeriod = 0 then _ else s) = t at hchecked ⊢
    have hcounted : Consistent { t with statCheckCount := t.statCheckCount + 1 } :=
      hchecked.congr rfl fun p hp => .inl hp
    split
    · exact hchecked
    · split
      · exact hcounted
      · split <;> exact hcounted

/-- A request keeps the server and its pool consistent exactly in these cases. -/
theorem consistent_step_iff {r : Request σ} (hs : s.Consistent) (h : s.step r = some s') :
    s'.Consistent ↔ s.RejectsSame r := by
  obtain rfl := Option.some.inj h
  cases r with
  | workload form env =>
    have hsubmits := submits s form env
    show (s.submitWorkload form env).1.Consistent ↔ _
    generalize (s.submitWorkload form env).1 = s' at hsubmits ⊢
    cases hsubmits with
    -- the pool goes on with the old workload while the new one is stored
    | rejected gSettings hrejects =>
      constructor
      · intro hall pool hpool hrun _ w hw
        obtain ⟨g, v, hg, hv, hperm⟩ := hall pool hpool hrun
        obtain rfl := Option.some.inj hg
        obtain rfl := Option.some.inj (hw.symm.trans hv)
        exact hperm
      · intro hsame pool hpool hrun
        obtain ⟨-, w, -, hw, -⟩ := hs pool hpool hrun
        exact ⟨_, w, rfl, hw, hsame pool hpool hrun (hrejects pool hpool) w hw⟩
    | stopped gSettings hpaused hrejects =>
      refine iff_of_true ?_ fun pool hpool _ hr => ?_
      · intro pool hpool hrun
        rw [hpaused pool hpool] at hrun
        cases hrun
      · rw [hrejects pool hpool] at hr
        cases hr
    | sent gSettings pool hrejects =>
      refine iff_of_true ?_ fun pool hpool _ hr => ?_
      · rintro p ⟨⟩ -
        exact ⟨_, _, rfl, rfl, .refl _⟩
      · rw [hrejects pool hpool] at hr
        cases hr
  | pause env =>
    refine iff_of_true ?_ trivial
    show (s.pause env).1.Consistent
    unfold pause
    split
    · exact hs
    · rename_i pool hpool
      split
      · exact hs
      · dsimp only
        split
        · exact hs.congr rfl fun p hp => mem_isAlive hpool hp
        · refine hs.congr rfl ?_
          rintro p ⟨⟩
          exact .inr rfl
  | stats env => exact iff_of_true (hs.getStats env) trivial
  | status env =>
    refine iff_of_true ?_ trivial
    show (s.getStatus env).1.Consistent
    unfold getStatus
    split
    · exact hs
    · rename_i pool hpool
      dsimp only
      split <;> exact hs.congr rfl fun p hp => mem_isAlive hpool hp

omit [DecidableEq σ] in
/-- What `/stats` lists are the queries of the workload that runs. -/
theorem Consistent.stats {ret : List (Int × ℚ)} (hs : s.Consistent)
    (h : s.getStats env = (s', .stats ret)) :
    ∀ pool ∈ s'.gWorkers, pool.paused = false →
      ∃ w, pool.workload = some w ∧ (ret.map Prod.fst).Perm w.keys := by
  have hs' : s'.Consistent := by
    have hgetStats := hs.getStats env
    rwa [h] at hgetStats
  intro pool hpool hrun
  obtain ⟨g, w, hg, hw, hperm⟩ := hs' pool hpool hrun
  refine ⟨w, hw, ?_⟩
  -- the keys of what is listed are those of `g_workload`
  have hkeys : ret.map Prod.fst = g.keys := by
    unfold Server.getStats at h
    split at h
    · cases h
    · dsimp only at h
      split at h
      · cases h
      · split at h
        · cases h
        · rename_i g' hg'
          split at h
          · rename_i ret' hret
            cases h
            obtain rfl : g = g' := Option.some.inj (hg.symm.trans hg')
            refine List.map_of_mapM_eq_some hret fun x y hxy => ?_
            obtain ⟨v, -, rfl⟩ := Option.map_eq_some_iff.mp hxy
            rfl
          · cases h
  rw [hkeys]
  exact hperm.map _

variable {settings : σ} {rs : List (Request σ)}

/-- While the pool is not paused, `g_workload` is the workload that it runs, in every state
    of a run, exactly when each submission rejected while the pool runs has the entries of
    the workload that it runs. -/
theorem consistent_iff (h : Machine.run step (init settings) rs = some s) :
    Machine.Always step Consistent (init settings) rs ↔
      Machine.Meets step (fun _ => RejectsSame) (init settings) rs :=
  Machine.always_iff_meets (fun _ hpool => nomatch hpool)
    (fun _ _ _ ht he => consistent_step_iff ht he) h

/-- An environment in which everything goes well. -/
def calmEnv : Env :=
  { alive := true, created := true, aliveChecked := true, connection := .ok,
    validation := .answers fun _ => none, pauses := true, sends := true,
    qpsArray := fun _ => some 0 }

/-- An empty workload is rejected while another one runs. -/
theorem rejected_while_running :
    ¬ ∀ (settings : Nat) rs s, Machine.run step (init settings) rs = some s →
      Machine.Always step Consistent (init settings) rs := by
  intro hall
  let rs : List (Request Nat) :=
    [.workload ⟨some [⟨.ok 0, .ok 5, .ok 5, "a"⟩], .ok 1⟩ calmEnv,
      .workload ⟨some [], .ok 1⟩ calmEnv]
  obtain ⟨s, hs, hp⟩ := Machine.exists_run_of_map step (init 0) rs
    (fun s => s.gWorkload.any (fun g => g.keys.length == 0) && s.gWorkers.any fun pool =>
      !pool.paused && pool.workload.any fun w => w.keys.length == 1)
    (by decide +kernel)
  simp only [Bool.and_eq_true, Option.any_eq_true, Bool.not_eq_true', beq_iff_eq] at hp
  obtain ⟨⟨g, hg, hempty⟩, pool, hpool, hrun, w, hw, hone⟩ := hp
  obtain ⟨g', w', hg', hw', hperm⟩ := hall 0 rs s hs rs [] (List.append_nil rs).symm s hs pool
    hpool hrun
  -- the stored workload is empty, and the pool runs one query
  obtain rfl := Option.some.inj (hg.symm.trans hg')
  obtain rfl := Option.some.inj (hw.symm.trans hw')
  have hlen := hperm.length_eq
  simp only [AList.keys, List.keys, List.length_map] at hempty hone
  omega

/-- The empty workload is rejected after the pause. -/
theorem rejected_while_paused :
    ∃ s, Machine.run step (init 0)
        [.workload ⟨some [⟨.ok 0, .ok 5, .ok 5, "a"⟩], .ok 1⟩ calmEnv, .pause calmEnv,
          .workload ⟨some [], .ok 1⟩ calmEnv] = some s ∧
      Machine.Always step Consistent (init 0)
        [.workload ⟨some [⟨.ok 0, .ok 5, .ok 5, "a"⟩], .ok 1⟩ calmEnv, .pause calmEnv,
          .workload ⟨some [], .ok 1⟩ calmEnv] := by
  refine ⟨_, rfl, (consistent_iff rfl).mpr (Machine.meets_of_check
    (c := fun s r => match r with
      | .workload form env => s.gWorkers.all fun pool => pool.paused || !rejects pool form env
      | _ => true) ?_ (by decide +kernel))⟩
  -- in this run no submission is rejected while the pool runs
  intro pre s r hc
  cases r with
  | workload form env =>
    intro pool hpool hrun hrejects
    dsimp only at hc
    rw [Option.mem_def.mp hpool] at hc
    simp [hrun, hrejects] at hc
  | pause | stats | status => trivial

end WorkloadSimulator.Stress.Server
