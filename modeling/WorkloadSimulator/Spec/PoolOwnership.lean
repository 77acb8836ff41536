import WorkloadSimulator.ForStd.List
import WorkloadSimulator.ForStd.Machine
import WorkloadSimulator.Spec.SubmitWorkload
import WorkloadSimulator.Stress.Processes

/-!
# Who owns the processes of the pools

A pool is cleared through its list `workers`, so a process that is alive has to be in the list
of the pool that the server has. The constructor of a pool puts each process into its list,
but the server gets the list only when the constructor returns: the processes that one has
started before it raises an exception are in no list.

## Key results

- `construct_eq`: when the constructor returns, and the processes that it leaves behind
- `owned_step_iff`: what a request must not do
- `owned_iff`: every process that is alive is in the list of the server's pool, all along a
  run, exactly when no request makes a pool whose constructor fails and leaves a process alive
-/

namespace WorkloadSimulator.Stress

/-! ## The constructor -/

/-- Whether the constructor returns: the worker count is a number that is not negative, and
    everything that it asks for can be made. -/
def completes (os : Launches) (nworkers : Option Int) : Bool :=
  os.arrays && nworkers.any fun n =>
    decide (0 ≤ n) && (List.range (n.toNat + 1)).all os.starts

/-- The processes that the constructor starts, by their places in the pool. -/
def launched (os : Launches) (nworkers : Option Int) : List Nat :=
  match nworkers with
  | some n => if os.arrays then (List.range (n.toNat + 1)).takeWhile os.starts else []
  | none => []

variable {os : Launches} {next : Nat}

/-- The first `k` workers, in a list with `m` places left. -/
theorem foldlM_launchWorker (os : Launches) (next k m : Nat) :
    (List.range k).foldlM (launchWorker os next) ([], List.replicate (k + m) none) =
      if (List.range k).all os.starts then
        .ok ((List.range k).map (next + ·),
          (List.range k).map (fun i => some (next + i)) ++ List.replicate m none)
      else .error (((List.range k).takeWhile os.starts).map (next + ·)) := by
  induction k generalizing m with
  | zero => simp [pure, Except.pure]
  | succ k ih =>
    -- the last launch writes the first of the places that are left
    have hlen : k + 1 + m = k + (m + 1) := by omega
    rw [List.range_succ, List.foldlM_append, hlen, ih (m + 1), List.all_append,
      List.takeWhile_append_eq_ite]
    cases (List.range k).all os.starts with
    | false => rfl
    | true =>
      have hset : ((List.range k).map (fun i => some (next + i)) ++
          List.replicate (m + 1) none).set k (some (next + k)) =
            (List.range k).map (fun i => some (next + i)) ++
              some (next + k) :: List.replicate m none := by
        rw [List.set_append_right _ _ (by simp), List.length_map, List.length_range,
          Nat.sub_self]
        rfl
      cases hk : os.starts k with
      | true => simp [launchWorker, hk, hset, bind, Except.bind, pure, Except.pure]
      | false => simp [launchWorker, hk, bind, Except.bind]

/-- The constructor puts the processes that it starts into its list, or leaves them behind. -/
theorem construct_eq (os : Launches) (next : Nat) (nworkers : Option Int) :
    construct os next nworkers =
      if completes os nworkers then
        -- by the number of workers, whether there is memory for the arrays, and whether each
        -- process starts
        .ok ((launched os nworkers).map (next + ·),
          (launched os nworkers).map fun i => some (next + i))
      else .error ((launched os nworkers).map (next + ·)) := by
  cases nworkers with
  | none => simp [construct, completes, launched]
  | some n =>
    cases ha : os.arrays with
    | false => simp [construct, completes, launched, ha]
    | true =>
      -- room for the workers, and for `stat_loop` unless the count is negative
      obtain ⟨m, hm, hroom⟩ : ∃ m, (n + 1).toNat = n.toNat + m ∧ m = if 0 ≤ n then 1 else 0 := by
        refine ⟨_, ?_, rfl⟩
        split <;> omega
      simp only [construct, completes, launched, ha, if_true, Bool.true_and, Option.any_some,
        hm, foldlM_launchWorker, List.range_succ, List.all_append, List.takeWhile_append_eq_ite]
      -- one of the workers does not start, or all do
      cases (List.range n.toNat).all os.starts with
      | false => simp [bind, Except.bind]
      | true =>
        cases hk : os.starts n.toNat with
        | false => simp [launchStatProc, hk, bind, Except.bind]
        | true =>
          by_cases hn : 0 ≤ n
          · rw [if_pos hn] at hroom
            subst hroom
            simp [launchStatProc, hk, hn, bind, Except.bind]
          · rw [if_neg hn] at hroom
            subst hroom
            have hzero : n.toNat = 0 := by omega
            rw [hzero] at hk
            simp [launchStatProc, hk, hn, hzero, bind, Except.bind]

/-- The processes that are started are the first ones. -/
theorem launched_eq_range (os : Launches) (nworkers : Option Int) :
    ∃ k, launched os nworkers = List.range k := by
  -- those before the first one that does not start, if there is memory at all
  unfold launched
  split
  · split
    · rename_i n _
      have hprefix := List.takeWhile_prefix (l := List.range (n.toNat + 1)) os.starts
      rw [List.prefix_iff_eq_take.mp hprefix, List.take_range]
      exact ⟨_, rfl⟩
    · exact ⟨0, rfl⟩
  · exact ⟨0, rfl⟩

/-! ## The server's pool -/

namespace Server

variable {σ : Type}

/-- A submission that has reached a pool leaves a pool. -/
theorem isSome_submitTo (s : Server σ) (g : QueryMap) (pool : WorkerPool σ) (env : Env) :
    (s.submitTo g pool env).1.gWorkers.isSome = true := by
  unfold submitTo
  dsimp only
  split
  · rfl
  · split
    · rfl
    · rfl
    · split <;> rfl

variable [DecidableEq σ]

/-- A submission leaves the server with a pool if there was one, or if it makes one. -/
theorem isSome_submitWorkload (s : Server σ) (form : Form σ) (env : Env) :
    (s.submitWorkload form env).1.gWorkers.isSome =
      (s.gWorkers.isSome || (Host.reachesPool form).isSome && env.created) := by
  unfold submitWorkload Host.reachesPool
  -- by what ends the submission: no text, an entry, no query, the settings, or no new pool
  cases form.workload with
  | none => simp
  | some items =>
    dsimp only
    generalize fill ∅ items = filled
    obtain ⟨g, e⟩ := filled
    cases e with
    | some e => simp
    | none =>
      by_cases hempty : g.keys.length = 0
      · simp [hempty]
      · simp only [hempty, if_false]
        cases form.settings with
        | error e => cases e <;> simp [Except.toOption]
        | ok settings =>
          dsimp only [Except.toOption]
          split
          · rename_i pool hpool
            -- the pool that is kept is there
            have hsome : s.gWorkers.isSome = true := by
              obtain ⟨hmap, -⟩ := Option.filter_eq_some_iff.mp hpool
              obtain ⟨old, hold, -⟩ := Option.map_eq_some_iff.mp hmap
              rw [hold]
              rfl
            simp [isSome_submitTo, hsome]
          · split
            · rename_i hcreated
              simp [isSome_submitTo, hcreated]
            · rename_i hcreated
              simp [hcreated]

/-- The other requests leave it the pool that there is. -/
theorem isSome_handle {s : Server σ} (r : Request σ) (h : s.gWorkers.isSome = true) :
    (s.handle r).1.gWorkers.isSome = true := by
  -- the branches of each handler: none takes the pool away
  cases r with
  | workload form env =>
    show (s.submitWorkload form env).1.gWorkers.isSome = true
    rw [isSome_submitWorkload, h, Bool.true_or]
  | pause env =>
    show (s.pause env).1.gWorkers.isSome = true
    unfold pause
    split
    · exact h
    · split
      · exact h
      · dsimp only
        split <;> rfl
  | stats env =>
    show (s.getStats env).1.gWorkers.isSome = true
    unfold getStats
    split
    · exact h
    · dsimp only
      split
      · split <;> first | rfl | exact h
      · split
        · split <;> first | rfl | exact h
        · split <;> (split <;> first | rfl | exact h)
  | status env =>
    show (s.getStatus env).1.gWorkers.isSome = true
    unfold getStatus
    split
    · exact h
    · dsimp only
      split <;> rfl

end Server

namespace Host

variable {σ : Type} {h u : Host σ} {c : Course} {p : Nat}

/-! ## Lists that only get shorter -/

/-- A check leaves those that live on. -/
@[simp] theorem mem_live_passes {k : Nat} :
    p ∈ (h.passes c k).live ↔ p ∈ h.live ∧ c.lives k p = true :=
  List.mem_filter

/-- What the handlers see of the processes changes no field of the server. -/
@[simp] theorem checked_server : (h.checked c).server = h.server := by
  unfold checked afterIsAlive
  split <;> rfl

/-- Nor does it change the list of the pool. -/
@[simp] theorem checked_workers : (h.checked c).workers = h.workers := by
  unfold checked afterIsAlive
  split <;> rfl

/-- Nor the numbers to be given. -/
@[simp] theorem checked_next : (h.checked c).next = h.next := by
  unfold checked afterIsAlive
  split <;> rfl

/-- Nobody comes to life in a check. -/
theorem mem_live_of_checked (hp : p ∈ (h.checked c).live) : p ∈ h.live := by
  unfold checked afterIsAlive at hp
  rw [mem_live_passes] at hp
  split at hp
  · exact (mem_live_passes.mp hp.1).1
  · exact (mem_live_passes.mp (List.mem_of_mem_filter hp.1)).1

/-- Every process of a pool that is alive is in the list of the pool that the server has. -/
def Listed (h : Host σ) : Prop :=
  ∀ p ∈ h.live, h.server.gWorkers.isSome = true ∧ some p ∈ h.workers

/-- The processes that are alive are those of the server's pool, and clearing it stops them
    all. -/
def Owned (h : Host σ) : Prop := h.Listed ∧ h.clear.live = []

/-- The server's pool can be cleared. -/
theorem Listed.clear (hlisted : h.Listed) : h.clear.live = [] := by
  rw [Host.clear, List.filter_eq_nil_iff]
  intro p hp
  simp [(hlisted p hp).2]

/-- The processes are owned when each is in the list of the pool: then `clear` gets all of them. -/
theorem owned_iff_listed : h.Owned ↔ h.Listed :=
  ⟨fun hown => hown.1, fun hlisted => ⟨hlisted, hlisted.clear⟩⟩

/-- The list of the pool is one that the server has, and the numbers in it have been given. -/
structure Sound (h : Host σ) : Prop where
  isSome : h.workers ≠ [] → h.server.gWorkers.isSome = true
  lt_next : ∀ p, some p ∈ h.workers → p < h.next

/-- Processes die, and the list stays. -/
theorem Listed.mono (hlisted : h.Listed) (hlive : ∀ p ∈ u.live, p ∈ h.live)
    (hworkers : u.workers = h.workers)
    (hpool : h.server.gWorkers.isSome = true → u.server.gWorkers.isSome = true) : u.Listed := by
  intro p hp
  obtain ⟨hsome, hmem⟩ := hlisted p (hlive p hp)
  exact ⟨hpool hsome, hworkers ▸ hmem⟩

/-- A step that leaves the list, takes no number back and removes no pool keeps `Sound`. -/
theorem Sound.mono (hsound : h.Sound) (hworkers : u.workers = h.workers)
    (hnext : h.next ≤ u.next)
    (hpool : h.server.gWorkers.isSome = true → u.server.gWorkers.isSome = true) : u.Sound where
  isSome hne := hpool (hsound.isSome (hworkers ▸ hne))
  lt_next p hp := (hsound.lt_next p (hworkers ▸ hp)).trans_le hnext

variable [DecidableEq σ] {nworkers : σ → Option Int}

/-- A request that makes a pool leaves no process behind: the constructor returns, or the
    processes that it has started die in the course of the request. -/
def LeavesNone (nworkers : σ → Option Int) (h : Host σ) : Server.Request σ × Course → Prop
  | (.workload form _, c) => ∀ settings ∈ reachesPool form,
      (h.passes c 0).keeps settings = false →
        completes c.os (nworkers settings) = true ∨
          ∀ i ∈ launched c.os (nworkers settings),
            (c.lives 1 (h.next + i) && c.lives 2 (h.next + i)) = false
  | _ => True

instance (h : Host σ) : (e : Server.Request σ × Course) → Decidable (h.LeavesNone nworkers e)
  | (.workload form _, _) => inferInstanceAs (Decidable (∀ settings ∈ reachesPool form, _))
  | (.pause _, _) | (.stats _, _) | (.status _, _) => .isTrue trivial

/-- What a submission does to the processes. -/
theorem submit_step_iff {form : Form σ} {env : Env} (hsound : h.Sound) (hlisted : h.Listed)
    (hu : h.submitWorkload nworkers form env c = u) :
    u.Sound ∧ (u.Listed ↔ h.LeavesNone nworkers (.workload form env, c)) := by
  have hserver : ∀ alive created checked, h.server.gWorkers.isSome = true →
      (h.server.submitWorkload form { env with
        alive, created, aliveChecked := checked }).1.gWorkers.isSome = true := by
    intro alive created checked hsome
    rw [Server.isSome_submitWorkload, hsome, Bool.true_or]
  unfold submitWorkload at hu
  dsimp only at hu
  -- a submission that ends before it looks at the pool changes no process
  cases hreach : reachesPool form with
  | none =>
    rw [hreach] at hu
    subst hu
    refine ⟨hsound.mono rfl le_rfl (hserver _ _ _), iff_of_true ?_ ?_⟩
    · refine hlisted.mono ?_ rfl (hserver _ _ _)
      intro p hp
      exact (mem_live_passes.mp (mem_live_passes.mp (mem_live_passes.mp hp).1).1).1
    · simp [LeavesNone, hreach]
  | some settings =>
    rw [hreach] at hu
    dsimp only at hu
    -- with the same settings the pool is used again
    cases hkeeps : (h.passes c 0).keeps settings with
    | true =>
      rw [if_pos hkeeps] at hu
      subst hu
      refine ⟨hsound.mono (by simp [passes]) (by simp [passes]) (hserver _ _ _),
        iff_of_true ?_ ?_⟩
      · refine hlisted.mono ?_ (by simp [passes]) (hserver _ _ _)
        intro p hp
        exact (mem_live_passes.mp (mem_live_of_checked hp)).1
      · simp [LeavesNone, hreach, hkeeps]
    -- with other settings it is cleared, and a new one is made
    | false =>
      rw [if_neg (by simp [hkeeps]), construct_eq] at hu
      have hpassed : (h.passes c 0).Listed :=
        hlisted.mono (fun p hp => (mem_live_passes.mp hp).1) rfl id
      have hclear : (h.passes c 0).clear.live = [] := hpassed.clear
      have hleaves : h.LeavesNone nworkers (.workload form env, c) ↔
          (completes c.os (nworkers settings) = true ∨
            ∀ i ∈ launched c.os (nworkers settings),
              (c.lives 1 (h.next + i) && c.lives 2 (h.next + i)) = false) := by
        simp [LeavesNone, hreach, hkeeps]
      obtain ⟨k, hk⟩ := launched_eq_range c.os (nworkers settings)
      rw [hk] at hu hleaves
      rw [hleaves]
      cases hcompletes : completes c.os (nworkers settings) with
      | true =>
        -- the list has the processes that were started
        rw [hcompletes, if_pos rfl] at hu
        subst hu
        have hsome : ∀ checked, (h.server.submitWorkload form { env with
            alive := (h.passes c 0).isAlive, created := true,
            aliveChecked := checked }).1.gWorkers.isSome = true := by
          intro checked
          rw [Server.isSome_submitWorkload, hreach]
          simp
        refine ⟨⟨fun _ => hsome _, ?_⟩, iff_of_true ?_ (.inl rfl)⟩
        · intro p hp
          simp only [checked_workers, List.mem_map, List.mem_range, Option.some.injEq] at hp
          obtain ⟨i, hi, rfl⟩ := hp
          simp [passes, Host.clear, hi]
        · intro p hp
          have hmem := mem_live_of_checked hp
          rw [hclear, List.nil_append, List.mem_map] at hmem
          obtain ⟨i, hi, rfl⟩ := hmem
          refine ⟨hsome _, ?_⟩
          rw [checked_workers]
          exact List.mem_map_of_mem (f := fun i => some ((h.passes c 0).next + i)) hi
      -- the constructor has failed, and the list is that of before
      | false =>
        rw [hcompletes, if_neg Bool.false_ne_true] at hu
        subst hu
        refine ⟨⟨fun hne => hserver _ _ _ (hsound.isSome hne), ?_⟩, ?_⟩
        · intro p hp
          exact (hsound.lt_next p hp).trans_le (Nat.le_add_right _ _)
        · simp only [Bool.false_eq_true, false_or]
          constructor
          · -- the numbers in the list were given before
            intro hu i hi
            rw [← Bool.not_eq_true]
            intro hlives
            rw [Bool.and_eq_true] at hlives
            have hmem := (hu (h.next + i) ?_).2
            · exact absurd (hsound.lt_next _ hmem) (by omega)
            · simp only [mem_live_passes, hclear, List.nil_append, List.mem_map]
              exact ⟨⟨⟨i, hi, rfl⟩, hlives.1⟩, hlives.2⟩
          · intro hdies p hp
            simp only [mem_live_passes, hclear, List.nil_append, List.mem_map] at hp
            obtain ⟨⟨⟨i, hi, rfl⟩, h₁⟩, h₂⟩ := hp
            have hgone := hdies i hi
            rw [Bool.and_eq_false_iff] at hgone
            rcases hgone with hgone | hgone
            · exact absurd (hgone.symm.trans h₁) Bool.false_ne_true
            · exact absurd (hgone.symm.trans h₂) Bool.false_ne_true

/-- The requests that make no pool. -/
theorem other_step {r : Server.Request σ} (checks : Bool) (hsound : h.Sound)
    (hlisted : h.Listed)
    (hu : { if checks then (h.passes c 0).checked c
            else ((h.passes c 0).passes c 1).passes c 2 with
      server := ((h.passes c 0).server.handle r).1 } = u) : u.Sound ∧ u.Listed := by
  -- a request without a new pool keeps the workers and frees no process
  have hpool : h.server.gWorkers.isSome = true → u.server.gWorkers.isSome = true := by
    intro hsome
    subst hu
    exact Server.isSome_handle r hsome
  have hworkers : u.workers = h.workers := by
    subst hu
    cases checks <;> simp [passes]
  have hnext : h.next ≤ u.next := by
    subst hu
    cases checks <;> simp [passes]
  refine ⟨hsound.mono hworkers hnext hpool, hlisted.mono ?_ hworkers hpool⟩
  intro p hp
  subst hu
  cases checks with
  | true => exact (mem_live_passes.mp (mem_live_of_checked hp)).1
  | false => exact (mem_live_passes.mp (mem_live_passes.mp (mem_live_passes.mp hp).1).1).1

/-- A request keeps the processes owned exactly when it leaves none behind. -/
theorem owned_step_iff {e : Server.Request σ × Course} (hsound : h.Sound) (hown : h.Owned)
    (hu : h.step nworkers e = some u) : u.Sound ∧ (u.Owned ↔ h.LeavesNone nworkers e) := by
  -- only a submission starts processes
  obtain ⟨r, c⟩ := e
  rw [owned_iff_listed] at hown ⊢
  cases r with
  | workload form env => exact submit_step_iff hsound hown (Option.some.inj hu)
  | pause env | stats env | status env =>
    obtain ⟨hsound', hlisted⟩ := other_step _ hsound hown (Option.some.inj hu)
    exact ⟨hsound', iff_of_true hlisted trivial⟩

variable {settings : σ} {es : List (Server.Request σ × Course)} {s : Host σ}

/-- In every state of a run each process that is alive is in the list of the server's pool,
    and `clear` stops them all, exactly when no request makes a pool whose constructor fails
    and leaves a process alive. -/
theorem owned_iff (h : Machine.run (step nworkers) (init settings) es = some s) :
    Machine.Always (step nworkers) Owned (init settings) es ↔
      Machine.Meets (step nworkers) (fun _ => LeavesNone nworkers) (init settings) es := by
  refine Machine.always_iff_meets_of_invariant (I := Sound) (P := Owned) ?_ ?_ ?_ h
  · exact ⟨fun hne => absurd rfl hne, fun p hp => by cases hp⟩
  · exact owned_iff_listed.mpr fun p hp => by cases hp
  · intro t e u hsound hown hu
    exact owned_step_iff hsound hown hu

/-- A pool of -1 workers: `stat_loop` is started and cannot be put into the empty list. -/
theorem orphan_of_negative_count :
    ¬ ∀ (settings : Int) es s, Machine.run (step some) (init settings) es = some s →
      Machine.Always (step some) Owned (init settings) es := by
  intro hall
  let es : List (Server.Request Int × Course) :=
    [(.workload ⟨some [⟨.ok 0, .ok 5, .ok 5, "select 1"⟩], .ok (-1)⟩ Server.calmEnv,
      ⟨⟨true, fun _ => true⟩, fun _ _ => true⟩)]
  obtain ⟨s, hs, hp⟩ := Machine.exists_run_of_map (step some) (init 10) es
    (fun s => s.live == [0] && s.workers == []) (by decide +kernel)
  rw [Bool.and_eq_true, beq_iff_eq, beq_iff_eq] at hp
  obtain ⟨hlive, hworkers⟩ := hp
  -- one process lives although the list of workers is empty
  have hlisted := (hall 10 es s hs es [] (List.append_nil es).symm s hs).1
  obtain ⟨-, hmem⟩ := hlisted 0 (by simp [hlive])
  rw [hworkers] at hmem
  cases hmem

/-- A pool of two workers is replaced by one of three, after a first try in which the third
    worker cannot be started and the two before it die. -/
theorem owned_after_failed_start :
    ∃ s, Machine.run (step some) (init 10)
        [(.workload ⟨some [⟨.ok 0, .ok 5, .ok 5, "select 1"⟩], .ok 2⟩ Server.calmEnv,
          ⟨⟨true, fun _ => true⟩, fun _ _ => true⟩),
         (.workload ⟨some [⟨.ok 0, .ok 5, .ok 5, "select 1"⟩], .ok 3⟩ Server.calmEnv,
          ⟨⟨true, fun i => i < 2⟩, fun _ p => p < 3⟩),
         (.workload ⟨some [⟨.ok 0, .ok 5, .ok 5, "select 1"⟩], .ok 3⟩ Server.calmEnv,
          ⟨⟨true, fun _ => true⟩, fun _ _ => true⟩)] = some s ∧
      Machine.Always (step some) Owned (init 10)
        [(.workload ⟨some [⟨.ok 0, .ok 5, .ok 5, "select 1"⟩], .ok 2⟩ Server.calmEnv,
          ⟨⟨true, fun _ => true⟩, fun _ _ => true⟩),
         (.workload ⟨some [⟨.ok 0, .ok 5, .ok 5, "select 1"⟩], .ok 3⟩ Server.calmEnv,
          ⟨⟨true, fun i => i < 2⟩, fun _ p => p < 3⟩),
         (.workload ⟨some [⟨.ok 0, .ok 5, .ok 5, "select 1"⟩], .ok 3⟩ Server.calmEnv,
          ⟨⟨true, fun _ => true⟩, fun _ _ => true⟩)] := by
  -- the three constructors are computed: the second one fails, and its two workers die
  refine ⟨_, rfl, (owned_iff rfl).mpr (Machine.meets_of_check
    (c := fun h e => decide (LeavesNone some h e)) (fun _ _ _ hc => of_decide_eq_true hc) ?_)⟩
  decide +kernel

end Host

end WorkloadSimulator.Stress
