import WorkloadSimulator.ForStd.List
import WorkloadSimulator.Stress.Worker

/-!
# What a step of the pool does

`Proc.Moves`, `Pool.ParentMoves` and `Pool.Moves` list the steps of a process, of the parent
and of the whole pool once, with their guards, so that a proof about the pool splits into
named cases and never unfolds `Pool.step`.

## Key results

- `Pool.moves_of_step`: every step of the pool is one of its `Moves`
- `Pool.effect_eq`: a step of a process changes no more of the pool than the shared arrays
- `Pool.parent_frame`: what a step of the parent leaves as it is
-/

namespace WorkloadSimulator.Stress

/-! ## The steps of a process -/

/-- The steps of the process `p`. -/
inductive Proc.Moves (p : Proc) : ProcStep → Proc → Prop where
  | start (hpc : p.pc = .starting) : Moves p .start { p with pc := .sending }
  | send (hpc : p.pc = .sending) :
      Moves p .send { p with pc := .recv false, outbox := p.outbox + 1 }
  | enterTry (hpc : p.pc = .recv false) : Moves p .enterTry { p with pc := .recv true }
  | read {w : Workload} {ws : List Workload} (hpc : p.pc = .recv true)
      (hin : p.inbox = w :: ws) :
      Moves p .read { p with pc := .running w, inbox := ws, workload := some w }
  | work {w : Workload} (rates : Nat → Nat) (hpc : p.pc = .running w) :
      Moves p (.work rates) p
  | raises : Moves p .raises { p with pc := .dead }
  | resume (hpc : p.pc = .handler) : Moves p .resume { p with pc := .sending }
  | interrupt (hsig : p.sigint = true) (halive : p.isAlive = true) :
      Moves p .interrupt { p with pc := Proc.interrupted p.pc, sigint := false }

/-- Every step of a process is one of its moves. -/
theorem Proc.moves_of_step {p p' : Proc} {a : ProcStep} (h : p.step a = some p') :
    p.Moves a p' := by
  unfold step at h
  split at h
  -- the equations of `step` in the order of the source
  case h_1 => rename_i hpc; obtain rfl := Option.some.inj h; exact .start hpc
  case h_2 => rename_i hpc; obtain rfl := Option.some.inj h; exact .send hpc
  case h_3 => rename_i hpc; obtain rfl := Option.some.inj h; exact .enterTry hpc
  case h_4 =>
    rename_i hpc
    split at h
    · rename_i hin; obtain rfl := Option.some.inj h; exact .read hpc hin
    · exact nomatch h
  case h_5 => rename_i hpc; obtain rfl := Option.some.inj h; exact .work _ hpc
  -- wherever the exception is raised, the process is gone
  case h_6 | h_7 | h_8 => obtain rfl := Option.some.inj h; exact .raises
  case h_9 => rename_i hpc; obtain rfl := Option.some.inj h; exact .resume hpc
  case h_10 =>
    split at h
    · rename_i hg; obtain rfl := Option.some.inj h; exact .interrupt hg.1 hg.2
    · exact nomatch h
  case h_11 => exact nomatch h

namespace Pool

variable {s s' : Pool}

/-! ## The steps of the parent -/

/-- The steps of the parent in a call of the pool `s`. -/
inductive ParentMoves (s : Pool) : Pool → Prop where
  | launch (hpar : s.parent = .launch) :
      ParentMoves s { s with
        procs := s.procs ++ [.spawn], parent := .sync s.procs.length false .launch }
  | send {w : Workload} {i : Nat} {p : Proc} (hpar : s.parent = .send w i)
      (hget : s.procs[i]? = some p) :
      ParentMoves s { s.setProc i (if p.isAlive then { p with inbox := p.inbox ++ [w] } else p)
        with parent := .send w (i + 1) }
  | sent {w : Workload} {i : Nat} (hpar : s.parent = .send w i)
      (hend : s.procs[i]? = none) : ParentMoves s { s with parent := .idle none }
  | signal {i : Nat} {p : Proc} (hpar : s.parent = .signal i)
      (hget : s.procs[i]? = some p) :
      ParentMoves s { s.setProc i (if p.isAlive then { p with sigint := true } else p)
        with parent := .signal (i + 1) }
  | signalled {i : Nat} (hpar : s.parent = .signal i) (hend : s.procs[i]? = none) :
      ParentMoves s { s with parent := .check 0 true }
  | check {i : Nat} {ok : Bool} {p : Proc} (hpar : s.parent = .check i ok)
      (hget : s.procs[i]? = some p) :
      ParentMoves s { s with
        parent := if p.isAlive then .sync i false (.pause ok) else .check (i + 1) ok }
  | checked {i : Nat} {ok : Bool} (hpar : s.parent = .check i ok)
      (hend : s.procs[i]? = none) : ParentMoves s { s with parent := .idle (some ok) }
  | answered {i n : Nat} {caller : Caller} {p : Proc} (hpar : s.parent = .sync i false caller)
      (hget : s.procs[i]? = some p) (hout : p.outbox = n + 1) :
      ParentMoves s ((s.setProc i { p with outbox := n }).returnSync i true caller)
  | nothing {i : Nat} {caller : Caller} {p : Proc} (hpar : s.parent = .sync i false caller)
      (hget : s.procs[i]? = some p) (hout : p.outbox = 0) :
      ParentMoves s { s with parent := .sync i true caller }
  | again {i : Nat} {caller : Caller} {p : Proc} (hpar : s.parent = .sync i true caller)
      (hget : s.procs[i]? = some p) (halive : p.isAlive = true) :
      ParentMoves s { s with parent := .sync i false caller }
  | gone {i : Nat} {caller : Caller} {p : Proc} (hpar : s.parent = .sync i true caller)
      (hget : s.procs[i]? = some p) (hdead : p.isAlive = false) :
      ParentMoves s (s.returnSync i false caller)

/-- Every step of the parent is one of its moves. -/
theorem parentMoves_of_step (h : s.parentStep = some s') : ParentMoves s s' := by
  unfold parentStep at h
  cases hpar : s.parent with
  | launch =>
    rw [hpar] at h
    obtain rfl := Option.some.inj h
    exact .launch hpar
  | idle r =>
    -- a call starts from outside
    rw [hpar] at h
    exact nomatch h
  | send w i =>
    -- behind the last process the loop is over, here and in the loops below
    rw [hpar] at h
    cases hget : s.procs[i]? with
    | none => simp only [hget] at h; obtain rfl := Option.some.inj h; exact .sent hpar hget
    | some p => simp only [hget] at h; obtain rfl := Option.some.inj h; exact .send hpar hget
  | signal i =>
    rw [hpar] at h
    cases hget : s.procs[i]? with
    | none => simp only [hget] at h; obtain rfl := Option.some.inj h; exact .signalled hpar hget
    | some p => simp only [hget] at h; obtain rfl := Option.some.inj h; exact .signal hpar hget
  | check i ok =>
    rw [hpar] at h
    cases hget : s.procs[i]? with
    | none => simp only [hget] at h; obtain rfl := Option.some.inj h; exact .checked hpar hget
    | some p => simp only [hget] at h; obtain rfl := Option.some.inj h; exact .check hpar hget
  | sync i polled caller =>
    rw [hpar] at h
    cases hget : s.procs[i]? with
    | none => simp only [hget] at h; exact nomatch h
    | some p =>
      simp only [hget] at h
      cases polled with
      | true =>
        rw [if_pos rfl] at h
        obtain rfl := Option.some.inj h
        by_cases halive : p.isAlive = true
        · rw [if_pos halive]
          exact .again hpar hget halive
        · rw [if_neg halive]
          exact .gone hpar hget (by simpa using halive)
      | false =>
        rw [if_neg Bool.false_ne_true] at h
        cases hout : p.outbox with
        | zero => simp only [hout] at h; obtain rfl := Option.some.inj h; exact .nothing hpar hget hout
        | succ n => simp only [hout] at h; obtain rfl := Option.some.inj h; exact .answered hpar hget hout

/-- What a step of the parent leaves as it is. -/
structure ParentFrame (s s' : Pool) : Prop where
  nworkers : s'.nworkers = s.nworkers
  qpsArray : s'.qpsArray = s.qpsArray
  queries : s'.queries = s.queries
  parent : (∀ w i, s.parent ≠ .send w i) → ∀ w i, s'.parent ≠ .send w i
  procs : ∀ (j : Nat) p', s'.procs[j]? = some p' → p' = .spawn ∨ ∃ p, s.procs[j]? = some p ∧
    p'.pc = p.pc ∧ p'.workload = p.workload ∧
      ((∀ w i, s.parent ≠ .send w i) → p'.inbox = p.inbox)

/-- `_sync` returns to a program point outside `send_workload`. -/
theorem returnSync_frame (s : Pool) (i : Nat) (result : Bool) (caller : Caller) :
    ∃ pc, (∀ w i, pc ≠ .send w i) ∧ s.returnSync i result caller = { s with parent := pc } := by
  cases caller with
  | pause ok => exact ⟨_, by simp, rfl⟩
  | launch =>
    refine ⟨if i < s.nworkers then .launch else .idle none, ?_, rfl⟩
    split <;> simp

/-- A step of the parent touches no process, or one that keeps its program point. -/
theorem parent_frame (hm : ParentMoves s s') : ParentFrame s s' := by
  -- a step that only moves the parent, and one that also changes a process
  have hsame : ∀ pc, (∀ w i, pc ≠ .send w i) → ParentFrame s { s with parent := pc } := by
    intro pc hpc
    refine ⟨rfl, rfl, rfl, fun _ => hpc, ?_⟩
    intro j p hget
    exact .inr ⟨p, hget, rfl, rfl, fun _ => rfl⟩
  have hset : ∀ {i : Nat} {p p' : Proc} {pc : ParentPc}, s.procs[i]? = some p → p'.pc = p.pc →
      p'.workload = p.workload →
      ((∀ w i, s.parent ≠ .send w i) → p'.inbox = p.inbox ∧ ∀ w i, pc ≠ .send w i) →
      ParentFrame s { s.setProc i p' with parent := pc } := by
    intro i p p' pc hget hpc hw hno
    refine ⟨rfl, rfl, rfl, fun h => (hno h).2, fun j q hq => .inr ?_⟩
    rcases List.getElem?_set_eq_some hq with ⟨rfl, rfl⟩ | ⟨hne, hq⟩
    · exact ⟨p, hget, hpc, hw, fun h => (hno h).1⟩
    · exact ⟨q, hq, rfl, rfl, fun _ => rfl⟩
  cases hm with
  | launch hpar =>
    refine ⟨rfl, rfl, rfl, fun _ => by simp, ?_⟩
    intro j p hget
    rcases List.getElem?_concat_eq_some hget with hold | ⟨-, rfl⟩
    · exact .inr ⟨p, hold, rfl, rfl, fun _ => rfl⟩
    · exact .inl rfl
  | @send w i p hpar hget =>
    -- the only step that fills a pipe
    apply hset hget
    · split <;> rfl
    · split <;> rfl
    · intro hno
      exact absurd hpar (hno w i)
  | @signal i p hpar hget =>
    apply hset hget
    · split <;> rfl
    · split <;> rfl
    · intro _
      refine ⟨?_, by simp⟩
      split <;> rfl
  | check hpar hget => exact hsame _ (by split <;> simp)
  -- what is received leaves the pipe, and the parent goes back to its caller
  | @answered i n caller p hpar hget hout =>
    obtain ⟨pc, hpc, heq⟩ := returnSync_frame (s.setProc i { p with outbox := n }) i true caller
    rw [heq]
    exact hset hget rfl rfl fun _ => ⟨rfl, hpc⟩
  | @gone i caller p hpar hget hdead =>
    obtain ⟨pc, hpc, heq⟩ := returnSync_frame s i false caller
    rw [heq]
    exact hsame pc hpc
  | sent | signalled | checked | nothing | again => exact hsame _ (by simp)

/-! ## The steps of the pool -/

/-- The steps of the pool `s`. -/
inductive Moves (s : Pool) : Event → Pool → Prop where
  | callSend {r : Option Bool} (w : Workload) (hpar : s.parent = .idle r) :
      Moves s (.callSend w) { s with workload := some w, paused := false, parent := .send w 0 }
  | callPause {r : Option Bool} (hpar : s.parent = .idle r) :
      Moves s .callPause { s with paused := true, parent := .signal 0 }
  | parent {s' : Pool} (hm : ParentMoves s s') : Moves s .parent s'
  | proc {i : Nat} {p p' : Proc} {a : ProcStep} (hget : s.procs[i]? = some p)
      (hm : p.Moves a p') : Moves s (.proc i a) ((s.effect i p a).setProc i p')

/-- Every step is one of the `Moves`. -/
theorem moves_of_step {e : Event} (he : s.step e = some s') : Moves s e s' := by
  unfold step at he
  -- two calls from outside, a step of the parent and one of a process
  split at he
  · rename_i w r hpar
    obtain rfl := Option.some.inj he
    exact .callSend w hpar
  · rename_i r hpar
    obtain rfl := Option.some.inj he
    exact .callPause hpar
  · exact .parent (parentMoves_of_step he)
  · rename_i i a
    unfold procStep at he
    split at he
    · rename_i p hget
      obtain ⟨p', ha, rfl⟩ := Option.map_eq_some_iff.mp he
      exact .proc hget (Proc.moves_of_step ha)
    · exact nomatch he
  · exact nomatch he

/-- What a step of a process does to the pool, but for the process: it touches no more than
    the arrays. -/
theorem effect_eq (s : Pool) (i : Nat) (p : Proc) (a : ProcStep) :
    ∃ qps qs, s.effect i p a = { s with qpsArray := qps, queries := qs } := by
  unfold effect
  -- rates published or a query executed, and rates set to zero after a signal
  split
  · split
    · exact ⟨_, _, rfl⟩
    · exact ⟨_, _, rfl⟩
  · split
    · split
      · exact ⟨_, _, rfl⟩
      · exact ⟨_, _, rfl⟩
    · exact ⟨_, _, rfl⟩
  · exact ⟨_, _, rfl⟩

end Pool

end WorkloadSimulator.Stress
