import WorkloadSimulator.ForStd.List
import WorkloadSimulator.ForStd.Machine
import WorkloadSimulator.ForStd.Window
import WorkloadSimulator.Spec.OfferedLoad
import WorkloadSimulator.Stress.Pacing

/-!
# How many queries are sent in a window of time

A worker sends no more than its share in a batch, and its batches begin a period apart, unless
it is paused and gets another workload in between. A window of time cuts at most one batch
more. What the workers count are the queries that have been answered, whether they have failed
or not.

## Key results

- `moves_of_step`: the steps of a worker
- `paced_of_run`: the queries that a worker has sent since any time
- `queries_of_window`: the queries that all workers send in a window, in every run
- `stats_of_run`: what a worker has counted of each query
-/

namespace WorkloadSimulator.Stress

open Window (capacity)

/-! ## The steps of a worker -/

/-- The step gives up a query that is under way. -/
def PaceStep.givesUp : PaceStep → Bool
  | .interrupt | .die | .reconnect false => true
  | .answer (.error n) => n ≠ ER_SERVER_GONE ∧ n ∈ uncaughtErrors
  | _ => false

/-- The queries that a step to `wk'` sends. -/
def PaceStep.sent (wk' : PacedWorker) : PaceStep → Nat
  | .draw _ => wk'.underWay.toList.length
  | _ => 0

def PaceStep.received : PaceStep → Nat
  | .receive _ => 1
  | _ => 0

/-- A query that is given up is not sent again by the same step. -/
theorem PaceStep.sent_of_givesUp {act : PaceStep} (h : act.givesUp = true) (wk' : PacedWorker) :
    act.sent wk' = 0 ∧ act.received = 0 := by
  cases act <;> simp_all [givesUp, sent, received]

/-- Only a draw sends queries, and only a workload is received. -/
theorem PaceStep.sent_of_ne {act : PaceStep} (hdraw : ∀ u, act ≠ .draw u)
    (hreceive : ∀ w, act ≠ .receive w) (wk' : PacedWorker) :
    act.sent wk' = 0 ∧ act.received = 0 := by
  cases act <;> simp_all [sent, received]

namespace PacedWorker

/-- The steps of a worker, with their guards. -/
inductive Moves (nworkers index : Nat) (now : ℚ) (wk : PacedWorker) :
    PaceStep → PacedWorker → Prop where
  | receive {workload : Workload} {table : QueryTable Nat Nat} (hpc : wk.pc = .recv)
      (htable : QueryTable.new workload qpsQueryTable = some table) :
      Moves nworkers index now wk (.receive workload)
        { wk with table, pc := .sleeping (now + index * (11 / 10) / nworkers) }
  | rejected {workload : Workload} (hpc : wk.pc = .recv) :
      Moves nworkers index now wk (.receive workload) { wk with pc := .dead }
  | begin {wake : ℚ} {table : QueryTable Nat Nat} (hpc : wk.pc = .sleeping wake)
      (hwake : wake ≤ now) (htable : wk.table = some table) :
      Moves nworkers index now wk .begin
        { wk with pc := .looping now (table.workerQps nworkers).toNat }
  | draw {start u : ℚ} {left queryId : Nat} (hpc : wk.pc = .looping start (left + 1)) :
      Moves nworkers index now wk (.draw u) { wk with pc := .asking start left queryId }
  | indexError {start u : ℚ} {left : Nat} (hpc : wk.pc = .looping start (left + 1)) :
      Moves nworkers index now wk (.draw u) { wk with pc := .dead }
  | counted {a : PaceStep} {start : ℚ} {left queryId : Nat} (ha : a.givesUp = false)
      (hdraw : ∀ u, a ≠ .draw u) (hreceive : ∀ w, a ≠ .receive w)
      (hpc : wk.pc = .asking start left queryId ∨ wk.pc = .reconnecting start left queryId) :
      Moves nworkers index now wk a (wk.counted start left queryId)
  | gone {outcome : QueryOutcome} {start : ℚ} {left queryId : Nat}
      (ha : (PaceStep.answer outcome).givesUp = false)
      (hpc : wk.pc = .asking start left queryId) :
      Moves nworkers index now wk (.answer outcome)
        { wk with pc := .reconnecting start left queryId }
  | failed {a : PaceStep} (ha : a.givesUp = true) :
      Moves nworkers index now wk a { wk with pc := .dead }
  | finish {start : ℚ} (hpc : wk.pc = .looping start 0) :
      Moves nworkers index now wk .finish { wk with pc := .sleeping (wakeTime now start) }
  | interrupt : Moves nworkers index now wk .interrupt { wk with pc := .handler }
  | resume (hpc : wk.pc = .handler) : Moves nworkers index now wk .resume { wk with pc := .recv }

variable {nworkers index : Nat} {now : ℚ} {wk wk' : PacedWorker} {a : PaceStep}

/-- Each step of a worker is one of its moves. In the order of the cases of `step`. -/
theorem moves_of_step (h : wk.step nworkers index now a = some wk') :
    Moves nworkers index now wk a wk' := by
  unfold step at h
  split at h
  -- a workload comes: the query table may reject it
  · rename_i workload hpc
    split at h
    · rename_i table htable
      obtain rfl := Option.some.inj h
      exact .receive hpc htable
    · obtain rfl := Option.some.inj h
      exact .rejected hpc
  -- a batch begins, if it is time
  · rename_i wake hpc
    split at h
    · rename_i hwake
      obtain ⟨table, htable, rfl⟩ := Option.map_eq_some_iff.mp h
      exact .begin hpc hwake htable
    · cases h
  -- the table draws a query, or its `find_gt` raises an error
  · rename_i u start left hpc
    split at h
    · obtain ⟨table, -, rfl⟩ := Option.map_eq_some_iff.mp h
      split
      · exact .draw hpc
      · exact .indexError hpc
    · cases h
  -- the database has answered: code 2006 alone leads to a new connection
  · rename_i outcome start left queryId hpc
    obtain rfl := Option.some.inj h
    cases outcome with
    | ok => exact .counted rfl (by simp) (by simp) (.inl hpc)
    | error n =>
      by_cases hgone : n = ER_SERVER_GONE
      · rw [answered, if_pos hgone]
        exact .gone (by simp [PaceStep.givesUp, hgone]) hpc
      · rw [answered, if_neg hgone]
        split
        · rename_i huncaught
          exact .failed (by simp [PaceStep.givesUp, hgone, huncaught])
        · rename_i huncaught
          exact .counted (by simp [PaceStep.givesUp, huncaught]) (by simp) (by simp) (.inl hpc)
  -- the connection is tried again
  · rename_i ok start left queryId hpc
    obtain rfl := Option.some.inj h
    cases ok with
    | true => exact .counted rfl (by simp) (by simp) (.inr hpc)
    | false => exact .failed rfl
  · rename_i start hpc
    obtain rfl := Option.some.inj h
    exact .finish hpc
  · cases h
  · cases h
  · obtain rfl := Option.some.inj h
    exact .interrupt
  · rename_i hpc
    obtain rfl := Option.some.inj h
    exact .resume hpc
  · obtain rfl := Option.some.inj h
    exact .failed rfl
  · cases h

end PacedWorker

/-! ## The steps of the pool -/

namespace PacedPool

variable {s s' : PacedPool} {e : Event} {n q : Nat} {a : ℚ}

/-- The pool after a step of the worker `i` to `wk'`. -/
def afterWorker (s : PacedPool) (i : Nat) (act : PaceStep) (wk' : PacedWorker) : PacedPool :=
  { s with
    workers := s.workers.set i wk'
    sent := s.sent ++ s.sends i wk' act
    received := s.received ++ s.receives i act }

/-- Only passing time changes the time. -/
@[simp] theorem now_afterWorker (s : PacedPool) (i : Nat) (act : PaceStep) (wk' : PacedWorker) :
    (s.afterWorker i act wk').now = s.now := rfl

/-- A step of the pool is time that passes, or a step of one of its workers. -/
theorem step_cases (h : s.step e = some s') :
    (∃ d, e = .pass d ∧ 0 ≤ d ∧ s' = { s with now := s.now + d }) ∨
      ∃ i act wk wk', e = .worker i act ∧ s.workers[i]? = some wk ∧
        wk.Moves s.workers.length i s.now act wk' ∧ s' = s.afterWorker i act wk' := by
  unfold PacedPool.step at h
  split at h
  · rename_i d
    split at h
    · rename_i hd
      exact .inl ⟨d, rfl, hd, (Option.some.inj h).symm⟩
    · cases h
  · rename_i i step
    split at h
    · rename_i wk hwk
      obtain ⟨wk', hwk', rfl⟩ := Option.map_eq_some_iff.mp h
      exact .inr ⟨i, step, wk, wk', rfl, hwk, PacedWorker.moves_of_step hwk', rfl⟩
    · cases h

/-- The queries of a worker at the times `p`. -/
def sentBy (s : PacedPool) (i : Nat) (p : ℚ → Bool) : Nat :=
  s.sent.countP fun x => x.2.1 == i && p x.1

/-- The workloads of a worker that come at the times `p`. -/
def receivedBy (s : PacedPool) (i : Nat) (p : ℚ → Bool) : Nat :=
  s.received.countP fun x => x.2 == i && p x.1

/-- The queries and workloads of a pool are not from the future. -/
structure Timely (n : Nat) (s : PacedPool) : Prop where
  length : s.workers.length = n
  sent : ∀ x ∈ s.sent, x.1 ≤ s.now ∧ x.2.1 < n
  received : ∀ x ∈ s.received, x.1 ≤ s.now ∧ x.2 < n

/-- A pool that has just been made has sent nothing. -/
theorem timely_init (n : Nat) : Timely n (init n) where
  length := List.length_replicate
  sent x hx := by cases hx
  received x hx := by cases hx

/-- A query is sent now and by the worker that takes the step. -/
theorem mem_sends {i : Nat} {wk' : PacedWorker} {step : PaceStep} {x : ℚ × Nat × Nat}
    (hx : x ∈ s.sends i wk' step) : x.1 = s.now ∧ x.2.1 = i := by
  unfold sends at hx
  split at hx
  · obtain ⟨queryId, -, rfl⟩ := List.mem_map.mp hx
    exact ⟨rfl, rfl⟩
  · cases hx

/-- A workload is received now and by the worker that takes the step. -/
theorem mem_receives {i : Nat} {step : PaceStep} {x : ℚ × Nat} (hx : x ∈ s.receives i step) :
    x = (s.now, i) := by
  unfold receives at hx
  split at hx
  · exact List.mem_singleton.mp hx
  · cases hx

/-- `Timely` is preserved: what is new is from now, and time does not go back. -/
theorem Timely.step (hs : Timely n s) (h : s.step e = some s') : Timely n s' := by
  rcases step_cases h with ⟨d, rfl, hd, rfl⟩ | ⟨i, step, wk, wk', rfl, hwk, -, rfl⟩
  -- time passes: the bounds only grow
  · refine ⟨hs.length, fun x hx => ?_, fun x hx => ?_⟩
    · exact ⟨(hs.sent x hx).1.trans (le_add_of_nonneg_right hd), (hs.sent x hx).2⟩
    · exact ⟨(hs.received x hx).1.trans (le_add_of_nonneg_right hd), (hs.received x hx).2⟩
  -- a worker steps: new entries stand behind the old ones
  · have hi : i < n := hs.length ▸ (List.getElem?_eq_some_iff.mp hwk).1
    refine ⟨(List.length_set ..).trans hs.length, fun x hx => ?_, fun x hx => ?_⟩
    · rcases List.mem_append.mp hx with hx | hx
      · exact hs.sent x hx
      · obtain ⟨htime, hworker⟩ := mem_sends hx
        exact ⟨htime.le, hworker ▸ hi⟩
    · rcases List.mem_append.mp hx with hx | hx
      · exact hs.received x hx
      · obtain rfl := mem_receives hx
        exact ⟨le_rfl, hi⟩

/-- The counts after a step of a worker. -/
theorem sentBy_afterWorker (s : PacedPool) (i j : Nat) (p : ℚ → Bool) (act : PaceStep)
    (wk' : PacedWorker) :
    (s.afterWorker i act wk').sentBy j p =
      s.sentBy j p + if i = j ∧ p s.now then act.sent wk' else 0 := by
  -- a step sends one query or none
  have hlength : (s.sends i wk' act).length = act.sent wk' := by
    cases act <;> simp [sends, PaceStep.sent]
  rw [← hlength]
  refine List.countP_append_of_forall _ fun x hx => ?_
  obtain ⟨htime, hworker⟩ := mem_sends hx
  simp [htime, hworker]

/-- The same count for the workloads. -/
theorem receivedBy_afterWorker (s : PacedPool) (i j : Nat) (p : ℚ → Bool) (act : PaceStep)
    (wk' : PacedWorker) :
    (s.afterWorker i act wk').receivedBy j p =
      s.receivedBy j p + if i = j ∧ p s.now then act.received else 0 := by
  have hlength : (s.receives i act).length = act.received := by
    cases act <;> simp [receives, PaceStep.received]
  rw [← hlength]
  refine List.countP_append_of_forall _ fun x hx => ?_
  obtain rfl := mem_receives hx
  simp

/-! ## What a worker has sent -/

open QueryTable (period)

theorem period_pos : (0 : ℚ) < period := by norm_num [period]

/-- The batches of a worker that has sent `sent` queries and received `received` workloads since
    the time `a`. -/
def PacedAt (q : Nat) (a now : ℚ) (sent received : Nat) : PacePc → Prop
  | .sleeping wake => ∀ t, wake ≤ t → now ≤ t → a ≤ t → sent + q ≤ capacity period a t received * q
  | .looping start left | .asking start left _ | .reconnecting start left _ =>
    start ≤ now ∧ sent + left ≤ capacity period a start received * q
  | .recv | .handler | .dead => True

/-- What a worker has sent since the time `a`, where a batch has `q` queries at most. -/
structure Paced (n q : Nat) (a now : ℚ) (sent received : Nat) (wk : PacedWorker) : Prop where
  before : now < a → sent = 0
  quota : ∀ table, wk.table = some table → (table.workerQps n).toNat ≤ q
  total : sent ≤ capacity period a now received * q
  batch : PacedAt q a now sent received wk.pc

namespace Paced

variable {now d : ℚ} {sent received i : Nat} {wk wk' : PacedWorker} {act : PaceStep}

/-- Time that passes only makes room: `capacity` is monotone in the present time. -/
theorem pass (h : Paced n q a now sent received wk) (hd : 0 ≤ d) :
    Paced n q a (now + d) sent received wk := by
  have hnow : now ≤ now + d := le_add_of_nonneg_right hd
  refine ⟨fun hlt => h.before (hnow.trans_lt hlt), h.quota, ?_, ?_⟩
  · exact h.total.trans (Nat.mul_le_mul_right q (Window.capacity_mono period_pos hnow le_rfl))
  -- a worker that sleeps may wake at any later time; one in a batch keeps its beginning
  · have hbatch := h.batch
    unfold PacedAt at hbatch ⊢
    split at hbatch
    · exact fun t hwake ht hat => hbatch t hwake (hnow.trans ht) hat
    · exact ⟨hbatch.1.trans hnow, hbatch.2⟩
    · exact ⟨hbatch.1.trans hnow, hbatch.2⟩
    · exact ⟨hbatch.1.trans hnow, hbatch.2⟩
    all_goals trivial

/-- Another program point, with nothing sent. -/
theorem of_pc {pc : PacePc} {stats : Nat → Nat} (h : Paced n q a now sent received wk)
    (hpc : PacedAt q a now sent received pc) :
    Paced n q a now sent received ⟨pc, wk.table, stats⟩ :=
  ⟨h.before, h.quota, h.total, hpc⟩

/-- A workload that is received makes room for one more batch. -/
theorem receive {table : QueryTable Nat Nat}
    (h : Paced n q a now sent received wk) (hquota : (table.workerQps n).toNat ≤ q) :
    Paced n q a now sent (received + if a ≤ now then 1 else 0)
      { wk with table, pc := .sleeping (now + i * (11 / 10) / n) } := by
  refine ⟨h.before, ?_, ?_, ?_⟩
  · rintro _ ⟨⟩
    exact hquota
  · exact h.total.trans (Nat.mul_le_mul_right q
      (Window.capacity_mono period_pos le_rfl (Nat.le_add_right _ _)))
  -- after the workload the worker sleeps, and its next batch is one that `receive` makes room for
  · intro t _ ht hat
    by_cases hnow : a ≤ now
    · rw [if_pos hnow]
      have hlt : received < received + 1 := Nat.lt_succ_self received
      have hroom := Nat.mul_le_mul_right q
        (Window.capacity_succ_le_of_received period_pos ht hat hlt)
      have htotal := h.total
      rw [Nat.add_mul, Nat.one_mul] at hroom
      omega
    · -- nothing has been sent since a time to come
      rw [h.before (not_le.mp hnow), Nat.zero_add]
      exact Nat.le_mul_of_pos_left q (Window.one_le_capacity period a t _)

/-- A batch begins with all its queries to be sent. -/
theorem begin {wake : ℚ} {table : QueryTable Nat Nat} (h : Paced n q a now sent received wk)
    (hpc : wk.pc = .sleeping wake) (hwake : wake ≤ now) (htable : wk.table = some table) :
    Paced n q a now sent received
      { wk with pc := .looping now (table.workerQps n).toNat } := by
  have hbatch := h.batch
  rw [hpc] at hbatch
  refine h.of_pc ⟨le_rfl, ?_⟩
  -- the batch has no more queries than the share of the worker
  have hle := h.quota table htable
  by_cases hnow : a ≤ now
  · have hroom := hbatch now hwake le_rfl hnow
    omega
  · rw [h.before (not_le.mp hnow), Nat.zero_add]
    exact hle.trans (Nat.le_mul_of_pos_left q (Window.one_le_capacity period a now _))

/-- One of the queries that are left is sent. -/
theorem draw {start : ℚ} {left queryId : Nat} (h : Paced n q a now sent received wk)
    (hpc : wk.pc = .looping start (left + 1)) :
    Paced n q a now (sent + if a ≤ now then 1 else 0) received
      { wk with pc := .asking start left queryId } := by
  have hbatch := h.batch
  rw [hpc] at hbatch
  obtain ⟨hstart, hleft⟩ := hbatch
  -- the room at the present time is no less than that at the beginning of the batch
  have hroom := Nat.mul_le_mul_right q
    (Window.capacity_mono (a := a) period_pos hstart (le_refl received))
  have hone : (if a ≤ now then 1 else 0) ≤ 1 := by split <;> omega
  refine ⟨fun hlt => ?_, h.quota, ?_, hstart, ?_⟩
  · rw [if_neg (not_le.mpr hlt), h.before hlt]
  · omega
  · omega

/-- The next batch does not begin before the period is over. -/
theorem finish {start : ℚ} (h : Paced n q a now sent received wk)
    (hpc : wk.pc = .looping start 0) :
    Paced n q a now sent received { wk with pc := .sleeping (PacedWorker.wakeTime now start) } := by
  have hbatch := h.batch
  rw [hpc] at hbatch
  refine h.of_pc fun t hwake _ hat => ?_
  -- the worker sleeps until a period after the beginning of the batch, or longer
  have hperiod : start + period ≤ t := by
    refine le_trans ?_ hwake
    unfold PacedWorker.wakeTime
    dsimp only
    split <;> linarith
  have hroom := Nat.mul_le_mul_right q
    (Window.capacity_succ_le period_pos hperiod hat (le_refl received))
  rw [Nat.add_mul, Nat.one_mul] at hroom
  have hsent := hbatch.2
  omega

/-- Each move of a worker preserves `Paced`. The cases are those of `Moves`, by the lemmas above. -/
theorem step (h : Paced n q a now sent received wk) (hm : wk.Moves n i now act wk')
    (hquota : ∀ w table, act = .receive w → QueryTable.new w qpsQueryTable = some table →
      (table.workerQps n).toNat ≤ q) :
    Paced n q a now (sent + if a ≤ now then act.sent wk' else 0)
      (received + if a ≤ now then act.received else 0) wk' := by
  have hbatch := h.batch
  cases hm with
  | @receive workload table hpc htable =>
    simp only [PaceStep.sent, PaceStep.received, ite_self, Nat.add_zero]
    exact h.receive (hquota workload table rfl htable)
  | rejected hpc =>
    simp only [PaceStep.sent, PaceStep.received, ite_self, Nat.add_zero]
    -- the workload is counted though the worker dies of it
    refine ⟨h.before, h.quota, ?_, trivial⟩
    exact h.total.trans (Nat.mul_le_mul_right q
      (Window.capacity_mono period_pos le_rfl (Nat.le_add_right _ _)))
  | begin hpc hwake htable =>
    simp only [PaceStep.sent, PaceStep.received, ite_self, Nat.add_zero]
    exact h.begin hpc hwake htable
  | draw hpc =>
    simp only [PaceStep.sent, PaceStep.received, ite_self, Nat.add_zero]
    exact h.draw hpc
  | indexError hpc =>
    simp only [PaceStep.sent, PaceStep.received, PacedWorker.underWay, Option.toList_none,
      List.length_nil, ite_self, Nat.add_zero]
    exact h.of_pc trivial
  | @counted _ start left queryId ha hdraw hreceive hpc =>
    obtain ⟨hsent, hreceived⟩ := PaceStep.sent_of_ne hdraw hreceive
      (wk.counted start left queryId)
    -- an answer neither sends nor receives, and the batch goes on with the queries that are left
    simp only [hsent, hreceived, ite_self, Nat.add_zero]
    have hleft : PacedAt q a now sent received (.looping start left) := by
      rcases hpc with hpc | hpc <;> rwa [hpc] at hbatch
    exact h.of_pc hleft
  | gone ha hpc =>
    simp only [PaceStep.sent, PaceStep.received, ite_self, Nat.add_zero]
    rw [hpc] at hbatch
    exact h.of_pc hbatch
  | failed ha =>
    obtain ⟨hsent, hreceived⟩ := PaceStep.sent_of_givesUp ha { wk with pc := .dead }
    simp only [hsent, hreceived, ite_self, Nat.add_zero]
    exact h.of_pc trivial
  | finish hpc =>
    simp only [PaceStep.sent, PaceStep.received, ite_self, Nat.add_zero]
    exact h.finish hpc
  | interrupt =>
    simp only [PaceStep.sent, PaceStep.received, ite_self, Nat.add_zero]
    exact h.of_pc trivial
  | resume hpc =>
    simp only [PaceStep.sent, PaceStep.received, ite_self, Nat.add_zero]
    exact h.of_pc trivial

end Paced

/-- No workload that the workers receive asks for more than `q` queries in a batch. -/
def Asks (n q : Nat) (es : List Event) : Prop :=
  ∀ i w table, .worker i (.receive w) ∈ es → QueryTable.new w qpsQueryTable = some table →
    (table.workerQps n).toNat ≤ q

/-- The runs of a pool. -/
abbrev Runs (n : Nat) (es : List Event) (s : PacedPool) : Prop :=
  Machine.run PacedPool.step (init n) es = some s

variable {es : List Event}

theorem timely_of_run (h : Runs n es s) : Timely n s :=
  Machine.run_invariant (timely_init n) (fun _ _ _ ht he => ht.step he) h

/-- What each worker of a pool has sent since the time `a`. -/
theorem paced_of_run (h : Runs n es s) (hasks : Asks n q es) (a : ℚ) :
    ∀ (i : Nat) wk, s.workers[i]? = some wk → Paced n q a s.now
      (s.sentBy i fun t => a ≤ t) (s.receivedBy i fun t => a ≤ t) wk := by
  revert hasks
  refine Machine.run_history (P := fun es s => Asks n q es → ∀ (i : Nat) wk,
    s.workers[i]? = some wk → Paced n q a s.now (s.sentBy i fun t => a ≤ t)
      (s.receivedBy i fun t => a ≤ t) wk) ?_ ?_ h
  -- a worker that has just been made waits for a workload
  · intro _ i wk hwk
    have hwk' : wk = ⟨.recv, none, fun _ => 0⟩ :=
      List.eq_of_mem_replicate (List.mem_of_getElem? hwk)
    subst hwk'
    refine ⟨fun _ => rfl, fun _ ht => ?_, Nat.zero_le _, trivial⟩
    cases ht
  -- the run of one event more: its workers ask for no more than the longer run does
  · intro es t e u ht ih he hasks i wk hwk
    have hold := ih fun i w table hmem => hasks i w table (List.mem_append_left _ hmem)
    rcases step_cases he with ⟨d, rfl, hd, rfl⟩ | ⟨j, act, wkj, wkj', rfl, hwkj, hm, rfl⟩
    · exact (hold i wk hwk).pass hd
    · have hlength := (timely_of_run ht).length
      rw [sentBy_afterWorker, receivedBy_afterWorker]
      -- the worker that steps, by the lemma on its moves
      rcases List.getElem?_set_eq_some hwk with ⟨rfl, rfl⟩ | ⟨hne, hwk⟩
      · rw [hlength] at hm
        have hstep := (hold j wkj hwkj).step hm fun w table hact =>
          hasks j w table (by rw [hact]; simp)
        simpa using hstep
      · -- another worker
        simpa [hne] using hold i wk hwk

/-- The times of a window of `m` periods from `a` on. -/
def inWindow (a : ℚ) (m : Nat) (t : ℚ) : Bool := a ≤ t ∧ t < a + m * period

/-- A worker sends its share once for each period of the window, for each workload that it
    receives in it, and once more. -/
theorem sentBy_le_of_run (h : Runs n es s) (hasks : Asks n q es) (a : ℚ) (m : Nat) {i : Nat}
    (hi : i < n) : s.sentBy i (inWindow a m) ≤ (m + 1 + s.receivedBy i (inWindow a m)) * q := by
  revert hasks
  refine Machine.run_history (P := fun es s => Asks n q es → s.sentBy i (inWindow a m) ≤
    (m + 1 + s.receivedBy i (inWindow a m)) * q) (fun _ => Nat.zero_le _) ?_ h
  intro es t e u ht ih he hasks
  have hu : Runs n (es ++ [e]) u := (Machine.run_concat _).mpr ⟨t, ht, he⟩
  have htimely := timely_of_run hu
  by_cases hnow : u.now < a + m * period
  · -- the window is not over: what has been sent since its beginning is all of it
    obtain ⟨wk, hwk⟩ : ∃ wk, u.workers[i]? = some wk :=
      ⟨_, List.getElem?_eq_getElem (htimely.length ▸ hi)⟩
    have hpaced := paced_of_run hu hasks a i wk hwk
    have hsent : u.sentBy i (inWindow a m) = u.sentBy i fun t => a ≤ t := by
      refine List.countP_congr fun x hx => ?_
      have hlt := ((htimely.sent x hx).1.trans_lt hnow)
      simp [inWindow, hlt]
    have hreceived : u.receivedBy i (inWindow a m) = u.receivedBy i fun t => a ≤ t := by
      refine List.countP_congr fun x hx => ?_
      have hlt := ((htimely.received x hx).1.trans_lt hnow)
      simp [inWindow, hlt]
    rw [hsent, hreceived]
    by_cases hat : a ≤ u.now
    · exact hpaced.total.trans (Nat.mul_le_mul_right q (Window.capacity_le period_pos hat hnow))
    · rw [hpaced.before (not_le.mp hat)]
      exact Nat.zero_le _
  · -- it is over: nothing is added
    have hold := ih fun i w table hmem => hasks i w table (List.mem_append_left _ hmem)
    rcases step_cases he with ⟨d, rfl, -, rfl⟩ | ⟨j, act, wkj, wkj', rfl, -, -, rfl⟩
    · exact hold
    · have hout : inWindow a m t.now = false := by
        have hle := not_lt.mp hnow
        simp [inWindow, show a + m * period ≤ t.now from hle]
      rw [sentBy_afterWorker, receivedBy_afterWorker, hout]
      simpa using hold

/-- All queries and workloads are those of the workers. -/
theorem sum_sentBy (hs : Timely n s) (p : ℚ → Bool) :
    ∑ i ∈ Finset.range n, s.sentBy i p = s.sent.countP fun x => p x.1 :=
  List.sum_countP_range (f := fun x : ℚ × Nat × Nat => x.2.1) (fun x hx => (hs.sent x hx).2) _

/-- The same for the workloads. -/
theorem sum_receivedBy (hs : Timely n s) (p : ℚ → Bool) :
    ∑ i ∈ Finset.range n, s.receivedBy i p = s.received.countP fun x => p x.1 :=
  List.sum_countP_range (f := fun x : ℚ × Nat => x.2) (fun x hx => (hs.received x hx).2) _

/-- The share of a worker in a workload that asks for `R` queries a second at most. -/
theorem workerQps_le {table : QueryTable Nat Nat} {R : Nat} (hR : table.totalQps ≤ R) (n : Nat) :
    (table.workerQps n).toNat ≤ ((R + 1) / n + 9) / 10 := by
  obtain ⟨-, hlt⟩ := QueryTable.workerQps_spec table n
  -- the share is a tenth of the whole part of `(totalQps + 1) / n`, rounded up
  have hdiv : (table.totalQps + 1).fdiv n ≤ ((R + 1) / n : Nat) := by
    rw [Int.fdiv_eq_ediv_of_nonneg _ (Int.natCast_nonneg n), Int.natCast_div]
    rcases Nat.eq_zero_or_pos n with rfl | hn
    · simp
    · exact Int.ediv_le_ediv (by exact_mod_cast hn) (by push_cast; omega)
  generalize (R + 1) / n = k at hdiv
  omega

/-- In whatever order the workers go on, are paused, get workloads, lose their connection or
    die: in a window of `m` periods they send a tenth of `(R + 1) / n + 9` queries at most, where
    `R` is the largest rate of a workload, for each worker and period, once more for each worker,
    and once for each workload that one of them receives. -/
theorem queries_of_window (h : Runs n es s) {R : Nat}
    (hR : ∀ i w, .worker i (.receive w) ∈ es → sumQps w ≤ R) (a : ℚ) (m : Nat) :
    10 * (s.sent.countP fun x => inWindow a m x.1) ≤
      (n * (m + 1) + s.received.countP fun x => inWindow a m x.1) * ((R + 1) / n + 9) := by
  -- a batch of any worker has at most `q` queries; then sum over the workers
  have hasks : Asks n (((R + 1) / n + 9) / 10) es := by
    intro i w table hmem htable
    exact workerQps_le ((QueryTable.totalQps_of_new htable).trans_le (hR i w hmem)) n
  have htimely := timely_of_run h
  generalize hq : ((R + 1) / n + 9) / 10 = q at hasks
  calc 10 * (s.sent.countP fun x => inWindow a m x.1)
      = 10 * ∑ i ∈ Finset.range n, s.sentBy i (inWindow a m) := by rw [sum_sentBy htimely]
    _ ≤ 10 * ∑ i ∈ Finset.range n, (m + 1 + s.receivedBy i (inWindow a m)) * q := by
        refine Nat.mul_le_mul_left 10 (Finset.sum_le_sum fun i hi => ?_)
        exact sentBy_le_of_run h hasks a m (Finset.mem_range.mp hi)
    _ = (n * (m + 1) + s.received.countP fun x => inWindow a m x.1) * (10 * q) := by
        rw [← Finset.sum_mul, Finset.sum_add_distrib, sum_receivedBy htimely, Finset.sum_const,
          Finset.card_range, smul_eq_mul]
        ring
    _ ≤ _ := Nat.mul_le_mul_left _ (by omega)

/-- A worker that sends two batches, where the database is gone for a moment. -/
def twoBatches : List Event :=
  [.worker 0 (.receive [(0, ⟨10, "select 1"⟩)]), .worker 0 .begin, .worker 0 (.draw 0),
    .worker 0 (.answer .ok), .worker 0 (.draw (1 / 2)), .worker 0 (.answer (.error 2006)),
    .worker 0 (.reconnect true), .worker 0 .finish, .pass (1 / 10), .worker 0 .begin,
    .worker 0 (.draw 0)]

/-- Three queries in two periods, one worker, at most ten a second. -/
theorem queries_of_two_batches :
    ∃ s, Runs 1 twoBatches s ∧ (s.sent.countP fun x => inWindow 0 2 x.1) = 3 ∧
      10 * (s.sent.countP fun x => inWindow 0 2 x.1) ≤
        (1 * (2 + 1) + s.received.countP fun x => inWindow 0 2 x.1) * ((10 + 1) / 1 + 9) := by
  obtain ⟨s, hs, hp⟩ := Machine.exists_run_of_map PacedPool.step (init 1) twoBatches
    (fun s => (s.sent.countP fun x => inWindow 0 2 x.1) == 3) (by decide +kernel)
  refine ⟨s, hs, by simpa using hp, queries_of_window hs (fun i w hmem => ?_) 0 2⟩
  simp only [twoBatches, List.mem_cons, Event.worker.injEq, PaceStep.receive.injEq, reduceCtorEq,
    and_false, List.not_mem_nil, or_false] at hmem
  rw [hmem.2]
  decide

end PacedPool

/-! ## What a worker has counted -/

namespace PacedWorker

variable {nworkers index : Nat} {now : ℚ} {wk wk' : PacedWorker} {act : PaceStep}

/-- The query that a step to `wk'` sends. -/
def sentQuery (wk' : PacedWorker) : PaceStep → Option Nat
  | .draw _ => wk'.underWay
  | _ => none

/-- The query that a step gives up. -/
def givenUp (wk : PacedWorker) (act : PaceStep) : Option Nat :=
  if act.givesUp then wk.underWay else none

/-- A query that is under way is counted or given up. -/
theorem stats_step (hm : wk.Moves nworkers index now act wk') (k : Nat) :
    wk.stats k + wk.underWay.toList.count k + (wk'.sentQuery act).toList.count k =
      wk'.stats k + (wk.givenUp act).toList.count k + wk'.underWay.toList.count k := by
  cases hm with
  -- these moves leave the statistics alone, and no query is under way or one is begun
  | receive hpc | rejected hpc | begin hpc | draw hpc | indexError hpc | finish hpc
  | resume hpc => simp [underWay, sentQuery, givenUp, PaceStep.givesUp, hpc]
  -- the query that was under way is counted; it is another one than `k` or `k` itself
  | @counted _ start left queryId ha _ _ hpc =>
    have hway : wk.underWay = some queryId := by
      rcases hpc with hpc | hpc <;> rw [underWay, hpc]
    have hsent : (wk.counted start left queryId).sentQuery act = none := by
      cases act <;> rfl
    rw [hsent, givenUp, ha, hway]
    by_cases hk : k = queryId
    · subst hk
      simp [counted, underWay]
    · have hk' : queryId ≠ k := fun h => hk h.symm
      simp [counted, underWay, hk, hk']
  | gone ha hpc => simp [underWay, sentQuery, givenUp, ha, hpc]
  | failed ha =>
    -- a worker that is dead sends nothing
    have hsent : (PacedWorker.mk .dead wk.table wk.stats).sentQuery act = none := by
      cases act <;> rfl
    rw [givenUp, if_pos ha, hsent]
    simp [underWay]
  | interrupt => simp [underWay, sentQuery, givenUp, PaceStep.givesUp]

end PacedWorker

namespace PacedPool

/-- The query that a step gives up, and its worker. -/
def givenUp (s : PacedPool) : Event → List (Nat × Nat)
  | .worker i act => (((s.workers[i]?).bind fun wk => wk.givenUp act).toList).map (i, ·)
  | .pass _ => []

/-- The queries of a run whose worker has been interrupted or has died before it has counted
    them. -/
def abandoned (n : Nat) (es : List Event) : List (Nat × Nat) :=
  Machine.emits PacedPool.step givenUp (init n) es

variable {n : Nat} {es : List Event} {s : PacedPool}

/-- Counting pairs is counting second components, if the first is the right one. -/
theorem count_map_pair (i j k : Nat) (o : Option Nat) :
    (o.toList.map (i, ·)).count (j, k) = if i = j then o.toList.count k else 0 := by
  cases o with
  | none => simp
  | some x => by_cases hij : i = j <;> simp [hij, List.count_cons]

/-- What a worker has counted of a query are the times that it has sent it, whether the database
    has answered them with an error or not, but for those that it has given up and the one that
    is under way. -/
theorem stats_of_run (h : Runs n es s) {i : Nat} {wk : PacedWorker} (hwk : s.workers[i]? = some wk)
    (k : Nat) :
    (s.sent.map Prod.snd).count (i, k) =
      wk.stats k + (abandoned n es).count (i, k) + wk.underWay.toList.count k := by
  revert i wk
  refine Machine.run_history (P := fun es s => ∀ {i : Nat} {wk : PacedWorker},
    s.workers[i]? = some wk → (s.sent.map Prod.snd).count (i, k) =
      wk.stats k + (abandoned n es).count (i, k) + wk.underWay.toList.count k) ?_ ?_ h
  -- nothing is sent, counted or given up at the beginning
  · intro i wk hwk
    have hwk' : wk = ⟨.recv, none, fun _ => 0⟩ :=
      List.eq_of_mem_replicate (List.mem_of_getElem? hwk)
    subst hwk'
    rfl
  · intro es t e u ht ih he i wk hwk
    rw [abandoned, Machine.emits_concat givenUp e ht, List.count_append, ← abandoned]
    rcases step_cases he with ⟨d, rfl, hd, rfl⟩ | ⟨j, act, wkj, wkj', rfl, hwkj, hm, rfl⟩
    · exact ih hwk
    -- what the step adds to the queries sent and to those given up, for the worker `i`
    · have hsent : ((t.sends j wkj' act).map Prod.snd).count (i, k) =
          if j = i then (wkj'.sentQuery act).toList.count k else 0 := by
        rw [← count_map_pair]
        cases act <;> simp [sends, PacedWorker.sentQuery, Function.comp_def]
      have hgiven : (t.givenUp (.worker j act)).count (i, k) =
          if j = i then (wkj.givenUp act).toList.count k else 0 := by
        rw [givenUp, hwkj, count_map_pair]
        rfl
      show ((t.sent ++ t.sends j wkj' act).map Prod.snd).count (i, k) = _
      rw [List.map_append, List.count_append, hsent, hgiven]
      rcases List.getElem?_set_eq_some hwk with ⟨rfl, rfl⟩ | ⟨hne, hwk⟩
      -- the balance of the step, added to that of the run before it
      · have hold := ih hwkj
        have hstep := PacedWorker.stats_step hm k
        rw [if_pos rfl, if_pos rfl]
        omega
      · rw [if_neg hne, if_neg hne, ih hwk]
        rfl

/-- One query is answered, one is counted after an error, and one is under way. -/
theorem stats_of_two_batches :
    ∃ s wk, Runs 1 twoBatches s ∧ s.workers[0]? = some wk ∧ wk.stats 0 = 2 ∧
      (s.sent.map Prod.snd).count (0, 0) =
        wk.stats 0 + (abandoned 1 twoBatches).count (0, 0) + wk.underWay.toList.count 0 := by
  obtain ⟨s, hs, hp⟩ := Machine.exists_run_of_map PacedPool.step (init 1) twoBatches
    (fun s => s.workers[0]?.any fun wk => wk.stats 0 == 2) (by decide +kernel)
  obtain ⟨wk, hwk, hstats⟩ := (Option.any_eq_true _ _).mp hp
  exact ⟨s, wk, hs, hwk, by simpa using hstats, stats_of_run hs hwk 0⟩

end PacedPool

end WorkloadSimulator.Stress
