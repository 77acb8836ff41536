import WorkloadSimulator.ForStd.Machine
import WorkloadSimulator.Spec.PoolStep

/-!
# The pause barrier of the worker pool

`pause` interrupts every process and waits for one `True` from each. A process that is
interrupted before it has read its workload answers all the same, and reads it afterwards;
one that is interrupted outside its inner `try` dies, and the next `pause` passes over it.

## Key results

- `inv_step`: every call of the parent finds and leaves the processes in the phases that it
  relies on, as long as no process fails and each signal finds its process in the loop on a
  workload, or at `recv` with an empty pipe
- `quiet_step`: processes that all wait with empty pipes do nothing until the next
  `send_workload`, whatever else happens
- `barrier_of_meets`: the barrier of `pause`, and that no process runs an earlier workload
-/

namespace WorkloadSimulator.Stress

/-! ## The phases of a process -/

/-- Whether `KeyboardInterrupt` finds the process in the loop on a workload, or at `recv` in
    the inner `try` with nothing to read. -/
def Proc.interruptible (p : Proc) : Bool :=
  match p.pc with
  | .running _ => true
  | .recv true => p.inbox.isEmpty
  | _ => false

/-- The step is no failure, and no interrupt that finds the process elsewhere. -/
def Proc.Orderly (p : Proc) : ProcStep → Prop
  | .raises => False
  | .interrupt => p.interruptible = true
  | _ => True

/-- The process waits at `recv`, and both directions of its pipe are empty. -/
structure Proc.Waiting (p : Proc) : Prop where
  pc : ∃ b, p.pc = .recv b
  inbox : p.inbox = []
  outbox : p.outbox = 0
  sigint : p.sigint = false

/-- At `recv` or in the loop, with no workload but `cur`. -/
inductive Load (cur : Option Workload) : ProcPc → List Workload → Prop where
  | idle (b : Bool) : Load cur (.recv b) []
  | queued (b : Bool) {w : Workload} (h : cur = some w) : Load cur (.recv b) [w]
  | running {w : Workload} (h : cur = some w) : Load cur (.running w) []

/-- The process has been sent nothing but `cur`. -/
structure Proc.Ready (cur : Option Workload) (p : Proc) : Prop where
  load : Load cur p.pc p.inbox
  outbox : p.outbox = 0
  sigint : p.sigint = false

/-- The process is on its way to send `True`, or has sent it. -/
structure Proc.Answering (p : Proc) : Prop where
  turn : (p.outbox = 0 ∧ (p.pc = .starting ∨ p.pc = .handler ∨ p.pc = .sending)) ∨
    (p.outbox = 1 ∧ ∃ b, p.pc = .recv b)
  inbox : p.inbox = []
  sigint : p.sigint = false

/-- A signal is pending, or the process answers it. -/
def Proc.Signalled (cur : Option Workload) (p : Proc) : Prop :=
  (Load cur p.pc p.inbox ∧ p.outbox = 0 ∧ p.sigint = true) ∨ p.Answering

namespace Proc

variable {p p' : Proc} {a : ProcStep} {cur : Option Workload}

/-- A new process has its first answer to send. -/
theorem spawn_answering : spawn.Answering := ⟨.inl ⟨rfl, .inl rfl⟩, rfl, rfl⟩

/-- A process that waits is ready for any workload. -/
theorem Waiting.ready (h : p.Waiting) (cur : Option Workload) : p.Ready cur := by
  obtain ⟨b, hpc⟩ := h.pc
  refine ⟨?_, h.outbox, h.sigint⟩
  rw [hpc, h.inbox]
  exact .idle b

/-- A waiting process only goes on to its `recv`. -/
theorem Waiting.step (h : p.Waiting) (hm : p.Moves a p') (ho : p.Orderly a) : p'.Waiting := by
  obtain ⟨b, hpc⟩ := h.pc
  -- at its `recv` it has nothing to read and no signal to take
  cases hm with
  | enterTry => exact ⟨⟨true, rfl⟩, h.inbox, h.outbox, h.sigint⟩
  | read hpc' hin =>
    rw [h.inbox] at hin
    exact nomatch hin
  | interrupt hsig =>
    rw [h.sigint] at hsig
    exact nomatch hsig
  | raises => exact ho.elim
  | start hpc' | send hpc' | work _ hpc' | resume hpc' => exact nomatch hpc.symm.trans hpc'

/-- A load goes on to be read and worked on. -/
theorem load_step (h : Load cur p.pc p.inbox) (hm : p.Moves a p') (ho : p.Orderly a)
    (ha : a ≠ .interrupt) :
    Load cur p'.pc p'.inbox ∧ p'.outbox = p.outbox ∧ p'.sigint = p.sigint := by
  cases hm with
  | enterTry hpc =>
    -- with or without a workload in the pipe
    refine ⟨?_, rfl, rfl⟩
    rw [hpc] at h
    show Load cur (.recv true) p.inbox
    cases hin : p.inbox with
    | nil => exact .idle true
    | cons w ws =>
      rw [hin] at h
      cases h with
      | queued _ hw => exact .queued true hw
  | read hpc hin =>
    refine ⟨?_, rfl, rfl⟩
    rw [hpc, hin] at h
    cases h with
    | queued _ hw => exact .running hw
  | work => exact ⟨h, rfl, rfl⟩
  | interrupt => exact absurd rfl ha
  | raises => exact ho.elim
  | start hpc | send hpc | resume hpc =>
    rw [hpc] at h
    exact nomatch h

/-- A process that is ready stays so, as long as no signal comes. -/
theorem Ready.step (h : p.Ready cur) (hm : p.Moves a p') (ho : p.Orderly a) :
    p'.Ready cur := by
  have ha : a ≠ .interrupt := by
    rintro rfl
    cases hm with
    | interrupt hsig =>
      rw [h.sigint] at hsig
      exact nomatch hsig
  obtain ⟨hload, hout, hsig⟩ := load_step h.load hm ho ha
  exact ⟨hload, hout.trans h.outbox, hsig.trans h.sigint⟩

/-- A process that answers sends one `True` and waits. -/
theorem Answering.step (h : p.Answering) (hm : p.Moves a p') (ho : p.Orderly a) :
    p'.Answering := by
  cases hm with
  | start hpc | resume hpc =>
    -- a worker that starts or resumes has not answered yet
    rcases h.turn with ⟨hout, -⟩ | ⟨-, b, hrecv⟩
    · exact ⟨.inl ⟨hout, .inr (.inr rfl)⟩, h.inbox, h.sigint⟩
    · exact nomatch hrecv.symm.trans hpc
  | send hpc =>
    rcases h.turn with ⟨hout, -⟩ | ⟨-, b, hrecv⟩
    · exact ⟨.inr ⟨by show p.outbox + 1 = 1; rw [hout], false, rfl⟩, h.inbox, h.sigint⟩
    · exact nomatch hrecv.symm.trans hpc
  | enterTry hpc =>
    rcases h.turn with ⟨-, hpc' | hpc' | hpc'⟩ | ⟨hout, -⟩
    · exact nomatch hpc.symm.trans hpc'
    · exact nomatch hpc.symm.trans hpc'
    · exact nomatch hpc.symm.trans hpc'
    · exact ⟨.inr ⟨hout, true, rfl⟩, h.inbox, h.sigint⟩
  | read hpc hin =>
    rw [h.inbox] at hin
    exact nomatch hin
  | work _ hpc => exact h
  | interrupt hsig =>
    rw [h.sigint] at hsig
    exact nomatch hsig
  | raises => exact ho.elim

/-- A pending signal is taken where the process has nothing left to read. -/
theorem Signalled.step (h : p.Signalled cur) (hm : p.Moves a p') (ho : p.Orderly a) :
    p'.Signalled cur := by
  rcases h with ⟨hload, hout, hsig⟩ | h
  · by_cases ha : a = .interrupt
    · -- the signal is taken, and the process answers it
      subst ha
      right
      cases hm with
      | interrupt hsig' halive =>
        have hint : p.interruptible = true := ho
        unfold interruptible at hint
        split at hint
        · rename_i w hpc
          rw [hpc] at hload
          refine ⟨.inl ⟨hout, .inr (.inl ?_)⟩, ?_, rfl⟩
          · show interrupted p.pc = _
            rw [hpc]
            rfl
          · show p.inbox = []
            cases hin : p.inbox with
            | nil => rfl
            | cons w' ws => rw [hin] at hload; exact nomatch hload
        · rename_i hpc
          refine ⟨.inl ⟨hout, .inr (.inl ?_)⟩, List.isEmpty_iff.mp hint, rfl⟩
          show interrupted p.pc = _
          rw [hpc]
          rfl
        · exact nomatch hint
    · obtain ⟨hload', hout', hsig'⟩ := load_step hload hm ho ha
      exact .inl ⟨hload', hout'.trans hout, hsig'.trans hsig⟩
  · exact .inr (h.step hm ho)

/-- The answer of a process leaves it waiting. -/
theorem Signalled.waiting {n : Nat} (h : p.Signalled cur) (hout : p.outbox = n + 1) :
    ({ p with outbox := n } : Proc).Waiting := by
  rcases h with ⟨-, hzero, -⟩ | h
  · omega
  · rcases h.turn with ⟨hzero, -⟩ | ⟨hone, hpc⟩
    · omega
    · exact ⟨hpc, h.inbox, by show n = 0; omega, h.sigint⟩

/-- A process that has been signalled is alive. -/
theorem Signalled.isAlive (h : p.Signalled cur) : p.isAlive = true := by
  unfold Proc.isAlive
  split
  · rename_i hpc
    rcases h with ⟨hload, -, -⟩ | h
    · rw [hpc] at hload
      exact nomatch hload
    · rcases h.turn with ⟨-, hpc' | hpc' | hpc'⟩ | ⟨-, b, hpc'⟩ <;>
        exact nomatch hpc.symm.trans hpc'
  · rfl

/-- A process that is ready is alive. -/
theorem Ready.isAlive (h : p.Ready cur) : p.isAlive = true := by
  unfold Proc.isAlive
  split
  · rename_i hpc
    have hload := h.load
    rw [hpc] at hload
    exact nomatch hload
  · rfl

/-- A process in one of the phases runs the current workload only. -/
theorem Signalled.current (h : p.Signalled cur) {w : Workload} (hpc : p.pc = .running w) :
    cur = some w := by
  rcases h with ⟨hload, -, -⟩ | h
  · rw [hpc] at hload
    generalize p.inbox = ws at hload
    cases hload with
    | running hw => exact hw
  · rcases h.turn with ⟨-, hpc' | hpc' | hpc'⟩ | ⟨-, b, hpc'⟩ <;>
      exact nomatch hpc.symm.trans hpc'

/-- A process that is ready runs the current workload only. -/
theorem Ready.current (h : p.Ready cur) {w : Workload} (hpc : p.pc = .running w) :
    cur = some w := by
  have hload := h.load
  rw [hpc] at hload
  generalize p.inbox = ws at hload
  cases hload with
  | running hw => exact hw

end Proc

/-! ## The phases of the pool -/

/-- The processes before `i` are in one phase, those from `i` on in another. -/
def Split (P Q : Proc → Prop) (i : Nat) (procs : List Proc) : Prop :=
  ∀ (j : Nat) p, procs[j]? = some p → (j < i → P p) ∧ (i ≤ j → Q p)

section
variable {P Q : Proc → Prop} {i : Nat} {procs : List Proc}

theorem split_zero (h : ∀ p ∈ procs, Q p) : Split P Q 0 procs :=
  fun j p hget => ⟨fun hlt => absurd hlt (Nat.not_lt_zero j),
    fun _ => h p (List.mem_of_getElem? hget)⟩

/-- Once `i` has reached the end, all processes are in the first phase. -/
theorem Split.all (h : Split P Q i procs) (hend : procs.length ≤ i) : ∀ p ∈ procs, P p := by
  intro p hp
  obtain ⟨j, hj⟩ := List.mem_iff_getElem?.mp hp
  have hlt := (List.getElem?_eq_some_iff.mp hj).1
  exact (h j p hj).1 (by omega)

/-- What both phases give holds of all processes. -/
theorem Split.forall {R : Proc → Prop} (h : Split P Q i procs) (hP : ∀ p, P p → R p)
    (hQ : ∀ p, Q p → R p) : ∀ p ∈ procs, R p := by
  intro p hp
  obtain ⟨j, hj⟩ := List.mem_iff_getElem?.mp hp
  rcases Nat.lt_or_ge j i with hlt | hge
  · exact hP p ((h j p hj).1 hlt)
  · exact hQ p ((h j p hj).2 hge)

/-- The process at `i` goes over to the first phase. -/
theorem Split.succ (h : Split P Q i procs) {p' : Proc} (hp : P p') :
    Split P Q (i + 1) (procs.set i p') := by
  intro j q hget
  rcases List.getElem?_set_eq_some hget with ⟨rfl, rfl⟩ | ⟨hne, hget⟩
  · exact ⟨fun _ => hp, fun hle => absurd hle (by omega)⟩
  · exact ⟨fun hlt => (h j q hget).1 (by omega), fun hle => (h j q hget).2 (by omega)⟩

/-- A step of a process keeps the phases if it keeps both. -/
theorem Split.set (h : Split P Q i procs) {j : Nat} {p p' : Proc} (hget : procs[j]? = some p)
    (hP : P p → P p') (hQ : Q p → Q p') : Split P Q i (procs.set j p') := by
  intro k q hk
  rcases List.getElem?_set_eq_some hk with ⟨rfl, rfl⟩ | ⟨hne, hk⟩
  · exact ⟨fun hlt => hP ((h j p hget).1 hlt), fun hle => hQ ((h j p hget).2 hle)⟩
  · exact h k q hk

end

namespace Pool

/-- The phases that the parent relies on, at each of its program points. -/
def Phase (paused : Bool) (cur : Option Workload) (procs : List Proc) : ParentPc → Prop
  | .launch => paused = true ∧ ∀ p ∈ procs, p.Waiting
  | .idle result => (paused = true → ∀ p ∈ procs, p.Waiting) ∧ (∀ p ∈ procs, p.Ready cur) ∧
      (result.isSome = true → paused = true)
  | .send w i => paused = false ∧ cur = some w ∧ Split (Proc.Ready cur) Proc.Waiting i procs
  | .signal i => paused = true ∧ Split (Proc.Signalled cur) (Proc.Ready cur) i procs
  | .check i _ => paused = true ∧ Split Proc.Waiting (Proc.Signalled cur) i procs
  | .sync i _ .launch => paused = true ∧ Split Proc.Waiting (Proc.Signalled cur) i procs ∧
      i + 1 = procs.length
  | .sync i _ (.pause _) => paused = true ∧ Split Proc.Waiting (Proc.Signalled cur) i procs

/-- The processes are in the phases that the parent relies on. -/
def Inv (s : Pool) : Prop := Phase s.paused s.workload s.procs s.parent

/-- The step is one of the parent, or an orderly one of a process; `send_workload` is called
    while the pool is paused. -/
def Orderly (s : Pool) : Event → Prop
  | .callSend _ => s.paused = true
  | .proc i a => ∀ p ∈ s.procs[i]?, p.Orderly a
  | _ => True

instance (p : Proc) : (a : ProcStep) → Decidable (p.Orderly a)
  | .raises => .isFalse id
  | .interrupt => inferInstanceAs (Decidable (_ = _))
  | .start | .send | .enterTry | .read | .work _ | .resume => .isTrue trivial

instance (s : Pool) : (e : Event) → Decidable (Orderly s e)
  | .callSend _ => inferInstanceAs (Decidable (_ = _))
  | .proc _ _ => inferInstanceAs (Decidable (∀ p ∈ _, _))
  | .callPause | .parent => .isTrue trivial

variable {s s' : Pool}

/-- Every process of the pool runs the current workload only. -/
theorem Inv.current (h : s.Inv) :
    ∀ p ∈ s.procs, ∀ w, p.pc = .running w → s.workload = some w := by
  have hwait : ∀ p : Proc, p.Waiting → ∀ w, p.pc = .running w → s.workload = some w :=
    fun p hp w hpc => (hp.ready _).current hpc
  have hready : ∀ p : Proc, p.Ready s.workload → ∀ w, p.pc = .running w →
      s.workload = some w := fun p hp w hpc => hp.current hpc
  have hsignalled : ∀ p : Proc, p.Signalled s.workload → ∀ w, p.pc = .running w →
      s.workload = some w := fun p hp w hpc => hp.current hpc
  unfold Inv at h
  -- each phase splits the workers at `i` into those already reached and the rest
  cases hpar : s.parent with
  | launch => rw [hpar] at h; exact fun p hp => hwait p (h.2 p hp)
  | idle r => rw [hpar] at h; exact fun p hp => hready p (h.2.1 p hp)
  | send w i => rw [hpar] at h; exact h.2.2.forall hready hwait
  | signal i => rw [hpar] at h; exact h.2.forall hsignalled hready
  | check i ok => rw [hpar] at h; exact h.2.forall hwait hsignalled
  | sync i polled caller =>
    rw [hpar] at h
    cases caller with
    | launch => exact h.2.1.forall hwait hsignalled
    | pause ok => exact h.2.forall hwait hsignalled

/-- An orderly step of a process keeps the phases. -/
theorem phase_proc {paused : Bool} {cur : Option Workload} {procs : List Proc}
    {parent : ParentPc} {i : Nat} {p p' : Proc} {a : ProcStep}
    (h : Phase paused cur procs parent) (hget : procs[i]? = some p) (hm : p.Moves a p')
    (ho : p.Orderly a) : Phase paused cur (procs.set i p') parent := by
  have hwait : p.Waiting → p'.Waiting := fun hp => hp.step hm ho
  have hready : p.Ready cur → p'.Ready cur := fun hp => hp.step hm ho
  have hsignalled : p.Signalled cur → p'.Signalled cur := fun hp => hp.step hm ho
  -- only the worker at `i` has changed
  have hset : ∀ {R : Proc → Prop}, (R p → R p') → (∀ q ∈ procs, R q) →
      ∀ q ∈ procs.set i p', R q := by
    intro R hR hall q hq
    rcases List.mem_or_eq_of_mem_set hq with hq | rfl
    · exact hall q hq
    · exact hR (hall p (List.mem_of_getElem? hget))
  cases parent with
  | launch => exact ⟨h.1, hset hwait h.2⟩
  | idle r => exact ⟨fun hp => hset hwait (h.1 hp), hset hready h.2.1, h.2.2⟩
  | send w i => exact ⟨h.1, h.2.1, h.2.2.set hget hready hwait⟩
  | signal i => exact ⟨h.1, h.2.set hget hsignalled hready⟩
  | check i ok => exact ⟨h.1, h.2.set hget hwait hsignalled⟩
  | sync i polled caller =>
    cases caller with
    | launch => exact ⟨h.1, h.2.1.set hget hwait hsignalled, by rw [List.length_set]; exact h.2.2⟩
    | pause ok => exact ⟨h.1, h.2.set hget hwait hsignalled⟩

/-- In `_sync` the processes are in the same phases whoever has called it. -/
theorem phase_sync_iff {paused : Bool} {cur : Option Workload} {procs : List Proc} {i : Nat}
    {polled : Bool} {caller : Caller} :
    Phase paused cur procs (.sync i polled caller) ↔
      paused = true ∧ Split Proc.Waiting (Proc.Signalled cur) i procs ∧
        (caller = .launch → i + 1 = procs.length) := by
  cases caller with
  | launch => simp [Phase]
  | pause ok => simp [Phase]

/-- The return of `_sync` with the process at `i` waiting. -/
theorem phase_returnSync {i : Nat} {result : Bool} {caller : Caller} (hp : s.paused = true)
    (hsplit : Split Proc.Waiting (Proc.Signalled s.workload) (i + 1) s.procs)
    -- the parent goes on to the next process, or its caller has come to the end
    (hlen : caller = .launch → i + 1 = s.procs.length) : (s.returnSync i result caller).Inv := by
  cases caller with
  | pause ok => exact ⟨hp, hsplit⟩
  | launch =>
    have hall : ∀ p ∈ s.procs, p.Waiting := hsplit.all (by rw [hlen rfl])
    unfold Inv returnSync
    by_cases hi : i < s.nworkers
    · rw [if_pos hi]
      exact ⟨hp, hall⟩
    · rw [if_neg hi]
      exact ⟨fun _ => hall, fun p hmem => (hall p hmem).ready _, fun hr => nomatch hr⟩

/-- A step of the parent keeps the phases. -/
theorem inv_parent (h : s.Inv) (hm : ParentMoves s s') : s'.Inv := by
  unfold Inv at h
  -- by what the parent does; each process it comes to goes over from the one phase to the other
  cases hm with
  | launch hpar =>
    rw [hpar] at h
    refine ⟨h.1, ?_, by simp⟩
    -- the new process has `True` to send
    intro j p hget
    rcases List.getElem?_concat_eq_some hget with hold | ⟨rfl, rfl⟩
    · have hlt := (List.getElem?_eq_some_iff.mp hold).1
      exact ⟨fun _ => h.2 p (List.mem_of_getElem? hold), fun hle => absurd hle (by omega)⟩
    · exact ⟨fun hlt => absurd hlt (lt_irrefl _), fun _ => .inr Proc.spawn_answering⟩
  | @send w i p hpar hget =>
    rw [hpar] at h
    obtain ⟨hpaused, hcur, hsplit⟩ := h
    have hwait := (hsplit i p hget).2 (le_refl i)
    refine ⟨hpaused, hcur, hsplit.succ ?_⟩
    -- it is alive and gets the workload
    rw [if_pos (hwait.ready s.workload).isAlive]
    obtain ⟨b, hpc⟩ := hwait.pc
    refine ⟨?_, hwait.outbox, hwait.sigint⟩
    show Load s.workload p.pc (p.inbox ++ [w])
    rw [hpc, hwait.inbox]
    exact .queued b hcur
  | sent hpar hend =>
    rw [hpar] at h
    obtain ⟨hpaused, hcur, hsplit⟩ := h
    have hall := hsplit.all (List.getElem?_eq_none_iff.mp hend)
    exact ⟨fun hp => absurd hp (by simp [hpaused]), hall, fun hr => nomatch hr⟩
  | @signal i p hpar hget =>
    rw [hpar] at h
    obtain ⟨hpaused, hsplit⟩ := h
    have hready := (hsplit i p hget).2 (le_refl i)
    refine ⟨hpaused, hsplit.succ ?_⟩
    rw [if_pos hready.isAlive]
    exact .inl ⟨hready.load, hready.outbox, rfl⟩
  | signalled hpar hend =>
    rw [hpar] at h
    obtain ⟨hpaused, hsplit⟩ := h
    exact ⟨hpaused, split_zero (hsplit.all (List.getElem?_eq_none_iff.mp hend))⟩
  | @check i ok p hpar hget =>
    rw [hpar] at h
    obtain ⟨hpaused, hsplit⟩ := h
    unfold Inv
    -- no process is passed over
    rw [if_pos ((hsplit i p hget).2 (le_refl i)).isAlive]
    exact ⟨hpaused, hsplit⟩
  -- all processes have been asked, so the pause begins to wait for their answers
  | checked hpar hend =>
    rw [hpar] at h
    obtain ⟨hpaused, hsplit⟩ := h
    have hall := hsplit.all (List.getElem?_eq_none_iff.mp hend)
    exact ⟨fun _ => hall, fun p hp => (hall p hp).ready _, fun _ => hpaused⟩
  | @answered i n caller p hpar hget hout =>
    rw [hpar] at h
    obtain ⟨hpaused, hsplit, hlen⟩ := phase_sync_iff.mp h
    have hwait := ((hsplit i p hget).2 (le_refl i)).waiting hout
    refine phase_returnSync hpaused (hsplit.succ hwait) fun hc => ?_
    show i + 1 = (s.procs.set i _).length
    rw [List.length_set]
    exact hlen hc
  | nothing hpar hget hout =>
    rw [hpar] at h
    exact phase_sync_iff.mpr (phase_sync_iff.mp h)
  | again hpar hget halive =>
    rw [hpar] at h
    exact phase_sync_iff.mpr (phase_sync_iff.mp h)
  | @gone i caller p hpar hget hdead =>
    -- a signalled process is alive
    rw [hpar] at h
    obtain ⟨-, hsplit, -⟩ := phase_sync_iff.mp h
    have halive := ((hsplit i p hget).2 (le_refl i)).isAlive
    rw [hdead] at halive
    exact nomatch halive

/-- An orderly step keeps the phases. -/
theorem inv_step {e : Event} (h : s.Inv) (ho : Orderly s e) (he : s.step e = some s') :
    s'.Inv := by
  cases moves_of_step he with
  | callSend w hpar =>
    -- `send_workload` finds all processes waiting
    unfold Inv at h
    rw [hpar] at h
    exact ⟨rfl, rfl, split_zero (h.1 ho)⟩
  | callPause hpar =>
    unfold Inv at h
    rw [hpar] at h
    exact ⟨rfl, split_zero h.2.1⟩
  | parent hm => exact inv_parent h hm
  | @proc i p p' a hget hm =>
    obtain ⟨qps, qs, heff⟩ := effect_eq s i p a
    rw [heff]
    exact phase_proc h hget hm (ho p hget)

/-! ## The arrays -/

/-- The rates of the workload that a process has last read are zero. -/
def Zeroed (s : Pool) (p : Proc) : Prop :=
  ∀ w, p.workload = some w → ∀ k ∈ w.keys, s.qpsArray k = 0

/-- It says nothing about a process that has read no workload. -/
theorem zeroed_spawn (s : Pool) : s.Zeroed .spawn := fun _ hw => nomatch hw

/-- The rates are those of a workload, whatever else a process does. -/
theorem Zeroed.congr {p p' : Proc} (h : s.Zeroed p) (hw : p'.workload = p.workload)
    (hqps : s'.qpsArray = s.qpsArray) : s'.Zeroed p' := by
  unfold Zeroed at h ⊢
  rwa [hw, hqps]

/-- The rates of `stat_loop` are zero, unless it is at work or on its way to reset them. -/
def StatInv (s : Pool) : Prop :=
  ∀ p, s.procs[s.nworkers]? = some p →
    (∃ w, p.pc = .running w) ∨ p.pc = .handler ∨ p.pc = .dead ∨ s.Zeroed p

/-- No process has anything to run or to be sent, and the rates are zero. -/
structure Quiet (s : Pool) : Prop where
  parent : ∀ w i, s.parent ≠ .send w i
  inbox : ∀ p ∈ s.procs, p.inbox = []
  pc : ∀ p ∈ s.procs, ∀ w, p.pc ≠ .running w
  zeroed : ∀ p, s.procs[s.nworkers]? = some p → s.Zeroed p

/-- The handler of `stat_loop` leaves its rates at zero. -/
theorem zeroed_resume {p : Proc} {i : Nat} (hi : i = s.nworkers) :
    ∀ w, p.workload = some w → ∀ k ∈ w.keys, (s.effect i p .resume).qpsArray k = 0 := by
  intro w hw k hk
  simp only [effect, hw, if_pos hi, update, if_pos hk]

/-- A step of a worker leaves the rates alone. -/
theorem qpsArray_effect_of_ne {i : Nat} (hi : i ≠ s.nworkers) (p : Proc) (a : ProcStep) :
    (s.effect i p a).qpsArray = s.qpsArray := by
  unfold effect
  split
  · rw [if_neg hi]
  · split
    · rw [if_neg hi]
    · rfl
  · rfl

/-- Every step keeps the rates of `stat_loop` in order. -/
theorem statInv_step {e : Event} (h : s.StatInv) (he : s.step e = some s') : s'.StatInv := by
  -- a step of the parent starts `stat_loop` or leaves it, its own step may change the rates
  cases moves_of_step he with
  | callSend w hpar => exact h
  | callPause hpar => exact h
  | parent hm =>
    have hf := parent_frame hm
    intro q hq
    rcases hf.procs _ q hq with rfl | ⟨p, hp, hpc, hw, -⟩
    · exact .inr (.inr (.inr (zeroed_spawn s')))
    · rw [hf.nworkers] at hp
      rw [hpc]
      exact (h p hp).imp_right (.imp_right (.imp_right fun hz => hz.congr hw hf.qpsArray))
  | @proc i p p' a hget hm =>
    obtain ⟨qps, qs, heff⟩ := effect_eq s i p a
    intro q hq
    have hq' : (s.procs.set i p')[s.nworkers]? = some q := by
      rw [heff] at hq
      exact hq
    rcases List.getElem?_set_eq_some hq' with ⟨hi, rfl⟩ | ⟨hne, hold⟩
    · -- a step of `stat_loop`
      have hp := h p (hi ▸ hget)
      cases hm with
      | start hpc | send hpc | enterTry hpc =>
        -- not at work, and nothing to reset
        rw [hpc] at hp
        rcases hp with ⟨w, hw⟩ | hpc' | hpc' | hz
        · exact nomatch hw
        · exact nomatch hpc'
        · exact nomatch hpc'
        · exact .inr (.inr (.inr hz))
      | read hpc hin => exact .inl ⟨_, rfl⟩
      | work rates hpc => exact .inl ⟨_, hpc⟩
      | raises => exact .inr (.inr (.inl rfl))
      | resume hpc => exact .inr (.inr (.inr (zeroed_resume hi)))
      | interrupt hsig halive =>
        show _ ∨ Proc.interrupted p.pc = .handler ∨ Proc.interrupted p.pc = .dead ∨ _
        unfold Proc.interrupted
        split
        · exact .inr (.inl rfl)
        · exact .inr (.inl rfl)
        · exact .inr (.inr (.inl rfl))
    · have hqps := qpsArray_effect_of_ne hne p a
      exact (h q hold).imp_right (.imp_right (.imp_right fun hz => hz.congr rfl hqps))

/-- A step of a process that has nothing to run changes no array: what the handler of
    `stat_loop` sets to zero is zero. -/
theorem effect_of_quiet (h : s.Quiet) {i : Nat} {p : Proc} (hget : s.procs[i]? = some p)
    (a : ProcStep) : s.effect i p a = s := by
  unfold effect
  split
  · rename_i w hpc
    exact absurd hpc (h.pc p (List.mem_of_getElem? hget) w)
  · split
    · rename_i w hw
      split
      · rename_i hi
        -- the worker writes zeros over rates that are zero already
        have hz := h.zeroed p (hi ▸ hget) w hw
        have hupdate : s.update w (fun _ => 0) = s.qpsArray := by
          funext k
          unfold update
          split
          · rename_i hk
            rw [hz k hk]
          · rfl
        rw [hupdate]
      · rfl
    · rfl
  · rfl

/-- A process with an empty pipe that runs nothing goes on so. -/
theorem quiet_proc {p p' : Proc} {a : ProcStep} (hm : p.Moves a p') (hin : p.inbox = [])
    (hpc : ∀ w, p.pc ≠ .running w) :
    p'.inbox = [] ∧ (∀ w, p'.pc ≠ .running w) ∧ p'.workload = p.workload := by
  -- there is nothing to read, and nothing is run
  cases hm with
  | read _ hin' =>
    rw [hin] at hin'
    exact nomatch hin'
  | work rates hpc' => exact absurd hpc' (hpc _)
  | interrupt hsig halive =>
    refine ⟨hin, ?_, rfl⟩
    show ∀ w, Proc.interrupted p.pc ≠ .running w
    unfold Proc.interrupted
    split <;> simp
  | start | send | enterTry | resume | raises => exact ⟨hin, by simp, rfl⟩

/-- Quiet processes do nothing until the next `send_workload`. -/
theorem quiet_step {e : Event} (h : s.Quiet) (hno : ∀ w, e ≠ .callSend w)
    (he : s.step e = some s') :
    s'.Quiet ∧ s'.queries = s.queries ∧ s'.qpsArray = s.qpsArray := by
  -- the parent may launch a process or come to the end of a call; the others go on waiting
  cases moves_of_step he with
  | callSend w hpar => exact absurd rfl (hno w)
  | callPause hpar => exact ⟨⟨by simp, h.inbox, h.pc, h.zeroed⟩, rfl, rfl⟩
  | parent hm =>
    have hf := parent_frame hm
    refine ⟨⟨hf.parent h.parent, ?_, ?_, ?_⟩, hf.queries, hf.qpsArray⟩
    -- a worker of the new pool is an old one, or it has just been launched
    · intro q hq
      obtain ⟨j, hj⟩ := List.mem_iff_getElem?.mp hq
      rcases hf.procs j q hj with rfl | ⟨p, hp, -, -, hin⟩
      · rfl
      · rw [hin h.parent, h.inbox p (List.mem_of_getElem? hp)]
    · intro q hq
      obtain ⟨j, hj⟩ := List.mem_iff_getElem?.mp hq
      rcases hf.procs j q hj with rfl | ⟨p, hp, hpc, -⟩
      · exact fun w hw => nomatch hw
      · rw [hpc]
        exact h.pc p (List.mem_of_getElem? hp)
    · intro q hq
      rcases hf.procs _ q hq with rfl | ⟨p, hp, -, hw, -⟩
      · exact zeroed_spawn s'
      · rw [hf.nworkers] at hp
        exact (h.zeroed p hp).congr hw hf.qpsArray
  | @proc i p p' a hget hm =>
    -- no worker has a message to read, so none can start to run
    have hp := List.mem_of_getElem? hget
    obtain ⟨hin, hpc, hw⟩ := quiet_proc hm (h.inbox p hp) (h.pc p hp)
    rw [effect_of_quiet h hget]
    refine ⟨⟨h.parent, ?_, ?_, ?_⟩, rfl, rfl⟩
    · intro q hq
      rcases List.mem_or_eq_of_mem_set hq with hq | rfl
      · exact h.inbox q hq
      · exact hin
    · intro q hq
      rcases List.mem_or_eq_of_mem_set hq with hq | rfl
      · exact h.pc q hq
      · exact hpc
    · intro q hq
      rcases List.getElem?_set_eq_some hq with ⟨hi, rfl⟩ | ⟨-, hold⟩
      · exact (h.zeroed p (hi ▸ hget)).congr hw rfl
      · exact h.zeroed q hold

/-! ## Runs -/

/-- Waiting processes are quiet. -/
theorem quiet_of_waiting (hpar : s.parent = .idle (some true)) (hstat : s.StatInv)
    (hwait : ∀ p ∈ s.procs, p.Waiting) : s.Quiet where
  parent w i := by simp [hpar]
  inbox p hp := (hwait p hp).inbox
  pc p hp w hpc := by
    obtain ⟨b, hb⟩ := (hwait p hp).pc
    exact nomatch hb.symm.trans hpc
  zeroed p hp := by
    obtain ⟨b, hb⟩ := (hwait p (List.mem_of_getElem? hp)).pc
    -- `stat_loop` waits, so it is neither at work nor in its handler
    rcases hstat p hp with ⟨w, hpc⟩ | hpc | hpc | hz
    · exact nomatch hb.symm.trans hpc
    · exact nomatch hb.symm.trans hpc
    · exact nomatch hb.symm.trans hpc
    · exact hz

/-- Quiet processes do nothing in any run without a `send_workload`. -/
theorem run_of_quiet {es : List Event} (h : s.Quiet) (hno : ∀ w, Event.callSend w ∉ es)
    (hrun : Machine.run Pool.step s es = some s') :
    s'.queries = s.queries ∧ s'.qpsArray = s.qpsArray := by
  -- the condition is on the events, which are all of the run
  have hC : Machine.Meets Pool.step (fun _ _ e => ∀ w, e ≠ .callSend w) s es :=
    Machine.meets_of_forall_mem fun e he _ _ w hw => hno w (hw ▸ he)
  have hall : s'.Quiet ∧ s'.queries = s.queries ∧ s'.qpsArray = s.qpsArray := by
    refine Machine.run_invariant_of_meets
      (P := fun u => Quiet u ∧ u.queries = s.queries ∧ u.qpsArray = s.qpsArray)
      ⟨h, rfl, rfl⟩ ?_ hC hrun
    intro _ t e u ⟨ht, hqueries, hqps⟩ hne he
    obtain ⟨hu, hqueries', hqps'⟩ := quiet_step ht hne he
    exact ⟨hu, hqueries'.trans hqueries, hqps'.trans hqps⟩
  exact hall.2

/-- In every run of orderly steps, when `pause` has returned `True` every process waits at
    `recv` with an empty pipe, and until the next `send_workload` no query is executed and
    the rates stay as they are; and at any time a process runs the workload that was sent
    last. -/
theorem barrier_of_meets {n : Nat} {es : List Event}
    (h : Machine.run Pool.step (init n) es = some s)
    (hC : Machine.Meets Pool.step (fun _ => Orderly) (init n) es) :
    (s.parent = .idle (some true) → (∀ p ∈ s.procs, p.Waiting) ∧
      ∀ es' s', (∀ w, Event.callSend w ∉ es') → Machine.run Pool.step s es' = some s' →
        s'.queries = s.queries ∧ s'.qpsArray = s.qpsArray) ∧
    ∀ p ∈ s.procs, ∀ w, p.pc = .running w → s.workload = some w := by
  have hinit : (init n).Inv ∧ (init n).StatInv := by
    refine ⟨⟨rfl, ?_⟩, ?_⟩
    · simp [init]
    · intro p hp
      simp [init] at hp
  have hinv : s.Inv := by
    refine Machine.run_invariant_of_meets (P := Inv) hinit.1 ?_ hC h
    intro _ t e u ht ho he
    exact inv_step ht ho he
  have hstat : s.StatInv := by
    refine Machine.run_invariant (P := StatInv) hinit.2 ?_ h
    intro t e u ht he
    exact statInv_step ht he
  refine ⟨fun hpar => ?_, hinv.current⟩
  -- a paused pool that is idle has seen every worker answer
  have hwait : ∀ p ∈ s.procs, p.Waiting := by
    unfold Inv at hinv
    rw [hpar] at hinv
    exact hinv.1 (hinv.2.2 rfl)
  exact ⟨hwait, fun es' s' hno hrun => run_of_quiet (quiet_of_waiting hpar hstat hwait) hno hrun⟩

/-! ## Concrete runs -/

/-- The process `i` reaches `recv` and the parent receives its first `True`. -/
def launches (i : Nat) : List Event :=
  [.parent, .proc i .start, .proc i .send, .proc i .enterTry, .parent]

/-- The process `i` answers a signal. -/
def answers (i : Nat) : List Event :=
  [.proc i .interrupt, .proc i .resume, .proc i .send, .proc i .enterTry]

/-- One worker and `stat_loop` are sent a workload, and the parent signals them. `started` is
    what they do before the signal comes. -/
def sampleRun (started : List Event) : List Event :=
  launches 0 ++ launches 1 ++ [.callSend [(0, ⟨10, "select 1"⟩)], .parent, .parent, .parent] ++
    started ++ [.callPause, .parent, .parent, .parent] ++ answers 0 ++ answers 1 ++
    [.parent, .parent, .parent, .parent, .parent]

/-- Whether `pause` has just returned `True`. -/
def pauseReturned (s : Pool) : Bool :=
  match s.parent with
  | .idle (some true) => true
  | _ => false

/-- `pause` has returned `True` by the state of the parent. -/
theorem pauseReturned_iff : s.pauseReturned = true ↔ s.parent = .idle (some true) := by
  unfold pauseReturned
  split <;> simp_all

/-- A worker that is interrupted before it reads its workload has it in its pipe when
    `pause` returns `True`. -/
theorem pause_leaves_workload :
    ¬ ∀ n es s, Machine.run Pool.step (init n) es = some s → s.parent = .idle (some true) →
      ∀ p ∈ s.procs, p.Waiting := by
  intro hall
  -- the run is computed: its worker has taken the signal before it has read
  obtain ⟨s, hs, hp⟩ := Machine.exists_run_of_map Pool.step (init 1)
    (sampleRun [.proc 1 .read])
    (fun s => s.pauseReturned && s.procs.any fun p => !p.inbox.isEmpty) (by decide)
  rw [Bool.and_eq_true] at hp
  obtain ⟨p, hmem, hin⟩ := List.any_eq_true.mp hp.2
  rw [(hall 1 _ s hs (pauseReturned_iff.mp hp.1) p hmem).inbox] at hin
  exact nomatch hin

/-- Both processes have read their workload when the signal comes. -/
theorem pause_after_read :
    ∃ s, Machine.run Pool.step (init 1) (sampleRun [.proc 0 .read, .proc 1 .read]) = some s ∧
      s.parent = .idle (some true) ∧ ∀ p ∈ s.procs, p.Waiting := by
  -- the run is computed, and each of its steps is orderly
  obtain ⟨s, hs, hp⟩ := Machine.exists_run_of_map Pool.step (init 1)
    (sampleRun [.proc 0 .read, .proc 1 .read]) pauseReturned (by decide)
  have hpar := pauseReturned_iff.mp hp
  have hC : Machine.Meets Pool.step (fun _ => Orderly) (init 1)
      (sampleRun [.proc 0 .read, .proc 1 .read]) :=
    Machine.meets_of_check (c := fun s e => decide (Orderly s e))
      (fun _ _ _ hc => of_decide_eq_true hc) (by decide)
  exact ⟨s, hs, hpar, ((barrier_of_meets hs hC).1 hpar).1⟩

end Pool

end WorkloadSimulator.Stress
