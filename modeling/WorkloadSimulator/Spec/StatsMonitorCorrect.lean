import WorkloadSimulator.App.Stats
import WorkloadSimulator.ForStd.List

/-!
# The monitor as a function of what it has received

`StatsMonitor.after sts` is the monitor that has received the `Stat`s `sts`, in this
order, since the process started. Its counters add up all of them, its labels are those of
the last one, and each of its maps keeps, for a model, what the last `Stat` of the model
left there.

## Key results

- `after_isent`, `after_idone`: the counters are sums over all `Stat`s
- `after_bid`, `after_mn`: the labels are those of the last `Stat`
- `after_requestPerSec`: the rate of a model is that of its last `Stat`
- `mem_after_requestPerSec`, `mem_after_requestLagDone`: the keys are the models that
  have reported
-/

namespace WorkloadSimulator

/-- Whether a `Stat` is of a worker with the model `m`. -/
def Stat.ofModel (m : String) (st : Stat) : Bool := st.workload.modelId == m

/-- The model of a `Stat` is that of its worker. -/
theorem Stat.ofModel_iff {m : String} {st : Stat} :
    st.ofModel m = true ↔ st.workload.modelId = m := beq_iff_eq

namespace StatsMonitor

/-- The monitor after it has received `sts`. -/
def after (sts : List Stat) : StatsMonitor := sts.foldl receive init

@[simp] theorem after_nil : after [] = init := rfl

/-- The last `Stat` is received last. -/
theorem after_concat (sts : List Stat) (st : Stat) :
    after (sts ++ [st]) = (after sts).receive st := by
  rw [after, List.foldl_append]
  rfl

/-! ## Counters and labels -/

/-- `isent` adds up the running counters of all `Stat`s. -/
theorem after_isent (sts : List Stat) : (after sts).isent = (sts.map Stat.nreqSent).sum := by
  induction sts using List.reverseRecOn with
  | nil => rfl
  | append_singleton sts st ih =>
    rw [after_concat, List.map_append, List.sum_append, ← ih]
    show (after sts).isent + st.nreqSent = _
    simp

/-- `idone` adds up the batches of all `Stat`s. -/
theorem after_idone (sts : List Stat) : (after sts).idone = (sts.map Stat.nreqDone).sum := by
  induction sts using List.reverseRecOn with
  | nil => rfl
  | append_singleton sts st ih =>
    rw [after_concat, List.map_append, List.sum_append, ← ih]
    show (after sts).idone + st.nreqDone = _
    simp

/-- The batch is that of the last `Stat`. -/
theorem after_bid (sts : List Stat) (st : Stat) :
    (after (sts ++ [st])).bid = st.workload.batchId := by
  rw [after_concat]
  rfl

/-- The model name is that of the last `Stat`. -/
theorem after_mn (sts : List Stat) (st : Stat) :
    (after (sts ++ [st])).mn = st.workload.modelName := by
  rw [after_concat]
  rfl

/-! ## Maps -/

/-- The rate of a model is that of its last `Stat`. -/
theorem after_requestPerSec (sts : List Stat) (m : String) :
    (after sts).requestPerSec.lookup m =
      (sts.findRev? (Stat.ofModel m)).map Stat.reqPerS := by
  induction sts using List.reverseRecOn with
  | nil => rfl
  | append_singleton sts st ih =>
    rw [after_concat, List.findRev?_concat]
    show ((after sts).requestPerSec.insert st.workload.modelId st.reqPerS).lookup m = _
    by_cases hm : st.workload.modelId = m
    · -- the `Stat` overwrites what other workers of the model left
      subst hm
      rw [AList.lookup_insert, if_pos (Stat.ofModel_iff.mpr rfl)]
      rfl
    · have hno : st.ofModel m ≠ true := fun h => hm (Stat.ofModel_iff.mp h)
      rw [AList.lookup_insert_ne (Ne.symm hm), if_neg hno, ih]

/-- The models with a rate are those that have reported. -/
theorem mem_after_requestPerSec (sts : List Stat) (m : String) :
    m ∈ (after sts).requestPerSec ↔ ∃ st ∈ sts, st.workload.modelId = m := by
  rw [← AList.lookup_isSome, after_requestPerSec, Option.isSome_map, Option.isSome_iff_ne_none,
    ne_eq, List.findRev?_eq_none]
  simp [Stat.ofModel]

/-- The models with a count of completed requests are those that have reported. -/
theorem mem_after_requestLagDone (sts : List Stat) (m : String) :
    m ∈ (after sts).requestLagDone ↔ ∃ st ∈ sts, st.workload.modelId = m := by
  induction sts using List.reverseRecOn with
  | nil => simp [init]
  | append_singleton sts st ih =>
    -- the last `Stat` adds its own model and no other
    rw [after_concat]
    show m ∈ (after sts).requestLagDone.insert st.workload.modelId _ ↔ _
    rw [AList.mem_insert, ih]
    constructor
    · rintro (rfl | ⟨x, hx, hm⟩)
      · exact ⟨st, by simp, rfl⟩
      · exact ⟨x, by simp [hx], hm⟩
    · rintro ⟨x, hx, hm⟩
      rcases List.mem_append.mp hx with hx | hx
      · exact .inr ⟨x, hx, hm⟩
      · obtain rfl := List.mem_singleton.mp hx
        exact .inl hm.symm

end StatsMonitor

end WorkloadSimulator
