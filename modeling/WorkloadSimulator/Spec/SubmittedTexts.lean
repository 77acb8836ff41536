import WorkloadSimulator.Spec.ClientStep
import WorkloadSimulator.Spec.QueryTemplate
import WorkloadSimulator.Spec.WeightedSampling

/-!
# Which of the texts submitted compile

The page leaves out the widgets without a text and no others. `parse_query` takes the first
word of the text before the first token, and raises an exception where there is none; then the
validation ends with it, after the workload of the server has been replaced.

## Key results

- `isSome_generateQueryFunction_iff`: which texts compile
- `submitted_texts_compile_iff`: when all texts that the page submits do, so that the
  validation gets a query table
-/

namespace WorkloadSimulator

namespace Stress

/-- A text compiles exactly when it has a word before its first token. -/
theorem isSome_generateQueryFunction_iff (text : Text) :
    (generateQueryFunction text).isSome = true ↔ BeginsWithWord text := by
  rw [generateQueryFunction_eq, Option.isSome_map, isSome_firstWord_iff, BeginsWithWord]

end Stress

open Stress

namespace Client

/-- Every text of a workload compiles. -/
def TextsCompile (workload : List (Nat × WidgetInfo)) : Prop :=
  ∀ x ∈ workload, (generateQueryFunction x.2.query.toList).isSome = true

/-- The items of a workload that was posted, as the server keeps them. -/
def serverItems (workload : List (Nat × WidgetInfo)) : List (Nat × QueryInfo) :=
  workload.map fun x => (x.1, ⟨⌊x.2.qps⌋, x.2.query⟩)

/-- The page posts what the dials show. -/
theorem qps_nonneg_of_mem {s : Client} {x : Nat × WidgetInfo} (hx : x ∈ s.getWorkload) :
    0 ≤ ⌊x.2.qps⌋ := by
  obtain ⟨⟨id, w⟩, -, rfl⟩ := List.mem_map.mp (List.mem_of_mem_filter hx)
  rw [Widget.info_qps, Int.floor_natCast]
  exact Int.natCast_nonneg _

/-- The texts that the page submits compile exactly when each has a word before its first
    token. Then, and not otherwise, the validation gets a query table, if the ids are in the
    table of the counters. -/
theorem submitted_texts_compile_iff {τ : Type} (s : Client) :
    (TextsCompile s.getWorkload ↔ ∀ x ∈ s.getWorkload, BeginsWithWord x.2.query.toList) ∧
      ∀ qpsQueryTable : Nat → Option τ, s.getWorkload ≠ [] →
        (∀ x ∈ s.getWorkload, (qpsQueryTable x.1).isSome = true) →
          ((QueryTable.new (serverItems s.getWorkload) qpsQueryTable).isSome = true ↔
            ∀ x ∈ s.getWorkload, BeginsWithWord x.2.query.toList) := by
  constructor
  · simp only [TextsCompile, isSome_generateQueryFunction_iff]
  · intro qpsQueryTable hne htable
    -- the page emits no negative rates, as the constructor expects
    rw [QueryTable.isSome_new_iff (by simpa [serverItems] using hne)]
    · simp only [serverItems, List.forall_mem_map, isSome_generateQueryFunction_iff]
    · simp only [serverItems, List.forall_mem_map]
      exact fun x hx => qps_nonneg_of_mem hx
    · simpa only [serverItems, List.forall_mem_map] using htable

/-- A text of one blank is submitted. -/
theorem blank_text_submitted :
    ¬ ∀ m cache es s, Client.Runs .stress m cache es s → TextsCompile s.getWorkload := by
  intro hall
  obtain ⟨s, hs, hp⟩ := Machine.exists_run_of_map (Client.step .stress) (init 10000 none)
    [.editQuery 0 " ", .setDial 0 1] (fun s => s.getWorkload == [(0, ⟨" ", 1⟩)])
    (by decide +kernel)
  have hcompiles := hall _ _ _ s hs (0, ⟨" ", 1⟩) (by simp [beq_iff_eq.mp hp])
  exact absurd hcompiles (by decide)

end Client

end WorkloadSimulator
