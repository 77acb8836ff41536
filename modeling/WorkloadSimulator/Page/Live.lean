import WorkloadSimulator.ForStd.Numbered
import WorkloadSimulator.Page.Dial

/-!
# The live page

`stress/static/js/live.js`: the page makes a widget for each query that a reply of
`/live/stats` names, as long as it has less than 24, and shows the rates of the replies on
them. A click on Sort Queries lets the next reply begin with no widgets.

No user can close a widget of this page. `sort` may put entries that compare as equal in any
order, so an event has the entries as they are sorted. The charts of the metrics are left out.
-/

namespace WorkloadSimulator

/-- The rates of a reply under the texts of the queries. -/
abbrev PlancacheStats := AList fun _ : String => ℚ

/-- The page. A widget that `signature_to_widget` has is given by its id. -/
structure LiveView where
  queryWidgetMap : Numbered Widget
  signatureToWidget : AList fun _ : String => Nat
  currentQueries : Int
  resort : Nat
  qpsGraph : List ℚ
  dialMaxValue : Int

namespace LiveView

/-- `MAX_QUERIES` -/
def maxQueries : Int := 24

/-- A new widget with the text `signature`, frozen. -/
def newWidget (s : LiveView) (signature : String) : Widget :=
  { Widget.new s.dialMaxValue with query := editorText signature }.freeze s.dialMaxValue

def signatureToQueryWidget (s : LiveView) (signature : String) : LiveView × Option Nat :=
  match s.signatureToWidget.lookup signature with
  | some id => (s, some id)
  | none =>
    if maxQueries ≤ s.currentQueries then (s, none)
    else
      let id := s.queryWidgetMap.next
      ({ s with
        queryWidgetMap := s.queryWidgetMap.add (s.newWidget signature)
        currentQueries := s.currentQueries + 1
        signatureToWidget := s.signatureToWidget.insert signature id }, some id)

/-- The loop over the widgets that a resort deletes. -/
def deleteWidget (s : LiveView) (x : Σ _ : String, Nat) : LiveView :=
  { s with
    queryWidgetMap := s.queryWidgetMap.erase x.2
    signatureToWidget := s.signatureToWidget.erase x.1
    currentQueries := s.currentQueries - 1 }

def resorted (s : LiveView) : LiveView :=
  if s.resort = 1 then { s.signatureToWidget.entries.foldl deleteWidget s with resort := 0 }
  else s

/-- The rate of a query goes to its widget, if it has one. -/
def showQuery (s : LiveView) (x : String × ℚ) : LiveView :=
  match s.signatureToQueryWidget x.1 with
  | (s, some id) =>
    { s with queryWidgetMap := s.queryWidgetMap.modify id (Widget.setDialValue x.2) }
  | (s, none) => s

/-- `record_point` of the live page, whose graph keeps a thousand points. -/
def recordPoint (s : LiveView) (y : ℚ) : LiveView :=
  { s with qpsGraph :=
      (if 1000 ≤ s.qpsGraph.length then s.qpsGraph.tail else s.qpsGraph) ++ [y] }

/-- `onWorkloadReceive`, with the entries of the reply as they are sorted. -/
def onWorkloadReceive (s : LiveView) (tuples : List (String × ℚ)) : LiveView :=
  let s := s.resorted
  let s := tuples.reverse.foldl showQuery s
  s.recordPoint (tuples.reverse.foldl (fun total x => total + x.2) 0)

/-- The entries of a reply. -/
def tuplesOf (plancache : PlancacheStats) : List (String × ℚ) :=
  plancache.entries.map fun x => (x.1, x.2)

/-- What `sort` may make of the entries. -/
def Sorted (plancache : PlancacheStats) (tuples : List (String × ℚ)) : Prop :=
  tuples.Perm (tuplesOf plancache) ∧ tuples.Pairwise fun x y => x.2 ≤ y.2

instance (plancache : PlancacheStats) (tuples : List (String × ℚ)) :
    Decidable (Sorted plancache tuples) := inferInstanceAs (Decidable (_ ∧ _))

inductive Event where
  /-- A reply that is not running. -/
  | stopped
  /-- A reply with rates, and its entries as they are sorted. -/
  | reply (plancache : PlancacheStats) (tuples : List (String × ℚ))
  /-- A click on `#resort-queries`. -/
  | sortQueries

def step (s : LiveView) : Event → Option LiveView
  | .stopped => some s
  | .reply plancache tuples =>
    if Sorted plancache tuples then some (s.onWorkloadReceive tuples) else none
  | .sortQueries => some { s with resort := 1 }

/-- The page when it has loaded. -/
def init (dialMaxValue : Int) : LiveView :=
  { queryWidgetMap := .empty, signatureToWidget := ∅, currentQueries := 0, resort := 0
    qpsGraph := [0], dialMaxValue }

end LiveView

end WorkloadSimulator
