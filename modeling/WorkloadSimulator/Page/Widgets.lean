import WorkloadSimulator.App.Handlers

/-!
# The query widgets of the page

`app/public/js/query_dial.js` and `common.js`: the page numbers its widgets by a counter
that only goes back to zero when all of them are cleared, and posts the widgets that have a
text under their numbers. `Page` has the texts of the widgets and nothing else; the page with
its dials, requests and timers is `Client`, and `Spec/PageWidgets` relates the two.
-/

namespace WorkloadSimulator

/-- A query widget: the texts of its editor and of its dial. -/
structure QueryWidget where
  query : String
  qps : String
  deriving DecidableEq

/-- The widgets of the page. `for … in` goes through `query_widget_map` by ascending id. -/
structure Page where
  globalQueryId : Nat
  queryWidgetMap : List (Nat × QueryWidget)
  /-- The ids ascend. -/
  sorted : queryWidgetMap.Pairwise fun x y => x.1 < y.1
  /-- The next id is new. -/
  lt_globalQueryId : ∀ x ∈ queryWidgetMap, x.1 < globalQueryId

namespace Page

/-- The page without widgets. -/
def empty : Page := ⟨0, [], .nil, by simp⟩

/-- `new QueryWidget()`, with the texts that the widget gets. -/
def newQueryWidget (p : Page) (w : QueryWidget) : Page where
  globalQueryId := p.globalQueryId + 1
  queryWidgetMap := p.queryWidgetMap ++ [(p.globalQueryId, w)]
  sorted := by
    -- the new id is above all others
    refine List.pairwise_append.mpr ⟨p.sorted, List.pairwise_singleton _ _, ?_⟩
    intro x hx y hy
    obtain rfl := List.mem_singleton.mp hy
    exact p.lt_globalQueryId x hx
  lt_globalQueryId x hx := by
    rcases List.mem_append.mp hx with hx | hx
    · exact Nat.lt_succ_of_lt (p.lt_globalQueryId x hx)
    · obtain rfl := List.mem_singleton.mp hx
      exact Nat.lt_succ_self _

/-- `delete` of the widget `id`. -/
def delete (p : Page) (id : Nat) : Page where
  globalQueryId := p.globalQueryId
  queryWidgetMap := p.queryWidgetMap.filter fun x => x.1 != id
  sorted := p.sorted.sublist List.filter_sublist
  lt_globalQueryId x hx := p.lt_globalQueryId x (List.mem_of_mem_filter hx)

/-- The user changes the texts of the widget `id`. -/
def edit (p : Page) (id : Nat) (w : QueryWidget) : Page where
  globalQueryId := p.globalQueryId
  queryWidgetMap := p.queryWidgetMap.map fun x => if x.1 = id then (id, w) else x
  sorted := by
    refine List.pairwise_map.mpr (p.sorted.imp fun {x y} hxy => ?_)
    split <;> split <;> simp_all
  lt_globalQueryId x hx := by
    obtain ⟨y, hy, rfl⟩ := List.mem_map.mp hx
    have hlt := p.lt_globalQueryId y hy
    split <;> simp_all

/-- `clearQueryWidgets`: all widgets are deleted, and the counter starts again. -/
def clearQueryWidgets (_ : Page) : Page := empty

/-- `loadWorkload`: a widget for each entry of a cached or uploaded workload, by ascending
    key. The keys of the workload are not kept. -/
def loadWorkload (p : Page) (workload : AList fun _ : Nat => QueryWidget) : Page :=
  let maxIndex := workload.keys.foldl max 0
  (List.range (maxIndex + 1)).foldl
    (fun p i => match workload.lookup i with
      | some w => p.newQueryWidget w
      | none => p)
    p.clearQueryWidgets

/-- `getWorkload`: the widgets with a text, under their ids. -/
def getWorkload (p : Page) : List (String × QueryWidget) :=
  (p.queryWidgetMap.filter fun x => x.2.query != "").map fun x => (itoa x.1, x.2)

/-- The ids of the widgets with a text. -/
def submitted (p : Page) : List Nat :=
  (p.queryWidgetMap.filter fun x => x.2.query != "").map Prod.fst

/-- What the user does to the widgets. -/
inductive UserEvent where
  /-- A click on the new-widget button: no text, and a dial at zero. -/
  | new
  | edit (id : Nat) (w : QueryWidget)
  | close (id : Nat)
  | clear
  | load (workload : AList fun _ : Nat => QueryWidget)

def step (p : Page) : UserEvent → Page
  | .new => p.newQueryWidget ⟨"", "0"⟩
  | .edit id w => p.edit id w
  | .close id => p.delete id
  | .clear => p.clearQueryWidgets
  | .load workload => p.loadWorkload workload

/-- The page after the user has done `es` to it. -/
def after (es : List UserEvent) : Page := es.foldl step empty

/-- The keys of the posted workload are the ids of the widgets with a text. -/
theorem getWorkload_keys (p : Page) : p.getWorkload.map Prod.fst = p.submitted.map itoa := by
  simp [getWorkload, submitted, Function.comp_def]

/-- The submitted ids ascend. -/
theorem submitted_sorted (p : Page) : p.submitted.Pairwise (· < ·) :=
  List.pairwise_map.mpr (p.sorted.sublist List.filter_sublist)

/-- Closing a widget leaves its id free. -/
example : (after [.new, .new, .edit 0 ⟨"a", "1"⟩, .edit 1 ⟨"b", "1"⟩, .close 0]).submitted =
    [1] := by decide

end Page

end WorkloadSimulator
