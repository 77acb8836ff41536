import WorkloadSimulator.Page.Posting
import WorkloadSimulator.Spec.ClientStep

/-!
# The widgets of the page, with and without the page

`Page` has the texts of the widgets and what a user does to them; `Client` is the whole page with
its dials, requests and timers. Whatever happens to a `Client`, its widgets are those of a `Page`
after something that a user can do: a rate that is shown on a dial is an edit of its text, and
a workload that is loaded is one new widget after the other.

## Key results

- `reaches_of_ids`: any texts can be given to the widgets that are there
- `page_of_step`, `page_of_run`: the page after a step and after a run in the browser
- `getWorkload_page`: both models post the same workload
-/

namespace WorkloadSimulator

namespace Page

/-- A page is its counter and its widgets. -/
@[ext] theorem ext {p p' : Page} (hid : p.globalQueryId = p'.globalQueryId)
    (hmap : p.queryWidgetMap = p'.queryWidgetMap) : p = p' := by
  cases p
  cases p'
  simp_all

/-! ## What a user can do -/

/-- A user can make one page out of the other. -/
def Reaches (p p' : Page) : Prop := ∃ us : List UserEvent, us.foldl step p = p'

variable {p p' p'' : Page}

theorem Reaches.refl (p : Page) : p.Reaches p := ⟨[], rfl⟩

/-- What is reached from a page that is reached. -/
theorem Reaches.trans (h : p.Reaches p') (h' : p'.Reaches p'') : p.Reaches p'' := by
  obtain ⟨us, rfl⟩ := h
  obtain ⟨us', rfl⟩ := h'
  exact ⟨us ++ us', List.foldl_append⟩

theorem Reaches.of_step (p : Page) (u : UserEvent) : p.Reaches (p.step u) := ⟨[u], rfl⟩

/-- The page after an edit of a widget that stands behind those of `pre`. -/
theorem edit_queryWidgetMap {pre l : List (Nat × QueryWidget)} {x : Nat × QueryWidget}
    (hp : p.queryWidgetMap = pre ++ x :: l) (w : QueryWidget) :
    (p.edit x.1 w).queryWidgetMap = pre ++ (x.1, w) :: l := by
  have hsorted := p.sorted
  rw [hp] at hsorted
  obtain ⟨-, hl, hpre⟩ := List.pairwise_append.mp hsorted
  have hbehind := (List.pairwise_cons.mp hl).1
  show p.queryWidgetMap.map (fun y => if y.1 = x.1 then (x.1, w) else y) = _
  rw [hp, List.map_append, List.map_cons, if_pos rfl]
  -- the ids before it are less, and those behind it greater
  congr 1
  · refine (List.map_congr_left fun y hy => if_neg ?_).trans (List.map_id _)
    exact (hpre y hy x List.mem_cons_self).ne
  · congr 1
    refine (List.map_congr_left fun y hy => if_neg ?_).trans (List.map_id _)
    exact (hbehind y hy).ne'

/-- The widgets behind those of `pre` can be given any texts, one after the other. -/
theorem exists_edits {l l' : List (Nat × QueryWidget)} (pre : List (Nat × QueryWidget))
    (hp : p.queryWidgetMap = pre ++ l) (hids : l.map Prod.fst = l'.map Prod.fst) :
    ∃ p', p.Reaches p' ∧ p'.globalQueryId = p.globalQueryId ∧
      p'.queryWidgetMap = pre ++ l' := by
  -- induction on the widgets to be edited, which moves the first of them to `pre`
  induction l generalizing p pre l' with
  | nil =>
    obtain rfl : l' = [] := by simpa using hids.symm
    exact ⟨p, .refl p, rfl, hp⟩
  | cons x l ih =>
    cases l' with
    | nil => cases hids
    | cons y l' =>
      rw [List.map_cons, List.map_cons] at hids
      obtain ⟨hid, hids⟩ := List.cons.inj hids
      -- the first widget behind `pre` gets its text, and nothing else changes
      have hedit := edit_queryWidgetMap hp y.2
      obtain ⟨p', hp', hnext, hmap⟩ := ih (p := p.edit x.1 y.2) (pre ++ [y])
        (by rw [hedit, hid, List.append_assoc]; rfl) hids
      refine ⟨p', (Reaches.of_step p (.edit x.1 y.2)).trans hp', hnext, ?_⟩
      rw [hmap, List.append_assoc]
      rfl

/-- A page with the same ids and the same counter can be reached by edits. -/
theorem reaches_of_ids (hnext : p'.globalQueryId = p.globalQueryId)
    (hids : p'.queryWidgetMap.map Prod.fst = p.queryWidgetMap.map Prod.fst) : p.Reaches p' := by
  obtain ⟨q, hq, hqnext, hqmap⟩ := exists_edits [] rfl hids.symm
  obtain rfl : q = p' := Page.ext (hqnext.trans hnext.symm) hqmap
  exact hq

/-- New widgets on an empty page have the ids from zero on. -/
theorem exists_news (p : Page) (n : Nat) : ∃ p', p.Reaches p' ∧ p'.globalQueryId = n ∧
    p'.queryWidgetMap.map Prod.fst = List.range n := by
  -- the page is cleared, and the widgets are added one after the other
  induction n with
  | zero => exact ⟨empty, .of_step p .clear, rfl, rfl⟩
  | succ n ih =>
    obtain ⟨p', hp', hnext, hids⟩ := ih
    refine ⟨p'.step .new, hp'.trans (.of_step p' .new), by rw [← hnext]; rfl, ?_⟩
    show (p'.queryWidgetMap ++ [(p'.globalQueryId, _)]).map Prod.fst = _
    rw [List.map_append, hids, hnext, List.range_succ]
    rfl

end Page

namespace Client

/-! ## The widgets of the browser -/

/-- The page whose widgets have these texts. -/
def pageOf (ws : Numbered Widget) : Page where
  globalQueryId := ws.next
  queryWidgetMap := ws.entries.map fun x => (x.1, x.2.info.texts)
  sorted := List.pairwise_map.mpr ws.sorted
  lt_globalQueryId x hx := by
    obtain ⟨y, hy, rfl⟩ := List.mem_map.mp hx
    exact ws.lt_next y hy

/-- The widgets of the page in the browser. -/
def page (s : Client) : Page := pageOf s.queryWidgetMap

variable {ws ws' : Numbered Widget}

theorem ids_pageOf (ws : Numbered Widget) :
    (pageOf ws).queryWidgetMap.map Prod.fst = ws.ids := by
  simp [pageOf, Numbered.ids, Function.comp_def]

/-- Both models post the same. -/
theorem getWorkload_page (s : Client) : s.page.getWorkload = s.postedWorkload := by
  simp only [Page.getWorkload, page, pageOf, postedWorkload, getWorkload, allWidgets,
    List.filter_map, List.map_map]
  rfl

/-- So the ids that a worker can be launched for are the same as well. -/
theorem submitted_page (s : Client) : s.page.submitted = s.getWorkload.map Prod.fst := by
  simp only [Page.submitted, page, pageOf, getWorkload, allWidgets, List.filter_map, List.map_map]
  rfl

/-- Whatever becomes of the texts, the rates and the dials, the user could have typed them. -/
theorem reaches_of_sameIds (hnext : ws'.next = ws.next) (hids : ws'.ids = ws.ids) :
    (pageOf ws).Reaches (pageOf ws') :=
  Page.reaches_of_ids hnext (by rw [ids_pageOf, ids_pageOf, hids])

/-- A change of every widget is one of texts only. -/
theorem reaches_mapWithId (f : Nat → Widget → Widget) :
    (pageOf ws).Reaches (pageOf (ws.mapWithId f)) :=
  reaches_of_sameIds rfl (Numbered.ids_mapWithId ws f)

/-- A new widget is one that a user adds, with texts of its own. -/
theorem reaches_add (w : Widget) : (pageOf ws).Reaches (pageOf (ws.add w)) := by
  refine (Page.Reaches.of_step _ .new).trans (Page.reaches_of_ids rfl ?_)
  rw [ids_pageOf, Numbered.ids_add]
  show _ = ((pageOf ws).queryWidgetMap ++ [(ws.next, _)]).map Prod.fst
  rw [List.map_append, ids_pageOf]
  rfl

/-- A widget that is erased is one that a user closes. -/
theorem reaches_erase (id : Nat) : (pageOf ws).Reaches (pageOf (ws.erase id)) := by
  have hclose : (pageOf ws).step (.close id) = pageOf (ws.erase id) := by
    ext1
    · rfl
    · exact List.filter_map
  exact hclose ▸ .of_step _ (.close id)

/-- A list of widgets takes the place of all that were there, with ids from zero on. -/
theorem reaches_ofList (l : List Widget) : (pageOf ws).Reaches (pageOf (.ofList l)) := by
  obtain ⟨p, hp, hnext, hids⟩ := Page.exists_news (pageOf ws) l.length
  refine hp.trans (Page.reaches_of_ids hnext.symm ?_)
  rw [hids, ids_pageOf, Numbered.ids_ofList]

/-- Showing the rates changes nothing but texts. -/
theorem reaches_showStats (stats : List (Sigma fun _ : String => ℚ)) (total : ℚ) :
    (pageOf ws).Reaches (pageOf (showStats stats ws total).1) := by
  -- each entry of the reply changes one widget, or ends the loop with an exception
  induction stats generalizing ws total with
  | nil => exact .refl _
  | cons x stats ih =>
    rw [showStats]
    split
    · exact (reaches_mapWithId _).trans (ih _)
    · exact .refl _

/-! ## Steps and runs -/

variable {site : Site} {s s' : Client}

/-- The answer to a play freezes the widgets, which changes nothing that a user could not. -/
theorem reaches_onPlay (workload : List (Nat × WidgetInfo)) (running : Bool) :
    s.page.Reaches (s.onPlay workload running).page := by
  cases running with
  | true => exact reaches_mapWithId fun _ => Widget.freeze s.dialMaxValue
  | false => exact .refl _

/-- The answer to a pause unfreezes them. -/
theorem reaches_onPause (running : Bool) : s.page.Reaches (s.onPause running).page := by
  cases running with
  | true => exact .refl _
  | false => exact reaches_mapWithId fun _ => Widget.unfreeze s.dialMaxValue

/-- A reply to `/stats` changes rates, if it changes anything. -/
theorem reaches_onWorkloadReceive (data : StatsReply) :
    s.page.Reaches (s.onWorkloadReceive site data).page := by
  have hreceives := receives site s data
  generalize s.onWorkloadReceive site data = t at hreceives ⊢
  cases hreceives with
  | ignored | errorThrown | stopped => exact .refl _
  -- with an exception the rates up to the entry that has thrown it are shown
  | thrown hr hd hshow | shown hr hd hshow =>
    have hreaches : s.page.Reaches _ := reaches_showStats data.stats.entries 0
    rwa [hshow] at hreaches

/-- A step in the browser is something that a user could do to the widgets. -/
theorem page_of_step {e : Event} (h : s.step site e = some s') : s.page.Reaches s'.page := by
  cases moves_of_step h with
  -- only four kinds of event add or remove widgets
  | newWidget =>
    unfold newWidget
    split
    · exact .refl _
    · exact reaches_add _
  | editQuery | setDial => exact reaches_mapWithId _
  | closeWidget => exact reaches_erase _
  | clearWorkload => exact reaches_ofList []
  | upload m workload =>
    -- the widgets are cleared and loaded in the order of their numbers
    show s.page.Reaches (pageOf (loadWidgets m workload))
    rw [loadWidgets_eq]
    exact reaches_ofList _
  | dialMax plus =>
    unfold updateDialValue
    split
    · exact reaches_mapWithId _
    · exact .refl _
  | click =>
    unfold click
    split <;> exact .refl _
  -- the request that is answered is no longer under way
  | @played n workload running hw =>
    exact reaches_onPlay (s := { s with workloadRequests := s.workloadRequests.eraseIdx n }) _ _
  | paused running hp =>
    exact reaches_onPause (s := { s with pauseRequests := s.pauseRequests - 1 }) _
  | stats data hs =>
    exact reaches_onWorkloadReceive (s := { s with statsRequests := s.statsRequests - 1 }) data
  | playError | pauseError | statsError | timer | autoSave | save => exact .refl _

/-- In every run in the browser the widgets are those of a page after what a user has done. -/
theorem page_of_run {m : Int} {cache : Option (AList fun _ : Nat => WidgetInfo)}
    {es : List Event} (h : Runs site m cache es s) : ∃ us, s.page = Page.after us := by
  have hreaches : Page.empty.Reaches s.page := by
    refine Machine.run_invariant (P := fun s => Page.empty.Reaches s.page) ?_
      (fun _ _ _ ht he => ht.trans (page_of_step he)) h
    -- a page begins with one widget, or with those that it has cached
    have hempty : pageOf Numbered.empty = Page.empty := rfl
    cases cache with
    | none => exact hempty ▸ @reaches_add Numbered.empty _
    | some workload =>
      show Page.empty.Reaches (pageOf (loadWidgets m workload))
      rw [loadWidgets_eq, ← hempty]
      exact reaches_ofList _
  obtain ⟨us, hus⟩ := hreaches
  exact ⟨us, hus.symm⟩

end Client

end WorkloadSimulator
