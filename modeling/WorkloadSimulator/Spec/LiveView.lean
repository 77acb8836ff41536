import WorkloadSimulator.ForStd.Machine
import WorkloadSimulator.Page.Live

/-!
# What the live page shows

The page counts its queries in `CURRENT_QUERIES`, finds the widget of a query in
`signature_to_widget`, and the widgets themselves are in `query_widget_map`. The three are
changed together. A reply is gone through from the largest rate down, so when it begins with
no widgets the queries that get one are those with the largest rates.

## Key results

- `consistent_step`: each event keeps the counter and the two maps together
- `shows_showQuery`, `shows_foldl`: the queries that a reply puts on an empty page
- `live_view`: the invariant of all runs, the total of each reply, and the queries shown after
  a resort
-/

namespace WorkloadSimulator.LiveView

/-! ## The counter and the maps -/

/-- The counter counts the queries, of which there are at most 24, each query has its widget,
    and each widget its query. -/
structure Consistent (s : LiveView) : Prop where
  currentQueries_eq : s.currentQueries = s.signatureToWidget.keys.length
  le_maxQueries : s.currentQueries ≤ maxQueries
  widget : ∀ signature id, s.signatureToWidget.lookup signature = some id →
    ∃ w, s.queryWidgetMap.get? id = some w ∧ w.query = editorText signature
  owned : ∀ id ∈ s.queryWidgetMap.ids, ∃ signature, s.signatureToWidget.lookup signature = some id

variable {s u : LiveView} {signature : String} {x : String × ℚ}

/-- How a query gets a widget: it has one, there is no room, or a new one is made. -/
theorem signatureToQueryWidget_cases (s : LiveView) (signature : String) :
    (∃ id, s.signatureToWidget.lookup signature = some id ∧
      s.signatureToQueryWidget signature = (s, some id)) ∨
    (s.signatureToWidget.lookup signature = none ∧ maxQueries ≤ s.currentQueries ∧
      s.signatureToQueryWidget signature = (s, none)) ∨
    (s.signatureToWidget.lookup signature = none ∧ s.currentQueries < maxQueries ∧
      s.signatureToQueryWidget signature = ({ s with
        queryWidgetMap := s.queryWidgetMap.add (s.newWidget signature)
        currentQueries := s.currentQueries + 1
        signatureToWidget := s.signatureToWidget.insert signature s.queryWidgetMap.next },
        some s.queryWidgetMap.next)) := by
  unfold signatureToQueryWidget
  cases s.signatureToWidget.lookup signature with
  | some id => exact .inl ⟨id, rfl, rfl⟩
  | none =>
    by_cases hroom : maxQueries ≤ s.currentQueries
    · simp [hroom]
    · simp [hroom]
      omega

/-- A rate on a widget changes no text and no number. -/
theorem Consistent.setDial (hs : s.Consistent) (id : Nat) (v : ℚ) :
    Consistent { s with queryWidgetMap := s.queryWidgetMap.modify id (Widget.setDialValue v) } where
  currentQueries_eq := hs.currentQueries_eq
  le_maxQueries := hs.le_maxQueries
  widget signature j hj := by
    -- a text stays, since only the dial has changed
    obtain ⟨w, hw, hquery⟩ := hs.widget signature j hj
    rw [Numbered.get?_modify, hw]
    refine ⟨_, rfl, ?_⟩
    split <;> exact hquery
  owned j hj := by
    rw [Numbered.ids_modify] at hj
    exact hs.owned j hj

/-- A new query gets a widget under a new number. -/
theorem Consistent.newQuery (hs : s.Consistent)
    (hnone : s.signatureToWidget.lookup signature = none) (hroom : s.currentQueries < maxQueries) :
    Consistent { s with
      queryWidgetMap := s.queryWidgetMap.add (s.newWidget signature)
      currentQueries := s.currentQueries + 1
      signatureToWidget := s.signatureToWidget.insert signature s.queryWidgetMap.next } where
  currentQueries_eq := by
    have hmem := AList.lookup_eq_none.mp hnone
    have hcount := hs.currentQueries_eq
    show s.currentQueries + 1 = _
    rw [AList.keys_insert, List.erase_of_not_mem hmem, List.length_cons]
    omega
  le_maxQueries := hroom
  -- the new signature has the new widget, and the other widgets keep their places
  widget signature' id hid := by
    by_cases heq : signature' = signature
    · subst heq
      rw [AList.lookup_insert] at hid
      obtain rfl := Option.some.inj hid
      exact ⟨s.newWidget signature', by simp [Numbered.get?_add], rfl⟩
    · rw [AList.lookup_insert_ne heq] at hid
      obtain ⟨w, hw, hquery⟩ := hs.widget signature' id hid
      have hlt := Numbered.lt_next_of_get? hw
      exact ⟨w, by rw [Numbered.get?_add, if_neg (by omega), hw], hquery⟩
  owned id hid := by
    rw [Numbered.ids_add, List.mem_append, List.mem_singleton] at hid
    rcases hid with hid | rfl
    -- an old widget belongs to an old signature
    · obtain ⟨signature', hsome⟩ := hs.owned id hid
      refine ⟨signature', ?_⟩
      rw [AList.lookup_insert_ne, hsome]
      rintro rfl
      simp [hnone] at hsome
    · exact ⟨signature, AList.lookup_insert _⟩

/-- A query that is shown keeps the counter and the maps together. -/
theorem Consistent.showQuery (hs : s.Consistent) (x : String × ℚ) : (s.showQuery x).Consistent := by
  unfold LiveView.showQuery
  -- a known query, one for which there is no room, and a new one
  rcases signatureToQueryWidget_cases s x.1 with ⟨id, -, heq⟩ | ⟨-, -, heq⟩ | ⟨hnone, hroom, heq⟩
  · rw [heq]
    exact hs.setDial id x.2
  · rw [heq]
    exact hs
  · rw [heq]
    exact (hs.newQuery hnone hroom).setDial _ x.2

theorem Consistent.foldl_showQuery (hs : s.Consistent) (l : List (String × ℚ)) :
    (l.foldl LiveView.showQuery s).Consistent := by
  induction l generalizing s with
  | nil => exact hs
  | cons x l ih => exact ih (hs.showQuery x)

/-! ## A resort -/

/-- No query and no widget. -/
def Fresh (s : LiveView) : Prop :=
  s.currentQueries = 0 ∧ s.signatureToWidget.keys = [] ∧ s.queryWidgetMap.ids = []

/-- A view without queries is consistent. -/
theorem Fresh.consistent (hs : s.Fresh) : s.Consistent := by
  obtain ⟨hcount, hkeys, hids⟩ := hs
  refine ⟨by simp [hcount, hkeys], by simp [hcount, maxQueries], ?_, by simp [hids]⟩
  intro signature id hid
  -- no signature has a widget
  have hmem := AList.lookup_isSome.mp (Option.isSome_of_eq_some hid)
  rw [AList.mem_keys, hkeys] at hmem
  cases hmem

/-- The queries `l` and their widgets are gone. -/
theorem foldl_deleteWidget (s : LiveView) (l : List (Σ _ : String, Nat)) :
    (l.foldl deleteWidget s).currentQueries = s.currentQueries - l.length ∧
    (∀ signature, signature ∈ (l.foldl deleteWidget s).signatureToWidget ↔
      signature ∈ s.signatureToWidget ∧ signature ∉ l.map (·.1)) ∧
    ∀ id, id ∈ (l.foldl deleteWidget s).queryWidgetMap.ids ↔
      id ∈ s.queryWidgetMap.ids ∧ id ∉ l.map (·.2) := by
  induction l generalizing s with
  | nil => simp
  | cons x l ih =>
    -- delete the first one, then the others
    obtain ⟨hcount, hkeys, hids⟩ := ih (s.deleteWidget x)
    rw [List.foldl_cons]
    refine ⟨?_, fun signature => ?_, fun id => ?_⟩
    · rw [hcount, List.length_cons]
      show s.currentQueries - 1 - _ = _
      omega
    · rw [hkeys, List.map_cons, List.mem_cons, not_or]
      show signature ∈ s.signatureToWidget.erase x.1 ∧ _ ↔ _
      rw [AList.mem_erase]
      tauto
    · rw [hids, List.map_cons, List.mem_cons, not_or]
      show id ∈ (s.queryWidgetMap.erase x.2).ids ∧ _ ↔ _
      rw [Numbered.mem_ids_erase]
      tauto

/-- A resort leaves nothing. -/
theorem Consistent.fresh_resorted (hs : s.Consistent) (hresort : s.resort = 1) :
    s.resorted.Fresh := by
  obtain ⟨hcount, hkeys, hids⟩ := foldl_deleteWidget s s.signatureToWidget.entries
  unfold resorted
  rw [if_pos hresort]
  refine ⟨?_, ?_, ?_⟩
  · show (s.signatureToWidget.entries.foldl deleteWidget s).currentQueries = 0
    rw [hcount, hs.currentQueries_eq, AList.keys, List.keys, List.length_map, Int.sub_self]
  -- all signatures are deleted, and with them all widgets, since each belongs to one
  · rw [List.eq_nil_iff_forall_not_mem]
    intro signature hmem
    exact ((hkeys signature).mp hmem).2 ((hkeys signature).mp hmem).1
  · rw [List.eq_nil_iff_forall_not_mem]
    intro id hmem
    obtain ⟨hold, hnone⟩ := (hids id).mp hmem
    obtain ⟨signature, hsome⟩ := hs.owned id hold
    exact hnone (List.mem_map.mpr ⟨⟨signature, id⟩, AList.mem_lookup_iff.mp hsome, rfl⟩)

/-- A view that is sorted again is consistent, and so is one that is not. -/
theorem Consistent.resorted (hs : s.Consistent) : s.resorted.Consistent := by
  by_cases hresort : s.resort = 1
  · exact (hs.fresh_resorted hresort).consistent
  · unfold LiveView.resorted
    rw [if_neg hresort]
    exact hs

/-! ## The queries of a reply -/

/-- The page shows these queries, in this order and with these rates, and no others. -/
structure Shows (s : LiveView) (shown : List (String × ℚ)) : Prop where
  ids_eq : shown.map (fun x => s.signatureToWidget.lookup x.1) = s.queryWidgetMap.ids.map some
  keys_perm : s.signatureToWidget.keys.Perm (shown.map Prod.fst)
  dial : ∀ x ∈ shown, ∃ id w, s.signatureToWidget.lookup x.1 = some id ∧
    s.queryWidgetMap.get? id = some w ∧ w.query = editorText x.1 ∧
      w.dial.value = clamp w.dial.max ⌊x.2⌋

theorem Fresh.shows (hs : s.Fresh) : s.Shows [] := by
  obtain ⟨-, hkeys, hids⟩ := hs
  exact ⟨by simp [hids], by simp [hkeys], by simp⟩

/-- A query that is not shown is the next one, if there is room. -/
theorem shows_showQuery {shown : List (String × ℚ)} (hs : s.Consistent) (hshows : s.Shows shown)
    (hx : x.1 ∉ shown.map Prod.fst) :
    (s.showQuery x).Shows (if shown.length < 24 then shown ++ [x] else shown) := by
  have hlength : s.currentQueries = shown.length := by
    rw [hs.currentQueries_eq, hshows.keys_perm.length_eq, List.length_map]
  -- what is not shown has no widget yet
  have hnew : s.signatureToWidget.lookup x.1 = none := by
    rw [AList.lookup_eq_none, AList.mem_keys, hshows.keys_perm.mem_iff]
    exact hx
  unfold showQuery
  -- the query is shown, the view is full, or it gets the next widget
  rcases signatureToQueryWidget_cases s x.1 with
    ⟨id, hsome, -⟩ | ⟨-, hfull, heq⟩ | ⟨-, hroom, heq⟩
  · rw [hnew] at hsome
    cases hsome
  · unfold maxQueries at hfull
    rw [heq, if_neg (by omega)]
    exact hshows
  · unfold maxQueries at hroom
    rw [heq, if_pos (by omega)]
    have hne : ∀ y ∈ shown, y.1 ≠ x.1 := by
      intro y hy hyx
      have hmem := List.mem_map_of_mem (f := Prod.fst) hy
      rw [hyx] at hmem
      exact hx hmem
    refine ⟨?_, ?_, ?_⟩
    -- the new widget stands behind the others
    · rw [Numbered.ids_modify, Numbered.ids_add, List.map_append, List.map_append, ← hshows.ids_eq]
      simp only [List.map_cons, List.map_nil, AList.lookup_insert]
      congr 1
      exact List.map_congr_left fun y hy => AList.lookup_insert_ne (hne y hy)
    · rw [AList.keys_insert, List.erase_of_not_mem (AList.lookup_eq_none.mp hnew),
        List.map_append, List.map_singleton]
      -- the signatures are those shown and the new one
      exact (hshows.keys_perm.cons x.1).trans (List.perm_append_singleton _ _).symm
    · intro y hy
      rcases List.mem_append.mp hy with hy | hy
      -- the queries shown before keep their dials, and the new one has its rate
      · obtain ⟨id, w, hid, hw, hquery, hvalue⟩ := hshows.dial y hy
        have hlt := Numbered.lt_next_of_get? hw
        refine ⟨id, w, (AList.lookup_insert_ne (hne y hy)).trans hid, ?_, hquery, hvalue⟩
        rw [Numbered.get?_modify, Numbered.get?_add, if_neg (by omega), hw, Option.map_some,
          if_neg (by omega)]
      · obtain rfl := List.mem_singleton.mp hy
        refine ⟨s.queryWidgetMap.next, (s.newWidget y.1).setDialValue y.2, AList.lookup_insert _,
          ?_, rfl, by simp⟩
        rw [Numbered.get?_modify, Numbered.get?_add, if_pos rfl, Option.map_some, if_pos rfl]

/-- Queries that are not shown are the next ones, as far as there is room. -/
theorem shows_foldl {shown l : List (String × ℚ)} (hs : s.Consistent) (hshows : s.Shows shown)
    (hnodup : ((shown ++ l).map Prod.fst).Nodup) :
    (l.foldl showQuery s).Shows (shown ++ l.take (24 - shown.length)) := by
  induction l generalizing s shown with
  | nil => simpa using hshows
  | cons x l ih =>
    -- the names are distinct, so the first of the list is not shown yet
    have hx : x.1 ∉ shown.map Prod.fst := by
      intro hmem
      rw [List.map_append, List.map_cons, List.nodup_append] at hnodup
      exact hnodup.2.2 x.1 hmem x.1 List.mem_cons_self rfl
    have hstep := shows_showQuery hs hshows hx
    by_cases hroom : shown.length < 24
    · rw [if_pos hroom] at hstep
      have hrest := ih (hs.showQuery x) hstep (by simpa using hnodup)
      -- one place is taken; if there is none, nothing is added any more
      have hlen : 24 - shown.length = 24 - (shown ++ [x]).length + 1 := by
        rw [List.length_append, List.length_singleton]
        omega
      rw [List.foldl_cons, hlen, List.take_succ_cons, List.append_cons]
      exact hrest
    · rw [if_neg hroom] at hstep
      have hnodup' : ((shown ++ l).map Prod.fst).Nodup := by
        refine hnodup.sublist (List.Sublist.map _ ?_)
        exact (List.Sublist.refl shown).append (List.sublist_cons_self x l)
      have hrest := ih (hs.showQuery x) hstep hnodup'
      have hlen : 24 - shown.length = 0 := by omega
      rw [hlen] at hrest ⊢
      simpa using hrest

/-- The page shows as many queries of the reply as it can, from the largest rate down, and no
    query that is left out has a larger rate. -/
def ShowsTop (s : LiveView) (plancache : PlancacheStats) : Prop :=
  ∃ shown, s.Shows shown ∧ shown.length = min 24 plancache.entries.length ∧
    (∀ x ∈ shown, plancache.lookup x.1 = some x.2) ∧
    shown.Pairwise (fun x y => y.2 ≤ x.2) ∧
    ∀ query r, plancache.lookup query = some r → query ∉ shown.map Prod.fst →
      ∀ x ∈ shown, r ≤ x.2

/-- The tuples of a reply are its entries. -/
theorem mem_tuplesOf {plancache : PlancacheStats} :
    x ∈ tuplesOf plancache ↔ plancache.lookup x.1 = some x.2 := by
  rw [← Option.mem_def, AList.mem_lookup_iff]
  constructor
  · intro hx
    obtain ⟨y, hy, rfl⟩ := List.mem_map.mp hx
    exact hy
  · intro hx
    exact List.mem_map.mpr ⟨_, hx, rfl⟩

/-- A reply names each query once. -/
theorem nodup_tuples {plancache : PlancacheStats} {tuples : List (String × ℚ)}
    (hperm : tuples.Perm (tuplesOf plancache)) : (tuples.map Prod.fst).Nodup := by
  rw [(hperm.map Prod.fst).nodup_iff, tuplesOf, List.map_map]
  exact plancache.nodupKeys

/-- The first queries of a reply, from the largest rate down, are those with the largest
    rates. -/
theorem showsTop_of_shows_take {plancache : PlancacheStats} {tuples : List (String × ℚ)}
    (hsorted : Sorted plancache tuples) (hshows : s.Shows (tuples.reverse.take 24)) :
    s.ShowsTop plancache := by
  obtain ⟨hperm, hasc⟩ := hsorted
  have hdesc : tuples.reverse.Pairwise fun x y => y.2 ≤ x.2 := List.pairwise_reverse.mpr hasc
  have hmem : ∀ x, x ∈ tuples.reverse ↔ plancache.lookup x.1 = some x.2 := by
    intro x
    rw [List.mem_reverse, hperm.mem_iff, mem_tuplesOf]
  refine ⟨_, hshows, ?_, ?_, hdesc.sublist (List.take_sublist _ _), ?_⟩
  · rw [List.length_take, List.length_reverse, hperm.length_eq, tuplesOf, List.length_map]
  · intro x hx
    exact (hmem x).mp (List.mem_of_mem_take hx)
  · intro query r hr hnot x hx
    -- a query that is left out comes after the first 24
    have hquery : (query, r) ∈ tuples.reverse := (hmem _).mpr hr
    rw [← List.take_append_drop 24 tuples.reverse] at hquery hdesc
    rcases List.mem_append.mp hquery with hquery | hquery
    · exact absurd (List.mem_map_of_mem (f := Prod.fst) hquery) hnot
    · exact (List.pairwise_append.mp hdesc).2.2 x hx _ hquery

/-- The total that a reply adds to the graph. -/
theorem total_eq_sum {plancache : PlancacheStats} {tuples : List (String × ℚ)}
    (hperm : tuples.Perm (tuplesOf plancache)) :
    -- the page adds the rates one by one, from the last to the first
    tuples.reverse.foldl (fun total x => total + x.2) 0 =
      (plancache.entries.map (·.2)).sum := by
  have hsum : (tuples.reverse.map Prod.snd).sum = _ := List.sum_eq_foldl
  rw [List.foldl_map] at hsum
  rw [← hsum, ((List.reverse_perm tuples).trans hperm).map Prod.snd |>.sum_eq, tuplesOf,
    List.map_map]
  rfl

/-! ## Runs -/

/-- A reply keeps the counter and the maps together. -/
theorem Consistent.onWorkloadReceive (hs : s.Consistent) (tuples : List (String × ℚ)) :
    (s.onWorkloadReceive tuples).Consistent := by
  have hrest := hs.resorted.foldl_showQuery tuples.reverse
  exact ⟨hrest.currentQueries_eq, hrest.le_maxQueries, hrest.widget, hrest.owned⟩

/-- Each event keeps the counter and the maps together. -/
theorem consistent_step {e : Event} (hs : s.Consistent) (h : s.step e = some u) :
    u.Consistent := by
  cases e with
  | stopped =>
    obtain rfl := Option.some.inj h
    exact hs
  | reply plancache tuples =>
    simp only [step] at h
    split at h
    · obtain rfl := Option.some.inj h
      exact hs.onWorkloadReceive tuples
    · cases h
  | sortQueries =>
    obtain rfl := Option.some.inj h
    exact ⟨hs.currentQueries_eq, hs.le_maxQueries, hs.widget, hs.owned⟩

variable {dialMaxValue : Int} {es : List Event}

/-- In every state of a run the counter and the maps are consistent, and so they are after
    the next reply, which adds the sum of its rates to the graph and after a click on Sort
    Queries shows the queries with the largest rates. -/
theorem live_view (h : Machine.run step (init dialMaxValue) es = some s) :
    s.Consistent ∧ ∀ plancache tuples u, s.step (.reply plancache tuples) = some u →
      u.Consistent ∧ u.qpsGraph.getLast? = some (plancache.entries.map (·.2)).sum ∧
        (s.resort = 1 → u.ShowsTop plancache) := by
  have hs : s.Consistent := by
    refine Machine.run_invariant (P := Consistent) ?_ (fun t e u ht he => consistent_step ht he) h
    exact (show (init dialMaxValue).Fresh from ⟨rfl, rfl, rfl⟩).consistent
  refine ⟨hs, fun plancache tuples u hu => ⟨consistent_step hs hu, ?_⟩⟩
  simp only [step] at hu
  split at hu
  · rename_i hsorted
    obtain rfl := Option.some.inj hu
    refine ⟨?_, fun hresort => ?_⟩
    · show List.getLast? (_ ++ [_]) = _
      rw [List.getLast?_concat, total_eq_sum hsorted.1]
    -- after a click the widgets are made anew, in the order of the sorted rates
    · have hfresh := hs.fresh_resorted hresort
      have hnodup : (([] ++ tuples.reverse : List (String × ℚ)).map Prod.fst).Nodup := by
        simpa using nodup_tuples hsorted.1
      have hshows := shows_foldl hfresh.consistent hfresh.shows hnodup
      exact showsTop_of_shows_take hsorted ⟨hshows.ids_eq, hshows.keys_perm, hshows.dial⟩
  · cases hu

/-- Two queries of which the slower one has become the faster one before a click on Sort
    Queries. -/
theorem live_view_after_click :
    ∃ s u, Machine.run step (init 10000) [.reply [⟨"a", 3⟩, ⟨"b", 5⟩].toAList [("a", 3), ("b", 5)],
        .sortQueries] = some s ∧
      s.step (.reply [⟨"a", 8⟩, ⟨"b", 4⟩].toAList [("b", 4), ("a", 8)]) = some u ∧
      u.qpsGraph.getLast? = some 12 ∧ u.ShowsTop [⟨"a", 8⟩, ⟨"b", 4⟩].toAList := by
  obtain ⟨s, hs, hp⟩ := Machine.exists_run_of_map step (init 10000)
    [.reply [⟨"a", 3⟩, ⟨"b", 5⟩].toAList [("a", 3), ("b", 5)], .sortQueries]
    (fun s => s.resort == 1 &&
      (s.step (.reply [⟨"a", 8⟩, ⟨"b", 4⟩].toAList [("b", 4), ("a", 8)])).isSome)
    (by decide +kernel)
  simp only [Bool.and_eq_true, beq_iff_eq] at hp
  obtain ⟨u, hu⟩ := Option.isSome_iff_exists.mp hp.2
  -- after the click the view is sorted again, so the third part of the theorem applies
  obtain ⟨-, htotal, htop⟩ := (live_view hs).2 _ _ u hu
  refine ⟨s, u, hs, hu, htotal.trans ?_, htop hp.1⟩
  decide +kernel

end WorkloadSimulator.LiveView
