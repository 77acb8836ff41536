import WorkloadSimulator.Spec.ClientStep
import WorkloadSimulator.Spec.ModelChoice

/-!
# Configured rates and measured rates

A dial is where the user configures a rate and where the page shows the rate measured.
`freeze` saves the configured rate and `unfreeze` puts it back, but `getWorkload` and
`cacheWorkload` read the dial at all times, and a pause puts the saved rate back even if the
user has set another one since.

The configured rates are kept by an observer of the run (`configure`), who notes what the
user does to the widgets and to the maximum of the dials, and nothing else.

## Key results

- `showStats_eq`: what a response to `/stats` leaves on the dials
- `emitsConfigured_step_iff`: which steps keep the configured rates on the dials
- `configured_iff`: what the page posts, caches and saves are the configured rates, in every
  state of a run, exactly when all its steps keep them on the dials
-/

namespace WorkloadSimulator.Client

variable {site : Site} {s s' : Client} {g g' : Numbered ℚ}

/-! ## What the user configures -/

/-- The rates on the dials. -/
def dialValues (ws : Numbered Widget) : Numbered ℚ := ws.map fun w => (w.dial.value : ℚ)

/-- What an event does to the configured rates: a new widget has none, the user sets a dial
    as far as it goes or brings all dials within a new maximum, and a workload that is loaded
    sets all of them. -/
def configure (s : Client) (e : Event) (g : Numbered ℚ) : Numbered ℚ :=
  match e with
  | .newWidget => if s.running then g else g.add 0
  | .setDial id v => match s.queryWidgetMap.get? id with
    | some w => g.modify id fun _ => (clamp w.dial.max v : ℚ)
    | none => g
  | .closeWidget id => g.erase id
  | .clearWorkload => .empty
  | .upload m workload => dialValues (loadWidgets m workload)
  | .dialMax plus =>
    if s.dialValueEnabled then
      g.map fun v => (clamp (dialMax (nextDialMaxValue s.dialMaxValue plus)) ⌊v⌋ : ℚ)
    else g
  | _ => g

/-- What the page posts, saves and caches for each widget is its configured rate. -/
def EmitsConfigured (s : Client) (g : Numbered ℚ) : Prop :=
  ∀ x, (x ∈ s.getWorkload ∨ x ∈ allWidgets s.queryWidgetMap) → g.get? x.1 = some x.2.qps

/-- The dials show the rates `g`. -/
def Shows (ws : Numbered Widget) (g : Numbered ℚ) : Prop :=
  ∀ id w, ws.get? id = some w → g.get? id = some (w.dial.value : ℚ)

/-- The page emits what its dials show. -/
theorem emitsConfigured_iff : EmitsConfigured s g ↔ Shows s.queryWidgetMap g := by
  constructor
  · intro h id w hw
    -- the widget is one of those that are emitted
    have hmem : (id, w.info) ∈ allWidgets s.queryWidgetMap :=
      List.mem_map.mpr ⟨(id, w), Numbered.mem_entries_iff.mpr hw, rfl⟩
    exact h (id, w.info) (.inr hmem)
  · intro h x hx
    -- the emitted widgets are some of all widgets
    have hx : x ∈ allWidgets s.queryWidgetMap := hx.elim List.mem_of_mem_filter id
    obtain ⟨⟨id, w⟩, hw, rfl⟩ := List.mem_map.mp hx
    exact h id w (Numbered.mem_entries_iff.mp hw)

/-! ## The dials after a response -/

/-- The rates of a response that get to their widgets: those before the first key without a
    widget. -/
def shownRates (ws : Numbered Widget) (stats : List (Sigma fun _ : String => ℚ)) :
    List (Sigma fun _ : String => ℚ) :=
  stats.takeWhile fun x => (widgetId? ws x.1).isSome

theorem widgetId?_eq_some {ws : Numbered Widget} {k : String} {id : Nat}
    (h : widgetId? ws k = some id) : itoa id = k :=
  beq_iff_eq.mp (List.find?_some (p := fun id => itoa id == k) h)

/-- The widgets that find their rates depend on their numbers only. -/
theorem shownRates_congr {ws ws' : Numbered Widget} (h : ws.ids = ws'.ids)
    (stats : List (Sigma fun _ : String => ℚ)) : shownRates ws stats = shownRates ws' stats := by
  simp only [shownRates, widgetId?_congr h]

/-- A widget shows the rate under its number, if the response gets to it. -/
def shownOn (ws : Numbered Widget) (stats : List (Sigma fun _ : String => ℚ)) (id : Nat)
    (w : Widget) : Widget :=
  ((shownRates ws stats).dlookup (itoa id)).elim w fun v => w.setDialValue v

/-- Showing the rates one by one shows each on its widget. -/
theorem showStats_eq {stats : List (Sigma fun _ : String => ℚ)} (hnd : stats.NodupKeys)
    (ws : Numbered Widget) (total : ℚ) :
    (showStats stats ws total).1 = ws.mapWithId (shownOn ws stats) := by
  induction stats generalizing ws total with
  | nil => exact (Numbered.mapWithId_self ws).symm
  | cons x stats ih =>
    obtain ⟨k, qps⟩ := x
    obtain ⟨hk, hnodup⟩ := List.nodupKeys_cons.mp hnd
    rw [showStats]
    -- a rate for a number that no widget has changes nothing
    cases hid : widgetId? ws k with
    | none =>
      have hself : shownOn ws (⟨k, qps⟩ :: stats) = fun _ w => w := by
        funext id w
        simp [shownOn, shownRates, hid]
      rw [hself, Numbered.mapWithId_self]
    -- another one is set on its widget
    | some j =>
      obtain rfl := widgetId?_eq_some hid
      have hrates : shownRates ws (⟨itoa j, qps⟩ :: stats) =
          ⟨itoa j, qps⟩ :: shownRates ws stats := by
        simp [shownRates, hid]
      show (showStats stats (ws.modify j _) (total + qps)).1 = _
      rw [ih hnodup, Numbered.modify, Numbered.mapWithId_mapWithId]
      congr 1
      funext id w
      rw [shownOn, shownOn, hrates, shownRates_congr (Numbered.ids_mapWithId ws _)]
      by_cases hj : id = j
      · subst hj
        -- the rates that follow go to other widgets
        have hnone : (shownRates ws stats).dlookup (itoa id) = none := by
          rw [List.dlookup_eq_none]
          intro hmem
          exact hk (((List.takeWhile_sublist _).map Sigma.fst).subset hmem)
        simp [hnone, List.dlookup_cons_eq]
      · have hne : itoa id ≠ itoa j := fun heq => hj (itoa_injective heq)
        simp [hj, List.dlookup_cons_ne (shownRates ws stats) ⟨itoa j, qps⟩ hne]

/-- The same for the widgets of a response. -/
theorem eq_mapWithId_of_showStats {stats : GoMap ℚ} {ws ws' : Numbered Widget} {t : ℚ}
    {total : Option ℚ} (h : showStats stats.entries ws t = (ws', total)) :
    ws' = ws.mapWithId (shownOn ws stats.entries) := by
  rw [← showStats_eq stats.nodupKeys ws t, h]

/-! ## What holds on the way -/

/-- The observer counts the widgets as the page does, and all dials have the maximum of the
    page. -/
structure Tracks (s : Client) (g : Numbered ℚ) : Prop where
  next : g.next = s.queryWidgetMap.next
  max : ∀ id w, s.queryWidgetMap.get? id = some w → w.dial.max = dialMax s.dialMaxValue

/-- The dials of a workload that is loaded have the maximum given. -/
theorem max_loadWidgets (m : Int) (workload : AList fun _ : Nat => WidgetInfo) :
    ∀ id w, (loadWidgets m workload).get? id = some w → w.dial.max = dialMax m := by
  intro id w hw
  rw [loadWidgets_eq, Numbered.get?_ofList, List.getElem?_map] at hw
  obtain ⟨entry, -, rfl⟩ := Option.map_eq_some_iff.mp hw
  simp [Widget.load]

/-- The page begins with the rates that its dials show. -/
theorem tracks_init (m : Int) (cache : Option (AList fun _ : Nat => WidgetInfo)) :
    Tracks (init m cache) (dialValues (init m cache).queryWidgetMap) := by
  refine ⟨rfl, ?_⟩
  intro id w hw
  cases cache with
  | some workload => exact max_loadWidgets m workload id w hw
  | none =>
    replace hw : (Numbered.empty.add (Widget.new m)).get? id = some w := hw
    -- the one new widget
    rw [Numbered.get?_add] at hw
    split at hw
    · obtain rfl := Option.some.inj hw
      simp [Widget.new, init]
    · cases hw

/-- Changing the widgets one by one, and the rates one by one, keeps the numbers. -/
theorem Tracks.mapWithId {f : Nat → Widget → Widget} (hs : Tracks s g)
    (hn : g'.next = g.next) (hws : s'.queryWidgetMap = s.queryWidgetMap.mapWithId f)
    (hf : ∀ id w, w.dial.max = dialMax s.dialMaxValue →
      (f id w).dial.max = dialMax s'.dialMaxValue) : Tracks s' g' := by
  refine ⟨?_, ?_⟩
  · rw [hn, hws]
    exact hs.next
  · intro id w hw
    rw [hws, Numbered.get?_mapWithId] at hw
    obtain ⟨v, hv, rfl⟩ := Option.map_eq_some_iff.mp hw
    exact hf id v (hs.max id v hv)

/-- Events that leave the widgets and the maximum. -/
theorem Tracks.congr (hs : Tracks s g) (hn : g'.next = g.next)
    (hws : s'.queryWidgetMap = s.queryWidgetMap) (hm : s'.dialMaxValue = s.dialMaxValue) :
    Tracks s' g' := by
  refine ⟨?_, ?_⟩
  · rw [hn, hws]
    exact hs.next
  · rw [hws, hm]
    exact hs.max

/-- A rate that is shown stays within the maximum. -/
theorem Tracks.receives {data : StatsReply} (hs : Tracks s g) (h : Receives site s data s') :
    Tracks s' g := by
  cases h with
  | ignored | errorThrown | stopped => exact hs.congr rfl rfl rfl
  | thrown _ _ heq | shown _ _ heq =>
    refine hs.mapWithId rfl (eq_mapWithId_of_showStats heq) ?_
    intro id w hmax
    unfold shownOn
    cases (shownRates s.queryWidgetMap data.stats.entries).dlookup (itoa id) with
    | none => exact hmax
    | some v => simpa using hmax

theorem tracks_step {e : Event} (hs : Tracks s g) (h : s.step site e = some s') :
    Tracks s' (configure s e g) := by
  cases moves_of_step h with
  | newWidget =>
    cases hr : s.running with
    | true => simpa [configure, newWidget, hr] using hs
    | false =>
      simp only [configure, newWidget, hr, Bool.false_eq_true, ↓reduceIte]
      refine ⟨congrArg Nat.succ hs.next, ?_⟩
      intro id w hw
      rw [Numbered.get?_add] at hw
      split at hw
      · obtain rfl := Option.some.inj hw
        simp [Widget.new]
      · exact hs.max id w hw
  -- the text leaves the dial alone
  | @editQuery id w text hw hro =>
    refine hs.mapWithId (f := fun n w => if n = id then w.edit text else w) rfl rfl ?_
    intro n w hmax
    dsimp only
    split <;> exact hmax
  | @setDial id w v hw hro =>
    -- turning a dial changes the configured rate of its own widget only
    have hnext : (configure s (.setDial id v) g).next = g.next := by
      simp only [configure, hw]
      rfl
    refine hs.mapWithId (f := fun n w => if n = id then w.turn v else w) hnext rfl ?_
    intro n w hmax
    dsimp only
    split <;> exact hmax
  | closeWidget hw =>
    refine ⟨hs.next, ?_⟩
    intro id w hget
    rw [Numbered.get?_erase] at hget
    split at hget
    · cases hget
    · exact hs.max id w hget
  | clearWorkload => exact ⟨rfl, fun _ _ h => nomatch h⟩
  | upload m workload => exact ⟨rfl, max_loadWidgets m workload⟩
  | dialMax plus =>
    cases hv : s.dialValueEnabled with
    | true =>
      -- every dial is made anew with the next maximum
      simp only [configure, updateDialValue, hv, ↓reduceIte]
      exact hs.mapWithId (f := fun _ => Widget.reloadDial (nextDialMaxValue s.dialMaxValue plus))
        rfl rfl fun id w _ => Dial.replace_max ..
    | false => simpa [configure, updateDialValue, hv] using hs
  | played running hw =>
    cases running with
    -- the dials are frozen with the present maximum
    | true =>
      exact hs.mapWithId (f := fun _ => Widget.freeze s.dialMaxValue) rfl rfl
        fun id w _ => Dial.replace_max ..
    | false => exact hs.congr rfl rfl rfl
  | paused running hp =>
    cases running with
    | true => exact hs.congr rfl rfl rfl
    | false =>
      exact hs.mapWithId (f := fun _ => Widget.unfreeze s.dialMaxValue) rfl rfl
        fun id w _ => Dial.replace_max ..
  | stats data hstats =>
    -- a report moves the dials and not their maximum
    have ht : Tracks { s with statsRequests := s.statsRequests - 1 } g := hs.congr rfl rfl rfl
    exact ht.receives (receives site _ data)
  | click =>
    unfold click
    split <;> exact hs.congr rfl rfl rfl
  | playError | pauseError | statsError | timer | autoSave | save =>
    exact hs.congr rfl rfl rfl

/-! ## What keeps the rates on the dials -/

/-- A pause is answered while the rates saved are those on the dials, and a response to
    `/stats` that is shown has for each widget the rate that its dial shows. -/
def DialsKept (s : Client) : Event → Prop
  | .paused false => ∀ x ∈ s.queryWidgetMap.entries,
      clamp (dialMax s.dialMaxValue) ⌊x.2.dialValue⌋ = x.2.dial.value
  | .stats data => s.running = true → data.running = true →
      ∀ x ∈ s.queryWidgetMap.entries,
        ∀ v ∈ (shownRates s.queryWidgetMap data.stats.entries).dlookup (itoa x.1),
          clamp x.2.dial.max ⌊v⌋ = x.2.dial.value
  | _ => True

instance (s : Client) : (e : Event) → Decidable (DialsKept s e)
  | .paused false => inferInstanceAs (Decidable (∀ x ∈ s.queryWidgetMap.entries, _))
  | .stats _ => inferInstanceAs (Decidable (_ → _ → ∀ x ∈ s.queryWidgetMap.entries, _))
  | .paused true | .newWidget | .editQuery .. | .setDial .. | .closeWidget _ | .clearWorkload
  | .upload .. | .dialMax _ | .click | .played .. | .playError _ | .pauseError | .statsError
  | .timer | .autoSave | .save => .isTrue trivial

variable {ws : Numbered Widget}

/-- Widgets and rates that change in the same way. -/
theorem Shows.mapWithId {f : Nat → Widget → Widget} {k : Nat → ℚ → ℚ} (h : Shows ws g)
    (hfk : ∀ id w, ws.get? id = some w → ((f id w).dial.value : ℚ) = k id w.dial.value) :
    Shows (ws.mapWithId f) (g.mapWithId k) := by
  intro id w hw
  rw [Numbered.get?_mapWithId] at hw
  obtain ⟨v, hv, rfl⟩ := Option.map_eq_some_iff.mp hw
  rw [Numbered.get?_mapWithId, h id v hv, hfk id v hv]
  rfl

/-- Widgets that change while the rates stay. -/
theorem shows_mapWithId_iff {f : Nat → Widget → Widget} (h : Shows ws g) :
    Shows (ws.mapWithId f) g ↔ ∀ x ∈ ws.entries, (f x.1 x.2).dial.value = x.2.dial.value := by
  constructor
  · rintro hf ⟨id, w⟩ hx
    have hw := Numbered.mem_entries_iff.mp hx
    -- a configured rate that is still shown is the value of the changed dial
    have hfw : g.get? id = some ((f id w).dial.value : ℚ) := by
      apply hf
      rw [Numbered.get?_mapWithId, hw]
      rfl
    rw [h id w hw] at hfw
    exact_mod_cast (Option.some.inj hfw).symm
  · intro hf
    rw [← Numbered.mapWithId_self g]
    apply h.mapWithId
    intro id w hw
    rw [hf _ (Numbered.mem_entries_iff.mpr hw)]

/-- A new widget whose rate is the one that the observer notes. -/
theorem Shows.add {w : Widget} {v : ℚ} (h : Shows ws g) (hn : g.next = ws.next)
    (hv : (w.dial.value : ℚ) = v) : Shows (ws.add w) (g.add v) := by
  intro id w' hw'
  rw [Numbered.get?_add] at hw' ⊢
  rw [hn]
  split at hw'
  · rename_i hid
    obtain rfl := Option.some.inj hw'
    rw [if_pos hid, hv]
  · rename_i hid
    rw [if_neg hid]
    exact h id w' hw'

theorem Shows.erase (h : Shows ws g) (id : Nat) : Shows (ws.erase id) (g.erase id) := by
  intro j w hw
  rw [Numbered.get?_erase] at hw ⊢
  split at hw
  · cases hw
  · rename_i hj
    rw [if_neg hj]
    exact h j w hw

theorem shows_dialValues (ws : Numbered Widget) : Shows ws (dialValues ws) := by
  intro id w hw
  rw [dialValues, Numbered.get?_map, hw]
  rfl

/-- A rate is shown on its widget, and the others keep theirs. -/
theorem shownOn_value_eq_iff {stats : List (Sigma fun _ : String => ℚ)} {id : Nat}
    {w : Widget} : (shownOn ws stats id w).dial.value = w.dial.value ↔
      ∀ v ∈ (shownRates ws stats).dlookup (itoa id), clamp w.dial.max ⌊v⌋ = w.dial.value := by
  unfold shownOn
  cases (shownRates ws stats).dlookup (itoa id) with
  | none => simp
  | some v => simp

/-- A response keeps the rates on the dials if it shows them, or shows none. -/
theorem shows_receives_iff {data : StatsReply} (hs : Shows s.queryWidgetMap g)
    (h : Receives site s data s') : Shows s'.queryWidgetMap g ↔ DialsKept s (.stats data) := by
  cases h with
  | ignored hr => exact iff_of_true hs fun hr' => by simp [hr'] at hr
  | errorThrown _ hd | stopped _ hd => exact iff_of_true hs fun _ hd' => by simp [hd'] at hd
  | thrown hr hd heq | shown hr hd heq =>
    show Shows _ g ↔ (s.running = true → data.running = true → _)
    rw [eq_mapWithId_of_showStats heq, shows_mapWithId_iff hs]
    simp only [shownOn_value_eq_iff]
    exact ⟨fun hall _ _ => hall, fun hall => hall hr hd⟩

/-- A step keeps the configured rates on the dials exactly in these cases. -/
theorem emitsConfigured_step_iff {e : Event} (ht : Tracks s g) (hs : EmitsConfigured s g)
    (h : s.step site e = some s') : EmitsConfigured s' (configure s e g) ↔ DialsKept s e := by
  rw [emitsConfigured_iff] at hs ⊢
  cases moves_of_step h with
  | newWidget =>
    refine iff_of_true ?_ trivial
    cases hr : s.running with
    | true => simpa [configure, newWidget, hr] using hs
    | false =>
      simp only [configure, newWidget, hr, Bool.false_eq_true, ↓reduceIte]
      exact hs.add ht.next (by simp [Widget.new, clamp])
  | editQuery text hw hro =>
    refine iff_of_true ((shows_mapWithId_iff hs).mpr ?_) trivial
    intro x hx
    split <;> rfl
  | @setDial id w v hw hro =>
    refine iff_of_true ?_ trivial
    simp only [configure, hw]
    apply hs.mapWithId
    intro n w' hw'
    by_cases hn : n = id
    · subst hn
      obtain rfl := Option.some.inj (hw.symm.trans hw')
      simp
    · simp [hn]
  | closeWidget hw => exact iff_of_true (hs.erase _) trivial
  | clearWorkload => exact iff_of_true (fun _ _ hget => nomatch hget) trivial
  | upload m workload => exact iff_of_true (shows_dialValues _) trivial
  | dialMax plus =>
    refine iff_of_true ?_ trivial
    cases hv : s.dialValueEnabled with
    | true =>
      simp only [configure, updateDialValue, hv, ↓reduceIte]
      apply hs.mapWithId
      intro id w hw
      simp
    | false => simpa [configure, updateDialValue, hv] using hs
  | played running hw =>
    refine iff_of_true ?_ trivial
    cases running with
    | true =>
      -- the rate fits the dial that takes the place of the one that shows it
      refine (shows_mapWithId_iff (f := fun _ => Widget.freeze s.dialMaxValue) hs).mpr ?_
      intro x hx
      have hle := x.2.dial.le_max
      rw [ht.max _ _ (Numbered.mem_entries_iff.mp hx)] at hle
      simp [clamp_of_le hle]
    | false => exact hs
  | paused running hp =>
    cases running with
    | true => exact iff_of_true hs trivial
    | false =>
      refine (shows_mapWithId_iff (f := fun _ => Widget.unfreeze s.dialMaxValue) hs).trans ?_
      simp [DialsKept]
  | stats data hstats =>
    exact shows_receives_iff (s := { s with statsRequests := s.statsRequests - 1 }) hs
      (receives site _ data)
  | click =>
    refine iff_of_true ?_ trivial
    unfold click
    split <;> exact hs
  | playError | pauseError | statsError | timer | autoSave | save => exact iff_of_true hs trivial

variable {m : Int} {cache : Option (AList fun _ : Nat => WidgetInfo)} {es : List Event}

/-- What the page posts, caches and saves are the configured rates, in every state of a run,
    exactly when all its steps keep them on the dials. -/
theorem configured_iff (h : Runs site m cache es s) :
    Machine.Always (Machine.observe (Client.step site) configure)
        (fun p => EmitsConfigured p.1 p.2)
        (init m cache, dialValues (init m cache).queryWidgetMap) es ↔
      Machine.Meets (Client.step site) (fun _ => DialsKept) (init m cache) es := by
  obtain ⟨g, hrun⟩ := Machine.exists_run_observe configure
    (dialValues (init m cache).queryWidgetMap) h
  -- the observer notes the configured rates; the page does not see them
  rw [← Machine.meets_observe configure]
  refine Machine.always_iff_meets_of_invariant (I := fun p : Client × Numbered ℚ => Tracks p.1 p.2)
    (tracks_init m cache) (emitsConfigured_iff.mpr (shows_dialValues _)) ?_ hrun
  rintro ⟨t, g⟩ e ⟨u, g'⟩ ht hs he
  obtain ⟨u, hu, heq⟩ := Option.map_eq_some_iff.mp he
  cases heq
  exact ⟨tracks_step ht hu, emitsConfigured_step_iff ht hs hu⟩

/-- The user sets a rate of 5, and the server has measured 3. -/
theorem measured_rate_emitted :
    ¬ ∀ m cache es s, Runs .stress m cache es s →
      Machine.Always (Machine.observe (Client.step .stress) configure)
        (fun p => EmitsConfigured p.1 p.2)
        (init m cache, dialValues (init m cache).queryWidgetMap) es := by
  intro hall
  let es : List Event := [.editQuery 0 "a", .setDial 0 5, .click, .played 0 true,
    .stats ⟨true, none, [⟨"0", 3⟩].toAList, ∅⟩]
  obtain ⟨⟨s, g⟩, hrun, hp⟩ := Machine.exists_run_of_map
    (Machine.observe (Client.step .stress) configure)
    (init 10000 none, dialValues (init 10000 none).queryWidgetMap) es
    (fun p => p.1.getWorkload == [(0, ⟨"a", 3⟩)] && p.2.get? 0 == some 5) (by decide +kernel)
  have hs : Runs .stress 10000 none es s := by
    rw [Runs, ← Machine.run_observe configure _ (dialValues (init 10000 none).queryWidgetMap),
      hrun]
    rfl
  simp only [Bool.and_eq_true, beq_iff_eq] at hp
  have hemit := hall _ _ es s hs es [] (List.append_nil es).symm _ hrun (0, ⟨"a", 3⟩)
    -- the rate emitted would be the one set
    (.inl (by simp [hp.1]))
  rw [hp.2] at hemit
  exact absurd hemit (by decide)

/-- The server measures what the user has set. -/
theorem configured_until_pause :
    ∃ s, Runs .stress 10000 none [.editQuery 0 "a", .setDial 0 5, .click, .played 0 true,
        .stats ⟨true, none, [⟨"0", 5⟩].toAList, ∅⟩, .autoSave, .click, .paused false] s ∧
      Machine.Always (Machine.observe (Client.step .stress) configure)
        (fun p => EmitsConfigured p.1 p.2)
        (init 10000 none, dialValues (init 10000 none).queryWidgetMap)
        [.editQuery 0 "a", .setDial 0 5, .click, .played 0 true,
          .stats ⟨true, none, [⟨"0", 5⟩].toAList, ∅⟩, .autoSave, .click, .paused false] := by
  obtain ⟨s, hs, -⟩ := Machine.exists_run_of_map (Client.step .stress) (init 10000 none)
    [.editQuery 0 "a", .setDial 0 5, .click, .played 0 true,
      .stats ⟨true, none, [⟨"0", 5⟩].toAList, ∅⟩, .autoSave, .click, .paused false]
    (fun _ => true) (by decide +kernel)
  -- the condition is one on the events, so it can be evaluated
  refine ⟨s, hs, (configured_iff hs).mpr (Machine.meets_of_check
    (c := fun s e => decide (DialsKept s e)) (fun _ _ _ hc => of_decide_eq_true hc) ?_)⟩
  decide +kernel

end WorkloadSimulator.Client
