import WorkloadSimulator.Spec.ClientStep
import WorkloadSimulator.Spec.ModelChoice

/-!
# Whether a response to `/stats` finds its widgets

A response has a rate for each widget of the workload that was submitted. The page shows it
on the widget with that number, and throws if there is none; then the polling ends although
the workload runs. While the workload runs the page takes no new widget, but it lets the
user close one, clear all or upload a file, and a play may succeed after its widgets are
gone.

## Key results

- `repliesFind_iff`: a response is shown, and the polling goes on, exactly when the widgets
  submitted are there
- `replies_find_iff`: this holds in every state of a run exactly when all its steps keep the
  widgets submitted
-/

namespace WorkloadSimulator.Client

variable {site : Site} {s s' : Client}

/-! ## What the page needs for a response -/

/-- While the workload runs, a response whose keys are the widgets submitted finds each of
    them, and the polling goes on. -/
def RepliesFind (site : Site) (s : Client) : Prop :=
  s.running = true → ∀ data : StatsReply, data.running = true →
    (∀ k, k ∈ data.stats ↔ ∃ id ∈ s.played, itoa id = k) →
      (∀ k ∈ data.stats, (widgetId? s.queryWidgetMap k).isSome = true) ∧
        (s.onWorkloadReceive site data).timers = s.timers + 1

/-- The widget under the decimals of a number is the one with that number. -/
theorem widgetId?_itoa (ws : Numbered Widget) (id : Nat) :
    (widgetId? ws (itoa id)).isSome = true ↔ id ∈ ws.ids := by
  rw [widgetId?, List.find?_isSome]
  constructor
  · rintro ⟨j, hj, heq⟩
    rwa [← itoa_injective (beq_iff_eq.mp heq)]
  · intro hid
    exact ⟨id, hid, beq_self_eq_true _⟩

/-- A response is shown with all its rates when every key has a widget, and then the
    polling goes on. -/
theorem timers_onWorkloadReceive (hr : s.running = true) {data : StatsReply}
    (hd : data.running = true) :
    (s.onWorkloadReceive site data).timers = s.timers + 1 ↔
      ∀ k ∈ data.stats, (widgetId? s.queryWidgetMap k).isSome = true := by
  have hkeys : (∀ k ∈ data.stats, (widgetId? s.queryWidgetMap k).isSome = true) ↔
      ∀ x ∈ data.stats.entries, (widgetId? s.queryWidgetMap x.1).isSome = true := by
    simp only [AList.mem_keys, AList.keys, List.keys, List.forall_mem_map]
  rw [hkeys, ← @showStats_isSome_iff _ _ 0]
  have hreceives := receives site s data
  generalize s.onWorkloadReceive site data = s' at hreceives ⊢
  -- one case for each way in which the client receives a reply
  cases hreceives with
  | shown _ _ hshow => simp [hshow]
  | thrown _ _ hshow => simp [hshow]
  | ignored hr' => simp [hr] at hr'
  | errorThrown _ hd' | stopped _ hd' => simp [hd] at hd'

/-- A response finds its widgets exactly when the widgets submitted are there. -/
theorem repliesFind_iff :
    RepliesFind site s ↔ (s.running = true → ∀ id ∈ s.played, id ∈ s.queryWidgetMap.ids) := by
  constructor
  · intro h hr id hid
    -- a response that has just these keys
    let stats : List (Sigma fun _ : String => ℚ) := s.played.map fun id => ⟨itoa id, 0⟩
    have hkeys : ∀ k, k ∈ stats.toAList ↔ ∃ id ∈ s.played, itoa id = k := by
      intro k
      rw [← AList.lookup_isSome, AList.lookup_to_alist, List.dlookup_isSome, List.keys,
        List.map_map, List.mem_map]
      rfl
    have hfind := (h hr ⟨true, none, stats.toAList, ∅⟩ rfl hkeys).1 (itoa id)
      ((hkeys _).mpr ⟨id, hid, rfl⟩)
    exact (widgetId?_itoa _ id).mp hfind
  · intro h hr data hd hkeys
    have hfind : ∀ k ∈ data.stats, (widgetId? s.queryWidgetMap k).isSome = true := by
      intro k hk
      obtain ⟨id, hid, rfl⟩ := (hkeys k).mp hk
      exact (widgetId?_itoa _ id).mpr (h hr id hid)
    exact ⟨hfind, (timers_onWorkloadReceive hr hd).mpr hfind⟩

/-! ## What keeps it -/

/-- While the workload runs, no widget that was submitted is closed, nothing is cleared if a
    widget was submitted, and a file that is uploaded has more widgets than the number of
    each one that was submitted; and a play succeeds while the widgets it has submitted are
    still there. -/
def SubmittedKept (s : Client) : Event → Prop
  | .closeWidget id => s.running = true → id ∉ s.played
  | .clearWorkload => s.running = true → s.played = []
  | .upload _ workload => s.running = true → ∀ id ∈ s.played, id < workload.keys.length
  | .played n true => ∀ x ∈ s.workloadRequests[n]?.getD [], x.1 ∈ s.queryWidgetMap.ids
  | _ => True

instance (s : Client) : (e : Event) → Decidable (SubmittedKept s e)
  | .closeWidget _ | .clearWorkload | .upload .. => inferInstanceAs (Decidable (_ → _))
  | .played n true => inferInstanceAs (Decidable (∀ x ∈ s.workloadRequests[n]?.getD [], _))
  | .played _ false | .newWidget | .editQuery .. | .setDial .. | .dialMax _ | .click
  | .playError _ | .paused _ | .pauseError | .stats _ | .statsError | .timer | .autoSave
  | .save => .isTrue trivial

/-- Events that leave the button, the widgets submitted and the numbers of the widgets. -/
theorem RepliesFind.congr (hs : RepliesFind site s) (hr : s'.running = s.running)
    (hp : s'.played = s.played) (hids : s'.queryWidgetMap.ids = s.queryWidgetMap.ids) :
    RepliesFind site s' := by
  rw [repliesFind_iff] at hs ⊢
  rwa [hr, hp, hids]

/-- While no workload runs, no reply is due. -/
theorem repliesFind_of_not_running (hr : s.running = false) : RepliesFind site s := by
  intro h
  rw [hr] at h
  cases h

/-- The rates do not change the numbers of the widgets. -/
theorem RepliesFind.receives {data : StatsReply} (hs : RepliesFind site s)
    (h : Receives site s data s') : RepliesFind site s' := by
  have hshow : ∀ {ws : Numbered Widget} {total : Option ℚ},
      showStats data.stats.entries s.queryWidgetMap 0 = (ws, total) →
        ws.ids = s.queryWidgetMap.ids := by
    intro ws total heq
    rw [← ids_showStats data.stats.entries s.queryWidgetMap 0, heq]
  cases h with
  | ignored | errorThrown => exact hs
  -- the page goes on until the response to its `/pause`
  | stopped => exact hs.congr rfl rfl rfl
  | thrown _ _ heq | shown _ _ heq => exact hs.congr rfl rfl (hshow heq)

/-- A step keeps it exactly when it keeps the widgets submitted. -/
theorem repliesFind_step_iff {e : Event} (hs : RepliesFind site s)
    (h : s.step site e = some s') : RepliesFind site s' ↔ SubmittedKept s e := by
  cases moves_of_step h with
  | closeWidget hw =>
    -- closing is harmless for a widget that was not submitted
    rw [repliesFind_iff] at hs ⊢
    simp only [Numbered.mem_ids_erase, SubmittedKept]
    constructor
    · intro hall hr hid
      exact (hall hr _ hid).2 rfl
    · intro hnot hr id hid
      exact ⟨hs hr id hid, fun heq => hnot hr (heq ▸ hid)⟩
  -- no widget is left
  | clearWorkload =>
    rw [repliesFind_iff]
    show (s.running = true → ∀ id ∈ s.played, id ∈ (Numbered.empty : Numbered Widget).ids) ↔
      (s.running = true → s.played = [])
    simp [List.eq_nil_iff_forall_not_mem]
  -- an upload numbers its widgets from zero
  | upload m workload =>
    rw [repliesFind_iff]
    show (s.running = true → ∀ id ∈ s.played, id ∈ (loadWidgets m workload).ids) ↔
      (s.running = true → ∀ id ∈ s.played, id < workload.keys.length)
    simp only [ids_loadWidgets, List.mem_range]
  | @played n workload running hw =>
    -- the widgets submitted must still be there when the response comes
    cases running with
    | true =>
      rw [repliesFind_iff]
      show (true = true → ∀ id ∈ workload.map Prod.fst,
        id ∈ (s.queryWidgetMap.map (Widget.freeze s.dialMaxValue)).ids) ↔
          ∀ x ∈ s.workloadRequests[n]?.getD [], x.1 ∈ s.queryWidgetMap.ids
      simp only [hw, Numbered.ids_map, List.forall_mem_map, forall_const, Option.getD_some]
    | false => exact iff_of_true (repliesFind_of_not_running rfl) trivial
  -- while a workload runs the page makes no new widgets
  | newWidget =>
    refine iff_of_true ?_ trivial
    cases hr : s.running with
    | true => simpa [newWidget, hr] using hs
    | false => exact repliesFind_of_not_running (by simp [newWidget, hr])
  | paused running hp =>
    refine iff_of_true ?_ trivial
    cases running with
    | true => exact hs.congr rfl rfl rfl
    | false => exact repliesFind_of_not_running rfl
  | stats data hstats =>
    have ht : RepliesFind site { s with statsRequests := s.statsRequests - 1 } :=
      hs.congr rfl rfl rfl
    exact iff_of_true (ht.receives (receives site _ data)) trivial
  | editQuery text hw hro | setDial v hw hro =>
    exact iff_of_true (hs.congr rfl rfl (Numbered.ids_modify ..)) trivial
  | dialMax plus =>
    refine iff_of_true ?_ trivial
    unfold updateDialValue
    split
    · exact hs.congr rfl rfl (Numbered.ids_map ..)
    · exact hs
  | click =>
    refine iff_of_true ?_ trivial
    unfold click
    split <;> exact hs.congr rfl rfl rfl
  | playError | pauseError | statsError | timer | autoSave | save =>
    exact iff_of_true (hs.congr rfl rfl rfl) trivial

variable {m : Int} {cache : Option (AList fun _ : Nat => WidgetInfo)} {es : List Event}

/-- In every state of a run the responses find their widgets and the polling goes on,
    exactly when all its steps keep the widgets submitted. -/
theorem replies_find_iff (h : Runs site m cache es s) :
    Machine.Always (Client.step site) (RepliesFind site) (init m cache) es ↔
      Machine.Meets (Client.step site) (fun _ => SubmittedKept) (init m cache) es :=
  Machine.always_iff_meets (repliesFind_of_not_running rfl)
    (fun _ _ _ ht he => repliesFind_step_iff ht he) h

/-- A widget is closed while its workload runs. -/
theorem reply_misses_closed_widget :
    ¬ ∀ m cache es s, Runs .stress m cache es s → RepliesFind .stress s := by
  intro hall
  obtain ⟨s, hs, hp⟩ := Machine.exists_run_of_map (Client.step .stress) (init 10000 none)
    [.editQuery 0 "a", .click, .played 0 true, .closeWidget 0]
    (fun s => s.running && s.played == [0] && s.queryWidgetMap.ids == []) (by decide +kernel)
  simp only [Bool.and_eq_true, beq_iff_eq] at hp
  obtain ⟨⟨hr, hplayed⟩, hids⟩ := hp
  -- the closed widget is one of those submitted
  have hfind := repliesFind_iff.mp (hall _ _ _ s hs) hr 0 (by simp [hplayed])
  rw [hids] at hfind
  exact absurd hfind List.not_mem_nil

/-- A widget is closed after the pause. -/
theorem replies_find_until_pause :
    ∃ s, Runs .stress 10000 none [.editQuery 0 "a", .click, .played 0 true, .click,
        .paused false, .closeWidget 0] s ∧
      Machine.Always (Client.step .stress) (RepliesFind .stress) (init 10000 none)
        [.editQuery 0 "a", .click, .played 0 true, .click, .paused false, .closeWidget 0] := by
  obtain ⟨s, hs, -⟩ := Machine.exists_run_of_map (Client.step .stress) (init 10000 none)
    [.editQuery 0 "a", .click, .played 0 true, .click, .paused false, .closeWidget 0]
    (fun _ => true) (by decide +kernel)
  -- each event keeps the widgets submitted while the workload runs
  refine ⟨s, hs, (replies_find_iff hs).mpr (Machine.meets_of_check
    (c := fun s e => decide (SubmittedKept s e)) (fun _ _ _ hc => of_decide_eq_true hc) ?_)⟩
  decide +kernel

end WorkloadSimulator.Client
