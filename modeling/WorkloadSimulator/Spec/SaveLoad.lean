import WorkloadSimulator.ForStd.List
import WorkloadSimulator.Page.SavedSession
import WorkloadSimulator.Spec.DialValues
import WorkloadSimulator.Spec.ModelChoice

/-!
# Saving and loading a workload

Loading renumbers the widgets from zero on, in the order of their ids. It keeps a rate that is
within the maximum of the dials, and a text in which no line ends with a carriage return. The
cache is loaded with the maximum of the page; a file brings the maximum of its settings, which
are those of the last time that the settings form was closed.

## Key results

- `loadObject_eq`: what is loaded of an object that was saved, in any order of its entries
- `roundTrip_iff`: which workloads are loaded as they were saved
- `save_load_iff`: when the cache and the files of a page are
-/

namespace WorkloadSimulator

/-! ## Texts -/

/-- A line of the text ends with a carriage return. -/
def HasCrLf (s : String) : Prop := ['\r', '\n'] <:+: s.toList

/-- An editor never makes a text longer. -/
theorem length_joinLines_le (l : List Char) : (joinLines l).length ≤ l.length := by
  induction l using joinLines.induct with
  | case1 s ih =>
    simp only [joinLines, List.length_cons]
    omega
  | case2 c s hc ih =>
    rw [joinLines.eq_2 c s hc]
    simpa using ih
  | case3 => exact Nat.le_refl _

/-- The editor keeps a text in which no line ends with a carriage return. -/
theorem joinLines_eq_self_iff (l : List Char) : joinLines l = l ↔ ¬ ['\r', '\n'] <:+: l := by
  induction l using joinLines.induct with
  | case1 s =>
    refine iff_of_false ?_ (not_not_intro (List.prefix_append ['\r', '\n'] s).isInfix)
    -- a line break that is joined makes the text shorter
    intro h
    have hle := length_joinLines_le s
    have hlen := congrArg List.length h
    simp only [joinLines, List.length_cons] at hlen
    omega
  | case2 c s hc ih =>
    have hnot : ¬ ['\r', '\n'] <+: c :: s := by
      rintro ⟨t, ht⟩
      obtain ⟨rfl, rfl⟩ := List.cons.inj ht
      exact hc t rfl rfl
    rw [joinLines.eq_2 c s hc, List.infix_cons_iff, or_iff_right hnot, ← ih]
    simp
  | case3 => simp [joinLines]

/-- The editor leaves a text unless it has the two characters of a line end next to each other. -/
theorem editorText_eq_self_iff (s : String) : editorText s = s ↔ ¬ HasCrLf s := by
  rw [HasCrLf, ← joinLines_eq_self_iff, editorText, ← String.toList_inj, String.toList_ofList]

namespace Client

/-! ## Loading what was saved -/

/-- The numeral of an id is read as the id. -/
theorem keyNumber_itoa (id : Nat) : keyNumber (itoa id) = id := by
  rw [keyNumber, itoa, Nat.toList_repr, Nat.ofDigitChars_ten_toDigits]

/-- The entry under the decimals of an id is the one with that id. -/
theorem mem_lookup_toObject {o : SavedObject} {saved : List (Nat × WidgetInfo)}
    (ho : o.entries.Perm (toObject saved)) {id : Nat} {entry : WidgetInfo} :
    o.lookup (itoa id) = some entry ↔ (id, entry) ∈ saved := by
  rw [← Option.mem_def, AList.mem_lookup_iff, ho.mem_iff, toObject, List.mem_map]
  -- different ids have different numerals
  constructor
  · rintro ⟨⟨j, e⟩, hmem, heq⟩
    obtain ⟨hkey, hentry⟩ := Sigma.mk.inj heq
    obtain rfl : j = id := itoa_injective hkey
    obtain rfl : e = entry := eq_of_heq hentry
    exact hmem
  · intro hmem
    exact ⟨_, hmem, rfl⟩

/-- The keys of an object that was saved are the ids of its entries. -/
theorem keyNumber_keys {o : SavedObject} {saved : List (Nat × WidgetInfo)}
    (ho : o.entries.Perm (toObject saved)) :
    (o.keys.map keyNumber).Perm (saved.map Prod.fst) := by
  have hperm := (ho.map Sigma.fst).map keyNumber
  simpa [AList.keys, List.keys, toObject, Function.comp_def, keyNumber_itoa] using hperm

/-- Going through the numbers up to the largest key meets the entries in the order of their
    ids. -/
theorem filterMap_lookup_toObject {o : SavedObject} {saved : List (Nat × WidgetInfo)}
    (hsorted : saved.Pairwise fun x y => x.1 < y.1) (ho : o.entries.Perm (toObject saved)) :
    ((List.range ((o.keys.map keyNumber).foldl max 0 + 1)).filterMap fun i => o.lookup (itoa i)) =
      saved.map Prod.snd := by
  -- the object is read back under the texts of the numbers
  have hlookup : (fun i => o.lookup (itoa i)) = fun i => saved.lookup i := by
    funext i
    apply Option.ext
    intro entry
    rw [Numbered.lookup_eq_some_iff hsorted, mem_lookup_toObject ho]
  rw [hlookup, List.range_eq_range', (keyNumber_keys ho).foldl_eq]
  refine List.filterMap_lookup_range' hsorted (fun _ _ => Nat.zero_le _) ?_
  intro x hx
  have hle := List.le_foldl_max 0 (.inl (List.mem_map_of_mem (f := Prod.fst) hx))
  omega

/-- A workload that was saved is loaded in the order of its ids, in whatever order its entries
    come back. -/
theorem loadObject_eq {o : SavedObject} {saved : List (Nat × WidgetInfo)}
    (hsorted : saved.Pairwise fun x y => x.1 < y.1) (ho : o.entries.Perm (toObject saved))
    (m : Int) : loadObject m o = .ofList (saved.map fun x => .load m x.2) := by
  have hmap : (saved.map fun x => Widget.load m x.2) = (saved.map Prod.snd).map (Widget.load m) :=
    by rw [List.map_map]; rfl
  rw [hmap, ← filterMap_lookup_toObject hsorted ho, ← Numbered.foldl_add, List.foldl_map,
    List.foldl_filterMap, loadObject]
  congr 1
  funext ws i
  cases AList.lookup (itoa i) o <;> rfl

/-- A file that is uploaded is loaded as the page loads the workload with numbers for keys. -/
theorem handleUpload_queryWidgetMap {o : SavedObject} {workload : AList fun _ : Nat => WidgetInfo}
    (ho : o.entries.Perm (toObject (workload.entries.map fun e => (e.1, e.2)))) (m : Int)
    (s : Client) : (s.handleUpload m workload).queryWidgetMap = loadObject m o := by
  -- both look up the same entry for each id
  have hlookup : ∀ i, o.lookup (itoa i) = workload.lookup i := by
    intro i
    apply Option.ext
    intro entry
    rw [mem_lookup_toObject ho, ← Option.mem_def, AList.mem_lookup_iff, List.mem_map]
    constructor
    · rintro ⟨e, he, heq⟩
      cases heq
      exact he
    · intro he
      exact ⟨_, he, rfl⟩
  -- and both count up to the largest id
  have hkeys := (keyNumber_keys ho).foldl_eq (f := max) 0
  rw [List.map_map] at hkeys
  show loadWidgets m workload = loadObject m o
  rw [loadWidgets, loadObject, hkeys]
  congr 1
  funext ws i
  cases h : workload.lookup i <;> simp only [hlookup, h]

/-! ## Round trips -/

/-- The widgets that are saved: all of them in the cache, those with a text in a file. -/
def savedEntries (keep : WidgetInfo → Bool) (ws : Numbered Widget) : List (Nat × WidgetInfo) :=
  (allWidgets ws).filter fun x => keep x.2

/-- What is saved is loaded with the dial maximum `m` as widgets from zero on that have the
    same texts and rates in the order of the ids, and saving and loading these changes
    nothing. -/
structure RoundTrip (m : Int) (keep : WidgetInfo → Bool) (ws : Numbered Widget) : Prop where
  restores : ∀ o : SavedObject, o.entries.Perm (toObject (savedEntries keep ws)) →
    allWidgets (loadObject m o) =
      (Numbered.ofList ((savedEntries keep ws).map Prod.snd)).entries
  again : ∀ o o' : SavedObject, o.entries.Perm (toObject (savedEntries keep ws)) →
    o'.entries.Perm (toObject (savedEntries keep (loadObject m o))) →
      loadObject m o' = loadObject m o

/-- Loading with the dial maximum `m` keeps the entry. -/
def Kept (m : Int) (entry : WidgetInfo) : Prop :=
  ¬ HasCrLf entry.query ∧ entry.qps ≤ (dialMax m).toNat

/-- What a widget shows after loading an entry. -/
theorem load_info (m : Int) (entry : WidgetInfo) : (Widget.load m entry).info =
    ⟨editorText entry.query, clamp (dialMax m) ⌊entry.qps⌋⟩ := by
  simp [Widget.load, Widget.info, Widget.unfreeze]

/-- A widget shows what was saved when its text has no line end of two characters, and its rate is
    not above the maximum. -/
theorem load_info_iff (m : Int) (w : Widget) :
    (Widget.load m w.info).info = w.info ↔ Kept m w.info := by
  have hvalue : clamp (dialMax m) w.dial.value = w.dial.value ↔
      w.dial.value ≤ (dialMax m).toNat := by
    constructor
    · intro h
      rw [← h]
      exact clamp_le _ _
    · exact clamp_of_le
  rw [load_info, Kept, ← editorText_eq_self_iff, Widget.info_qps, Int.floor_natCast]
  simp only [Widget.info, WidgetInfo.mk.injEq, Nat.cast_inj, Nat.cast_le, hvalue]

/-- Each entry that is saved is that of a widget. -/
theorem exists_info_of_mem {keep : WidgetInfo → Bool} {ws : Numbered Widget}
    {x : Nat × WidgetInfo} (hx : x ∈ savedEntries keep ws) : ∃ w : Widget, w.info = x.2 := by
  obtain ⟨⟨id, w⟩, -, rfl⟩ := List.mem_map.mp (List.mem_of_mem_filter hx)
  exact ⟨w, rfl⟩

/-- Entries are saved in the order of their ids. -/
theorem sorted_savedEntries (keep : WidgetInfo → Bool) (ws : Numbered Widget) :
    (savedEntries keep ws).Pairwise fun x y => x.1 < y.1 := by
  have hall : (allWidgets ws).Pairwise fun x y => x.1 < y.1 := List.pairwise_map.mpr ws.sorted
  exact hall.sublist List.filter_sublist

/-- The widgets of a list have the numbers from zero on. -/
theorem allWidgets_ofList (l : List Widget) :
    allWidgets (.ofList l) = (Numbered.ofList (l.map Widget.info)).entries :=
  (Numbered.entries_ofList_map l Widget.info).symm

/-- Every workload can be saved. -/
theorem exists_object {saved : List (Nat × WidgetInfo)}
    (hsorted : saved.Pairwise fun x y => x.1 < y.1) :
    ∃ o : SavedObject, o.entries.Perm (toObject saved) := by
  refine ⟨⟨toObject saved, ?_⟩, List.Perm.refl _⟩
  rw [List.NodupKeys, List.keys, toObject, List.map_map, List.Nodup, List.pairwise_map]
  exact hsorted.imp fun hlt heq => hlt.ne (itoa_injective heq)

/-- The entries that are saved again are those that were loaded. -/
theorem savedEntries_ofList {keep : WidgetInfo → Bool} {l : List Widget}
    (hl : ∀ w ∈ l, keep w.info = true) :
    savedEntries keep (.ofList l) = (Numbered.ofList (l.map Widget.info)).entries := by
  rw [savedEntries, allWidgets_ofList, List.filter_eq_self]
  -- what is loaded passes the same test as what was saved
  intro x hx
  have hmem := List.mem_map_of_mem (f := Prod.snd) hx
  rw [Numbered.map_snd_ofList] at hmem
  obtain ⟨w, hw, heq⟩ := List.mem_map.mp hmem
  rw [← heq]
  exact hl w hw

/-- Saving and loading is a round trip exactly when each entry saved is kept. -/
theorem roundTrip_iff {m : Int} {keep : WidgetInfo → Bool} {ws : Numbered Widget} :
    RoundTrip m keep ws ↔ ∀ x ∈ savedEntries keep ws, Kept m x.2 := by
  have hsorted := sorted_savedEntries keep ws
  have hkept : (∀ x ∈ savedEntries keep ws, (Widget.load m x.2).info = x.2) ↔
      ∀ x ∈ savedEntries keep ws, Kept m x.2 := by
    refine forall₂_congr fun x hx => ?_
    obtain ⟨w, hw⟩ := exists_info_of_mem hx
    rw [← hw]
    exact load_info_iff m w
  -- what is loaded is what was saved when every entry is kept
  have hrestores : ∀ o : SavedObject, o.entries.Perm (toObject (savedEntries keep ws)) →
      (allWidgets (loadObject m o) =
          (Numbered.ofList ((savedEntries keep ws).map Prod.snd)).entries ↔
        ∀ x ∈ savedEntries keep ws, Kept m x.2) := by
    intro o ho
    rw [loadObject_eq hsorted ho, allWidgets_ofList, Numbered.ofList_entries_inj, List.map_map,
      List.map_inj_left, ← hkept]
    rfl
  -- an object with the entries exists, so the round trip tells what is kept
  constructor
  · intro h
    obtain ⟨o, ho⟩ := exists_object hsorted
    exact (hrestores o ho).mp (h.restores o ho)
  -- the second time, what was loaded is saved, and that is what was saved before
  · intro h
    refine ⟨fun o ho => (hrestores o ho).mpr h, ?_⟩
    intro o o' ho ho'
    have hinfo : ((savedEntries keep ws).map fun x => Widget.load m x.2).map Widget.info =
        (savedEntries keep ws).map Prod.snd := by
      rw [List.map_map]
      exact List.map_congr_left (hkept.mpr h)
    rw [loadObject_eq hsorted ho, savedEntries_ofList, hinfo] at ho'
    · rw [loadObject_eq hsorted ho, loadObject_eq (Numbered.sorted _) ho']
      have hload := congrArg (List.map (Widget.load m))
        (Numbered.map_snd_ofList ((savedEntries keep ws).map Prod.snd))
      rw [List.map_map, List.map_map] at hload
      exact congrArg Numbered.ofList hload
    · intro w hw
      obtain ⟨x, hx, rfl⟩ := List.mem_map.mp hw
      rw [hkept.mpr h x hx]
      exact (List.mem_filter.mp hx).2

end Client

/-! ## The pages -/

namespace StressPage

open Client

variable {p q : StressPage} {m : Int} {cache : Option (AList fun _ : Nat => WidgetInfo)}
  {es : List Event}

/-- The cache is loaded as it was saved, by a page with the same maximum. -/
def RestoresCache (p : StressPage) : Prop :=
  RoundTrip p.client.dialMaxValue (fun _ => true) p.client.queryWidgetMap

/-- A file is loaded as it was saved, with its own settings. -/
def RestoresFile (p : StressPage) : Prop :=
  RoundTrip p.save.dialMaxValue (fun entry => entry.query != "") p.client.queryWidgetMap

/-- The dials stay below the maximum of the page. -/
theorem tracks_of_run (h : Machine.run step (init m cache) es = some p) :
    ∃ g, Tracks p.client g := by
  refine Machine.run_invariant (P := fun p : StressPage => ∃ g, Tracks p.client g)
    -- as for the page alone; `updateSettings` does not touch the widgets
    ⟨_, tracks_init m cache⟩ ?_ h
  rintro t e u ⟨g, hg⟩ he
  cases e with
  | client e =>
    obtain ⟨c, hc, rfl⟩ := Option.map_eq_some_iff.mp he
    exact ⟨_, tracks_step hg hc⟩
  | settingsUpdated =>
    obtain rfl := Option.some.inj he
    exact ⟨g, hg⟩

/-- The cache and the files of a page are loaded as they were saved exactly when no line of a
    text ends with a carriage return, and no rate in the file is above the maximum that the
    settings had when they were updated last. -/
theorem save_load_iff (h : Machine.run step (init m cache) es = some p) :
    RestoresCache p ∧ RestoresFile p ↔
      (∀ x ∈ allWidgets p.client.queryWidgetMap, ¬ HasCrLf x.2.query) ∧
        ∀ x ∈ p.client.getWorkload, x.2.qps ≤ (dialMax p.settingsDialMax).toNat := by
  obtain ⟨g, hg⟩ := tracks_of_run h
  rw [RestoresCache, RestoresFile, roundTrip_iff, roundTrip_iff]
  constructor
  · rintro ⟨hcache, hfile⟩
    exact ⟨fun x hx => (hcache x (List.mem_filter.mpr ⟨hx, rfl⟩)).1, fun x hx => (hfile x hx).2⟩
  · rintro ⟨htext, hrate⟩
    refine ⟨fun x hx => ?_, fun x hx => ⟨htext x (List.mem_of_mem_filter hx), hrate x hx⟩⟩
    have hx := List.mem_of_mem_filter hx
    obtain ⟨⟨id, w⟩, hw, rfl⟩ := List.mem_map.mp hx
    refine ⟨htext _ hx, ?_⟩
    -- a dial is never above its own maximum, and the cache keeps the maximum
    have hle := w.dial.le_max
    rw [hg.max id w (Numbered.mem_entries_iff.mp hw)] at hle
    have hcast : (w.dial.value : ℚ) ≤ (dialMax p.client.dialMaxValue).toNat := by exact_mod_cast hle
    exact hcast

/-- The user raises the maximum of the dials, sets one above the old maximum, and saves with
    the settings form open. -/
theorem rate_above_saved_maximum :
    ¬ ∀ m cache es p, Machine.run step (init m cache) es = some p → p.client.running = false →
      RestoresCache p ∧ RestoresFile p := by
  intro hall
  obtain ⟨p, hrun, hp⟩ := Machine.exists_run_of_map step (init 10000 none)
    [.client (.editQuery 0 "a"), .client (.dialMax true), .client (.setDial 0 12000)]
    (fun p => p.client.getWorkload == [(0, ⟨"a", 12000⟩)] && p.settingsDialMax == 10000 &&
      !p.client.running) (by decide +kernel)
  simp only [Bool.and_eq_true, beq_iff_eq, Bool.not_eq_true'] at hp
  obtain ⟨⟨hworkload, hmax⟩, hpaused⟩ := hp
  obtain ⟨-, hfile⟩ := hall _ _ _ p hrun hpaused
  -- the file has the maximum of the settings form, which is below the rate
  have hkept := roundTrip_iff.mp hfile (0, ⟨"a", 12000⟩)
    (show _ ∈ p.client.getWorkload by simp [hworkload])
  have hle : (12000 : ℚ) ≤ (dialMax p.settingsDialMax).toNat := hkept.2
  rw [hmax] at hle
  norm_num [dialMax] at hle

/-- The same, with the settings form closed before. -/
theorem rate_below_saved_maximum :
    ∃ p, Machine.run step (init 10000 none)
        [.client (.editQuery 0 "a"), .client (.dialMax true), .client (.setDial 0 12000),
          .settingsUpdated] = some p ∧ RestoresCache p ∧ RestoresFile p := by
  -- the run is computed; its only entry is below the maximum saved
  obtain ⟨p, hrun, hp⟩ := Machine.exists_run_of_map step (init 10000 none)
    [.client (.editQuery 0 "a"), .client (.dialMax true), .client (.setDial 0 12000),
      .settingsUpdated]
    (fun p => allWidgets p.client.queryWidgetMap == [(0, ⟨"a", 12000⟩)] &&
      p.settingsDialMax == 15000) (by decide +kernel)
  simp only [Bool.and_eq_true, beq_iff_eq] at hp
  obtain ⟨hall, hmax⟩ := hp
  refine ⟨p, hrun, (save_load_iff hrun).mpr ⟨?_, ?_⟩⟩
  · rw [hall]
    intro x hx
    obtain rfl := List.mem_singleton.mp hx
    show ¬ ['\r', '\n'] <:+: ['a']
    decide
  · intro x hx
    have hx := List.mem_of_mem_filter hx
    rw [hall] at hx
    obtain rfl := List.mem_singleton.mp hx
    rw [hmax]
    norm_num [dialMax]

end StressPage

end WorkloadSimulator
