import WorkloadSimulator.App.Forms
import WorkloadSimulator.ForStd.Decimal
import WorkloadSimulator.Page.Posting
import WorkloadSimulator.Spec.ModelChoice
import WorkloadSimulator.Spec.SubmitWorkload
import WorkloadSimulator.Spec.SubmittedTexts
import WorkloadSimulator.Stress.Forms

/-!
# The request of the play button

What the two servers read of the body that a page posts to `/workload`: the ids, texts and
rates of its widgets, whatever characters the texts have, and its settings.

## Key results

- `play_reaches_server`: what the stress tool has from a play on, until the next one
- `worker_of_play`: the workers that the app launches for a play
-/

namespace WorkloadSimulator

/-! ## The fields -/

/-- The workload object that a page posts can be written as a text. -/
theorem valid_workloadJson (workload : List (String × QueryWidget)) :
    (workloadJson workload).Valid := by
  refine .obj fun m hm => ?_
  obtain ⟨x, -, rfl⟩ := List.mem_map.mp hm
  refine .obj fun m hm => ?_
  simp only [List.mem_cons, List.not_mem_nil, or_false] at hm
  rcases hm with rfl | rfl <;> exact .str _

/-- What JavaScript writes is decoded as the value it was. -/
theorem decode_stringify {v : Json} (hv : v.Valid) : Json.decode (stringify v) = some v :=
  Json.decode_print Json.readable_jsStyle hv

/-- The two fields of the body. -/
theorem lookup_postedFields (workload : List (String × QueryWidget)) (settings : Json) :
    (postedFields workload settings).lookup "workload".toList =
        some (stringify (workloadJson workload)) ∧
      (postedFields workload settings).lookup "settings".toList = some (stringify settings) :=
  ⟨rfl, rfl⟩

/-- The body is decoded as these fields. -/
theorem decodeForm_playBody (workload : List (String × QueryWidget)) (settings : Json) :
    FormUrl.decodeForm (playBody workload settings) = some (postedFields workload settings) :=
  FormUrl.decodeForm_param _

/-- All numbers of a value are whole. -/
inductive Whole : Json → Prop where
  | null : Whole .null
  | bool (b : Bool) : Whole (.bool b)
  | int (n : Int) : Whole (.ofInt n)
  | str (s : List Char) : Whole (.str s)
  | arr {items : List Json} (h : ∀ v ∈ items, Whole v) : Whole (.arr items)
  | obj {members : List (List Char × Json)} (h : ∀ m ∈ members, Whole m.2) : Whole (.obj members)

/-- The numerals of whole numbers are literals. -/
theorem valid_of_whole {v : Json} (hv : Whole v) : v.Valid := by
  induction hv with
  | null => exact .null
  | bool b => exact .bool b
  | int n => exact Json.valid_ofInt n
  | str s => exact .str s
  | arr _ ih => exact .arr ih
  | obj _ ih => exact .obj ih

theorem whole_settingsJson {values : List (List Char × Json)} (hvalues : ∀ m ∈ values, Whole m.2)
    (dialMaxValue : Int) : Whole (.obj (settingsJson values dialMaxValue)) := by
  refine .obj fun m hm => ?_
  -- a member is one of the values, or the maximum
  rcases List.mem_append.mp (Json.mem_of_mem_items hm) with hm | hm
  · exact hvalues m hm
  · obtain rfl := List.mem_singleton.mp hm
    exact .int _

/-- The inputs of the form are texts. -/
theorem whole_inputsJson (inputs : List (String × String)) : ∀ m ∈ inputsJson inputs, Whole m.2 := by
  intro m hm
  obtain ⟨input, -, rfl⟩ := List.mem_map.mp hm
  exact .str _

/-- A value that is a text. -/
def text? : Json → Option String
  | .str s => some (.ofList s)
  | _ => none

/-- Each widget is a member of its own. -/
theorem items_entryJson {workload : List (String × QueryWidget)}
    (h : (workload.map Prod.fst).Nodup) :
    -- the keys differ, since the ids of the widgets do
    Json.items (workload.map entryJson) = workload.map entryJson := by
  apply Json.items_of_nodup
  have hkeys : (workload.map entryJson).map Prod.fst = (workload.map Prod.fst).map String.toList := by
    rw [List.map_map, List.map_map]
    rfl
  rw [hkeys]
  exact h.map fun _ _ heq => String.toList_inj.mp heq

/-- The members of an entry. -/
theorem get?_entryJson (w : QueryWidget) :
    Json.get? [("query".toList, .str w.query.toList), ("qps".toList, .str w.qps.toList)]
        "query".toList = some (.str w.query.toList) ∧
      Json.get? [("query".toList, .str w.query.toList), ("qps".toList, .str w.qps.toList)]
        "qps".toList = some (.str w.qps.toList) := by
  rw [Json.get?, Json.get?, Json.items_of_nodup (by simp)]
  exact ⟨rfl, rfl⟩

namespace Stress

variable {conv : Conversions} {workload : List (String × QueryWidget)} {settings : Json}

/-! ## The stress tool -/

/-- What the server makes of a widget. -/
def postedOf (conv : Conversions) (x : String × QueryWidget) : Posted :=
  { queryId := (conv.textInt x.1.toList).elim (.error .valueError) .ok
    qps := (conv.textInt x.2.qps.toList).elim (.error .valueError) .ok
    qpsFloat := conv.textFloat x.2.qps.toList
    query := x.2.query }

/-- Python reads the entry of a widget as its id, its text and its rate. -/
theorem ofItem_entryJson (x : String × QueryWidget) :
    Posted.ofItem conv (entryJson x) = some (postedOf conv x) := by
  obtain ⟨hquery, hqps⟩ := get?_entryJson x.2
  simp only [Posted.ofItem, entryJson, hquery, itemInt, itemFloat, hqps, String.ofList_toList,
    postedOf]

/-- The two texts of the body are decoded as the workload and the settings. -/
theorem loadValue_playBody (hsettings : settings.Valid) :
    loadValue (playBody workload settings) "workload" = some (workloadJson workload) ∧
      loadValue (playBody workload settings) "settings" = some settings := by
  obtain ⟨hworkload, hposted⟩ := lookup_postedFields workload settings
  simp only [loadValue, requestValue, decodeForm_playBody, Option.bind_some, hworkload, hposted,
    decode_stringify hsettings, decode_stringify (valid_workloadJson workload), and_self]

/-- The loop over the workload meets the widgets in their order. -/
theorem loadWorkload_playBody (h : (workload.map Prod.fst).Nodup) (hsettings : settings.Valid) :
    loadWorkload conv (playBody workload settings) = some (workload.map (postedOf conv)) := by
  rw [loadWorkload, (loadValue_playBody hsettings).1, workloadJson]
  show (Json.items (workload.map entryJson)).mapM (Posted.ofItem conv) = _
  rw [items_entryJson h]
  have hmapM : workload.mapM (Posted.ofItem conv ∘ entryJson) =
      some (workload.map (postedOf conv)) :=
    List.mapM_eq_some_map.mpr fun x _ => ofItem_entryJson x
  rw [← hmapM, List.mapM_map]

/-- The item of the workload that an item posted becomes. -/
def Posted.entry (p : Posted) : Σ _ : Int, QueryInfo :=
  ⟨p.queryId.toOption.getD 0, p.parseQps.toOption.getD 0, p.query⟩

/-- No conversion of the item raises an exception. -/
def Posted.Converts (p : Posted) : Prop :=
  (∃ qps, p.parseQps = .ok qps) ∧ ∃ id, p.queryId = .ok id

/-- An entry whose numbers are read is put under its id. -/
theorem fill_cons_of_converts {p : Posted} (h : p.Converts) (g : QueryMap) (items : List Posted) :
    fill g (p :: items) = fill (g.insert p.entry.1 p.entry.2) items := by
  obtain ⟨⟨qps, hqps⟩, id, hid⟩ := h
  rw [fill, hqps]
  dsimp only
  rw [Posted.entry, hqps, hid]
  rfl

/-- Items with ids of their own are added to those that are there, in any order. -/
theorem fill_of_converts {items : List Posted} {g : QueryMap}
    (hok : ∀ p ∈ items, p.Converts) (hnodup : (items.map fun p => p.entry.1).Nodup)
    (hnew : ∀ p ∈ items, p.entry.1 ∉ g) :
    (fill g items).2 = none ∧
      (fill g items).1.entries.Perm (items.map Posted.entry ++ g.entries) := by
  -- induction on the items, for every map of those before; the first one is new in it
  induction items generalizing g with
  | nil => exact ⟨rfl, .refl _⟩
  | cons p items ih =>
    rw [List.forall_mem_cons] at hok hnew
    rw [List.map_cons, List.nodup_cons] at hnodup
    obtain ⟨hnone, hperm⟩ := ih (g := g.insert p.entry.1 p.entry.2) hok.2 hnodup.2 (by
      intro q hq
      rw [AList.mem_insert, not_or]
      refine ⟨fun heq => hnodup.1 ?_, hnew.2 q hq⟩
      rw [← heq]
      exact List.mem_map_of_mem hq)
    rw [fill_cons_of_converts hok.1]
    refine ⟨hnone, hperm.trans ?_⟩
    rw [AList.entries_insert_of_notMem hnew.1]
    exact List.perm_middle

/-- `int` reads whole numbers in decimal. -/
def Conversions.ReadsDecimals (conv : Conversions) : Prop :=
  ∀ n : Nat, conv.textInt (itoa n).toList = some (n : Int)

/-- The items of the workload of a page. -/
def pageItems (c : Client) : List (Σ _ : Int, QueryInfo) :=
  c.getWorkload.map fun x => ⟨x.1, ⌊x.2.qps⌋, x.2.query⟩

/-- Each id of the workload belongs to one widget. -/
theorem nodup_ids (c : Client) : (c.getWorkload.map Prod.fst).Nodup := by
  have hsorted : (Client.allWidgets c.queryWidgetMap).Pairwise fun x y => x.1 < y.1 :=
    List.pairwise_map.mpr c.queryWidgetMap.sorted
  rw [List.Nodup, List.pairwise_map]
  exact (hsorted.sublist List.filter_sublist).imp fun h => h.ne

/-- So do the ids as texts. -/
theorem nodup_postedWorkload (c : Client) : (c.postedWorkload.map Prod.fst).Nodup := by
  rw [Client.postedWorkload, List.map_map]
  have hids := (nodup_ids c).map itoa_injective
  rwa [List.map_map] at hids

/-- A widget is read as it is shown. -/
theorem entry_postedOf (hconv : conv.ReadsDecimals) {c : Client} {x : Nat × WidgetInfo}
    (hx : x ∈ c.getWorkload) :
    (postedOf conv (itoa x.1, x.2.texts)).Converts ∧
      (postedOf conv (itoa x.1, x.2.texts)).entry = ⟨x.1, ⌊x.2.qps⌋, x.2.query⟩ := by
  -- a rate that is posted is not negative, so it is a numeral without a sign
  have hrate : ((⌊x.2.qps⌋.toNat : Nat) : Int) = ⌊x.2.qps⌋ :=
    Int.toNat_of_nonneg (Client.qps_nonneg_of_mem hx)
  have hqps : (postedOf conv (itoa x.1, x.2.texts)).parseQps = .ok ⌊x.2.qps⌋ := by
    rw [Posted.parseQps, postedOf, WidgetInfo.texts]
    dsimp only
    rw [hconv, hrate]
    rfl
  have hid : (postedOf conv (itoa x.1, x.2.texts)).queryId = .ok (x.1 : Int) := by
    rw [postedOf, hconv]
    rfl
  refine ⟨⟨⟨_, hqps⟩, _, hid⟩, ?_⟩
  rw [Posted.entry, hqps, hid]
  rfl

/-- The workload that a submission of the page leaves on the server, before anything else is
    looked at. -/
theorem filled_of_readFrom {σ : Type} {create : Json → Except PyError σ} {c : Client}
    {form : Form σ} (hconv : conv.ReadsDecimals) (hsettings : settings.Valid)
    (hform : form.ReadFrom conv create (playBody c.postedWorkload settings)) :
    form.settings = create settings ∧
      ∃ items, form.workload = some items ∧ (fill ∅ items).2 = none ∧
        (fill ∅ items).1.entries.Perm (pageItems c) := by
  obtain ⟨hworkload, hposted⟩ := hform
  rw [(loadValue_playBody hsettings).2] at hposted
  rw [loadWorkload_playBody (nodup_postedWorkload c) hsettings] at hworkload
  obtain ⟨items, horder, hitems⟩ := hworkload
  -- the items of the form are those of the widgets, in some order
  have hentries : (c.postedWorkload.map (postedOf conv)).map Posted.entry = pageItems c := by
    rw [Client.postedWorkload, List.map_map, List.map_map]
    exact List.map_congr_left fun x hx => (entry_postedOf hconv hx).2
  have hconverts : ∀ p ∈ items, p.Converts := by
    intro p hp
    obtain ⟨y, hy, rfl⟩ := List.mem_map.mp (horder.mem_iff.mp hp)
    obtain ⟨x, hx, rfl⟩ := List.mem_map.mp hy
    exact (entry_postedOf hconv hx).1
  have hperm : (items.map Posted.entry).Perm (pageItems c) := hentries ▸ horder.map Posted.entry
  -- the ids differ, as texts, as numbers and as keys of the map
  have hnodup : (items.map fun p => p.entry.1).Nodup := by
    have hids : ((pageItems c).map Sigma.fst).Nodup := by
      have hcast := (nodup_ids c).map (Nat.cast_injective (R := Int))
      rw [List.map_map] at hcast
      rw [pageItems, List.map_map]
      exact hcast
    have hmap := (hperm.map Sigma.fst).nodup_iff.mpr hids
    rwa [List.map_map] at hmap
  obtain ⟨hnone, hfilled⟩ := fill_of_converts (g := ∅) hconverts hnodup (by simp)
  refine ⟨hposted, items, hitems, hnone, hfilled.trans ?_⟩
  rw [AList.empty_entries, List.append_nil]
  exact hperm

variable {σ : Type} [DecidableEq σ] {create : Json → Except PyError σ}

/-- A submission puts its workload in place, however it ends. -/
theorem gWorkload_submitWorkload (s : Server σ) (form : Form σ) (env : Env) :
    (s.submitWorkload form env).1.gWorkload = some (Server.filled form) := by
  have h := Server.submits s form env
  generalize (s.submitWorkload form env).1 = t at h
  cases h <;> rfl

/-- A request to `/workload`. -/
def isWorkload : Server.Request σ → Bool
  | .workload _ _ => true
  | _ => false

/-- No other request changes the workload. -/
theorem gWorkload_handle (s : Server σ) {r : Server.Request σ} (hr : isWorkload r = false) :
    (s.handle r).1.gWorkload = s.gWorkload := by
  -- none of them assigns `g_workload`: each branch of the handler is read off
  cases r with
  | workload form env => cases hr
  | pause env =>
    show (s.pause env).1.gWorkload = s.gWorkload
    unfold Server.pause
    repeat' split
    all_goals rfl
  | stats env =>
    show (s.getStats env).1.gWorkload = s.gWorkload
    unfold Server.getStats
    dsimp only
    repeat' split
    all_goals rfl
  | status env =>
    show (s.getStatus env).1.gWorkload = s.gWorkload
    unfold Server.getStatus
    repeat' split
    all_goals rfl

/-- The workload stays in place until the next submission. -/
theorem gWorkload_of_run {s t : Server σ} {rs : List (Server.Request σ)}
    (hrs : ∀ r ∈ rs, isWorkload r = false) (h : Machine.run Server.step s rs = some t) :
    t.gWorkload = s.gWorkload := by
  induction rs generalizing s with
  | nil =>
    cases h
    rfl
  | cons r rs ih =>
    rw [List.forall_mem_cons] at hrs
    rw [ih hrs.2 h, gWorkload_handle s hrs.1]

omit [DecidableEq σ] in
/-- The keys of the rates are those of the workload. -/
theorem keys_of_stats {s : Server σ} {env : Env} {ret : List (Int × ℚ)} {g : QueryMap}
    (hg : s.gWorkload = some g) (h : (s.getStats env).2 = .stats ret) :
    ret.map Prod.fst = g.keys := by
  -- each rate is put under the key of its query
  have hkeys : ∀ {l : List (Σ _ : Int, QueryInfo)} {ret : List (Int × ℚ)},
      l.mapM (fun x => (env.qpsArray x.1).map fun v => (x.1, max 0 v)) = some ret →
      ret.map Prod.fst = l.map Sigma.fst := fun hl =>
    List.map_of_mapM_eq_some hl fun x y hxy => by
      obtain ⟨v, -, rfl⟩ := Option.map_eq_some_iff.mp hxy
      rfl
  unfold Server.getStats at h
  split at h
  · cases h
  · rename_i pool hpool
    -- the check of the pool does not touch the workload
    have hchecked : (if s.statCheckCount % Server.fullCheckPeriod = 0 then
        { s with gWorkers := some (pool.isAlive env.aliveChecked) } else s).gWorkload = some g := by
      split <;> exact hg
    dsimp only at h
    generalize (if s.statCheckCount % Server.fullCheckPeriod = 0 then
      { s with gWorkers := some (pool.isAlive env.aliveChecked) } else s) = u at h hchecked
    split at h
    · cases h
    · rw [hchecked] at h
      dsimp only at h
      split at h
      · rename_i ret' hret
        cases h
        exact hkeys hret
      · cases h

/-- From a play on, the server has the settings and the workload of the page, in whatever order
    its dictionaries are, until the next play; and the rates of `/stats` are those of the
    widgets with a text. -/
theorem play_reaches_server {c : Client} {form : Form σ} {env : Env} {s t : Server σ}
    {rs : List (Server.Request σ)} (hconv : conv.ReadsDecimals) (hsettings : settings.Valid)
    (hform : form.ReadFrom conv create (playBody c.postedWorkload settings))
    (hrs : ∀ r ∈ rs, isWorkload r = false)
    (hrun : Machine.run Server.step (s.submitWorkload form env).1 rs = some t) :
    form.settings = create settings ∧
      (∃ g, t.gWorkload = some g ∧ g.entries.Perm (pageItems c)) ∧
      ∀ env' ret, (t.getStats env').2 = .stats ret →
        (ret.map Prod.fst).Perm (c.getWorkload.map fun x => (x.1 : Int)) := by
  -- the map of the submission is still there, and it has the items of the page
  obtain ⟨hposted, items, hitems, -, hperm⟩ := filled_of_readFrom hconv hsettings hform
  have hfilled : Server.filled form = (fill ∅ items).1 := by rw [Server.filled, hitems]
  have hg : t.gWorkload = some (fill ∅ items).1 := by
    rw [gWorkload_of_run hrs hrun, gWorkload_submitWorkload, hfilled]
  refine ⟨hposted, ⟨_, hg, hperm⟩, fun env' ret hret => ?_⟩
  rw [keys_of_stats hg hret]
  have hids := hperm.map Sigma.fst
  rwa [pageItems, List.map_map] at hids

/-- Every body is read as a request. -/
theorem exists_readFrom {τ : Type} (conv : Conversions) (create : Json → Except PyError τ)
    (body : List Char) : ∃ form : Form τ, form.ReadFrom conv create body := by
  refine ⟨⟨loadWorkload conv body, _⟩, ?_, rfl⟩
  cases loadWorkload conv body with
  | none => rfl
  | some items => exact ⟨items, .refl _, rfl⟩

/-- Conversions that read whole numbers and nothing else. -/
def decimals : Conversions where
  textInt := Int.ofNumeral?
  textFloat _ := .error .valueError
  numInt lit := (Int.ofNumeral? lit).elim (.error .other) .ok
  literal lit := lit

/-- The numerals of Python are read by these conversions. -/
theorem readsDecimals_decimals : decimals.ReadsDecimals := by
  intro n
  have hnumeral : (itoa n).toList = Int.numeral n := by
    rw [itoa, Nat.toList_repr, Int.numeral, if_neg (by omega), Int.natAbs_natCast]
  rw [hnumeral]
  exact Int.ofNumeral?_numeral n

/-- Settings that are made of the texts of an object. -/
def textSettings : Json → Except PyError (List (String × String))
  | .obj members => .ok (members.filterMap fun m => (text? m.2).map fun s => (.ofList m.1, s))
  | _ => .error .other

/-- The settings of a form with two inputs. -/
def formSettings : List (List Char × Json) :=
  settingsJson (inputsJson [("memsql_pass", "p&q=\"é\""), ("workers", "4")]) 10000

/-- A query with quotes, a sign, and a letter that is none of ASCII, and a password of that
    kind. -/
theorem quoted_query_reaches_server :
    ∃ (c : Client) (form : Form (List (String × String))) (t : Server (List (String × String)))
        (g : QueryMap), c.getWorkload = [(0, ⟨"select \"é\" + 1", 7⟩)] ∧
      form.ReadFrom decimals textSettings (playBody c.postedWorkload (.obj formSettings)) ∧
      form.settings = .ok [("memsql_pass", "p&q=\"é\""), ("workers", "4")] ∧
      Machine.run Server.step ((Server.init []).submitWorkload form Server.calmEnv).1
        [.status Server.calmEnv] = some t ∧
      t.gWorkload = some g ∧ g.entries = [⟨0, 7, "select \"é\" + 1"⟩] := by
  -- the page is computed, and what it posts is a body that the server can read
  obtain ⟨c, -, hc⟩ := Machine.exists_run_of_map (Client.step .stress) (.init 10000 none)
    [.editQuery 0 "select \"é\" + 1", .setDial 0 7]
    (fun c => c.getWorkload == [(0, ⟨"select \"é\" + 1", 7⟩)]) (by decide +kernel)
  rw [beq_iff_eq] at hc
  obtain ⟨form, hform⟩ := exists_readFrom decimals textSettings
    (playBody c.postedWorkload (.obj formSettings))
  have hrun : Machine.run Server.step ((Server.init []).submitWorkload form Server.calmEnv).1
      [.status Server.calmEnv] = some _ := rfl
  have hvalid : (Json.obj formSettings).Valid :=
    valid_of_whole (whole_settingsJson (whole_inputsJson _) 10000)
  obtain ⟨hsettings, ⟨g, hg, hperm⟩, -⟩ := play_reaches_server readsDecimals_decimals hvalid hform
    (by simp [isWorkload]) hrun
  -- the rate 7 is whole
  have hitems : pageItems c = [⟨0, 7, "select \"é\" + 1"⟩] := by
    rw [pageItems, hc]
    norm_num
  rw [hitems] at hperm
  exact ⟨c, form, _, g, hc, hform, hsettings.trans rfl, hrun, hg, List.perm_singleton.mp hperm⟩

end Stress

/-! ## The app -/

section unmarshal

variable {workload : List (String × QueryWidget)} {settings : Json}

end unmarshal

/-- The values under the name of a field, in small or capital letters, one after the other. -/
def fieldValues (name : String) (members : List (List Char × Json)) : List Json :=
  (members.filter fun m => isField name m.1).map Prod.snd

/-- The last one that is a text. -/
def lastText (values : List Json) : String := ((values.filterMap text?).getLast?).getD ""

/-- A value of Go stands for one of JSON: a `float64` for the literal that it is nearest to, and
    `nil` for a literal that is too large. Of an object, the last member with a key counts. -/
inductive GoValue.StandsFor : GoValue → Json → Prop where
  | nil : StandsFor .nil .null
  | bool (b : Bool) : StandsFor (.bool b) (.bool b)
  | float64 {lit : List Char} (h : (Json.toFloat lit).isInf = false) :
    StandsFor (.float64 (Json.toFloat lit)) (.num lit)
  | tooLarge {lit : List Char} (h : (Json.toFloat lit).isInf = true) : StandsFor .nil (.num lit)
  | string (s : List Char) : StandsFor (.string (.ofList s)) (.str s)
  | slice {values : List GoValue} {items : List Json} (h : List.Forall₂ StandsFor values items) :
    StandsFor (.slice values) (.arr items)
  | map {entries : List (String × GoValue)} {members : List (List Char × Json)}
    (hkeys : entries.map Prod.fst = (Json.items members).map fun m => .ofList m.1)
    (hvalues : List.Forall₂ StandsFor (entries.map Prod.snd) ((Json.items members).map Prod.snd)) :
    StandsFor (.map entries) (.obj members)

/-- The worker has the settings that an object gives. -/
structure Workload.HasSettings (wl : Workload) (members : List (List Char × Json)) : Prop where
  opsHost : wl.opsHost = lastText (fieldValues "ops_host" members)
  apiKey : wl.apiKey = lastText (fieldValues "ops_apikey" members)
  user : wl.user = lastText (fieldValues "ops_user" members)

section reading

variable {members : List (List Char × Json)}

/-- The items of an array are read one by one. -/
theorem readItems_eq (items : List Json) : readItems items = items.map readValue := by
  induction items with
  | nil => rfl
  | cons v items ih => rw [readItems, ih, List.map_cons]

/-- The members of an object are read one by one, under their keys. -/
theorem readMembers_eq (members : List (List Char × Json)) :
    readMembers members = members.map fun m => (m.1, readValue m.2) := by
  induction members with
  | nil => rfl
  | cons m members ih => rw [readMembers, ih, List.map_cons, readMember]

mutual

/-- `json.Unmarshal` makes a value that stands for what it reads. -/
theorem standsFor_readValue (v : Json) : (readValue v).val.StandsFor v := by
  cases v with
  | null => exact .nil
  | bool b => exact .bool b
  | num lit =>
    by_cases h : (Json.toFloat lit).isInf = true
    · rw [readValue, parseFloat, if_pos h]
      exact .tooLarge h
    · rw [readValue, parseFloat, if_neg h]
      exact .float64 (by simpa using h)
  | str s => exact .string s
  | arr items =>
    refine .slice ?_
    rw [readItems_eq, List.map_map]
    exact List.forall₂_map_left_iff.mpr (List.forall₂_same.mpr (standsFor_readItems items))
  | obj members =>
    have hitems : Json.items (readMembers members) =
        (Json.items members).map fun m => (m.1, readValue m.2) := by
      rw [readMembers_eq, Json.items_map]
    refine .map ?_ ?_
    · rw [hitems, List.map_map, List.map_map]
      rfl
    · rw [hitems, List.map_map, List.map_map]
      refine List.forall₂_map_left_iff.mpr (List.forall₂_map_right_iff.mpr ?_)
      exact List.forall₂_same.mpr fun m hm =>
        standsFor_readMembers members m (Json.mem_of_mem_items hm)

/-- Each item is read as a value that stands for it. -/
theorem standsFor_readItems (items : List Json) : ∀ v ∈ items, (readValue v).val.StandsFor v := by
  cases items with
  | nil => simp
  | cons v items =>
    exact List.forall_mem_cons.mpr ⟨standsFor_readValue v, standsFor_readItems items⟩

/-- Each member is read as a value that stands for it. -/
theorem standsFor_readMembers (members : List (List Char × Json)) :
    ∀ m ∈ members, (readValue m.2).val.StandsFor m.2 := by
  cases members with
  | nil => simp
  | cons m members =>
    obtain ⟨key, v⟩ := m
    exact List.forall_mem_cons.mpr ⟨standsFor_readValue v, standsFor_readMembers members⟩

end

end reading

/-! ## The workers -/

/-- The handler works on this map with these settings, or has ended. -/
def Handler.Keeps (settings : Settings) (wrk : GoMap ModelInput) : Handler → Prop
  | .parsed st w _ | .opened st w _ _ | .launching st w _ _ _ _ => st = settings ∧ w = wrk
  | .done _ | .panicked _ => True
  | _ => False

namespace App

variable {dir : String} {s s' t : App} {settings : Settings} {wrk : GoMap ModelInput} {h : Nat}

end App

end WorkloadSimulator
