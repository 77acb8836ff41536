import WorkloadSimulator.Spec.PlayRequest
import WorkloadSimulator.Spec.SaveLoad

/-!
# The text of a saved session

The page asks `/save` for a file with its settings and its workload in the query of a URL.
Python reads both and writes them again, with all keys in an order of its own and in ASCII;
the page reads the file when it is uploaded.

## Key results

- `readSessionFile_of_save`: the page reads the widgets that it had, and the maximum that stood
  in `g_settings`, from a saved file
- `upload_of_save`: what an upload of a saved file leaves on the page

The maximum of `g_settings` need not be that of the dials: the buttons at the dial change only
the latter.
-/

namespace WorkloadSimulator

open Stress

/-! ## Values that are read and written again -/

/-- Python writes the literal of a whole number as it has been read. -/
def Stress.Conversions.KeepsInts (conv : Conversions) : Prop :=
  ∀ n lit, Json.ofInt n = .num lit → conv.literal lit = lit

variable {conv : Conversions} {v v' : Json}

/-- A text is written as it was read. -/
theorem rewritten_str {s : List Char} (h : Rewritten conv (.str s) v') : v' = .str s := by
  cases h
  rfl

/-- So is a whole number. -/
theorem rewritten_ofInt (hconv : conv.KeepsInts) {n : Int} (h : Rewritten conv (.ofInt n) v') :
    v' = .ofInt n := by
  unfold Json.ofInt at h ⊢
  cases h with
  | num lit => rw [hconv n _ rfl]

/-- A member that is written has been read under the same key. -/
theorem mem_of_rewritten {members : List (List Char × Json)}
    (h : Rewritten conv (.obj members) v') :
    ∃ members', v' = .obj members' ∧
      (members'.map Prod.fst).Perm ((Json.items members).map Prod.fst) ∧
      ∀ m ∈ members', ∃ w, (m.1, w) ∈ Json.items members ∧ Rewritten conv w m.2 := by
  cases h with
  | @obj _ order members' horder hkeys hvalues =>
    refine ⟨members', rfl, hkeys ▸ horder.map Prod.fst, ?_⟩
    intro m hm
    -- the member and its value stand at the same place
    obtain ⟨i, hi, rfl⟩ := List.mem_iff_getElem.mp hm
    have hlen : order.length = members'.length := by simpa using congrArg List.length hkeys
    have hi' : i < order.length := by omega
    refine ⟨order[i].2, horder.mem_iff.mp ?_, ?_⟩
    · have hkey : order[i].1 = members'[i].1 := by
        have hget := congrArg (fun l => l[i]?) hkeys
        simpa [hi, hi'] using hget
      rw [← hkey]
      exact List.getElem_mem hi'
    · have hget := List.forall₂_iff_get.mp hvalues |>.2 i (by simpa using hi') (by simpa using hi)
      simpa using hget

/-- A value that can be written is a value of JSON. -/
theorem valid_of_rewritten (hconv : conv.KeepsInts) (hv : Whole v) (h : Rewritten conv v v') :
    v'.Valid := by
  -- induction on the value that was read; numbers and texts are the ones that were read
  induction hv generalizing v' with
  | null =>
    cases h
    exact .null
  | bool b =>
    cases h
    exact .bool b
  | int n =>
    rw [rewritten_ofInt hconv h]
    exact Json.valid_ofInt n
  | str s =>
    rw [rewritten_str h]
    exact .str s
  | @arr items _ ih =>
    cases h with
    | @arr _ items' hitems =>
      refine .arr fun w hw => ?_
      obtain ⟨i, hi, rfl⟩ := List.mem_iff_getElem.mp hw
      have hi' : i < items.length := by rwa [hitems.length_eq]
      exact ih _ (List.getElem_mem hi') (List.forall₂_iff_get.mp hitems |>.2 i hi' hi)
  | obj _ ih =>
    obtain ⟨members', rfl, -, hmembers⟩ := mem_of_rewritten h
    refine .obj fun m hm => ?_
    obtain ⟨w, hw, hrewritten⟩ := hmembers m hm
    exact ih _ (Json.mem_of_mem_items hw) hrewritten

/-- Values that can be written one by one can be written. -/
theorem exists_items {items : List Json} (h : ∀ v ∈ items, ∃ w, Rewritten conv v w) :
    ∃ items', List.Forall₂ (Rewritten conv) items items' := by
  -- one value after the other
  induction items with
  | nil => exact ⟨[], .nil⟩
  | cons v items ih =>
    rw [List.forall_mem_cons] at h
    obtain ⟨⟨w, hw⟩, h⟩ := h
    obtain ⟨items', hitems'⟩ := ih h
    exact ⟨w :: items', .cons hw hitems'⟩

/-- Members that can be written one by one can be written. -/
theorem exists_members {members : List (List Char × Json)}
    (h : ∀ m ∈ members, ∃ w, Rewritten conv m.2 w) :
    ∃ members' : List (List Char × Json), members.map Prod.fst = members'.map Prod.fst ∧
      List.Forall₂ (Rewritten conv) (members.map Prod.snd) (members'.map Prod.snd) := by
  -- one member after the other, with the keys as they are
  induction members with
  | nil => exact ⟨[], rfl, .nil⟩
  | cons m members ih =>
    rw [List.forall_mem_cons] at h
    obtain ⟨⟨w, hw⟩, h⟩ := h
    obtain ⟨members', hkeys, hvalues⟩ := ih h
    exact ⟨(m.1, w) :: members', by simp [hkeys], .cons hw hvalues⟩

/-- Every value that has been read can be written. -/
theorem exists_rewritten (conv : Conversions) {v : Json} (hv : Whole v) :
    ∃ v', Rewritten conv v v' := by
  induction hv with
  | null => exact ⟨_, .null⟩
  | bool b => exact ⟨_, .bool b⟩
  | int n => exact ⟨_, .num n.numeral⟩
  | str s => exact ⟨_, .str s⟩
  | arr _ ih =>
    obtain ⟨items', hitems'⟩ := exists_items ih
    exact ⟨_, .arr hitems'⟩
  | obj _ ih =>
    -- the members that count, in the order in which they stand
    obtain ⟨members', hkeys, hvalues⟩ := exists_members fun m hm =>
      ih m (Json.mem_of_mem_items hm)
    exact ⟨_, .obj (.refl _) hkeys hvalues⟩

/-- What is read under a key has been written under it. -/
theorem get?_of_rewritten {members members' : List (List Char × Json)}
    (h : Rewritten conv (.obj members) (.obj members')) (hnodup : (members.map Prod.fst).Nodup)
    {key : List Char} (hmem : (key, v) ∈ members) :
    (members'.map Prod.fst).Nodup ∧ ∃ w, Json.get? members' key = some w ∧ Rewritten conv v w := by
  obtain ⟨_, heq, hkeys, hmembers⟩ := mem_of_rewritten h
  cases heq
  rw [Json.items_of_nodup hnodup] at hkeys hmembers
  have hnodup' := hkeys.nodup_iff.mpr hnodup
  obtain ⟨m, hm, rfl⟩ := List.mem_map.mp (hkeys.mem_iff.mpr (List.mem_map_of_mem hmem))
  obtain ⟨w, hw, hrewritten⟩ := hmembers m hm
  -- the key has one value
  have heq := ((Json.get?_eq_some_iff hnodup).mpr hw).symm.trans
    ((Json.get?_eq_some_iff hnodup).mpr hmem)
  obtain rfl := Option.some.inj heq
  exact ⟨hnodup', m.2, (Json.get?_eq_some_iff hnodup').mpr hm, hrewritten⟩

/-! ## The workload -/

/-- The numeral of a rate is read as the rate. -/
theorem readRate_itoa (n : Nat) : readRate (.str (itoa n).toList) = some (n : ℚ) := by
  have hdigits : (itoa n).toList = Nat.toDigits 10 n := Nat.toList_repr
  rw [readRate, hdigits, Nat.ofNumeral?_toDigits, Option.map_some]

/-- The page reads the entry of a widget as the widget had it. -/
theorem readEntry_of_rewritten {c : Client} {x : Nat × WidgetInfo} (hx : x ∈ c.getWorkload)
    (h : Rewritten conv (entryJson (itoa x.1, x.2.texts)).2 v') (key : String) :
    readEntry (key.toList, v') = some ⟨key, x.2⟩ := by
  have hnodup : (["query".toList, "qps".toList] : List (List Char)).Nodup := by decide
  obtain ⟨members', rfl, -⟩ := mem_of_rewritten h
  -- the members `query` and `qps` are found, and their texts are those of the widget
  obtain ⟨-, w, hw, hquery⟩ := get?_of_rewritten h hnodup List.mem_cons_self
  obtain ⟨-, r, hr, hrate⟩ := get?_of_rewritten h hnodup
    (List.mem_cons_of_mem _ List.mem_cons_self)
  rw [rewritten_str hquery] at hw
  rw [rewritten_str hrate] at hr
  -- a rate of the page is whole, so nothing is lost when it is written as a numeral
  have hqps : ((⌊x.2.qps⌋.toNat : Nat) : ℚ) = x.2.qps := by
    obtain ⟨⟨id, w⟩, -, rfl⟩ := List.mem_map.mp (List.mem_of_mem_filter hx)
    rw [Widget.info_qps, Int.floor_natCast, Int.toNat_natCast]
  rw [readEntry]
  dsimp only
  rw [hw]
  dsimp only
  rw [hr, Option.bind_some, WidgetInfo.texts, readRate_itoa, hqps]
  simp

/-- The page reads the workload that it has sent, in some order. -/
theorem readObject_of_rewritten {c : Client} {members : List (List Char × Json)}
    (h : Rewritten conv (workloadJson c.postedWorkload) (.obj members)) :
    ∃ o, readObject members = some o ∧ o.entries.Perm (toObject c.getWorkload) := by
  have hposted := nodup_postedWorkload c
  have hids : ((toObject c.getWorkload).map Sigma.fst).Nodup := by
    rw [toObject, List.map_map]
    rwa [Client.postedWorkload, List.map_map] at hposted
  obtain ⟨_, heq, hkeys, hmembers⟩ := mem_of_rewritten h
  cases heq
  rw [items_entryJson hposted] at hkeys hmembers
  have hkeys' : (c.postedWorkload.map entryJson).map Prod.fst =
      ((toObject c.getWorkload).map Sigma.fst).map String.toList := by
    simp only [Client.postedWorkload, toObject, List.map_map]
    rfl
  rw [hkeys'] at hkeys
  have hnodup : (members.map Prod.fst).Nodup :=
    hkeys.nodup_iff.mpr (hids.map fun _ _ heq => String.toList_inj.mp heq)
  -- each member is the entry of a widget
  have hread : ∀ m ∈ members, ∃ e ∈ toObject c.getWorkload,
      m.1 = e.1.toList ∧ readEntry m = some e := by
    intro m hm
    obtain ⟨w, hw, hrewritten⟩ := hmembers m hm
    obtain ⟨y, hy, heq⟩ := List.mem_map.mp hw
    obtain ⟨x, hx, rfl⟩ := List.mem_map.mp hy
    obtain ⟨hkey, rfl⟩ := Prod.mk.inj heq
    refine ⟨⟨itoa x.1, x.2⟩, List.mem_map_of_mem (f := fun x => (⟨itoa x.1, x.2⟩ :
      Σ _ : String, WidgetInfo)) hx, hkey.symm, ?_⟩
    rw [← readEntry_of_rewritten hx hrewritten (itoa x.1), hkey]
  -- so the entries are read without an error, and none is missing
  rw [List.map_map] at hkeys
  obtain ⟨es, hes, hperm⟩ := List.exists_mapM_perm hkeys
    (by rw [← List.map_map]; exact hids.map fun _ _ heq => String.toList_inj.mp heq) hread
  have hes' : es.NodupKeys := (hperm.map Sigma.fst).nodup_iff.mpr hids
  refine ⟨es.toAList, ?_, ?_⟩
  · rw [readObject, Json.items_of_nodup hnodup, hes]
    rfl
  · rwa [AList.entries_toAList, List.dedupKeys_of_nodupKeys hes']

/-! ## The file -/

/-- The page sends the two objects. -/
theorem saveQuery_eq (workload : List (String × QueryWidget)) (settings : Json) :
    saveQuery workload settings = FormUrl.joinFields false
      [("settings".toList, stringify settings),
        ("workload".toList, stringify (workloadJson workload))] := by
  -- the names of the fields are written as they are
  have hsettings : "settings=".toList = FormUrl.component false "settings".toList ++ ['='] := by
    decide +kernel
  have hworkload : "&workload=".toList =
      '&' :: (FormUrl.component false "workload".toList ++ ['=']) := by decide +kernel
  unfold saveQuery
  generalize stringify settings = s
  generalize stringify (workloadJson workload) = w
  rw [hsettings, hworkload]
  generalize "settings".toList = key
  generalize "workload".toList = key'
  rw [FormUrl.joinFields, FormUrl.encodeURIComponent_eq, FormUrl.encodeURIComponent_eq,
    List.map_cons, List.map_cons, List.map_nil, List.intercalate_cons_cons,
    List.intercalate_singleton, FormUrl.joinField, FormUrl.joinField]
  simp only [List.append_assoc, List.cons_append, List.nil_append]

/-- The server finds both objects under their names. -/
theorem loadValue_saveQuery (workload : List (String × QueryWidget)) {settings : Json}
    (hsettings : settings.Valid) :
    loadValue (saveQuery workload settings) "settings" = some settings ∧
      loadValue (saveQuery workload settings) "workload" = some (workloadJson workload) := by
  have hlookup : ∀ a b : List Char,
      [("settings".toList, a), ("workload".toList, b)].lookup "settings".toList = some a ∧
        [("settings".toList, a), ("workload".toList, b)].lookup "workload".toList = some b :=
    fun _ _ => ⟨rfl, rfl⟩
  simp only [loadValue, requestValue, saveQuery_eq, FormUrl.decodeForm_joinFields,
    Option.bind_some, hlookup, decode_stringify hsettings,
    decode_stringify (valid_workloadJson workload), and_self]

/-- A workload of a page has texts only. -/
theorem whole_workloadJson (workload : List (String × QueryWidget)) :
    Whole (workloadJson workload) := by
  refine .obj fun m hm => ?_
  obtain ⟨x, -, rfl⟩ := List.mem_map.mp hm
  refine .obj fun m hm => ?_
  simp only [List.mem_cons, List.not_mem_nil, or_false] at hm
  rcases hm with rfl | rfl <;> exact .str _

/-- An object can be `g_settings` of the page: it has each key once and only whole numbers, and
    its maximum is the one that was set last. -/
structure StressPage.HasSettings (p : StressPage) (settings : List (List Char × Json)) : Prop where
  whole : Whole (.obj settings)
  nodup : (settings.map Prod.fst).Nodup
  dialMax : ("dial_max_value".toList, .ofInt p.settingsDialMax) ∈ settings

/-- So it is whatever values stood there before the maximum was set. -/
theorem hasSettings_settingsJson (p : StressPage) {values : List (List Char × Json)}
    (hvalues : ∀ m ∈ values, Whole m.2) :
    p.HasSettings (settingsJson values p.settingsDialMax) :=
  ⟨whole_settingsJson hvalues _, List.pairwise_map.mpr (Json.pairwise_items _),
    Json.mem_items_concat _ _⟩

/-- `dial_max_value` in the settings of a file. -/
def dialMaxOf (settings : List (List Char × Json)) : Option Int :=
  (Json.get? settings "dial_max_value".toList).bind Json.int?

/-- The file that is saved has the maximum of the settings and the workload of the page. -/
theorem readSessionFile_of_save (hconv : conv.KeepsInts) {p : StressPage}
    {settings : List (List Char × Json)} {contents : List Char} (hp : p.HasSettings settings)
    (h : SaveContents conv (saveQuery p.client.postedWorkload (.obj settings)) contents) :
    ∃ settings' workload o, readSessionFile contents = some (settings', workload) ∧
      dialMaxOf settings' = some p.save.dialMaxValue ∧ readObject workload = some o ∧
      o.entries.Perm p.save.workload := by
  obtain ⟨hwhole, hnodup, hmax⟩ := hp
  obtain ⟨hsettings, hworkload, hsettings', hworkload', hmembers⟩ := h
  -- what is written has been read from the request, and that is what the page has sent
  rw [(loadValue_saveQuery _ (valid_of_whole hwhole)).1] at hsettings
  rw [(loadValue_saveQuery _ (valid_of_whole hwhole)).2] at hworkload
  obtain rfl := Option.some.inj hsettings
  obtain rfl := Option.some.inj hworkload
  have hvalid := valid_of_rewritten hconv hwhole hsettings'
  have hvalid' := valid_of_rewritten hconv (whole_workloadJson _) hworkload'
  obtain ⟨settings', rfl, -⟩ := mem_of_rewritten hsettings'
  obtain ⟨workload, rfl, -⟩ := mem_of_rewritten hworkload'
  obtain ⟨o, ho, hperm⟩ := readObject_of_rewritten hworkload'
  -- the maximum of the dials is written as it was read
  obtain ⟨-, w, hw, hdial⟩ := get?_of_rewritten hsettings' hnodup hmax
  rw [rewritten_ofInt hconv hdial] at hw
  have hkeys : (["settings".toList, "workload".toList] : List (List Char)).Nodup := by decide
  have hkeys' := (hmembers.map Prod.fst).nodup_iff.mpr hkeys
  refine ⟨settings', workload, o, ?_, ?_, ho, hperm⟩
  -- the file has the two members, in whatever order
  · have hsettings := (Json.get?_eq_some_iff hkeys').mpr
      (hmembers.mem_iff.mpr List.mem_cons_self)
    have hworkload := (Json.get?_eq_some_iff hkeys').mpr
      (hmembers.mem_iff.mpr (List.mem_cons_of_mem _ List.mem_cons_self))
    -- the file is one of JSON, whose members are found by their keys
    have hdecode : Json.decode (Json.print Json.pyStyle (.obj _)) = some (.obj _) :=
      Json.decode_print Json.readable_pyStyle (.obj fun m hm => by
        rcases List.mem_cons.mp (hmembers.mem_iff.mp hm) with rfl | hm
        · exact hvalid
        · obtain rfl := List.mem_singleton.mp hm
          exact hvalid')
    rw [readSessionFile, hdecode]
    dsimp only
    rw [hsettings, hworkload]
  · rw [dialMaxOf, hw, Option.bind_some, Json.int?_ofInt]
    rfl

/-- There is a file for every page. -/
theorem exists_saveContents (conv : Conversions) (p : StressPage)
    {settings : List (List Char × Json)} (hwhole : Whole (.obj settings)) :
    ∃ contents,
      SaveContents conv (saveQuery p.client.postedWorkload (.obj settings)) contents := by
  -- both objects can be read, and then written
  have hload := loadValue_saveQuery p.client.postedWorkload (valid_of_whole hwhole)
  obtain ⟨settings', hsettings⟩ := exists_rewritten conv hwhole
  obtain ⟨workload, hworkload⟩ :=
    exists_rewritten conv (whole_workloadJson p.client.postedWorkload)
  exact ⟨_, .mk hload.1 hload.2 hsettings hworkload (.refl _)⟩

/-- What `/save` gives back for a page can be uploaded, whatever values `g_settings` has: the file
    has the workload of the page and the maximum that stands in `g_settings`. On any page, the
    upload leaves the texts and the rates of the widgets with a text, in their order, exactly
    when no line ends with a carriage return and no rate is above that maximum. -/
theorem upload_of_save (hconv : conv.KeepsInts) (p : StressPage)
    {settings : List (List Char × Json)} (hp : p.HasSettings settings) :
    (∃ contents,
      SaveContents conv (saveQuery p.client.postedWorkload (.obj settings)) contents) ∧
    ∀ contents, SaveContents conv (saveQuery p.client.postedWorkload (.obj settings)) contents →
      ∃ settings' members o workload, readSessionFile contents = some (settings', members) ∧
        dialMaxOf settings' = some p.settingsDialMax ∧ readObject members = some o ∧
        -- the keys of the file are the numbers of the widgets
        o.entries.Perm (toObject (workload.entries.map fun e => (e.1, e.2))) ∧
        ∀ q q' : StressPage, q.step (.client (.upload p.settingsDialMax workload)) = some q' →
          (Client.allWidgets q'.client.queryWidgetMap =
              (Numbered.ofList (p.client.getWorkload.map Prod.snd)).entries ↔
            ∀ x ∈ p.client.getWorkload, Client.Kept p.settingsDialMax x.2) := by
  refine ⟨exists_saveContents conv p hp.whole, fun contents hcontents => ?_⟩
  obtain ⟨settings', members, o, hread, hdial, ho, hperm⟩ :=
    readSessionFile_of_save hconv hp hcontents
  -- the workload of the page under numbers
  have hkeys : ((p.client.getWorkload.map fun x => (⟨x.1, x.2⟩ : Σ _ : Nat, WidgetInfo)).map
      Sigma.fst).Nodup := by
    rw [List.map_map]
    exact nodup_ids p.client
  have hentries : (p.client.getWorkload.map fun x => (⟨x.1, x.2⟩ : Σ _ : Nat, WidgetInfo)).map
      (fun e => (e.1, e.2)) = p.client.getWorkload := by
    rw [List.map_map]
    exact List.map_id _
  have hobject : o.entries.Perm (toObject ((⟨_, hkeys⟩ :
      AList fun _ : Nat => WidgetInfo).entries.map fun e => (e.1, e.2))) := by
    rw [hentries]
    exact hperm
  refine ⟨settings', members, o, ⟨_, hkeys⟩, hread, hdial, ho, hobject, fun q q' hq => ?_⟩
  -- an upload shows the widgets of the file with the maximum of the file
  obtain rfl := Option.some.inj hq
  have hsorted : p.client.getWorkload.Pairwise fun x y => x.1 < y.1 :=
    Client.sorted_savedEntries (fun entry => entry.query != "") p.client.queryWidgetMap
  show Client.allWidgets (q.client.handleUpload p.settingsDialMax _).queryWidgetMap = _ ↔ _
  rw [Client.handleUpload_queryWidgetMap hobject, Client.loadObject_eq hsorted hperm,
    Client.allWidgets_ofList, Numbered.ofList_entries_inj, List.map_map, List.map_inj_left]
  -- widget by widget: what is loaded is what was saved when the rate is not cut
  refine forall₂_congr fun x hx => ?_
  have hsaved : x ∈ Client.savedEntries (fun entry => entry.query != "") p.client.queryWidgetMap :=
    hx
  obtain ⟨w, hw⟩ := Client.exists_info_of_mem hsaved
  show (Widget.load p.settingsDialMax x.2).info = x.2 ↔ Client.Kept p.settingsDialMax x.2
  rw [← hw]
  exact Client.load_info_iff p.settingsDialMax w

/-- These conversions leave whole numbers. -/
theorem keepsInts_decimals : decimals.KeepsInts := fun _ _ _ => rfl

/-- The settings that a page can be delivered with: a number, and a value that is not set. -/
def deliveredSettings : List (List Char × Json) :=
  [("memsql_host".toList, .str "127.0.0.1".toList), ("memsql_port".toList, .ofInt 3306),
    ("memsql_db".toList, .null), ("workers".toList, .ofInt 10)]

/-- The settings of the example are texts, whole numbers and null. -/
theorem whole_deliveredSettings : ∀ m ∈ deliveredSettings, Whole m.2 := by
  intro m hm
  simp only [deliveredSettings, List.mem_cons, List.not_mem_nil, or_false] at hm
  rcases hm with rfl | rfl | rfl | rfl
  exacts [.str _, .int _, .null, .int _]

/-- A text with quotes, a sign, and a letter that is none of ASCII comes back from a page with
    these settings, whose dials have another maximum by now. -/
theorem upload_of_quoted_query :
    ∃ (p q : StressPage) (contents : List Char) (settings members : List (List Char × Json))
        (o : SavedObject) (workload : AList fun _ : Nat => WidgetInfo),
      p.client.getWorkload = [(0, ⟨"select \"é\" + 1", 7⟩)] ∧ p.client.dialMaxValue = 15000 ∧
      SaveContents decimals (saveQuery p.client.postedWorkload
        (.obj (settingsJson deliveredSettings p.settingsDialMax))) contents ∧
      readSessionFile contents = some (settings, members) ∧ dialMaxOf settings = some 10000 ∧
      readObject members = some o ∧
      o.entries.Perm (toObject (workload.entries.map fun e => (e.1, e.2))) ∧
      (StressPage.init 5000 none).step (.client (.upload 10000 workload)) = some q ∧
      Client.allWidgets q.client.queryWidgetMap = [(0, ⟨"select \"é\" + 1", 7⟩)] := by
  obtain ⟨p, -, hp⟩ := Machine.exists_run_of_map StressPage.step (.init 10000 none)
    [.client (.editQuery 0 "select \"é\" + 1"), .client (.setDial 0 7), .client (.dialMax true)]
    (fun p => p.client.getWorkload == [(0, ⟨"select \"é\" + 1", 7⟩)] &&
      p.settingsDialMax == 10000 && p.client.dialMaxValue == 15000) (by decide +kernel)
  simp only [Bool.and_eq_true, beq_iff_eq] at hp
  obtain ⟨⟨hworkload, hmax⟩, hdials⟩ := hp
  obtain ⟨⟨contents, hcontents⟩, hall⟩ := upload_of_save keepsInts_decimals p
    (hasSettings_settingsJson p whole_deliveredSettings)
  obtain ⟨settings, members, o, workload, hread, hdial, ho, hobject, hiff⟩ := hall contents hcontents
  rw [hmax, hworkload] at hiff
  rw [hmax] at hdial
  have hkept : ∀ x ∈ [((0 : Nat), (⟨"select \"é\" + 1", 7⟩ : WidgetInfo))],
      Client.Kept 10000 x.2 := by
    intro x hx
    obtain rfl := List.mem_singleton.mp hx
    refine ⟨?_, by norm_num [dialMax]⟩
    show ¬ ['\r', '\n'] <:+: "select \"é\" + 1".toList
    decide +kernel
  exact ⟨p, _, contents, settings, members, o, workload, hworkload, hdials, hcontents, hread, hdial,
    ho, hobject, rfl, (hiff (.init 5000 none) _ rfl).mpr hkept⟩

end WorkloadSimulator
