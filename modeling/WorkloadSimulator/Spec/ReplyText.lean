import WorkloadSimulator.App.ReplyText
import WorkloadSimulator.Spec.LagGraph

/-!
# The maps of the monitor on the page

What the page reads of a reply to `/stats`, in any interleaving: the rates and the counts that
the monitor had when it made the report.

## Key results

- `unmarshalCounts_marshalCounts`: a map of `int`s is read as it was written
- `readReply_statsBody`: the page reads the two maps of a reply, with their numbers rounded
- `reply_of_report`: the reply to a report is no error, and the page reads what the monitor had
-/

namespace WorkloadSimulator

/-! ## Numbers -/

theorem digit?_of_isDigit {c : Char} (hc : c.isDigit = true) :
    digit? c = some (c.toNat - '0'.toNat) := by
  simp only [Char.isDigit, Bool.and_eq_true, decide_eq_true_eq] at hc
  exact if_pos hc

/-- A text of digits is read as the number that they write. -/
theorem digits?_of_isDigit {s : List Char} (hne : s ≠ []) (hs : ∀ c ∈ s, c.isDigit = true) :
    digits? s = some (Nat.ofDigitChars 10 s 0) := by
  -- the fold from any number on, by induction on the digits
  have hfold : ∀ (t : List Char) (n : Nat), (∀ c ∈ t, c.isDigit = true) →
      t.foldl (fun acc d => acc.bind fun n => (digit? d).map (10 * n + ·)) (some n) =
        some (Nat.ofDigitChars 10 t n) := by
    intro t
    induction t with
    | nil => simp
    | cons c t ih =>
      intro n ht
      rw [List.forall_mem_cons] at ht
      rw [List.foldl_cons, Option.bind_some, digit?_of_isDigit ht.1, Option.map_some, ih _ ht.2,
        Nat.ofDigitChars_cons]
  cases s with
  | nil => exact absurd rfl hne
  | cons c s =>
    rw [List.forall_mem_cons] at hs
    rw [digits?, digit?_of_isDigit hs.1, hfold s _ hs.2, Nat.ofDigitChars_cons]
    simp

/-- An `int` of 64 bits. -/
def IsInt (n : Int) : Prop := -2 ^ 63 ≤ n ∧ n < 2 ^ 63

instance (n : Int) : Decidable (IsInt n) := inferInstanceAs (Decidable (_ ∧ _))

/-- The numeral of an `int` is parsed. -/
theorem atoi_numeral {n : Int} (hn : IsInt n) : atoi (.ofList n.numeral) = some n := by
  have hdigits : digits? (Nat.toDigits 10 n.natAbs) = some n.natAbs := by
    rw [digits?_of_isDigit Nat.toDigits_ne_nil Nat.isDigit_toDigits, Nat.ofDigitChars_ten_toDigits]
  -- the first character is a digit, so it is no sign
  have hplus : ∀ s, Nat.toDigits 10 n.natAbs ≠ '+' :: s := by
    intro s h
    have hdigit := Nat.isDigit_toDigits (n := n.natAbs) '+' (by rw [h]; exact List.mem_cons_self)
    exact absurd hdigit (by decide)
  have hvalue : ∀ v, v = n →
      (some v).filter (fun v => decide (-2 ^ 63 ≤ v ∧ v < 2 ^ 63)) = some n := by
    rintro v rfl
    exact if_pos (decide_eq_true hn)
  unfold atoi
  rw [String.toList_ofList, Int.numeral]
  -- with a minus, which `parseInt` takes off, or without
  by_cases hneg : n < 0
  · have habs : -(n.natAbs : Int) = n := by omega
    rw [if_pos hneg]
    show Option.filter _ (Option.map _ ((digits? (Nat.toDigits 10 n.natAbs)).bind _)) = _
    rw [hdigits]
    exact hvalue _ habs
  · have habs : (n.natAbs : Int) = n := by omega
    rw [if_neg hneg]
    split
    · rename_i heq
      exact absurd heq Nat.toDigits_ne_minus
    · rename_i heq
      exact absurd heq (hplus _)
    · rw [hdigits]
      exact hvalue _ habs

/-- The literal of an `int` is read as the `int`. -/
theorem readInt_ofInt {n : Int} (hn : IsInt n) (old : Int) : readInt old (.ofInt n) = ⟨n, false⟩ := by
  unfold Json.ofInt
  simp only [readInt, atoi_numeral hn]

/-- A counter that fits is its `int`. -/
theorem asInt_of_lt {n : Nat} (hn : n < 2 ^ 63) : asInt n = n := by
  unfold asInt
  rw [Int.bmod_def]
  omega

/-- What Go keeps of a number in 64 bits is an `int`. -/
theorem isInt_asInt (n : Nat) : IsInt (asInt n) := by
  unfold IsInt asInt
  rw [Int.bmod_def]
  omega

/-- A number that is not too large is read on the page as it is. -/
theorem readCount_ofInt {n : Int} (hn : n.natAbs < 2 ^ 53) : readCount (.ofInt n) = some (n : ℚ) := by
  obtain ⟨hmax, hint⟩ := JsNumber.ofInt_of_lt hn
  rw [readCount, Json.int?_ofInt, Option.map_some, hint]

/-! ## Maps -/

section

variable {m : List (Σ _ : String, Json)}

/-- The members of a map that is written. -/
def marshalMembers (m : List (Σ _ : String, Json)) : List (List Char × Json) :=
  (m.mergeSort fun x y => x.1 ≤ y.1).map fun x => (x.1.toList, x.2)

/-- The members that are marshalled are the entries of the map, in the order of their keys. -/
theorem perm_marshalMembers (m : List (Σ _ : String, Json)) :
    (marshalMembers m).Perm (m.map fun x => (x.1.toList, x.2)) :=
  (List.mergeSort_perm m _).map _

/-- Their keys differ. -/
theorem nodup_marshalMembers (hm : m.NodupKeys) : ((marshalMembers m).map Prod.fst).Nodup := by
  have hkeys : ((m.map fun x => (x.1.toList, x.2)).map Prod.fst) = m.keys.map String.toList := by
    rw [List.map_map, List.keys, List.map_map]
    rfl
  rw [((perm_marshalMembers m).map Prod.fst).nodup_iff, hkeys]
  exact hm.map fun _ _ heq => String.toList_inj.mp heq

/-- A map of valid values is a valid value. -/
theorem valid_marshalMap (hm : ∀ x ∈ m, x.2.Valid) : (marshalMap m).Valid := by
  refine .obj fun y hy => ?_
  obtain ⟨x, hx, rfl⟩ := List.mem_map.mp hy
  exact hm x ((List.mergeSort_perm m _).mem_iff.mp hx)

/-- The value of a key is found. -/
theorem get?_marshalMembers (hm : m.NodupKeys) {key : String} {v : Json} (hmem : ⟨key, v⟩ ∈ m) :
    Json.get? (marshalMembers m) key.toList = some v := by
  rw [Json.get?_eq_some_iff (nodup_marshalMembers hm), (perm_marshalMembers m).mem_iff]
  exact List.mem_map_of_mem (f := fun x : Σ _ : String, Json => (x.1.toList, x.2)) hmem

/-- What is marshalled is decoded as its members. -/
theorem decode_marshalMap (hm : ∀ x ∈ m, x.2.Valid) :
    Json.decode ((marshalMap m).print Json.goStyle) = some (.obj (marshalMembers m)) :=
  Json.decode_print Json.readable_goStyle (valid_marshalMap hm)

end

/-! ## Counts -/

/-- Entries under new keys are added. -/
theorem entries_foldl_insert {β : Type} {l : List (Σ _ : String, β)} {acc : GoMap β}
    (hl : l.NodupKeys) (hacc : ∀ x ∈ l, x.1 ∉ acc) :
    (l.foldl (fun m x => m.insert x.1 x.2) acc).entries.Perm (l ++ acc.entries) := by
  -- induction on the entries: the first one is new, and the others are not under its key
  induction l generalizing acc with
  | nil => exact .refl _
  | cons x l ih =>
    obtain ⟨hx, hl⟩ := List.nodupKeys_cons.mp hl
    rw [List.forall_mem_cons] at hacc
    have hnew : ∀ y ∈ l, y.1 ∉ acc.insert x.1 x.2 := by
      intro y hy hmem
      rw [AList.mem_insert] at hmem
      rcases hmem with heq | hmem
      · exact hx (heq ▸ List.mem_keys_of_mem hy)
      · exact hacc.2 y hy hmem
    have hrest := ih hl hnew
    rw [AList.entries_insert_of_notMem hacc.1] at hrest
    exact hrest.trans List.perm_middle

section

variable {m : GoMap Int}

/-- The entries of a map as values. -/
def countValues (m : GoMap Int) : List (Σ _ : String, Json) :=
  m.entries.map fun x => ⟨x.1, .ofInt x.2⟩

/-- The entries of a map of numbers are under different keys. -/
theorem nodupKeys_countValues (m : GoMap Int) : (countValues m).NodupKeys := by
  rw [countValues, List.NodupKeys, List.keys, List.map_map]
  exact m.nodupKeys

/-- Numbers are valid values. -/
theorem valid_countValues (m : GoMap Int) : ∀ x ∈ countValues m, x.2.Valid := by
  intro x hx
  obtain ⟨y, -, rfl⟩ := List.mem_map.mp hx
  exact Json.valid_ofInt _

/-- The members that stand for the entries of a map. -/
theorem perm_countMembers (m : GoMap Int) : (marshalMembers (countValues m)).Perm
    (m.entries.map fun x => (x.1.toList, .ofInt x.2)) := by
  have hperm := perm_marshalMembers (countValues m)
  rwa [countValues, List.map_map] at hperm

/-- A map of `int`s is read as it was written. -/
theorem unmarshalCounts_marshalCounts (hm : ∀ x ∈ m.entries, IsInt x.2) :
    (unmarshalCounts ((marshalCounts m).print Json.goStyle)).err = false ∧
      (unmarshalCounts ((marshalCounts m).print Json.goStyle)).val.entries.Perm m.entries := by
  have hdecode : unmarshal ((marshalCounts m).print Json.goStyle) =
      ⟨marshalMembers (countValues m), false⟩ := by
    rw [unmarshal, marshalCounts, ← countValues, decode_marshalMap (valid_countValues m)]
  have hperm := perm_countMembers m
  rw [unmarshalCounts, hdecode]
  constructor
  -- no member is of another type, or out of range
  · rw [Bool.false_or, List.any_eq_false]
    intro y hy
    obtain ⟨x, hx, rfl⟩ := List.mem_map.mp (hperm.mem_iff.mp hy)
    simp [readInt_ofInt (hm x hx)]
  · -- the entries in the order of their keys
    have hentries : ((marshalMembers (countValues m)).map fun y =>
        (⟨.ofList y.1, (readInt 0 y.2).val⟩ : Σ _ : String, Int)).Perm m.entries := by
      refine (hperm.map _).trans ?_
      rw [List.map_map]
      refine .of_eq ((List.map_congr_left fun x hx => ?_).trans (List.map_id _))
      simp [readInt_ofInt (hm x hx)]
    have hnodup := (List.perm_nodupKeys hentries).mpr m.nodupKeys
    have hfold := @entries_foldl_insert Int _ ∅ hnodup fun x _ => AList.notMem_empty x.1
    rw [List.foldl_map, AList.empty_entries, List.append_nil] at hfold
    exact hfold.trans hentries

/-- The page reads them, as far as they are not too large. -/
theorem readCounts_marshalCounts (hm : ∀ x ∈ m.entries, x.2.natAbs < 2 ^ 53) :
    ∃ counts, readCounts (marshalCounts m) = some counts ∧
      counts.entries.Perm (m.entries.map fun x => ⟨x.1, (x.2 : ℚ)⟩) := by
  -- the entries that are read, by their keys; a number below 2 ^ 53 is read as itself
  have hperm := perm_countMembers m
  have hnodup : ((m.entries.map fun x => (⟨x.1, (x.2 : ℚ)⟩ : Σ _ : String, ℚ)).map
      Sigma.fst).Nodup := by
    rw [List.map_map]
    exact m.nodupKeys
  have hkeys : ((marshalMembers (countValues m)).map fun y => String.ofList y.1).Perm
      ((m.entries.map fun x => (⟨x.1, (x.2 : ℚ)⟩ : Σ _ : String, ℚ)).map Sigma.fst) := by
    refine (hperm.map _).trans (.of_eq ?_)
    simp
  obtain ⟨es, hes, hentries⟩ := List.exists_mapM_perm
    (f := fun y : List Char × Json => (readCount y.2).map fun n =>
      (⟨.ofList y.1, n⟩ : Σ _ : String, ℚ)) hkeys hnodup (by
      intro y hy
      obtain ⟨x, hx, rfl⟩ := List.mem_map.mp (hperm.mem_iff.mp hy)
      refine ⟨_, List.mem_map_of_mem hx, String.ofList_toList, ?_⟩
      simp [readCount_ofInt (hm x hx)])
  refine ⟨es.toAList, ?_, ?_⟩
  · rw [marshalCounts, ← countValues, marshalMap]
    show Option.map _ (List.mapM _ (Json.items (marshalMembers (countValues m)))) = _
    rw [Json.items_of_nodup (nodup_marshalMembers (nodupKeys_countValues m)), hes]
    rfl
  · rwa [AList.entries_toAList,
      List.dedupKeys_of_nodupKeys ((hentries.map Sigma.fst).nodup_iff.mpr hnodup)]

end

/-! ## The reply -/

section

variable {stats rdone : GoMap Int}

/-- The values of a reply. -/
def replyValues (stats rdone : GoMap Int) : List (Σ _ : String, Json) :=
  [⟨"running", .bool true⟩, ⟨"stats", marshalCounts stats⟩, ⟨"rdone", marshalCounts rdone⟩]

/-- The three keys of a reply differ. -/
theorem nodupKeys_replyValues (stats rdone : GoMap Int) : (replyValues stats rdone).NodupKeys := by
  show ["running", "stats", "rdone"].Nodup
  decide

/-- The page reads the two maps of a reply. -/
theorem readReply_statsBody (hstats : ∀ x ∈ stats.entries, x.2.natAbs < 2 ^ 53)
    (hrdone : ∀ x ∈ rdone.entries, x.2.natAbs < 2 ^ 53) :
    ∃ read, readReply (statsBody stats rdone) = some read ∧ read.running = true ∧
      read.error = none ∧
      read.stats.entries.Perm (stats.entries.map fun x => ⟨x.1, (x.2 : ℚ)⟩) ∧
      read.rdone.entries.Perm (rdone.entries.map fun x => ⟨x.1, (x.2 : ℚ)⟩) := by
  have hvalid : ∀ x ∈ replyValues stats rdone, x.2.Valid := by
    have hcounts : ∀ m, (marshalCounts m).Valid := fun m => valid_marshalMap (valid_countValues m)
    simp only [replyValues, List.forall_mem_cons]
    exact ⟨.bool _, hcounts _, hcounts _, by simp⟩
  obtain ⟨q, hq, hqperm⟩ := readCounts_marshalCounts hstats
  obtain ⟨d, hd, hdperm⟩ := readCounts_marshalCounts hrdone
  refine ⟨⟨true, none, q, d⟩, ?_, rfl, rfl, hqperm, hdperm⟩
  have hget : ∀ key v, (⟨key, v⟩ : Σ _ : String, Json) ∈ replyValues stats rdone →
      Json.get? (marshalMembers (replyValues stats rdone)) key.toList = some v := fun _ _ hmem =>
    get?_marshalMembers (nodupKeys_replyValues stats rdone) hmem
  -- the three members are found under their keys, and the maps are read from them
  rw [readReply, statsBody, ← replyValues, decode_marshalMap hvalid]
  dsimp only
  rw [hget "running" (.bool true) (by simp [replyValues]),
    hget "stats" (marshalCounts stats) (by simp [replyValues]),
    hget "rdone" (marshalCounts rdone) (by simp [replyValues])]
  simp [hq, hd]

end

/-- The entries of the monitor's maps as `int`s. -/
theorem entries_asInts (m : GoMap Nat) :
    (asInts m).entries = m.entries.map fun x => ⟨x.1, asInt x.2⟩ := by
  rw [asInts, AList.entries_toAList, List.dedupKeys_of_nodupKeys]
  rw [List.NodupKeys, List.keys, List.map_map]
  exact m.nodupKeys

/-- The numbers of a report are in the range of `int`, whatever has been added up. -/
theorem isInt_of_mem_asInts {m : GoMap Nat} : ∀ x ∈ (asInts m).entries, IsInt x.2 := by
  intro x hx
  rw [entries_asInts] at hx
  obtain ⟨y, -, hy⟩ := List.mem_map.mp hx
  have hvalue : asInt y.2 = x.2 := by rw [← hy]
  rw [← hvalue]
  exact isInt_asInt y.2

/-- No reply to a report is an error: it has the maps of the report. -/
theorem reply_eq_ok (r : Report) :
    ∃ stats rdone : GoMap Int, r.reply = .ok (statsBody stats rdone) ∧
      stats.entries.Perm (asInts r.requestPerS).entries ∧
      rdone.entries.Perm (asInts r.requestLagDone).entries := by
  -- both texts of the report are read back without an error, so neither branch of the handler is
  -- taken
  obtain ⟨hstats, hstatsPerm⟩ := unmarshalCounts_marshalCounts
    (isInt_of_mem_asInts (m := r.requestPerS))
  obtain ⟨hrdone, hrdonePerm⟩ := unmarshalCounts_marshalCounts
    (isInt_of_mem_asInts (m := r.requestLagDone))
  refine ⟨_, _, ?_, hstatsPerm, hrdonePerm⟩
  rw [Report.reply, readReportMaps, Report.requestPerSText, Report.requestLagDoneText]
  simp only [hstats, hrdone]
  rfl

/-- The page reads what a report has, as far as its numbers are not too large. -/
theorem decodes_of_reply {r : Report} {body : List Char} (hbody : r.reply = .ok body)
    (hstats : ∀ x ∈ r.requestPerS.entries, x.2 < 2 ^ 53)
    (hrdone : ∀ x ∈ r.requestLagDone.entries, x.2 < 2 ^ 53) :
    (∃ data, StatsReply.ReadFrom body data) ∧ ∀ data, StatsReply.ReadFrom body data →
      data.error = none ∧ data.Decodes r.requestPerS r.requestLagDone := by
  obtain ⟨stats, rdone, hreply, hstatsPerm, hrdonePerm⟩ := reply_eq_ok r
  obtain rfl := Except.ok.inj (hbody.symm.trans hreply)
  -- a number that is not too large is the counter itself
  have hcounter : ∀ {m : GoMap Nat} {m' : GoMap Int}, (∀ x ∈ m.entries, x.2 < 2 ^ 53) →
      m'.entries.Perm (asInts m).entries → (∀ x ∈ m'.entries, x.2.natAbs < 2 ^ 53) ∧
        (m'.entries.map fun x => (⟨x.1, (x.2 : ℚ)⟩ : Σ _ : String, ℚ)).Perm
          (m.entries.map fun x => ⟨x.1, (x.2 : ℚ)⟩) := by
    intro m m' hm hperm
    have hint : ∀ x ∈ m.entries, asInt x.2 = x.2 := fun x hx =>
      asInt_of_lt ((hm x hx).trans (by decide))
    rw [entries_asInts] at hperm
    constructor
    · intro x hx
      obtain ⟨y, hy, rfl⟩ := List.mem_map.mp (hperm.mem_iff.mp hx)
      rw [hint y hy]
      exact hm y hy
    · refine (hperm.map _).trans (.of_eq ?_)
      rw [List.map_map]
      refine List.map_congr_left fun x hx => ?_
      simp [hint x hx]
  -- the two maps of the report, as they are written and as they are read
  obtain ⟨hstats, hstatsMap⟩ := hcounter hstats hstatsPerm
  obtain ⟨hrdone, hrdoneMap⟩ := hcounter hrdone hrdonePerm
  obtain ⟨read, hread, hrun, herr, hreadStats, hreadRdone⟩ := readReply_statsBody hstats hrdone
  refine ⟨⟨read, read, hread, rfl, rfl, .refl _, .refl _⟩, ?_⟩
  rintro data ⟨read', hread', hrun', herr', hstats', hrdone'⟩
  obtain rfl := Option.some.inj (hread.symm.trans hread')
  exact ⟨herr'.trans herr, StatsReply.decodes_of_perm (hrun'.trans hrun)
    (hstats'.trans (hreadStats.trans hstatsMap)) (hrdone'.trans (hreadRdone.trans hrdoneMap))⟩

/-! ## Runs -/

namespace App

variable {dir : String} {es : List Event} {s s' : App}

/-- The rates and the counts of the monitor are no more than twice what has been completed. -/
theorem reporting_le (h : Runs dir es s) {r : Report} (hr : s.monitor.reporting = some r) :
    (∀ x ∈ r.requestPerS.entries, x.2 ≤ 2 * totalDone (statList dir es)) ∧
      ∀ x ∈ r.requestLagDone.entries, x.2 ≤ totalDone (statList dir es) := by
  rw [reporting_eq_after h hr]
  constructor
  · rintro ⟨m, n⟩ hx
    have hlookup := AList.mem_lookup_iff.mpr hx
    rw [StatsMonitor.makeReport, StatsMonitor.after_requestPerSec] at hlookup
    obtain ⟨st, hst, rfl⟩ := Option.map_eq_some_iff.mp hlookup
    have hmem := (List.of_findRev?_eq_some hst).1
    obtain ⟨w, hw⟩ := mem_statList.mp hmem
    obtain ⟨wk, hget, hwl⟩ := exists_worker_of_mem_stats h _ hw
    -- a worker reports twice a second
    have hdt : st.workload.dt = 500 := by rw [hwl, workload_dt h hget]
    have hle : st.nreqDone ≤ totalDone (statList dir es) :=
      List.single_le_sum (by simp) _ (List.mem_map_of_mem hmem)
    show st.reqPerS ≤ _
    rw [Stat.reqPerS, hdt]
    omega
  · rintro ⟨m, n⟩ hx
    exact StatsMonitor.after_requestLagDone_le (AList.mem_lookup_iff.mpr hx)

/-- The reply to a report is never an error, in whatever order the goroutines go. As long as
    less than 2 ^ 52 predictions have been reported, the page reads from it the rates and the
    counts that follow from what the workers have reported. -/
theorem reply_of_report (h : Runs dir es s) {i ts : Nat}
    (hstep : s.step (.report i ts) = some s') :
    ∃ r body, s.monitor.reporting = some r ∧ r.reply = .ok body ∧
      (totalDone (statList dir es) < 2 ^ 52 →
        (∃ data, StatsReply.ReadFrom body data) ∧ ∀ data, StatsReply.ReadFrom body data →
          data.error = none ∧ data.Decodes (StatsMonitor.after (statList dir es)).requestPerSec
            (StatsMonitor.after (statList dir es)).requestLagDone) := by
  obtain ⟨-, hm⟩ := moves_of_step hstep
  cases hm with
  -- the report is the one that the monitor has built, from all Stats received
  | @report _ _ r hh hr =>
    obtain ⟨stats, rdone, hbody, -⟩ := reply_eq_ok r
    refine ⟨r, _, hr, hbody, fun hfew => ?_⟩
    obtain ⟨hstats, hrdone⟩ := reporting_le h hr
    have hdecodes := decodes_of_reply hbody
      (fun x hx => (hstats x hx).trans_lt (by omega)) fun x hx => (hrdone x hx).trans_lt (by omega)
    rw [reporting_eq_after h hr] at hdecodes
    exact hdecodes

/-- Two workers report a prediction each, and a reply is under way. -/
def twoReports : List Event :=
  submit 0 (sampleForm [("0", "m"), ("1", "n")] "5" "2") "b" [0, 1] ++ predicts 0 ++
    predicts 1 ++ reports 0 ++ reports 1 ++ [.request .stats, .monitorTick]

/-- The page reads the two predictions, under the model of the last one. -/
theorem reply_of_two_reports :
    ∃ s r body data, Runs "reports" twoReports s ∧ s.monitor.reporting = some r ∧
      r.reply = .ok body ∧ StatsReply.ReadFrom body data ∧ data.running = true ∧
      data.stats.lookup "0" = some 2 ∧ data.rdone.lookup "1" = some 2 := by
  -- the run is computed, and so are the two entries of its last report
  obtain ⟨s, hs, hp⟩ := Machine.exists_run_of_map App.step (init "reports") twoReports
    (fun s => (s.step (.report 1 0)).isSome) (by decide +kernel)
  obtain ⟨s', hstep⟩ := Option.isSome_iff_exists.mp hp
  obtain ⟨r, body, hr, hbody, hread⟩ := reply_of_report hs hstep
  have hfew : totalDone (statList "reports" twoReports) < 2 ^ 52 := by decide +kernel
  obtain ⟨⟨data, hdata⟩, hall⟩ := hread hfew
  obtain ⟨-, hdecodes⟩ := hall data hdata
  have hrate : (StatsMonitor.after (statList "reports" twoReports)).requestPerSec.lookup "0" =
      some 2 := by decide +kernel
  have hcount : (StatsMonitor.after (statList "reports" twoReports)).requestLagDone.lookup "1" =
      some 2 := by decide +kernel
  refine ⟨s, r, body, data, hs, hr, hbody, hdata, hdecodes.running, ?_, ?_⟩
  · rw [hdecodes.stats, hrate]
    rfl
  · rw [hdecodes.rdone, hcount]
    rfl

end App

end WorkloadSimulator
