import WorkloadSimulator.ForStd.Machine
import WorkloadSimulator.Stress.Plancache

/-!
# The rates of the live page

The loop keeps `prev_pc` and `stats` from poll to poll, and touches both only for the queries
that a poll shows; its `prev_time` moves with each poll. A query that is not shown keeps its
rate, and one that is shown again gets the executions of all the time that it was missing.

When the rates are right is said in terms of the polls alone: which of them show a query, and
how often it was executed between them.

## Key results

- `lookup_poll`: what a poll does to the two dictionaries
- `Sound.has_poll`: what the loop has of a query, from the polls that have shown it
- `exact_step_iff`: when the rates after a poll are those of the interval before it
- `exact_iff`: they are after each poll of a run exactly when each poll keeps up
-/

namespace WorkloadSimulator.Stress

/-! ## A poll -/

namespace PlancacheLoop

variable {memsqlDb : Option String} {p : PlancacheLoop} {t : ℚ} {query : String}
  {rows : List PlancacheRow} {row : PlancacheRow} {execs : Nat}

/-- The rate of a query that is shown, from what the loop has of it. -/
def newRate (prev : Option Nat) (old : Option ℚ) (elapsed : ℚ) (execs : Nat) : Option ℚ :=
  match prev with
  | some prev => if old.isSome ∨ execs ≠ prev then some (((execs : ℚ) - prev) / elapsed) else old
  | none => old

/-- The rate of a row, by what the loop has of its query. -/
theorem lookup_rate :
    (p.rate t query execs).lookup query =
      newRate (p.prevPc.lookup query) (p.stats.lookup query) (t - p.prevTime) execs := by
  unfold rate newRate
  -- without a count of before there is no rate, and with one only a rate of before or a difference
  cases p.prevPc.lookup query with
  | none => rfl
  | some prev =>
    simp only [AList.lookup_isSome]
    split
    · exact AList.lookup_insert _
    · rfl

/-- A row changes the rate of its own query only. -/
theorem lookup_rate_of_ne {query' : String} (h : query ≠ query') :
    (p.rate t query' execs).lookup query = p.stats.lookup query := by
  unfold rate
  split
  · split
    · exact AList.lookup_insert_ne h
    · rfl
  · rfl

/-- The rows of other databases are passed over. -/
theorem foldl_fetchPlancache :
    rows.foldl (fetchPlancache memsqlDb t) p =
      (shown memsqlDb rows).foldl (fun p row => { p with
        stats := p.rate t row.queryText row.execs
        prevPc := p.prevPc.insert row.queryText row.execs }) p := by
  -- the loop goes over the rows of the configured database as `foldl_record` has them
  rw [shown, List.foldl_filter]
  congr 1
  funext p row
  by_cases hdb : row.database = memsqlDb <;> simp [fetchPlancache, hdb]

/-- The loop over rows of the configured database. -/
theorem foldl_record (hnodup : (rows.map (·.queryText)).Nodup) :
    let p' := rows.foldl (fun p row => { p with
      stats := p.rate t row.queryText row.execs
      prevPc := p.prevPc.insert row.queryText row.execs }) p
    (∀ row ∈ rows, p'.prevPc.lookup row.queryText = some row.execs ∧
      p'.stats.lookup row.queryText = newRate (p.prevPc.lookup row.queryText)
        (p.stats.lookup row.queryText) (t - p.prevTime) row.execs) ∧
    ∀ query ∉ rows.map (·.queryText), p'.prevPc.lookup query = p.prevPc.lookup query ∧
      p'.stats.lookup query = p.stats.lookup query := by
  -- induction on the rows: no other has the text of the first one
  induction rows generalizing p with
  | nil => simp
  | cons first rows ih =>
    obtain ⟨hfirst, hrows⟩ := List.nodup_cons.mp hnodup
    obtain ⟨hshown, hother⟩ := ih (p := { p with
      stats := p.rate t first.queryText first.execs
      prevPc := p.prevPc.insert first.queryText first.execs }) hrows
    refine ⟨?_, ?_⟩
    · intro row hrow
      rcases List.mem_cons.mp hrow with rfl | hrow
      · -- the others have other texts
        obtain ⟨hpc, hstats⟩ := hother row.queryText hfirst
        exact ⟨hpc.trans (AList.lookup_insert _), hstats.trans lookup_rate⟩
      · have hne : row.queryText ≠ first.queryText := by
          intro heq
          have hmem := List.mem_map_of_mem (f := PlancacheRow.queryText) hrow
          rw [heq] at hmem
          exact hfirst hmem
        obtain ⟨hpc, hstats⟩ := hshown row hrow
        refine ⟨hpc, ?_⟩
        rw [List.foldl_cons, hstats, AList.lookup_insert_ne hne, lookup_rate_of_ne hne]
    · intro query hquery
      obtain ⟨hne, hquery⟩ := not_or.mp (List.mem_cons.not.mp hquery)
      obtain ⟨hpc, hstats⟩ := hother query hquery
      exact ⟨hpc.trans (AList.lookup_insert_ne hne), hstats.trans (lookup_rate_of_ne hne)⟩

/-- The loop over the metrics leaves the other variables. -/
theorem foldl_fetchMetrics (rows : List StatusRow) :
    (rows.foldl fetchMetrics p).prevPc = p.prevPc ∧
      (rows.foldl fetchMetrics p).stats = p.stats := by
  induction rows generalizing p with
  | nil => exact ⟨rfl, rfl⟩
  | cons row rows ih =>
    rw [List.foldl_cons]
    exact ih

/-- A poll that shows each query once has the executions of these, and changes the rates of
    no others. -/
theorem lookup_poll (rowsMets : List StatusRow)
    (hnodup : ((shown memsqlDb rows).map (·.queryText)).Nodup) :
    let p' := p.poll memsqlDb t rows rowsMets
    (∀ row ∈ shown memsqlDb rows, p'.prevPc.lookup row.queryText = some row.execs ∧
      p'.stats.lookup row.queryText = newRate (p.prevPc.lookup row.queryText)
        (p.stats.lookup row.queryText) (t - p.prevTime) row.execs) ∧
    ∀ query ∉ (shown memsqlDb rows).map (·.queryText),
      p'.prevPc.lookup query = p.prevPc.lookup query ∧
        p'.stats.lookup query = p.stats.lookup query := by
  dsimp only [poll]
  -- fetching the metrics changes neither of the two maps
  obtain ⟨hpc, hstats⟩ :=
    foldl_fetchMetrics (p := rows.foldl (fetchPlancache memsqlDb t) p) rowsMets
  rw [hpc, hstats, foldl_fetchPlancache]
  exact foldl_record hnodup

end PlancacheLoop

/-! ## What the polls show -/

variable {memsqlDb : Option String} {query : String} {es : List Snapshot} {e : Snapshot}

/-- The poll has a row for the query. -/
def Snapshot.shows (memsqlDb : Option String) (query : String) (e : Snapshot) : Bool :=
  decide (query ∈ (shown memsqlDb e.rowsPc).map (·.queryText))

/-- The polls up to the last one that shows the query. -/
def untilShown (memsqlDb : Option String) (query : String) (es : List Snapshot) : List Snapshot :=
  es.rdropWhile fun e => !e.shows memsqlDb query

/-- The polls after that one. -/
def sinceShown (memsqlDb : Option String) (query : String) (es : List Snapshot) : List Snapshot :=
  es.rtakeWhile fun e => !e.shows memsqlDb query

/-- The polls after the first one that shows the query, up to the last one that does. -/
def betweenShown (memsqlDb : Option String) (query : String) (es : List Snapshot) :
    List Snapshot :=
  ((untilShown memsqlDb query es).dropWhile fun e => !e.shows memsqlDb query).tail

/-- The polls after the last but one that shows the query, up to the last one. -/
def lastShown (memsqlDb : Option String) (query : String) (es : List Snapshot) : List Snapshot :=
  sinceShown memsqlDb query (untilShown memsqlDb query es).dropLast ++
    (untilShown memsqlDb query es).getLast?.toList

/-- How often the query has been executed in the intervals that these polls end. -/
def executions (query : String) (es : List Snapshot) : Nat := (es.map (·.executed query)).sum

theorem executions_append (query : String) (es fs : List Snapshot) :
    executions query (es ++ fs) = executions query es + executions query fs := by
  rw [executions, List.map_append, List.sum_append]
  rfl

theorem executions_concat (query : String) (es : List Snapshot) (e : Snapshot) :
    executions query (es ++ [e]) = executions query es + e.executed query := by
  rw [executions_append]
  rfl

/-- The executions up to the last poll that shows a query, and those since, are all of them. -/
theorem executions_until_since (memsqlDb : Option String) (query : String) (es : List Snapshot) :
    executions query (untilShown memsqlDb query es) +
      executions query (sinceShown memsqlDb query es) = executions query es := by
  rw [← executions_append, untilShown, sinceShown, List.rdropWhile_append_rtakeWhile]

/-- A query that is shown has a row. -/
theorem exists_of_shows (h : e.shows memsqlDb query = true) :
    ∃ row ∈ shown memsqlDb e.rowsPc, row.queryText = query :=
  List.mem_map.mp (of_decide_eq_true h)

/-- A query has been shown when some poll showed it. -/
theorem untilShown_ne_nil_iff :
    untilShown memsqlDb query es ≠ [] ↔ ∃ x ∈ es, x.shows memsqlDb query = true := by
  simp [untilShown, List.rdropWhile_eq_nil_iff]

/-! ### One more poll -/

/-- A poll that does not show the query changes nothing about the polls that do. -/
theorem untilShown_concat_of_not (h : e.shows memsqlDb query = false) :
    untilShown memsqlDb query (es ++ [e]) = untilShown memsqlDb query es :=
  List.rdropWhile_concat_pos _ _ _ (by simp [h])

/-- A poll that shows the query is the last one that does. -/
theorem untilShown_concat (h : e.shows memsqlDb query = true) :
    untilShown memsqlDb query (es ++ [e]) = es ++ [e] :=
  List.rdropWhile_concat_neg _ _ _ (by simp [h])

/-- A poll that does not show the query adds nothing between the polls that do. -/
theorem betweenShown_concat_of_not (h : e.shows memsqlDb query = false) :
    betweenShown memsqlDb query (es ++ [e]) = betweenShown memsqlDb query es := by
  rw [betweenShown, untilShown_concat_of_not h, ← betweenShown]

/-- Nor does it change what came before the last of them. -/
theorem lastShown_concat_of_not (h : e.shows memsqlDb query = false) :
    lastShown memsqlDb query (es ++ [e]) = lastShown memsqlDb query es := by
  rw [lastShown, untilShown_concat_of_not h, ← lastShown]

/-- With a poll that shows the query, what came since the last one that did comes before this
    one. -/
theorem lastShown_concat (h : e.shows memsqlDb query = true) :
    lastShown memsqlDb query (es ++ [e]) = sinceShown memsqlDb query es ++ [e] := by
  rw [lastShown, untilShown_concat h, List.dropLast_concat, List.getLast?_concat]
  rfl

/-- The first poll that shows the query. -/
theorem betweenShown_concat_of_first (h : e.shows memsqlDb query = true)
    (hnone : untilShown memsqlDb query es = []) : betweenShown memsqlDb query (es ++ [e]) = [] := by
  have hall : ∀ x ∈ es, (!x.shows memsqlDb query) = true := List.rdropWhile_eq_nil_iff.mp hnone
  rw [betweenShown, untilShown_concat h, List.dropWhile_append_of_pos hall,
    List.dropWhile_cons_of_neg (by simp [h])]
  rfl

/-- A later one. -/
theorem betweenShown_concat (h : e.shows memsqlDb query = true)
    (hsome : untilShown memsqlDb query es ≠ []) :
    betweenShown memsqlDb query (es ++ [e]) =
      betweenShown memsqlDb query es ++ (sinceShown memsqlDb query es ++ [e]) := by
  -- the last poll that shows the query is one of those up to it
  have hdrop : (untilShown memsqlDb query es).dropWhile (fun e => !e.shows memsqlDb query) ≠ [] := by
    intro hnil
    exact List.rdropWhile_last_not _ _ hsome
      (List.dropWhile_eq_nil_iff.mp hnil _ (List.getLast_mem hsome))
  have hsplit : es ++ [e] =
      untilShown memsqlDb query es ++ (sinceShown memsqlDb query es ++ [e]) := by
    rw [← List.append_assoc, untilShown, sinceShown, List.rdropWhile_append_rtakeWhile]
  rw [betweenShown, untilShown_concat h, hsplit, List.dropWhile_append,
    if_neg (by simpa using hdrop), List.tail_append_of_ne_nil hdrop, ← betweenShown]

/-! ## Rates of an interval -/

namespace Polling

variable {pre : List Snapshot} {s u : Polling}

/-- What the rates after these polls should be: each is that of the interval before the last poll,
    and none is left positive for a query that this poll does not show. -/
def Exact (memsqlDb : Option String) (es : List Snapshot) (s : Polling) : Prop :=
  ∀ query, ∀ r ∈ s.loop.stats.lookup query, ∃ pre e' e, es = pre ++ [e', e] ∧
    r = e.executed query / (e.time - e'.time) ∧
    (e.shows memsqlDb query = false → ¬ 0 < r)

/-- A poll keeps up with the polls before it. -/
structure KeepsUp (memsqlDb : Option String) (pre : List Snapshot) (e : Snapshot) : Prop where
  /-- What it shows and an earlier poll has shown was not executed between the last poll that
      did and the poll before it. -/
  caughtUp : ∀ row ∈ shown memsqlDb e.rowsPc, untilShown memsqlDb row.queryText pre ≠ [] →
    executions row.queryText (sinceShown memsqlDb row.queryText pre) = 0
  /-- What it does not show, and was executed between polls that did, was executed neither
      between the last two of these polls nor since the poll before it. -/
  idle : ∀ x ∈ pre, ∀ row ∈ shown memsqlDb x.rowsPc, e.shows memsqlDb row.queryText = false →
    executions row.queryText (betweenShown memsqlDb row.queryText pre) ≠ 0 →
    executions row.queryText (lastShown memsqlDb row.queryText pre) = 0 ∧
      e.executed row.queryText = 0

/-- `KeepsUp` as a conjunction, which can be decided. -/
theorem keepsUp_iff : KeepsUp memsqlDb pre e ↔
    (∀ row ∈ shown memsqlDb e.rowsPc, untilShown memsqlDb row.queryText pre ≠ [] →
      executions row.queryText (sinceShown memsqlDb row.queryText pre) = 0) ∧
    ∀ x ∈ pre, ∀ row ∈ shown memsqlDb x.rowsPc, e.shows memsqlDb row.queryText = false →
      executions row.queryText (betweenShown memsqlDb row.queryText pre) ≠ 0 →
      executions row.queryText (lastShown memsqlDb row.queryText pre) = 0 ∧
        e.executed row.queryText = 0 :=
  ⟨fun h => ⟨h.1, h.2⟩, fun h => ⟨h.1, h.2⟩⟩

instance : Decidable (KeepsUp memsqlDb pre e) := decidable_of_iff' _ keepsUp_iff

/-- What the loop has of a query after these polls. -/
structure Has (memsqlDb : Option String) (query : String) (es : List Snapshot)
    (prev : Option Nat) (rate : Option ℚ) : Prop where
  prev_eq : prev = if untilShown memsqlDb query es = [] then none
    else some (executions query (untilShown memsqlDb query es))
  isSome_rate : rate.isSome = true ↔ executions query (betweenShown memsqlDb query es) ≠ 0
  rate_nonneg : ∀ r ∈ rate, 0 ≤ r
  rate_eq_zero : ∀ r ∈ rate, r = 0 ↔ executions query (lastShown memsqlDb query es) = 0

/-- The state of the loop after these polls. -/
structure Sound (memsqlDb : Option String) (es : List Snapshot) (s : Polling) : Prop where
  polledAt_eq : s.polledAt = es.getLast?.map (·.time)
  prevTime_eq : ∀ t ∈ s.polledAt, s.loop.prevTime = t
  execs_eq : ∀ query, s.execs query = executions query es
  has : ∀ query, Has memsqlDb query es (s.loop.prevPc.lookup query) (s.loop.stats.lookup query)

/-- A poll that does not show a query leaves what the loop has of it. -/
theorem Has.concat_of_not {prev : Option Nat} {rate : Option ℚ}
    (h : Has memsqlDb query pre prev rate) (he : e.shows memsqlDb query = false) :
    Has memsqlDb query (pre ++ [e]) prev rate := by
  refine ⟨?_, ?_, h.rate_nonneg, ?_⟩
  · rw [untilShown_concat_of_not he]
    exact h.prev_eq
  · rw [betweenShown_concat_of_not he]
    exact h.isSome_rate
  · rw [lastShown_concat_of_not he]
    exact h.rate_eq_zero

/-- The first poll that shows a query gives it no rate. -/
theorem Has.concat_of_first {prev : Option Nat} {rate : Option ℚ} {d : ℚ}
    (h : Has memsqlDb query pre prev rate) (he : e.shows memsqlDb query = true)
    (hnone : untilShown memsqlDb query pre = []) :
    PlancacheLoop.newRate prev rate d (executions query (pre ++ [e])) = none ∧
      Has memsqlDb query (pre ++ [e]) (some (executions query (pre ++ [e]))) none := by
  -- the loop has neither a count nor a rate of a query that has not been shown
  have hprev : prev = none := by rw [h.prev_eq, if_pos hnone]
  have hrate : rate = none := by
    rw [← Option.not_isSome_iff_eq_none, h.isSome_rate, betweenShown, hnone]
    simp [executions]
  refine ⟨by rw [hprev, hrate]; rfl, ⟨?_, ?_, by simp, by simp⟩⟩
  · rw [untilShown_concat he, if_neg (by simp)]
  · rw [betweenShown_concat_of_first he hnone]
    simp [executions]

/-- A later poll that shows a query gives it the rate of all executions since the last one that
    did, if it has a rate or there are any. -/
theorem newRate_of_has {prev : Option Nat} {rate : Option ℚ} {elapsed : ℚ}
    (h : Has memsqlDb query pre prev rate) (hsome : untilShown memsqlDb query pre ≠ []) :
    PlancacheLoop.newRate prev rate elapsed (executions query (pre ++ [e])) =
      if rate.isSome ∨ executions query (sinceShown memsqlDb query pre ++ [e]) ≠ 0 then
        some ((executions query (sinceShown memsqlDb query pre ++ [e]) : ℚ) / elapsed)
      else none := by
  have hsplit := executions_until_since memsqlDb query pre
  have hsum : executions query (pre ++ [e]) = executions query (untilShown memsqlDb query pre) +
      executions query (sinceShown memsqlDb query pre ++ [e]) := by
    rw [executions_concat, executions_concat]
    omega
  -- the new count is the old one and the executions since
  rw [h.prev_eq, if_neg hsome, PlancacheLoop.newRate, hsum]
  push_cast
  rw [add_sub_cancel_left]
  -- a rate of before is always replaced; without one there must be a difference
  by_cases hrate : rate.isSome = true
  · rw [if_pos (.inl hrate), if_pos (.inl hrate)]
  · by_cases hzero : executions query (sinceShown memsqlDb query pre ++ [e]) = 0
    · rw [if_neg (by simp [hrate, hzero]), if_neg (by simp [hrate, hzero])]
      exact Option.not_isSome_iff_eq_none.mp hrate
    · rw [if_pos (.inr (by omega)), if_pos (.inr hzero)]

/-- A later poll that shows a query leaves what the loop should have of it. -/
theorem Has.concat {prev : Option Nat} {rate : Option ℚ} {elapsed : ℚ} (helapsed : 0 < elapsed)
    (h : Has memsqlDb query pre prev rate) (he : e.shows memsqlDb query = true)
    (hsome : untilShown memsqlDb query pre ≠ []) :
    Has memsqlDb query (pre ++ [e]) (some (executions query (pre ++ [e])))
      (PlancacheLoop.newRate prev rate elapsed (executions query (pre ++ [e]))) := by
  rw [newRate_of_has h hsome]
  refine ⟨?_, ?_, ?_, ?_⟩
  -- the count is that of all executions so far
  · rw [untilShown_concat he, if_neg (by simp)]
  -- a rate comes with the first difference between two polls that show the query, and stays
  · rw [betweenShown_concat he hsome, executions_append _ (betweenShown memsqlDb query pre)]
    split
    · rename_i hor
      rw [h.isSome_rate] at hor
      exact iff_of_true rfl (by omega)
    · rename_i hnor
      rw [h.isSome_rate] at hnor
      exact iff_of_false (by simp) (by omega)
  -- it is a quotient of executions and time, so not negative
  · intro r hr
    split at hr
    · obtain rfl := Option.some.inj hr
      positivity
    · cases hr
  -- and zero only where there were no executions
  · intro r hr
    rw [lastShown_concat he]
    split at hr
    · obtain rfl := Option.some.inj hr
      rw [div_eq_zero_iff, or_iff_left helapsed.ne', Nat.cast_eq_zero]
    · cases hr

/-- What the loop has of a query after one more poll. -/
theorem Sound.has_poll (hs : Sound memsqlDb pre s) (hadmits : s.Admits memsqlDb e)
    (query : String) :
    Has memsqlDb query (pre ++ [e])
      ((s.loop.poll memsqlDb e.time e.rowsPc e.rowsMets).prevPc.lookup query)
      ((s.loop.poll memsqlDb e.time e.rowsPc e.rowsMets).stats.lookup query) := by
  obtain ⟨htime, hnodup, hcounts⟩ := hadmits
  obtain ⟨hshown, hother⟩ :=
    PlancacheLoop.lookup_poll (p := s.loop) (t := e.time) e.rowsMets hnodup
  -- with a row for the query, or without
  cases he : e.shows memsqlDb query with
  | false =>
    have hmem : query ∉ (shown memsqlDb e.rowsPc).map (·.queryText) := of_decide_eq_false he
    rw [(hother query hmem).1, (hother query hmem).2]
    exact (hs.has query).concat_of_not he
  | true =>
    obtain ⟨row, hrow, rfl⟩ := exists_of_shows he
    have hexecs : row.execs = executions row.queryText (pre ++ [e]) := by
      rw [hcounts row hrow, hs.execs_eq, executions_concat]
    rw [(hshown row hrow).1, (hshown row hrow).2, hexecs]
    -- the first row for this query, or one that follows another
    by_cases hnone : untilShown memsqlDb row.queryText pre = []
    · obtain ⟨hrate, hhas⟩ :=
        (hs.has row.queryText).concat_of_first (d := e.time - s.loop.prevTime) he hnone
      rw [hrate]
      exact hhas
    · refine (hs.has row.queryText).concat ?_ he hnone
      -- some poll has been before
      obtain ⟨x, hx, -⟩ := untilShown_ne_nil_iff.mp hnone
      obtain ⟨last, hlast⟩ := Option.isSome_iff_exists.mp
        (List.getLast?_isSome.mpr (List.ne_nil_of_mem hx))
      have hpolled : last.time ∈ s.polledAt := by rw [hs.polledAt_eq, hlast]; rfl
      rw [hs.prevTime_eq _ hpolled]
      exact sub_pos.mpr (htime _ hpolled)

/-- An admitted poll keeps what the loop and the history say of each other. -/
theorem Sound.step (hs : Sound memsqlDb pre s) (h : s.step memsqlDb e = some u) :
    Sound memsqlDb (pre ++ [e]) u := by
  unfold Polling.step at h
  split at h
  · rename_i hadmits
    obtain rfl := Option.some.inj h
    -- the time of the poll becomes the last one, and its executions are added
    refine ⟨?_, fun t ht => Option.some.inj ht, fun query => ?_, hs.has_poll hadmits⟩
    · rw [List.getLast?_concat]
      rfl
    · rw [executions_concat, ← hs.execs_eq]
  · cases h

/-- A query that is not shown keeps a rate that is right only when nothing has happened. -/
theorem Has.exact_of_not {prev : Option Nat} {rate : Option ℚ} {elapsed : ℚ}
    (helapsed : 0 < elapsed) (h : Has memsqlDb query pre prev rate) :
    (∀ r ∈ rate, r = e.executed query / elapsed ∧ ¬ 0 < r) ↔
      (executions query (betweenShown memsqlDb query pre) ≠ 0 →
        executions query (lastShown memsqlDb query pre) = 0 ∧ e.executed query = 0) := by
  rw [← h.isSome_rate]
  -- without a rate nothing is shown, and nothing need be idle
  cases rate with
  | none => simp
  | some r =>
    have hzero := h.rate_eq_zero r rfl
    have hnonneg := h.rate_nonneg r rfl
    simp only [Option.mem_def, Option.some.injEq, forall_eq', Option.isSome_some, forall_const,
      ← hzero]
    -- the old rate is right only as zero, since a positive one may not stay
    constructor
    · rintro ⟨heq, hpos⟩
      have hr : r = 0 := le_antisymm (not_lt.mp hpos) hnonneg
      rw [hr, eq_comm, div_eq_zero_iff, or_iff_left helapsed.ne', Nat.cast_eq_zero] at heq
      exact ⟨hr, heq⟩
    · rintro ⟨hr, hex⟩
      simp [hr, hex]

/-- A query that is shown again has the right rate only when nothing has been missed. -/
theorem Has.exact_of_shown {prev : Option Nat} {rate : Option ℚ} {elapsed : ℚ}
    (helapsed : 0 < elapsed) (h : Has memsqlDb query pre prev rate)
    (hsome : untilShown memsqlDb query pre ≠ []) :
    (∀ r ∈ PlancacheLoop.newRate prev rate elapsed (executions query (pre ++ [e])),
      r = e.executed query / elapsed) ↔
      executions query (sinceShown memsqlDb query pre) = 0 := by
  -- the rate is that of all executions since the query was shown last
  rw [newRate_of_has h hsome, executions_concat]
  split
  · simp only [Option.mem_def, Option.some.injEq, forall_eq']
    rw [div_left_inj' helapsed.ne', Nat.cast_inj]
    omega
  -- without a rate there have been no executions either
  · rename_i hnor
    exact iff_of_true (by simp) (by omega)

/-- The rates after a poll are those between the last two exactly when it keeps up. -/
theorem exact_step_iff (hs : Sound memsqlDb pre s) (h : s.step memsqlDb e = some u) :
    Exact memsqlDb (pre ++ [e]) u ↔ KeepsUp memsqlDb pre e := by
  have hu := hs.step h
  unfold Polling.step at h
  split at h
  · rename_i hadmits
    obtain rfl := Option.some.inj h
    obtain ⟨htime, hnodup, hcounts⟩ := hadmits
    obtain ⟨hshown, hother⟩ :=
      PlancacheLoop.lookup_poll (p := s.loop) (t := e.time) e.rowsMets hnodup
    rcases List.eq_nil_or_concat pre with rfl | ⟨pre, e', rfl⟩
    · -- the first poll gives no rates
      refine iff_of_true ?_ ⟨fun row _ hne => absurd rfl hne, fun x hx => by cases hx⟩
      intro query r hr
      have hnone : ((s.loop.poll memsqlDb e.time e.rowsPc e.rowsMets).stats.lookup query).isSome ≠
          true := by
        rw [Ne, (hu.has query).isSome_rate, not_not]
        cases he : e.shows memsqlDb query with
        | true => rw [betweenShown_concat_of_first he rfl]; rfl
        | false => rw [betweenShown_concat_of_not he]; rfl
      rw [Option.mem_def.mp hr] at hnone
      exact absurd rfl hnone
    · have hpolled : e'.time ∈ s.polledAt := by
        rw [hs.polledAt_eq, List.concat_eq_append, List.getLast?_concat]
        rfl
      -- the polls are apart in time, so a rate determines the executions
      have helapsed := sub_pos.mpr (htime _ hpolled)
      have hprev := hs.prevTime_eq _ hpolled
      rw [List.concat_eq_append] at hs ⊢
      -- the last two polls are the ones that the rates are about
      have hexact : Exact memsqlDb (pre ++ [e'] ++ [e])
            { loop := s.loop.poll memsqlDb e.time e.rowsPc e.rowsMets
              polledAt := some e.time
              execs := fun query => s.execs query + e.executed query } ↔
          ∀ query, ∀ r ∈ (s.loop.poll memsqlDb e.time e.rowsPc e.rowsMets).stats.lookup query,
            r = e.executed query / (e.time - e'.time) ∧
              (e.shows memsqlDb query = false → ¬ 0 < r) := by
        refine forall_congr' fun query => forall_congr' fun r => forall_congr' fun _ => ?_
        constructor
        · rintro ⟨pre', f', f, heq, hr⟩
          have heq : pre ++ [e', e] = pre' ++ [f', f] := by simpa using heq
          obtain ⟨-, htail⟩ := List.append_inj' heq rfl
          cases htail
          exact hr
        · exact fun hr => ⟨pre, e', e, by simp, hr⟩
      rw [hexact]
      constructor
      -- from exact rates: rows that follow others, and queries that are not shown
      · intro hrates
        constructor
        · intro row hrow hsome
          rw [← (hs.has row.queryText).exact_of_shown (e := e) helapsed hsome]
          intro r hr
          refine (hrates row.queryText r ?_).1
          rw [(hshown row hrow).2, hprev, hcounts row hrow, hs.execs_eq, ← executions_concat]
          exact hr
        · intro x hx row hrow hno
          rw [← (hs.has row.queryText).exact_of_not helapsed]
          intro r hr
          rw [← (hother row.queryText (of_decide_eq_false hno)).2] at hr
          obtain ⟨heq, hpos⟩ := hrates row.queryText r hr
          exact ⟨heq, hpos hno⟩
      -- to exact rates: by whether the poll shows the query
      · rintro ⟨hcaught, hidle⟩ query r hr
        cases he : e.shows memsqlDb query with
        | true =>
          obtain ⟨row, hrow, rfl⟩ := exists_of_shows he
          refine ⟨?_, fun hno => by cases hno⟩
          rw [(hshown row hrow).2, hprev, hcounts row hrow, hs.execs_eq, ← executions_concat] at hr
          by_cases hsome : untilShown memsqlDb row.queryText (pre ++ [e']) = []
          · have hnone := ((hs.has row.queryText).concat_of_first (d := e.time - e'.time)
              he hsome).1
            rw [hnone] at hr
            cases hr
          · exact ((hs.has row.queryText).exact_of_shown helapsed hsome).mpr
              (hcaught row hrow hsome) r hr
        | false =>
          rw [(hother query (of_decide_eq_false he)).2] at hr
          have hrated : executions query (betweenShown memsqlDb query (pre ++ [e'])) ≠ 0 :=
            (hs.has query).isSome_rate.mp (by rw [Option.mem_def.mp hr]; rfl)
          -- a query with a rate has been shown
          obtain ⟨x, hx, hshows⟩ : ∃ x ∈ pre ++ [e'], x.shows memsqlDb query = true := by
            rw [← untilShown_ne_nil_iff]
            rintro hnil
            rw [betweenShown, hnil] at hrated
            exact hrated rfl
          obtain ⟨row, hrow, rfl⟩ := exists_of_shows hshows
          obtain ⟨heq, hpos⟩ := ((hs.has row.queryText).exact_of_not helapsed).mpr
            (hidle x hx row hrow he) r hr
          exact ⟨heq, fun _ => hpos⟩
  · cases h

/-- Before any poll nothing is known and nothing has been executed. -/
theorem sound_init (memsqlDb : Option String) : Sound memsqlDb [] init := by
  refine ⟨rfl, fun t ht => (by cases ht), fun _ => rfl, fun query => ⟨rfl, ?_, ?_, ?_⟩⟩
  · exact iff_of_false (by rintro ⟨⟩) (not_not.mpr rfl)
  · exact fun r hr => by cases hr
  · exact fun r hr => by cases hr

/-- The rates after every poll of a run are those between the last two, and positive only for
    queries that are shown, exactly when each poll keeps up with those before it. -/
theorem exact_iff {es : List Snapshot} (h : Machine.run (step memsqlDb) init es = some s) :
    Machine.AlwaysAfter (step memsqlDb) (Exact memsqlDb) init es ↔
      Machine.Meets (step memsqlDb) (fun pre _ e => KeepsUp memsqlDb pre e) init es := by
  refine Machine.alwaysAfter_iff_meets (I := Sound memsqlDb) (sound_init memsqlDb) ?_ ?_ h
  · intro query r hr
    cases hr
  · exact fun es t e u ht he => ⟨ht.step he, exact_step_iff ht he⟩

/-- A query that is executed ten times in the first second, and then misses a poll. -/
theorem stale_rate :
    ¬ ∀ memsqlDb es s, Machine.run (step memsqlDb) init es = some s →
      Machine.AlwaysAfter (step memsqlDb) (Exact memsqlDb) init es := by
  intro hall
  let es : List Snapshot :=
    [⟨100, fun _ => 5, [⟨"select 1", some "db", some 5, none⟩], []⟩,
      ⟨101, fun _ => 10, [⟨"select 1", some "db", some 15, none⟩], []⟩,
      ⟨102, fun _ => 0, [], []⟩]
  obtain ⟨s, hs, hp⟩ := Machine.exists_run_of_map (step (some "db")) init es
    (fun s => s.loop.stats.lookup "select 1" == some 10) (by decide +kernel)
  -- the query left the plancache, and its last rate stays
  obtain ⟨pre, e', e, heq, -, hpos⟩ :=
    hall _ es s hs es [] (List.append_nil es).symm s hs "select 1" 10 (beq_iff_eq.mp hp)
  have heq : [es[0]] ++ [es[1], es[2]] = pre ++ [e', e] := heq
  obtain ⟨-, htail⟩ := List.append_inj' heq rfl
  cases htail
  exact hpos (by decide) (by norm_num)

/-- A query that is shown while it is executed, with some of its executions rolled back, and
    another one that the plancache keeps for two polls only. -/
def keptPolls : List Snapshot :=
  [⟨100, fun q => if q = "select 1" then 5 else 1,
      [⟨"select 1", some "db", some 5, none⟩, ⟨"select 2", some "db", some 1, none⟩], []⟩,
    ⟨101, fun q => if q = "select 1" then 10 else 0,
      [⟨"select 1", some "db", some 12, some 3⟩, ⟨"select 2", some "db", some 1, none⟩], []⟩,
    ⟨103, fun q => if q = "select 1" then 10 else 0,
      [⟨"select 1", some "db", some 25, none⟩], []⟩,
    ⟨104, fun q => if q = "select 1" then 10 else 3,
      [⟨"select 1", some "db", some 35, none⟩, ⟨"select 2", some "db", some 4, none⟩], []⟩]

/-- One query is shown by every poll, and the other one is idle where it is not. -/
theorem exact_while_shown :
    ∃ s, Machine.run (step (some "db")) init keptPolls = some s ∧
      s.loop.stats.lookup "select 1" = some 10 ∧ s.loop.stats.lookup "select 2" = some 3 ∧
      Machine.AlwaysAfter (step (some "db")) (Exact (some "db")) init keptPolls := by
  -- the run is computed, and that each of its polls keeps up is decided
  obtain ⟨s, hs, hp⟩ := Machine.exists_run_of_map (step (some "db")) init keptPolls
    (fun s => s.loop.stats.lookup "select 1" == some 10 &&
      s.loop.stats.lookup "select 2" == some 3) (by decide +kernel)
  simp only [Bool.and_eq_true, beq_iff_eq] at hp
  exact ⟨s, hs, hp.1, hp.2, (exact_iff hs).mpr
    (Machine.meets_of_forall_getElem (C := KeepsUp (some "db")) (by decide +kernel))⟩

end Polling

end WorkloadSimulator.Stress
