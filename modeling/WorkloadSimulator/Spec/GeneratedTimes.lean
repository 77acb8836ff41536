import WorkloadSimulator.Spec.GeneratedValues

/-!
# The times of the generators

The times of a worker are one second apart, whatever calendar its clock steps through, and
the number that a time is written as keeps the order of the times.

## Key results

- `seconds_addSecond`: the clock of the calendar counts seconds
- `seconds_lt_iff`: the numbers of times stand in the order of the times
- `times_issued`: the times that a worker has made are the seconds from its first one on
- `times_of_two_workers`: two workers with the same clock make the same times
-/

namespace WorkloadSimulator.Stress

open Finset

/-! ## The seconds of a calendar -/

namespace DateTime

variable {t u : DateTime}

/-- The days of a year before a month. -/
def daysBeforeMonth (year month : Nat) : Nat := ∑ m ∈ Ico 1 month, daysInMonth year m

/-- The days before a year, from the first of January of the year 1 on. -/
def daysBeforeYear (year : Nat) : Nat := ∑ y ∈ Ico 1 year, daysBeforeMonth y 13

/-- The days before the day of a time. -/
def days (t : DateTime) : Nat :=
  daysBeforeYear t.year + (daysBeforeMonth t.year t.month + (t.day - 1))

/-- The seconds of the day of a time. -/
def ofDay (t : DateTime) : Nat := (t.hour * 60 + t.minute) * 60 + t.second

/-- The seconds since the first of January of the year 1. -/
def seconds (t : DateTime) : Nat := t.days * 86400 + t.ofDay

theorem daysBeforeMonth_succ {year month : Nat} (h : 0 < month) :
    daysBeforeMonth year (month + 1) = daysBeforeMonth year month + daysInMonth year month :=
  sum_Ico_succ_top h _

theorem daysBeforeYear_succ {year : Nat} (h : 0 < year) :
    daysBeforeYear (year + 1) = daysBeforeYear year + daysBeforeMonth year 13 :=
  sum_Ico_succ_top h _

theorem daysBeforeMonth_mono (year : Nat) {m m' : Nat} (h : m ≤ m') :
    daysBeforeMonth year m ≤ daysBeforeMonth year m' :=
  sum_le_sum_of_subset (Ico_subset_Ico_right h)

theorem daysBeforeYear_mono {y y' : Nat} (h : y ≤ y') : daysBeforeYear y ≤ daysBeforeYear y' :=
  sum_le_sum_of_subset (Ico_subset_Ico_right h)

/-- A day has 86400 seconds. -/
theorem ofDay_lt (t : DateTime) : t.ofDay < 86400 := by
  have hhour := t.hour_lt
  have hminute := t.minute_lt
  have hsecond := t.second_lt
  unfold ofDay
  omega

/-- A step of the clock is one second, also over the ends of days, months and years. -/
theorem seconds_addSecond (h : t.addSecond = some u) : u.seconds = t.seconds + 1 := by
  have hhour := t.hour_lt
  have hminute := t.minute_lt
  have hsecond := t.second_lt
  have hday := t.day_pos
  have hdayle := t.day_le
  unfold addSecond at h
  -- only the second changes
  split at h
  · obtain rfl := Option.some.inj h
    simp only [seconds, ofDay, days]
    omega
  -- the next minute, the next hour and the next day
  · dsimp only at h
    split at h
    · obtain rfl := Option.some.inj h
      simp only [seconds, ofDay, days]
      omega
    · split at h
      · obtain rfl := Option.some.inj h
        simp only [seconds, ofDay, days]
        omega
      · split at h
        · obtain rfl := Option.some.inj h
          simp only [seconds, ofDay, days]
          omega
        · split at h
          -- the last day of a month
          · obtain rfl := Option.some.inj h
            simp only [seconds, ofDay, days, daysBeforeMonth_succ t.month_pos]
            omega
          · split at h
            -- the last day of a year
            · obtain rfl := Option.some.inj h
              have hmonth : t.month = 12 := by
                have hle := t.month_le
                omega
              have hmonths : daysBeforeMonth t.year 13 =
                  daysBeforeMonth t.year 12 + daysInMonth t.year 12 :=
                daysBeforeMonth_succ (by decide)
              have hfirst : daysBeforeMonth (t.year + 1) 1 = 0 := rfl
              simp only [seconds, ofDay, days, daysBeforeYear_succ t.year_pos, hfirst, hmonth]
              simp only [hmonth] at *
              omega
            · cases h

/-! ## The order of the times -/

/-- The year, month and day of a time as one number. -/
def date (t : DateTime) : Nat := (t.year * 100 + t.month) * 100 + t.day

/-- No month has more than 31 days. -/
theorem day_le_thirtyOne (t : DateTime) : t.day ≤ 31 := by
  have hle := t.day_le
  unfold daysInMonth at hle
  split at hle
  · split at hle <;> omega
  · split at hle <;> omega

/-- The days of a month are before those of a later month. -/
theorem day_le_daysBeforeMonth (t : DateTime) {month : Nat} (h : t.month < month) :
    daysBeforeMonth t.year t.month + t.day ≤ daysBeforeMonth t.year month := by
  have hmono := daysBeforeMonth_mono t.year h
  rw [daysBeforeMonth_succ t.month_pos] at hmono
  have hle := t.day_le
  omega

/-- A day with a smaller number is an earlier one. -/
theorem days_lt_of_date_lt (h : t.date < u.date) : t.days < u.days := by
  have ht := t.day_le_thirtyOne
  have hu := u.day_le_thirtyOne
  have hmonth := t.month_le
  have hmonth' := u.month_le
  have hday := t.day_pos
  have hday' := u.day_pos
  unfold date at h
  unfold days
  -- the years decide, or the months of the same year, or the days of the same month
  rcases lt_trichotomy t.year u.year with hy | hy | hy
  · have hyears := daysBeforeYear_mono hy
    rw [daysBeforeYear_succ t.year_pos] at hyears
    have hlast : t.month < 13 := by omega
    have hmonths := t.day_le_daysBeforeMonth hlast
    omega
  · rcases lt_trichotomy t.month u.month with hm | hm | hm
    · have hmonths := t.day_le_daysBeforeMonth hm
      rw [← hy]
      omega
    · rw [← hy, ← hm]
      omega
    · omega
  · omega

/-- The same date is the same day. -/
theorem days_eq_of_date_eq (h : t.date = u.date) : t.days = u.days := by
  have ht := t.day_le_thirtyOne
  have hu := u.day_le_thirtyOne
  have hmonth := t.month_le
  have hmonth' := u.month_le
  unfold date at h
  obtain ⟨hy, hm, hd⟩ : t.year = u.year ∧ t.month = u.month ∧ t.day = u.day := by omega
  rw [days, days, hy, hm, hd]

/-- The number of a time is that of its date, followed by that of its time of day. -/
theorem currentTime_eq (t : DateTime) :
    t.currentTime = t.date * 1000000 + (t.hour * 100 + t.minute) * 100 + t.second := by
  unfold currentTime date
  omega

/-- The later of two times has the greater number. -/
theorem seconds_lt_iff : t.seconds < u.seconds ↔ t.currentTime < u.currentTime := by
  have hof := t.ofDay_lt
  have hof' := u.ofDay_lt
  have hhour := t.hour_lt
  have hhour' := u.hour_lt
  have hminute := t.minute_lt
  have hminute' := u.minute_lt
  have hsecond := t.second_lt
  have hsecond' := u.second_lt
  rw [currentTime_eq, currentTime_eq, seconds, seconds]
  -- the dates decide first
  rcases lt_trichotomy t.date u.date with hlt | heq | hlt
  · have hdays := days_lt_of_date_lt hlt
    omega
  · -- the days are the same, so the hours decide
    have hdays := days_eq_of_date_eq heq
    unfold ofDay
    omega
  · have hdays := days_lt_of_date_lt hlt
    omega

/-- The same second is the same number. -/
theorem currentTime_eq_of_seconds_eq (h : t.seconds = u.seconds) :
    t.currentTime = u.currentTime := by
  -- the number of the later time would be greater
  rcases lt_trichotomy t.currentTime u.currentTime with hlt | heq | hlt
  · exact absurd h (seconds_lt_iff.mpr hlt).ne
  · exact heq
  · exact absurd h (seconds_lt_iff.mpr hlt).ne'

end DateTime

/-! ## The times of a worker -/

def Expr.isTime : Expr → Bool
  | .getRandomTime => true
  | _ => false

section run

variable {pfx : Text} {x : Expr} {build : List Expr} {g g' : GenState} {log : List (Expr × Text)}

/-- `getRandomTime` is the one expression that makes a time. -/
theorem isTime_iff : x.isTime = true ↔ x = .getRandomTime := by
  cases x <;> simp [Expr.isTime]

/-- A time is what the clock shows, and the clock goes on by a second. -/
theorem eval_getRandomTime {a : Text} (h : Expr.eval pfx .getRandomTime g = some (a, g')) :
    a = str g.globalTime.currentTime ∧ g.globalTime.addSecond = some g'.globalTime := by
  obtain ⟨⟨t, g₁⟩, hclock, h⟩ := Option.bind_eq_some_iff.mp h
  obtain ⟨u, hu, hpair⟩ := Option.bind_eq_some_iff.mp hclock
  cases hpair
  cases h
  exact ⟨rfl, hu⟩

/-- The other expressions leave the clock alone. -/
theorem globalTime_eval (hx : x.isTime = false) {a : Text} (h : x.eval pfx g = some (a, g')) :
    g'.globalTime = g.globalTime := by
  cases x with
  | getRandomTime => cases hx
  | repr s | getRandomString n | getNewRandomNumber | getOldRandomNumber | getGlobalMarker =>
    cases h
    rfl

/-- The times of a worker are those of the seconds from its clock on, without a gap. -/
theorem evalLog_times (h : evalLog pfx build g = some (log, g')) :
    ∃ ts : List DateTime, valuesOf Expr.isTime log = ts.map (fun t => str t.currentTime) ∧
      ts.map DateTime.seconds = List.range' g.globalTime.seconds (build.countP Expr.isTime) := by
  induction build generalizing g log with
  | nil =>
    cases h
    exact ⟨[], rfl, rfl⟩
  | cons x build ih =>
    rw [evalLog_cons] at h
    obtain ⟨⟨a, g₁⟩, ha, h⟩ := Option.bind_eq_some_iff.mp h
    obtain ⟨⟨log₁, g₂⟩, hlog, h⟩ := Option.bind_eq_some_iff.mp h
    cases h
    obtain ⟨ts, hvalues, hseconds⟩ := ih hlog
    cases hx : x.isTime with
    -- a time is that of the clock, and leaves the next second
    | true =>
      obtain rfl := isTime_iff.mp hx
      obtain ⟨rfl, hstep⟩ := eval_getRandomTime ha
      refine ⟨g.globalTime :: ts, ?_, ?_⟩
      · rw [List.map_cons, ← hvalues]
        rfl
      · rw [List.map_cons, hseconds, DateTime.seconds_addSecond hstep,
          List.countP_cons_of_pos hx, List.range'_succ]
    -- another value leaves the clock as it was
    | false =>
      rw [globalTime_eval hx ha] at hseconds
      refine ⟨ts, ?_, ?_⟩
      · rw [← hvalues]
        simp [valuesOf, hx]
      · rw [hseconds, List.countP_cons_of_neg (by simp [hx])]

end run

/-- One second before the first of March of a leap year. -/
def leapDay : DateTime :=
  { year := 2016, month := 2, day := 29, hour := 23, minute := 59, second := 59
    year_pos := by decide, year_le := by decide, month_pos := by decide, month_le := by decide
    day_pos := by decide, day_le := by decide, hour_lt := by decide, minute_lt := by decide
    second_lt := by decide }

/-- The times that a worker has made rise, read as numbers, and each is the time one second
    after the one before. -/
theorem times_issued {pfx : Text} {queries : List (List Expr)} {g g' : GenState}
    {logs : List (List (Expr × Text))} (hrun : runQueries pfx queries g = some (logs, g')) :
    ((valuesOf Expr.isTime logs.flatten).map key).Pairwise (· < ·) ∧
      ∃ ts : List DateTime,
        valuesOf Expr.isTime logs.flatten = ts.map (fun t => str t.currentTime) ∧
        ts.map DateTime.seconds =
          List.range' g.globalTime.seconds (queries.flatten.countP Expr.isTime) := by
  obtain ⟨ts, hvalues, hseconds⟩ := evalLog_times (evalLog_of_runQueries hrun)
  refine ⟨?_, ts, hvalues, hseconds⟩
  -- the seconds rise, and with them the numbers
  have hrise : ts.Pairwise fun t u => t.seconds < u.seconds := by
    rw [← List.pairwise_map (f := DateTime.seconds), hseconds]
    exact List.pairwise_lt_range'
  rw [hvalues, List.map_map, List.pairwise_map]
  refine hrise.imp fun {t u} hlt => ?_
  rw [Function.comp_apply, Function.comp_apply, key, key, str_eq, str_eq,
    Nat.ofDigitChars_ten_toDigits, Nat.ofDigitChars_ten_toDigits]
  exact DateTime.seconds_lt_iff.mp hlt

/-- The last second of a leap day, and the next one. -/
theorem times_issued_over_leap_day :
    ∃ logs g', runQueries (workerPrefix 7) [[.getRandomTime, .getNewRandomNumber], [.getRandomTime]]
        ⟨0, leapDay, id⟩ = some (logs, g') ∧
      (valuesOf Expr.isTime logs.flatten).map key = [20160229235959, 20160301000000] ∧
      ((valuesOf Expr.isTime logs.flatten).map key).Pairwise (· < ·) := by
  have hany : (runQueries (workerPrefix 7) [[.getRandomTime, .getNewRandomNumber], [.getRandomTime]]
      ⟨0, leapDay, id⟩).any (fun p => (valuesOf Expr.isTime p.1.flatten).map key ==
        [20160229235959, 20160301000000]) = true := by decide +kernel
  obtain ⟨⟨logs, g'⟩, hrun, htimes⟩ := (Option.any_eq_true _ _).mp hany
  exact ⟨logs, g', hrun, beq_iff_eq.mp htimes, (times_issued hrun).1⟩

/-- Workers that have been forked with the same clock make the same times, as far as each of
    them comes. -/
theorem times_of_two_workers {p q : Text} {queries queries' : List (List Expr)}
    {g g' h h' : GenState} {logs logs' : List (List (Expr × Text))}
    (hclock : g.globalTime = h.globalTime) (hg : runQueries p queries g = some (logs, g'))
    (hh : runQueries q queries' h = some (logs', h'))
    (hle : queries.flatten.countP Expr.isTime ≤ queries'.flatten.countP Expr.isTime) :
    valuesOf Expr.isTime logs.flatten <+: valuesOf Expr.isTime logs'.flatten := by
  obtain ⟨ts, hvalues, hseconds⟩ := evalLog_times (evalLog_of_runQueries hg)
  obtain ⟨us, hvalues', hseconds'⟩ := evalLog_times (evalLog_of_runQueries hh)
  rw [hvalues, hvalues']
  -- equal seconds are equal texts, so it is enough to compare the seconds
  apply List.map_prefix_map_of_imp (g := DateTime.seconds)
  · intro t u htu
    rw [DateTime.currentTime_eq_of_seconds_eq htu]
  · obtain ⟨k, hk⟩ := Nat.exists_eq_add_of_le hle
    rw [hseconds, hseconds', hclock, hk, ← List.range'_append_1]
    exact List.prefix_append _ _

/-- One of two workers is a time ahead. -/
theorem times_of_two_workers_one_ahead :
    ∃ logs logs' g' h', runQueries (workerPrefix 7) [[.getRandomTime]] ⟨0, leapDay, id⟩ =
        some (logs, g') ∧
      runQueries (workerPrefix 8) [[.getRandomTime], [.getNewRandomNumber, .getRandomTime]]
        ⟨5, leapDay, id⟩ = some (logs', h') ∧
      valuesOf Expr.isTime logs.flatten <+: valuesOf Expr.isTime logs'.flatten := by
  have hone : (runQueries (workerPrefix 7) [[.getRandomTime]] ⟨0, leapDay, id⟩).isSome = true := by
    decide +kernel
  have htwo : (runQueries (workerPrefix 8) [[.getRandomTime], [.getNewRandomNumber, .getRandomTime]]
      ⟨5, leapDay, id⟩).isSome = true := by decide +kernel
  -- neither worker has an error, so both have logs
  obtain ⟨⟨logs, g'⟩, hg⟩ := Option.isSome_iff_exists.mp hone
  obtain ⟨⟨logs', h'⟩, hh⟩ := Option.isSome_iff_exists.mp htwo
  have hclock : (⟨0, leapDay, id⟩ : GenState).globalTime =
      (⟨5, leapDay, id⟩ : GenState).globalTime := rfl
  exact ⟨logs, logs', g', h', hg, hh, times_of_two_workers hclock hg hh (by decide)⟩

end WorkloadSimulator.Stress
