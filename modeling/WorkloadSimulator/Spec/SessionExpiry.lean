import WorkloadSimulator.ForStd.Machine
import WorkloadSimulator.Stress.Session

/-!
# When a session expires

The server compares `timedelta.seconds` with `PING_TIMEOUT`, which leaves out the days of a
difference: a session that was last seen a day ago is alive again for eleven seconds. No
session is a ping at a midnight of 1990, so without a session the server takes itself to have
one in the first eleven seconds of each day.

## Key results

- `recent_iff_alive`: when the server's test is the rule of the elapsed time
- `answers_iff`: every answer of a run follows that rule exactly when no request of it comes
  at one of those times
-/

namespace WorkloadSimulator.Stress.Session

/-! ## The rule -/

/-- The session that was last seen at `last`, if there is one, has not timed out. -/
def Alive (last : Option Int) (now : Int) : Prop :=
  ∃ t ∈ last, (now - t) / 1000000 ≤ pingTimeout

instance (last : Option Int) (now : Int) : Decidable (Alive last now) :=
  match last with
  | none => .isFalse (by simp [Alive])
  | some t => decidable_of_iff ((now - t) / 1000000 ≤ pingTimeout) (by simp [Alive])

/-- The time of the last ping that was answered `OK` or of the last index page that was
    granted, if nobody has said goodbye since. -/
def lastSeen (s : Session) : Request → Option Int → Option Int
  | .index _ now, last => if s.recent now then last else some now
  | .ping now, last => if s.recent now then some now else last
  | .unload _, _ => none

/-- The answer to a request follows the rule. -/
def AnswersRule (s : Session) (last : Option Int) : Request → Prop
  | .index client now => (s.renderIndex client now).pages =
      if Alive last now then s.pages else s.pages ++ [.granted client]
  | .ping now => (s.ping now).2 = if Alive last now then .ok else .timeout
  | .unload _ => True

/-! ## The server's test -/

/-- The times at which the days of a difference make no difference: for a session less than
    eleven seconds after it was last seen or not as soon after a multiple of a day, for none
    not in the first eleven seconds of a day. -/
def Unmistaken (last : Option Int) (now : Int) : Prop :=
  match last with
  | some t => (now - t) / 1000000 ≤ 10 ∨ 10 < (now - t) / 1000000 % 86400
  | none => 10 < now / 1000000 % 86400

instance (last : Option Int) (now : Int) : Decidable (Unmistaken last now) :=
  match last with
  | some _ => inferInstanceAs (Decidable (_ ∨ _))
  | none => inferInstanceAs (Decidable (_ < _))

/-- The requests whose answer depends on the session come at such times. -/
def AsksUnmistaken (last : Option Int) : Request → Prop
  | .index _ now | .ping now => Unmistaken last now
  | .unload _ => True

instance (last : Option Int) : (r : Request) → Decidable (AsksUnmistaken last r)
  | .index _ now | .ping now => inferInstanceAs (Decidable (Unmistaken last now))
  | .unload _ => .isTrue trivial

/-- What the server keeps of the session that was last seen at `last`. -/
structure Keeps (s : Session) (last : Option Int) : Prop where
  gLastPing_eq : s.gLastPing = last.getD veryLongAgo
  le_clock : ∀ t ∈ last, t ≤ s.clock

variable {s u : Session} {last : Option Int}

/-- The server's test is the rule exactly when the days make no difference. -/
theorem recent_iff_alive {now : Int} (hs : s.Keeps last) (hnow : s.clock ≤ now) :
    (s.recent now = true ↔ Alive last now) ↔ Unmistaken last now := by
  obtain ⟨hping, hle⟩ := hs
  unfold recent Alive Unmistaken seconds
  rw [decide_eq_true_iff, hping]
  cases last with
  | none =>
    -- `VERY_LONG_AGO` is a midnight
    have hday : (now - veryLongAgo) / 1000000 % 86400 = now / 1000000 % 86400 := by
      unfold veryLongAgo
      omega
    simp only [Option.getD_none, hday, pingTimeout]
    simp
  | some t =>
    have ht := hle t rfl
    simp only [Option.getD_some, pingTimeout, Option.mem_def, Option.some.injEq,
      exists_eq_left']
    omega

/-- An answer follows the rule exactly when the test does. -/
theorem answersRule_iff {r : Request} (hs : s.Keeps last) (hnow : s.clock ≤ r.now) :
    s.AnswersRule last r ↔ AsksUnmistaken last r := by
  -- the server compares with the time seen last, and the rule with the real one
  cases r with
  | index client now =>
    show _ ↔ Unmistaken last now
    have hnow : s.clock ≤ now := hnow
    rw [← recent_iff_alive hs hnow, AnswersRule, renderIndex]
    by_cases halive : Alive last now <;> cases s.recent now <;> simp [halive]
  | ping now =>
    show _ ↔ Unmistaken last now
    have hnow : s.clock ≤ now := hnow
    rw [← recent_iff_alive hs hnow, AnswersRule, ping]
    by_cases halive : Alive last now <;> cases s.recent now <;> simp [halive]
  | unload now => exact Iff.rfl

/-! ## Runs -/

/-- A request leaves the server with the time at which the session was last seen. -/
theorem Keeps.request {r : Request} (hs : s.Keeps last) (h : s.request r = some u) :
    u.Keeps (s.lastSeen r last) := by
  obtain ⟨hping, hle⟩ := hs
  unfold Session.request at h
  split at h
  · rename_i hnow
    obtain rfl := Option.some.inj h
    have hle' : ∀ t ∈ last, t ≤ r.now := fun t ht => (hle t ht).trans hnow
    have hrecent : ∀ now, { s with clock := r.now }.recent now = s.recent now := fun _ => rfl
    cases r with
    | index client now =>
      unfold lastSeen handle renderIndex
      dsimp only
      rw [hrecent]
      -- the page is refused while a session is recent, and granted otherwise
      split
      · exact ⟨hping, hle'⟩
      · exact ⟨rfl, fun t ht => (Option.some.inj ht).ge⟩
    | ping now =>
      unfold lastSeen handle ping
      dsimp only
      rw [hrecent]
      split
      · exact ⟨rfl, fun t ht => (Option.some.inj ht).ge⟩
      · exact ⟨hping, hle'⟩
    | unload now => exact ⟨rfl, fun t ht => by cases ht⟩
  · cases h

variable {clock : Int} {rs : List Request}

/-- In every run the answers follow the rule of the elapsed time exactly when each request
    comes at a time at which the days of the difference make no difference. -/
theorem answers_iff (h : Machine.run request (init clock) rs = some s) :
    Machine.Meets (Machine.observe request lastSeen) (fun _ p => AnswersRule p.1 p.2)
        (init clock, none) rs ↔
      Machine.Meets (Machine.observe request lastSeen) (fun _ p => AsksUnmistaken p.2)
        (init clock, none) rs := by
  obtain ⟨last, hrun⟩ := Machine.exists_run_observe lastSeen none h
  refine Machine.meets_iff_meets (I := fun p : Session × Option Int => p.1.Keeps p.2) ?_ ?_ hrun
  -- the server keeps the time of the last request as the observer does
  · exact ⟨rfl, fun t ht => by cases ht⟩
  · rintro ⟨t, last⟩ r ⟨u, last'⟩ ht he
    obtain ⟨u, hu, heq⟩ := Option.map_eq_some_iff.mp he
    cases heq
    refine ⟨ht.request hu, answersRule_iff ht ?_⟩
    unfold request at hu
    split at hu
    · assumption
    · cases hu

/-- A page that was asleep for a day pings and is told that its session goes on. -/
theorem ok_after_a_day :
    ¬ ∀ clock rs s, Machine.run request (init clock) rs = some s →
      Machine.Meets (Machine.observe request lastSeen) (fun _ p => AnswersRule p.1 p.2)
        (init clock, none) rs := by
  intro hall
  -- a ping five seconds after a whole day
  have hmeets := hall 1349092800000000
    [.index 0 1349092800000000, .ping 1349179205000000] _ rfl
  let s := (init 1349092800000000).renderIndex 0 1349092800000000
  have hpong : (s.ping 1349179205000000).2 =
      if Alive (some 1349092800000000) 1349179205000000 then .ok else .timeout :=
    hmeets [.index 0 1349092800000000] _ [] rfl (s, some 1349092800000000) (by rfl)
  have hok : (s.ping 1349179205000000).2 = .ok := by decide +kernel
  rw [hok, if_neg (by decide +kernel)] at hpong
  cases hpong

/-- Pings after five seconds and after twenty more, then the page for another browser, which
    says goodbye before a third one asks. -/
theorem answers_of_a_morning :
    ∃ s, Machine.run request (init 1349092800000000) [.index 0 1349092800000000,
        .ping 1349092805000000, .ping 1349092825000000, .index 1 1349092826000000,
        .unload 1349092827000000, .index 2 1349092828000000] = some s ∧
      Machine.Meets (Machine.observe request lastSeen) (fun _ p => AnswersRule p.1 p.2)
        (init 1349092800000000, none) [.index 0 1349092800000000,
        .ping 1349092805000000, .ping 1349092825000000, .index 1 1349092826000000,
        .unload 1349092827000000, .index 2 1349092828000000] := by
  -- each request comes within a day of the one before
  refine ⟨_, rfl, (answers_iff rfl).mpr (Machine.meets_of_check
    (c := fun p r => decide (AsksUnmistaken p.2 r)) (fun _ _ _ hc => of_decide_eq_true hc) ?_)⟩
  decide +kernel

end WorkloadSimulator.Stress.Session
