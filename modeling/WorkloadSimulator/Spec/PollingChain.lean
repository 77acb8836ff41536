import WorkloadSimulator.Spec.ClientStep

/-!
# The polling chain

The page polls `/stats` in a chain: a request, its response, a timer, the next request. A
chain starts when a play succeeds. A pause does not end it: it ends when its next response
finds the button at PLAY, so a play that succeeds before that leaves two chains.

## Key results

- `chains_onWorkloadReceive_le`: a response goes on with its chain or ends it
- `chains_of_step`: only a play that succeeds adds a chain
- `one_chain_iff`: there is one chain at most, and none survives a pause into the next play,
  exactly when each play succeeds while no chain is active
-/

namespace WorkloadSimulator.Client

variable {site : Site} {s s' : Client}

/-- The active polling chains: requests to `/stats` under way and timers. -/
def chains (s : Client) : Nat := s.statsRequests + s.timers

/-! ## What starts and ends a chain -/

/-- A play that succeeds starts a chain. -/
theorem chains_onPlay (s : Client) (workload : List (Nat × WidgetInfo)) (running : Bool) :
    (s.onPlay workload running).chains = s.chains + if running then 1 else 0 := by
  cases running with
  | false => rfl
  | true =>
    show s.statsRequests + 1 + s.timers = s.statsRequests + s.timers + 1
    omega

/-- A pause leaves the chains. -/
theorem chains_onPause (s : Client) (running : Bool) : (s.onPause running).chains = s.chains := by
  cases running <;> rfl

/-- A response goes on with its chain by a timer, or ends it. -/
theorem chains_onWorkloadReceive_le (s : Client) (data : StatsReply) :
    (s.onWorkloadReceive site data).chains ≤ s.chains + 1 := by
  have hreceives := receives site s data
  generalize s.onWorkloadReceive site data = s' at hreceives ⊢
  -- a timer is set for the response that has come
  cases hreceives with
  | shown hr hd hshow =>
    show s.statsRequests + (s.timers + 1) ≤ s.statsRequests + s.timers + 1
    omega
  | ignored | errorThrown | stopped | thrown => exact Nat.le_succ _

/-- Whether an event is the answer to a play that succeeded. -/
def Event.isPlayed : Event → Bool
  | .played _ running => running
  | _ => false

/-- Only a play that succeeds adds a chain. -/
theorem chains_of_step {e : Event} (h : s.step site e = some s') :
    (e.isPlayed = true ∧ s'.chains = s.chains + 1) ∨
      (e.isPlayed = false ∧ s'.chains ≤ s.chains) := by
  cases moves_of_step h with
  | @played n workload running hw =>
    have hchains := chains_onPlay { s with workloadRequests := s.workloadRequests.eraseIdx n }
      workload running
    cases running with
    | true => exact .inl ⟨rfl, hchains⟩
    | false => exact .inr ⟨rfl, hchains.le⟩
  | paused running hp => exact .inr ⟨rfl, (chains_onPause _ running).le⟩
  | stats data hs =>
    -- the response has been taken off, and at most one timer is set
    have hle : (onWorkloadReceive site { s with statsRequests := s.statsRequests - 1 } data).chains ≤
        chains { s with statsRequests := s.statsRequests - 1 } + 1 :=
      chains_onWorkloadReceive_le _ data
    have hchains : ({ s with statsRequests := s.statsRequests - 1 } : Client).chains + 1 =
        s.chains := by
      show s.statsRequests - 1 + s.timers + 1 = s.statsRequests + s.timers
      omega
    -- a request that fails ends its chain
    exact .inr ⟨rfl, by omega⟩
  | statsError hs =>
    refine .inr ⟨rfl, ?_⟩
    show s.statsRequests - 1 + s.timers ≤ s.statsRequests + s.timers
    omega
  -- a timer makes a request
  | timer ht =>
    refine .inr ⟨rfl, ?_⟩
    show s.statsRequests + 1 + (s.timers - 1) ≤ s.statsRequests + s.timers
    omega
  -- no other event touches requests or timers
  | newWidget =>
    refine .inr ⟨rfl, ?_⟩
    unfold newWidget
    split <;> exact le_rfl
  | click =>
    refine .inr ⟨rfl, ?_⟩
    unfold click
    split <;> exact le_rfl
  | dialMax plus =>
    refine .inr ⟨rfl, ?_⟩
    unfold updateDialValue
    split <;> exact le_rfl
  | editQuery | setDial | closeWidget | clearWorkload | upload | playError | pauseError
  | autoSave | save => exact .inr ⟨rfl, le_rfl⟩

/-! ## One chain -/

/-- There is one chain at most. -/
def OneChain (s : Client) : Prop := s.chains ≤ 1

/-- No chain that a pause has left active is active when the next play succeeds. -/
def NoneSurvives (site : Site) (s : Client) (es : List Event) : Prop :=
  ∀ pre e post, es = pre ++ e :: post → e.isPlayed = true →
    ∀ t, Machine.run (Client.step site) s pre = some t → t.running = false → t.chains = 0

/-- A play succeeds while no request to `/stats` is under way and no timer is set. -/
def PlayedIdle (s : Client) : Event → Prop
  | .played _ true => s.statsRequests = 0 ∧ s.timers = 0
  | _ => True

instance (s : Client) : (e : Event) → Decidable (PlayedIdle s e)
  | .played _ true => inferInstanceAs (Decidable (_ ∧ _))
  | .played _ false | .newWidget | .editQuery .. | .setDial .. | .closeWidget _
  | .clearWorkload | .upload .. | .dialMax _ | .click | .playError _ | .paused _ | .pauseError
  | .stats _ | .statsError | .timer | .autoSave | .save => .isTrue trivial

/-- A play that succeeds is the one event with a condition. -/
theorem playedIdle_iff {e : Event} : PlayedIdle s e ↔ (e.isPlayed = true → s.chains = 0) := by
  cases e with
  | played n running =>
    cases running with
    | true => simp [PlayedIdle, Event.isPlayed, chains]
    | false => simp [PlayedIdle, Event.isPlayed]
  | _ => simp [PlayedIdle, Event.isPlayed]

/-- The step by which there are two chains is a play that succeeds too early. -/
theorem oneChain_step_iff {e : Event} (hs : OneChain s) (h : s.step site e = some s') :
    OneChain s' ↔ PlayedIdle s e := by
  rw [playedIdle_iff]
  unfold OneChain at hs ⊢
  -- one chain more than there were, or none more
  rcases chains_of_step h with ⟨he, hchains⟩ | ⟨he, hchains⟩
  · simp only [he, forall_const]
    omega
  · simp only [he, Bool.false_eq_true, false_implies, iff_true]
    omega

variable {m : Int} {cache : Option (AList fun _ : Nat => WidgetInfo)} {es : List Event}

/-- In every state of a run there is one polling chain at most, and none survives a pause
    into the next play, exactly when each play succeeds while no chain is active. -/
theorem one_chain_iff (h : Runs site m cache es s) :
    (Machine.Always (Client.step site) OneChain (init m cache) es ∧
        NoneSurvives site (init m cache) es) ↔
      Machine.Meets (Client.step site) (fun _ => PlayedIdle) (init m cache) es := by
  have hiff := Machine.always_iff_meets (P := OneChain) (C := PlayedIdle)
    (show (init m cache).chains ≤ 1 from Nat.zero_le 1)
    -- the second part is the condition at each play
    (fun _ _ _ ht he => oneChain_step_iff ht he) h
  rw [hiff, and_iff_left_iff_imp]
  intro hmeets pre e post heq he t ht _
  exact playedIdle_iff.mp (hmeets pre e post heq t ht) he

/-- Play, pause and play again before the response to the first `/stats` request: two
    chains. -/
theorem two_chains_after_replay :
    ¬ ∀ site m cache es s, Runs site m cache es s →
      Machine.Always (Client.step site) OneChain (init m cache) es ∧
        NoneSurvives site (init m cache) es := by
  intro hall
  obtain ⟨s, hs, hp⟩ := Machine.exists_run_of_map (Client.step .app) (init 10000 none)
    -- the first chain is still waiting when the second play succeeds
    [.editQuery 0 "a", .click, .played 0 true, .click, .paused false, .click, .played 0 true]
    (fun s => s.chains == 2) (by decide +kernel)
  have hone := (hall .app _ _ _ s hs).1 _ [] (List.append_nil _).symm s hs
  rw [OneChain, beq_iff_eq.mp hp] at hone
  omega

/-- Play, pause and play again after the chain has ended: one chain at every moment. -/
theorem one_chain_after_drain :
    ∃ s, Runs .app 10000 none [.editQuery 0 "a", .click, .played 0 true, .click,
        .paused false, .statsError, .click, .played 0 true] s ∧
      Machine.Always (Client.step .app) OneChain (init 10000 none) [.editQuery 0 "a", .click,
        .played 0 true, .click, .paused false, .statsError, .click, .played 0 true] := by
  obtain ⟨s, hs, -⟩ := Machine.exists_run_of_map (Client.step .app) (init 10000 none)
    [.editQuery 0 "a", .click, .played 0 true, .click, .paused false, .statsError, .click,
      .played 0 true] (fun _ => true) (by decide +kernel)
  refine ⟨s, hs, ((one_chain_iff hs).mpr (Machine.meets_of_check
    (c := fun s e => decide (PlayedIdle s e)) (fun _ _ _ hc => of_decide_eq_true hc) ?_)).1⟩
  decide +kernel

end WorkloadSimulator.Client
