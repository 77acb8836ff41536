import WorkloadSimulator.ForStd.List
import WorkloadSimulator.ForStd.Machine
import WorkloadSimulator.Stress.Session

/-!
# One session at a time

The server grants the index page when it has had no ping for a while, and whatever ping it
has then keeps the session alive. It does not know whose ping it is: a page whose own
session has lapsed keeps pinging until it is told that it is late, and once the index page
has been granted to another browser it is not told.

## Key results

- `exclusive_iff`: no page of another browser than the last one granted can interfere
  exactly when these pages are silent
- `exclusive_session_iff`: this holds in every state of a run exactly when the index page is
  only granted while the pages of all other browsers are silent
-/

namespace WorkloadSimulator.Stress

/-! ## Silent pages -/

namespace Page

variable {p p' : Page} {a : PageStep}

/-- A page that has nothing under way to the server and will send nothing more. -/
def Silent (p : Page) : Prop :=
  (p.closed = true ∨ p.pingingStopped = true) ∧ p.pings = 0 ∧ p.unloads = 0

instance (p : Page) : Decidable p.Silent := inferInstanceAs (Decidable (_ ∧ _))

/-- A step of a page does not make it the page of another browser. -/
theorem client_of_step (h : p.step a = some p') :
    p'.client = p.client := by
  -- a step on a page needs what it answers, and changes other fields
  cases a with
  | pingServer | pingError | pingLost | unloadLost =>
    simp only [Page.step] at h
    split at h <;> cases h
    simp
  | byeServer =>
    simp only [Page.step] at h
    split at h
    · cases h
    · obtain rfl := Option.some.inj h
      exact p.byeServer_client
  | leave =>
    obtain rfl := Option.some.inj h
    rfl
  | pong n =>
    simp only [Page.step] at h
    split at h
    · obtain rfl := Option.some.inj h
      split
      · rfl
      · exact onPingResponse_client ..
    · cases h

/-- A silent page stays silent. -/
theorem Silent.step (hp : p.Silent) (h : p.step a = some p') : p'.Silent := by
  obtain ⟨hstopped, hpings, hunloads⟩ := hp
  cases a with
  | pingServer =>
    simp only [Page.step] at h
    split at h
    · cases h
    · rename_i hopen
      -- with no session of its own the page sends no ping
      obtain rfl := Option.some.inj h
      rw [pingServer_of_stopped (hstopped.resolve_left hopen)]
      exact ⟨hstopped, hpings, hunloads⟩
  | byeServer =>
    simp only [Page.step] at h
    split at h
    · cases h
    · rename_i hopen
      obtain rfl := Option.some.inj h
      rw [byeServer_of_stopped (hstopped.resolve_left hopen)]
      exact ⟨.inl rfl, hpings, hunloads⟩
  | leave =>
    obtain rfl := Option.some.inj h
    exact ⟨.inl rfl, hpings, hunloads⟩
  | pong n =>
    simp only [Page.step] at h
    split at h
    · obtain rfl := Option.some.inj h
      unfold onPingResponse
      split
      · exact ⟨hstopped, hpings, hunloads⟩
      · split
        · exact ⟨.inr rfl, hpings, hunloads⟩
        · exact ⟨hstopped, hpings, hunloads⟩
    · cases h
  | pingError =>
    simp only [Page.step] at h
    split at h
    · obtain rfl := Option.some.inj h
      exact ⟨.inr rfl, hpings, hunloads⟩
    · cases h
  | pingLost =>
    simp only [Page.step, hpings, lt_irrefl, ↓reduceIte] at h
    cases h
  | unloadLost =>
    simp only [Page.step, hunloads, lt_irrefl, ↓reduceIte] at h
    cases h

end Page

namespace Session

variable {s s' : Session}

/-! ## The steps -/

/-- The steps of the server and its pages in the state `s`. -/
inductive Moves (s : Session) : Event → Session → Prop where
  | redirected (client : Nat) {now : Int} (hr : s.recent now = true) :
      Moves s (.index client now) { s with clock := now }
  | granted (client : Nat) {now : Int} (hr : s.recent now = false) :
      Moves s (.index client now)
        { clock := now, gLastPing := now, pages := s.pages ++ [.granted client] }
  | ping {i : Nat} {p : Page} {now : Int} (pong : Pong) (last : Int)
      (hp : s.pages[i]? = some p) (hpings : 0 < p.pings) :
      Moves s (.ping i now)
        { clock := now, gLastPing := last,
          pages := s.pages.set i { p with pings := p.pings - 1, pongs := p.pongs ++ [pong] } }
  | unload {i : Nat} {p : Page} {now : Int} (hp : s.pages[i]? = some p)
      (hunloads : 0 < p.unloads) :
      Moves s (.unload i now)
        { clock := now, gLastPing := veryLongAgo,
          pages := s.pages.set i { p with unloads := p.unloads - 1 } }
  | page {i : Nat} {p p' : Page} {a : PageStep} (hp : s.pages[i]? = some p)
      (ha : p.step a = some p') : Moves s (.page i a) (s.setPage i p')

/-- Every step is one of the `Moves`. -/
theorem moves_of_step {e : Event} (h : s.step e = some s') : Moves s e s' := by
  cases e with
  | index client now =>
    simp only [step] at h
    -- the guards of the source are those of the moves
    split at h
    · obtain rfl := Option.some.inj h
      unfold renderIndex
      split
      · rename_i hr
        exact .redirected client hr
      · rename_i hr
        exact .granted client (Bool.eq_false_of_not_eq_true hr)
    · cases h
  | ping i now =>
    simp only [step] at h
    split at h
    · rename_i p hp
      split at h
      · rename_i hguard
        obtain rfl := Option.some.inj h
        unfold ping
        split <;> exact .ping _ _ hp hguard.2
      · cases h
    · cases h
  | unload i now =>
    simp only [step] at h
    split at h
    · rename_i p hp
      split at h
      · rename_i hguard
        obtain rfl := Option.some.inj h
        exact .unload hp hguard.2
      · cases h
    · cases h
  | page i a =>
    simp only [step] at h
    split at h
    · rename_i p hp
      obtain ⟨p', ha, rfl⟩ := Option.map_eq_some_iff.mp h
      exact .page hp ha
    · cases h

/-! ## What others can do to a session -/

/-- The browser to which the index page was granted last. -/
def holder (s : Session) : Option Nat := s.pages.getLast?.map Page.client

/-- The browser of the page `i`. -/
def clientOf (s : Session) (i : Nat) : Option Nat := s.pages[i]?.map Page.client

/-- The event is a ping that is answered `OK`, or a goodbye that ends a session, of another
    browser than the one that the page was granted to last. -/
def Intrudes (s : Session) : Event → Prop
  | .ping i now | .unload i now => s.recent now = true ∧ s.clientOf i ≠ s.holder
  | _ => False

/-- Until the page is granted again, no other browser gets an `OK` or ends the session. -/
def Exclusive (s : Session) : Prop :=
  ∀ es t e u, Machine.run step s es = some t → t.pages.length = s.pages.length →
    t.step e = some u → ¬ t.Intrudes e

/-- The pages of other browsers are silent. -/
def OthersSilent (s : Session) : Prop :=
  ∀ p ∈ s.pages, some p.client ≠ s.holder → p.Silent

/-- The index page is granted only while the pages of all other browsers are silent. -/
def GrantsQuietly (s : Session) : Event → Prop
  | .index client now => s.recent now = false → ∀ p ∈ s.pages, p.client ≠ client → p.Silent
  | _ => True

instance (s : Session) : (e : Event) → Decidable (GrantsQuietly s e)
  | .index .. => inferInstanceAs (Decidable (_ → ∀ p ∈ s.pages, _))
  | .ping .. | .unload .. | .page .. => .isTrue trivial

/-! ## Steps that grant nothing -/

/-- A page that changes without changing hands leaves the holder. -/
theorem holder_setPage {i : Nat} {p p' : Page} (hp : s.pages[i]? = some p)
    (hpages : s'.pages = s.pages.set i p') (hc : p'.client = p.client) :
    s'.holder = s.holder := by
  have hmap : s'.pages.map Page.client = s.pages.map Page.client := by
    obtain ⟨hlt, rfl⟩ := List.getElem?_eq_some_iff.mp hp
    rw [hpages, List.map_set, hc, ← List.map_set, List.set_getElem_self]
  rw [holder, holder, ← List.getLast?_map, ← List.getLast?_map, hmap]

/-- A step that grants nothing keeps the pages of other browsers silent. -/
theorem OthersSilent.setPage {i : Nat} {p p' : Page} (hs : s.OthersSilent)
    (hp : s.pages[i]? = some p) (hpages : s'.pages = s.pages.set i p')
    (hc : p'.client = p.client) (hsilent : p.Silent → p'.Silent) : s'.OthersSilent := by
  intro q hq hne
  rw [holder_setPage hp hpages hc] at hne
  rw [hpages] at hq
  rcases List.mem_or_eq_of_mem_set hq with hq | rfl
  · exact hs q hq hne
  · rw [hc] at hne
    exact hsilent (hs p (List.mem_of_getElem? hp) hne)

/-- A step keeps the pages of other browsers silent exactly when it grants quietly. -/
theorem othersSilent_step_iff {e : Event} (hs : s.OthersSilent) (h : s.step e = some s') :
    s'.OthersSilent ↔ s.GrantsQuietly e := by
  cases moves_of_step h with
  | redirected client hr =>
    refine iff_of_true hs ?_
    intro hr'
    -- the two tests of the server exclude each other
    rw [hr] at hr'
    cases hr'
  | @granted client now hr =>
    have hholder : holder ⟨now, now, s.pages ++ [.granted client]⟩ = some client := by
      simp [holder, Page.granted]
    constructor
    · intro hall _ p hp hne
      refine hall p (List.mem_append_left _ hp) ?_
      rw [hholder]
      exact fun heq => hne (Option.some.inj heq)
    · intro hquiet p hp hne
      rw [hholder] at hne
      rcases List.mem_append.mp hp with hp | hp
      · exact hquiet hr p hp fun heq => hne (congrArg some heq)
      · -- the page that is granted is the holder's
        obtain rfl := List.mem_singleton.mp hp
        exact absurd rfl hne
  -- a page with something under way is not silent
  | ping pong last hp hpings =>
    refine iff_of_true (hs.setPage hp rfl rfl ?_) trivial
    rintro ⟨-, hnone, -⟩
    omega
  | unload hp hunloads =>
    refine iff_of_true (hs.setPage hp rfl rfl ?_) trivial
    rintro ⟨-, -, hnone⟩
    omega
  | page hp ha =>
    exact iff_of_true (hs.setPage hp rfl (Page.client_of_step ha) fun h => h.step ha) trivial

/-- The pages granted stay, and where there is none more, nothing was granted. -/
theorem length_pages_step {e : Event} (h : s.step e = some s') :
    s.pages.length ≤ s'.pages.length ∧
      (s'.pages.length = s.pages.length → s.GrantsQuietly e) := by
  cases moves_of_step h with
  | redirected client hr => exact ⟨le_rfl, fun _ hr' => by simp [hr] at hr'⟩
  | granted client hr => simp
  | ping | unload | page => exact ⟨by simp [setPage], fun _ => trivial⟩

/-! ## Exclusion -/

/-- A silent page of another browser does nothing. -/
theorem OthersSilent.not_intrudes {e : Event} (hs : s.OthersSilent)
    (h : s.step e = some s') : ¬ s.Intrudes e := by
  have hsilent : ∀ {i : Nat} {p : Page}, s.pages[i]? = some p → s.clientOf i ≠ s.holder →
      p.Silent := by
    intro i p hp hne
    rw [clientOf, hp] at hne
    exact hs p (List.mem_of_getElem? hp) hne
  cases moves_of_step h with
  -- these answer nobody's ping
  | redirected | granted | page => exact fun hin => hin
  | ping pong last hp hpings =>
    rintro ⟨-, hne⟩
    -- a page that has pings under way is not silent
    have hnone := (hsilent hp hne).2.1
    omega
  | unload hp hunloads =>
    rintro ⟨-, hne⟩
    have hnone := (hsilent hp hne).2.2
    omega

/-- Whatever the server's clock shows, there is a later time at which the last ping is
    recent: only the seconds within a day are compared. -/
theorem exists_recent (s : Session) : ∃ now, s.clock ≤ now ∧ s.recent now = true := by
  refine ⟨s.gLastPing + 86400000000 * (|s.clock| + |s.gLastPing|), ?_, ?_⟩
  · have h₁ := le_abs_self s.clock
    have h₂ := neg_abs_le s.gLastPing
    have h₃ := abs_nonneg s.clock
    have h₄ := abs_nonneg s.gLastPing
    omega
  · apply decide_eq_true
    unfold seconds pingTimeout
    omega

/-- Until the page is granted again, the pages of other browsers stay silent. -/
theorem OthersSilent.run {es : List Event} (hs : s.OthersSilent)
    (h : Machine.run step s es = some s') (hlen : s'.pages.length = s.pages.length) :
    s'.OthersSilent := by
  have hrun := Machine.run_history
    (P := fun _ t => s.pages.length ≤ t.pages.length ∧
      (t.pages.length = s.pages.length → t.OthersSilent)) ⟨le_rfl, fun _ => hs⟩ ?_ h
  · exact hrun.2 hlen
  · rintro es t e u - ⟨hle, ht⟩ he
    obtain ⟨hle', hquiet⟩ := length_pages_step he
    refine ⟨hle.trans hle', ?_⟩
    intro hu
    have htlen : t.pages.length = s.pages.length := by omega
    exact (othersSilent_step_iff (ht htlen) he).mpr (hquiet (by omega))

theorem exists_step_ping {i : Nat} {p : Page} {now : Int} (hp : s.pages[i]? = some p)
    (hnow : s.clock ≤ now) (hpings : 0 < p.pings) : ∃ u, s.step (.ping i now) = some u := by
  simp [step, hp, hnow, hpings]

theorem exists_step_unload {i : Nat} {p : Page} {now : Int} (hp : s.pages[i]? = some p)
    (hnow : s.clock ≤ now) (hunloads : 0 < p.unloads) :
    ∃ u, s.step (.unload i now) = some u := by
  simp [step, hp, hnow, hunloads]

/-- No page of another browser can interfere exactly when these pages are silent. -/
theorem exclusive_iff : s.Exclusive ↔ s.OthersSilent := by
  constructor
  · intro h p hp hne
    obtain ⟨i, hi⟩ := List.mem_iff_getElem?.mp hp
    obtain ⟨now, hnow, hrecent⟩ := s.exists_recent
    have hclient : s.clientOf i ≠ s.holder := by
      rw [clientOf, hi]
      exact hne
    -- what it has under way arrives, and so does the next ping of a page that goes on
    have hpings : p.pings = 0 := by
      by_contra hpos
      obtain ⟨u, hu⟩ := exists_step_ping hi hnow (Nat.pos_of_ne_zero hpos)
      exact h [] s _ u rfl rfl hu ⟨hrecent, hclient⟩
    have hunloads : p.unloads = 0 := by
      by_contra hpos
      obtain ⟨u, hu⟩ := exists_step_unload hi hnow (Nat.pos_of_ne_zero hpos)
      exact h [] s _ u rfl rfl hu ⟨hrecent, hclient⟩
    have hstopped : p.closed = true ∨ p.pingingStopped = true := by
      by_contra hgoes
      obtain ⟨hopen, hpinging⟩ := not_or.mp hgoes
      have hpage : s.step (.page i .pingServer) = some (s.setPage i p.pingServer) := by
        simp [step, hi, Page.step, hopen]
      have hi' : (s.setPage i p.pingServer).pages[i]? = some p.pingServer :=
        List.getElem?_set_of_some _ hi
      obtain ⟨u, hu⟩ : ∃ u, (s.setPage i p.pingServer).step (.ping i now) = some u :=
        exists_step_ping hi' hnow (by simp [Page.pingServer, hpinging])
      refine h [.page i .pingServer] _ _ u ?_ (by simp [setPage]) hu ⟨hrecent, ?_⟩
      · rw [Machine.run_cons, hpage]
        rfl
      · rw [holder_setPage hi rfl p.pingServer_client, clientOf, hi']
        show some p.pingServer.client ≠ s.holder
        rw [Page.pingServer_client]
        exact hne
    exact ⟨hstopped, hpings, hunloads⟩
  · intro hs es t e u ht hlen hu
    exact (hs.run ht hlen).not_intrudes hu

variable {clock : Int} {es : List Event}

/-- In every state of a run no other browser can interfere with the session granted last,
    exactly when the index page is only granted while the pages of all other browsers are
    silent. -/
theorem exclusive_session_iff (h : Machine.run step (init clock) es = some s) :
    Machine.Always step Exclusive (init clock) es ↔
      Machine.Meets step (fun _ => GrantsQuietly) (init clock) es := by
  refine Machine.always_iff_meets (exclusive_iff.mpr ?_) ?_ h
  -- there is no page at the start
  · intro p hp
    cases hp
  · intro t e u ht he
    rw [exclusive_iff] at ht ⊢
    exact othersSilent_step_iff ht he

/-- The page of browser 0 is asleep for eleven seconds, in which browser 1 is granted the
    page. -/
theorem ping_of_lapsed_page :
    ¬ ∀ clock es s, Machine.run step (init clock) es = some s →
      Machine.Always step Exclusive (init clock) es := by
  intro hall
  -- the second page is granted eleven seconds later, and then the first one pings
  let es : List Event := [.index 0 1349092800000000, .index 1 1349092811000000]
  obtain ⟨s, hs, hlen⟩ := Machine.exists_run_of_map step (init 1349092800000000) es
    (fun s => s.pages.length == 2) (by decide +kernel)
  obtain ⟨t, ht, hp⟩ := Machine.exists_run_of_map step (init 1349092800000000)
    (es ++ [.page 0 .pingServer])
    (fun t => t.pages.length == 2 && (t.step (.ping 0 1349092812000000)).isSome &&
      t.recent 1349092812000000 && t.clientOf 0 == some 0 && t.holder == some 1)
    (by decide +kernel)
  rw [Machine.run_append, hs] at ht
  simp only [Bool.and_eq_true, beq_iff_eq] at hlen hp
  obtain ⟨⟨⟨⟨htlen, hstep⟩, hrecent⟩, hclient⟩, hholder⟩ := hp
  obtain ⟨u, hu⟩ := Option.isSome_iff_exists.mp hstep
  have hexclusive := hall _ es s hs es [] (List.append_nil es).symm s hs
  refine hexclusive [.page 0 .pingServer] t _ u ht (htlen.trans hlen.symm) hu ⟨hrecent, ?_⟩
  rw [hclient, hholder]
  decide

/-- Browser 0 says goodbye before browser 1 asks for the page. -/
theorem exclusive_after_goodbye :
    ∃ s, Machine.run step (init 1349092800000000) [.index 0 1349092800000000,
        .page 0 .pingServer, .ping 0 1349092801000000, .page 0 (.pong 0), .page 0 .byeServer,
        .unload 0 1349092802000000, .index 1 1349092803000000] = some s ∧
      Machine.Always step Exclusive (init 1349092800000000) [.index 0 1349092800000000,
        .page 0 .pingServer, .ping 0 1349092801000000, .page 0 (.pong 0), .page 0 .byeServer,
        .unload 0 1349092802000000, .index 1 1349092803000000] := by
  obtain ⟨s, hs, -⟩ := Machine.exists_run_of_map step (init 1349092800000000)
    [.index 0 1349092800000000, .page 0 .pingServer, .ping 0 1349092801000000,
      .page 0 (.pong 0), .page 0 .byeServer, .unload 0 1349092802000000,
      .index 1 1349092803000000]
    (fun _ => true) (by decide +kernel)
  -- each page is granted after the other one has said goodbye
  refine ⟨s, hs, (exclusive_session_iff hs).mpr (Machine.meets_of_check
    (c := fun s e => decide (GrantsQuietly s e)) (fun _ _ _ hc => of_decide_eq_true hc) ?_)⟩
  decide +kernel

end Session

end WorkloadSimulator.Stress
