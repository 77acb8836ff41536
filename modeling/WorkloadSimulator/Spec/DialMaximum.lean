import WorkloadSimulator.ForStd.Machine
import WorkloadSimulator.Page.DialSettings

/-!
# The maximum of the dials

The buttons for the maximum keep it a positive whole number, also where it is rounded. Two
things do not: `setMaxDialValue` compares with `NaN`, which nothing equals, and takes whatever
`parseInt` returns, and the page of the Go app caches settings without a maximum until its
settings have been updated.

## Key results

- `nextDialMaxValue_pos`: the buttons, from any positive number
- `nextDialMaxValue_eq`: where the numbers are small, nothing is rounded
- `positive_iff`: the maximum stays positive, and bad texts leave it, exactly when there are no
  bad texts and no settings without a maximum are loaded
-/

namespace WorkloadSimulator

open JsNumber

namespace JsValue

def isPositive : JsValue → Bool
  | .number x => x.isPositive
  | _ => false

def isUndefined : JsValue → Bool
  | .undefined => true
  | _ => false

end JsValue

namespace DialSettings

/-! ## The buttons -/

/-- Rounding up and a step keep a number positive. -/
theorem nextDialMaxValue_pos {x : JsNumber} (hx : x.isPositive = true) (plus : Bool) :
    (nextDialMaxValue x plus).isPositive = true := by
  -- the constants of the source are represented exactly
  obtain ⟨h₀, zero⟩ := ofInt_of_lt (n := 0) (by norm_num)
  obtain ⟨h₁, one⟩ := ofInt_of_lt (n := 1) (by norm_num)
  obtain ⟨h₂, step⟩ := ofInt_of_lt (n := 5000) (by norm_num)
  obtain ⟨h₃, most⟩ := ofInt_of_lt (n := 5000 - 1) (by norm_num)
  cases x with
  | nan | infinity => cases hx
  | int n hn =>
    have hpos : 0 < n := isPositive_int.mp hx
    -- rounded up, a positive number is at least 5000
    obtain ⟨a, ha, hsum, hle⟩ :=
      exists_ofInt_add_eq_int hn (d := 5000 - 1) (by norm_num) (by omega)
    have ha5000 := hle 5000 (by norm_num) (by omega)
    have hmod : a.tmod 5000 = a % 5000 := Int.tmod_eq_emod_of_nonneg (by omega)
    obtain ⟨b, hb, hmultiple, hle⟩ :=
      exists_ofInt_add_eq_int ha (d := -(a.tmod 5000)) (by omega) (by omega)
    have hb5000 := hle 5000 (by norm_num) (by omega)
    -- turned up it is positive; turned down it is not negative
    obtain ⟨c, hc, hup, hle⟩ := exists_ofInt_add_eq_int hb (d := 5000) (by norm_num) (by omega)
    have hc5000 := hle 5000 (by norm_num) (by omega)
    obtain ⟨c', hc', hdown, hle⟩ :=
      exists_ofInt_add_eq_int hb (d := -5000) (by norm_num) (by omega)
    have hc0 := hle 0 (by norm_num) (by omega)
    have hadd : (JsNumber.int n hn).add (.int (5000 - 1) h₃) = .int a ha := hsum
    obtain ⟨hr, hrem⟩ := rem_int (m := a) (n := 5000) (by norm_num)
    have hsub : (JsNumber.int a ha).sub (.int (a.tmod 5000) hr) = .int b hb := hmultiple
    have hplus : (JsNumber.int b hb).add (.int 5000 h₂) = .int c hc := hup
    have hminus : (JsNumber.int b hb).sub (.int 5000 h₂) = .int c' hc' := hdown
    unfold nextDialMaxValue
    dsimp only
    rw [most, step, zero, one, hadd, hrem, hsub, hplus, hminus]
    cases plus with
    | true =>
      have hne : (JsNumber.int c hc).eq (.int 0 h₀) = false := beq_eq_false_iff_ne.mpr (by omega)
      rw [if_pos rfl, hne, if_neg Bool.false_ne_true, isPositive_int]
      omega
    | false =>
      rw [if_neg Bool.false_ne_true]
      split
      · exact isPositive_int.mpr one_pos
      · rename_i hne
        have hzero : c' ≠ 0 := by
          rintro rfl
          exact hne rfl
        rw [isPositive_int]
        omega

/-- Where nothing is rounded, the buttons do what they do to exact integers. -/
theorem nextDialMaxValue_eq {n : Int} {hn : n.natAbs ≤ maxValue} (hpos : 0 < n)
    (hlt : n < 2 ^ 52) (plus : Bool) :
    ∃ h, nextDialMaxValue (.int n hn) plus = .int (Client.nextDialMaxValue n plus) h := by
  have hmod : (n + (5000 - 1)).tmod 5000 = (n + (5000 - 1)) % 5000 :=
    Int.tmod_eq_emod_of_nonneg (by omega)
  -- below 2^52 every intermediate result is an integer that is represented exactly
  obtain ⟨h₀, zero⟩ := ofInt_of_lt (n := 0) (by norm_num)
  obtain ⟨h₁, one⟩ := ofInt_of_lt (n := 1) (by norm_num)
  obtain ⟨h₂, step⟩ := ofInt_of_lt (n := 5000) (by norm_num)
  obtain ⟨h₃, most⟩ := ofInt_of_lt (n := 5000 - 1) (by norm_num)
  obtain ⟨ha, hsum⟩ := ofInt_of_lt (n := n + (5000 - 1)) (by omega)
  obtain ⟨hr, hrem⟩ := rem_int (m := n + (5000 - 1)) (n := 5000) (by norm_num)
  obtain ⟨hb, hmultiple⟩ :=
    ofInt_of_lt (n := n + (5000 - 1) - (n + (5000 - 1)).tmod 5000) (by omega)
  obtain ⟨hc, hup⟩ :=
    ofInt_of_lt (n := n + (5000 - 1) - (n + (5000 - 1)).tmod 5000 + 5000) (by omega)
  obtain ⟨hc', hdown⟩ :=
    ofInt_of_lt (n := n + (5000 - 1) - (n + (5000 - 1)).tmod 5000 - 5000) (by omega)
  have hadd : (JsNumber.int n hn).add (.int (5000 - 1) h₃) = _ := hsum
  have hsub : (JsNumber.int _ ha).sub (.int _ hr) = _ := hmultiple
  have hplus : (JsNumber.int _ hb).add (.int 5000 h₂) = _ := hup
  have hminus : (JsNumber.int _ hb).sub (.int 5000 h₂) = _ := hdown
  -- the function computes with these numbers
  unfold nextDialMaxValue Client.nextDialMaxValue
  dsimp only
  rw [most, step, zero, one, hadd, hrem, hsub, hplus, hminus]
  -- the maximum is never set to zero
  have hif : ∀ (m : Int) (h : m.natAbs ≤ maxValue),
      ∃ h', (if (JsNumber.int m h).eq (.int 0 h₀) then .int 1 h₁ else .int m h) =
        JsNumber.int (if m = 0 then 1 else m) h' := by
    intro m h
    by_cases hm : m = 0
    · subst hm
      exact ⟨h₁, rfl⟩
    · have hne : (JsNumber.int m h).eq (.int 0 h₀) = false := beq_eq_false_iff_ne.mpr hm
      simp only [hne, hm, if_false]
      exact ⟨h, rfl⟩
  cases plus with
  | true => exact hif _ hc
  | false => exact hif _ hc'

/-! ## The settings -/

/-- A positive maximum, or none. -/
def Stored (v : JsValue) : Prop := v.isPositive = true ∨ v = .undefined

/-- What is kept of the maximum besides itself is positive or missing. -/
structure Sound (s : DialSettings) : Prop where
  gSettings : Stored s.gSettings
  settingsCache : ∀ v ∈ s.settingsCache, Stored v
  files : ∀ v ∈ s.files, Stored v

/-- A text that is no positive number leaves the maximum. -/
def Rejects (s : DialSettings) : Event → Prop
  | .setMaxDialValue v => (JsNumber.parseInt v).isPositive = false →
      (s.setMaxDialValue v).dialMaxValue = s.dialMaxValue
  | _ => True

/-- A text for the maximum is a positive number, and settings that are loaded have a
    maximum. -/
def KeepsPositive (s : DialSettings) : Event → Prop
  | .setMaxDialValue v => (JsNumber.parseInt v).isPositive = true
  | .upload n => ∀ v ∈ s.files[n]?, v.isUndefined = false
  | .reload => ∀ v ∈ s.settingsCache, v.isUndefined = false
  | _ => True

instance (s : DialSettings) : (e : Event) → Decidable (s.KeepsPositive e)
  | .setMaxDialValue _ => inferInstanceAs (Decidable (_ = _))
  | .upload _ | .reload => inferInstanceAs (Decidable (∀ v ∈ _, JsValue.isUndefined v = false))
  | .updateDialValue _ | .settingsUpdated | .cacheSettings | .saveWorkload | .enable _ =>
    .isTrue trivial

variable {site : Site} {s u : DialSettings} {v : JsValue}

/-- A value that is stored comes back from the text as it was. -/
theorem Stored.json (hv : Stored v) : Stored v.json := by
  rcases hv with hv | rfl
  · cases v with
    | undefined | null => cases hv
    | number x => cases x <;> first | cases hv | exact .inl hv
  · exact .inr rfl

/-- A stored value is positive unless it is undefined. -/
theorem Stored.isPositive_iff (hv : Stored v) : v.isPositive = true ↔ v.isUndefined = false := by
  cases v with
  | undefined => simp [JsValue.isPositive, JsValue.isUndefined]
  | null | number => exact iff_of_true (hv.resolve_right (by simp)) rfl

/-- The comparison with `NaN` never stops anything. -/
theorem setMaxDialValue_eq (s : DialSettings) (v : String) :
    s.setMaxDialValue v = { s with dialMaxValue := .number (parseInt v) } := by
  have hne : ∀ x : JsNumber, x.eq .nan = false := by
    intro x
    -- no number is equal to `NaN`, not even `NaN`
    cases x <;> rfl
  unfold setMaxDialValue
  dsimp only
  rw [hne]
  rfl

/-- A page without a cache gets its maximum from the server. -/
theorem reload_of_none (h : s.settingsCache = none) :
    s.reload site = { s with
      dialMaxValue := .number (.ofInt 10000)
      gSettings := deliveredSettings site (.number (.ofInt 10000))
      dialValueEnabled := true } := by
  simp [reload, loadCachedSettings, h]

/-- Another one gets its maximum from the cache. -/
theorem reload_of_some (h : s.settingsCache = some v) :
    s.reload site = { s with
      dialMaxValue := v
      gSettings := v
      dialValueEnabled := true } := by
  simp [reload, loadCachedSettings, loadSettings, updateSettings, h]

/-- Each event keeps what is stored, and the maximum exactly when it keeps positive. -/
theorem isPositive_step_iff {e : Event} (hs : s.Sound) (hpos : s.dialMaxValue.isPositive = true)
    (h : s.step site e = some u) :
    u.Sound ∧ (u.dialMaxValue.isPositive = true ↔ s.KeepsPositive e) := by
  obtain ⟨hsettings, hcache, hfiles⟩ := hs
  cases e with
  | updateDialValue plus =>
    obtain rfl := Option.some.inj h
    unfold updateDialValue
    split
    -- a locked dial keeps its maximum; another one turns a positive one up or down
    · exact ⟨⟨hsettings, hcache, hfiles⟩, iff_of_true hpos trivial⟩
    · refine ⟨⟨hsettings, hcache, hfiles⟩, iff_of_true ?_ trivial⟩
      cases hdial : s.dialMaxValue with
      | undefined | null =>
        rw [hdial] at hpos
        cases hpos
      | number x =>
        rw [hdial] at hpos
        exact nextDialMaxValue_pos hpos plus
  | setMaxDialValue v =>
    obtain rfl := Option.some.inj h
    rw [setMaxDialValue_eq]
    exact ⟨⟨hsettings, hcache, hfiles⟩, Iff.rfl⟩
  | settingsUpdated =>
    obtain rfl := Option.some.inj h
    exact ⟨⟨.inl hpos, hcache, hfiles⟩, iff_of_true hpos trivial⟩
  | cacheSettings =>
    obtain rfl := Option.some.inj h
    refine ⟨⟨hsettings, fun v hv => ?_, hfiles⟩, iff_of_true hpos trivial⟩
    obtain rfl := Option.some.inj hv
    exact hsettings.json
  | saveWorkload =>
    obtain rfl := Option.some.inj h
    cases site with
    | app => exact ⟨⟨hsettings, hcache, hfiles⟩, iff_of_true hpos trivial⟩
    | stress =>
      refine ⟨⟨hsettings, hcache, fun v hv => ?_⟩, iff_of_true hpos trivial⟩
      rcases List.mem_append.mp hv with hv | hv
      · exact hfiles v hv
      · obtain rfl := List.mem_singleton.mp hv
        exact hsettings.json
  | upload n =>
    obtain ⟨v, hv, rfl⟩ := Option.map_eq_some_iff.mp h
    -- a stored maximum comes back as it was, unless it was not a number
    have hstored := hfiles v (List.mem_of_getElem? hv)
    refine ⟨⟨hstored, fun w hw => ?_, hfiles⟩, ?_⟩
    · obtain rfl := Option.some.inj hw
      exact hstored.json
    · show v.isPositive = true ↔ ∀ w ∈ s.files[n]?, w.isUndefined = false
      rw [hstored.isPositive_iff, hv]
      simp
  | reload =>
    obtain rfl := Option.some.inj h
    have hdefault : (JsNumber.ofInt 10000).isPositive = true := by decide +kernel
    -- without a cache the page begins with the maximum that the server delivers
    have hdelivered : Stored (deliveredSettings site (.number (.ofInt 10000))) := by
      cases site with
      | app => exact .inr rfl
      | stress => exact .inl hdefault
    cases hsome : s.settingsCache with
    | none =>
      rw [reload_of_none hsome]
      refine ⟨⟨hdelivered, hcache, hfiles⟩, iff_of_true hdefault ?_⟩
      intro v hv
      rw [hsome] at hv
      cases hv
    | some v =>
      have hstored := hcache v hsome
      rw [reload_of_some hsome]
      refine ⟨⟨hstored, hcache, hfiles⟩, ?_⟩
      show v.isPositive = true ↔ ∀ w ∈ s.settingsCache, w.isUndefined = false
      rw [hstored.isPositive_iff, hsome]
      simp
  | enable enabled =>
    obtain rfl := Option.some.inj h
    exact ⟨⟨hsettings, hcache, hfiles⟩, iff_of_true hpos trivial⟩

/-! ## Runs -/

variable {x : JsNumber} {es : List Event}

/-- From a positive maximum, in every run the maximum stays positive and texts that are no
    positive number leave it, exactly when there are no such texts and no settings without a
    maximum are loaded. -/
theorem positive_iff (hx : x.isPositive = true)
    (h : Machine.run (step site) (init site x) es = some s) :
    (Machine.Always (step site) (fun s => s.dialMaxValue.isPositive = true) (init site x) es ∧
      Machine.Meets (step site) (fun _ => Rejects) (init site x) es) ↔
      Machine.Meets (step site) (fun _ => KeepsPositive) (init site x) es := by
  have hiff := Machine.always_iff_meets_of_invariant (I := Sound)
    (P := fun s => s.dialMaxValue.isPositive = true) ?_ ?_
    (fun t e u ht hpos he => isPositive_step_iff ht hpos he) h
  · rw [hiff, and_iff_left_iff_imp]
    -- no settings that would not do are accepted
    intro hmeets pre e post heq t ht
    have hkeeps := hmeets pre e post heq t ht
    cases e with
    | setMaxDialValue v => exact fun hbad => absurd (hbad.symm.trans hkeeps) Bool.false_ne_true
    | _ => trivial
  · refine ⟨?_, fun v hv => (by cases hv), fun v hv => (by cases hv)⟩
    cases site with
    | app => exact .inr rfl
    | stress => exact .inl hx
  · exact hx

/-- A text that is no number. -/
theorem nan_maximum :
    ¬ ∀ x : JsNumber, x.isPositive = true → ∀ es s,
      Machine.run (step .app) (init .app x) es = some s →
        Machine.Always (step .app) (fun s => s.dialMaxValue.isPositive = true) (init .app x) es ∧
          Machine.Meets (step .app) (fun _ => Rejects) (init .app x) es := by
  intro hall
  -- the only event sets the maximum to `NaN`
  have hpos := (hall (.ofInt 10000) (by decide +kernel) [.setMaxDialValue "abc"] _ rfl).1
    [.setMaxDialValue "abc"] [] rfl _ rfl
  have hnan : ((init .app (.ofInt 10000)).setMaxDialValue "abc").dialMaxValue.isPositive = false := by
    decide +kernel
  exact absurd (hnan.symm.trans hpos) Bool.false_ne_true

/-- A button, a new maximum, and the settings, which are updated before they are cached and
    the page is loaded again. -/
theorem positive_after_reload :
    ∃ s, Machine.run (step .app) (init .app (.ofInt 7)) [.updateDialValue false,
        .setMaxDialValue " 250 per second", .settingsUpdated, .cacheSettings, .reload,
        .updateDialValue true] = some s ∧
      Machine.Always (step .app) (fun s => s.dialMaxValue.isPositive = true)
        (init .app (.ofInt 7)) [.updateDialValue false,
        .setMaxDialValue " 250 per second", .settingsUpdated, .cacheSettings, .reload,
        .updateDialValue true] := by
  refine ⟨_, rfl, ((positive_iff (by decide +kernel) rfl).mpr (Machine.meets_of_check
    (c := fun s e => decide (s.KeepsPositive e)) (fun _ _ _ hc => of_decide_eq_true hc) ?_)).1⟩
  decide +kernel

end DialSettings

end WorkloadSimulator
