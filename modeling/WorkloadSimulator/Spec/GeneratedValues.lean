import WorkloadSimulator.ForStd.Decimal
import WorkloadSimulator.Spec.QueryTemplate

/-!
# The values of the generators

The workers tell their values apart by their prefixes, each worker its own by the counter,
which numbers and strings share. A string keeps the two apart by `|`, a number does not.

## Key results

- `new_numbers_differ_iff`: when the new numbers of two workers cannot be the same
- `substitutions_of_evalLog`: a query function puts the values in place of the tokens of its
  text, and the new numbers in place of `@`
- `evalLog_moves`: the values that a worker has made are those at the counters it went through
- `generated_values_distinct`: the numbers in the queries of a worker are different, and so are
  the strings of all workers
- `old_number_issued_iff`: when an old number is one that was new before
-/

namespace WorkloadSimulator.Stress

/-- `str` of a number is its decimal digits. -/
theorem str_eq (n : Nat) : str n = Nat.toDigits 10 n := Nat.toList_repr

theorem str_inj {m n : Nat} : str m = str n ↔ m = n := by
  rw [str_eq, str_eq, Nat.toDigits_inj]

/-- The number that a database reads a numeral as. -/
def key (numeral : Text) : Nat := Nat.ofDigitChars 10 numeral 0

/-! ## The numbers of two workers -/

/-- The numbers that two workers insert are different where they are read by `read`, at all
    values of the counters. -/
def NumbersDiffer {β : Type} (read : Text → β) (p q : Text) : Prop :=
  ∀ g g' h h' x y, getNewRandomNumber p g = some (x, g') → getNewRandomNumber q h = some (y, h') →
    read x ≠ read y

/-- The numerals are different. -/
def NumeralsDiffer (p q : Text) : Prop := NumbersDiffer id p q

/-- The keys that the numerals stand for are different. -/
def KeysDiffer (p q : Text) : Prop := NumbersDiffer key p q

/-- Two workers' numbers differ when they do at all values of the two counters. -/
theorem numbersDiffer_iff {β : Type} {read : Text → β} {p q : Text} :
    NumbersDiffer read p q ↔ ∀ c d, read (p ++ str c) ≠ read (q ++ str d) := by
  constructor
  · intro hall c d
    -- any counter is one of some state
    exact hall ⟨c, default, id⟩ _ ⟨d, default, id⟩ _ _ _ rfl rfl
  · intro hall g g' h h' x y hx hy
    cases hx
    cases hy
    exact hall _ _

/-- Behind one prefix, a key tells its counter. -/
theorem key_str_append_inj {a c d : Nat} : key (str a ++ str c) = key (str a ++ str d) ↔ c = d := by
  rw [key, key, str_eq, str_eq, str_eq, Nat.ofDigitChars_append_toDigits_inj]

/-- Behind the numeral of zero, a numeral stands for its own number: any key of another worker
    is also one of this worker. -/
theorem exists_key_eq (b d : Nat) : ∃ c, key (str 0 ++ str c) = key (str b ++ str d) := by
  refine ⟨key (str b ++ str d), ?_⟩
  rw [str_eq, str_eq, key, Nat.ofDigitChars_append_toDigits]
  simp

/-- Behind numerals of other numbers, the keys are the same exactly when the numerals are. -/
theorem key_eq_iff {a b : Nat} (ha : a ≠ 0) (hb : b ≠ 0) {c d : Nat} :
    key (str a ++ str c) = key (str b ++ str d) ↔ str a ++ str c = str b ++ str d := by
  refine ⟨fun h => ?_, fun h => by rw [h]⟩
  have hnum := congrArg (Nat.toDigits 10) h
  rwa [key, key, str_eq, str_eq, str_eq, str_eq, Nat.toDigits_ofDigitChars_append ha,
    Nat.toDigits_ofDigitChars_append hb, ← str_eq, ← str_eq, ← str_eq, ← str_eq] at hnum

/-- The numerals of two workers differ exactly when neither prefix is the other continued by a
    digit other than zero. Their keys do when besides neither prefix is zero. -/
theorem new_numbers_differ_iff {u v : Nat} (h : workerPrefix u ≠ workerPrefix v) :
    (NumeralsDiffer (workerPrefix u) (workerPrefix v) ↔
      ¬ Nat.ExtendsDigits (prefixNumber u) (prefixNumber v) ∧
        ¬ Nat.ExtendsDigits (prefixNumber v) (prefixNumber u)) ∧
    (KeysDiffer (workerPrefix u) (workerPrefix v) ↔
      (¬ Nat.ExtendsDigits (prefixNumber u) (prefixNumber v) ∧
        ¬ Nat.ExtendsDigits (prefixNumber v) (prefixNumber u)) ∧
      prefixNumber u ≠ 0 ∧ prefixNumber v ≠ 0) := by
  unfold workerPrefix at h ⊢
  generalize prefixNumber u = a at h ⊢
  generalize prefixNumber v = b at h ⊢
  have hab : a ≠ b := fun hab => h (by rw [hab])
  -- numerals behind the prefixes differ unless one prefix continues the other
  have hnum : NumeralsDiffer (str a) (str b) ↔
      ¬ Nat.ExtendsDigits a b ∧ ¬ Nat.ExtendsDigits b a := by
    rw [NumeralsDiffer, numbersDiffer_iff, ← not_or, ← Nat.exists_append_toDigits_eq_iff hab]
    simp [str_eq]
  refine ⟨hnum, ?_⟩
  rw [← hnum, NumeralsDiffer, KeysDiffer, numbersDiffer_iff, numbersDiffer_iff]
  constructor
  · intro hkeys
    refine ⟨fun c d heq => hkeys c d (congrArg key heq), ?_, ?_⟩
    -- a prefix that is zero is lost in a key
    · rintro rfl
      obtain ⟨c, hc⟩ := exists_key_eq b 0
      exact hkeys c 0 hc
    · rintro rfl
      obtain ⟨d, hd⟩ := exists_key_eq a 0
      exact hkeys 0 d hd.symm
  · rintro ⟨hnumerals, ha, hb⟩ c d heq
    exact hnumerals c d ((key_eq_iff ha hb).mp heq)

/-- The worker with the prefix 1 at 23 and that with the prefix 12 at 3 both insert 123. -/
theorem new_numbers_collide :
    ¬ ∀ u v, workerPrefix u ≠ workerPrefix v →
      NumeralsDiffer (workerPrefix u) (workerPrefix v) := by
  intro hall
  exact hall 1 12 (by decide) ⟨23, default, id⟩ _ ⟨3, default, id⟩ _ _ _ rfl rfl (by decide)

/-- The prefixes 1 and 2. -/
theorem new_numbers_differ_of_digits :
    NumeralsDiffer (workerPrefix 1) (workerPrefix 2) ∧
      KeysDiffer (workerPrefix 1) (workerPrefix 2) := by
  -- a numeral of one digit continues no other
  have hnot : ∀ a b, Nat.toDigits 10 b = ['2'] ∧ Nat.toDigits 10 a = ['1'] ∨
      Nat.toDigits 10 b = ['1'] ∧ Nat.toDigits 10 a = ['2'] → ¬ Nat.ExtendsDigits a b := by
    rintro a b h ⟨x, t, -, hb⟩
    rcases h with ⟨h, h'⟩ | ⟨h, h'⟩ <;> rw [h, h'] at hb <;> simp at hb
  have hext := hnot (prefixNumber 1) (prefixNumber 2) (.inl (by decide))
  have hext' := hnot (prefixNumber 2) (prefixNumber 1) (.inr (by decide))
  have hiff := new_numbers_differ_iff (u := 1) (v := 2) (by decide)
  exact ⟨hiff.1.mpr ⟨hext, hext'⟩, hiff.2.mpr ⟨⟨hext, hext'⟩, by decide, by decide⟩⟩

/-! ## What a worker has made -/

/-- The expressions that move the counter. -/
def Expr.moves : Expr → Bool
  | .getRandomString _ | .getNewRandomNumber => true
  | _ => false

def Expr.isNewNumber : Expr → Bool
  | .getNewRandomNumber => true
  | _ => false

def Expr.isString : Expr → Bool
  | .getRandomString 32 => true
  | _ => false

/-- Evaluate expressions from left to right, keeping each of them with its value. -/
def evalLog (pfx : Text) (build : List Expr) : Gen (List (Expr × Text)) :=
  build.mapM fun x => do return (x, ← x.eval pfx)

/-- A worker evaluates its query functions one after the other. A query that an interrupt has
    cut short is one with fewer expressions. -/
def runQueries (pfx : Text) (queries : List (List Expr)) : Gen (List (List (Expr × Text))) :=
  queries.mapM (evalLog pfx)

/-- The values in a log of what has `p`. -/
def valuesOf {α : Type} (p : α → Bool) (log : List (α × Text)) : List Text :=
  (log.filter fun e => p e.1).map Prod.snd

/-- The value of an expression that moves the counter, at the counter `k`. -/
def valueAt (pfx : Text) (k : Nat) : Expr → Text
  | .getRandomString n => (pfx ++ '|' :: str k).take n
  | _ => pfx ++ str k

/-- The log of one more expression. -/
theorem evalLog_cons (pfx : Text) (x : Expr) (build : List Expr) :
    evalLog pfx (x :: build) = do
      let a ← x.eval pfx
      let log ← evalLog pfx build
      return (x, a) :: log := by
  simp [evalLog]

/-- The log of two functions, one after the other. -/
theorem evalLog_append (pfx : Text) (build build' : List Expr) :
    evalLog pfx (build ++ build') = do
      let log ← evalLog pfx build
      let log' ← evalLog pfx build'
      return log ++ log' := by
  rw [evalLog, List.mapM_append]
  rfl

/-- The queries of a worker are one sequence of expressions. -/
theorem evalLog_flatten (pfx : Text) (queries : List (List Expr)) :
    evalLog pfx queries.flatten = do return (← runQueries pfx queries).flatten := by
  induction queries with
  | nil => simp [runQueries, evalLog]
  | cons build queries ih =>
    rw [List.flatten_cons, evalLog_append, ih]
    simp [runQueries]

/-- The queries of a run evaluate their expressions in one sequence. -/
theorem evalLog_of_runQueries {pfx : Text} {queries : List (List Expr)} {g g' : GenState}
    {logs : List (List (Expr × Text))} (h : runQueries pfx queries g = some (logs, g')) :
    evalLog pfx queries.flatten g = some (logs.flatten, g') := by
  rw [evalLog_flatten]
  exact Option.bind_eq_some_iff.mpr ⟨_, h, rfl⟩

section run

variable {pfx : Text} {x : Expr} {build : List Expr} {g g' : GenState} {log : List (Expr × Text)}

/-- What an expression that moves the counter gives, and how it moves it. -/
theorem eval_of_moves (hx : x.moves = true) :
    x.eval pfx g = some (valueAt pfx g.counter x, { g with counter := g.counter + 1 }) := by
  cases x with
  | getRandomString n | getNewRandomNumber => rfl
  | repr s | getOldRandomNumber | getRandomTime | getGlobalMarker => cases hx

/-- Any other expression leaves the counter. -/
theorem counter_eval (hx : x.moves = false) {a : Text} (h : x.eval pfx g = some (a, g')) :
    g'.counter = g.counter := by
  cases x with
  | getRandomString n | getNewRandomNumber => cases hx
  | repr s | getOldRandomNumber | getGlobalMarker =>
    cases h
    rfl
  | getRandomTime =>
    -- the clock may overflow
    obtain ⟨⟨t, g₁⟩, hclock, h⟩ := Option.bind_eq_some_iff.mp h
    cases h
    rfl

/-- The values that a worker has made are those at the counters from the first one on, in
    their order, without a gap. -/
theorem evalLog_moves (h : evalLog pfx build g = some (log, g')) :
    (log.filter fun e => e.1.moves) =
        ((build.filter Expr.moves).zipIdx g.counter).map (fun e => (e.1, valueAt pfx e.2 e.1)) ∧
      g'.counter = g.counter + (build.filter Expr.moves).length := by
  induction build generalizing g log with
  | nil =>
    cases h
    exact ⟨rfl, rfl⟩
  | cons x build ih =>
    rw [evalLog_cons] at h
    obtain ⟨⟨a, g₁⟩, ha, h⟩ := Option.bind_eq_some_iff.mp h
    obtain ⟨⟨log₁, g₂⟩, hlog, h⟩ := Option.bind_eq_some_iff.mp h
    cases h
    obtain ⟨hvalues, hcounter⟩ := ih hlog
    cases hx : x.moves with
    -- an expression that moves the counter takes its value and leaves the next one
    | true =>
      rw [eval_of_moves hx] at ha
      cases ha
      simp only [List.filter_cons, hx, if_true, List.zipIdx_cons, List.map_cons, hvalues,
        List.length_cons, true_and]
      exact hcounter.trans (Nat.add_right_comm _ _ _)
    | false =>
      rw [counter_eval hx ha] at hvalues hcounter
      simp [hx, hvalues, hcounter]

/-- The values of some of the expressions that move the counter. -/
theorem valuesOf_eq {p : Expr → Bool} (hp : ∀ x, p x = true → x.moves = true)
    (h : evalLog pfx build g = some (log, g')) :
    valuesOf p log = (((build.filter Expr.moves).zipIdx g.counter).filter fun e => p e.1).map
      fun e => valueAt pfx e.2 e.1 := by
  -- such a value is among those of the expressions that move the counter, whose places are known
  have hfilter : (log.filter fun e => p e.1) =
      (log.filter fun e => e.1.moves).filter fun e => p e.1 := by
    rw [List.filter_filter]
    refine List.filter_congr fun e _ => ?_
    cases hpe : p e.1 with
    | true => simp [hp _ hpe]
    | false => rfl
  rw [valuesOf, hfilter, (evalLog_moves h).1, List.filter_map, List.map_map]
  rfl

/-- Values that tell the counter are made only once. -/
theorem nodup_valuesOf {β : Type} {read : Text → β} {p : Expr → Bool}
    (hp : ∀ x, p x = true → x.moves = true) (h : evalLog pfx build g = some (log, g'))
    (hinj : ∀ x y k l, p x = true → p y = true → k < g'.counter → l < g'.counter →
      read (valueAt pfx k x) = read (valueAt pfx l y) → k = l) :
    ((valuesOf p log).map read).Nodup := by
  rw [valuesOf_eq hp h, List.map_map, List.Nodup, List.pairwise_map]
  -- the expressions that move the counter see it rise
  have hlt : ((build.filter Expr.moves).zipIdx g.counter).Pairwise fun e f => e.2 < f.2 := by
    rw [← List.pairwise_map (f := Prod.snd), List.zipIdx_map_snd]
    exact List.pairwise_lt_range'
  refine (hlt.filter _).imp_of_mem ?_
  intro e f he hf hef heq
  obtain ⟨he, hpe⟩ := List.mem_filter.mp he
  obtain ⟨hf, hpf⟩ := List.mem_filter.mp hf
  have hbound := (evalLog_moves h).2
  have heb := List.snd_lt_add_of_mem_zipIdx he
  have hfb := List.snd_lt_add_of_mem_zipIdx hf
  have hkl := hinj e.1 f.1 e.2 f.2 hpe hpf (by omega) (by omega) heq
  omega

/-! ## Within a worker and across workers -/

theorem isNewNumber_iff : x.isNewNumber = true ↔ x = .getNewRandomNumber := by
  cases x <;> simp [Expr.isNewNumber]

theorem isString_iff : x.isString = true ↔ x = .getRandomString 32 := by
  unfold Expr.isString
  split <;> simp_all

/-- A new number moves the counter. -/
theorem moves_of_isNewNumber (h : x.isNewNumber = true) : x.moves = true := by
  rw [isNewNumber_iff.mp h]
  rfl

/-- So does a string. -/
theorem moves_of_isString (h : x.isString = true) : x.moves = true := by
  rw [isString_iff.mp h]
  rfl

/-- The string at a counter below `10 ^ 26` is not cut. -/
theorem take_string (u : Nat) {k : Nat} (hk : k < 10 ^ 26) :
    (workerPrefix u ++ '|' :: str k).take 32 = workerPrefix u ++ '|' :: str k := by
  -- a prefix has five digits at most, so that 26 are left for the counter
  have hnum : prefixNumber u < 10 ^ 5 := by
    have hle : u &&& (2 ^ 16 - 1) ≤ 2 ^ 16 - 1 := Nat.and_le_right
    rw [prefixNumber]
    omega
  have hpfx : (workerPrefix u).length ≤ 5 := by
    rw [workerPrefix, str_eq]
    exact (Nat.length_toDigits_le_iff (by decide) (by decide)).mpr hnum
  have hstr : (str k).length ≤ 26 := by
    rw [str_eq]
    exact (Nat.length_toDigits_le_iff (by decide) (by decide)).mpr hk
  apply List.take_of_length_le
  rw [List.length_append, List.length_cons]
  omega

/-- No numeral contains a `|`: a string tells its prefix and its counter. -/
theorem string_inj {p q : Text} {k l : Nat} (h : p ++ '|' :: str k = q ++ '|' :: str l) :
    p = q ∧ k = l := by
  -- the digits of the counters have no `|`, so the last one is the separator
  have hno : ∀ n, ∀ c ∈ str n, (c == '|') = false := by
    intro n c hc
    rw [str_eq] at hc
    rw [beq_eq_false_iff_ne]
    rintro rfl
    exact absurd (Nat.isDigit_toDigits _ hc) (by decide)
  obtain ⟨hpq, -, hkl⟩ := List.append_cons_inj_of_last (p := (· == '|')) h rfl rfl (hno k) (hno l)
  exact ⟨hpq, str_inj.mp hkl⟩

/-- A string that was made below the counter `10 ^ 26`. -/
theorem exists_of_mem_strings {u : Nat} {a : Text} (hg : g'.counter ≤ 10 ^ 26)
    (h : evalLog (workerPrefix u) build g = some (log, g'))
    (ha : a ∈ valuesOf Expr.isString log) : ∃ k, a = workerPrefix u ++ '|' :: str k := by
  rw [valuesOf_eq (fun x => moves_of_isString) h] at ha
  obtain ⟨e, he, rfl⟩ := List.mem_map.mp ha
  obtain ⟨he, hp⟩ := List.mem_filter.mp he
  have hlt := List.snd_lt_add_of_mem_zipIdx he
  -- the counter has not gone beyond the bound, as it only grows
  have hbound := (evalLog_moves h).2
  refine ⟨e.2, ?_⟩
  rw [isString_iff.mp hp]
  exact take_string u (by omega)

end run

/-! ## The values in queries -/

/-- A worker calls the function of a text. If `cut` is a number, an interrupt comes when so many
    of its expressions have been evaluated, and no query is made. -/
structure Call where
  text : Text
  cut : Option Nat

/-- The expressions that a call evaluates, for a text that compiles. -/
def Call.build (c : Call) : Option (List Expr) :=
  (generateQueryFunction c.text).map fun f => c.cut.elim f f.take

/-- `query_gen.query_f(prefix)`: the query, unless there is an interrupt. -/
def Call.run (pfx : Text) (c : Call) : Gen (Option Text) := fun g =>
  c.build.bind fun f => (queryF f pfx g).map fun (query, g') =>
    (if c.cut.isNone then some query else none, g')

/-- A call that has been made, with the globals before it and its query. -/
structure Made where
  call : Call
  start : GenState
  query : Option Text

/-- A worker makes calls one after the other. -/
def runCalls (pfx : Text) (calls : List Call) : Gen (List Made) :=
  calls.mapM fun c => do return ⟨c, ← get, ← c.run pfx⟩

/-- What a text is read as, with the values that are put in place of it. -/
def substitutions (pfx text : Text) : Gen (List (Lexeme × Text)) :=
  (lexemes text).mapM fun x => do return (x, ← x.value (decide (Selects text)) pfx)

/-- The values that are put in place of `@` in the query of a call, if that is no `select`. -/
def Made.numbers (pfx : Text) (m : Made) : List Text :=
  if m.query.isSome ∧ ¬ Selects m.call.text then
    valuesOf (· == .number) (((substitutions pfx m.call.text m.start).map Prod.fst).getD [])
  else []

/-- The values of `get_random_string(prefix, 32)` in a call, whether it gives a query or not. -/
def Made.strings (pfx : Text) (m : Made) : List Text :=
  valuesOf Expr.isString
    ((m.call.build.bind fun f => (evalLog pfx f m.start).map Prod.fst).getD [])

/-- The value of an entry with `p`. -/
def picked {α : Type} (p : α → Bool) (e : α × Text) : List Text := if p e.1 then [e.2] else []

/-- The values of some expressions are picked one by one. -/
theorem valuesOf_eq_flatMap {α : Type} (p : α → Bool) (log : List (α × Text)) :
    valuesOf p log = log.flatMap (picked p) := by
  induction log with
  | nil => rfl
  | cons e log ih =>
    rw [List.flatMap_cons, ← ih, valuesOf, valuesOf, List.filter_cons, picked]
    split <;> simp

/-- A query function puts together what its expressions give. -/
theorem queryF_eq (build : List Expr) (pfx : Text) :
    queryF build pfx = (fun log => log.flatMap Prod.snd) <$> evalLog pfx build := by
  rw [queryF, evalLog, ← List.concatM_eq_map_log]
  simp

/-- A query is what stands in place of its lexemes, put together. -/
theorem substitute_eq (pfx text : Text) :
    substitute pfx text = (fun log => log.flatMap Prod.snd) <$> substitutions pfx text := by
  rw [substitute, substitutions, ← List.concatM_eq_map_log]
  simp

/-- A function of the result leaves the state. -/
theorem map_run {α β : Type} (f : α → β) (x : Gen α) (g : GenState) :
    (f <$> x) g = (x g).map fun y => (f y.1, y.2) := by
  show (x g).bind (fun y => some (f y.1, y.2)) = _
  cases x g <;> rfl

/-- The new numbers among the expressions for an element are those for its `@`. -/
theorem newNumbers_buildPiece (pfx : Text) {q : Text}
    (hq : q ∈ allParamTokens ∨ Clear allParamTokens q) :
    List.concatM (fun x => do return picked Expr.isNewNumber (x, ← x.eval pfx))
        (buildPiece (parsePiece false q)) =
      List.concatM (fun x => do return picked (· == .number) (x, ← x.value false pfx))
        (lexemes q) := by
  rcases hq with hq | hclear
  -- the four tokens: each is one lexeme, and its value is that of the one expression that counts
  · rcases mem_allParamTokens.mp hq with rfl | rfl | rfl | rfl
    · exact (List.concatM_singleton _ _).trans (List.concatM_singleton _ _).symm
    · have hlex : lexemes timeToken = [.time] := rfl
      have hbuild : buildPiece (parsePiece false timeToken) = [.getRandomTime] := rfl
      rw [hlex, hbuild, List.concatM_singleton, List.concatM_singleton, eval_getRandomTime_eq false]
      rfl
    · exact (List.concatM_singleton _ _).trans (List.concatM_singleton _ _).symm
    · have hlex : lexemes stringToken = [.string] := rfl
      have hbuild : buildPiece (parsePiece false stringToken) =
          [.repr quote, .getRandomString 32, .repr quote] := rfl
      rw [hlex, hbuild, List.concatM_singleton]
      simp only [List.concatM_cons, List.concatM_nil]
      rfl
  -- a piece without tokens: neither its text nor its characters are numbers
  · have hexpr : List.concatM
        (fun x : Expr => do return picked Expr.isNewNumber (x, ← x.eval pfx)) [.repr q] =
        pure [] := List.concatM_singleton _ _
    have hchars : List.concatM
        (fun x : Lexeme => do return picked (· == Lexeme.number) (x, ← x.value false pfx))
        (q.map Lexeme.char) =
        pure (q.flatMap fun _ => []) :=
      List.concatM_map_pure _ _ fun c _ => rfl
    rw [buildPiece_of_clear false hclear, lexemes_of_clear hclear.ne, hexpr, hchars,
      List.flatMap_eq_nil_iff.mpr fun _ _ => rfl]

/-- What the function of a text puts together is the text with the values in place of its
    tokens, and its new numbers are the values in place of `@` unless it is a `select`. -/
theorem substitutions_of_evalLog {text pfx : Text} {f : List Expr} {g g' : GenState}
    {log : List (Expr × Text)} (hf : generateQueryFunction text = some f)
    (hlog : evalLog pfx f g = some (log, g')) :
    ∃ values, substitutions pfx text g = some (values, g') ∧
      values.flatMap Prod.snd = log.flatMap Prod.snd ∧
      (¬ Selects text → valuesOf (· == .number) values = valuesOf Expr.isNewNumber log) := by
  -- the text has a first word, or nothing would have been compiled
  obtain ⟨w, hw⟩ : ∃ w, firstWord (firstPiece text) = some w := by
    have hsome : (generateQueryFunction text).isSome = true := by rw [hf]; rfl
    rw [generateQueryFunction_eq, Option.isSome_map] at hsome
    exact Option.isSome_iff_exists.mp hsome
  obtain ⟨select, hselect⟩ : ∃ select, decide (Selects text) = select := ⟨_, rfl⟩
  have hword : isSelect w = select := by
    rw [← hselect, Bool.eq_iff_iff, decide_eq_true_iff, selects_iff hw]
  rw [generateQueryFunction_eq, hw, Option.map_some, hword] at hf
  obtain rfl := Option.some.inj hf
  -- the query is put together in both ways
  have hquery := congrFun (queryF_flatMap_buildPiece select pfx text) g
  have hmeant : List.concatM (Lexeme.value select pfx) (lexemes text) = substitute pfx text := by
    rw [substitute, hselect]
  rw [hmeant, queryF_eq, substitute_eq, map_run, map_run, hlog, Option.map_some] at hquery
  obtain ⟨⟨values, g₁⟩, hvalues, heq⟩ := Option.map_eq_some_iff.mp hquery.symm
  obtain ⟨hout, rfl⟩ := Prod.mk.inj heq
  refine ⟨values, hvalues, hout, fun hno => ?_⟩
  -- and so are the new numbers
  obtain rfl : select = false := by rw [← hselect, decide_eq_false hno]
  have hnumbers : List.concatM (fun x : Expr => do return picked Expr.isNewNumber (x, ← x.eval pfx))
      (((tokenizeQuery text).map (parsePiece false)).flatMap buildPiece) =
      List.concatM (fun x => do return picked (· == .number) (x, ← x.value false pfx))
        (lexemes text) := by
    rw [← flatMap_tokenizeQuery, List.flatMap_map]
    exact List.concatM_flatMap_congr fun q hq =>
      newNumbers_buildPiece pfx ((tokenized text).mem_or_clear q hq)
  rw [List.concatM_eq_map_log, List.concatM_eq_map_log] at hnumbers
  have hrun := congrFun hnumbers g
  rw [map_run, map_run] at hrun
  rw [substitutions, hselect] at hvalues
  rw [evalLog] at hlog
  rw [hlog, hvalues, Option.map_some, Option.map_some] at hrun
  rw [valuesOf_eq_flatMap, valuesOf_eq_flatMap]
  exact (Prod.mk.inj (Option.some.inj hrun)).1.symm

/-- What a call evaluates, what it gives, and the numbers and strings that it makes. -/
theorem evalLog_of_run {pfx : Text} {c : Call} {g g' : GenState} {query : Option Text}
    (h : c.run pfx g = some (query, g')) :
    ∃ f log, c.build = some f ∧ evalLog pfx f g = some (log, g') ∧
      Made.strings pfx ⟨c, g, query⟩ = valuesOf Expr.isString log ∧
      (Made.numbers pfx ⟨c, g, query⟩).Sublist (valuesOf Expr.isNewNumber log) ∧
      ∀ q ∈ query, ∃ values g'', substitutions pfx c.text g = some (values, g'') ∧
        q = values.flatMap Prod.snd := by
  obtain ⟨f, hf, h⟩ := Option.bind_eq_some_iff.mp h
  obtain ⟨⟨q, g₁⟩, hq, heq⟩ := Option.map_eq_some_iff.mp h
  cases heq
  -- by the definition of a call, it is compiled and its expressions are evaluated
  rw [queryF_eq, map_run] at hq
  obtain ⟨⟨log, g₂⟩, hlog, heq⟩ := Option.map_eq_some_iff.mp hq
  cases heq
  have hstrings : Made.strings pfx ⟨c, g, if c.cut.isNone then some (log.flatMap Prod.snd) else none⟩ =
      valuesOf Expr.isString log := by
    simp [Made.strings, hf, hlog]
  refine ⟨f, log, hf, hlog, hstrings, ?_⟩
  obtain ⟨text, cut⟩ := c
  cases cut with
  -- an interrupt behind some of the expressions: no query, and no number that is used
  | some n => exact ⟨by simp [Made.numbers], by simp⟩
  | none =>
    have hcompiled : generateQueryFunction text = some f := by simpa [Call.build] using hf
    obtain ⟨values, hvalues, hout, hnumbers⟩ := substitutions_of_evalLog hcompiled hlog
    refine ⟨?_, fun q hq => ⟨values, _, hvalues, ?_⟩⟩
    · by_cases hselects : Selects text
      · simp [Made.numbers, hselects]
      · simp [Made.numbers, hselects, hvalues, hnumbers hselects]
    · rw [hout]
      exact (Option.some.inj hq).symm

/-- The calls of a worker evaluate one sequence of expressions. -/
theorem evalLog_of_runCalls {pfx : Text} {calls : List Call} {g g' : GenState} {made : List Made}
    (h : runCalls pfx calls g = some (made, g')) :
    ∃ build log, evalLog pfx build g = some (log, g') ∧
      made.flatMap (Made.strings pfx) = valuesOf Expr.isString log ∧
      (made.flatMap (Made.numbers pfx)).Sublist (valuesOf Expr.isNewNumber log) ∧
      ∀ m ∈ made, ∀ q ∈ m.query, ∃ values g'',
        substitutions pfx m.call.text m.start = some (values, g'') ∧
          q = values.flatMap Prod.snd := by
  -- induction on the calls: the state goes from each to the next
  induction calls generalizing g made with
  | nil =>
    cases h
    exact ⟨[], [], rfl, rfl, .slnil, by simp⟩
  | cons c calls ih =>
    -- the first call and then the rest, from the state that it leaves
    have hcons : runCalls pfx (c :: calls) g = (c.run pfx g).bind fun x =>
        (runCalls pfx calls x.2).map fun y => (⟨c, g, x.1⟩ :: y.1, y.2) := by
      show StateT.run (List.mapM _ (c :: calls)) g = _
      rw [List.mapM_cons]
      show ((c.run pfx g).bind fun x => some (Made.mk c g x.1, x.2)).bind (fun y =>
        (runCalls pfx calls y.2).bind fun z => some (y.1 :: z.1, z.2)) = _
      cases c.run pfx g with
      | none => rfl
      | some x => cases h : runCalls pfx calls x.2 <;> simp [h]
    rw [hcons] at h
    obtain ⟨⟨query, g₁⟩, hrun, h⟩ := Option.bind_eq_some_iff.mp h
    obtain ⟨⟨made', g₂⟩, hmade, heq⟩ := Option.map_eq_some_iff.mp h
    cases heq
    obtain ⟨f, log, -, hlog, hstrings, hnumbers, hquery⟩ := evalLog_of_run hrun
    obtain ⟨build, log', hlog', hstrings', hnumbers', hquery'⟩ := ih hmade
    refine ⟨f ++ build, log ++ log', ?_, ?_, ?_, List.forall_mem_cons.mpr ⟨hquery, hquery'⟩⟩
    · rw [evalLog_append]
      exact Option.bind_eq_some_iff.mpr ⟨_, hlog, Option.bind_eq_some_iff.mpr ⟨_, hlog', rfl⟩⟩
    · rw [List.flatMap_cons, hstrings, hstrings', valuesOf, valuesOf, valuesOf, List.filter_append,
        List.map_append]
    · rw [List.flatMap_cons, valuesOf, List.filter_append, List.map_append]
      exact hnumbers.append hnumbers'

/-- In every sequence of calls of a worker, each query is the text with its values, the numbers
    that are put in place of `@` in the queries that are no `select` are different, and so are
    the strings below the counter `10 ^ 26`. Strings of workers with different prefixes are
    different, too. -/
theorem generated_values_distinct {u : Nat} {calls : List Call} {g g' : GenState}
    {made : List Made} (hrun : runCalls (workerPrefix u) calls g = some (made, g')) :
    (∀ m ∈ made, ∀ q ∈ m.query, ∃ values g'',
      substitutions (workerPrefix u) m.call.text m.start = some (values, g'') ∧
        q = values.flatMap Prod.snd) ∧
    ((made.flatMap (Made.numbers (workerPrefix u))).map key).Nodup ∧
    (g'.counter ≤ 10 ^ 26 →
      (made.flatMap (Made.strings (workerPrefix u))).Nodup ∧
      ∀ v calls' h h' made', workerPrefix u ≠ workerPrefix v →
        runCalls (workerPrefix v) calls' h = some (made', h') → h'.counter ≤ 10 ^ 26 →
        (made.flatMap (Made.strings (workerPrefix u))).Disjoint
          (made'.flatMap (Made.strings (workerPrefix v)))) := by
  obtain ⟨build, log, hlog, hstrings, hnumbers, hqueries⟩ := evalLog_of_runCalls hrun
  refine ⟨hqueries, ?_, ?_⟩
  -- the numbers are among the new numbers of one sequence, and these differ by their counters
  · refine ((hnumbers.map key).nodup) (nodup_valuesOf (fun x => moves_of_isNewNumber) hlog ?_)
    intro x y k l hx hy _ _ heq
    rw [isNewNumber_iff.mp hx, isNewNumber_iff.mp hy] at heq
    exact key_str_append_inj.mp heq
  · intro hg
    rw [hstrings]
    constructor
    -- the strings of one worker, by their counters
    · rw [← List.map_id (valuesOf _ _)]
      refine nodup_valuesOf (fun x => moves_of_isString) hlog ?_
      intro x y k l hx hy hk hl heq
      rw [isString_iff.mp hx, isString_iff.mp hy] at heq
      -- neither string is cut off, so the counters can be told from them
      have hstr := (take_string u (by omega)).symm.trans (heq.trans (take_string u (by omega)))
      exact (string_inj hstr).2
    -- the strings of two workers, by their prefixes
    · intro v calls' h h' made' huv hrun' hh a ha hb
      obtain ⟨build', log', hlog', hstrings', -, -⟩ := evalLog_of_runCalls hrun'
      rw [hstrings'] at hb
      obtain ⟨k, rfl⟩ := exists_of_mem_strings hg hlog ha
      obtain ⟨l, hl⟩ := exists_of_mem_strings hh hlog' hb
      exact huv (string_inj hl).1

/-- Queries of a worker across a change of length, with an interrupt between them. -/
def insertCalls : List Call :=
  [⟨"ins @,^".toList, none⟩, ⟨"ins ^".toList, some 3⟩, ⟨"ins @@^".toList, none⟩]

/-- They have three numbers, and the interrupt is behind the second of three strings. -/
theorem generated_values_of_insert :
    ∃ made g', runCalls (workerPrefix 7) insertCalls ⟨9, default, id⟩ = some (made, g') ∧
      made.flatMap (Made.numbers (workerPrefix 7)) =
        ["79".toList, "712".toList, "713".toList] ∧
      ((made.flatMap (Made.numbers (workerPrefix 7))).map key).Nodup ∧
      (made.flatMap (Made.strings (workerPrefix 7))).length = 3 ∧
      (made.flatMap (Made.strings (workerPrefix 7))).Nodup ∧
      ∀ calls' h h' made', runCalls (workerPrefix 70) calls' h = some (made', h') →
        h'.counter ≤ 10 ^ 26 →
          (made.flatMap (Made.strings (workerPrefix 7))).Disjoint
            (made'.flatMap (Made.strings (workerPrefix 70))) := by
  -- the run is computed, and its numbers and the length of its strings are read off
  have hany : (runCalls (workerPrefix 7) insertCalls ⟨9, default, id⟩).any (fun x =>
      x.1.flatMap (Made.numbers (workerPrefix 7)) == ["79".toList, "712".toList, "713".toList] &&
        (x.1.flatMap (Made.strings (workerPrefix 7))).length == 3 &&
        decide (x.2.counter ≤ 10 ^ 26)) = true := by
    decide +kernel
  obtain ⟨⟨made, g'⟩, hrun, hvalues⟩ := (Option.any_eq_true _ _).mp hany
  simp only [Bool.and_eq_true, beq_iff_eq, decide_eq_true_eq] at hvalues
  obtain ⟨⟨hnumbers, hstrings⟩, hcounter⟩ := hvalues
  obtain ⟨-, hkeys, hbelow⟩ := generated_values_distinct hrun
  obtain ⟨hnodup, hdisjoint⟩ := hbelow hcounter
  exact ⟨made, g', hrun, hnumbers, hkeys, hstrings, hnodup,
    fun calls' h h' made' => hdisjoint 70 calls' h h' made' (by decide)⟩

/-! ## Old numbers -/

/-- A worker with the counter `c` at first has made a new number at the counter `k`. -/
def IssuedAt (c : Nat) (build : List Expr) (k : Nat) : Prop :=
  c ≤ k ∧ (build.filter Expr.moves)[k - c]? = some .getNewRandomNumber

/-- The new numbers of a worker are those at the counters at which it has made one. -/
theorem mem_newNumbers_iff {pfx : Text} {build : List Expr} {g g' : GenState}
    {log : List (Expr × Text)} (h : evalLog pfx build g = some (log, g')) (k : Nat) :
    pfx ++ str k ∈ valuesOf Expr.isNewNumber log ↔ IssuedAt g.counter build k := by
  rw [valuesOf_eq (fun x => moves_of_isNewNumber) h, List.mem_map]
  -- a new number tells the counter at which it was made, and the expression at that place
  constructor
  · rintro ⟨⟨x, l⟩, he, hvalue⟩
    obtain ⟨he, hx⟩ := List.mem_filter.mp he
    obtain rfl := isNewNumber_iff.mp hx
    obtain rfl : l = k := str_inj.mp (List.append_cancel_left hvalue)
    exact ⟨List.le_snd_of_mem_zipIdx he, (List.mk_mem_zipIdx_iff_le_and_getElem?_sub.mp he).2⟩
  · intro hissued
    exact ⟨(.getNewRandomNumber, k),
      List.mem_filter.mpr ⟨List.mk_mem_zipIdx_iff_le_and_getElem?_sub.mpr hissued, rfl⟩, rfl⟩

/-- An old number is one that the worker made as a new number before exactly when the number
    drawn is the counter at which it made one: not below the counter that it inherited, not
    the present counter, and not one that went into a string. -/
theorem old_number_issued_iff {pfx : Text} {queries : List (List Expr)} {g g' g₁ g₂ : GenState}
    {logs : List (List (Expr × Text))} {k : Nat} {x : Text}
    (hrun : runQueries pfx queries g = some (logs, g'))
    (hdraw : randint 1 (max g'.counter 2) g' = some (k, g₁))
    (hold : getOldRandomNumber pfx g' = some (x, g₂)) :
    x ∈ valuesOf Expr.isNewNumber logs.flatten ↔ IssuedAt g.counter queries.flatten k := by
  cases hdraw
  cases hold
  exact mem_newNumbers_iff (evalLog_of_runQueries hrun) _

/-- Three queries that insert a number. -/
def threeInserts : List (List Expr) :=
  [[.getNewRandomNumber], [.getNewRandomNumber], [.getNewRandomNumber]]

/-- After three new numbers from zero on, the present counter is drawn. -/
theorem old_number_not_issued :
    ¬ ∀ pfx queries g logs g' x g₂, runQueries pfx queries g = some (logs, g') →
      3 ≤ (valuesOf Expr.isNewNumber logs.flatten).length →
      getOldRandomNumber pfx g' = some (x, g₂) →
      x ∈ valuesOf Expr.isNewNumber logs.flatten := by
  -- the state after three new numbers from zero on has the counter 3, which is drawn
  intro hall
  have hmem := hall (workerPrefix 1) threeInserts ⟨0, default, fun _ => 2⟩ _ _ _ _ rfl
    (by decide) rfl
  exact absurd hmem (by decide)

/-- After three new numbers from zero on, two is drawn. -/
theorem old_number_issued :
    ∃ logs g' x g₂, runQueries (workerPrefix 1) threeInserts ⟨0, default, fun _ => 1⟩ =
        some (logs, g') ∧
      getOldRandomNumber (workerPrefix 1) g' = some (x, g₂) ∧
      x ∈ valuesOf Expr.isNewNumber logs.flatten :=
  ⟨_, _, _, _, rfl, rfl, (@old_number_issued_iff (workerPrefix 1) threeInserts
    ⟨0, default, fun _ => 1⟩ _ _ _ _ 2 _ rfl rfl rfl).mpr ⟨by decide, rfl⟩⟩

end WorkloadSimulator.Stress
