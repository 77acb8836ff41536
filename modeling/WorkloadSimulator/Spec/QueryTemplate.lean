import WorkloadSimulator.Stress.QueryTable

/-!
# What a query template means

The meaning of a query text, read from left to right: `@M` is the prefix, `@T` the next
timestamp, any other `@` a number, `^` a quoted string, and every other character itself. The
values are made of the counter, the clock and the numbers drawn, whatever the generators of
`query_table.py` do. The function that `generate_query_function` compiles the text to has this
meaning, although it splits the text in four passes, one for each token.

## Key results

- `lexemes_append`: a text can be read on both sides of the beginning of a token
- `flatMap_tokenizeQuery`: the four passes split a text as it is read
- `head_tokenizeQuery`: the query type is taken from the text before the first token
- `firstWord_eq_some_iff`: what the first word of a text is
- `query_function_meaning`: the function compiled from a text gives what the text means, and
  how far it moves the counter
-/

namespace WorkloadSimulator.Stress

/-! ## The meaning of a text -/

/-- What a text is read as. -/
inductive Lexeme where
  | char (c : Char)
  | mark
  | time
  | number
  | string
  deriving DecidableEq

/-- A character that does not begin a token of two characters. -/
def lexeme (c : Char) : Lexeme :=
  if c = '@' then .number else if c = '^' then .string else .char c

/-- Read a text from left to right. -/
def lexemes : Text → List Lexeme
  | [] => []
  | [c] => [lexeme c]
  | c :: d :: s =>
    if c = '@' ∧ d.toLower = 'm' then .mark :: lexemes s
    else if c = '@' ∧ d.toLower = 't' then .time :: lexemes s
    else lexeme c :: lexemes (d :: s)

/-- The text before the first token. -/
def firstPiece (text : Text) : Text := text.takeWhile fun c => c != '@' && c != '^'

/-- A text has a character other than white space before its first token. -/
def BeginsWithWord (text : Text) : Prop := ∃ c ∈ firstPiece text, isSpace c = false

/-- `w` is a word of `s`, and only white space stands before it. -/
structure IsFirstWord (w s : Text) : Prop where
  ne_nil : w ≠ []
  noSpace : ∀ c ∈ w, isSpace c = false
  stands : ∃ a b, s = a ++ w ++ b ∧ (∀ c ∈ a, isSpace c = true) ∧ ∀ c ∈ b.head?, isSpace c = true

/-- The first word before the first token is `select`, in any case of its letters. -/
def Selects (text : Text) : Prop :=
  ∃ w, IsFirstWord w (firstPiece text) ∧ w.map Char.toLower = "select".toList

/-! ## The first word -/

/-- What `firstWord` finds is the first word. -/
theorem isFirstWord_of_firstWord {s w : Text} (h : firstWord s = some w) : IsFirstWord w s := by
  have hword : (s.dropWhile isSpace).takeWhile (fun c => !isSpace c) = w ∧ w ≠ [] := by
    unfold firstWord at h
    split at h
    · cases h
    · rename_i hne
      obtain rfl := Option.some.inj h
      exact ⟨rfl, hne⟩
  obtain ⟨rfl, hne⟩ := hword
  refine ⟨hne, fun c hc => by simpa using List.mem_takeWhile_imp hc, s.takeWhile isSpace,
    (s.dropWhile isSpace).dropWhile fun c => !isSpace c, ?_,
    fun c hc => List.mem_takeWhile_imp hc, fun c hc => ?_⟩
  -- white space, the word and the rest are the text
  · rw [List.append_assoc, List.takeWhile_append_dropWhile, List.takeWhile_append_dropWhile]
  · -- the word ends where white space begins
    have hhead := List.head?_dropWhile_not (fun c => !isSpace c) (s.dropWhile isSpace)
    rw [Option.mem_def.mp hc] at hhead
    simpa using hhead

/-- The first word is what `firstWord` finds. -/
theorem firstWord_of_isFirstWord {s w : Text} (h : IsFirstWord w s) : firstWord s = some w := by
  obtain ⟨hne, hno, a, b, rfl, ha, hb⟩ := h
  cases w with
  | nil => exact absurd rfl hne
  | cons c w =>
    rw [List.forall_mem_cons] at hno
    -- the white space in front is dropped
    have hdrop : (a ++ c :: w ++ b).dropWhile isSpace = c :: w ++ b := by
      rw [List.append_assoc, List.dropWhile_append_of_pos ha, List.cons_append,
        List.dropWhile_cons_of_neg (by simp [hno.1])]
    have hrest : b.takeWhile (fun c => !isSpace c) = [] := by
      cases b with
      | nil => rfl
      | cons d b => rw [List.takeWhile_cons_of_neg (by simp [hb d rfl])]
    -- and of the rest the word is taken, up to the white space behind it
    have htake : (c :: w ++ b).takeWhile (fun c => !isSpace c) = c :: w := by
      rw [List.takeWhile_append_of_pos, hrest, List.append_nil]
      simpa [hno.1] using hno.2
    rw [firstWord, hdrop, htake]

/-- `firstWord` as a description of the text. -/
theorem firstWord_eq_some_iff {s w : Text} : firstWord s = some w ↔ IsFirstWord w s :=
  ⟨isFirstWord_of_firstWord, firstWord_of_isFirstWord⟩

/-- A text has a word unless it is all white space. -/
theorem isSome_firstWord_iff (s : Text) :
    (firstWord s).isSome = true ↔ ∃ c ∈ s, isSpace c = false := by
  cases hs : s.dropWhile isSpace with
  | nil =>
    have hall := List.dropWhile_eq_nil_iff.mp hs
    simp only [firstWord, hs, List.takeWhile_nil, Option.isSome_none, Bool.false_eq_true,
      false_iff, not_exists, not_and]
    intro c hc
    simp [hall c hc]
  | cons c t =>
    -- the rest begins with the first character that is no space
    have hc : isSpace c = false := by
      have hhead := List.head?_dropWhile_not isSpace s
      rw [hs] at hhead
      simpa using hhead
    have hmem : c ∈ s := by
      apply (List.dropWhile_sublist isSpace).subset
      rw [hs]
      exact List.mem_cons_self
    simp only [firstWord, hs, List.takeWhile_cons, hc]
    exact iff_of_true rfl ⟨c, hmem, hc⟩

/-- The query type that `parse_query` finds. -/
theorem selects_iff {text w : Text} (hw : firstWord (firstPiece text) = some w) :
    Selects text ↔ isSelect w = true := by
  rw [isSelect, beq_iff_eq]
  constructor
  · rintro ⟨w', hw', hselect⟩
    obtain rfl := Option.some.inj (hw.symm.trans (firstWord_eq_some_iff.mpr hw'))
    exact hselect
  · exact fun hselect => ⟨w, firstWord_eq_some_iff.mp hw, hselect⟩

instance (text : Text) : Decidable (Selects text) :=
  match hw : firstWord (firstPiece text) with
  | some _ => decidable_of_iff' _ (selects_iff hw)
  | none => .isFalse fun h => by
      obtain ⟨w, hw', -⟩ := h
      rw [firstWord_eq_some_iff.mpr hw'] at hw
      cases hw

/-! ## The values of the tokens -/

/-- The value of a lexeme in a query, and what it leaves of the counter, the clock and the
    numbers drawn. -/
def Lexeme.value (select : Bool) (pfx : Text) (x : Lexeme) : Gen Text := fun g =>
  match x with
  | .char c => some ([c], g)
  | .mark => some (pfx, g)
  -- the time of the clock, which then goes on by a second
  | .time => g.globalTime.addSecond.map fun t =>
      (str g.globalTime.currentTime, { g with globalTime := t })
  | .number =>
    -- a number up to the counter is drawn, or the counter itself is taken
    if select then
      some (pfx ++ str (1 + g.random 0 % max g.counter 2),
        { g with random := fun n => g.random (n + 1) })
    else some (pfx ++ str g.counter, { g with counter := g.counter + 1 })
  | .string =>
    some ('\'' :: ((pfx ++ '|' :: str g.counter).take 32 ++ ['\'']),
      { g with counter := g.counter + 1 })

/-- The text with the values in place of its tokens. -/
def substitute (pfx text : Text) : Gen Text :=
  List.concatM (Lexeme.value (decide (Selects text)) pfx) (lexemes text)

/-! ## Reading on both sides of a token -/

/-- A character that can be the second of a token. -/
def isSecond (c : Char) : Bool := c.toLower == 'm' || c.toLower == 't'

/-- A character before one that ends no token is read by itself. -/
theorem lexemes_cons_cons {c d : Char} (s : Text) (hd : isSecond d = false) :
    lexemes (c :: d :: s) = lexeme c :: lexemes (d :: s) := by
  obtain ⟨hm, ht⟩ : ¬ d.toLower = 'm' ∧ ¬ d.toLower = 't' := by simpa [isSecond] using hd
  rw [lexemes, if_neg (by simp [hm]), if_neg (by simp [ht])]

/-- Only `@` begins a token of two characters. -/
theorem lexemes_cons_of_ne {c : Char} (hc : c ≠ '@') (s : Text) :
    lexemes (c :: s) = lexeme c :: lexemes s := by
  cases s with
  | nil => rfl
  | cons d s => rw [lexemes, if_neg (fun h => hc h.1), if_neg (fun h => hc h.1)]

/-- A text can be read on both sides of a character that no token ends with. -/
theorem lexemes_append (p : Text) {c : Char} (s : Text) (hc : isSecond c = false) :
    lexemes (p ++ c :: s) = lexemes p ++ lexemes (c :: s) := by
  -- the induction is that of `lexemes`: no text, one character, or two that may be a token
  induction p using lexemes.induct with
  | case1 => rfl
  | case2 d => exact lexemes_cons_cons s hc
  | case3 a b p hm ih => simp [lexemes, hm, ih]
  | case4 a b p hm ht ih => simp [lexemes, ht, ih]
  | case5 a b p hm ht ih =>
    have hcons : b :: p ++ c :: s = b :: (p ++ c :: s) := rfl
    rw [hcons] at ih
    simp [lexemes, hm, ht, ih]

/-! ## Matches -/

/-- A character that is no letter is the lower case of itself only. -/
theorem toLower_eq_iff {c d : Char} (hd : d.isUpper = false) (hd' : d.isLower = false) :
    c.toLower = d ↔ c = d := by
  constructor
  · intro h
    -- a capital would become a small letter
    by_cases hc : c.isUpper = true
    · have hlower : c.toLower.isLower = true := by simp [Char.isAlpha, hc]
      rw [h, hd'] at hlower
      cases hlower
    · rw [← h, Char.toLower_eq_of_not_isUpper hc]
  · rintro rfl
    exact Char.toLower_eq_of_not_isUpper (by simp [hd])

/-- A token matches at the beginning of a text, whatever the case of its letters. -/
theorem matchesToken_iff {c s : Text} :
    matchesToken c s = true ↔ c.map Char.toLower <+: s.map Char.toLower := by
  rw [matchesToken, List.isPrefixOf_iff_prefix]

/-- A match is a hit: it takes as many characters as the token has, and more text does not undo
    it. -/
theorem isHit_matchesToken {c : Text} (hc : c ≠ []) : List.IsHit c.length (matchesToken c) where
  pos := List.length_pos_of_ne_nil hc
  nil := by
    cases c with
    | nil => exact absurd rfl hc
    | cons => rfl
  append s t h := by
    rw [matchesToken_iff] at h ⊢
    rw [List.map_append]
    exact h.trans (List.prefix_append _ _)

theorem matchesToken_self (c : Text) : matchesToken c c = true := matchesToken_iff.mpr List.prefix_rfl

/-- A sign matches where it stands. -/
theorem matchesToken_sign {x : Char} (hx : x.isUpper = false) (hx' : x.isLower = false)
    {s : Text} : matchesToken [x] s = true ↔ ∃ r, s = x :: r := by
  rw [matchesToken_iff]
  cases s with
  | nil => simp
  | cons c s =>
    have hself : x.toLower = x := (toLower_eq_iff hx hx').mpr rfl
    simp only [List.map_cons, List.map_nil, List.cons_prefix_cons, List.nil_prefix, and_true,
      hself, List.cons.injEq, exists_and_left, exists_eq', eq_comm (a := x),
      toLower_eq_iff hx hx']

/-- A token with a letter matches in both cases of the letter. -/
theorem matchesToken_letter {x : Char} {s : Text} :
    matchesToken ['@', x] s = true ↔ ∃ d r, s = '@' :: d :: r ∧ d.toLower = x.toLower := by
  have hself : '@'.toLower = '@' := by decide
  rw [matchesToken_iff]
  -- a text of two characters or more begins with the sign and the letter, or does not match
  match s with
  | [] => simp
  | [c] => simp
  | c :: d :: s =>
    simp only [List.map_cons, List.map_nil, List.cons_prefix_cons, List.nil_prefix, and_true,
      hself, List.cons.injEq, eq_comm (a := '@'),
      toLower_eq_iff (d := '@') (by decide) (by decide), eq_comm (a := x.toLower)]
    constructor
    · rintro ⟨hc, hd⟩
      exact ⟨d, s, ⟨hc, rfl, rfl⟩, hd⟩
    · rintro ⟨d', r, ⟨hc, rfl, rfl⟩, hd⟩
      exact ⟨hc, hd⟩

/-- The four tokens. -/
theorem mem_allParamTokens {c : Text} : c ∈ allParamTokens ↔
    c = markToken ∨ c = timeToken ∨ c = numberToken ∨ c = stringToken := by
  simp [allParamTokens]

/-- Every token begins with `@` or `^`. -/
theorem exists_cons_of_matchesToken {c s : Text} (hc : c ∈ allParamTokens)
    (h : matchesToken c s = true) : ∃ x r, s = x :: r ∧ (x = '@' ∨ x = '^') := by
  -- by the token: two have a letter behind the sign, and two are the sign alone
  rcases mem_allParamTokens.mp hc with rfl | rfl | rfl | rfl
  · obtain ⟨d, r, rfl, -⟩ := matchesToken_letter.mp h
    exact ⟨_, _, rfl, .inl rfl⟩
  · obtain ⟨d, r, rfl, -⟩ := matchesToken_letter.mp h
    exact ⟨_, _, rfl, .inl rfl⟩
  · obtain ⟨r, rfl⟩ := (matchesToken_sign (by decide) (by decide)).mp h
    exact ⟨_, _, rfl, .inl rfl⟩
  · obtain ⟨r, rfl⟩ := (matchesToken_sign (by decide) (by decide)).mp h
    exact ⟨_, _, rfl, .inr rfl⟩

/-- A token is read as such, if it is not an `@` with which a longer one begins. -/
theorem lexemes_of_matchesToken {c s : Text} (hc : c ∈ allParamTokens)
    (h : matchesToken c s = true)
    (hlonger : c = numberToken →
      matchesToken markToken s = false ∧ matchesToken timeToken s = false) :
    lexemes s = lexemes c ++ lexemes (s.drop c.length) := by
  -- the parameter's lexeme is decided by its second character, or by the first one alone
  rcases mem_allParamTokens.mp hc with rfl | rfl | rfl | rfl
  · obtain ⟨d, r, rfl, hd⟩ := matchesToken_letter.mp h
    have hd : d.toLower = 'm' := hd
    simp [lexemes, hd, markToken]
  · obtain ⟨d, r, rfl, hd⟩ := matchesToken_letter.mp h
    have hd : d.toLower = 't' := hd
    simp [lexemes, hd, timeToken]
  · obtain ⟨r, rfl⟩ := (matchesToken_sign (by decide) (by decide)).mp h
    obtain ⟨hmark, htime⟩ := hlonger rfl
    cases r with
    | nil => rfl
    | cons d r =>
      -- `@M` and `@T` have been split off before
      have hm : ¬ d.toLower = 'm' := by
        intro hd
        rw [markToken, (matchesToken_letter (x := 'M')).mpr ⟨d, r, rfl, hd⟩] at hmark
        cases hmark
      have ht : ¬ d.toLower = 't' := by
        intro hd
        rw [timeToken, (matchesToken_letter (x := 'T')).mpr ⟨d, r, rfl, hd⟩] at htime
        cases htime
      exact lexemes_cons_cons r (by simp [isSecond, hm, ht])
  · obtain ⟨r, rfl⟩ := (matchesToken_sign (by decide) (by decide)).mp h
    exact lexemes_cons_of_ne (by decide) r

/-! ## The four passes -/

/-- No token of `done` matches anywhere in a text. -/
def Clear (done : List Text) (s : Text) : Prop :=
  ∀ d ∈ done, ∀ t, t <:+ s → matchesToken d t = false

/-- What the passes for the tokens `done` have made of a text: its elements are tokens of
    `done` or clear of them, they are read as the text is, and the first one is the
    beginning of the text up to a token. -/
structure Tokenized (text : Text) (done l : List Text) : Prop where
  flatMap_lexemes : l.flatMap lexemes = lexemes text
  mem_or_clear : ∀ s ∈ l, s ∈ done ∨ Clear done s
  head : ∃ p ps r, l = p :: ps ∧ text = p ++ r ∧ Clear done p ∧
    (r = [] ∨ ∃ x t, r = x :: t ∧ (x = '@' ∨ x = '^'))

/-- The whole text, before any pass. -/
theorem Tokenized.init (text : Text) : Tokenized text [] [text] where
  flatMap_lexemes := by simp
  mem_or_clear s _ := .inr fun d hd => absurd hd List.not_mem_nil
  head := ⟨text, [], [], rfl, by simp, fun d hd => absurd hd List.not_mem_nil, .inl rfl⟩

theorem ne_nil_of_mem {c : Text} (hc : c ∈ allParamTokens) : c ≠ [] := by
  rintro rfl
  exact absurd hc (by decide)

/-- The tokens of the passes done are among the four. -/
theorem mem_allParamTokens_of_eq {done cs : List Text} {c d : Text}
    (h : done ++ c :: cs = allParamTokens) (hd : d ∈ done ++ [c]) : d ∈ allParamTokens := by
  rw [← h, ← List.singleton_append, ← List.append_assoc]
  exact List.mem_append_left _ hd

/-- The longer tokens come before `@`. -/
theorem longer_mem_done {done cs : List Text} (h : done ++ numberToken :: cs = allParamTokens) :
    markToken ∈ done ∧ timeToken ∈ done := by
  -- `@` stands at the third place and nowhere else
  match done with
  | [] => exact absurd (List.cons.inj h).1 (by decide)
  | [_] => exact absurd (List.cons.inj (List.cons.inj h).2).1 (by decide)
  | a :: b :: _ =>
    obtain ⟨rfl, htail⟩ := List.cons.inj h
    obtain ⟨rfl, -⟩ := List.cons.inj htail
    simp

/-- A text that is clear of the tokens before is read as its pieces are. -/
theorem flatMap_splitAndFold {done cs : List Text} {c s : Text}
    (h : done ++ c :: cs = allParamTokens) (hs : Clear done s) :
    (splitAndFold s c).flatMap lexemes = lexemes s := by
  have hc : c ∈ allParamTokens := mem_allParamTokens_of_eq h (by simp)
  apply List.flatMap_intersperse_splitHits (isHit_matchesToken (ne_nil_of_mem hc))
  · intro p r hr
    obtain ⟨x, t, rfl, hx⟩ := exists_cons_of_matchesToken hc hr
    apply lexemes_append
    rcases hx with rfl | rfl <;> decide
  · intro r hr hmatch
    apply lexemes_of_matchesToken hc hmatch
    -- when the number's turn comes, the longer tokens are done
    rintro rfl
    obtain ⟨hmark, htime⟩ := longer_mem_done h
    exact ⟨hs _ hmark r hr, hs _ htime r hr⟩

/-- The pieces of a text between the tokens `c` are clear of it and of the tokens before. -/
theorem clear_of_mem_splitHits {done cs : List Text} {c s q : Text}
    (h : done ++ c :: cs = allParamTokens) (hs : Clear done s)
    (hq : q ∈ s.splitHits c.length (matchesToken c)) : Clear (done ++ [c]) q := by
  have hhit : ∀ d ∈ done ++ [c], List.IsHit d.length (matchesToken d) := fun d hd =>
    isHit_matchesToken (ne_nil_of_mem (mem_allParamTokens_of_eq h hd))
  obtain ⟨hpart, hno⟩ := List.forall_mem_splitHits (hhit c (by simp)) s q hq
  -- a token of an earlier pass has no hit in a part of the piece, the present one none by the split
  intro d hd
  rcases List.mem_append.mp hd with hold | hnew
  · exact (hhit d hd).of_part (hs d hold) hpart
  · obtain rfl := List.mem_singleton.mp hnew
    exact hno

/-- A text that is clear of a token is not that token. -/
theorem Clear.not_mem {done : List Text} {s : Text} (hs : Clear done s) : s ∉ done := by
  intro hmem
  have hself := hs s hmem s List.suffix_rfl
  rw [matchesToken_self] at hself
  cases hself

/-- A pass keeps what holds of the pieces: they still make the text, and hits of one token more are
    gone. -/
theorem Tokenized.pass {text c : Text} {done cs l : List Text} (hl : Tokenized text done l)
    (h : done ++ c :: cs = allParamTokens) :
    Tokenized text (done ++ [c]) (tokenizePass done c l) where
  flatMap_lexemes := by
    -- a piece that is a token stays, and any other is split without changing its lexemes
    rw [← hl.flatMap_lexemes, tokenizePass, List.flatMap_assoc]
    apply List.flatMap_congr
    intro s hs
    split
    · simp
    · rename_i hnot
      exact flatMap_splitAndFold h ((hl.mem_or_clear s hs).resolve_left hnot)
  mem_or_clear q hq := by
    -- a piece of the result is an old token, the present one, or what lies between two of its hits
    obtain ⟨s, hs, hq⟩ := List.mem_flatMap.mp hq
    split at hq
    · rename_i hmem
      obtain rfl := List.mem_singleton.mp hq
      exact .inl (List.mem_append_left _ hmem)
    · rename_i hnot
      have hclear := (hl.mem_or_clear s hs).resolve_left hnot
      rcases List.eq_or_mem_of_mem_intersperse hq with rfl | hq
      · exact .inl (by simp)
      · exact .inr (clear_of_mem_splitHits h hclear hq)
  head := by
    obtain ⟨p, ps, r, rfl, htext, hclear, hr⟩ := hl.head
    have hc : c ∈ allParamTokens := mem_allParamTokens_of_eq h (by simp)
    -- the first piece is cut at its first hit, and the text goes on from there
    obtain ⟨q, qs, t, hq, hmem, hp, ht⟩ :=
      List.head_intersperse_splitHits (isHit_matchesToken (ne_nil_of_mem hc)) c p
    refine ⟨q, qs ++ tokenizePass done c ps, t ++ r, ?_, ?_, ?_, ?_⟩
    · rw [tokenizePass, List.flatMap_cons, if_neg hclear.not_mem, splitAndFold, hq]
      rfl
    · rw [htext, hp, List.append_assoc]
    · exact clear_of_mem_splitHits h hclear hmem
    · rcases ht with rfl | ht
      · exact hr
      · obtain ⟨x, t, rfl, hx⟩ := exists_cons_of_matchesToken hc ht
        exact .inr ⟨x, t ++ r, rfl, hx⟩

/-- The passes that remain. -/
theorem Tokenized.loop {text : Text} {done cs l : List Text} (hl : Tokenized text done l)
    (h : done ++ cs = allParamTokens) :
    Tokenized text allParamTokens (tokenizeLoop done cs l) := by
  -- induction on the tokens that remain
  induction cs generalizing done l with
  | nil =>
    rw [← h, List.append_nil]
    exact hl
  | cons c cs ih =>
    rw [tokenizeLoop]
    exact ih (hl.pass h) (by simpa using h)

/-- What `tokenize_query` returns: tokens, and pieces without any. -/
theorem tokenized (text : Text) : Tokenized text allParamTokens (tokenizeQuery text) :=
  (Tokenized.init text).loop rfl

/-- The four passes split a text as it is read. -/
theorem flatMap_tokenizeQuery (text : Text) :
    (tokenizeQuery text).flatMap lexemes = lexemes text :=
  (tokenized text).flatMap_lexemes

/-- A text that is clear of all tokens has no `@` and no `^`. -/
theorem Clear.ne {s : Text} (hs : Clear allParamTokens s) :
    ∀ c ∈ s, c ≠ '@' ∧ c ≠ '^' := by
  -- a sign at any place of the piece would be a hit of its token there
  intro c hc
  obtain ⟨a, b, rfl⟩ := List.append_of_mem hc
  constructor
  · rintro rfl
    have hno := hs numberToken (by decide) _ (List.suffix_append a _)
    rw [numberToken, (matchesToken_sign (by decide) (by decide)).mpr ⟨b, rfl⟩] at hno
    cases hno
  · rintro rfl
    have hno := hs stringToken (by decide) _ (List.suffix_append a _)
    rw [stringToken, (matchesToken_sign (by decide) (by decide)).mpr ⟨b, rfl⟩] at hno
    cases hno

/-- The first element is the text before the first token. -/
theorem head_tokenizeQuery (text : Text) :
    (tokenizeQuery text).head? = some (firstPiece text) := by
  obtain ⟨p, ps, r, hl, rfl, hclear, hr⟩ := (tokenized text).head
  have hp : ∀ c ∈ p, (c != '@' && c != '^') = true := by
    intro c hc
    simpa using hclear.ne c hc
  rw [hl, List.head?_cons, firstPiece, List.takeWhile_append_of_pos hp]
  rcases hr with rfl | ⟨x, t, rfl, rfl | rfl⟩ <;> simp

/-! ## The function compiled -/

/-- A text without tokens is read as itself. -/
theorem lexemes_of_clear {s : Text} (hs : ∀ c ∈ s, c ≠ '@' ∧ c ≠ '^') :
    lexemes s = s.map .char := by
  induction s with
  | nil => rfl
  | cons c s ih =>
    rw [List.forall_mem_cons] at hs
    rw [lexemes_cons_of_ne hs.1.1, ih hs.2, lexeme, if_neg hs.1.1, if_neg hs.1.2]
    rfl

variable (select : Bool) (pfx : Text)

/-- An element that is no token stands for itself. -/
theorem buildPiece_of_clear {q : Text} (hclear : Clear allParamTokens q) :
    buildPiece (parsePiece select q) = [.repr q] := by
  have hne : ∀ {c : Text}, c ∈ allParamTokens → q ≠ c := by
    rintro c hc rfl
    exact hclear.not_mem hc
  rw [parsePiece, if_neg (hne (by decide)), if_neg (hne (by decide)), buildPiece,
    if_neg (hne (by decide)), if_neg (hne (by decide))]

/-- The code's time is the time that stands for the token. -/
theorem eval_getRandomTime_eq : Expr.getRandomTime.eval pfx = Lexeme.time.value select pfx := by
  funext g
  show getRandomTime g = _
  have hrun : getRandomTime g = (g.globalTime.addSecond.bind fun t => some (t, g)).bind
      fun x => some (str g.globalTime.currentTime, { g with globalTime := x.1 }) := rfl
  rw [hrun]
  cases h : g.globalTime.addSecond <;> simp [Lexeme.value, h]

/-- The code's number in a `select` is one up to the counter, or up to two. -/
theorem eval_getOldRandomNumber_eq :
    Expr.getOldRandomNumber.eval pfx = Lexeme.number.value true pfx := by
  funext g
  have hrange : max g.counter 2 - 1 + 1 = max g.counter 2 := by omega
  show some (pfx ++ str (1 + g.random 0 % (max g.counter 2 - 1 + 1)), _) = _
  rw [hrange]
  rfl

/-- The expressions for an element give what the element is read as. -/
theorem concatM_buildPiece {q : Text} (hq : q ∈ allParamTokens ∨ Clear allParamTokens q) :
    List.concatM (Expr.eval pfx) (buildPiece (parsePiece select q)) =
      List.concatM (Lexeme.value select pfx) (lexemes q) := by
  rcases hq with hq | hclear
  · rcases mem_allParamTokens.mp hq with rfl | rfl | rfl | rfl
    · exact (List.concatM_singleton _ _).trans (List.concatM_singleton _ _).symm
    · have hlex : lexemes timeToken = [.time] := rfl
      rw [hlex, List.concatM_singleton, ← eval_getRandomTime_eq]
      exact List.concatM_singleton _ _
    · have hlex : lexemes numberToken = [.number] := rfl
      rw [hlex, List.concatM_singleton]
      cases select with
      | true =>
        rw [← eval_getOldRandomNumber_eq]
        exact List.concatM_singleton _ _
      | false => exact List.concatM_singleton _ _
    -- a random string is three expressions, its quotes among them
    · have hlex : lexemes stringToken = [.string] := rfl
      have hbuild : buildPiece (parsePiece select stringToken) =
          [.repr quote, .getRandomString 32, .repr quote] := by
        cases select <;> rfl
      rw [hlex, hbuild, List.concatM_singleton]
      simp only [List.concatM_cons, List.concatM_nil]
      rfl
  -- a piece without tokens is one constant
  · have hchars : List.concatM (Lexeme.value select pfx) (q.map .char) =
        pure (q.flatMap fun c => [c]) :=
      List.concatM_map_pure _ _ fun c _ => rfl
    rw [buildPiece_of_clear select hclear, List.concatM_singleton, lexemes_of_clear hclear.ne,
      hchars, List.flatMap_singleton']
    rfl

/-- What a text that begins with a word before its first token is compiled to. -/
theorem generateQueryFunction_eq (text : Text) :
    generateQueryFunction text = (firstWord (firstPiece text)).map fun w =>
      ((tokenizeQuery text).map (parsePiece (isSelect w))).flatMap buildPiece := by
  rw [generateQueryFunction, parseQuery, head_tokenizeQuery]
  cases h : firstWord (firstPiece text) <;> simp [h]

/-- The function compiled from a text gives what the text means. -/
theorem queryF_flatMap_buildPiece (text : Text) :
    queryF (((tokenizeQuery text).map (parsePiece select)).flatMap buildPiece) pfx =
      List.concatM (Lexeme.value select pfx) (lexemes text) := by
  rw [queryF, ← flatMap_tokenizeQuery, List.flatMap_map]
  exact List.concatM_flatMap_congr fun q hq =>
    concatM_buildPiece select pfx ((tokenized text).mem_or_clear q hq)

/-! ## The counter -/

/-- How far a lexeme moves the counter. -/
def Lexeme.count : Lexeme → Nat
  | .string => 1
  | .number => if select then 0 else 1
  | _ => 0

variable {select pfx} {g g' : GenState}

end WorkloadSimulator.Stress
