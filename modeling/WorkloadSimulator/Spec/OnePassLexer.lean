import WorkloadSimulator.Spec.QueryTemplate

/-!
# The tokenizer as a single scan

A single scan of a query text takes, at each position that is not inside a token, the longest
token that stands there. `tokenize_query` makes four passes instead, one for each token. Its
list has the same tokens at the same positions: both are determined by the lexemes of the text.

## Key results

- `scan_eq_positions`: what the scan finds are the tokens among the lexemes
- `alternates_tokenizeQuery`: the passes never split a token, and never take a literal for one
- `tokenizeQuery_eq_scan`: the list of `tokenize_query` is that of the scan
-/

namespace WorkloadSimulator.Stress

/-! ## The scan -/

/-- The longest token that stands at the beginning of a text. -/
def longestToken (s : Text) : Option Text :=
  (allParamTokens.filter fun c => matchesToken c s).argmax List.length

/-- The tokens in a text, with their positions. The text stands at the position `i`, and its
    first `skip` characters belong to the token before. -/
def scan : Nat → Nat → Text → List (Nat × Text)
  | _, _, [] => []
  | i, skip + 1, _ :: s => scan (i + 1) skip s
  | i, 0, c :: s =>
    match longestToken (c :: s) with
    | some t => (i, t) :: scan (i + 1) (t.length - 1) s
    | none => scan (i + 1) 0 s

/-- The text with the letters of its tokens in upper case. -/
def upperTokens : Text → Text
  | [] => []
  | [c] => [c]
  | c :: d :: s =>
    if c = '@' ∧ (d.toLower = 'm' ∨ d.toLower = 't') then c :: d.toUpper :: upperTokens s
    else c :: upperTokens (d :: s)

/-- The tokens in a list of literals and tokens, with their positions in the text that the
    list is of. The list stands at the position `i`. -/
def tokenPositions : Nat → List Text → List (Nat × Text)
  | i, p :: c :: l => (i + p.length, c) :: tokenPositions (i + p.length + c.length) l
  | _, _ => []

/-- A text without `@` and `^`. -/
def Literal (p : Text) : Prop := ∀ c ∈ p, c ≠ '@' ∧ c ≠ '^'

/-! ## Lexemes and their tokens -/

/-- The token that is read as the lexeme. -/
def Lexeme.token : Lexeme → Option Text
  | .char _ => none
  | .mark => some markToken
  | .time => some timeToken
  | .number => some numberToken
  | .string => some stringToken

/-- What the lexeme is read from, a letter in a token in upper case. -/
def Lexeme.text : Lexeme → Text
  | .char c => [c]
  | .mark => markToken
  | .time => timeToken
  | .number => numberToken
  | .string => stringToken

/-- The tokens among the lexemes, with their positions from `i` on. -/
def positions : Nat → List Lexeme → List (Nat × Text)
  | _, [] => []
  | i, x :: l => (x.token.map fun c => (i, c)).toList ++ positions (i + x.text.length) l

/-- A character is the text of its lexeme. -/
theorem text_lexeme (c : Char) : (lexeme c).text = [c] := by
  unfold lexeme
  split
  · rename_i hc
    rw [hc]
    rfl
  · split
    · rename_i hc
      rw [hc]
      rfl
    · rfl

theorem token_lexeme_of_ne {c : Char} (h : c ≠ '@' ∧ c ≠ '^') : (lexeme c).token = none := by
  rw [lexeme, if_neg h.1, if_neg h.2]
  rfl

/-- The lexemes of a text are read from it, but for the letters of its tokens. -/
theorem flatMap_text_lexemes (s : Text) : (lexemes s).flatMap Lexeme.text = upperTokens s := by
  have hm : ∀ {d : Char}, d.toLower = 'm' → d.toUpper = 'M' := by
    intro d hd
    rw [← Char.toUpper_toLower_eq_toUpper, hd]
    rfl
  have ht : ∀ {d : Char}, d.toLower = 't' → d.toUpper = 'T' := by
    intro d hd
    rw [← Char.toUpper_toLower_eq_toUpper, hd]
    rfl
  -- one case for each way in which the next lexeme is read
  induction s using lexemes.induct with
  | case1 => rfl
  | case2 c => simp [lexemes, upperTokens, text_lexeme]
  | case3 c d s h ih =>
    rw [lexemes, if_pos h, List.flatMap_cons, ih, upperTokens, if_pos ⟨h.1, .inl h.2⟩, hm h.2, h.1]
    rfl
  | case4 c d s h h' ih =>
    rw [lexemes, if_neg h, if_pos h', List.flatMap_cons, ih, upperTokens,
      if_pos ⟨h'.1, .inr h'.2⟩, ht h'.2, h'.1]
    rfl
  | case5 c d s h h' ih =>
    have hne : ¬ (c = '@' ∧ (d.toLower = 'm' ∨ d.toLower = 't')) := by
      rintro ⟨hc, hd | hd⟩
      · exact h ⟨hc, hd⟩
      · exact h' ⟨hc, hd⟩
    rw [lexemes, if_neg h, if_neg h', List.flatMap_cons, ih, upperTokens, if_neg hne, text_lexeme]
    rfl

/-! ## The scan finds the lexemes -/

/-- A token of two characters is longer than the `@` it begins with. -/
theorem longestToken_letter {c : Text} {d : Char} (s : Text)
    (h : (c = markToken ∧ d.toLower = 'm') ∨ (c = timeToken ∧ d.toLower = 't')) :
    longestToken ('@' :: d :: s) = some c := by
  -- the first character matches `@` alone as well, and the first two match the longer token
  have hfilter : (allParamTokens.filter fun c => matchesToken c ('@' :: d :: s)) =
      [c, numberToken] := by
    rcases h with ⟨rfl, hd⟩ | ⟨rfl, hd⟩ <;>
      simp [allParamTokens, matchesToken, markToken, timeToken, numberToken, stringToken, hd]
  rw [longestToken, hfilter]
  rcases h with ⟨rfl, -⟩ | ⟨rfl, -⟩ <;> rfl

/-- Where no longer token stands, the longest one is that of the character. -/
theorem longestToken_lexeme {c : Char} {s : Text}
    (h : ∀ d ∈ s.head?, ¬ (c = '@' ∧ (d.toLower = 'm' ∨ d.toLower = 't'))) :
    longestToken (c :: s) = (lexeme c).token := by
  -- which tokens match is decided by the first two characters
  by_cases hat : c = '@'
  · subst hat
    have hfilter : (allParamTokens.filter fun c => matchesToken c ('@' :: s)) =
        [numberToken] := by
      cases s with
      | nil => decide
      | cons d s =>
        obtain ⟨hm, ht⟩ : ¬ 'm' = d.toLower ∧ ¬ 't' = d.toLower := by
          simpa [eq_comm] using h d rfl
        simp [allParamTokens, matchesToken, markToken, timeToken, numberToken, stringToken, hm, ht]
    rw [longestToken, hfilter]
    rfl
  · by_cases hcaret : c = '^'
    · subst hcaret
      have hfilter : (allParamTokens.filter fun c => matchesToken c ('^' :: s)) =
          [stringToken] := by
        simp [allParamTokens, matchesToken, markToken, timeToken, numberToken, stringToken]
      rw [longestToken, hfilter]
      rfl
    · have hfilter : (allParamTokens.filter fun t => matchesToken t (c :: s)) = [] := by
        rw [List.filter_eq_nil_iff]
        intro t ht hmatch
        obtain ⟨x, r, hx, hx' | hx'⟩ := exists_cons_of_matchesToken ht hmatch <;> simp_all
      rw [longestToken, hfilter, token_lexeme_of_ne ⟨hat, hcaret⟩]
      rfl

/-- Where a token of one character stands, or none, the scan goes on behind the character. -/
theorem scan_lexeme (i : Nat) {c : Char} {s : Text}
    (h : ∀ d ∈ s.head?, ¬ (c = '@' ∧ (d.toLower = 'm' ∨ d.toLower = 't'))) :
    scan i 0 (c :: s) =
      ((lexeme c).token.map fun t => (i, t)).toList ++ scan (i + 1) 0 s := by
  -- a character is a lexeme by itself
  have hlex : lexeme c = .number ∨ lexeme c = .string ∨ lexeme c = .char c := by
    unfold lexeme
    split
    · exact .inl rfl
    · split
      · exact .inr (.inl rfl)
      · exact .inr (.inr rfl)
  rw [scan, longestToken_lexeme h]
  rcases hlex with hlex | hlex | hlex <;> rw [hlex] <;> rfl

/-- The scan finds the tokens among the lexemes. -/
theorem scan_eq_positions (i : Nat) (s : Text) : scan i 0 s = positions i (lexemes s) := by
  -- the scan skips the second character of a token of two
  induction s using lexemes.induct generalizing i with
  | case1 => rfl
  | case2 c =>
    rw [scan_lexeme i (by simp), lexemes, positions, text_lexeme]
    rfl
  | case3 c d s h ih =>
    obtain ⟨rfl, hd⟩ := h
    rw [scan, longestToken_letter s (.inl ⟨rfl, hd⟩), lexemes, if_pos ⟨rfl, hd⟩, positions, ← ih]
    rfl
  | case4 c d s h h' ih =>
    obtain ⟨rfl, hd⟩ := h'
    rw [scan, longestToken_letter s (.inr ⟨rfl, hd⟩), lexemes, if_neg h, if_pos ⟨rfl, hd⟩,
      positions, ← ih]
    rfl
  | case5 c d s h h' ih =>
    have hne : ∀ e ∈ (d :: s).head?, ¬ (c = '@' ∧ (e.toLower = 'm' ∨ e.toLower = 't')) := by
      rintro e he ⟨hc, hd⟩
      obtain rfl := Option.some.inj he
      rcases hd with hd | hd
      · exact h ⟨hc, hd⟩
      · exact h' ⟨hc, hd⟩
    rw [scan_lexeme i hne, lexemes, if_neg h, if_neg h', positions, text_lexeme, ih]
    rfl

/-! ## Literals and tokens take turns -/

/-- The four passes leave a list in which literals and tokens take turns. -/
theorem alternates_tokenizeLoop {done cs l : List Text} (h : done ++ cs = allParamTokens)
    (hl : List.Alternates (Clear done) (· ∈ done) l) :
    List.Alternates (Clear allParamTokens) (· ∈ allParamTokens) (tokenizeLoop done cs l) := by
  induction cs generalizing done l with
  | nil =>
    rw [List.append_nil] at h
    rw [tokenizeLoop, ← h]
    exact hl
  | cons c cs ih =>
    rw [tokenizeLoop]
    -- the loop goes on with the next token
    apply ih (by simpa using h)
    apply hl.flatMap
    · -- a literal is split at the token
      intro s hs
      rw [if_neg hs.not_mem]
      have hc : c ∈ allParamTokens := mem_allParamTokens_of_eq h (by simp)
      exact List.Alternates.intersperse
        (List.splitHits_ne_nil (isHit_matchesToken (ne_nil_of_mem hc)) s)
        (fun q hq => clear_of_mem_splitHits h hs hq) (by simp)
    · -- a token is left alone
      intro t ht
      exact ⟨if_pos ht, List.mem_append_left _ ht⟩

/-- The list of the source alternates, beginning with the text as one literal. -/
theorem alternates_tokenizeQuery (q : Text) :
    List.Alternates Literal (· ∈ allParamTokens) (tokenizeQuery q) := by
  have hinit : List.Alternates (Clear []) (· ∈ []) [q] :=
    .singleton fun d hd => absurd hd List.not_mem_nil
  exact (alternates_tokenizeLoop rfl hinit).imp (fun p hp => hp.ne) fun c hc => hc

/-! ## The list and the scan -/

/-- A literal is the text of its characters. -/
theorem flatMap_text_of_literal {p : Text} (hp : Literal p) :
    (lexemes p).flatMap Lexeme.text = p := by
  rw [lexemes_of_clear hp, List.flatMap_map]
  exact List.flatMap_singleton' p

/-- The lexeme that a token is read as. -/
theorem exists_lexeme_of_token {c : Text} (hc : c ∈ allParamTokens) :
    ∃ x : Lexeme, lexemes c = [x] ∧ x.token = some c ∧ x.text = c := by
  rcases mem_allParamTokens.mp hc with rfl | rfl | rfl | rfl
  · exact ⟨.mark, rfl, rfl, rfl⟩
  · exact ⟨.time, rfl, rfl, rfl⟩
  · exact ⟨.number, rfl, rfl, rfl⟩
  · exact ⟨.string, rfl, rfl, rfl⟩

/-- A literal has no tokens. -/
theorem positions_append_of_literal (i : Nat) {p : Text} (hp : Literal p) (l : List Lexeme) :
    positions i (lexemes p ++ l) = positions (i + p.length) l := by
  rw [lexemes_of_clear hp]
  clear hp
  induction p generalizing i with
  | nil => rfl
  | cons c p ih =>
    rw [List.map_cons, List.cons_append, positions, ih]
    simp [Lexeme.token, Lexeme.text, Nat.add_assoc, Nat.add_comm 1]

/-- The text that a list is of, and its tokens, can be told from its lexemes. -/
theorem flatten_eq_of_alternates {l : List Text}
    (hl : List.Alternates Literal (· ∈ allParamTokens) l) :
    l.flatten = (l.flatMap lexemes).flatMap Lexeme.text := by
  induction hl with
  | singleton hp => simp [flatMap_text_of_literal hp]
  | cons_cons hp hc hl ih =>
    obtain ⟨x, hlex, -, htext⟩ := exists_lexeme_of_token hc
    simp [ih, hlex, htext, flatMap_text_of_literal hp]

/-- The positions in the list are those in the sequence of lexemes. -/
theorem tokenPositions_eq_of_alternates (i : Nat) {l : List Text}
    (hl : List.Alternates Literal (· ∈ allParamTokens) l) :
    tokenPositions i l = positions i (l.flatMap lexemes) := by
  induction hl generalizing i with
  | singleton hp =>
    -- the only literal
    rw [List.flatMap_singleton, ← List.append_nil (lexemes _), positions_append_of_literal i hp]
    rfl
  | cons_cons hp hc hl ih =>
    -- a literal, a token, and the rest behind both
    obtain ⟨x, hlex, htoken, htext⟩ := exists_lexeme_of_token hc
    rw [List.flatMap_cons, List.flatMap_cons, positions_append_of_literal i hp, hlex,
      tokenPositions, ih, List.singleton_append, positions, htoken, htext]
    rfl

/-- In the list of `tokenize_query` literals and tokens take turns; put together it is the
    text with the letters of its tokens in upper case; and its tokens stand where a single
    scan finds them. -/
theorem tokenizeQuery_eq_scan (q : Text) :
    List.Alternates Literal (· ∈ allParamTokens) (tokenizeQuery q) ∧
      (tokenizeQuery q).length % 2 = 1 ∧
      (tokenizeQuery q).flatten = upperTokens q ∧
      tokenPositions 0 (tokenizeQuery q) = scan 0 0 q := by
  have halt := alternates_tokenizeQuery q
  refine ⟨halt, halt.length_odd, ?_, ?_⟩
  · rw [flatten_eq_of_alternates halt, flatMap_tokenizeQuery, flatMap_text_lexemes]
  · rw [tokenPositions_eq_of_alternates 0 halt, flatMap_tokenizeQuery, scan_eq_positions]

end WorkloadSimulator.Stress
