import Mathlib

/-!
# Reading a line in the shell

How a POSIX shell splits a line into words and commands: blanks, quoting, comments, the
operators that separate commands, and newlines. Words are not compared with the names of files,
so `*`, `?` and `[` are characters like any other. Expansions, redirections and groups are not
read (`none`), and neither is a line with a quotation that does not end. Reserved words are read
as words.

## Key results

- `lex_gap_append`, `lex_word_append`: a text without special characters is a word as it stands
- `isWord_of_lex`: if a text that stands between two blanks is read as the word that it is,
  and an option follows, then it has no special characters
- `isPlain_of_lex_word`: the same for what stands behind the beginning of a word
-/

namespace Shell

/-! ## Characters -/

def isBlank (c : Char) : Bool := c == ' ' || c == '\t'

def isOperator (c : Char) : Bool := c == '\n' || c == ';' || c == '&' || c == '|'

def isQuote (c : Char) : Bool := c == '\\' || c == '\'' || c == '"'

/-- A `$` begins an expansion before such a character: a name or a parameter, or what some shells
    read otherwise than as a `$` and more. Before a backslash it may, when the line goes on. -/
def opensExpansion (c : Char) : Bool :=
  c.isAlphanum || c == '_' || "@*#?-$!\x7b([".toList.contains c || isQuote c

/-- A redirection, a group or an expansion begins here, before the character `next`, or a line
    cannot have the character. -/
def isUnread (c : Char) (next : Option Char) : Bool :=
  c == '<' || c == '>' || c == '(' || c == ')' || c == '`' || c == '\x00' ||
    (c == '$' && next.any opensExpansion)

/-- A character that stands for itself before the character `next`, unless it begins a word. -/
def isPlain (c : Char) (next : Option Char) : Bool :=
  !(isBlank c || isOperator c || isQuote c || isUnread c next)

/-- A text that stands for itself behind the beginning of a word and before a blank. -/
def isPlainText : List Char → Bool
  | [] => true
  | c :: t => isPlain c t.head? && isPlainText t

/-- A comment or the name of a home directory, at the beginning of a word. -/
def isOpening (c : Char) : Bool := c == '#' || c == '~'

/-- A word that stands for itself. -/
structure IsWord (w : List Char) : Prop where
  ne_nil : w ≠ []
  plain : isPlainText w = true
  opening : ∀ c ∈ w.head?, isOpening c = false

theorem isWord_iff {w : List Char} : IsWord w ↔
    w ≠ [] ∧ isPlainText w = true ∧ w.head?.all (fun c => !isOpening c) = true := by
  constructor
  -- on a word and on a test of its characters the conditions are the same, the first character
  -- apart
  · intro ⟨hne, hplain, hopening⟩
    refine ⟨hne, hplain, ?_⟩
    cases w with
    | nil => rfl
    | cons c w => simpa using hopening c rfl
  · intro ⟨hne, hplain, hopening⟩
    refine ⟨hne, hplain, ?_⟩
    intro c hc
    rw [hc] at hopening
    simpa using hopening

instance (w : List Char) : Decidable (IsWord w) := decidable_of_iff' _ isWord_iff

/-- Whether a character other than `$` stands for itself is not changed by what follows. -/
theorem isPlain_congr {c : Char} (next next' : Option Char)
    (h : c ≠ '$' ∨ next'.any opensExpansion = false) (hc : isPlain c next = true) :
    isPlain c next' = true := by
  rcases h with h | h
  · simpa [isPlain, isUnread, h] using hc
  · simp only [isPlain, isUnread, Bool.not_eq_true', Bool.or_eq_false_iff] at hc ⊢
    simp [hc, h]

/-- Texts that stand for themselves do so together, if no `$` comes before another character. -/
theorem isPlainText_append {w t : List Char} (hw : isPlainText w = true) (hdollar : '$' ∉ w)
    (ht : isPlainText t = true) : isPlainText (w ++ t) = true := by
  induction w with
  | nil => exact ht
  | cons c w ih =>
    rw [isPlainText, Bool.and_eq_true] at hw
    rw [List.mem_cons, not_or] at hdollar
    rw [List.cons_append, isPlainText, Bool.and_eq_true]
    -- only a `$` depends on what follows it
    exact ⟨isPlain_congr _ _ (.inl fun hc => hdollar.1 hc.symm) hw.1, ih hw.2 hdollar.2⟩

/-- A word may be continued by a text that stands for itself. -/
theorem IsWord.append {w t : List Char} (hw : IsWord w) (hdollar : '$' ∉ w)
    (ht : isPlainText t = true) : IsWord (w ++ t) where
  ne_nil := by simp [hw.ne_nil]
  plain := isPlainText_append hw.plain hdollar ht
  opening := by
    cases w with
    | nil => exact absurd rfl hw.ne_nil
    | cons c w => exact hw.opening

/-- A digit stands for itself. -/
theorem isPlain_of_isDigit {c : Char} (hc : c.isDigit = true) (next : Option Char) :
    isPlain c next = true := by
  -- none of the special characters is a digit
  have hne : ∀ d : Char, d.isDigit = false → (c == d) = false := by
    intro d hd
    rw [beq_eq_false_iff_ne]
    rintro rfl
    rw [hc] at hd
    cases hd
  simp only [isPlain, isBlank, isOperator, isQuote, isUnread]
  simp [hne]

/-- So do digits together. -/
theorem isPlainText_of_isDigit {t : List Char} (h : ∀ c ∈ t, c.isDigit = true) :
    isPlainText t = true := by
  induction t with
  | nil => rfl
  | cons c t ih =>
    rw [List.forall_mem_cons] at h
    rw [isPlainText, Bool.and_eq_true]
    exact ⟨isPlain_of_isDigit h.1 _, ih h.2⟩

/-- A character that is special whatever follows it is not in a plain text. -/
theorem not_mem_of_isPlainText {c : Char} (hc : ∀ next, isPlain c next = false) {t : List Char}
    (ht : isPlainText t = true) : c ∉ t := by
  -- induction on the text: `c` is not its first character, which is plain, nor in the rest
  induction t with
  | nil => simp
  | cons d t ih =>
    rw [isPlainText, Bool.and_eq_true] at ht
    rw [List.mem_cons, not_or]
    refine ⟨?_, ih ht.2⟩
    rintro rfl
    rw [hc] at ht
    exact absurd ht.1 (by simp)

/-! ## Words -/

inductive Token where
  | word (w : List Char)
  | newline
  /-- `;` or `&` -/
  | ends
  /-- `|`, `||` or `&&`, after which a command must follow. -/
  | joins
  deriving DecidableEq

/-- How the next character of a word is quoted. -/
inductive Quoting where
  | plain
  | escaped
  | single
  | double
  /-- After a backslash in double quotes. -/
  | doubleEscaped
  deriving DecidableEq

/-- Where the reading of a line stands. -/
inductive State where
  /-- Between two tokens. -/
  | gap
  /-- Before a character that has been dealt with. -/
  | skip
  | comment
  /-- In a word, of which `w` has been read. -/
  | word (q : Quoting) (w : List Char)

/-- A character that is not read, before the character `next`. -/
def Quoting.rejects : Quoting → Char → Option Char → Bool
  | .plain, c, next => isUnread c next
  -- in double quotes a `$` before a quotation mark stands for itself
  | .double, c, next =>
    c == '`' || (c == '$' && next.any fun d => opensExpansion d && d != '\'' && d != '"')
  | _, _, _ => false

/-- How the character after `c` is quoted. -/
def Quoting.next : Quoting → Char → Quoting
  | .plain, c =>
    if c = '\\' then .escaped else if c = '\'' then .single else if c = '"' then .double else .plain
  | .escaped, _ => .plain
  | .single, c => if c = '\'' then .plain else .single
  | .double, c => if c = '"' then .plain else if c = '\\' then .doubleEscaped else .double
  | .doubleEscaped, _ => .double

/-- What `c` adds to the word. -/
def Quoting.added : Quoting → Char → List Char
  | .plain, c => if isQuote c then [] else [c]
  -- the line goes on after an escaped newline
  | .escaped, c => if c = '\n' then [] else [c]
  | .single, c => if c = '\'' then [] else [c]
  | .double, c => if c = '"' ∨ c = '\\' then [] else [c]
  -- in double quotes a backslash stands for itself before any other character
  | .doubleEscaped, c =>
    if c = '\n' then []
    else if c = '$' ∨ c = '`' ∨ c = '"' ∨ c = '\\' then [c]
    else ['\\', c]

/-- Read a character of a word, before the character `next`. -/
def readChar (q : Quoting) (w : List Char) (c : Char) (next : Option Char) : Option State :=
  if q.rejects c next then none else some (.word (q.next c) (w ++ q.added c))

/-- The operator that begins with `c`, before the character `next`. -/
def operator (c : Char) (next : Option Char) : Option (Token × State) :=
  if c = '\n' then some (.newline, .gap)
  else if next = some c then if c = ';' then none else some (.joins, .skip)
  else if c = '|' then some (.joins, .gap)
  else some (.ends, .gap)

/-- Read a character, before the character `next`. -/
def step (st : State) (c : Char) (next : Option Char) : Option (List Token × State) :=
  match st with
  | .gap =>
    if isBlank c then some ([], .gap)
    else if isOperator c then (operator c next).map fun (t, st) => ([t], st)
    else if c = '#' then some ([], .comment)
    else if c = '~' then none
    -- an escaped newline does not begin a word
    else if c = '\\' ∧ next = some '\n' then some ([], .skip)
    else (readChar .plain [] c next).map fun st => ([], st)
  | .skip => some ([], .gap)
  | .comment => some (if c = '\n' then ([.newline], .gap) else ([], .comment))
  | .word q w =>
    if q = .plain ∧ isBlank c then some ([.word w], .gap)
    else if q = .plain ∧ isOperator c then
      (operator c next).map fun (t, st) => ([.word w, t], st)
    else (readChar q w c next).map fun st => ([], st)

/-- Where the line ends. -/
def finish : State → Option (List Token)
  | .word .plain w => some [.word w]
  | .word _ _ => none
  | .gap | .skip | .comment => some []

/-- The tokens of a line. -/
def lex (st : State) : List Char → Option (List Token)
  | [] => finish st
  | c :: s => (step st c s.head?).bind fun (ts, st) => (lex st s).map (ts ++ ·)

/-! ## Commands -/

/-- The commands in a list of tokens, each as its words. `ws` are the words of the first
    one so far, and `must` says that there has to be one. -/
def parse (must : Bool) (ws : List (List Char)) : List Token → Option (List (List (List Char)))
  | [] => if ws = [] then (if must then none else some []) else some [ws]
  | .word w :: ts => parse must (ws ++ [w]) ts
  | .newline :: ts =>
    if ws = [] then parse must [] ts else (parse false [] ts).map (ws :: ·)
  | .ends :: ts => if ws = [] then none else (parse false [] ts).map (ws :: ·)
  | .joins :: ts => if ws = [] then none else (parse true [] ts).map (ws :: ·)

/-- The commands of a line. -/
def commands (line : List Char) : Option (List (List (List Char))) :=
  (lex .gap line).bind (parse false [])

example : commands "mysql -h 'a b'\\ c;".toList =
    some [["mysql".toList, "-h".toList, "a b c".toList]] := by decide
example : commands "a # b; c\nd | e &".toList =
    some [["a".toList], ["d".toList], ["e".toList]] := by decide
example : commands "a ; ; b".toList = none := by decide
example : commands "a[b p*q c$ $d".toList = none := by decide
example : commands "a[b p*q c$".toList = some [["a[b".toList, "p*q".toList, "c$".toList]] := by
  decide

/-! ## What a word is read from -/

/-- No backslash stands before the next character. -/
def Quoting.unescaped : Quoting → Bool
  | .escaped | .doubleEscaped => false
  | _ => true

/-- The characters that have been read and may still be put out. -/
def Quoting.owed : Quoting → Nat
  | .doubleEscaped => 1
  | _ => 0

namespace Quoting

/-- No more characters are put out than have been read. -/
theorem length_added (q : Quoting) (c : Char) :
    (q.added c).length + (q.next c).owed ≤ q.owed + 1 := by
  cases q <;> simp only [added, next]
  case plain => split_ifs <;> simp_all [owed, isQuote]
  case double => split_ifs <;> simp_all [owed]
  all_goals split_ifs <;> simp [owed]

/-- A space is put out itself. -/
theorem added_space (q : Quoting) : q.added ' ' = [' '] ∨ q.added ' ' = ['\\', ' '] := by
  cases q <;> decide

/-- A space leaves no backslash that would escape the next character. -/
theorem unescaped_next_space (q : Quoting) : (q.next ' ').unescaped = true := by
  cases q <;> decide

/-- A dash that is not escaped is put out as it stands. -/
theorem added_dash {q : Quoting} (hq : q.unescaped = true) : q.added '-' = ['-'] := by
  cases q with
  | escaped | doubleEscaped => cases hq
  | _ => decide

end Quoting

section

variable {st : State} {q : Quoting} {w e s t : List Char} {c : Char} {ts : List Token}

/-- Reading a text is a step for its first character, and then the rest. -/
theorem lex_cons (h : lex st (c :: s) = some ts) :
    ∃ ts₁ st' ts₂, step st c s.head? = some (ts₁, st') ∧ lex st' s = some ts₂ ∧
      ts = ts₁ ++ ts₂ := by
  obtain ⟨⟨ts₁, st'⟩, hstep, h⟩ := Option.bind_eq_some_iff.mp h
  obtain ⟨ts₂, hlex, rfl⟩ := Option.map_eq_some_iff.mp h
  exact ⟨ts₁, st', ts₂, hstep, hlex, rfl⟩

/-- A character that is read goes on with the word, and with the quoting that it leads to. -/
theorem readChar_eq_some {st : State} {next : Option Char} (h : readChar q w c next = some st) :
    q.rejects c next = false ∧ st = .word (q.next c) (w ++ q.added c) := by
  unfold readChar at h
  split at h
  · cases h
  · rename_i hrejects
    exact ⟨by simpa using hrejects, (Option.some.inj h).symm⟩

/-- A character that is not plain ends a word, is a quotation, or is not read. -/
theorem not_isPlain_cases {next : Option Char} (hc : ¬ isPlain c next = true) :
    isBlank c = true ∨ isOperator c = true ∨ isQuote c = true ∨ isUnread c next = true := by
  simp only [isPlain, Bool.not_eq_true', Bool.not_eq_false, Bool.or_eq_true] at hc
  tauto

/-- In a word a character ends the word or is read as one of it. -/
theorem lex_word_cons (h : lex (.word q w) (c :: s) = some ts) :
    (q = .plain ∧ (isBlank c = true ∨ isOperator c = true) ∧ ∃ ts', ts = .word w :: ts') ∨
      (q = .plain → isPlain c s.head? = true ∨ isQuote c = true) ∧
        lex (.word (q.next c) (w ++ q.added c)) s = some ts := by
  obtain ⟨ts₁, st', ts₂, hstep, hlex, rfl⟩ := lex_cons h
  unfold step at hstep
  split at hstep
  any_goals contradiction
  -- a blank, an operator, or a character of the word
  rename_i heq
  cases heq
  split at hstep
  · rename_i hend
    cases hstep
    exact .inl ⟨hend.1, .inl hend.2, ts₂, rfl⟩
  · split at hstep
    · rename_i hend
      obtain ⟨⟨t, st⟩, -, heq⟩ := Option.map_eq_some_iff.mp hstep
      cases heq
      exact .inl ⟨hend.1, .inr hend.2, t :: ts₂, rfl⟩
    · obtain ⟨st, hread, heq⟩ := Option.map_eq_some_iff.mp hstep
      cases heq
      obtain ⟨hrejects, rfl⟩ := readChar_eq_some hread
      refine .inr ⟨?_, hlex⟩
      rintro rfl
      -- what is left of the special characters in a plain state are the quotations
      by_cases hplain : isPlain c s.head? = true
      · exact .inl hplain
      · rcases not_isPlain_cases hplain with hc | hc | hc | hc <;> simp_all [Quoting.rejects]

/-- A word that has been begun is the first token. -/
theorem exists_of_lex_word (h : lex (.word q w) s = some ts) :
    ∃ e ts', ts = .word (w ++ e) :: ts' := by
  -- induction on what is read: the word ends, or goes on with what the character puts out
  induction s generalizing q w with
  | nil =>
    cases q with
    | plain =>
      obtain rfl := Option.some.inj h
      exact ⟨[], [], by simp⟩
    | _ => cases h
  | cons c s ih =>
    rcases lex_word_cons h with ⟨-, -, ts', rfl⟩ | ⟨-, hnext⟩
    · exact ⟨[], ts', by simp⟩
    · obtain ⟨e, ts', rfl⟩ := ih hnext
      exact ⟨q.added c ++ e, ts', by simp⟩

/-- What is added to a word after a character. -/
theorem lex_word_next (h : lex (.word (q.next c) (w ++ q.added c)) s = some (.word (w ++ e) :: ts)) :
    ∃ e', e = q.added c ++ e' := by
  obtain ⟨e', ts', heq⟩ := exists_of_lex_word h
  have hword := Token.word.inj (List.cons.inj heq).1
  rw [List.append_assoc] at hword
  exact ⟨e', List.append_cancel_left hword⟩

/-! ## Spaces -/

/-- The spaces in a text; with `dash`, those before a dash. -/
def gaps (dash : Bool) : List Char → Nat
  | [] => 0
  | c :: s => gaps dash s + if c = ' ' ∧ (dash = true → s.head? = some '-') then 1 else 0

variable {dash : Bool}

/-- Only spaces count. -/
theorem gaps_cons_of_ne (hc : c ≠ ' ') : gaps dash (c :: s) = gaps dash s := by
  simp [gaps, hc]

/-- A space that no dash follows does not count, where a dash is asked for. -/
theorem gaps_cons_of_head (hs : s.head? ≠ some '-') : gaps true (c :: s) = gaps true s := by
  simp [gaps, hs]

/-- What is put in front of a text takes no space away from it. -/
theorem gaps_le_append (dash : Bool) (x s : List Char) : gaps dash s ≤ gaps dash (x ++ s) := by
  induction x with
  | nil => exact le_rfl
  | cons c x ih =>
    simp only [List.cons_append, gaps]
    omega

/-- A space is put out before what follows it. -/
theorem gaps_lt_added_space (dash : Bool) (q : Quoting) (he : dash = true → e.head? = some '-') :
    gaps dash e < gaps dash (q.added ' ' ++ e) := by
  -- the space counts, since what it stands before is as it has to be
  have hspace : gaps dash (' ' :: e) = gaps dash e + 1 := by
    rw [gaps, if_pos ⟨rfl, he⟩]
  -- in a quotation of either kind a space is put out, after a backslash inside double quotes
  rcases q.added_space with h | h
  · rw [h, List.singleton_append, hspace]
    omega
  · rw [h, List.cons_append, List.singleton_append, gaps_cons_of_ne (by decide), hspace]
    omega

/-- A dash that is not escaped is put out where it stands. -/
theorem head_of_lex_word (hq : q.unescaped = true) (hs : s.head? = some '-')
    (h : lex (.word q w) s = some (.word (w ++ e) :: ts)) : e.head? = some '-' := by
  cases s with
  | nil => cases hs
  | cons c s =>
    obtain rfl := Option.some.inj hs
    -- the dash is no blank and no operator, so the word does not end before it
    rcases lex_word_cons h with ⟨-, hend, -⟩ | ⟨-, hnext⟩
    · exact absurd hend (by decide)
    · obtain ⟨e', rfl⟩ := lex_word_next hnext
      rw [Quoting.added_dash hq]
      rfl

/-- If a word is read from the text `t` and more, then it goes on behind `t` only if it has one
    space more than `t`. -/
theorem length_le_or_gaps_lt (dash : Bool) (hs : dash = true → s.head? = some '-')
    (h : lex (.word q w) (t ++ ' ' :: s) = some (.word (w ++ e) :: ts)) :
    e.length ≤ t.length + q.owed ∨ gaps dash t < gaps dash e := by
  induction t generalizing q w e with
  | nil =>
    -- nothing of `t` is left, and the next character is the space
    rcases lex_word_cons h with ⟨-, -, ts', heq⟩ | ⟨-, hnext⟩
    · -- the word ends at the space
      have hword := Token.word.inj (List.cons.inj heq).1
      have hnil : e = [] := by simpa using hword
      exact .inl (by simp [hnil])
    · obtain ⟨e', rfl⟩ := lex_word_next hnext
      rw [← List.append_assoc] at hnext
      have hlt := gaps_lt_added_space dash q (e := e') fun hdash =>
        head_of_lex_word q.unescaped_next_space (hs hdash) hnext
      exact .inr (Nat.lt_of_le_of_lt (Nat.zero_le _) hlt)
  | cons c t ih =>
    rcases lex_word_cons h with ⟨-, -, ts', heq⟩ | ⟨-, hnext⟩
    -- the word ends in `t`, which makes it shorter
    · have hword := Token.word.inj (List.cons.inj heq).1
      have hnil : e = [] := by simpa using hword
      exact .inl (by simp [hnil])
    · obtain ⟨e', rfl⟩ := lex_word_next hnext
      rw [← List.append_assoc] at hnext
      rcases ih hnext with hlen | hgaps
      · -- as many characters as have been read
        have hadded := q.length_added c
        left
        simp only [List.length_append, List.length_cons]
        omega
      · right
        by_cases hc : c = ' ' ∧ (dash = true → t.head? = some '-')
        · -- the space is put out, and a dash behind it
          obtain ⟨rfl, ht⟩ := hc
          have hlt := gaps_lt_added_space dash q (e := e') fun hdash =>
            head_of_lex_word q.unescaped_next_space (by simp [ht hdash]) hnext
          rw [gaps, if_pos ⟨rfl, ht⟩]
          omega
        · have hle := gaps_le_append dash (q.added c) e'
          rw [gaps, if_neg hc]
          omega

/-! ## Plain texts -/

/-- A plain character is read as one of the word that has been begun. -/
theorem readChar_of_isPlain {next : Option Char} (hc : isPlain c next = true) :
    isBlank c = false ∧ isOperator c = false ∧
      readChar .plain w c next = some (.word .plain (w ++ [c])) := by
  simp only [isPlain, Bool.not_eq_true', Bool.or_eq_false_iff] at hc
  obtain ⟨⟨⟨hblank, hop⟩, hquote⟩, hunread⟩ := hc
  refine ⟨hblank, hop, ?_⟩
  simp only [isQuote, Bool.or_eq_false_iff, beq_eq_false_iff_ne] at hquote
  simp [readChar, Quoting.rejects, Quoting.next, Quoting.added, isQuote, hunread, hquote]

/-- A character that stands for itself is added to the word. -/
theorem lex_word_cons_of_isPlain (hc : isPlain c s.head? = true) :
    lex (.word .plain w) (c :: s) = lex (.word .plain (w ++ [c])) s := by
  obtain ⟨hblank, hop, hread⟩ := readChar_of_isPlain (w := w) hc
  simp [lex, step, hblank, hop, hread]

/-- The characters of a plain text are plain, if no expansion begins at its end. -/
theorem isPlain_head (hs : '$' ∉ c :: t ∨ s.head?.any opensExpansion = false)
    (hc : isPlain c t.head? = true) : isPlain c (t ++ s).head? = true := by
  cases t with
  | nil =>
    refine isPlain_congr _ _ (hs.imp_left fun hno hdollar => hno ?_) hc
    rw [hdollar]
    exact List.mem_cons_self
  | cons d t => exact hc

/-- A text that stands for itself is added to the word. -/
theorem lex_word_append (ht : isPlainText t = true)
    (hs : '$' ∉ t ∨ s.head?.any opensExpansion = false) :
    lex (.word .plain w) (t ++ s) = lex (.word .plain (w ++ t)) s := by
  induction t generalizing w with
  | nil => simp
  | cons c t ih =>
    rw [isPlainText, Bool.and_eq_true] at ht
    rw [List.cons_append, lex_word_cons_of_isPlain (isPlain_head hs ht.1),
      ih ht.2 (hs.imp_left fun hno hmem => hno (List.mem_cons_of_mem c hmem))]
    simp

/-- A word ends at a space. -/
theorem lex_word_space : lex (.word .plain w) (' ' :: s) = (lex .gap s).map (.word w :: ·) := by
  have hstep : step (.word .plain w) ' ' s.head? = some ([.word w], .gap) := rfl
  simp [lex, hstep]

/-- A space between two words is passed over. -/
theorem lex_gap_space : lex .gap (' ' :: s) = lex .gap s := by
  have hstep : step .gap ' ' s.head? = some ([], .gap) := rfl
  simp [lex, hstep]

/-- A plain character begins a word. -/
theorem lex_gap_cons (hc : isPlain c s.head? = true) (ho : isOpening c = false) :
    lex .gap (c :: s) = lex (.word .plain [c]) s := by
  obtain ⟨hblank, hop, hread⟩ := readChar_of_isPlain (w := []) hc
  simp only [isOpening, Bool.or_eq_false_iff, beq_eq_false_iff_ne] at ho
  have hne : c ≠ '\\' := by
    rintro rfl
    cases hc
  simp [lex, step, hblank, hop, ho, hne, hread]

/-- A text without special characters is a word. -/
theorem lex_gap_word (hw : IsWord w) (hs : '$' ∉ w ∨ s.head?.any opensExpansion = false) :
    lex .gap (w ++ s) = lex (.word .plain w) s := by
  obtain ⟨hne, hplain, hopening⟩ := hw
  -- the first character begins the word, and the others are added
  cases w with
  | nil => exact absurd rfl hne
  | cons c w =>
    rw [isPlainText, Bool.and_eq_true] at hplain
    rw [List.cons_append, lex_gap_cons (isPlain_head hs hplain.1) (hopening c rfl),
      lex_word_append hplain.2 (hs.imp_left fun hno hmem => hno (List.mem_cons_of_mem c hmem))]
    rfl

/-- So it is one of the words of a line. -/
theorem lex_gap_append (hw : IsWord w) :
    lex .gap (w ++ ' ' :: s) = (lex .gap s).map (.word w :: ·) := by
  rw [lex_gap_word hw (.inr rfl), lex_word_space]

/-- A quotation or an escape begins with the character. -/
theorem next_of_isQuote (hc : isQuote c = true) :
    Quoting.plain.added c = [] ∧ (Quoting.plain.next c).owed = 0 ∧ c ≠ ' ' := by
  simp only [isQuote, Bool.or_eq_true, beq_iff_eq] at hc
  rcases hc with (rfl | rfl) | rfl <;> decide

/-- A quotation puts out less than is read, unless it goes on behind the space and puts out
    that as well. -/
theorem lex_ne_of_isQuote (hc : isQuote c = true) :
    lex (.word (Quoting.plain.next c) (w ++ Quoting.plain.added c)) (t ++ ' ' :: s) ≠
      some (.word (w ++ c :: t) :: ts) := by
  intro h
  obtain ⟨hadded, howed, hspace⟩ := next_of_isQuote hc
  rw [hadded, List.append_nil] at h
  -- either as many characters are put out as are read, or one space more; both are not the text
  rcases length_le_or_gaps_lt false (by simp) h with hlen | hlt
  · rw [howed, List.length_cons] at hlen
    omega
  · rw [gaps_cons_of_ne hspace] at hlt
    omega

/-- What is plain before a space is plain at the end of a text. -/
theorem isPlain_head_of_space (hc : isPlain c (t ++ ' ' :: s).head? = true) :
    isPlain c t.head? = true := by
  cases t with
  | nil => exact isPlain_congr _ _ (.inr rfl) hc
  | cons d t => exact hc

/-- If what stands behind the beginning of a word up to a space is read as it stands, it is
    plain. -/
theorem isPlain_of_lex_word
    (h : lex (.word .plain w) (t ++ ' ' :: s) = some (.word (w ++ t) :: ts)) :
    isPlainText t = true ∧ lex .gap s = some ts := by
  induction t generalizing w with
  -- nothing is left, so the word ends at the space
  | nil =>
    rw [List.nil_append, lex_word_space] at h
    obtain ⟨ts', hts, heq⟩ := Option.map_eq_some_iff.mp h
    refine ⟨rfl, ?_⟩
    rw [hts, (List.cons.inj heq).2]
  | cons c t ih =>
    -- a character that stands for itself is put out, and the rest is read in the same way
    by_cases hc : isPlain c (t ++ ' ' :: s).head? = true
    · rw [List.cons_append, lex_word_cons_of_isPlain hc] at h
      obtain ⟨ht, hs⟩ := ih (w := w ++ [c]) (by simpa using h)
      exact ⟨(Bool.and_eq_true _ _).mpr ⟨isPlain_head_of_space hc, ht⟩, hs⟩
    · exfalso
      rcases lex_word_cons h with ⟨-, -, ts', heq⟩ | ⟨hread, hnext⟩
      · -- the word ends before `c`
        have hword := Token.word.inj (List.cons.inj heq).1
        simp at hword
      · exact lex_ne_of_isQuote ((hread rfl).resolve_left hc) hnext

/-! ## Texts between two tokens -/

/-- An operator is no word. -/
theorem ne_word_of_operator {next : Option Char} {tok : Token}
    (h : operator c next = some (tok, st)) : tok ≠ .word e := by
  unfold operator at h
  split_ifs at h <;> cases h <;> simp

/-- No word is read in a comment. -/
theorem lex_comment_ne : lex .comment s ≠ some (.word e :: ts) := by
  induction s with
  | nil => simp [lex, finish]
  | cons c s ih =>
    intro h
    obtain ⟨ts₁, st', ts₂, hstep, hlex, heq⟩ := lex_cons h
    by_cases hc : c = '\n'
    -- the comment ends with its line, whose first token is the newline
    · simp only [step, if_pos hc] at hstep
      cases hstep
      cases heq
    · simp only [step, if_neg hc] at hstep
      cases hstep
      rw [List.nil_append] at heq
      exact ih (heq ▸ hlex)

/-- Behind an escaped newline a word may begin. -/
theorem lex_skip_cons : lex .skip (c :: s) = lex .gap s := by
  simp [lex, step]

/-- Where a word is read next, a blank or the beginning of an escaped newline is passed over,
    and another character belongs to the word. -/
theorem lex_gap_cases (h : lex .gap (c :: s) = some (.word e :: ts)) :
    (isBlank c = true ∧ lex .gap s = some (.word e :: ts)) ∨
    (c = '\\' ∧ lex .skip s = some (.word e :: ts)) ∨
    (((isPlain c s.head? = true ∧ isOpening c = false) ∨ isQuote c = true) ∧
      lex (.word (Quoting.plain.next c) (Quoting.plain.added c)) s = some (.word e :: ts)) := by
  obtain ⟨ts₁, st', ts₂, hstep, hlex, heq⟩ := lex_cons h
  -- the cases of `step` between two words, each by its test
  simp only [step] at hstep
  split at hstep
  · rename_i hblank
    cases hstep
    rw [heq]
    exact .inl ⟨hblank, hlex⟩
  · rename_i hblank
    split at hstep
    · -- an operator is another token
      obtain ⟨⟨tok, st⟩, hop, hst⟩ := Option.map_eq_some_iff.mp hstep
      cases hst
      exact absurd (List.cons.inj heq).1.symm (ne_word_of_operator hop)
    · rename_i hop
      split at hstep
      · cases hstep
        rw [List.nil_append] at heq
        exact absurd (heq ▸ hlex) lex_comment_ne
      · rename_i hcomment
        split at hstep
        · cases hstep
        · rename_i htilde
          split at hstep
          · rename_i hnewline
            cases hstep
            rw [heq]
            exact .inr (.inl ⟨hnewline.1, hlex⟩)
          · obtain ⟨st, hread, hst⟩ := Option.map_eq_some_iff.mp hstep
            cases hst
            obtain ⟨hrejects, rfl⟩ := readChar_eq_some hread
            rw [heq]
            refine .inr (.inr ⟨?_, hlex⟩)
            by_cases hplain : isPlain c s.head? = true
            · exact .inl ⟨hplain, by simp [isOpening, hcomment, htilde]⟩
            -- the character is none that a word cannot begin with
            · rcases not_isPlain_cases hplain with hc | hc | hc | hc <;>
                simp_all [Quoting.rejects]

/-- A dash begins a word. -/
theorem head_of_lex_gap (hs : s.head? = some '-') (h : lex .gap s = some (.word e :: ts)) :
    e.head? = some '-' := by
  cases s with
  | nil => cases hs
  | cons c s =>
    obtain rfl := Option.some.inj hs
    -- a dash stands for itself, whatever follows
    have hplain : isPlain '-' s.head? = true := isPlain_congr none _ (.inl (by decide)) (by decide)
    rw [lex_gap_cons hplain (by decide)] at h
    obtain ⟨e', ts', heq⟩ := exists_of_lex_word h
    rw [Token.word.inj (List.cons.inj heq).1]
    rfl

/-- No dash stands behind a character that is passed over before such a word. -/
theorem gaps_cons_of_pass (hc : st = .gap ∨ c ≠ ' ') (he : e.head? ≠ some '-')
    (h : lex st (t ++ ' ' :: s) = some (.word e :: ts)) : gaps true (c :: t) = gaps true t := by
  rcases hc with rfl | hc
  · refine gaps_cons_of_head fun ht => he (head_of_lex_gap ?_ h)
    simp [ht]
  · exact gaps_cons_of_ne hc

/-- `length_le_or_gaps_lt` for a word that does not begin with a dash and has yet to begin. -/
theorem length_le_or_gaps_lt_of_gap (hst : st = .gap ∨ st = .skip) (hs : s.head? = some '-')
    (he : e.head? ≠ some '-') (h : lex st (t ++ ' ' :: s) = some (.word e :: ts)) :
    e.length ≤ t.length ∨ gaps true t < gaps true e := by
  induction t generalizing st with
  | nil =>
    -- the word would begin with the dash
    have hgap : lex .gap s = some (.word e :: ts) := by
      rcases hst with rfl | rfl
      · rw [List.nil_append, lex_gap_space] at h
        exact h
      · rw [List.nil_append, lex_skip_cons] at h
        exact h
    exact absurd (head_of_lex_gap hs hgap) he
  | cons c t ih =>
    -- a character that is passed over
    have hpass : ∀ st, st = .gap ∨ st = .skip → (st = .gap ∨ c ≠ ' ') →
        lex st (t ++ ' ' :: s) = some (.word e :: ts) →
        e.length ≤ (c :: t).length ∨ gaps true (c :: t) < gaps true e := by
      intro st hst hc hlex
      rw [gaps_cons_of_pass hc he hlex, List.length_cons]
      rcases ih hst hlex with hlen | hlt
      · exact .inl (by omega)
      · exact .inr hlt
    rcases hst with rfl | rfl
    -- between two words: a blank, an escaped newline, or the beginning of a word
    · rcases lex_gap_cases h with ⟨-, hlex⟩ | ⟨rfl, hlex⟩ | ⟨hc, hlex⟩
      · exact hpass .gap (.inl rfl) (.inl rfl) hlex
      · exact hpass .skip (.inr rfl) (.inr (by decide)) hlex
      · -- the word begins here
        have hspace : c ≠ ' ' := by
          rintro rfl
          rcases hc with ⟨hplain, -⟩ | hquote
          · cases hplain
          · cases hquote
        obtain ⟨e', ts', heq⟩ := exists_of_lex_word hlex
        obtain rfl := Token.word.inj (List.cons.inj heq).1
        have hadded := Quoting.plain.length_added c
        have howed : Quoting.plain.owed = 0 := rfl
        rw [gaps_cons_of_ne hspace]
        rcases length_le_or_gaps_lt true (fun _ => hs) hlex with hlen | hlt
        · left
          simp only [List.length_append, List.length_cons]
          omega
        · exact .inr (hlt.trans_le (gaps_le_append _ _ _))
    · rw [List.cons_append, lex_skip_cons] at h
      exact hpass .gap (.inl rfl) (.inl rfl) h

/-- If what stands before a space and an option is read as it stands, it is a word. -/
theorem isWord_of_lex (hs : s.head? = some '-')
    (h : lex .gap (t ++ ' ' :: s) = some (.word t :: ts)) :
    IsWord t ∧ lex .gap s = some ts := by
  cases t with
  | nil =>
    rw [List.nil_append, lex_gap_space] at h
    exact absurd (head_of_lex_gap hs h) (by simp)
  | cons c t =>
    -- a word that begins behind a character that is passed over is too short
    have hpass : ∀ st, st = .gap ∨ st = .skip → (st = .gap ∨ c ≠ ' ') → c ≠ '-' →
        lex st (t ++ ' ' :: s) ≠ some (.word (c :: t) :: ts) := by
      intro st hst hc hdash hlex
      have he : (c :: t).head? ≠ some '-' := by simpa using hdash
      have hcases := length_le_or_gaps_lt_of_gap hst hs he hlex
      rw [gaps_cons_of_pass hc he hlex, List.length_cons] at hcases
      omega
    -- between two words: a blank or an escaped newline is passed over, or the word begins
    rcases lex_gap_cases h with ⟨hblank, hlex⟩ | ⟨rfl, hlex⟩ | ⟨hc, hlex⟩
    · refine absurd hlex (hpass .gap (.inl rfl) (.inl rfl) ?_)
      rintro rfl
      cases hblank
    · exact absurd hlex (hpass .skip (.inr rfl) (.inr (by decide)) (by decide))
    · rcases hc with ⟨hplain, hopening⟩ | hquote
      · have hplain : isPlain c (t ++ ' ' :: s).head? = true := hplain
        rw [List.cons_append, lex_gap_cons hplain hopening] at h
        obtain ⟨ht, hrest⟩ := isPlain_of_lex_word (w := [c]) h
        refine ⟨⟨by simp, ?_, ?_⟩, hrest⟩
        · exact (Bool.and_eq_true _ _).mpr ⟨isPlain_head_of_space hplain, ht⟩
        · simpa using hopening
      · exact absurd hlex (lex_ne_of_isQuote (w := []) hquote)

/-! ## Commands and their words -/

variable {must : Bool} {ws u v : List (List Char)} {r : List Token}

/-- Words are collected for the command that has been begun. -/
theorem parse_words : parse must ws (u.map .word ++ r) = parse must (ws ++ u) r := by
  induction u generalizing ws with
  | nil => simp
  | cons w u ih =>
    rw [List.map_cons, List.cons_append, parse, ih]
    simp

/-- If there is a single command, it is the one that has been begun. -/
theorem eq_of_map_cons {x : Option (List (List (List Char)))} (h : x.map (ws :: ·) = some [v]) :
    ws = v := by
  obtain ⟨cs, -, heq⟩ := Option.map_eq_some_iff.mp h
  exact (List.cons.inj heq).1

/-- The words of a command that is the only one are those before the first operator. -/
theorem exists_words_of_parse (h : parse must ws ts = some [v]) (hws : ws ≠ []) :
    ∃ u r, v = ws ++ u ∧ ts = u.map .word ++ r := by
  induction ts generalizing ws with
  | nil =>
    rw [parse, if_neg hws] at h
    have hv : ws = v := by simpa using h
    exact ⟨[], [], by simp [hv], rfl⟩
  | cons tok ts ih =>
    cases tok with
    | word w =>
      obtain ⟨u, r, rfl, rfl⟩ := ih h (by simp)
      exact ⟨w :: u, r, by simp, rfl⟩
    -- any operator ends the first command, and a second one is not there
    | newline | ends | joins =>
      rw [parse, if_neg hws] at h
      exact ⟨[], _, by simp [eq_of_map_cons h], rfl⟩

/-- A line of words up to the operator at its end is one command. -/
theorem commands_of_lex (h : lex .gap s = some (ws.map .word ++ [.ends])) (hws : ws ≠ []) :
    commands s = some [ws] := by
  simp [commands, h, parse_words, parse, hws]

/-- If a line that begins with a word is a single command, its tokens begin with the words of
    the command. -/
theorem lex_of_commands (hw : IsWord w) (h : commands (w ++ ' ' :: s) = some [v]) :
    ∃ u r, v = w :: u ∧ lex .gap s = some (u.map .word ++ r) := by
  rw [commands, lex_gap_append hw] at h
  obtain ⟨ts, hline, hparse⟩ := Option.bind_eq_some_iff.mp h
  obtain ⟨ts', hlex, rfl⟩ := Option.map_eq_some_iff.mp hline
  rw [parse] at hparse
  obtain ⟨u, r, rfl, rfl⟩ := exists_words_of_parse hparse (by simp)
  exact ⟨u, r, rfl, hlex⟩

/-- A word is read before the rest of the line. -/
theorem lex_of_lex_gap_append (hw : IsWord w)
    (h : lex .gap (w ++ ' ' :: s) = some ((e :: u).map .word ++ r)) :
    lex .gap s = some (u.map .word ++ r) := by
  rw [lex_gap_append hw] at h
  obtain ⟨ts, hlex, heq⟩ := Option.map_eq_some_iff.mp h
  rw [hlex, (List.cons.inj heq).2]
  rfl

end

end Shell
