import WorkloadSimulator.ForStd.Decimal
import WorkloadSimulator.ForStd.Json

/-!
# Writers of JSON

The texts that `json.Marshal` of Go, `JSON.stringify` of JavaScript and `json.dumps` of Python
make of a value. They escape different characters, by a letter or by the units of UTF-16.
-/

namespace Json

/-! ## Escapes -/

/-- A unit of UTF-16 behind `\u`. -/
def escapeUnit (n : Nat) : List Char :=
  ['\\', 'u', (n / 4096).digitChar, (n / 256 % 16).digitChar, (n / 16 % 16).digitChar,
    (n % 16).digitChar]

/-- The letters that stand for a character behind a backslash. -/
def escapeLetters : List (Char × Char) :=
  [('"', '"'), ('\\', '\\'), ('\x08', 'b'), ('\x0c', 'f'), ('\n', 'n'), ('\r', 'r'), ('\t', 't')]

/-- The texts that stand for a character in a string. -/
inductive Escapes (c : Char) : List Char → Prop where
  | self (hbackslash : c ≠ '\\') (hquote : c ≠ '"') (hctrl : 0x20 ≤ c.toNat) : Escapes c [c]
  | letter {x : Char} (h : (c, x) ∈ escapeLetters) : Escapes c ['\\', x]
  | unit (h : c.toNat < 0x10000) : Escapes c (escapeUnit c.toNat)
  | pair (h : 0x10000 ≤ c.toNat) :
      Escapes c (escapeUnit (0xd800 + (c.toNat - 0x10000) / 0x400) ++
        escapeUnit (0xdc00 + (c.toNat - 0x10000) % 0x400))

/-- A hexadecimal digit is read as its value. -/
theorem hexDigit?_digitChar {n : Nat} (h : n < 16) : hexDigit? n.digitChar = some n := by
  revert n
  decide

/-- The four digits of a unit are read as the unit. -/
theorem hex4?_escapeUnit {n : Nat} (h : n < 0x10000) (s : List Char) :
    hex4? ((n / 4096).digitChar :: (n / 256 % 16).digitChar :: (n / 16 % 16).digitChar ::
      (n % 16).digitChar :: s) = some (n, s) := by
  -- the digits are those of `n` to the base 16
  have hdigits : ((n / 4096 * 16 + n / 256 % 16) * 16 + n / 16 % 16) * 16 + n % 16 = n := by omega
  rw [hex4?, hexDigit?_digitChar (by omega), hexDigit?_digitChar (by omega),
    hexDigit?_digitChar (by omega), hexDigit?_digitChar (by omega)]
  exact congrArg (fun m => some (m, s)) hdigits

/-- A unit that is no surrogate is a character. -/
theorem readChar_escapeUnit {c : Char} (h : c.toNat < 0x10000) (s : List Char) :
    readChar (escapeUnit c.toNat ++ s) = some (c, s) := by
  -- a character is never a surrogate, which is what makes its unit one that stands alone
  have hchar : c.toNat < 0xd800 ∨ 0xdfff < c.toNat := by
    rcases c.valid with hlt | ⟨hgt, -⟩
    · exact .inl hlt
    · exact .inr hgt
  simp only [escapeUnit, List.cons_append, List.nil_append]
  rw [readChar, readUnit, hex4?_escapeUnit h]
  show (if c.toNat < 0xd800 ∨ 0xdfff < c.toNat then some (Char.ofNat c.toNat, s) else _) = _
  rw [if_pos hchar, Char.ofNat_toNat]

/-- A high and a low surrogate are read as one character beyond the first 65536. -/
theorem readChar_escapeUnits {high low : Nat} (hhigh : 0xd800 ≤ high ∧ high < 0xdc00)
    (hlow : 0xdc00 ≤ low ∧ low ≤ 0xdfff) (s : List Char) :
    readChar (escapeUnit high ++ (escapeUnit low ++ s)) =
      some (Char.ofNat (0x10000 + (high - 0xd800) * 0x400 + (low - 0xdc00)), s) := by
  -- the first unit is no character, so a second one is looked for
  have hsurrogate : ¬(high < 0xd800 ∨ 0xdfff < high) := by omega
  simp only [escapeUnit, List.cons_append, List.nil_append]
  rw [readChar, readUnit, hex4?_escapeUnit (by omega)]
  show (if high < 0xd800 ∨ 0xdfff < high then _ else _) = _
  rw [if_neg hsurrogate, unit?, hex4?_escapeUnit (by omega)]
  show (if high < 0xdc00 ∧ 0xdc00 ≤ low ∧ low ≤ 0xdfff then _ else _) = _
  rw [if_pos ⟨hhigh.2, hlow⟩]
  rfl

/-- Two surrogates are the character that they have been made of. -/
theorem readChar_escapePair {c : Char} (h : 0x10000 ≤ c.toNat) (s : List Char) :
    readChar (escapeUnit (0xd800 + (c.toNat - 0x10000) / 0x400) ++
      (escapeUnit (0xdc00 + (c.toNat - 0x10000) % 0x400) ++ s)) = some (c, s) := by
  have hlt : c.toNat < 0x110000 := by
    rcases c.valid with hlt | ⟨-, hlt⟩
    · exact hlt.trans (by decide)
    · exact hlt
  -- the halves of the number go into the two surrogates and come out again
  have hvalue : 0x10000 + (0xd800 + (c.toNat - 0x10000) / 0x400 - 0xd800) * 0x400 +
      (0xdc00 + (c.toNat - 0x10000) % 0x400 - 0xdc00) = c.toNat := by omega
  rw [readChar_escapeUnits (by omega) (by omega), hvalue, Char.ofNat_toNat]

/-- A text that stands for a character is read as this character, whatever follows. -/
theorem readChar_of_escapes {c : Char} {t : List Char} (h : Escapes c t) (s : List Char) :
    readChar (t ++ s) = some (c, s) := by
  cases h with
  | self hbackslash hquote hctrl =>
    rw [List.singleton_append, readChar]
    · exact if_neg (Nat.not_lt.mpr hctrl)
    -- neither of the other branches of `readChar` begins with this character
    all_goals
      intros
      exact hbackslash (by assumption)
  -- one of the seven letters
  | @letter x h =>
    simp only [escapeLetters, List.mem_cons, List.not_mem_nil, or_false, Prod.mk.injEq] at h
    rcases h with ⟨rfl, rfl⟩ | ⟨rfl, rfl⟩ | ⟨rfl, rfl⟩ | ⟨rfl, rfl⟩ | ⟨rfl, rfl⟩ | ⟨rfl, rfl⟩ |
      ⟨rfl, rfl⟩ <;> rfl
  | unit h => exact readChar_escapeUnit h s
  | pair h =>
    rw [List.append_assoc]
    exact readChar_escapePair h s

/-- A text that stands for a character does not end the string. -/
theorem head_of_escapes {c : Char} {t : List Char} (h : Escapes c t) : t.head? ≠ some '"' := by
  cases h with
  -- only the quote itself would, and it does not stand for itself
  | self hbackslash hquote => exact fun h => hquote (Option.some.inj h)
  | letter | unit | pair => exact (by decide : some '\\' ≠ some '"')

/-- A style that escapes by such texts is read back. -/
theorem Style.readable {style : Style} (hescape : ∀ c, Escapes c (style.escape c))
    (hspace : ∀ c ∈ style.space, isSpace c = true) : style.Readable where
  readChar c := readChar_of_escapes (hescape c)
  head c := head_of_escapes (hescape c)
  space := hspace

/-! ## Three writers -/

/-- The escape by a letter of `letters`, or else by a unit where `units` says so. -/
def escapeWith (letters : List (Char × Char)) (units : Char → Bool) (c : Char) : List Char :=
  match letters.lookup c with
  | some x => ['\\', x]
  | none =>
    if !units c then [c]
    else if c.toNat < 0x10000 then escapeUnit c.toNat
    else escapeUnit (0xd800 + (c.toNat - 0x10000) / 0x400) ++
      escapeUnit (0xdc00 + (c.toNat - 0x10000) % 0x400)

/-- `escapeWith` is an escape if its letters are, and if it leaves no character that must be
    escaped. -/
theorem escapes_escapeWith {letters : List (Char × Char)} {units : Char → Bool} {c : Char}
    (hletters : ∀ x ∈ letters, x ∈ escapeLetters)
    (hself : letters.lookup c = none → units c = false → c ≠ '\\' ∧ c ≠ '"' ∧ 0x20 ≤ c.toNat) :
    Escapes c (escapeWith letters units c) := by
  unfold escapeWith
  split
  -- the letter is one of the list, with the character that it stands for
  · rename_i x hx
    obtain ⟨before, behind, rfl, -⟩ := List.lookup_eq_some_iff.mp hx
    exact .letter (hletters _ (by simp))
  · rename_i hnone
    split
    · rename_i hunits
      obtain ⟨hbackslash, hquote, hctrl⟩ := hself hnone (by simpa using hunits)
      exact .self hbackslash hquote hctrl
    -- one unit or two, by the size of the character
    · split
      · rename_i hlt
        exact .unit hlt
      · rename_i hlt
        exact .pair (Nat.not_lt.mp hlt)

/-- `json.Marshal` of Go, which also escapes what HTML and JavaScript would read. -/
def goStyle : Style where
  escape := escapeWith [('"', '"'), ('\\', '\\'), ('\n', 'n'), ('\r', 'r'), ('\t', 't')] fun c =>
    c.toNat < 0x20 ∨ c = '<' ∨ c = '>' ∨ c = '&' ∨ c = '\u2028' ∨ c = '\u2029'
  space := []

/-- `JSON.stringify` of JavaScript. -/
def jsStyle : Style where
  escape := escapeWith escapeLetters fun c => c.toNat < 0x20
  space := []

/-- `json.dumps` of Python, whose texts are ASCII. -/
def pyStyle : Style where
  escape := escapeWith escapeLetters fun c => c.toNat < 0x20 ∨ 0x7f ≤ c.toNat
  space := [' ']

/-- Where quote and backslash have letters, a character without a letter is neither. -/
theorem lookup_quote_backslash {letters : List (Char × Char)} {c : Char}
    (hquote : ('"', '"') ∈ letters) (hbackslash : ('\\', '\\') ∈ letters)
    (h : letters.lookup c = none) : c ≠ '\\' ∧ c ≠ '"' := by
  rw [List.lookup_eq_none_iff] at h
  constructor
  · rintro rfl
    exact absurd (h _ hbackslash) (by decide)
  · rintro rfl
    exact absurd (h _ hquote) (by decide)

/-- What Go writes is read back. -/
theorem readable_goStyle : goStyle.Readable := by
  apply Style.readable
  · intro c
    apply escapes_escapeWith (by decide)
    intro hnone hunits
    obtain ⟨hbackslash, hquote⟩ := lookup_quote_backslash (by decide) (by decide) hnone
    -- control characters are among those that Go escapes by units
    simp only [decide_eq_false_iff_not, not_or, Nat.not_lt] at hunits
    exact ⟨hbackslash, hquote, hunits.1⟩
  · simp [goStyle]

/-- What JavaScript writes is read back. -/
theorem readable_jsStyle : jsStyle.Readable := by
  apply Style.readable
  · intro c
    apply escapes_escapeWith (fun _ h => h)
    intro hnone hunits
    obtain ⟨hbackslash, hquote⟩ := lookup_quote_backslash (by decide) (by decide) hnone
    simp only [decide_eq_false_iff_not, Nat.not_lt] at hunits
    exact ⟨hbackslash, hquote, hunits⟩
  · simp [jsStyle]

/-- What Python writes is read back: after a comma or a colon it writes a space. -/
theorem readable_pyStyle : pyStyle.Readable := by
  apply Style.readable
  · intro c
    apply escapes_escapeWith (fun _ h => h)
    intro hnone hunits
    obtain ⟨hbackslash, hquote⟩ := lookup_quote_backslash (by decide) (by decide) hnone
    simp only [decide_eq_false_iff_not, not_or, Nat.not_lt] at hunits
    exact ⟨hbackslash, hquote, hunits.1⟩
  · simp [pyStyle, isSpace]

/-! ## Whole numbers -/

/-- A whole number. -/
def ofInt (n : Int) : Json := .num n.numeral

/-- The value of a literal of a whole number. -/
def int? : Json → Option Int
  | .num lit => Int.ofNumeral? lit
  | _ => none

/-- A numeral consists of digits only. -/
theorem takeWhile_toDigits (n : Nat) :
    (Nat.toDigits 10 n).takeWhile Char.isDigit = Nat.toDigits 10 n ∧
      (Nat.toDigits 10 n).dropWhile Char.isDigit = [] :=
  ⟨List.takeWhile_eq_self_iff.mpr Nat.isDigit_toDigits,
    List.dropWhile_eq_nil_iff.mpr Nat.isDigit_toDigits⟩

/-- A numeral is a literal. -/
theorem isUnsigned_toDigits (n : Nat) : isUnsigned (Nat.toDigits 10 n) = true := by
  obtain ⟨htake, hdrop⟩ := takeWhile_toDigits n
  have hne : Nat.toDigits 10 n ≠ [] := Nat.toDigits_ne_nil
  by_cases hn : n = 0
  -- a zero may stand only alone
  · subst hn
    decide
  · have hhead := Nat.head_toDigits_ne hn
    -- another numeral does not begin with a zero, so nothing but its digits is looked at
    generalize Nat.toDigits 10 n = s at htake hdrop hne hhead
    rw [isUnsigned]
    · simp [htake, hdrop, hne, isFraction, isExponent]
    · rintro t rfl
      exact hhead rfl

theorem isNumberChar_of_isDigit {c : Char} (hc : c.isDigit = true) : isNumberChar c = true := by
  simp [isNumberChar, hc]

/-- The numeral of a whole number is a literal, also with its sign. -/
theorem isNumber_numeral (n : Int) : isNumber n.numeral = true := by
  have hchars : (Nat.toDigits 10 n.natAbs).all isNumberChar = true :=
    List.all_eq_true.mpr fun c hc => isNumberChar_of_isDigit (Nat.isDigit_toDigits c hc)
  unfold Int.numeral
  split
  · rw [isNumber, List.all_cons, hchars]
    -- behind the minus the numeral is one without a sign
    exact isUnsigned_toDigits _
  · rw [isNumber, hchars, Bool.true_and]
    · exact isUnsigned_toDigits _
    · exact fun s h => Nat.toDigits_ne_minus h

theorem valid_ofInt (n : Int) : (ofInt n).Valid := .num (isNumber_numeral n)

@[simp] theorem int?_ofInt (n : Int) : int? (ofInt n) = some n := Int.ofNumeral?_numeral n

/-! ## Decimal numbers -/

/-- The number that a literal writes: its digits as one numeral, times a power of ten. -/
structure Decimal where
  negative : Bool
  digits : Nat
  exponent : Int

/-- What stands behind the digits of a fraction: a letter, a sign and digits, or nothing. -/
def exponentOf : List Char → Int
  | _ :: '-' :: s => -(Nat.ofDigitChars 10 s 0 : Int)
  | _ :: '+' :: s => Nat.ofDigitChars 10 s 0
  | _ :: s => Nat.ofDigitChars 10 s 0
  | [] => 0

/-- A number without its sign. -/
def unsignedOf (negative : Bool) (s : List Char) : Decimal :=
  let whole := s.takeWhile Char.isDigit
  match s.dropWhile Char.isDigit with
  | '.' :: s =>
    let fraction := s.takeWhile Char.isDigit
    ⟨negative, Nat.ofDigitChars 10 (whole ++ fraction) 0,
      exponentOf (s.dropWhile Char.isDigit) - fraction.length⟩
  | s => ⟨negative, Nat.ofDigitChars 10 whole 0, exponentOf s⟩

/-- The number of a literal. -/
def decimal : List Char → Decimal
  | '-' :: s => unsignedOf true s
  | s => unsignedOf false s

/-- The number of 64 bits that is nearest to a literal, with its sign also where it is zero. -/
def toFloat (lit : List Char) : Float.Model :=
  let d := decimal lit
  let x := Float.Model.ofScientific d.digits d.exponent
  if d.negative then x.neg else x

example : decimal "-12.50e+3".toList = ⟨true, 1250, 1⟩ := rfl

end Json
