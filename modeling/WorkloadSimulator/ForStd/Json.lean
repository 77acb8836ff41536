import Mathlib

/-!
# JSON texts

Values of JSON with a reader for their texts and a writer. A number keeps its literal, and an
object its members in the order in which they stand.

Writers differ in the characters that they escape and in the spaces around their separators
(`Json.Style`). The reader gets back what any of them has written (`Json.decode_print`).
-/

/-- A value. -/
inductive Json where
  | null
  | bool (b : Bool)
  | num (lit : List Char)
  | str (s : List Char)
  | arr (items : List Json)
  | obj (members : List (List Char × Json))

namespace Json

/-! ## Characters of a string -/

/-- White space between the tokens. -/
def isSpace (c : Char) : Bool := c = ' ' ∨ c = '\t' ∨ c = '\n' ∨ c = '\r'

/-- The value of a hexadecimal digit. -/
def hexDigit? (c : Char) : Option Nat :=
  if '0' ≤ c ∧ c ≤ '9' then some (c.toNat - '0'.toNat)
  else if 'a' ≤ c ∧ c ≤ 'f' then some (c.toNat - 'a'.toNat + 10)
  else if 'A' ≤ c ∧ c ≤ 'F' then some (c.toNat - 'A'.toNat + 10)
  else none

/-- The number of four hexadecimal digits, and what follows them. -/
def hex4? : List Char → Option (Nat × List Char)
  | a :: b :: c :: d :: s => do
    let a ← hexDigit? a
    let b ← hexDigit? b
    let c ← hexDigit? c
    let d ← hexDigit? d
    return (((a * 16 + b) * 16 + c) * 16 + d, s)
  | _ => none

/-- The unit at the beginning of a text, with its `\u`, and what follows it. -/
def unit? : List Char → Option (Nat × List Char)
  | '\\' :: 'u' :: s => hex4? s
  | _ => none

/-- The character behind `\u`. Two surrogates are one character; one alone is none. -/
def readUnit (s : List Char) : Option (Char × List Char) := do
  let (n, s) ← hex4? s
  if n < 0xd800 ∨ 0xdfff < n then return (Char.ofNat n, s)
  else match unit? s with
    | some (m, s') =>
      if n < 0xdc00 ∧ 0xdc00 ≤ m ∧ m ≤ 0xdfff then
        return (Char.ofNat (0x10000 + (n - 0xd800) * 0x400 + (m - 0xdc00)), s')
      else return ('\ufffd', s)
    | none => return ('\ufffd', s)

/-- A character of a string, as it stands or escaped. -/
def readChar : List Char → Option (Char × List Char)
  | '\\' :: '"' :: s => some ('"', s)
  | '\\' :: '\\' :: s => some ('\\', s)
  | '\\' :: '/' :: s => some ('/', s)
  | '\\' :: 'b' :: s => some ('\x08', s)
  | '\\' :: 'f' :: s => some ('\x0c', s)
  | '\\' :: 'n' :: s => some ('\n', s)
  | '\\' :: 'r' :: s => some ('\r', s)
  | '\\' :: 't' :: s => some ('\t', s)
  | '\\' :: 'u' :: s => readUnit s
  | '\\' :: _ => none
  | c :: s => if c.toNat < 0x20 then none else some (c, s)
  | [] => none

/-- A string behind its first quote, where `fuel` bounds its length. -/
def readString : Nat → List Char → Option (List Char × List Char)
  | 0, _ => none
  | fuel + 1, s => match s with
    | '"' :: s => some ([], s)
    | s => do
      let (c, s) ← readChar s
      let (cs, s) ← readString fuel s
      return (c :: cs, s)

/-! ## Numbers -/

/-- The characters of number literals. -/
def isNumberChar (c : Char) : Bool :=
  c.isDigit ∨ c = '-' ∨ c = '+' ∨ c = '.' ∨ c = 'e' ∨ c = 'E'

/-- Digits, one at least, up to the end. -/
def isDigits (s : List Char) : Bool := !s.isEmpty && s.all Char.isDigit

/-- An exponent, or the end. -/
def isExponent : List Char → Bool
  | [] => true
  | c :: s => (c = 'e' ∨ c = 'E') && match s with
    | '+' :: s => isDigits s
    | '-' :: s => isDigits s
    | s => isDigits s

/-- A fraction with an exponent, or either of them, or the end. -/
def isFraction : List Char → Bool
  | '.' :: s => (s.takeWhile Char.isDigit).length != 0 && isExponent (s.dropWhile Char.isDigit)
  | s => isExponent s

/-- A number without its sign: no digit stands behind a leading zero. -/
def isUnsigned : List Char → Bool
  | '0' :: s => isFraction s
  | s => (s.takeWhile Char.isDigit).length != 0 && isFraction (s.dropWhile Char.isDigit)

/-- A number literal. -/
def isNumber (lit : List Char) : Bool :=
  lit.all isNumberChar && match lit with
    | '-' :: s => isUnsigned s
    | s => isUnsigned s

/-! ## Values -/

/-- What stands up to the character `close`: nothing, or what `read` reads. -/
def readList {α : Type} (close : Char) (read : List Char → Option (List α × List Char))
    (s : List Char) : Option (List α × List Char) :=
  match s.dropWhile isSpace with
  | [] => none
  | c :: s => if c = close then some ([], s) else read (c :: s)

mutual

/-- The value at the beginning of a text, and what follows it. -/
def readValue : Nat → List Char → Option (Json × List Char)
  | 0, _ => none
  | fuel + 1, s => match s.dropWhile isSpace with
    | '"' :: s => do
      let (cs, s) ← readString (s.length + 1) s
      return (str cs, s)
    | '[' :: s => do
      let (items, s) ← readList ']' (readItems fuel) s
      return (arr items, s)
    | '{' :: s => do
      let (members, s) ← readList '}' (readMembers fuel) s
      return (obj members, s)
    | 'n' :: 'u' :: 'l' :: 'l' :: s => some (null, s)
    | 't' :: 'r' :: 'u' :: 'e' :: s => some (bool true, s)
    | 'f' :: 'a' :: 'l' :: 's' :: 'e' :: s => some (bool false, s)
    | s =>
      let lit := s.takeWhile isNumberChar
      if isNumber lit then some (num lit, s.dropWhile isNumberChar) else none

/-- The items of an array, one at least, up to its end. -/
def readItems : Nat → List Char → Option (List Json × List Char)
  | 0, _ => none
  | fuel + 1, s => do
    let (v, s) ← readValue fuel s
    match s.dropWhile isSpace with
    | ',' :: s =>
      let (items, s) ← readItems fuel s
      return (v :: items, s)
    | ']' :: s => return ([v], s)
    | _ => none

/-- The members of an object, one at least, up to its end. -/
def readMembers : Nat → List Char → Option (List (List Char × Json) × List Char)
  | 0, _ => none
  | fuel + 1, s => match s.dropWhile isSpace with
    | '"' :: s => do
      let (key, s) ← readString (s.length + 1) s
      match s.dropWhile isSpace with
      | ':' :: s =>
        let (v, s) ← readValue fuel s
        match s.dropWhile isSpace with
        | ',' :: s =>
          let (members, s) ← readMembers fuel s
          return ((key, v) :: members, s)
        | '}' :: s => return ([(key, v)], s)
        | _ => none
      | _ => none
    | _ => none

end

/-- The value that a text stands for. -/
def decode (s : List Char) : Option Json := do
  let (v, s) ← readValue (2 * s.length + 1) s
  if s.all isSpace then return v else none

/-! ## Objects -/

/-- The members of an object for readers that keep the last one with a key. -/
def items {α : Type} (members : List (List Char × α)) : List (List Char × α) :=
  members.pwFilter fun x y => x.1 ≠ y.1

/-- The value of a key. -/
def get? (members : List (List Char × Json)) (key : List Char) : Option Json :=
  (items members).lookup key

/-- No key occurs twice among the items. -/
theorem pairwise_items (members : List (List Char × Json)) :
    (items members).Pairwise fun x y => x.1 ≠ y.1 := List.pairwise_pwFilter _

/-- An object without two members for a key has all of them. -/
theorem items_of_nodup {members : List (List Char × Json)}
    (h : (members.map Prod.fst).Nodup) : items members = members :=
  List.pwFilter_eq_self.mpr (List.pairwise_map.mp h)

theorem mem_of_mem_items {members : List (List Char × Json)} {m : List Char × Json}
    (h : m ∈ items members) : m ∈ members :=
  (List.pwFilter_sublist _).subset h

/-- Which members are kept does not depend on their values. -/
theorem items_map {α β : Type} (f : α → β) (members : List (List Char × α)) :
    items (members.map fun m => (m.1, f m.2)) = (items members).map fun m => (m.1, f m.2) :=
  List.pwFilter_map _ _

/-- The last member is kept. -/
theorem mem_items_concat (members : List (List Char × Json)) (m : List Char × Json) :
    m ∈ items (members ++ [m]) := by
  unfold items
  induction members with
  | nil => simp [List.pwFilter]
  | cons x members ih =>
    -- the first member is kept unless a later one has its key; in both cases the last one stays
    by_cases h : ∀ y ∈ (members ++ [m]).pwFilter fun x y => x.1 ≠ y.1, x.1 ≠ y.1
    · rw [List.cons_append, List.pwFilter_cons_of_pos h]
      exact List.mem_cons_of_mem _ ih
    · rwa [List.cons_append, List.pwFilter_cons_of_neg h]

/-- Of an object without two members for a key, any one can be looked up. -/
theorem get?_eq_some_iff {members : List (List Char × Json)}
    (h : (members.map Prod.fst).Nodup) {key : List Char} {v : Json} :
    get? members key = some v ↔ (key, v) ∈ members := by
  rw [get?, items_of_nodup h]
  induction members with
  | nil => simp
  | cons m members ih =>
    rw [List.map_cons, List.nodup_cons] at h
    rw [List.mem_cons, ← ih h.2, List.lookup_cons]
    by_cases hkey : key = m.1
    · subst hkey
      -- no other member has this key
      have hnone : members.lookup m.1 = none := by
        rw [List.lookup_eq_none_iff]
        intro x hx
        rw [bne_iff_ne]
        intro heq
        exact h.1 (heq ▸ List.mem_map_of_mem hx)
      simp only [beq_self_eq_true, hnone, reduceCtorEq, or_false, Option.some.injEq]
      exact ⟨fun heq => heq ▸ rfl, fun heq => (congrArg Prod.snd heq).symm⟩
    · have hne : (key, v) ≠ m := fun heq => hkey (congrArg Prod.fst heq)
      have hbeq : (key == m.1) = false := beq_eq_false_iff_ne.mpr hkey
      simp only [hbeq, hne, false_or]

/-- All number literals of a value are well formed. -/
inductive Valid : Json → Prop where
  | null : Valid null
  | bool (b : Bool) : Valid (bool b)
  | num {lit : List Char} (h : isNumber lit = true) : Valid (num lit)
  | str (s : List Char) : Valid (str s)
  | arr {items : List Json} (h : ∀ v ∈ items, Valid v) : Valid (arr items)
  | obj {members : List (List Char × Json)} (h : ∀ m ∈ members, Valid m.2) : Valid (obj members)

/-- How a writer writes: the text of a character in a string, and what it writes behind the
    colons and commas. -/
structure Style where
  escape : Char → List Char
  space : List Char

variable (style : Style)

/-- A string with its quotes. -/
def printString (s : List Char) : List Char := '"' :: (s.flatMap style.escape ++ ['"'])

mutual

def print : Json → List Char
  | null => "null".toList
  | bool b => if b then "true".toList else "false".toList
  | num lit => lit
  | str s => printString style s
  | arr items => '[' :: (printItems items ++ [']'])
  | obj members => '{' :: (printMembers members ++ ['}'])
termination_by structural v => v

def printItems : List Json → List Char
  | [] => []
  | v :: items =>
    print v ++ (if items.isEmpty then [] else ',' :: style.space ++ printItems items)
termination_by structural items => items

def printMembers : List (List Char × Json) → List Char
  | [] => []
  | m :: members =>
    printMember m ++ (if members.isEmpty then [] else ',' :: style.space ++ printMembers members)
termination_by structural members => members

def printMember : List Char × Json → List Char
  | (key, v) => printString style key ++ ':' :: style.space ++ print v
termination_by structural m => m

end

/-! ## Reading what was written -/

/-- Each character is read back, and the spaces are none but white space. -/
structure Style.Readable : Prop where
  readChar (c : Char) (s : List Char) : readChar (style.escape c ++ s) = some (c, s)
  head (c : Char) : (style.escape c).head? ≠ some '"'
  space : ∀ c ∈ style.space, isSpace c = true

variable {style}

/-- The escape of a character has a first character, and it is no quote. -/
theorem Style.Readable.escape_eq_cons (hstyle : style.Readable) (c : Char) :
    ∃ x t, style.escape c = x :: t ∧ x ≠ '"' := by
  have hread := hstyle.readChar c []
  have hhead := hstyle.head c
  cases hc : style.escape c with
  | nil =>
    rw [hc] at hread
    cases hread
  | cons x t =>
    rw [hc] at hhead
    exact ⟨x, t, rfl, fun h => hhead (by rw [h]; rfl)⟩

/-- Before a character that is no quote, a string goes on. -/
theorem readString_of_ne {fuel : Nat} {x : Char} {s : List Char} (hx : x ≠ '"') :
    readString (fuel + 1) (x :: s) = (readChar (x :: s)).bind fun p =>
      (readString fuel p.2).bind fun q => some (p.1 :: q.1, q.2) := by
  rw [readString]
  · rfl
  · rintro s' heq
    exact hx (List.cons.inj heq).1

/-- A string is read up to its quote. -/
theorem readString_print (hstyle : style.Readable) {s : List Char} {fuel : Nat}
    (hfuel : s.length < fuel) (rest : List Char) :
    readString fuel (s.flatMap style.escape ++ '"' :: rest) = some (s, rest) := by
  -- character by character, with one unit of fuel each
  induction s generalizing fuel with
  | nil =>
    obtain ⟨n, rfl⟩ := Nat.exists_eq_add_of_lt hfuel
    rfl
  | cons c s ih =>
    obtain ⟨n, rfl⟩ := Nat.exists_eq_succ_of_ne_zero (Nat.ne_zero_of_lt hfuel)
    obtain ⟨x, t, hc, hx⟩ := hstyle.escape_eq_cons c
    have hread := hstyle.readChar c (s.flatMap style.escape ++ '"' :: rest)
    have hrest := ih (Nat.lt_of_succ_lt_succ hfuel)
    rw [List.flatMap_cons, List.append_assoc, hc, List.cons_append, readString_of_ne hx,
      ← List.cons_append, ← hc, hread, Option.bind_some, hrest]
    rfl

/-- The white space at the beginning of a value is passed over. -/
theorem readValue_space {sp : List Char} (hsp : ∀ c ∈ sp, isSpace c = true) (fuel : Nat)
    (s : List Char) : readValue fuel (sp ++ s) = readValue fuel s := by
  cases fuel with
  | zero => rfl
  | succ fuel => rw [readValue, readValue, List.dropWhile_append_of_pos hsp]

/-- White space before an item is passed over. -/
theorem readItems_space {sp : List Char} (hsp : ∀ c ∈ sp, isSpace c = true) (fuel : Nat)
    (s : List Char) : readItems fuel (sp ++ s) = readItems fuel s := by
  cases fuel with
  | zero => rfl
  | succ fuel => rw [readItems, readItems, readValue_space hsp]

/-- White space before a member is passed over. -/
theorem readMembers_space {sp : List Char} (hsp : ∀ c ∈ sp, isSpace c = true) (fuel : Nat)
    (s : List Char) : readMembers fuel (sp ++ s) = readMembers fuel s := by
  cases fuel with
  | zero => rfl
  | succ fuel => rw [readMembers, readMembers, List.dropWhile_append_of_pos hsp]

/-! ### Numbers -/

/-- A literal consists of characters of numbers. -/
theorem isNumberChar_of_isNumber {lit : List Char} (h : isNumber lit = true) :
    ∀ c ∈ lit, isNumberChar c = true := by
  unfold isNumber at h
  exact List.all_eq_true.mp (Bool.and_eq_true_iff.mp h).1

/-- White space is no character of a number. -/
theorem isSpace_of_isNumberChar {c : Char} (h : isNumberChar c = true) : isSpace c = false := by
  rw [Bool.eq_false_iff]
  intro hspace
  simp only [isSpace, decide_eq_true_eq] at hspace
  rcases hspace with rfl | rfl | rfl | rfl <;> exact absurd h (by decide)

/-- A literal is read up to a character that is none of its own. -/
theorem takeWhile_isNumberChar {lit rest : List Char} (hlit : ∀ c ∈ lit, isNumberChar c = true)
    (hrest : ∀ c ∈ rest.head?, isNumberChar c = false) :
    (lit ++ rest).takeWhile isNumberChar = lit ∧ (lit ++ rest).dropWhile isNumberChar = rest := by
  rw [List.takeWhile_append_of_pos hlit, List.dropWhile_append_of_pos hlit]
  cases rest with
  | nil => simp
  | cons c rest =>
    have hc : isNumberChar c = false := hrest c rfl
    simp [hc]

/-- Whether a value begins with this character. -/
def startsValue (c : Char) : Bool :=
  !isSpace c && c != ']' && c != '}'

/-- A literal is a value, so its first character may begin one. -/
theorem startsValue_of_isNumberChar {c : Char} (h : isNumberChar c = true) :
    startsValue c = true := by
  rw [startsValue, isSpace_of_isNumberChar h]
  have hbracket : c ≠ ']' := by
    rintro rfl
    exact absurd h (by decide)
  have hbrace : c ≠ '}' := by
    rintro rfl
    exact absurd h (by decide)
  simp [hbracket, hbrace]

/-- The text of a value begins with a character that is neither white space nor the end of an
    array or object. -/
theorem exists_print_eq_cons {v : Json} (hv : v.Valid) :
    ∃ c t, print style v = c :: t ∧ startsValue c = true := by
  -- the kind of value tells the first character of its text
  cases hv with
  | null => exact ⟨'n', _, rfl, by decide⟩
  | bool b =>
    cases b with
    | true => exact ⟨'t', _, rfl, by decide⟩
    | false => exact ⟨'f', _, rfl, by decide⟩
  | @num lit h =>
    cases lit with
    | nil => cases h
    | cons c lit =>
      exact ⟨c, lit, rfl, startsValue_of_isNumberChar (isNumberChar_of_isNumber h c (by simp))⟩
  | str s => exact ⟨'"', _, rfl, by decide⟩
  | arr h => exact ⟨'[', _, rfl, by decide⟩
  | obj h => exact ⟨'{', _, rfl, by decide⟩

/-! ### Values -/

/-- Where a value begins, there is no white space to pass over. -/
theorem dropWhile_of_startsValue {c : Char} (hc : startsValue c = true) (s : List Char) :
    (c :: s).dropWhile isSpace = c :: s := by
  simp only [startsValue, Bool.and_eq_true, Bool.not_eq_true'] at hc
  rw [List.dropWhile_cons_of_neg (by simp [hc.1.1])]

/-- A literal is read as its number, if nothing follows that could be a part of it. -/
theorem readValue_num {lit rest : List Char} (hlit : isNumber lit = true)
    (hrest : ∀ c ∈ rest.head?, isNumberChar c = false) (fuel : Nat) :
    readValue (fuel + 1) (lit ++ rest) = some (num lit, rest) := by
  have hchars := isNumberChar_of_isNumber hlit
  obtain ⟨htake, hdrop⟩ := takeWhile_isNumberChar hchars hrest
  cases lit with
  | nil => cases hlit
  | cons c lit =>
    have hc := hchars c List.mem_cons_self
    have hspace := dropWhile_of_startsValue (startsValue_of_isNumberChar hc) (lit ++ rest)
    rw [List.cons_append] at htake hdrop ⊢
    rw [readValue, hspace]
    -- no other value begins with a character of a number
    split
    all_goals first
      | rename_i heq
        obtain ⟨rfl, -⟩ := List.cons.inj heq
        exact absurd hc (by decide)
      | rw [htake, hdrop, if_pos hlit]

/-- The text of `v`, with anything behind it that does not continue a number, is read as `v`. -/
def ReadsBack (style : Style) (v : Json) : Prop :=
  ∀ fuel rest, 2 * (print style v).length < fuel →
    (∀ c ∈ rest.head?, isNumberChar c = false) →
      readValue fuel (print style v ++ rest) = some (v, rest)

/-- The items of an array are read one after the other. -/
theorem readItems_print (hstyle : style.Readable) {items : List Json} (hne : items ≠ [])
    (hitems : ∀ v ∈ items, ReadsBack style v) {fuel : Nat}
    (hfuel : 2 * (printItems style items).length + 1 < fuel) (rest : List Char) :
    readItems fuel (printItems style items ++ ']' :: rest) = some (items, rest) := by
  -- induction on the items: the last one ends at the bracket, any other at a comma
  induction items generalizing fuel with
  | nil => exact absurd rfl hne
  | cons v items ih =>
    obtain ⟨n, rfl⟩ := Nat.exists_eq_succ_of_ne_zero (Nat.ne_zero_of_lt hfuel)
    rw [List.forall_mem_cons] at hitems
    rw [printItems] at hfuel ⊢
    cases items with
    | nil =>
      simp only [List.isEmpty_nil, if_true, List.append_nil] at hfuel ⊢
      rw [readItems, hitems.1 n _ (by omega) (by simp; decide)]
      rfl
    | cons w items =>
      simp only [List.isEmpty_cons, Bool.false_eq_true, if_false, List.length_append,
        List.length_cons] at hfuel
      have hlength : 2 * (printItems style (w :: items)).length + 1 < n := by omega
      have hrest := ih (List.cons_ne_nil _ _) hitems.2 hlength
      simp only [List.isEmpty_cons, Bool.false_eq_true, if_false, List.append_assoc,
        List.cons_append]
      rw [readItems, hitems.1 n _ (by omega) (by simp; decide)]
      show (readItems n (style.space ++ _)).bind _ = _
      rw [readItems_space hstyle.space, hrest]
      rfl

/-- The text of a key, with anything behind it. -/
theorem readString_printString (hstyle : style.Readable) (key rest : List Char) :
    readString ((key.flatMap style.escape ++ '"' :: rest).length + 1)
      (key.flatMap style.escape ++ '"' :: rest) = some (key, rest) := by
  apply readString_print hstyle
  -- each character takes one or more, so there is fuel for all of them
  have hle : key.length ≤ (key.flatMap style.escape).length := by
    rw [List.length_flatMap]
    calc key.length = (key.map fun _ => 1).sum := by simp
      _ ≤ (key.map fun c => (style.escape c).length).sum := by
        refine List.sum_le_sum fun c _ => ?_
        obtain ⟨x, t, hc, -⟩ := hstyle.escape_eq_cons c
        rw [hc]
        exact Nat.succ_pos _
  rw [List.length_append]
  omega

/-- A key is read, and then its value from `t` on. -/
theorem readMembers_key (hstyle : style.Readable) {key t : List Char} {n : Nat} {v : Json} :
    (∀ r, readValue n t = some (v, '}' :: r) →
      readMembers (n + 1) (printString style key ++ ':' :: t) = some ([(key, v)], r)) ∧
    ∀ s members r, readValue n t = some (v, ',' :: s) → readMembers n s = some (members, r) →
      readMembers (n + 1) (printString style key ++ ':' :: t) =
        some ((key, v) :: members, r) := by
  rw [printString, List.cons_append, List.append_assoc, List.singleton_append, readMembers,
    dropWhile_of_startsValue (by decide)]
  have hkey := readString_printString hstyle key (':' :: t)
  constructor
  · intro r hv
    show (readString _ (key.flatMap style.escape ++ '"' :: (':' :: t))).bind _ = _
    rw [hkey]
    show (readValue n t).bind _ = _
    rw [hv]
    rfl
  · intro s members r hv hmembers
    show (readString _ (key.flatMap style.escape ++ '"' :: (':' :: t))).bind _ = _
    rw [hkey]
    show (readValue n t).bind _ = _
    rw [hv]
    show (readMembers n s).bind _ = _
    rw [hmembers]
    rfl

/-- The members of an object are read one after the other. -/
theorem readMembers_print (hstyle : style.Readable) {members : List (List Char × Json)}
    (hne : members ≠ []) (hmembers : ∀ m ∈ members, ReadsBack style m.2) {fuel : Nat}
    (hfuel : 2 * (printMembers style members).length + 1 < fuel) (rest : List Char) :
    readMembers fuel (printMembers style members ++ '}' :: rest) = some (members, rest) := by
  -- induction on the members: the last one ends at the brace, any other at a comma
  induction members generalizing fuel with
  | nil => exact absurd rfl hne
  | cons m members ih =>
    obtain ⟨key, v⟩ := m
    obtain ⟨n, rfl⟩ := Nat.exists_eq_succ_of_ne_zero (Nat.ne_zero_of_lt hfuel)
    rw [List.forall_mem_cons] at hmembers
    rw [printMembers, printMember] at hfuel ⊢
    cases members with
    | nil =>
      simp only [List.isEmpty_nil, if_true, List.append_nil, List.length_append,
        List.length_cons] at hfuel
      have hv := hmembers.1 n ('}' :: rest) (by dsimp only; omega) (by simp; decide)
      simp only [List.isEmpty_nil, if_true, List.append_nil, List.append_assoc, List.cons_append]
      exact (readMembers_key hstyle).1 rest (by rw [readValue_space hstyle.space, hv])
    | cons w members =>
      simp only [List.isEmpty_cons, Bool.false_eq_true, if_false, List.length_append,
        List.length_cons] at hfuel
      have hv := hmembers.1 n (',' :: (style.space ++ (printMembers style (w :: members) ++
        '}' :: rest))) (by dsimp only; omega) (by simp; decide)
      have hlength : 2 * (printMembers style (w :: members)).length + 1 < n := by omega
      have hrest := ih (List.cons_ne_nil _ _) hmembers.2 hlength
      simp only [List.isEmpty_cons, Bool.false_eq_true, if_false, List.append_assoc,
        List.cons_append]
      refine (readMembers_key hstyle).2 _ _ rest (by rw [readValue_space hstyle.space, hv]) ?_
      rw [readMembers_space hstyle.space, hrest]

/-- What begins a value does not end an array or an object. -/
theorem readList_of_startsValue {α : Type} {close c : Char} (hc : startsValue c = true)
    (hclose : close = ']' ∨ close = '}') (read : List Char → Option (List α × List Char))
    (s : List Char) : readList close read (c :: s) = read (c :: s) := by
  rw [readList, dropWhile_of_startsValue hc]
  simp only [startsValue, Bool.and_eq_true, bne_iff_ne] at hc
  rcases hclose with rfl | rfl
  · exact if_neg hc.1.2
  · exact if_neg hc.2

/-- The text of a value is read as the value. -/
theorem readsBack_of_valid (hstyle : style.Readable) {v : Json} (hv : v.Valid) :
    ReadsBack style v := by
  intro fuel rest hfuel hrest
  obtain ⟨n, rfl⟩ := Nat.exists_eq_succ_of_ne_zero (Nat.ne_zero_of_lt hfuel)
  -- induction on the value: its items and members are read back with the fuel that is left
  induction hv generalizing n rest with
  | null => rfl
  | bool b => cases b <;> rfl
  | num h => exact readValue_num h hrest n
  | str s =>
    rw [print, printString, List.cons_append, List.append_assoc, List.singleton_append, readValue,
      dropWhile_of_startsValue (by decide)]
    show (readString _ (s.flatMap style.escape ++ '"' :: rest)).bind _ = _
    rw [readString_printString hstyle]
    rfl
  | @arr items hitems ih =>
    rw [print, List.length_cons, List.length_append] at hfuel
    rw [print, List.cons_append, List.append_assoc, List.singleton_append]
    cases items with
    | nil => rfl
    -- an item is left, so the array is not empty and its first character begins a value
    | cons v items =>
      have hlength : 2 * (printItems style (v :: items)).length + 1 < n := by
        rw [List.length_singleton] at hfuel
        omega
      have hback := readItems_print hstyle (List.cons_ne_nil v items)
        (fun w hw fuel rest hfuel hrest => by
          obtain ⟨n, rfl⟩ := Nat.exists_eq_succ_of_ne_zero (Nat.ne_zero_of_lt hfuel)
          exact ih w hw rest hrest n hfuel) hlength rest
      obtain ⟨c, t, hc, hstart⟩ : ∃ c t, print style v = c :: t ∧ startsValue c = true :=
        exists_print_eq_cons (hitems v List.mem_cons_self)
      rw [printItems, hc, List.append_assoc, List.cons_append] at hback ⊢
      rw [readValue, dropWhile_of_startsValue (by decide)]
      show (readList ']' (readItems n) (c :: _)).bind _ = _
      rw [readList_of_startsValue hstart (.inl rfl), hback]
      rfl
  | @obj members hmembers ih =>
    rw [print, List.length_cons, List.length_append] at hfuel
    rw [print, List.cons_append, List.append_assoc, List.singleton_append]
    cases members with
    | nil => rfl
    | cons m members =>
      have hlength : 2 * (printMembers style (m :: members)).length + 1 < n := by
        rw [List.length_singleton] at hfuel
        omega
      have hback := readMembers_print hstyle (List.cons_ne_nil m members)
        (fun w hw fuel rest hfuel hrest => by
          obtain ⟨n, rfl⟩ := Nat.exists_eq_succ_of_ne_zero (Nat.ne_zero_of_lt hfuel)
          exact ih w hw rest hrest n hfuel) hlength rest
      rw [printMembers, printMember, printString] at hback ⊢
      simp only [List.cons_append, List.append_assoc] at hback ⊢
      rw [readValue, dropWhile_of_startsValue (by decide)]
      show (readList '}' (readMembers n) ('"' :: _)).bind _ = _
      rw [readList_of_startsValue (by decide) (.inr rfl), hback]
      rfl

/-- A text is the value that it was written for. -/
theorem decode_print (hstyle : style.Readable) {v : Json} (hv : v.Valid) :
    decode (print style v) = some v := by
  have hback := readsBack_of_valid hstyle hv (2 * (print style v).length + 1) []
    (Nat.lt_succ_self _) (by simp)
  rw [List.append_nil] at hback
  rw [decode, hback]
  rfl

end Json
